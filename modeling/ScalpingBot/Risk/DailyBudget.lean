import ScalpingBot.Risk.DailyRisk

/-! Overlapping calls of the daily store: the lock of a day is latched, and the budget that a call
    returns is that of the persisted baseline exactly if the first calls of a day agree on it. -/

namespace ScalpingBot.Risk

open Transition

/-! ### What a call has computed before its upsert -/

structure DailyCall.Planned (zones : String → Except String TimeZone) (call : DailyCall) : Prop where
  day : ∃ zone, zones call.key.timezone = .ok zone ∧
    tradingDay zone call.input.now = .ok call.key.tradingDay
  text : isDecimalText call.excluded.baselineEquity
  fresh : call.existing = none →
    call.excluded.baselineEquity = call.input.currentEquity - call.input.netFlows
  found : ∀ row ∈ call.existing, call.excluded.baselineEquity = row.values.baselineEquity
  loss : call.excluded.lossPercent =
    (dailyLoss (call.input.lossInput call.excluded.baselineEquity)).lossPercent
  locked : call.excluded.lockedOut = (call.existing.any (·.values.lockedOut) ||
    (dailyLoss (call.input.lossInput call.excluded.baselineEquity)).lockedOut)

theorem baseline_fresh {input : DailyReconciliation} {dayStart : ℤ} {baseline : Decimal}
    (h : input.baseline dayStart none = .ok baseline) :
    baseline = input.currentEquity - input.netFlows := by
  simp only [DailyReconciliation.baseline, bind_ok, require_ok, decimal_ok, signedDecimal_ok,
    pure_ok] at h
  obtain ⟨_, -, current, ⟨rfl, hcurrent⟩, flows, ⟨rfl, hflows⟩, _, ⟨rfl, -⟩, _, -, rfl⟩ := h
  obtain ⟨_, -, -, hexact⟩ := minus_eq hcurrent hflows
  exact hexact

theorem select_ok {zones : String → Except String TimeZone} {table : DayKey → Option DailyRiskRow}
    {input : DailyReconciliation} {call : DailyCall} (h : input.select zones table = .ok call) :
    call.input = input ∧ call.existing = table call.key ∧ call.Planned zones := by
  simp only [DailyReconciliation.select, bind_ok, require_ok, decimal_ok, signedDecimal_ok,
    pure_ok] at h
  obtain ⟨_, -, zone, hzone, day, hday, dayStart, -, baseline, hbaseline, equity, -, balance, -,
    parsed, ⟨rfl, htext⟩, flows, -, rfl⟩ := h
  refine ⟨rfl, rfl, ⟨zone, hzone, hday⟩, htext, ?_, ?_, rfl, rfl⟩
  · intro hnone
    have hmissing : table ⟨input.accountId, day, input.timezone⟩ = none := hnone
    rw [hmissing] at hbaseline
    exact baseline_fresh hbaseline
  · rintro row hrow
    have hfound : table ⟨input.accountId, day, input.timezone⟩ = some row := hrow
    rw [hfound, DailyReconciliation.baseline] at hbaseline
    exact (Except.ok.inj hbaseline).symm

/-- The loss has at most eight places. -/
theorem dailyLoss_places (input : DailyLossInput) :
    ∃ n : ℕ, (dailyLoss input).lossPercent = n / 10 ^ 8 := by
  have hzero : ∃ n : ℕ, (0 : ℚ) = n / 10 ^ 8 := ⟨0, by norm_num⟩
  rw [dailyLoss]
  cases hmeasure : input.measure with
  | error e => exact hzero
  | ok loss =>
    simp only [DailyLossInput.measure, bind_ok, decimal_ok] at hmeasure
    obtain ⟨baseline, ⟨rfl, -⟩, hmeasure⟩ := hmeasure
    split at hmeasure
    · cases hmeasure
      exact hzero
    · next hpos =>
      simp only [bind_ok, decimal_ok, signedDecimal_ok, pure_ok] at hmeasure
      obtain ⟨flows, -, current, -, threshold, -, rfl⟩ := hmeasure
      refine ⟨_, Decimal.toDecimalPlacesUp_of_nonneg 8 (Decimal.times_nonneg ?_)⟩
      have hquot : 0 ≤ max 0 ((input.baselineEquity.plus flows).minus current) /
          input.baselineEquity := div_nonneg (le_max_left _ _) (not_le.mp hpos).le
      exact mul_nonneg (Significant.truncate_nonneg hquot) (by norm_num)

/-! ### Steps -/

variable {zones : String → Except String TimeZone}

/-- What a step of the overlapping calls can do. -/
theorem step_cases {s t : DailyRisk} {e : DailyStep} (h : s.step zones e = some t) :
    (∃ id input, e = .select id input ∧ (t = s ∨ ∃ call, input.select zones s.table = .ok call ∧
      t = { s with inFlight := Function.update s.inFlight id (some call) })) ∨
    ∃ id call, e = .upsert id ∧ s.inFlight id = some call ∧
      (t = { s with inFlight := Function.update s.inFlight id none } ∨
        ∃ row, call.excluded.upsert (s.table call.key) = .ok row ∧
          t = { table := Function.update s.table call.key (some row)
                inFlight := Function.update s.inFlight id none
                returned := ⟨call, call.answer row.values.lockedOut⟩ :: s.returned }) := by
  cases e with
  | select id input =>
    left
    refine ⟨id, input, rfl, ?_⟩
    simp only [DailyRisk.step] at h
    split at h
    · cases h
    · split at h
      · next call hcall => exact .inr ⟨call, hcall, (Option.some.inj h).symm⟩
      · exact .inl (Option.some.inj h).symm
  | upsert id =>
    right
    simp only [DailyRisk.step] at h
    split at h
    · cases h
    · next call hcall =>
      refine ⟨id, call, rfl, hcall, ?_⟩
      split at h
      · next row hrow => exact .inr ⟨row, hrow, (Option.some.inj h).symm⟩
      · exact .inl (Option.some.inj h).symm

theorem upsert_ok {excluded : DailyValues} {row : Option DailyRiskRow} {stored : DailyRiskRow}
    (h : excluded.upsert row = .ok stored) : stored.values = excluded.merged row := by
  rw [DailyValues.upsert] at h
  split at h
  · rw [← Except.ok.inj h]
  · cases h

/-! ### The latch -/

/-- Every call in flight has been planned, and the row it found still has its baseline. -/
structure Consistent (zones : String → Except String TimeZone) (s : DailyRisk) : Prop where
  planned : ∀ id call, s.inFlight id = some call → call.Planned zones
  kept : ∀ id call, s.inFlight id = some call → ∀ row ∈ call.existing,
    ∃ now, s.table call.key = some now ∧ now.values.baselineEquity = row.values.baselineEquity

/-- An upsert neither removes the row of a day nor changes its baseline or releases its lock. -/
theorem row_persists {s t : DailyRisk} {e : DailyStep} (h : s.step zones e = some t)
    {key : DayKey} {row : DailyRiskRow} (hrow : s.table key = some row) :
    ∃ now, t.table key = some now ∧ now.values.baselineEquity = row.values.baselineEquity ∧
      (row.values.lockedOut → now.values.lockedOut) := by
  rcases step_cases h with ⟨id, input, -, rfl | ⟨call, -, rfl⟩⟩ | ⟨id, call, -, -, rfl | ⟨new, hnew, rfl⟩⟩
  · exact ⟨row, hrow, rfl, fun hlocked => hlocked⟩
  · exact ⟨row, hrow, rfl, fun hlocked => hlocked⟩
  · exact ⟨row, hrow, rfl, fun hlocked => hlocked⟩
  · rcases eq_or_ne key call.key with rfl | hne
    · rw [hrow] at hnew
      refine ⟨new, Function.update_self .., ?_, ?_⟩
      · rw [upsert_ok hnew, DailyValues.merged]
      · intro hlocked
        simp [upsert_ok hnew, DailyValues.merged, hlocked]
    · exact ⟨row, by simp only [Function.update_of_ne hne, hrow], rfl, fun hlocked => hlocked⟩

theorem Consistent.step {s t : DailyRisk} {e : DailyStep} (hs : Consistent zones s)
    (h : s.step zones e = some t) : Consistent zones t := by
  have hkept : ∀ id call, s.inFlight id = some call → ∀ row ∈ call.existing, ∃ now,
      t.table call.key = some now ∧ now.values.baselineEquity = row.values.baselineEquity := by
    intro id call hcall row hrow
    obtain ⟨now, hnow, hbaseline⟩ := hs.kept id call hcall row hrow
    obtain ⟨later, hlater, hsame, -⟩ := row_persists h hnow
    exact ⟨later, hlater, hsame.trans hbaseline⟩
  have hold : ∀ id call other, (Function.update s.inFlight id none) other = some call →
      s.inFlight other = some call := by
    intro id call other hcall
    rcases eq_or_ne other id with rfl | hne
    · simp at hcall
    · rwa [Function.update_of_ne hne] at hcall
  rcases step_cases h with ⟨id, input, -, rfl | ⟨call, hselect, rfl⟩⟩ |
    ⟨id, call, -, -, rfl | ⟨new, hnew, rfl⟩⟩
  · exact hs
  · obtain ⟨-, hexisting, hplanned⟩ := select_ok hselect
    constructor
    · intro other found hfound
      rcases eq_or_ne other id with rfl | hne
      · obtain rfl : call = found := by simpa using hfound
        exact hplanned
      · exact hs.planned other found (by simpa [Function.update_of_ne hne] using hfound)
    · intro other found hfound row hrow
      rcases eq_or_ne other id with rfl | hne
      · obtain rfl : call = found := by simpa using hfound
        exact ⟨row, by rw [← Option.mem_def.mp hrow, hexisting], rfl⟩
      · exact hkept other found (by simpa [Function.update_of_ne hne] using hfound) row hrow
  · exact ⟨fun other found hfound => hs.planned other found (hold id found other hfound),
      fun other found hfound => hkept other found (hold id found other hfound)⟩
  · exact ⟨fun other found hfound => hs.planned other found (hold id found other hfound),
      fun other found hfound => hkept other found (hold id found other hfound)⟩

theorem consistent_start {s : DailyRisk} (h : ∀ id, s.inFlight id = none) : Consistent zones s := by
  constructor
  · intro id call hcall
    rw [h id] at hcall
    cases hcall
  · intro id call hcall
    rw [h id] at hcall
    cases hcall

/-- The store holds a lock for the day. -/
def DailyRisk.Locked (s : DailyRisk) (key : DayKey) : Prop :=
  ∃ row, s.table key = some row ∧ row.values.lockedOut

/-- The call returns a lock and no budget; it returns unless its threshold is no decimal text. -/
structure DailyReturn.Latched (r : DailyReturn) : Prop where
  locked : ∀ result, r.answer = .ok result → result.lockedOut ∧ result.remainingLossBudget = 0
  returns : isDecimalText r.call.input.thresholdPercent → ∃ result, r.answer = .ok result

theorem lossPercent_text {call : DailyCall} (hplanned : call.Planned zones)
    (hmax : call.excluded.lossPercent < 10 ^ 4) : isDecimalText call.excluded.lossPercent := by
  obtain ⟨n, hn⟩ := dailyLoss_places (call.input.lossInput call.excluded.baselineEquity)
  rw [hplanned.loss, hn] at hmax ⊢
  rw [div_lt_iff₀ (by norm_num)] at hmax
  have hlt : n < 10 ^ 12 := by
    have : (n : ℚ) < (10 ^ 12 : ℕ) := by
      push_cast
      linarith
    exact_mod_cast this
  refine isDecimalText_iff.mpr ⟨100 * n, by omega, ?_⟩
  push_cast
  ring

theorem answer_latched {call : DailyCall} {row : DailyRiskRow} {existing : Option DailyRiskRow}
    (hplanned : call.Planned zones) (hrow : call.excluded.upsert existing = .ok row)
    (hlocked : row.values.lockedOut) :
    DailyReturn.Latched ⟨call, call.answer row.values.lockedOut⟩ := by
  rw [hlocked]
  constructor
  · rintro result hresult
    simp only [DailyCall.answer, bind_ok, pure_ok] at hresult
    obtain ⟨_, -, _, -, _, -, rfl⟩ := hresult
    exact ⟨rfl, by simp⟩
  · intro hthreshold
    have hmax : call.excluded.lossPercent < 10 ^ 4 := by
      have hstored := row.storable.2.2.2
      rw [upsert_ok hrow] at hstored
      cases existing <;> exact hstored
    simp only [DailyCall.answer, decimal_eq _ hplanned.text, decimal_eq _ hthreshold,
      decimal_eq _ (lossPercent_text hplanned hmax), ok_bind]
    exact ⟨_, rfl⟩

theorem latch_step {s t : DailyRisk} {e : DailyStep} {key : DayKey} (hs : Consistent zones s)
    (hlocked : s.Locked key) (h : s.step zones e = some t) :
    ∃ new, t.returned = new ++ s.returned ∧ ∀ r ∈ new, r.call.key = key → r.Latched := by
  obtain ⟨row, hrow, hrowLocked⟩ := hlocked
  have hnothing : ∃ new, s.returned = new ++ s.returned ∧
      ∀ r ∈ new, r.call.key = key → r.Latched := ⟨[], rfl, by simp⟩
  rcases step_cases h with ⟨id, input, -, rfl | ⟨call, -, rfl⟩⟩ |
    ⟨id, call, -, hcall, rfl | ⟨new, hnew, rfl⟩⟩
  · exact hnothing
  · exact hnothing
  · exact hnothing
  · refine ⟨[⟨call, call.answer new.values.lockedOut⟩], rfl, ?_⟩
    rintro r hr hkey
    obtain rfl := List.mem_singleton.mp hr
    simp only at hkey
    have hlater : new.values.lockedOut := by
      rw [hkey, hrow] at hnew
      simp [upsert_ok hnew, DailyValues.merged, hrowLocked]
    exact answer_latched (hs.planned id call hcall) hnew hlater

theorem locked_step {s t : DailyRisk} {e : DailyStep} {key : DayKey} (hlocked : s.Locked key)
    (h : s.step zones e = some t) : t.Locked key := by
  obtain ⟨row, hrow, hrowLocked⟩ := hlocked
  obtain ⟨now, hnow, -, hkeeps⟩ := row_persists h hrow
  exact ⟨now, hnow, hkeeps hrowLocked⟩

/-- After a lock every call of the day that commits returns it. -/
theorem latch_run {es : List DailyStep} {s t : DailyRisk} {key : DayKey} (hs : Consistent zones s)
    (hlocked : s.Locked key) (h : run (DailyRisk.step zones) s es = some t) :
    ∃ new, t.returned = new ++ s.returned ∧ ∀ r ∈ new, r.call.key = key → r.Latched := by
  induction es generalizing s with
  | nil =>
    cases h
    exact ⟨[], rfl, by simp⟩
  | cons e es ih =>
    obtain ⟨u, hu, hrest⟩ := run_cons.mp h
    obtain ⟨first, hfirst, hfirstLatched⟩ := latch_step hs hlocked hu
    obtain ⟨later, hlater, hlaterLatched⟩ := ih (hs.step hu) (locked_step hlocked hu) hrest
    refine ⟨later ++ first, by rw [hlater, hfirst, List.append_assoc], ?_⟩
    intro r hr
    rcases List.mem_append.mp hr with hr | hr
    · exact hlaterLatched r hr
    · exact hfirstLatched r hr

/-- A step changes the row of a day only as the upsert of a call made on that day. -/
theorem changed_by_day {s t : DailyRisk} {e : DailyStep} {key : DayKey} (hs : Consistent zones s)
    (h : s.step zones e = some t) (hchanged : t.table key ≠ s.table key) :
    ∃ id call zone, e = .upsert id ∧ s.inFlight id = some call ∧ call.key = key ∧
      zones key.timezone = .ok zone ∧ tradingDay zone call.input.now = .ok key.tradingDay := by
  rcases step_cases h with ⟨id, input, -, rfl | ⟨call, -, rfl⟩⟩ |
    ⟨id, call, rfl, hcall, rfl | ⟨new, hnew, rfl⟩⟩
  · exact absurd rfl hchanged
  · exact absurd rfl hchanged
  · exact absurd rfl hchanged
  · rcases eq_or_ne key call.key with rfl | hne
    · obtain ⟨zone, hzone, hday⟩ := (hs.planned id call hcall).day
      exact ⟨id, call, zone, rfl, hcall, rfl, hzone, hday⟩
    · exact absurd (Function.update_of_ne hne _ _) hchanged

/-- Once a lock is persisted for a day, every call of that day whose upsert commits later returns a
    lock and no budget; a day's row is changed only by calls made on that day; and the start of a
    day is its first instant, where the texts of the days around it have years of one width. -/
theorem daily_lock (zones : String → Except String TimeZone) :
    (∀ start es s key fs t, (∀ id, start.inFlight id = none) →
      run (DailyRisk.step zones) start es = some s → s.Locked key →
      run (DailyRisk.step zones) s fs = some t →
        ∃ new, t.returned = new ++ s.returned ∧ ∀ r ∈ new, r.call.key = key → r.Latched) ∧
    (∀ start es s e t key, (∀ id, start.inFlight id = none) →
      run (DailyRisk.step zones) start es = some s → s.step zones e = some t →
      t.table key ≠ s.table key →
        ∃ id call zone, e = .upsert id ∧ s.inFlight id = some call ∧ call.key = key ∧
          zones key.timezone = .ok zone ∧
            tradingDay zone call.input.now = .ok key.tradingDay) ∧
    (∀ (zone : TimeZone) now, zone.Forward → zone.Searchable now →
      ∃ start, tradingDayStart zone now = .ok start ∧
        zone.localDate start = zone.localDate now ∧
        ∀ t < start, zone.localDate t ≠ zone.localDate now) := by
  have hconsistent : ∀ start es s, (∀ id, start.inFlight id = none) →
      run (DailyRisk.step zones) start es = some s → Consistent zones s := by
    intro start es s hstart hrun
    exact invariant (fun _ _ _ hs h => hs.step h) (consistent_start hstart) hrun
  refine ⟨?_, ?_, ?_⟩
  · intro start es s key fs t hstart hrun hlocked hrest
    exact latch_run (hconsistent start es s hstart hrun) hlocked hrest
  · intro start es s e t key hstart hrun hstep hchanged
    exact changed_by_day (hconsistent start es s hstart hrun) hstep hchanged
  · intro zone now hforward hsearchable
    exact hsearchable.tradingDayStart hforward

/-! ### Runs on one day -/

def emptyStore : DailyRisk := ⟨fun _ => none, fun _ => none, []⟩

/-- A reconciliation of 1 March 2026 at noon, with equity and balance alike. -/
def noon (equity : Decimal) : DailyReconciliation where
  accountId := "account"
  account := ⟨none, true, equity, equity, equity, 0, 0, false, false, []⟩
  timezone := "UTC"
  thresholdPercent := 5
  includeUnrealized := true
  netFlows := 0
  allowBaselineBootstrap := true
  baselineCaptureGraceSeconds := 300
  now := 1_772_366_400_000

def noonKey : DayKey := ⟨"account", "2026-03-01".toList.map Char.toNat, "UTC"⟩

/-- The calls one after another. -/
def callsOf (equities : List Decimal) : List DailyStep :=
  equities.flatMap fun equity => [.select 0 (noon equity), .upsert 0]

theorem utc_searchable : utc.Searchable 1_772_366_400_000 := by
  have hyears : ∀ n ∈ [739_673, 739_674, 739_675, 739_676, 739_677], (Calendar.date n).year = 2026 := by
    decide +kernel
  have hday : utc.localDay 1_772_366_400_000 = 739_675 := by
    rw [utc_localDay]
    norm_num
  have hnow : (utc.localDate 1_772_366_400_000).year = 2026 := by
    rw [TimeZone.localDate, hday]
    exact hyears _ (by simp)
  refine ⟨by norm_num [maxInstant], by rw [hnow]; norm_num, ?_⟩
  intro t ht
  rw [TimeZone.midnight, hday, TimeZone.epoch, abs_le] at ht
  have hyear : (utc.localDate t).year = 2026 := by
    rw [TimeZone.localDate]
    refine hyears _ ?_
    rw [utc_localDay]
    simp only [List.mem_cons, List.not_mem_nil, or_false]
    omega
  rw [hyear, hnow, abs_le, maxInstant]
  omega

theorem daily_lock_noon :
    (∃ s t, run (DailyRisk.step fun _ => .ok utc) emptyStore (callsOf [10000, 9400]) = some s ∧
      s.Locked noonKey ∧ run (DailyRisk.step fun _ => .ok utc) s (callsOf [10000]) = some t ∧
        ∃ new, t.returned = new ++ s.returned ∧ ∀ r ∈ new, r.call.key = noonKey → r.Latched) ∧
    ∃ start, tradingDayStart utc 1_772_366_400_000 = .ok start ∧
      utc.localDate start = utc.localDate 1_772_366_400_000 ∧
      ∀ t < start, utc.localDate t ≠ utc.localDate 1_772_366_400_000 := by
  have h : (run (DailyRisk.step fun _ => .ok utc) emptyStore (callsOf [10000, 9400])).any (fun s =>
      (s.table noonKey).any (·.values.lockedOut) &&
        (run (DailyRisk.step fun _ => .ok utc) s (callsOf [10000])).isSome) = true := by
    decide +kernel
  obtain ⟨s, hs, hs'⟩ := (Option.any_eq_true _ _).mp h
  obtain ⟨hlocked, hrest⟩ := (Bool.and_eq_true _ _).mp hs'
  obtain ⟨row, hrow, hrowLocked⟩ := (Option.any_eq_true _ _).mp hlocked
  obtain ⟨t, ht⟩ := Option.isSome_iff_exists.mp hrest
  obtain ⟨hlatch, -, hstart⟩ := daily_lock fun _ => .ok utc
  exact ⟨⟨s, t, hs, ⟨row, hrow, hrowLocked⟩, ht,
    hlatch emptyStore _ s noonKey _ t (fun _ => rfl) hs ⟨row, hrow, hrowLocked⟩ ht⟩,
    hstart utc 1_772_366_400_000 utc_forward utc_searchable⟩

/-! ### The budget -/

/-- The result is that of the row's baseline: its loss, and no more budget than the limit leaves. -/
structure DailyCall.OfBaseline (call : DailyCall) (result : DailyRiskResult)
    (persisted : Decimal) : Prop where
  loss : result.lossPercent = (dailyLoss (call.input.lossInput persisted)).lossPercent
  remaining : result.remainingLossBudget ≤ call.input.thresholdPercent / 100 * persisted -
    max 0 (persisted + call.input.netFlows - call.input.currentEquity)

/-- Whatever has been returned without a lock is the result of the persisted baseline. -/
def DailyRisk.Covered (s : DailyRisk) : Prop :=
  ∀ r ∈ s.returned, ∀ result, r.answer = .ok result → result.lockedOut = false →
    ∃ row, s.table r.call.key = some row ∧ r.call.OfBaseline result row.values.baselineEquity

/-- A call that found no row meets at its upsert no unlocked row with a baseline other than its
    equity less its flows. Thresholds are percents. -/
def BaselineAgrees (s : DailyRisk) : DailyStep → Prop
  | .select _ input => input.thresholdPercent ≤ 100
  | .upsert id => ∀ call, s.inFlight id = some call → call.existing = none →
      ∀ row, s.table call.key = some row → row.values.lockedOut ∨
        row.values.baselineEquity = call.input.currentEquity - call.input.netFlows

theorem answer_ofBaseline {call : DailyCall} {result : DailyRiskResult}
    (hplanned : call.Planned zones) (hthreshold : call.input.thresholdPercent ≤ 100)
    (hunlocked : call.excluded.lockedOut = false) (h : call.answer false = .ok result) :
    call.OfBaseline result call.excluded.baselineEquity := by
  have hloss : (dailyLoss (call.input.lossInput call.excluded.baselineEquity)).lockedOut = false := by
    have hlocked := hplanned.locked
    rw [hunlocked] at hlocked
    exact (Bool.or_eq_false_iff.mp hlocked.symm).2
  have hremaining := remaining_le hloss hthreshold
  simp only [DailyCall.answer, bind_ok, pure_ok, decimal_ok] at h
  obtain ⟨_, ⟨rfl, -⟩, _, ⟨rfl, -⟩, _, ⟨rfl, -⟩, rfl⟩ := h
  refine ⟨hplanned.loss, ?_⟩
  simp only [Bool.false_eq_true, if_false]
  rw [hplanned.loss]
  exact hremaining

/-- The invariant of runs whose first calls agree. -/
structure Budgeted (zones : String → Except String TimeZone) (s : DailyRisk) : Prop where
  consistent : Consistent zones s
  threshold : ∀ id call, s.inFlight id = some call → call.input.thresholdPercent ≤ 100
  covered : s.Covered

/-- An upsert that leaves the day unlocked stores the baseline that its call computed with. -/
theorem Consistent.upsert_unlocked {s : DailyRisk} {id : ℕ} {call : DailyCall} {new : DailyRiskRow}
    (hs : Consistent zones s) (hagrees : BaselineAgrees s (.upsert id))
    (hcall : s.inFlight id = some call) (hnew : call.excluded.upsert (s.table call.key) = .ok new)
    (hunlocked : new.values.lockedOut = false) :
    call.excluded.lockedOut = false ∧
      new.values.baselineEquity = call.excluded.baselineEquity := by
  have hplanned := hs.planned id call hcall
  have hvalues := upsert_ok hnew
  cases hrow : s.table call.key with
  | none =>
    rw [hrow, DailyValues.merged] at hvalues
    rw [hvalues] at hunlocked ⊢
    exact ⟨hunlocked, rfl⟩
  | some row =>
    rw [hrow, DailyValues.merged] at hvalues
    have hboth : (row.values.lockedOut || call.excluded.lockedOut) = false := by
      rw [← hunlocked, hvalues]
    obtain ⟨hrowUnlocked, hexcluded⟩ := Bool.or_eq_false_iff.mp hboth
    refine ⟨hexcluded, ?_⟩
    rw [hvalues]
    cases hexisting : call.existing with
    | none =>
      rcases hagrees call hcall hexisting row hrow with hlocked | hsame
      · simp [hrowUnlocked] at hlocked
      · rw [hsame, hplanned.fresh hexisting]
    | some old =>
      obtain ⟨now, hnow, hkept⟩ := hs.kept id call hcall old hexisting
      obtain rfl : row = now := Option.some.inj (hrow.symm.trans hnow)
      rw [hkept, hplanned.found old hexisting]

theorem Budgeted.step {s t : DailyRisk} {e : DailyStep} (hs : Budgeted zones s)
    (hagrees : BaselineAgrees s e) (h : s.step zones e = some t) : Budgeted zones t := by
  have hkept : ∀ r ∈ s.returned, ∀ result, r.answer = .ok result → result.lockedOut = false →
      ∃ row, t.table r.call.key = some row ∧
        r.call.OfBaseline result row.values.baselineEquity := by
    intro r hr result hresult hunlocked
    obtain ⟨row, hrow, hof⟩ := hs.covered r hr result hresult hunlocked
    obtain ⟨now, hnow, hbaseline, -⟩ := row_persists h hrow
    exact ⟨now, hnow, by rwa [hbaseline]⟩
  have hconsistent := hs.consistent.step h
  have hold : ∀ id other call, (Function.update s.inFlight id none) other = some call →
      call.input.thresholdPercent ≤ 100 := by
    intro id other call hcall
    rcases eq_or_ne other id with rfl | hne
    · simp at hcall
    · exact hs.threshold other call (by rwa [Function.update_of_ne hne] at hcall)
  rcases step_cases h with ⟨id, input, rfl, rfl | ⟨call, hselect, rfl⟩⟩ |
    ⟨id, call, rfl, hcall, rfl | ⟨new, hnew, rfl⟩⟩
  · exact hs
  · refine ⟨hconsistent, ?_, hkept⟩
    intro other found hfound
    rcases eq_or_ne other id with rfl | hne
    · obtain rfl : call = found := by simpa using hfound
      rw [(select_ok hselect).1]
      exact hagrees
    · exact hs.threshold other found (by simpa [Function.update_of_ne hne] using hfound)
  · exact ⟨hconsistent, hold id, hkept⟩
  · refine ⟨hconsistent, hold id, ?_⟩
    intro r hr result hresult hunlocked
    rcases List.mem_cons.mp hr with rfl | hr
    · refine ⟨new, Function.update_self .., ?_⟩
      have hnewUnlocked : new.values.lockedOut = false := by
        rw [← hunlocked]
        simp only [DailyCall.answer, bind_ok, pure_ok] at hresult
        obtain ⟨_, -, _, -, _, -, rfl⟩ := hresult
        rfl
      obtain ⟨hexcluded, hbaseline⟩ :=
        hs.consistent.upsert_unlocked hagrees hcall hnew hnewUnlocked
      rw [hbaseline]
      rw [hnewUnlocked] at hresult
      exact answer_ofBaseline (hs.consistent.planned id call hcall) (hs.threshold id call hcall)
        hexcluded hresult
    · exact hkept r hr result hresult hunlocked

/-- In every run in which the first calls of a day agree on its baseline, what is returned without a
    lock is the result of the baseline that is persisted. -/
theorem covered_when_agreed (zones : String → Except String TimeZone) {start : DailyRisk}
    (hstart : ∀ id, start.inFlight id = none) (hnone : start.returned = []) {es : List DailyStep}
    (h : Guarded (DailyRisk.step zones) BaselineAgrees start es) :
    Throughout (DailyRisk.step zones) DailyRisk.Covered start es := by
  refine throughout_of_guarded (I := Budgeted zones) (fun _ hs => hs.covered)
    (fun _ _ _ hs hagrees hstep => hs.step hagrees hstep) ?_ h
  refine ⟨consistent_start hstart, ?_, ?_⟩
  · intro id call hcall
    rw [hstart id] at hcall
    cases hcall
  · intro r hr
    rw [hnone] at hr
    cases hr

/-! ### Two first calls -/

def firstCalls (first second : Decimal) : List DailyStep :=
  [.select 0 (noon first), .select 1 (noon second), .upsert 0, .upsert 1]

/-- A result without a lock whose budget exceeds what the persisted baseline leaves. -/
def DailyRisk.exceeds (s : DailyRisk) (r : DailyReturn) : Bool :=
  match r.answer, s.table r.call.key with
  | .ok result, some row => !result.lockedOut &&
      decide (r.call.input.thresholdPercent / 100 * row.values.baselineEquity -
        max 0 (row.values.baselineEquity + r.call.input.netFlows - r.call.input.currentEquity) <
          result.remainingLossBudget)
  | _, _ => false

theorem not_covered {s : DailyRisk} {r : DailyReturn} (hr : r ∈ s.returned)
    (h : s.exceeds r = true) : ¬ s.Covered := by
  intro hcovered
  rw [DailyRisk.exceeds] at h
  split at h
  · next result row hresult hrow =>
    simp only [Bool.and_eq_true, Bool.not_eq_true', decide_eq_true_eq] at h
    obtain ⟨now, hnow, hof⟩ := hcovered r hr result hresult h.1
    obtain rfl : row = now := Option.some.inj (hrow.symm.trans hnow)
    exact absurd hof.remaining (not_le.mpr h.2)
  · cases h

/-- The second of two overlapping first calls returns the budget of its own baseline. -/
theorem second_call_uncovered : ∃ t,
    run (DailyRisk.step fun _ => .ok utc) emptyStore (firstCalls 10000 9600) = some t ∧
      ¬ t.Covered := by
  have h : (run (DailyRisk.step fun _ => .ok utc) emptyStore (firstCalls 10000 9600)).any
      (fun s => s.returned.any s.exceeds) = true := by decide +kernel
  obtain ⟨t, ht, hany⟩ := (Option.any_eq_true _ _).mp h
  obtain ⟨r, hr, hexceeds⟩ := List.any_eq_true.mp hany
  exact ⟨t, ht, not_covered hr hexceeds⟩

/-- A test that implies the condition. -/
def agreesTest (s : DailyRisk) : DailyStep → Bool
  | .select _ input => decide (input.thresholdPercent ≤ 100)
  | .upsert id => match s.inFlight id with
    | some call => call.existing.isSome || match s.table call.key with
      | some row => row.values.lockedOut || decide (row.values.baselineEquity =
          call.input.currentEquity - call.input.netFlows)
      | none => true
    | none => true

theorem agrees_of_test {s : DailyRisk} {e : DailyStep} (h : agreesTest s e = true) :
    BaselineAgrees s e := by
  cases e with
  | select id input =>
    rw [agreesTest, decide_eq_true_eq] at h
    exact h
  | upsert id =>
    intro call hcall hnone row hrow
    simpa [agreesTest, hcall, hnone, hrow] using h

theorem covered_when_agreed_noon : Throughout (DailyRisk.step fun _ => .ok utc) DailyRisk.Covered
    emptyStore (firstCalls 10000 10000) :=
  covered_when_agreed (fun _ => .ok utc) (fun _ => rfl) rfl
    (guarded_of_checkRun (fun _ _ => agrees_of_test) (by decide +kernel))

end ScalpingBot.Risk
