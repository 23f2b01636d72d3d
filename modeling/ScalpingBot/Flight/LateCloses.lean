import Mathlib.Algebra.Order.Ring.Rat
import ScalpingBot.Flight.Excursions

/-! What stays in the metrics of a side when the close of a trade is reported late: the values of quotes
    from before the close, as long as no quote of a later source time arrived before one of them. -/

namespace ScalpingBot.FlightMetrics

variable {D μ : Type} (platform : Platform D μ)

/-! ### Legs and snapshots -/

/-- The values of a leg are those of the quotes it has seen, and it ends with the last of them. -/
structure Leg.Sound (leg : Leg D) : Prop where
  values : leg.excursion = replay platform leg.seen
  last : ∃ s, leg.seen.getLast? = some s ∧ s.source = leg.quoteAt

structure Invariant (f : Flight D) : Prop where
  legs : ∀ side leg, f.legs side = some leg → leg.Sound platform
  history : ∀ v ∈ f.metricHistory, v.leg.Sound platform ∧ v.at' = v.leg.quoteAt
  snapshot : ∀ setup, f.snapshot = some setup → f.setup = setup

variable {platform}

theorem sound_add (basis : D × D) {leg : Option (Leg D)} (h : ∀ l, leg = some l → l.Sound platform)
    (s : Sample D) : (Leg.add platform basis leg s).Sound platform := by
  cases leg with
  | none => exact ⟨rfl, s, rfl, rfl⟩
  | some leg =>
    refine ⟨?_, s, List.getLast?_concat, rfl⟩
    rw [Leg.add, replay, List.foldl_append, ← replay, ← (h leg rfl).values]
    rfl

/-- A flight with other counters has the same metrics. -/
theorem Invariant.of_metrics {f f' : Flight D} (h : Invariant platform f) (hlegs : f'.legs = f.legs)
    (hhistory : f'.metricHistory = f.metricHistory) (hsetup : f'.setup = f.setup)
    (hsnapshot : f'.snapshot = f.snapshot) : Invariant platform f' := by
  refine ⟨?_, ?_, ?_⟩
  · rw [hlegs]
    exact h.legs
  · rw [hhistory]
    exact h.history
  · rw [hsetup, hsnapshot]
    exact h.snapshot

theorem invariant_setLeg {f : Flight D} (side : Side) (leg : Option (Leg D))
    (h : Invariant platform f) (hleg : ∀ l, leg = some l → l.Sound platform) :
    Invariant platform (setLeg f side leg) := by
  refine ⟨fun other l hl => ?_, h.history, h.snapshot⟩
  by_cases hside : other = side
  · subst hside
    rw [setLeg_self] at hl
    exact hleg l hl
  · rw [setLeg_of_ne hside] at hl
    exact h.legs other l hl

/-- A gap changes no metrics. -/
theorem gap_cases (disk : Disk) (f : Flight D) : ∃ gaps appends,
    (gap disk f).1 = { f with gaps, appends } ∧ appends ≤ f.appends + 1 ∧ f.appends ≤ appends ∧
      ∀ failure, (gap disk f).2 = some failure → disk f.appends = some failure := by
  rw [gap]
  split
  · exact ⟨f.gaps, f.appends, rfl, Nat.le_succ _, Nat.le_refl _, nofun⟩
  · exact ⟨f.gaps + 1, f.appends + 1, rfl, Nat.le_refl _, Nat.le_succ _, fun _ h => h⟩

theorem invariant_gap {disk : Disk} {f : Flight D} (h : Invariant platform f) :
    Invariant platform (gap disk f).1 := by
  obtain ⟨gaps, appends, heq, -⟩ := gap_cases disk f
  rw [heq]
  exact h.of_metrics rfl rfl rfl rfl

/-! ### Closes -/

variable [DecidableEq D]

/-- What the leg of a side may go back to: itself, and the snapshots of its side and basis. -/
def keptStates (f : Flight D) (side : Side) : List (Leg D) :=
  match f.legs side with
  | none => []
  | some leg => leg :: (f.metricHistory.filter fun v => v.side = side && v.leg.basis = leg.basis).map
      Snapshot.leg

/-- What a closed trade leads to: the leg ends before it, goes back, or away after a gap. -/
theorem close_cases (disk : Disk) (f : Flight D) (trade : ClosedTrade) :
    ((close disk f trade) = (f, none) ∧
      ∀ leg, f.legs trade.side = some leg → leg.quoteAt < trade.closedAt) ∨
    (∃ leg v, f.legs trade.side = some leg ∧ trade.closedAt ≤ leg.quoteAt ∧
      before f trade leg = some v ∧ close disk f trade = (setLeg f trade.side (some v.leg), none)) ∨
    (∃ leg, f.legs trade.side = some leg ∧ (gap disk f).2 = none ∧
      close disk f trade = (setLeg (gap disk f).1 trade.side none, none)) ∨
    ∃ failure, (gap disk f).2 = some failure ∧ close disk f trade = ((gap disk f).1, some failure) := by
  cases hleg : f.legs trade.side with
  | none =>
    refine .inl ⟨by simp only [close, hleg], fun leg h => by cases h⟩
  | some leg =>
    by_cases hbefore : leg.quoteAt < trade.closedAt
    · refine .inl ⟨by simp only [close, hleg, if_pos hbefore], fun other h => ?_⟩
      cases h
      exact hbefore
    · cases hv : before f trade leg with
      | some v =>
        refine .inr (.inl ⟨leg, v, rfl, not_lt.mp hbefore, hv, ?_⟩)
        simp only [close, hleg, if_neg hbefore, hv]
      | none =>
        rcases hgap : gap disk f with ⟨f', failure⟩
        cases failure with
        | none =>
          refine .inr (.inr (.inl ⟨leg, rfl, rfl, ?_⟩))
          simp only [close, hleg, if_neg hbefore, hv, hgap]
        | some failure =>
          refine .inr (.inr (.inr ⟨failure, rfl, ?_⟩))
          simp only [close, hleg, if_neg hbefore, hv, hgap]

theorem mem_of_before {f : Flight D} {trade : ClosedTrade} {leg : Leg D} {v : Snapshot D}
    (h : before f trade leg = some v) : v ∈ f.metricHistory ∧ v.side = trade.side ∧
      v.at' < trade.closedAt ∧ v.leg.basis = leg.basis := by
  have hv := List.find?_some h
  simp only [Bool.and_eq_true, decide_eq_true_eq] at hv
  exact ⟨List.mem_reverse.mp (List.mem_of_find?_eq_some h), hv.1.1, hv.1.2, hv.2⟩

theorem invariant_close {f : Flight D} (disk : Disk) (trade : ClosedTrade)
    (h : Invariant platform f) : Invariant platform (close disk f trade).1 := by
  rcases close_cases disk f trade with ⟨heq, -⟩ | ⟨leg, v, -, -, hv, heq⟩ | ⟨leg, -, -, heq⟩ |
    ⟨failure, -, heq⟩
  · rw [heq]
    exact h
  · rw [heq]
    refine invariant_setLeg _ _ h fun l hl => ?_
    cases hl
    exact (h.history v (mem_of_before hv).1).1
  · rw [heq]
    exact invariant_setLeg _ _ (invariant_gap h) fun l hl => by cases hl
  · rw [heq]
    exact invariant_gap h

theorem closeAll_cons (disk : Disk) (f : Flight D) (trade : ClosedTrade) (trades : List ClosedTrade) :
    closeAll disk f (trade :: trades) = match close disk f trade with
      | (f, some failure) => (f, some failure)
      | (f, none) => closeAll disk f trades := rfl

theorem invariant_closeAll {disk : Disk} {f : Flight D} {trades : List ClosedTrade}
    (h : Invariant platform f) : Invariant platform (closeAll disk f trades).1 := by
  induction trades generalizing f with
  | nil => exact h
  | cons trade trades ih =>
    have hclose := invariant_close disk trade h
    rw [closeAll_cons]
    rcases hf : close disk f trade with ⟨f', _ | failure⟩ <;> rw [hf] at hclose
    · exact ih hclose
    · exact hclose

/-- The leg of a side after all closed trades is one of its kept states, and ends before each of the
    trades of its side. -/
theorem closeAll_kept {disk : Disk} {f : Flight D} {trades : List ClosedTrade}
    (h : Invariant platform f) (hok : (closeAll disk f trades).2 = none) {side : Side} {leg' : Leg D}
    (hleg' : (closeAll disk f trades).1.legs side = some leg') :
    leg' ∈ keptStates f side ∧ (∃ leg, f.legs side = some leg ∧ leg'.quoteAt ≤ leg.quoteAt) ∧
      ∀ trade ∈ trades, trade.side = side → leg'.quoteAt < trade.closedAt := by
  induction trades generalizing f with
  | nil =>
    refine ⟨?_, ⟨leg', hleg', le_rfl⟩, fun trade htrade => absurd htrade List.not_mem_nil⟩
    have hlegs : f.legs side = some leg' := hleg'
    simp [keptStates, hlegs]
  | cons trade trades ih =>
    have hclose := invariant_close disk trade h
    rw [closeAll_cons] at hok hleg'
    rcases close_cases disk f trade with ⟨heq, hbefore⟩ | ⟨leg, v, hleg, hafter, hv, heq⟩ |
      ⟨leg, hleg, -, heq⟩ | ⟨failure, -, heq⟩
    · rw [heq] at hok hleg'
      obtain ⟨hkept, ⟨leg, hleg, hle⟩, htrades⟩ := ih h hok hleg'
      refine ⟨hkept, ⟨leg, hleg, hle⟩, fun other hother hside => ?_⟩
      rcases List.mem_cons.mp hother with rfl | hother
      · exact hle.trans_lt (hbefore leg (hside ▸ hleg))
      · exact htrades other hother hside
    · obtain ⟨hmem, hvside, hvat, hbasis⟩ := mem_of_before hv
      have hquote : v.leg.quoteAt < trade.closedAt := (h.history v hmem).2 ▸ hvat
      rw [heq] at hok hleg' hclose
      obtain ⟨hkept, ⟨leg1, hleg1, hle⟩, htrades⟩ := ih hclose hok hleg'
      by_cases hside : side = trade.side
      · subst hside
        have hleg1' : leg1 = v.leg := by
          rw [setLeg_self] at hleg1
          exact (Option.some.inj hleg1).symm
        subst hleg1'
        refine ⟨?_, ⟨leg, hleg, (hle.trans_lt hquote).le.trans hafter⟩, fun other hother hside => ?_⟩
        · simp only [keptStates, setLeg_self, hbasis, hleg, List.mem_cons] at hkept ⊢
          rcases hkept with rfl | hkept
          · refine .inr (List.mem_map.mpr ⟨v, ?_, rfl⟩)
            simp [hmem, hvside, hbasis]
          · exact .inr hkept
        · rcases List.mem_cons.mp hother with rfl | hother
          · exact hle.trans_lt hquote
          · exact htrades other hother hside
      · have hsame : (setLeg f trade.side (some v.leg)).legs side = f.legs side :=
          setLeg_of_ne hside
        rw [hsame] at hleg1
        refine ⟨?_, ⟨leg1, hleg1, hle⟩, fun other hother hother' => ?_⟩
        · simp only [keptStates, hsame, hleg1] at hkept ⊢
          exact hkept
        · rcases List.mem_cons.mp hother with rfl | hother
          · exact absurd hother'.symm hside
          · exact htrades other hother hother'
    · obtain ⟨gaps, appends, hgap, -⟩ := gap_cases disk f
      rw [heq] at hok hleg' hclose
      obtain ⟨hkept, ⟨leg1, hleg1, hle⟩, htrades⟩ := ih hclose hok hleg'
      have hside : side ≠ trade.side := by
        rintro rfl
        rw [setLeg_self] at hleg1
        cases hleg1
      have hsame : (setLeg (gap disk f).1 trade.side none).legs side = f.legs side := by
        rw [setLeg_of_ne hside, hgap]
      rw [hsame] at hleg1
      refine ⟨?_, ⟨leg1, hleg1, hle⟩, fun other hother hother' => ?_⟩
      · simp only [keptStates, hsame, hleg1] at hkept ⊢
        rw [hgap] at hkept
        exact hkept
      · rcases List.mem_cons.mp hother with rfl | hother
        · exact absurd hother'.symm hside
        · exact htrades other hother hother'
    · rw [heq] at hok
      cases hok

/-- Closed trades fail only when a gap cannot be written. -/
theorem closeAll_ok {disk : Disk} {f : Flight D} {trades : List ClosedTrade}
    (h : ∀ n, f.appends ≤ n → n < f.appends + trades.length → disk n = none) :
    (closeAll disk f trades).2 = none := by
  induction trades generalizing f with
  | nil => rfl
  | cons trade trades ih =>
    rw [List.length_cons] at h
    obtain ⟨gaps, appends, hgap, hle, hge, hfailure⟩ := gap_cases disk f
    rw [closeAll_cons]
    rcases close_cases disk f trade with ⟨heq, -⟩ | ⟨leg, v, -, -, -, heq⟩ | ⟨leg, -, -, heq⟩ |
      ⟨failure, hfails, heq⟩
    · rw [heq]
      exact ih fun n hn hn' => h n hn (by omega)
    · rw [heq]
      exact ih (f := setLeg f trade.side (some v.leg)) fun n hn hn' => h n hn (by simp only [setLeg] at hn'; omega)
    · rw [heq, hgap]
      refine ih (f := setLeg _ _ _) fun n hn hn' => ?_
      simp only [setLeg] at hn hn'
      exact h n (by omega) (by omega)
    · have hstored := h f.appends (Nat.le_refl _) (by omega)
      rw [hfailure failure hfails] at hstored
      cases hstored

/-! ### The invariant of a run -/

theorem invariant_update {disk : Disk} {f : Flight D} {setup : Setup D} (h : Invariant platform f) :
    Invariant platform (update disk f setup).1 := by
  rw [update]
  split
  · exact h
  · split
    · exact h
    · simp only [append]
      split
      · rename_i heq
        rw [Prod.mk.injEq] at heq
        exact heq.1 ▸ h.of_metrics rfl rfl rfl rfl
      · rename_i heq
        rw [Prod.mk.injEq] at heq
        rw [← heq.1]
        refine invariant_closeAll ⟨h.legs, h.history, fun other hother => ?_⟩
        exact Option.some.inj hother

omit [DecidableEq D] in
theorem mem_of_pushSnapshot {history : List (Snapshot D)} {v other : Snapshot D}
    (h : other ∈ pushSnapshot history v) : other ∈ history ∨ other = v := by
  rw [pushSnapshot, List.rtake] at h
  have hmem : other ∈ history ++ [v] := List.drop_subset _ _ ((List.dropWhile_sublist _).subset h)
  rcases List.mem_append.mp hmem with hmem | hmem
  · exact .inl hmem
  · exact .inr (List.mem_singleton.mp hmem)

omit [DecidableEq D] in
theorem quoteAt_add (basis : D × D) (leg : Option (Leg D)) (s : Sample D) :
    (Leg.add platform basis leg s).quoteAt = s.source := by
  cases leg <;> rfl

omit [DecidableEq D] in
theorem invariant_pushSnapshot {f : Flight D} {v : Snapshot D} (h : Invariant platform f)
    (hleg : v.leg.Sound platform) (hat : v.leg.quoteAt = v.at') :
    Invariant platform { f with metricHistory := pushSnapshot f.metricHistory v } := by
  refine ⟨h.legs, ?_, h.snapshot⟩
  intro other hother
  dsimp only at hother
  rcases mem_of_pushSnapshot hother with hother | rfl
  · exact h.history other hother
  · exact ⟨hleg, hat.symm⟩

omit [DecidableEq D] in
/-- A gap, if it has to be written, changes no metrics. -/
theorem invariant_start {disk : Disk} {f f' : Flight D} {p : Prop} [Decidable p]
    {failure : Option Failure} (h : Invariant platform f)
    (hstart : (if p then gap disk f else (f, none)) = (f', failure)) :
    Invariant platform f' ∧ f'.legs = f.legs ∧ f'.setup = f.setup := by
  split at hstart
  · obtain ⟨gaps, appends, hgap, -⟩ := gap_cases disk f
    have hf' : f' = (gap disk f).1 := (congrArg Prod.fst hstart).symm
    rw [hf']
    exact ⟨invariant_gap h, by rw [hgap], by rw [hgap]⟩
  · cases hstart
    exact ⟨h, rfl, rfl⟩

theorem invariant_quoteOrder {f : Flight D} (disk : Disk) (metadata : μ) (bid ask pip : D)
    (source : Instant) (order : Order D) (h : Invariant platform f) :
    Invariant platform (quoteOrder platform disk metadata f bid ask pip source order).1 := by
  rw [quoteOrder]
  split
  · exact h
  · rename_i fill _
    split
    · exact h
    · simp only
      split
      · exact h
      · split
        · rename_i hstart
          exact (invariant_start h hstart).1
        · rename_i f' hstart
          obtain ⟨hf', hlegs, -⟩ := invariant_start h hstart
          have hheld : ∀ l, (f.legs order.side).filter (fun leg => leg.basis =
              (fill.price, volumeAt f.setup order.side fill.volume source)) = some l →
                l.Sound platform := by
            intro l hl
            exact h.legs order.side l (Option.filter_eq_some_iff.mp hl).1
          have hadd := sound_add (fill.price, volumeAt f.setup order.side fill.volume source) hheld (sampleOf platform metadata f.setup order fill.price
              (volumeAt f.setup order.side fill.volume source) bid ask pip source)
          have hset := invariant_setLeg order.side (some _) hf'
            fun l hl => Option.some.inj hl ▸ hadd
          split
          · exact hset
          · exact invariant_pushSnapshot hset hadd (quoteAt_add _ _ _)

theorem invariant_quoteOrders {disk : Disk} {metadata : μ} {f : Flight D} {bid ask pip : D}
    {source : Instant} {orders : List (Order D)} (h : Invariant platform f) :
    Invariant platform (quoteOrders platform disk metadata f bid ask pip source orders).1 := by
  induction orders generalizing f with
  | nil => exact h
  | cons order orders ih =>
    have horder := invariant_quoteOrder disk metadata bid ask pip source order h
    rw [quoteOrders]
    rcases hf : quoteOrder platform disk metadata f bid ask pip source order with ⟨f', _ | failure⟩ <;>
      rw [hf] at horder
    · exact ih horder
    · exact horder

theorem invariant_quoteBody {f : Flight D} (disk : Disk) (event : BrokerQuote D) (metadata : μ)
    (now : Instant) (h : Invariant platform f) :
    Invariant platform (quoteBody platform disk f event metadata now).1 := by
  rw [quoteBody]
  split
  · exact h.of_metrics rfl rfl rfl rfl
  · split
    · simp only
      split
      · exact h.of_metrics rfl rfl rfl rfl
      · split
        · exact h.of_metrics rfl rfl rfl rfl
        · have htimes : ∀ times, Invariant platform { f with sideTimes := times } := fun times =>
            h.of_metrics rfl rfl rfl rfl
          split
          · rename_i hstart
            exact (invariant_start (htimes _) hstart).1
          · rename_i hstart
            exact invariant_quoteOrders ((invariant_start (htimes _) hstart).1.of_metrics rfl rfl rfl rfl)
    · exact h

theorem invariant_next {disk : Disk} {f : Flight D} {call : Call D μ} (h : Invariant platform f) :
    Invariant platform (next platform disk f call) := by
  cases call with
  | update setup => exact invariant_update h
  | gap => exact invariant_gap h
  | finish =>
    simp only [next]
    split
    · exact h
    · simp only [append]
      split <;> rename_i heq <;> rw [Prod.mk.injEq] at heq <;> rw [← heq.1] <;>
        exact h.of_metrics rfl rfl rfl rfl
  | quote event metadata now =>
    simp only [next, quote]
    split
    · exact h
    · simp only [append]
      split
      · rename_i heq
        rw [Prod.mk.injEq] at heq
        exact heq.1 ▸ h.of_metrics rfl rfl rfl rfl
      · rename_i f' heq
        rw [Prod.mk.injEq] at heq
        have hf' : Invariant platform f' := heq.1 ▸ h.of_metrics rfl rfl rfl rfl
        have hbody := invariant_quoteBody disk event metadata now hf'
        split
        · rename_i hquote
          rw [hquote] at hbody
          exact hbody
        · rename_i hquote
          rw [hquote] at hbody
          exact invariant_gap hbody
        · rename_i hquote
          rw [hquote] at hbody
          exact hbody

theorem invariant_steps {disk : Disk} {f : Flight D} {calls : List (Call D μ)}
    (h : Invariant platform f) :
    ∀ step ∈ Journal.steps (next platform disk) f calls, Invariant platform step.before := by
  induction calls generalizing f with
  | nil => exact fun step hstep => absurd hstep List.not_mem_nil
  | cons call calls ih =>
    intro step hstep
    rcases List.mem_cons.mp hstep with rfl | hstep
    · exact h
    · exact ih (invariant_next h) step hstep

omit [DecidableEq D] in
theorem invariant_new (setup : Setup D) : Invariant platform (Flight.new setup) where
  legs side leg h := by cases h
  history v h := absurd h List.not_mem_nil
  snapshot other h := by cases h

/-! ### Closes that are reported late -/

/-- Before each close that an update reports, no quote of a later source time arrived in front of one
    from before the close; and the update can write its records. -/
def inOrder (disk : Disk) (step : Step D μ) : Bool :=
  match step.call with
  | .update setup =>
    ((List.range (setup.closedTrades.length + 1)).all fun n =>
        (disk (step.before.appends + n)).isNone) &&
      setup.closedTrades.all fun trade =>
        step.before.setup.closedTrades.contains trade ||
          (keptStates step.before trade.side).all fun leg =>
            decide (leg.seen.Pairwise fun a b => b.source < trade.closedAt → a.source < trade.closedAt)
  | _ => true

/-- The metrics of the side of a trade are those of quotes from before its close, if they are kept. -/
def CleanBefore (platform : Platform D μ) (f : Flight D) (trade : ClosedTrade) : Prop :=
  ∀ leg, f.legs trade.side = some leg →
    leg.excursion = replay platform leg.seen ∧ ∀ s ∈ leg.seen, s.source < trade.closedAt

omit [DecidableEq D] in
/-- Quotes in which none stands in front of one from before the close, if the last one is from before
    it. -/
theorem all_before {seen : List (Sample D)} {c : Instant} {s : Sample D}
    (horder : seen.Pairwise fun a b => b.source < c → a.source < c) (hlast : seen.getLast? = some s)
    (hs : s.source < c) : ∀ a ∈ seen, a.source < c := by
  obtain ⟨init, rfl⟩ := List.getLast?_eq_some_iff.mp hlast
  intro a ha
  rcases List.mem_append.mp ha with ha | ha
  · exact (List.pairwise_append.mp horder).2.2 a ha s (List.mem_singleton_self s) hs
  · rw [List.mem_singleton.mp ha]
    exact hs

/-- An update that can be written leaves clean metrics for each close that it reports first. -/
theorem update_clean {disk : Disk} {f : Flight D} {setup : Setup D} {trade : ClosedTrade}
    (h : Invariant platform f) (hfinal : f.final = false) (htrade : trade ∈ setup.closedTrades)
    (hnew : trade ∉ f.setup.closedTrades)
    (hdisk : ∀ n, n ≤ setup.closedTrades.length → disk (f.appends + n) = none)
    (horder : ∀ leg ∈ keptStates f trade.side,
      leg.seen.Pairwise fun a b => b.source < trade.closedAt → a.source < trade.closedAt) :
    CleanBefore platform (update disk f setup).1 trade := by
  have hsnapshot : f.snapshot ≠ some setup := fun hsnapshot =>
    hnew (h.snapshot setup hsnapshot ▸ htrade)
  have hzero : disk f.appends = none := hdisk 0 (Nat.zero_le _)
  have hupdate : update disk f setup =
      closeAll disk { f with snapshot := some setup, setup, appends := f.appends + 1 }
        setup.closedTrades := by
    simp only [update, hfinal, hsnapshot, append, hzero, Bool.false_eq_true, if_false]
  have hstart : Invariant platform
      { f with snapshot := some setup, setup, appends := f.appends + 1 } :=
    ⟨h.legs, h.history, fun other hother => Option.some.inj hother⟩
  have hok : (closeAll disk { f with snapshot := some setup, setup, appends := f.appends + 1 }
      setup.closedTrades).2 = none := by
    refine closeAll_ok fun n hn hn' => ?_
    have hn : f.appends + 1 ≤ n := hn
    have hn' : n < f.appends + 1 + setup.closedTrades.length := hn'
    have hstored := hdisk (n - f.appends) (by omega)
    rwa [Nat.add_sub_cancel' (by omega)] at hstored
  intro leg hleg
  rw [hupdate] at hleg
  obtain ⟨hkept, -, hbefore⟩ := closeAll_kept hstart hok hleg
  have hsound : leg.Sound platform := (invariant_closeAll hstart).legs trade.side leg hleg
  obtain ⟨s, hlast, hs⟩ := hsound.last
  exact ⟨hsound.values, all_before (horder leg hkept) hlast (hs ▸ hbefore trade htrade rfl)⟩

namespace ExcursionSample

/-- Exact decimals; a pip is 1, and the net of a mark its distance from the entry. -/
def exact : Platform ℚ Unit where
  zero := 0
  add a b := a + b
  sub a b := a - b
  neg a := -a
  div a b := a / b
  abs a := |a|
  lt a b := a < b
  pipSize _ := some 1
  estimateNetPips _ entry mark _ side := match side with
    | .buy => .value (mark - entry)
    | .sell => .value (entry - mark)

def disk : Disk := fun _ => none

def order : Order ℚ := ⟨.buy, 100, 90, 120, some ⟨100, 1, 0⟩⟩

def opened : Setup ℚ := ⟨[order], [], [], ""⟩

/-- The BUY side was closed at 1.5 s. -/
def closed : Setup ℚ := { opened with closedTrades := [⟨.buy, 1500000⟩] }

/-- A bid for BUY, received and seen half a second after two seconds. -/
def quoteAt (source : Instant) (bid : ℚ) : Call ℚ Unit :=
  .quote ⟨true, some source, some 2500000, some bid, some (bid + 1), true, true⟩ () 2500000

/-- The quote of second two arrives in front of that of second one. -/
def swapped : List (Call ℚ Unit) :=
  [.update opened, quoteAt (seconds 2) 110, quoteAt (seconds 1) 101, .update closed]

def ordered : List (Call ℚ Unit) :=
  [.update opened, quoteAt (seconds 1) 101, quoteAt (seconds 2) 110, .update closed]

/-- The flight when the close is reported. -/
def reported (calls : List (Call ℚ Unit)) : Flight ℚ :=
  (calls.dropLast).foldl (next exact disk) (Flight.new opened)

end ExcursionSample

end ScalpingBot.FlightMetrics
