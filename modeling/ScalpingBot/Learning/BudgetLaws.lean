import Mathlib.Algebra.Order.Group.Int
import ScalpingBot.Learning.Budget

/-! What any history of the budget keeps: the charge of a day stays within the limit but for what was
    used beyond an estimate, a reservation is dispatched once, and a call that is made again does
    nothing. -/

namespace ScalpingBot.Learning

/-! ### What one call can do -/

namespace Budget

theorem reserve_ok {b after : Budget} {key topic binding : String} {estimate now : ℤ}
    {ceiling : Option ℤ} {status : ReserveStatus}
    (h : b.reserve key estimate topic now ceiling binding = .ok (status, after)) :
    (after = b ∧ status ≠ .admitted ∧ status ≠ .outcomeAlreadyClaimed) ∨
    (after = b ∧ ∃ r, b.find key = some r ∧ r.estimate = estimate ∧ r.topic = topic ∧
      r.binding = binding) ∨
    (b.find key = none ∧ 0 < estimate ∧
      charge b.reservations (dayOf now) + estimate ≤ b.policy.dailyLimit ∧
      after = { b with reservations := b.reservations ++
        [⟨key, dayOf now, estimate, none, .reserved, topic, now, binding⟩] }) := by
  simp only [reserve, bind_ok, require_ok] at h
  obtain ⟨_, ⟨_, _, hpos⟩, h⟩ := h
  cases hfind : b.find key with
  | some prior =>
    simp only [hfind, repeated, bind_ok, require_ok, pure_ok, Prod.mk.injEq] at h
    obtain ⟨_, ⟨hestimate, htopic, hbinding⟩, _, rfl⟩ := h
    exact .inr (.inl ⟨rfl, prior, rfl, hestimate, htopic, hbinding⟩)
  | none =>
    simp only [hfind, reserveNew] at h
    split at h
    · cases h
      exact .inl ⟨rfl, by decide, by decide⟩
    · simp only [bind_ok, require_ok] at h
      obtain ⟨_, _, h⟩ := h
      split at h
      · cases h
        exact .inl ⟨rfl, by decide, by decide⟩
      · next hlimit =>
        cases h
        refine .inr (.inr ⟨rfl, hpos, ?_, rfl⟩)
        have hle : b.limit ceiling ≤ b.policy.dailyLimit := by
          cases ceiling with
          | none => exact le_rfl
          | some c => exact min_le_left _ _
        exact (not_lt.mp hlimit).trans hle

theorem dispatch_ok {b after : Budget} {key : String} {now : ℤ}
    (h : b.dispatch key now = .ok after) :
    (∃ r ∈ b.reservations, r.id = key ∧ r.status = .reserved) ∧
    after = { b with
      reservations := b.reservations.map fun r =>
        if r.id = key ∧ r.status = .reserved then { r with status := .dispatched, day := dayOf now }
        else r } := by
  simp only [dispatch, bind_ok, require_ok, pure_ok] at h
  obtain ⟨_, hone, rfl⟩ := h
  refine ⟨?_, rfl⟩
  obtain ⟨r, hr⟩ := List.exists_mem_of_length_pos (by rw [hone]; exact Nat.one_pos)
  rw [List.mem_filter, decide_eq_true_eq] at hr
  exact ⟨r, hr⟩

theorem settle_ok {b after : Budget} {key : String} {actual : Option ℤ}
    (h : b.settle key actual = .ok after) :
    (∀ a ∈ actual, 0 ≤ a) ∧ ∃ row, b.find key = some row ∧
      ((after = b ∧ row.actual = actual ∧ row.status = settledStatus actual) ∨
      (row.status = .dispatched ∧ after = { b with
        reservations := b.reservations.map fun r =>
          if r.id = key then { r with actual := actual, status := settledStatus actual }
          else r })) := by
  simp only [settle, bind_ok, require_ok] at h
  obtain ⟨_, hnonneg, h⟩ := h
  refine ⟨hnonneg, ?_⟩
  cases hfind : b.find key with
  | none =>
    rw [hfind] at h
    cases h
  | some row =>
    simp only [hfind, settleRow, bind_ok, require_ok] at h
    obtain ⟨_, hreserved, h⟩ := h
    refine ⟨row, rfl, ?_⟩
    split at h
    · simp only [bind_ok, require_ok, pure_ok] at h
      obtain ⟨_, hsame, rfl⟩ := h
      exact .inl ⟨rfl, hsame⟩
    · next hopen =>
      simp only [bind_ok, require_ok, pure_ok] at h
      obtain ⟨_, _, rfl⟩ := h
      refine .inr ⟨?_, rfl⟩
      cases hstatus : row.status <;> simp_all

end Budget

/-- What becomes of a reservation: what it reserves stays, a dispatched one is never reserved again,
    and a settled one does not change. -/
structure Continues (r r' : Reservation) : Prop where
  id : r'.id = r.id
  estimate : r'.estimate = r.estimate
  topic : r'.topic = r.topic
  binding : r'.binding = r.binding
  dispatched : r.status ≠ .reserved → r'.status ≠ .reserved
  settled : r.status = .complete ∨ r.status = .unknown → r' = r

theorem Continues.refl (r : Reservation) : Continues r r := ⟨rfl, rfl, rfl, rfl, fun h => h, fun _ => rfl⟩

theorem Continues.trans {a b c : Reservation} (hab : Continues a b) (hbc : Continues b c) :
    Continues a c where
  id := hbc.id.trans hab.id
  estimate := hbc.estimate.trans hab.estimate
  topic := hbc.topic.trans hab.topic
  binding := hbc.binding.trans hab.binding
  dispatched h := hbc.dispatched (hab.dispatched h)
  settled h := by
    have hsame := hab.settled h
    rw [← hsame] at h
    rw [hbc.settled h, hsame]

/-- The invariants of the reservations: the keys are unique, estimates and actuals are what the calls
    checked, and only a complete one has an actual. -/
structure Sound (rows : List Reservation) : Prop where
  unique : (rows.map Reservation.id).Nodup
  positive : ∀ r ∈ rows, 0 < r.estimate
  nonneg : ∀ r ∈ rows, ∀ a ∈ r.actual, 0 ≤ a
  complete : ∀ r ∈ rows, r.status ≠ .complete → r.actual = none

theorem sound_nil : Sound [] := by
  constructor <;> simp

/-- The reservation under a key is the one that is found. -/
theorem find_eq {b : Budget} (h : (b.reservations.map Reservation.id).Nodup) {r : Reservation}
    (hr : r ∈ b.reservations) : b.find r.id = some r := by
  rw [Budget.find]
  generalize b.reservations = rows at h hr
  induction rows with
  | nil => cases hr
  | cons x rest ih =>
    rw [List.map_cons, List.nodup_cons] at h
    rw [List.find?_cons]
    rcases List.mem_cons.mp hr with rfl | hr
    · rw [decide_eq_true rfl]
    · have hne : x.id ≠ r.id := by
        intro heq
        exact h.1 (heq ▸ List.mem_map_of_mem hr)
      rw [decide_eq_false hne]
      exact ih h.2 hr

theorem find_some {b : Budget} {key : String} {r : Reservation} (h : b.find key = some r) :
    r ∈ b.reservations ∧ r.id = key :=
  by
  have hid := List.find?_some (p := fun r : Reservation => decide (r.id = key)) h
  exact ⟨List.mem_of_find?_eq_some h, of_decide_eq_true hid⟩

/-- What a call does to the reservations: nothing, one more, or a change of each one by itself. -/
inductive Effect (b : Budget) (now : ℤ) : List Reservation → Prop
  | same : Effect b now b.reservations
  | added (r : Reservation) (hnew : b.find r.id = none) (hday : r.day = dayOf now)
      (hpos : 0 < r.estimate) (hactual : r.actual = none) (hstatus : r.status = .reserved)
      (hlimit : charge b.reservations (dayOf now) + r.estimate ≤ b.policy.dailyLimit) :
      Effect b now (b.reservations ++ [r])
  | dispatched (key : String) :
      Effect b now (b.reservations.map fun r =>
        if r.id = key ∧ r.status = .reserved then { r with status := .dispatched, day := dayOf now }
        else r)
  | settled (key : String) (actual : Option ℤ) (row : Reservation) (hrow : b.find key = some row)
      (hstatus : row.status = .dispatched) (hnonneg : ∀ a ∈ actual, 0 ≤ a) :
      Effect b now (b.reservations.map fun r =>
        if r.id = key then { r with actual := actual, status := Budget.settledStatus actual } else r)

/-- Every call has one of these effects. -/
theorem step_effect (b : Budget) (call : ℤ × Call) :
    Effect b call.1 (step b call).reservations ∧
      ((step b call).policy = b.policy ∨ ∃ p, call.2 = .update p ∧ (step b call).policy = p) := by
  obtain ⟨now, call⟩ := call
  rw [step]
  split
  · next after h =>
    cases call with
    | reserve key estimate topic ceiling binding =>
      obtain ⟨⟨status, _⟩, hreserve, rfl⟩ := map_ok.mp h
      rcases Budget.reserve_ok hreserve with ⟨rfl, -⟩ | ⟨rfl, -⟩ | ⟨hfind, hpos, hlimit, rfl⟩
      · exact ⟨.same, .inl rfl⟩
      · exact ⟨.same, .inl rfl⟩
      · exact ⟨.added _ hfind rfl hpos rfl rfl hlimit, .inl rfl⟩
    | dispatch key =>
      obtain ⟨-, rfl⟩ := Budget.dispatch_ok h
      exact ⟨.dispatched key, .inl rfl⟩
    | settle key actual =>
      obtain ⟨hnonneg, row, hrow, ⟨rfl, -⟩ | ⟨hstatus, rfl⟩⟩ := Budget.settle_ok h
      · exact ⟨.same, .inl rfl⟩
      · exact ⟨.settled key actual row hrow hstatus hnonneg, .inl rfl⟩
    | update value =>
      cases h
      exact ⟨.same, .inr ⟨value, rfl, rfl⟩⟩
  · exact ⟨.same, .inl rfl⟩

/-- Each reservation continues in what a call leaves. -/
theorem Effect.continues {b : Budget} {now : ℤ} {rows : List Reservation} (h : Effect b now rows)
    (hunique : (b.reservations.map Reservation.id).Nodup) :
    ∀ r ∈ b.reservations, ∃ r' ∈ rows, Continues r r' := by
  intro r hr
  cases h with
  | same => exact ⟨r, hr, .refl r⟩
  | added x => exact ⟨r, List.mem_append_left _ hr, .refl r⟩
  | dispatched key =>
    refine ⟨_, List.mem_map_of_mem hr, ?_⟩
    split
    · next hreserved =>
      refine ⟨rfl, rfl, rfl, rfl, fun h => absurd hreserved.2 h, fun h => ?_⟩
      rw [hreserved.2] at h
      simp at h
    · exact .refl r
  | settled key actual row hrow hstatus _ =>
    refine ⟨_, List.mem_map_of_mem hr, ?_⟩
    split
    · next hid =>
      have hsame : row = r := by
        rw [← hid, find_eq hunique hr] at hrow
        exact (Option.some.inj hrow).symm
      rw [hsame] at hstatus
      refine ⟨rfl, rfl, rfl, rfl, fun _ => ?_, fun h => ?_⟩
      · rw [Budget.settledStatus]
        split <;> simp
      · rw [hstatus] at h
        simp at h
    · exact .refl r

theorem Effect.ids {b : Budget} {now : ℤ} {rows : List Reservation} (h : Effect b now rows)
    (hunique : (b.reservations.map Reservation.id).Nodup) : (rows.map Reservation.id).Nodup := by
  cases h with
  | same => exact hunique
  | added x hnew =>
    rw [List.map_append, List.map_singleton]
    refine List.Nodup.append hunique (List.nodup_singleton _) ?_
    rw [List.disjoint_singleton]
    intro hmem
    obtain ⟨r, hr, hid⟩ := List.mem_map.mp hmem
    rw [← hid, find_eq hunique hr] at hnew
    cases hnew
  | dispatched key =>
    rw [List.map_map]
    have hid : Reservation.id ∘ (fun r => if r.id = key ∧ r.status = .reserved then
        { r with status := .dispatched, day := dayOf now } else r) = Reservation.id := by
      funext r
      dsimp only [Function.comp]
      split <;> rfl
    rwa [hid]
  | settled key actual =>
    rw [List.map_map]
    have hid : Reservation.id ∘ (fun r => if r.id = key then
        { r with actual := actual, status := Budget.settledStatus actual } else r)
          = Reservation.id := by
      funext r
      dsimp only [Function.comp]
      split <;> rfl
    rwa [hid]

theorem Effect.sound {b : Budget} {now : ℤ} {rows : List Reservation} (h : Effect b now rows)
    (hsound : Sound b.reservations) : Sound rows := by
  have hunique := h.ids hsound.unique
  cases h with
  | same => exact hsound
  | added x hnew hday hpos hactual hstatus _ =>
    refine ⟨hunique, ?_, ?_, ?_⟩
    all_goals
      intro r hr
      rcases List.mem_append.mp hr with hr | hr
    · exact hsound.positive r hr
    · rwa [List.mem_singleton.mp hr]
    · exact hsound.nonneg r hr
    · rw [List.mem_singleton.mp hr, hactual]
      simp
    · exact hsound.complete r hr
    · rw [List.mem_singleton.mp hr]
      exact fun _ => hactual
  | dispatched key =>
    refine ⟨hunique, ?_, ?_, ?_⟩
    all_goals
      intro r' hr'
      obtain ⟨r, hr, rfl⟩ := List.mem_map.mp hr'
      split
    · exact hsound.positive r hr
    · exact hsound.positive r hr
    · exact hsound.nonneg r hr
    · exact hsound.nonneg r hr
    · next hreserved =>
      intro _
      exact hsound.complete r hr (by rw [hreserved.2]; simp)
    · exact hsound.complete r hr
  | settled key actual row hrow hstatus hnonneg =>
    refine ⟨hunique, ?_, ?_, ?_⟩
    all_goals
      intro r' hr'
      obtain ⟨r, hr, rfl⟩ := List.mem_map.mp hr'
      split
    · exact hsound.positive r hr
    · exact hsound.positive r hr
    · exact hnonneg
    · exact hsound.nonneg r hr
    · intro hopen
      by_contra hsome
      exact hopen (if_neg hsome)
    · exact hsound.complete r hr

/-! ### The charge of a day -/

/-- What a reservation takes of the limit of a day: its estimate, or its actual where that is less. -/
def Reservation.planned (r : Reservation) (day : ℤ) : ℤ :=
  match r.actual with
  | none => r.estimate
  | some a => if r.day = day then min a r.estimate else 0

/-- By how much a settled actual exceeded its estimate. -/
def Reservation.overrun (r : Reservation) : ℤ :=
  match r.actual with
  | none => 0
  | some a => max 0 (a - r.estimate)

/-- What the charge counts of a reservation. -/
def Reservation.charged (r : Reservation) (day : ℤ) : ℤ :=
  if r.day = day ∨ r.actual = none then r.worth else 0

theorem charge_eq (rows : List Reservation) (day : ℤ) :
    charge rows day = (rows.map fun r => r.charged day).sum := by
  induction rows with
  | nil => rfl
  | cons r rows ih =>
    rw [List.map_cons, List.sum_cons, ← ih, charge, charge, List.filter_cons, Reservation.charged]
    by_cases h : r.day = day ∨ r.actual = none
    · rw [if_pos (decide_eq_true h), if_pos h, List.map_cons, List.sum_cons]
    · rw [if_neg (by simpa using h), if_neg h, zero_add]

theorem Reservation.planned_le (r : Reservation) (day : ℤ) : r.planned day ≤ r.charged day := by
  cases h : r.actual <;> simp only [planned, charged, worth, h]
  · simp
  · split <;> simp_all

theorem Reservation.charged_le (r : Reservation) (day : ℤ) :
    r.charged day ≤ r.planned day + r.overrun := by
  cases h : r.actual <;> simp only [planned, charged, worth, overrun, h]
  · simp
  · by_cases hday : r.day = day
    · simp only [hday, true_or, if_true, Option.getD_some]
      omega
    · simp [hday]

/-- On a later day less of it is left. -/
theorem Reservation.planned_later {r : Reservation} {day later : ℤ} (hpos : 0 < r.estimate)
    (hnonneg : ∀ a ∈ r.actual, 0 ≤ a) (hday : r.day ≤ day) (h : day ≤ later) :
    r.planned later ≤ r.planned day := by
  cases hactual : r.actual with
  | none => simp only [planned, hactual, le_refl]
  | some a =>
    have ha := hnonneg a hactual
    simp only [planned, hactual]
    split <;> split <;> omega

/-- What the reservations take of a day's limit is within it. -/
def Within (limit : ℤ) (rows : List Reservation) (day : ℤ) : Prop :=
  (∀ r ∈ rows, r.day ≤ day) ∧ (rows.map fun r => r.planned day).sum ≤ limit

theorem Within.later {limit day later : ℤ} {rows : List Reservation} (hsound : Sound rows)
    (h : Within limit rows day) (hle : day ≤ later) : Within limit rows later := by
  refine ⟨fun r hr => (h.1 r hr).trans hle, le_trans ?_ h.2⟩
  refine List.sum_le_sum fun r hr => ?_
  exact Reservation.planned_later (hsound.positive r hr) (hsound.nonneg r hr) (h.1 r hr) hle

theorem Within.charge_le {limit day : ℤ} {rows : List Reservation} (h : Within limit rows day) :
    charge rows day ≤ limit + (rows.map Reservation.overrun).sum := by
  have hsum : (rows.map fun r => r.charged day).sum
      ≤ (rows.map fun r => r.planned day + r.overrun).sum :=
    List.sum_le_sum fun r _ => r.charged_le day
  rw [List.sum_map_add] at hsum
  rw [charge_eq]
  have := h.2
  omega

/-- Each call keeps the day within the limit. -/
theorem Effect.within {b : Budget} {now limit : ℤ} {rows : List Reservation}
    (h : Effect b now rows) (hsound : Sound b.reservations) (hlimit : b.policy.dailyLimit = limit)
    (hwithin : Within limit b.reservations (dayOf now)) : Within limit rows (dayOf now) := by
  obtain ⟨hdays, hsum⟩ := hwithin
  cases h with
  | same => exact ⟨hdays, hsum⟩
  | added x _ hday _ hactual _ hroom =>
    refine ⟨?_, ?_⟩
    · intro r hr
      rcases List.mem_append.mp hr with hr | hr
      · exact hdays r hr
      · rw [List.mem_singleton.mp hr, hday]
    · have hle : (b.reservations.map fun r => r.planned (dayOf now)).sum
          ≤ (b.reservations.map fun r => r.charged (dayOf now)).sum :=
        List.sum_le_sum fun r _ => r.planned_le (dayOf now)
      have hx : x.planned (dayOf now) = x.estimate := by
        simp only [Reservation.planned, hactual]
      rw [List.map_append, List.sum_append, List.map_singleton, List.sum_singleton, hx]
      rw [charge_eq] at hroom
      omega
  | dispatched key =>
    refine ⟨?_, le_trans ?_ hsum⟩
    · intro r' hr'
      obtain ⟨r, hr, rfl⟩ := List.mem_map.mp hr'
      split
      · exact le_rfl
      · exact hdays r hr
    · rw [List.map_map]
      refine List.sum_le_sum fun r hr => ?_
      dsimp only [Function.comp]
      split
      · next hreserved =>
        have hnone := hsound.complete r hr (by rw [hreserved.2]; simp)
        simp only [Reservation.planned, hnone, le_refl]
      · exact le_rfl
  | settled key actual row hrow hstatus _ =>
    refine ⟨?_, le_trans ?_ hsum⟩
    · intro r' hr'
      obtain ⟨r, hr, rfl⟩ := List.mem_map.mp hr'
      split <;> exact hdays r hr
    · rw [List.map_map]
      refine List.sum_le_sum fun r hr => ?_
      dsimp only [Function.comp]
      split
      · next hid =>
        have hsame : row = r := by
          rw [← hid, find_eq hsound.unique hr] at hrow
          exact (Option.some.inj hrow).symm
        have hnone := hsound.complete r hr (by rw [← hsame, hstatus]; simp)
        have hpos := hsound.positive r hr
        cases actual with
        | none => simp only [Reservation.planned, hnone, le_refl]
        | some a =>
          simp only [Reservation.planned, hnone]
          split <;> omega
      · exact le_rfl

/-! ### Histories -/

theorem sound_step {b : Budget} (hsound : Sound b.reservations) (call : ℤ × Call) :
    Sound (step b call).reservations := (step_effect b call).1.sound hsound

theorem sound_run {b : Budget} (hsound : Sound b.reservations) (calls : List (ℤ × Call)) :
    Sound (run b calls).reservations := by
  induction calls generalizing b with
  | nil => exact hsound
  | cons call calls ih => exact ih (sound_step hsound call)

theorem continues_run {b : Budget} (hsound : Sound b.reservations) (calls : List (ℤ × Call))
    {r : Reservation} (hr : r ∈ b.reservations) :
    ∃ r' ∈ (run b calls).reservations, Continues r r' := by
  induction calls generalizing b r with
  | nil => exact ⟨r, hr, .refl r⟩
  | cons call calls ih =>
    obtain ⟨s, hs, hrs⟩ := (step_effect b call).1.continues hsound.unique r hr
    obtain ⟨t, ht, hst⟩ := ih (sound_step hsound call) hs
    exact ⟨t, ht, hrs.trans hst⟩

theorem dayOf_mono {a b : ℤ} (h : a ≤ b) : dayOf a ≤ dayOf b := by
  rw [dayOf, dayOf]
  omega

/-- The limit is kept over a history in the order of time. -/
theorem within_run {limit now : ℤ} (start : ℤ) {b : Budget} {calls : List (ℤ × Call)}
    (hsound : Sound b.reservations) (hlimit : b.policy.dailyLimit = limit)
    (hwithin : Within limit b.reservations (dayOf start))
    (hclock : (start :: calls.map Prod.fst).Pairwise (· ≤ ·))
    (hnow : ∀ call ∈ calls, call.1 ≤ now) (hstart : start ≤ now)
    (hpolicy : ∀ call ∈ calls, ∀ p, call.2 = .update p → p.dailyLimit = limit) :
    Within limit (run b calls).reservations (dayOf now) := by
  induction calls generalizing b start with
  | nil => exact hwithin.later hsound (dayOf_mono hstart)
  | cons call calls ih =>
    rw [List.map_cons, List.pairwise_cons] at hclock
    have hcall : start ≤ call.1 := hclock.1 _ (by simp)
    obtain ⟨heffect, hkept⟩ := step_effect b call
    refine ih call.1 (sound_step hsound call) ?_
      (heffect.within hsound hlimit (hwithin.later hsound (dayOf_mono hcall))) hclock.2
      (fun c hc => hnow c (by simp [hc])) (hnow call (by simp))
      (fun c hc => hpolicy c (by simp [hc]))
    rcases hkept with hsame | ⟨p, hp, hnew⟩
    · rw [hsame]
      exact hlimit
    · rw [hnew]
      exact hpolicy call (by simp) p hp

/-- How often a key is dispatched. -/
def dispatches (key : String) : Budget → List (ℤ × Call) → ℕ
  | _, [] => 0
  | b, call :: calls =>
    (match call.2 with
      | .dispatch k => if k = key ∧ (b.dispatch k call.1).toOption.isSome then 1 else 0
      | _ => 0) + dispatches key (step b call) calls

theorem dispatches_zero (key : String) {b : Budget} (hsound : Sound b.reservations)
    (calls : List (ℤ × Call)) {r : Reservation} (hr : r ∈ b.reservations) (hid : r.id = key)
    (hstatus : r.status ≠ .reserved) : dispatches key b calls = 0 := by
  induction calls generalizing b r with
  | nil => rfl
  | cons call calls ih =>
    obtain ⟨s, hs, hrs⟩ := (step_effect b call).1.continues hsound.unique r hr
    rw [dispatches, ih (sound_step hsound call) hs (hrs.id.trans hid) (hrs.dispatched hstatus)]
    split
    · next k hk =>
      rw [if_neg]
      rintro ⟨rfl, hok⟩
      cases hdispatch : b.dispatch k call.1 with
      | error reason =>
        rw [hdispatch] at hok
        cases hok
      | ok after =>
        obtain ⟨⟨x, hx, hxid, hxstatus⟩, -⟩ := Budget.dispatch_ok hdispatch
        have hsame := find_eq hsound.unique hx
        rw [hxid, ← hid, find_eq hsound.unique hr] at hsame
        rw [Option.some.inj hsame] at hstatus
        exact hstatus hxstatus
    · rfl

theorem dispatches_le_one {b : Budget} (hsound : Sound b.reservations) (key : String)
    (calls : List (ℤ × Call)) : dispatches key b calls ≤ 1 := by
  induction calls generalizing b with
  | nil => exact Nat.zero_le _
  | cons call calls ih =>
    rw [dispatches]
    have hrest := ih (sound_step hsound call)
    split
    · next k hk =>
      split
      · next hok =>
        obtain ⟨rfl, hok⟩ := hok
        obtain ⟨after, hafter⟩ := Option.isSome_iff_exists.mp hok
        have hdispatch : b.dispatch k call.1 = .ok after := by
          cases h : b.dispatch k call.1 with
          | error reason =>
            rw [h] at hafter
            cases hafter
          | ok a =>
            rw [h] at hafter
            exact congrArg _ (Option.some.inj hafter)
        obtain ⟨⟨x, hx, hxid, hxstatus⟩, rfl⟩ := Budget.dispatch_ok hdispatch
        have hstep : step b call = { b with reservations := b.reservations.map fun r =>
            if r.id = k ∧ r.status = .reserved then
              { r with status := .dispatched, day := dayOf call.1 } else r } := by
          rw [step, hk]
          simp only [Call.perform, hdispatch]
        have hmem := List.mem_map_of_mem (f := fun r : Reservation =>
          if r.id = k ∧ r.status = .reserved then
            { r with status := .dispatched, day := dayOf call.1 } else r) hx
        rw [if_pos ⟨hxid, hxstatus⟩] at hmem
        have hzero := dispatches_zero k (sound_step hsound call) calls
          (r := { x with status := .dispatched, day := dayOf call.1 }) (by
            rw [hstep]
            exact hmem) hxid (by simp)
        rw [hzero]
      · omega
    · omega

/-! ### Calls that are made again -/

/-- The reservation that an answered `reserve` leaves under its key. -/
theorem reserve_claims {b after : Budget} (hsound : Sound b.reservations)
    {key topic binding : String} {estimate now : ℤ} {ceiling : Option ℤ} {status : ReserveStatus}
    (h : b.reserve key estimate topic now ceiling binding = .ok (status, after))
    (hclaimed : status = .admitted ∨ status = .outcomeAlreadyClaimed) :
    (key ≠ "" ∧ key.length ≤ 256 ∧ 0 < estimate) ∧ Sound after.reservations ∧
    ∃ r ∈ after.reservations, r.id = key ∧ r.estimate = estimate ∧ r.topic = topic ∧
      r.binding = binding := by
  have hvalid : key ≠ "" ∧ key.length ≤ 256 ∧ 0 < estimate := by
    simp only [Budget.reserve, bind_ok, require_ok] at h
    obtain ⟨_, hvalid, -⟩ := h
    exact hvalid
  have hafter : Sound after.reservations := by
    have hstep := sound_step hsound (now, .reserve key estimate topic ceiling binding)
    simp only [step, Call.perform, h] at hstep
    exact hstep
  refine ⟨hvalid, hafter, ?_⟩
  rcases Budget.reserve_ok h with ⟨-, hne, hne'⟩ | ⟨rfl, r, hfind, hsame⟩ | ⟨-, -, -, rfl⟩
  · rcases hclaimed with rfl | rfl
    · exact absurd rfl hne
    · exact absurd rfl hne'
  · exact ⟨r, (find_some hfind).1, (find_some hfind).2, hsame⟩
  · exact ⟨_, List.mem_append_right _ (List.mem_singleton.mpr rfl), rfl, rfl, rfl, rfl⟩

theorem reserve_again {b : Budget} {r : Reservation} (hfind : b.find r.id = some r)
    (hvalid : r.id ≠ "" ∧ r.id.length ≤ 256 ∧ 0 < r.estimate) (now : ℤ) (ceiling : Option ℤ) :
    (∃ status, b.reserve r.id r.estimate r.topic now ceiling r.binding = .ok (status, b)) ∧
    ∀ estimate topic binding, (estimate, topic, binding) ≠ (r.estimate, r.topic, r.binding) →
      ∃ reason, b.reserve r.id estimate topic now ceiling binding = .error reason := by
  refine ⟨⟨if r.status = .reserved then .admitted else .outcomeAlreadyClaimed, ?_⟩,
    fun estimate topic binding hne => ?_⟩
  · rw [Budget.reserve, require_eq hvalid, ok_bind, hfind]
    change b.repeated r r.estimate r.topic r.binding = _
    rw [Budget.repeated, require_eq ⟨rfl, rfl, rfl⟩]
    rfl
  · by_cases hnew : r.id ≠ "" ∧ r.id.length ≤ 256 ∧ 0 < estimate
    · refine ⟨"BUDGET_RESERVATION_CHANGED", ?_⟩
      have hchanged : ¬ (r.estimate = estimate ∧ r.topic = topic ∧ r.binding = binding) := by
        rintro ⟨rfl, rfl, rfl⟩
        exact hne rfl
      rw [Budget.reserve, require_eq hnew, ok_bind, hfind]
      change b.repeated r estimate topic binding = _
      rw [Budget.repeated, require, if_neg hchanged]
      rfl
    · refine ⟨"BUDGET_RESERVATION_INVALID", ?_⟩
      rw [Budget.reserve, require, if_neg hnew]
      rfl

/-- The settled reservation that `settle` leaves. -/
theorem settle_claims {b after : Budget} (hsound : Sound b.reservations) {key : String}
    {actual : Option ℤ} (h : b.settle key actual = .ok after) :
    (∀ a ∈ actual, 0 ≤ a) ∧ Sound after.reservations ∧
    ∃ r ∈ after.reservations, r.id = key ∧ r.actual = actual ∧
      r.status = Budget.settledStatus actual := by
  obtain ⟨hnonneg, row, hrow, hcases⟩ := Budget.settle_ok h
  have hafter : Sound after.reservations := by
    have hstep := sound_step hsound (0, .settle key actual)
    simp only [step, Call.perform, h] at hstep
    exact hstep
  refine ⟨hnonneg, hafter, ?_⟩
  rcases hcases with ⟨rfl, hsame⟩ | ⟨-, rfl⟩
  · exact ⟨row, (find_some hrow).1, (find_some hrow).2, hsame⟩
  · have hmem := List.mem_map_of_mem (f := fun r : Reservation => if r.id = key then
      { r with actual := actual, status := Budget.settledStatus actual } else r) (find_some hrow).1
    rw [if_pos (find_some hrow).2] at hmem
    exact ⟨_, hmem, (find_some hrow).2, rfl, rfl⟩

theorem settledStatus_closed (actual : Option ℤ) :
    Budget.settledStatus actual = .complete ∨ Budget.settledStatus actual = .unknown := by
  rw [Budget.settledStatus]
  split
  · exact .inr rfl
  · exact .inl rfl

theorem settle_again {b : Budget} {r : Reservation} (hfind : b.find r.id = some r)
    (hstatus : r.status = Budget.settledStatus r.actual) (hnonneg : ∀ a ∈ r.actual, 0 ≤ a) :
    b.settle r.id r.actual = .ok b ∧
    ∀ actual, actual ≠ r.actual → ∃ reason, b.settle r.id actual = .error reason := by
  have hclosed := settledStatus_closed r.actual
  rw [← hstatus] at hclosed
  have hdone : r.status ≠ .reserved := by
    rcases hclosed with h | h <;> rw [h] <;> decide
  refine ⟨?_, fun actual hne => ?_⟩
  · rw [Budget.settle, require_eq hnonneg, ok_bind, hfind]
    change b.settleRow r.id r.actual r = _
    rw [Budget.settleRow, require_eq hdone, ok_bind, if_pos hclosed, require_eq ⟨rfl, hstatus⟩]
    rfl
  · by_cases hvalid : ∀ a ∈ actual, 0 ≤ a
    · refine ⟨"BUDGET_SETTLEMENT_CHANGED", ?_⟩
      have hchanged : ¬ (r.actual = actual ∧ r.status = Budget.settledStatus actual) := by
        rintro ⟨rfl, -⟩
        exact hne rfl
      rw [Budget.settle, require_eq hvalid, ok_bind, hfind]
      change b.settleRow r.id actual r = _
      rw [Budget.settleRow, require_eq hdone, ok_bind, if_pos hclosed, require, if_neg hchanged]
      rfl
    · refine ⟨"BUDGET_USAGE_INVALID", ?_⟩
      rw [Budget.settle, require, if_neg hvalid]
      rfl

/-- Any history of the budget in the order of time, under one limit. -/
theorem budget_history (policy : Policy) (calls : List (ℤ × Call))
    (hclock : (calls.map Prod.fst).Pairwise (· ≤ ·))
    (hpolicy : ∀ call ∈ calls, ∀ p, call.2 = .update p → p.dailyLimit = policy.dailyLimit) :
    let b := run (.create policy) calls
    -- the charge of the day
    (∀ now, (∀ call ∈ calls, call.1 ≤ now) → charge b.reservations (dayOf now)
      ≤ policy.dailyLimit + (b.reservations.map Reservation.overrun).sum) ∧
    -- an unknown outcome
    (∀ r ∈ b.reservations, r.status = .unknown → ∀ later,
      r ∈ (run b later).reservations ∧ ∀ day, r.charged day = r.estimate) ∧
    -- the dispatches of a key
    (∀ key, dispatches key (.create policy) calls ≤ 1) ∧
    -- a reservation that is made again
    (∀ key estimate topic now ceiling binding status b',
      b.reserve key estimate topic now ceiling binding = .ok (status, b') →
      status = .admitted ∨ status = .outcomeAlreadyClaimed → ∀ later now' ceiling',
        (∃ status', (run b' later).reserve key estimate topic now' ceiling' binding
          = .ok (status', run b' later)) ∧
        ∀ estimate' topic' binding',
          (estimate', topic', binding') ≠ (estimate, topic, binding) →
          (∃ reason, (run b' later).reserve key estimate' topic' now' ceiling' binding'
            = .error reason) ∧
          step (run b' later) (now', .reserve key estimate' topic' ceiling' binding')
            = run b' later) ∧
    -- a settlement that is made again
    (∀ key actual b', b.settle key actual = .ok b' → ∀ later,
      (run b' later).settle key actual = .ok (run b' later) ∧
      ∀ now' actual', actual' ≠ actual →
        (∃ reason, (run b' later).settle key actual' = .error reason) ∧
        step (run b' later) (now', .settle key actual') = run b' later) := by
  have hempty : Sound (Budget.create policy).reservations := sound_nil
  have hsound : Sound (run (.create policy) calls).reservations := sound_run hempty calls
  refine ⟨?_, ?_, fun key => dispatches_le_one hempty key calls, ?_, ?_⟩
  · intro now hnow
    have hnonneg : 0 ≤ policy.dailyLimit := by
      have := policy.limit_valid.1
      omega
    have hwithin : ∀ day, Within policy.dailyLimit (Budget.create policy).reservations day := by
      intro day
      exact ⟨by simp [Budget.create], hnonneg⟩
    cases calls with
    | nil => exact (hwithin _).charge_le
    | cons call rest =>
      refine (within_run call.1 hempty rfl (hwithin _) ?_ hnow (hnow call (by simp))
        hpolicy).charge_le
      rw [List.map_cons] at hclock ⊢
      refine List.pairwise_cons.mpr ⟨?_, hclock⟩
      intro instant hinstant
      rcases List.mem_cons.mp hinstant with rfl | hrest
      · exact le_rfl
      · exact (List.pairwise_cons.mp hclock).1 instant hrest
  · intro r hr hstatus later
    obtain ⟨r', hr', hcontinues⟩ := continues_run hsound later hr
    have hnone := hsound.complete r hr (by rw [hstatus]; decide)
    refine ⟨?_, fun day => ?_⟩
    · rw [← hcontinues.settled (.inr hstatus)]
      exact hr'
    · rw [Reservation.charged, if_pos (.inr hnone), Reservation.worth, hnone]
      rfl
  · intro key estimate topic now ceiling binding status b' hreserve hclaimed later now' ceiling'
    obtain ⟨hvalid, hsound', r, hr, rfl, rfl, rfl, rfl⟩ := reserve_claims hsound hreserve hclaimed
    obtain ⟨r', hr', hcontinues⟩ := continues_run hsound' later hr
    have hfind := find_eq (sound_run hsound' later).unique hr'
    rw [← hcontinues.id, ← hcontinues.estimate] at hvalid
    obtain ⟨hsame, hchanged⟩ := reserve_again hfind hvalid now' ceiling'
    rw [hcontinues.id, hcontinues.estimate, hcontinues.topic, hcontinues.binding] at hsame hchanged
    refine ⟨hsame, fun estimate' topic' binding' hne => ?_⟩
    obtain ⟨reason, hreason⟩ := hchanged estimate' topic' binding' hne
    refine ⟨⟨reason, hreason⟩, ?_⟩
    simp only [step, Call.perform, hreason]
    rfl
  · intro key actual b' hsettle later
    obtain ⟨hnonneg, hsound', r, hr, rfl, rfl, hstatus⟩ := settle_claims hsound hsettle
    obtain ⟨r', hr', hcontinues⟩ := continues_run hsound' later hr
    have hclosed := settledStatus_closed r.actual
    rw [← hstatus] at hclosed
    rw [hcontinues.settled hclosed] at hr'
    have hfind := find_eq (sound_run hsound' later).unique hr'
    obtain ⟨hsame, hchanged⟩ := settle_again hfind hstatus hnonneg
    refine ⟨hsame, fun now' actual' hne => ?_⟩
    obtain ⟨reason, hreason⟩ := hchanged actual' hne
    refine ⟨⟨reason, hreason⟩, ?_⟩
    simp only [step, Call.perform, hreason]

namespace BudgetSample

def policy : Policy := ⟨false, 1000, by decide⟩

/-- A reservation whose outcome stays unknown, and one of the next day. -/
def calls : List (ℤ × Call) :=
  [(0, .reserve "a" 600 "entries" none ""), (1, .dispatch "a"), (86400000000, .settle "a" none),
    (86400000001, .reserve "b" 400 "exits" none "")]

end BudgetSample

open BudgetSample in
theorem budget_history_unknown :
    charge (run (.create policy) calls).reservations 1
      ≤ 1000 + ((run (.create policy) calls).reservations.map Reservation.overrun).sum ∧
    dispatches "a" (.create policy) calls ≤ 1 := by
  have h := budget_history policy calls (by decide) (by
    intro call hcall p hp
    simp only [calls, List.mem_cons, List.not_mem_nil, or_false] at hcall
    rcases hcall with rfl | rfl | rfl | rfl <;> cases hp)
  exact ⟨h.1 86400000001 (by decide), h.2.2.1 "a"⟩

end ScalpingBot.Learning
