import Mathlib.Data.List.Basic
import Mathlib.Tactic.Common

/-! Runs of a labelled transition system given by a partial step function. A run is a list of
    events; a `guard` restricts which events may be taken in which states, so the same induction
    serves unrestricted runs (`guard` trivially true) and runs all of whose steps meet a condition. -/

namespace ScalpingBot.Transition

variable {σ ε : Type*} (step : σ → ε → Option σ) (guard : σ → ε → Prop)

/-- The run of a list of events; `none` as soon as one of them is not enabled. -/
def run : σ → List ε → Option σ
  | s, [] => some s
  | s, e :: es => (step s e).bind fun t => run t es

/-- Every step of the run satisfies the guard in the state in which it is taken. -/
def Guarded : σ → List ε → Prop
  | _, [] => True
  | s, e :: es => guard s e ∧ ∀ t, step s e = some t → Guarded t es

/-- Every state the run visits, its first and last included, satisfies `P`. -/
def Throughout (P : σ → Prop) : σ → List ε → Prop
  | s, [] => P s
  | s, e :: es => P s ∧ ∀ t, step s e = some t → Throughout P t es

variable {step guard}

@[simp] theorem run_nil (s : σ) : run step s [] = some s := rfl

theorem run_cons {s t : σ} {e : ε} {es : List ε} :
    run step s (e :: es) = some t ↔ ∃ u, step s e = some u ∧ run step u es = some t := by
  simp [run, Option.bind_eq_some_iff]

theorem run_append {s t u : σ} {es fs : List ε} (h : run step s es = some t)
    (h' : run step t fs = some u) : run step s (es ++ fs) = some u := by
  induction es generalizing s with
  | nil => cases h; exact h'
  | cons e es ih =>
    obtain ⟨v, hv, hrest⟩ := run_cons.mp h
    exact run_cons.mpr ⟨v, hv, ih hrest⟩

theorem run_split {s u : σ} {es fs : List ε} (h : run step s (es ++ fs) = some u) :
    ∃ t, run step s es = some t ∧ run step t fs = some u := by
  induction es generalizing s with
  | nil => exact ⟨s, rfl, h⟩
  | cons e es ih =>
    obtain ⟨v, hv, hrest⟩ := run_cons.mp h
    obtain ⟨t, ht, hu⟩ := ih hrest
    exact ⟨t, run_cons.mpr ⟨v, hv, ht⟩, hu⟩

/-- The invariant rule: what holds at the start and is kept by every guarded step holds at the
    end of every guarded run. -/
theorem invariant_run {I : σ → Prop}
    (hstep : ∀ s e t, I s → guard s e → step s e = some t → I t) :
    ∀ {es : List ε} {s t : σ}, I s → Guarded step guard s es → run step s es = some t → I t
  | [], _, _, hs, _, hr => by cases hr; exact hs
  | e :: es, s, t, hs, hg, hr => by
    obtain ⟨u, hu, hrest⟩ := run_cons.mp hr
    exact invariant_run hstep (hstep s e u hs hg.1 hu) (hg.2 u hu) hrest

theorem guarded_true (s : σ) (es : List ε) : Guarded step (fun _ _ => True) s es := by
  induction es generalizing s with
  | nil => trivial
  | cons e es ih => exact ⟨trivial, fun t _ => ih t⟩

theorem guarded_congr {g g' : σ → ε → Prop} (h : ∀ s e, g s e ↔ g' s e) {s : σ} {es : List ε} :
    Guarded step g s es ↔ Guarded step g' s es := by
  induction es generalizing s with
  | nil => rfl
  | cons e es ih => exact and_congr (h s e) (forall₂_congr fun _ _ => ih)

/-- The invariant rule for unrestricted runs. -/
theorem invariant {I : σ → Prop} (hstep : ∀ s e t, I s → step s e = some t → I t)
    {es : List ε} {s t : σ} (hs : I s) (hr : run step s es = some t) : I t :=
  invariant_run (fun s e t hI _ h => hstep s e t hI h) hs (guarded_true s es) hr

/-- An invariant of guarded steps that implies `P` makes `P` hold throughout guarded runs. -/
theorem throughout_of_guarded {I P : σ → Prop} (hIP : ∀ s, I s → P s)
    (hstep : ∀ s e t, I s → guard s e → step s e = some t → I t) :
    ∀ {es : List ε} {s : σ}, I s → Guarded step guard s es → Throughout step P s es
  | [], s, hs, _ => hIP s hs
  | e :: _, s, hs, hg => ⟨hIP s hs, fun t ht =>
      throughout_of_guarded hIP hstep (hstep s e t hs hg.1 ht) (hg.2 t ht)⟩

theorem Throughout.head {P : σ → Prop} {s : σ} {es : List ε} (h : Throughout step P s es) : P s := by
  cases es with
  | nil => exact h
  | cons e es => exact h.1

/-- When a step outside the guard always leads out of `P`, holding `P` throughout is the same as
    taking guarded steps only: the guard is the exact condition for `P`. -/
theorem throughout_iff_guarded {I P : σ → Prop} (hIP : ∀ s, I s → P s)
    (hstep : ∀ s e t, I s → guard s e → step s e = some t → I t)
    (hbad : ∀ s e, I s → ¬ guard s e → ∃ t, step s e = some t ∧ ¬ P t) {es : List ε} {s : σ}
    (hs : I s) : Throughout step P s es ↔ Guarded step guard s es := by
  refine ⟨fun h => ?_, throughout_of_guarded hIP hstep hs⟩
  induction es generalizing s with
  | nil => trivial
  | cons e es ih =>
    have hg : guard s e := by
      by_contra hng
      obtain ⟨t, ht, hPt⟩ := hbad s e hs hng
      exact hPt (h.2 t ht).head
    exact ⟨hg, fun t ht => ih (hstep s e t hs hg ht) (h.2 t ht)⟩

/-- Each state of the run stands in the relation `R` to every later one. -/
def Evolves (step : σ → ε → Option σ) (R : σ → σ → Prop) (s : σ) (es : List ε) : Prop :=
  ∀ fs gs hs, es = fs ++ (gs ++ hs) → ∀ t u, run step s fs = some t → run step t gs = some u → R t u

theorem rel_of_guarded {R : σ → σ → Prop} (hrefl : ∀ s, R s s)
    (htrans : ∀ s t u, R s t → R t u → R s u)
    (hstep : ∀ s e t, step s e = some t → (R s t ↔ guard s e)) {es : List ε} {s t : σ}
    (hg : Guarded step guard s es) (hr : run step s es = some t) : R s t := by
  induction es generalizing s with
  | nil => cases hr; exact hrefl _
  | cons e es ih =>
    obtain ⟨u, hu, hrest⟩ := run_cons.mp hr
    exact htrans s u t ((hstep s e u hu).mpr hg.1) (ih (hg.2 u hu) hrest)

theorem Guarded.append {es fs : List ε} {s t : σ} (hg : Guarded step guard s (es ++ fs))
    (hr : run step s es = some t) : Guarded step guard s es ∧ Guarded step guard t fs := by
  induction es generalizing s with
  | nil => cases hr; exact ⟨trivial, hg⟩
  | cons e es ih =>
    obtain ⟨u, hu, hrest⟩ := run_cons.mp hr
    obtain ⟨hes, hfs⟩ := ih (hg.2 u hu) hrest
    refine ⟨⟨hg.1, fun v hv => ?_⟩, hfs⟩
    obtain rfl : u = v := Option.some.inj (hu.symm.trans hv)
    exact hes

/-- When the guard says exactly which steps keep to a preorder, the states of a run evolve along it
    exactly if every step meets the guard. -/
theorem evolves_iff_guarded {R : σ → σ → Prop} (hrefl : ∀ s, R s s)
    (htrans : ∀ s t u, R s t → R t u → R s u)
    (hstep : ∀ s e t, step s e = some t → (R s t ↔ guard s e)) {es : List ε} {s z : σ}
    (hrun : run step s es = some z) : Evolves step R s es ↔ Guarded step guard s es := by
  constructor
  · intro h
    induction es generalizing s with
    | nil => trivial
    | cons e es ih =>
      obtain ⟨u, hu, hrest⟩ := run_cons.mp hrun
      refine ⟨(hstep s e u hu).mp ?_, fun v hv => ?_⟩
      · exact h [] [e] es rfl s u rfl (run_cons.mpr ⟨u, hu, rfl⟩)
      · obtain rfl : u = v := Option.some.inj (hu.symm.trans hv)
        refine ih hrest fun fs gs hs heq t w ht hw => ?_
        exact h (e :: fs) gs hs (by rw [heq]; rfl) t w (run_cons.mpr ⟨u, hu, ht⟩) hw
  · intro hg fs gs hs heq t u ht hu
    rw [heq] at hg
    exact rel_of_guarded hrefl htrans hstep ((hg.append ht).2.append hu).1 hu

/-- A test of the states and events of one run, for guards that a test implies. -/
def checkRun (step : σ → ε → Option σ) (test : σ → ε → Bool) : σ → List ε → Bool
  | _, [] => true
  | s, e :: es => test s e && match step s e with
    | some t => checkRun step test t es
    | none => true

theorem guarded_of_checkRun {t : σ → ε → Bool} (himp : ∀ s e, t s e = true → guard s e)
    {es : List ε} {s : σ} (h : checkRun step t s es = true) : Guarded step guard s es := by
  induction es generalizing s with
  | nil => trivial
  | cons e es ih =>
    simp only [checkRun, Bool.and_eq_true] at h
    refine ⟨himp s e h.1, fun t ht => ih ?_⟩
    simpa [ht] using h.2

/-! ### Infinite executions -/

/-- An infinite execution: the event at each index leads to the next state. -/
def Execution (step : σ → ε → Option σ) (x : ℕ → σ) (ev : ℕ → ε) : Prop :=
  ∀ n, step (x n) (ev n) = some (x (n + 1))

/-- Weak fairness of one event: from no index on is it enabled for ever and never taken. -/
def Fair (step : σ → ε → Option σ) (x : ℕ → σ) (ev : ℕ → ε) (e : ε) : Prop :=
  ∀ n, ∃ m, n ≤ m ∧ (ev m = e ∨ step (x m) e = none)

variable {x : ℕ → σ} {ev : ℕ → ε}

theorem Execution.run_take (h : Execution step x ev) (n : ℕ) :
    run step (x 0) ((List.range n).map ev) = some (x n) := by
  induction n with
  | zero => rfl
  | succ n ih =>
    rw [List.range_succ, List.map_append]
    exact run_append ih (run_cons.mpr ⟨_, h n, rfl⟩)

/-- A fair event that stays enabled until `P` holds, and makes `P` hold, is taken or not needed. -/
theorem Execution.eventually (h : Execution step x ev) {P : σ → Prop} {e : ε}
    (hfair : Fair step x ev e) (n : ℕ)
    (henabled : ∀ m, n ≤ m → ¬ P (x m) → step (x m) e ≠ none)
    (hdone : ∀ s t, step s e = some t → P t) : ∃ m, n ≤ m ∧ P (x m) := by
  by_contra hnever
  obtain ⟨m, hm, htaken | hdisabled⟩ := hfair n
  · exact hnever ⟨m + 1, by omega, hdone (x m) (x (m + 1)) (htaken ▸ h m)⟩
  · exact henabled m hm (fun hP => hnever ⟨m, hm, hP⟩) hdisabled

end ScalpingBot.Transition
