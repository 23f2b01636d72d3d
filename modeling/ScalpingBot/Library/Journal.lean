import Mathlib.Algebra.BigOperators.Group.List.Basic
import Mathlib.Data.List.DropRight
import Mathlib.Tactic.Abel
import Mathlib.Tactic.Common

/-! The journal of a machine: every call with the states before and after it. Differences of a figure
    over the steps add up to its difference over the run, and a window of the journal that starts at an
    instant is its end. -/

namespace ScalpingBot.Journal

structure Step (σ κ : Type*) where
  before : σ
  call : κ
  after : σ

variable {σ κ α β M : Type*}

def steps (next : σ → κ → σ) (s : σ) : List κ → List (Step σ κ)
  | [] => []
  | call :: calls => ⟨s, call, next s call⟩ :: steps next (next s call) calls

variable {next : σ → κ → σ} {s : σ} {calls : List κ}

theorem after_eq {step : Step σ κ} (h : step ∈ steps next s calls) :
    step.after = next step.before step.call := by
  induction calls generalizing s with
  | nil => exact absurd h List.not_mem_nil
  | cons call calls ih =>
    rcases List.mem_cons.mp h with rfl | h
    · rfl
    · exact ih h

/-- What follows in a journal is the journal of the calls that follow. -/
theorem of_suffix {earlier later : List (Step σ κ)} (h : steps next s calls = earlier ++ later) :
    ∃ t rest, later = steps next t rest ∧ rest.foldl next t = calls.foldl next s := by
  induction earlier generalizing s calls with
  | nil => exact ⟨s, calls, h.symm, rfl⟩
  | cons step earlier ih =>
    cases calls with
    | nil => cases h
    | cons call calls =>
      rw [steps, List.cons_append, List.cons.injEq] at h
      exact ih (s := next s call) h.2

theorem of_prefix {earlier later : List (Step σ κ)} (h : steps next s calls = earlier ++ later) :
    ∃ rest, earlier = steps next s rest := by
  induction earlier generalizing s calls with
  | nil => exact ⟨[], rfl⟩
  | cons step earlier ih =>
    cases calls with
    | nil => cases h
    | cons call calls =>
      rw [steps, List.cons_append, List.cons.injEq] at h
      obtain ⟨rest, hrest⟩ := ih h.2
      exact ⟨call :: rest, by rw [steps, hrest, h.1]⟩

theorem cons_eq {step : Step σ κ} {later : List (Step σ κ)} (h : steps next s calls = step :: later) :
    step.before = s ∧ ∃ rest, later = steps next step.after rest ∧
      rest.foldl next step.after = calls.foldl next s := by
  cases calls with
  | nil => cases h
  | cons call calls =>
    rw [steps, List.cons.injEq] at h
    obtain ⟨rfl, rfl⟩ := h
    exact ⟨rfl, calls, rfl, rfl⟩

/-- The state in which a journal ends. -/
def final (s : σ) (journal : List (Step σ κ)) : σ := (journal.getLast?.map Step.after).getD s

theorem final_steps : final s (steps next s calls) = calls.foldl next s := by
  induction calls generalizing s with
  | nil => rfl
  | cons call calls ih =>
    rw [List.foldl_cons, ← ih, steps, final, List.getLast?_cons]
    rw [final]
    cases (steps next (next s call) calls).getLast? <;> rfl

/-- A figure that grows by nothing but the steps. -/
theorem sum_differences [AddCommGroup M] (figure : σ → M) :
    ((steps next s calls).map fun step => figure step.after - figure step.before).sum =
      figure (calls.foldl next s) - figure s := by
  induction calls generalizing s with
  | nil => exact (sub_self _).symm
  | cons call calls ih =>
    rw [steps, List.map_cons, List.sum_cons, ih, List.foldl_cons]
    abel

/-- A figure that no step takes down is at each step no less than at the start. -/
theorem le_before (figure : σ → ℕ) (h : ∀ s call, figure s ≤ figure (next s call))
    {step : Step σ κ} (hstep : step ∈ steps next s calls) : figure s ≤ figure step.before := by
  induction calls generalizing s with
  | nil => exact absurd hstep List.not_mem_nil
  | cons call calls ih =>
    rcases List.mem_cons.mp hstep with rfl | hstep
    · exact Nat.le_refl _
    · exact Nat.le_trans (h s call) (ih hstep)

/-- A figure that every step of the journal keeps. -/
theorem after_eq_start (figure : σ → α)
    (h : ∀ step ∈ steps next s calls, figure step.after = figure step.before) :
    ∀ step ∈ steps next s calls, figure step.after = figure s := by
  induction calls generalizing s with
  | nil => exact fun step hstep => absurd hstep List.not_mem_nil
  | cons call calls ih =>
    intro step hstep
    have hfirst : figure (next s call) = figure s := h _ List.mem_cons_self
    rcases List.mem_cons.mp hstep with rfl | hstep
    · exact hfirst
    · rw [← hfirst]
      exact ih (fun step hstep => h step (List.mem_cons_of_mem _ hstep)) step hstep

/-! ### Windows of a journal -/

variable {mark : α → Option β} {p : β → Bool}

/-- Marks that stay in a window once they have entered it: the window is an end of the list. -/
theorem filter_marks {l : List α} (h : (l.filterMap mark).Pairwise fun a b => p a → p b) :
    (l.filterMap mark).filter p = (l.dropWhile fun x => !(mark x).any p).filterMap mark := by
  induction l with
  | nil => rfl
  | cons x l ih =>
    cases hmark : mark x with
    | none =>
      rw [List.filterMap_cons_none hmark] at h ⊢
      rw [List.dropWhile_cons_of_pos (by simp [hmark]), ih h]
    | some b =>
      rw [List.filterMap_cons_some hmark] at h ⊢
      rw [List.pairwise_cons] at h
      cases hp : p b with
      | false =>
        rw [List.dropWhile_cons_of_pos (by simp [hmark, hp]), List.filter_cons_of_neg (by simp [hp]),
          ih h.2]
      | true =>
        rw [List.dropWhile_cons_of_neg (by simp [hmark, hp]), List.filterMap_cons_some hmark]
        refine List.filter_eq_self.mpr fun a ha => ?_
        rcases List.mem_cons.mp ha with rfl | ha
        · exact hp
        · exact h.1 a ha hp

theorem filter_dropWhile {l : List α} {p q : α → Bool} (h : ∀ x ∈ l, q x → ¬ p x) :
    (l.dropWhile q).filter p = l.filter p := by
  induction l with
  | nil => rfl
  | cons x l ih =>
    by_cases hq : q x
    · rw [List.dropWhile_cons_of_pos hq, List.filter_cons_of_neg (h x List.mem_cons_self hq)]
      exact ih fun y hy => h y (List.mem_cons_of_mem _ hy)
    · rw [List.dropWhile_cons_of_neg hq]

variable (mark) in
/-- The list up to its last marked element. -/
def upToLast (l : List α) : List α := l.rdropWhile fun x => (mark x).isNone

variable (mark) in
theorem upToLast_append (l : List α) : ∃ rest, l = upToLast mark l ++ rest ∧
    ∀ x ∈ rest, mark x = none := by
  refine ⟨l.rtakeWhile fun x => (mark x).isNone, ?_, fun x hx => ?_⟩
  · exact List.rdropWhile_append_rtakeWhile.symm
  · have hnone : (mark x).isNone := List.mem_rtakeWhile_imp (p := fun x => (mark x).isNone) hx
    exact Option.isNone_iff_eq_none.mp hnone

theorem filterMap_upToLast (l : List α) : (upToLast mark l).filterMap mark = l.filterMap mark := by
  obtain ⟨rest, hl, hrest⟩ := upToLast_append mark l
  conv_rhs => rw [hl, List.filterMap_append]
  rw [List.filterMap_eq_nil_iff.mpr hrest, List.append_nil]

theorem isSome_of_getLast? {l : List α} {x : α} (h : (upToLast mark l).getLast? = some x) :
    (mark x).isSome := by
  have hne : upToLast mark l ≠ [] := fun hnil => by simp [hnil] at h
  have hlast : ¬ (mark ((upToLast mark l).getLast hne)).isNone :=
    List.rdropWhile_last_not (fun x => (mark x).isNone) l hne
  rw [List.getLast?_eq_getLast_of_ne_nil hne, Option.some.injEq] at h
  rw [h] at hlast
  simpa [Option.isSome_iff_ne_none] using hlast

/-- The last mark is that of the last element. -/
theorem getLast?_marks (l : List α) :
    (l.filterMap mark).getLast? = ((upToLast mark l).getLast?).bind mark := by
  rw [← filterMap_upToLast]
  cases hlast : (upToLast mark l).getLast? with
  | none =>
    rw [List.getLast?_eq_none_iff.mp hlast]
    rfl
  | some x =>
    obtain ⟨init, hinit⟩ := List.getLast?_eq_some_iff.mp hlast
    obtain ⟨b, hb⟩ := Option.isSome_iff_exists.mp (isSome_of_getLast? hlast)
    rw [hinit, List.filterMap_append, List.filterMap_cons_some hb]
    simp [hb]

end ScalpingBot.Journal
