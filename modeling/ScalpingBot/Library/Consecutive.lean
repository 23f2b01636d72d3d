import Mathlib.Data.List.Basic
import Mathlib.Data.List.Perm.Basic
import Mathlib.Order.Interval.Basic
import Mathlib.Tactic.Common

/-! Consecutive closed intervals of integers: each starts one after the end of the one before, so
    together they are one interval, cut into pieces. -/

namespace ScalpingBot.Consecutive

variable {α : Type*}

/-- The intervals cut `[a, b]` into pieces, in order. -/
inductive Cut : ℤ → ℤ → List (ℤ × ℤ) → Prop
  | single {a b : ℤ} (h : a ≤ b) : Cut a b [(a, b)]
  | cons {a m b : ℤ} {l : List (ℤ × ℤ)} (h : a ≤ m) (hl : Cut (m + 1) b l) : Cut a b ((a, m) :: l)

/-- The key lies in the interval. -/
def within (key : α → Option ℤ) (w : ℤ × ℤ) (item : α) : Bool :=
  (key item).any fun t => w.1 ≤ t ∧ t ≤ w.2

theorem within_mono {key : α → Option ℤ} {v w : ℤ × ℤ} (h : w.1 ≤ v.1 ∧ v.2 ≤ w.2) {item : α}
    (hv : within key v item) : within key w item := by
  rw [within, Option.any_eq_true] at hv ⊢
  obtain ⟨t, ht, hrange⟩ := hv
  rw [decide_eq_true_eq] at hrange
  exact ⟨t, ht, decide_eq_true (by omega)⟩

theorem Cut.le {a b : ℤ} {l : List (ℤ × ℤ)} (h : Cut a b l) : a ≤ b := by
  induction h with
  | single h => exact h
  | cons h _ ih => omega

theorem Cut.bounds {a b : ℤ} {l : List (ℤ × ℤ)} (h : Cut a b l) :
    ∀ w ∈ l, a ≤ w.1 ∧ w.2 ≤ b := by
  induction h with
  | single h => simp
  | cons h hl ih =>
    have hle := hl.le
    intro w hw
    rcases List.mem_cons.mp hw with rfl | hw
    · exact ⟨le_rfl, by omega⟩
    · have hbounds := ih w hw
      omega

/-- A point of the interval lies in exactly one piece, another in none. -/
theorem Cut.length_filter {a b : ℤ} {l : List (ℤ × ℤ)} (h : Cut a b l) (t : ℤ) :
    (l.filter fun w => w.1 ≤ t ∧ t ≤ w.2).length = if a ≤ t ∧ t ≤ b then 1 else 0 := by
  induction h with
  | single h =>
    rw [List.filter_cons, List.filter_nil]
    split
    · next hin => rw [if_pos (of_decide_eq_true hin)]; rfl
    · next hout => rw [if_neg (fun hin => hout (decide_eq_true hin))]; rfl
  | @cons a m b l h hl ih =>
    have hle := hl.le
    rw [List.filter_cons]
    split
    · next hin =>
      rw [decide_eq_true_eq] at hin
      rw [List.length_cons, ih, if_neg (by omega), if_pos (by omega)]
    · next hout =>
      rw [decide_eq_true_eq] at hout
      rw [ih]
      congr 1
      rw [eq_iff_iff]
      omega

/-- Items sorted into the pieces by their keys are the items of the interval, each once. -/
theorem Cut.perm_filter {a b : ℤ} {l : List (ℤ × ℤ)} (h : Cut a b l) (key : α → Option ℤ)
    (items : List α) :
    (l.flatMap fun w => items.filter (within key w)).Perm
      (items.filter (within key (a, b))) := by
  induction h with
  | single h => simp
  | @cons a m b l h hl ih =>
    have hle := hl.le
    have hfirst : items.filter (within key (a, m))
        = (items.filter (within key (a, b))).filter (within key (a, m)) := by
      rw [List.filter_filter]
      refine List.filter_congr fun item _ => ?_
      cases hkey : key item with
      | none => simp [within, hkey]
      | some t =>
        rw [Bool.eq_iff_iff]
        simp only [within, hkey, Option.any_some, Bool.and_eq_true, decide_eq_true_eq]
        omega
    have hrest : items.filter (within key (m + 1, b))
        = (items.filter (within key (a, b))).filter (fun item => !within key (a, m) item) := by
      rw [List.filter_filter]
      refine List.filter_congr fun item _ => ?_
      cases hkey : key item with
      | none => simp [within, hkey]
      | some t =>
        rw [Bool.eq_iff_iff]
        simp only [within, hkey, Option.any_some, Bool.and_eq_true, Bool.not_eq_true',
          decide_eq_true_eq, decide_eq_false_iff_not]
        omega
    rw [List.flatMap_cons]
    refine (List.Perm.append_left _ ih).trans ?_
    rw [hfirst, hrest]
    exact List.filter_append_perm _ _

end ScalpingBot.Consecutive
