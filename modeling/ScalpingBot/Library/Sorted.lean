import Mathlib.Data.List.Basic
import Mathlib.Order.Basic
import Mathlib.Order.Defs.LinearOrder
import Mathlib.Order.Lattice
import Mathlib.Tactic.Common

/-! Positions in a sorted list: the number of elements up to a bound is where the elements beyond the
    bound begin. -/

namespace ScalpingBot.Sorted

variable {α β : Type*} [LinearOrder β] (key : α → β) {l : List α}

theorem countP_le_eq_zero {a : α} {x : β} (h : (a :: l).Pairwise fun a b => key a ≤ key b)
    (ha : x < key a) : (a :: l).countP (key · ≤ x) = 0 := by
  refine List.countP_eq_zero.mpr fun b hb => ?_
  have hle : key a ≤ key b := by
    rcases List.mem_cons.mp hb with rfl | hb
    · exact le_rfl
    · exact (List.pairwise_cons.mp h).1 b hb
  simpa using ha.trans_le hle

theorem drop_countP_le (h : l.Pairwise fun a b => key a ≤ key b) (x : β) :
    l.drop (l.countP (key · ≤ x)) = l.filter (x < key ·) := by
  induction l with
  | nil => rfl
  | cons a l ih =>
    by_cases ha : key a ≤ x
    · rw [List.countP_cons_of_pos (by simpa using ha), List.drop_succ_cons,
        ih (List.pairwise_cons.mp h).2, List.filter_cons_of_neg (by simpa using ha)]
    · have ha : x < key a := not_le.mp ha
      rw [countP_le_eq_zero key h ha, List.drop_zero, eq_comm, List.filter_eq_self]
      intro b hb
      rcases List.mem_cons.mp hb with rfl | hb
      · simpa using ha
      · simpa using ha.trans_le ((List.pairwise_cons.mp h).1 b hb)

/-- The last element up to a bound, if there is one. -/
theorem getElem?_countP_le_pred (h : l.Pairwise fun a b => key a ≤ key b) {x : β} {a : α}
    (hpos : l.countP (key · ≤ x) ≠ 0) (hget : l[l.countP (key · ≤ x) - 1]? = some a) :
    a ∈ l ∧ key a ≤ x ∧ ∀ b ∈ l, key b ≤ x → key b ≤ key a := by
  induction l with
  | nil => exact absurd rfl hpos
  | cons c l ih =>
    by_cases hc : key c ≤ x
    · obtain ⟨hfirst, hrest⟩ := List.pairwise_cons.mp h
      rw [List.countP_cons_of_pos (by simpa using hc), Nat.add_sub_cancel] at hget
      by_cases hzero : l.countP (key · ≤ x) = 0
      · rw [hzero] at hget
        cases hget
        refine ⟨List.mem_cons_self, hc, List.forall_mem_cons.mpr ⟨fun _ => le_rfl, fun b hb hbx => ?_⟩⟩
        exact absurd (by simpa using hbx) (List.countP_eq_zero.mp hzero b hb)
      · obtain ⟨n, hn⟩ := Nat.exists_eq_succ_of_ne_zero hzero
        rw [hn, List.getElem?_cons_succ] at hget
        rw [hn] at ih
        obtain ⟨hmem, hle, hmax⟩ := ih hrest (Nat.succ_ne_zero n) hget
        exact ⟨List.mem_cons_of_mem _ hmem, hle,
          List.forall_mem_cons.mpr ⟨fun _ => hfirst a hmem, hmax⟩⟩
    · exact absurd (countP_le_eq_zero key h (not_le.mp hc)) hpos

/-- The first element beyond a bound is the least one. -/
theorem head?_filter_any (h : l.Pairwise fun a b => key a ≤ key b) (x y : β) :
    ((l.filter (x < key ·)).head?).any (fun a => decide (key a ≤ y)) ↔
      ∃ a ∈ l, x < key a ∧ key a ≤ y := by
  induction l with
  | nil => simp
  | cons a l ih =>
    obtain ⟨hfirst, hrest⟩ := List.pairwise_cons.mp h
    by_cases ha : x < key a
    · rw [List.filter_cons_of_pos (by simpa using ha), List.head?_cons, Option.any_some,
        decide_eq_true_eq]
      constructor
      · exact fun hle => ⟨a, List.mem_cons_self, ha, hle⟩
      · rintro ⟨b, hb, -, hle⟩
        rcases List.mem_cons.mp hb with rfl | hb
        · exact hle
        · exact (hfirst b hb).trans hle
    · rw [List.filter_cons_of_neg (by simpa using ha), ih hrest]
      constructor
      · rintro ⟨b, hb, hlt, hle⟩
        exact ⟨b, List.mem_cons_of_mem _ hb, hlt, hle⟩
      · rintro ⟨b, hb, hlt, hle⟩
        rcases List.mem_cons.mp hb with rfl | hb
        · exact absurd hlt ha
        · exact ⟨b, hb, hlt, hle⟩

end ScalpingBot.Sorted
