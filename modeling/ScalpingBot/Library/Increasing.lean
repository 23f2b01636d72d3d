import Mathlib.Data.List.Chain
import Mathlib.Tactic.Common

/-! Lists of increasing numbers: what lies between the first number and the last, and which of them
    leave no number out. -/

namespace ScalpingBot.Increasing

/-- Each number is the one after the number before it. -/
def Gapless (l : List ℕ) : Prop := l.IsChain fun a b => b = a + 1

instance (l : List ℕ) : Decidable (Gapless l) := inferInstanceAs (Decidable (l.IsChain _))

theorem head_le_last {l : List ℕ} {a b : ℕ} (hsorted : l.Pairwise (· < ·)) (ha : l.head? = some a)
    (hb : l.getLast? = some b) : ∀ n ∈ l, a ≤ n ∧ n ≤ b := by
  intro n hn
  constructor
  · obtain ⟨rest, rfl⟩ := List.head?_eq_some_iff.mp ha
    rcases List.mem_cons.mp hn with rfl | hn
    · exact Nat.le_refl _
    · exact (List.rel_of_pairwise_cons hsorted hn).le
  · obtain ⟨init, rfl⟩ := List.getLast?_eq_some_iff.mp hb
    rcases List.mem_append.mp hn with hn | hn
    · exact ((List.pairwise_append.mp hsorted).2.2 n hn b (List.mem_singleton_self b)).le
    · exact (List.mem_singleton.mp hn).le

/-- Increasing numbers are all that lie between the first and the last exactly when they have no
    gap. -/
theorem gapless_iff {l : List ℕ} {a b : ℕ} (hsorted : l.Pairwise (· < ·)) (ha : l.head? = some a)
    (hb : l.getLast? = some b) : Gapless l ↔ ∀ n, a ≤ n → n ≤ b → n ∈ l := by
  induction l generalizing a with
  | nil => cases ha
  | cons x rest ih =>
    cases ha
    rw [List.pairwise_cons] at hsorted
    obtain ⟨hfirst, hrest⟩ := hsorted
    cases rest with
    | nil =>
      cases hb
      refine ⟨fun _ n ha hb => ?_, fun _ => List.isChain_singleton _⟩
      rw [Nat.le_antisymm hb ha]
      exact List.mem_singleton_self _
    | cons y rest =>
      have hb' : (y :: rest).getLast? = some b := by simpa using hb
      have ih := ih hrest rfl hb'
      have hxy : x < y := hfirst y List.mem_cons_self
      have hyb : y ≤ b := (head_le_last hrest rfl hb' y List.mem_cons_self).2
      rw [Gapless, List.isChain_cons_cons, ← Gapless, ih]
      constructor
      · rintro ⟨rfl, hmem⟩ n ha hn
        rcases Nat.lt_or_ge x n with hlt | hge
        · exact List.mem_cons_of_mem _ (hmem n hlt hn)
        · rw [Nat.le_antisymm hge ha]
          exact List.mem_cons_self
      · intro h
        refine ⟨?_, fun n hy hn => ?_⟩
        · rcases List.mem_cons.mp (h (x + 1) (Nat.le_succ x) (Nat.le_trans hxy hyb)) with heq | hmem
          · omega
          · have hle := (head_le_last hrest rfl hb' _ hmem).1
            omega
        · rcases List.mem_cons.mp (h n (by omega) hn) with heq | hmem
          · omega
          · exact hmem

/-- A number between those of one part of an increasing list stands in that part. -/
theorem mem_of_between {before l after : List ℕ} {a b n : ℕ}
    (hsorted : (before ++ l ++ after).Pairwise (· < ·)) (ha : l.head? = some a)
    (hb : l.getLast? = some b) (hn : n ∈ before ++ l ++ after) (han : a ≤ n) (hnb : n ≤ b) : n ∈ l := by
  rw [List.pairwise_append] at hsorted
  obtain ⟨hleft, -, hafter⟩ := hsorted
  obtain ⟨-, -, hbefore⟩ := List.pairwise_append.mp hleft
  have hmema : a ∈ l := List.mem_of_head? ha
  have hmemb : b ∈ l := List.mem_of_getLast? hb
  rcases List.mem_append.mp hn with hn | hn
  · rcases List.mem_append.mp hn with hn | hn
    · exact absurd (hbefore n hn a hmema) (Nat.not_lt.mpr han)
    · exact hn
  · exact absurd (hafter b (List.mem_append_right _ hmemb) n hn) (Nat.not_lt.mpr hnb)

end ScalpingBot.Increasing
