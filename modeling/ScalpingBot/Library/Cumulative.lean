import Mathlib.Algebra.BigOperators.Group.Finset.Piecewise
import Mathlib.Algebra.Order.BigOperators.Group.Finset
import Mathlib.Algebra.Order.BigOperators.Group.List
import Mathlib.Data.List.Induction
import Mathlib.Data.List.Sort
import Mathlib.Logic.Function.Basic
import Mathlib.Tactic.Abel

/-! Running totals of accounts over rows in the order of their clocks. As long as no row takes away, the
    totals stay within limits that only grow exactly when the sum up to every instant does, however
    rows of one instant are ordered. -/

namespace ScalpingBot.Cumulative

variable {α κ ι M : Type*} [AddCommGroup M] [LinearOrder M] [IsOrderedAddMonoid M]

/-! ### Sums of some of the rows -/

section Sums

variable (amount : α → M)

/-- What the rows of a kind amount to. -/
def total (p : α → Bool) (rows : List α) : M := ((rows.filter p).map amount).sum

variable {amount} {p q : α → Bool} {rows others : List α} {row : α}

omit [LinearOrder M] [IsOrderedAddMonoid M] in
theorem total_cons :
    total amount p (row :: rows) = (if p row then amount row else 0) + total amount p rows := by
  rw [total, List.filter_cons]
  split
  · rfl
  · exact (zero_add _).symm

omit [LinearOrder M] [IsOrderedAddMonoid M] in
theorem total_append : total amount p (rows ++ others) = total amount p rows + total amount p others := by
  rw [total, List.filter_append, List.map_append, List.sum_append]
  rfl

omit [LinearOrder M] [IsOrderedAddMonoid M] in
theorem total_perm (h : rows.Perm others) : total amount p rows = total amount p others :=
  ((h.filter p).map amount).sum_eq

omit [LinearOrder M] [IsOrderedAddMonoid M] in
theorem total_congr (h : ∀ row ∈ rows, p row = q row) : total amount p rows = total amount q rows := by
  rw [total, List.filter_congr h]
  rfl

omit [LinearOrder M] [IsOrderedAddMonoid M] in
theorem total_eq_sum (h : ∀ row ∈ rows, p row) : total amount p rows = (rows.map amount).sum := by
  rw [total, List.filter_eq_self.mpr h]

omit [LinearOrder M] [IsOrderedAddMonoid M] in
/-- The rows of a kind, apart by a second one. -/
theorem total_filter_add :
    total amount p (rows.filter q) + total amount p (rows.filter fun row => !q row) =
      total amount p rows := by
  induction rows with
  | nil => exact add_zero 0
  | cons row rows ih =>
    rw [total_cons, ← ih]
    by_cases hq : q row
    · rw [List.filter_cons_of_pos hq, List.filter_cons_of_neg (by simp [hq]), total_cons, add_assoc]
    · rw [List.filter_cons_of_neg hq, List.filter_cons_of_pos (by simp [hq]), total_cons]
      abel

theorem total_nonneg (h : ∀ row ∈ rows, 0 ≤ amount row) : 0 ≤ total amount p rows := by
  refine List.sum_nonneg fun x hx => ?_
  obtain ⟨row, hrow, rfl⟩ := List.mem_map.mp hx
  exact h row (List.mem_of_mem_filter hrow)

/-- A wider kind amounts to no less. -/
theorem total_mono (h : ∀ row ∈ rows, 0 ≤ amount row) (hpq : ∀ row ∈ rows, p row → q row) :
    total amount p rows ≤ total amount q rows := by
  induction rows with
  | nil => exact le_rfl
  | cons row rows ih =>
    rw [total_cons, total_cons]
    refine add_le_add ?_ (ih (fun r hr => h r (List.mem_cons_of_mem _ hr))
      fun r hr => hpq r (List.mem_cons_of_mem _ hr))
    have hrow := h row List.mem_cons_self
    by_cases hp : p row
    · rw [if_pos hp, if_pos (hpq row List.mem_cons_self hp)]
    · rw [if_neg hp]
      split
      · exact hrow
      · exact le_rfl

omit [LinearOrder M] [IsOrderedAddMonoid M] in
theorem total_filter (h : ∀ row ∈ rows, p row → q row) :
    total amount p (rows.filter q) = total amount p rows := by
  rw [total, List.filter_filter]
  refine total_congr fun row hrow => ?_
  rw [Bool.and_eq_left_iff_imp]
  exact h row hrow

omit [LinearOrder M] [IsOrderedAddMonoid M] in
theorem total_eq_zero (h : ∀ row ∈ rows, ¬ p row) : total amount p rows = 0 := by
  rw [total, List.filter_eq_nil_iff.mpr h]
  rfl

/-! ### Sums by accounts -/

variable [DecidableEq κ] {β : Type*} {account : α → κ} {amount' : β → M}
  {rows' : List β}

omit [LinearOrder M] [IsOrderedAddMonoid M] in
/-- What rows amount to is what their accounts do. -/
theorem sum_eq_sum_total (accounts : Finset κ) (h : ∀ row ∈ rows, account row ∈ accounts) :
    (rows.map amount).sum = ∑ k ∈ accounts, total amount (fun row => account row = k) rows := by
  induction rows with
  | nil => exact (Finset.sum_eq_zero fun _ _ => rfl).symm
  | cons row rows ih =>
    simp only [total_cons, decide_eq_true_eq]
    rw [List.map_cons, List.sum_cons, ih fun r hr => h r (List.mem_cons_of_mem _ hr),
      Finset.sum_add_distrib, Finset.sum_ite_eq, if_pos (h row List.mem_cons_self)]

/-- Rows of which no account exceeds that of others amount to no more than these. -/
theorem sum_le_sum_of_accounts (account : α → κ) (account' : β → κ)
    (h : ∀ k, total amount (fun row => account row = k) rows ≤
      total amount' (fun row => account' row = k) rows') :
    (rows.map amount).sum ≤ (rows'.map amount').sum := by
  let accounts := (rows.map account ++ rows'.map account').toFinset
  rw [sum_eq_sum_total accounts fun row hrow => ?_, sum_eq_sum_total accounts fun row hrow => ?_]
  · exact Finset.sum_le_sum fun k _ => h k
  · rw [List.mem_toFinset]
    exact List.mem_append_right _ (List.mem_map_of_mem hrow)
  · rw [List.mem_toFinset]
    exact List.mem_append_left _ (List.mem_map_of_mem hrow)

/-! ### Instants -/

variable {clock : α → ℤ}

omit [LinearOrder M] [IsOrderedAddMonoid M] in
theorem total_upTo_eq_zero (h : ∀ row ∈ rows, total amount (fun r => clock r = clock row) rows = 0)
    (t : ℤ) : total amount (fun r => clock r ≤ t) rows = 0 := by
  -- the rows of the first row's instant amount to nothing, and the others are fewer
  induction hn : rows.length using Nat.strong_induction_on generalizing rows with
  | _ n ih =>
    cases rows with
    | nil => rfl
    | cons row rows =>
      rw [← total_filter_add (q := fun r => clock r = clock row)]
      have hothers : total amount (fun r => clock r ≤ t)
          ((row :: rows).filter fun r => !decide (clock r = clock row)) = 0 := by
        refine ih _ ?_ (fun r hr => ?_) rfl
        · rw [← hn]
          refine List.length_filter_lt_length_iff_exists.mpr ⟨row, List.mem_cons_self, ?_⟩
          simp
        · rw [List.mem_filter, Bool.not_eq_true', decide_eq_false_iff_not] at hr
          rw [total_filter fun r' _ hr' => by simp_all]
          exact h r hr.1
      have hfirst : total amount (fun r => clock r ≤ t)
          ((row :: rows).filter fun r => clock r = clock row) = 0 := by
        by_cases ht : clock row ≤ t
        · rw [total_eq_sum]
          · exact h row List.mem_cons_self
          · intro r hr
            have hr := of_decide_eq_true (List.mem_filter.mp hr).2
            exact decide_eq_true (hr.trans_le ht)
        · refine total_eq_zero fun r hr hrt => ht ?_
          have hr := of_decide_eq_true (List.mem_filter.mp hr).2
          exact hr.symm.trans_le (of_decide_eq_true hrt)
      rw [hothers, hfirst, add_zero]

omit [LinearOrder M] [IsOrderedAddMonoid M] in
/-- Nothing was counted by any instant exactly when the rows of each instant amount to nothing. -/
theorem total_upTo_eq_zero_iff : (∀ t, total amount (fun r => clock r ≤ t) rows = 0) ↔
    ∀ row ∈ rows, total amount (fun r => clock r = clock row) rows = 0 := by
  refine ⟨fun h row _ => ?_, total_upTo_eq_zero⟩
  have hsplit : total amount (fun r => clock r ≤ clock row)
          (rows.filter fun r => clock r = clock row) +
        total amount (fun r => clock r ≤ clock row)
          (rows.filter fun r => !decide (clock r = clock row)) =
      total amount (fun r => clock r ≤ clock row) rows := total_filter_add
  have hat : total amount (fun r => clock r ≤ clock row)
      (rows.filter fun r => clock r = clock row) = total amount (fun r => clock r = clock row) rows := by
    rw [total_eq_sum fun r hr => ?_]
    · rfl
    · exact decide_eq_true (of_decide_eq_true (List.mem_filter.mp hr).2).le
  have hbefore : total amount (fun r => clock r ≤ clock row)
      (rows.filter fun r => !decide (clock r = clock row)) =
        total amount (fun r => clock r ≤ clock row - 1) rows := by
    rw [total, List.filter_filter]
    refine total_congr fun r _ => ?_
    rw [Bool.eq_iff_iff]
    simp only [Bool.and_eq_true, Bool.not_eq_true', decide_eq_true_eq, decide_eq_false_iff_not]
    omega
  rwa [hat, hbefore, h, h, add_zero] at hsplit

end Sums

/-! ### Running totals -/

variable [DecidableEq κ] (account : α → κ) (amount : α → M)

/-- The totals after a row. -/
def record (totals : κ → M) (row : α) : κ → M :=
  Function.update totals (account row) (totals (account row) + amount row)

/-- Some row takes the total of its account over its limit. -/
def overdrawn (limit : α → M) (totals : κ → M) : List α → Bool
  | [] => false
  | row :: rows =>
    decide (limit row < record account amount totals row (account row)) ||
      overdrawn limit (record account amount totals row) rows

variable {account amount} {limit : α → M} {totals : κ → M} {rows : List α} {row : α}

omit [LinearOrder M] [IsOrderedAddMonoid M] in
theorem foldl_record (k : κ) :
    rows.foldl (record account amount) totals k =
      totals k + total amount (fun row => decide (account row = k)) rows := by
  induction rows generalizing totals with
  | nil => exact (add_zero _).symm
  | cons row rows ih =>
    rw [List.foldl_cons, ih, total_cons, record]
    by_cases hk : account row = k
    · subst hk
      simp only [Function.update_self, decide_true, if_true]
      abel
    · rw [Function.update_of_ne (Ne.symm hk)]
      simp only [hk, decide_false, Bool.false_eq_true, if_false, zero_add]

omit [IsOrderedAddMonoid M] in
theorem overdrawn_append :
    overdrawn account amount limit totals (rows ++ [row]) =
      (overdrawn account amount limit totals rows ||
        decide (limit row < totals (account row) +
          total amount (fun r => decide (account r = account row)) (rows ++ [row]))) := by
  induction rows generalizing totals with
  | nil => simp [overdrawn, record, total]
  | cons first rows ih =>
    rw [List.cons_append, overdrawn, overdrawn, ih, Bool.or_assoc]
    congr 3
    have hfold : (first :: (rows ++ [row])).foldl (record account amount) totals (account row) =
        totals (account row) +
          total amount (fun r => decide (account r = account row)) (first :: (rows ++ [row])) :=
      foldl_record _
    rw [List.foldl_cons, foldl_record] at hfold
    rw [hfold]

/-! ### Rows in the order of their clocks -/

variable [LinearOrder ι] {clock : α → ι} {bound : κ → ι → M}

variable (account clock) in
/-- The rows of an account up to an instant. -/
def upTo (k : κ) (t : ι) (row : α) : Bool := decide (account row = k ∧ clock row ≤ t)

theorem not_overdrawn_iff (hsorted : rows.Pairwise fun a b => clock a ≤ clock b)
    (hpos : ∀ row ∈ rows, 0 ≤ amount row) (hmono : ∀ k, Monotone (bound k))
    (hbound : ∀ k t, 0 ≤ bound k t) :
    overdrawn account amount (fun row => bound (account row) (clock row)) (fun _ => 0) rows = false ↔
      ∀ k t, total amount (upTo account clock k t) rows ≤ bound k t := by
  induction rows using List.reverseRecOn with
  | nil => exact ⟨fun _ => hbound, fun _ => rfl⟩
  | append_singleton rows row ih =>
    obtain ⟨hrows, -, hlast⟩ := List.pairwise_append.mp hsorted
    have hle : ∀ r ∈ rows ++ [row], clock r ≤ clock row := by
      intro r hr
      rcases List.mem_append.mp hr with hr | hr
      · exact hlast r hr row (List.mem_singleton_self row)
      · rw [List.mem_singleton.mp hr]
    -- all the rows of the last row's account stand at or before its clock
    have hall : ∀ t, clock row ≤ t → total amount (upTo account clock (account row) t) (rows ++ [row]) =
        total amount (fun r => decide (account r = account row)) (rows ++ [row]) := by
      intro t ht
      refine total_congr fun r hr => ?_
      rw [upTo, decide_eq_decide]
      exact and_iff_left ((hle r hr).trans ht)
    rw [overdrawn_append, Bool.or_eq_false_iff, zero_add, decide_eq_false_iff_not, not_lt,
      ih hrows fun r hr => hpos r (List.mem_append_left _ hr)]
    constructor
    · rintro ⟨hbefore, hcheck⟩ k t
      by_cases hcase : account row = k ∧ clock row ≤ t
      · obtain ⟨rfl, ht⟩ := hcase
        exact (hall t ht).trans_le (hcheck.trans (hmono _ ht))
      · have hrow : upTo account clock k t row = false := decide_eq_false hcase
        rw [total_append, total_cons, hrow]
        simpa [total] using hbefore k t
    · intro h
      refine ⟨fun k t => ?_, (hall _ le_rfl).symm.trans_le (h _ _)⟩
      refine le_trans ?_ (h k t)
      rw [total_append]
      exact le_add_of_nonneg_right (total_nonneg fun r hr => hpos r (List.mem_append_right _ hr))

end ScalpingBot.Cumulative
