import Mathlib.Data.List.Basic
import Mathlib.Tactic.Common

/-! Functions from lists to lists that read their input in order: the first values of the output are
    those of the first values of the input. Machines that emit one value for each they read are such
    functions, and so is what is put together from them. -/

namespace ScalpingBot.Causal

variable {α β γ σ : Type*}

/-- No value of the output depends on a later value of the input. -/
def IsCausal (f : List α → List β) : Prop := ∀ l n, f (l.take n) = (f l).take n

/-- A machine that emits a value for each value it reads. -/
def transduce (next : σ → α → σ) (out : σ → α → β) : σ → List α → List β
  | _, [] => []
  | s, a :: l => out s a :: transduce next out (next s a) l

section

variable (next : σ → α → σ) (out : σ → α → β)

@[simp] theorem length_transduce (s : σ) (l : List α) :
    (transduce next out s l).length = l.length := by
  induction l generalizing s with
  | nil => rfl
  | cons a l ih => rw [transduce, List.length_cons, List.length_cons, ih]

theorem transduce_append (s : σ) (a b : List α) :
    transduce next out s (a ++ b)
      = transduce next out s a ++ transduce next out (a.foldl next s) b := by
  induction a generalizing s with
  | nil => rfl
  | cons x a ih => rw [List.cons_append, transduce, transduce, ih, List.foldl_cons, List.cons_append]

theorem getElem?_transduce (s : σ) (l : List α) (k : ℕ) :
    (transduce next out s l)[k]? = (l[k]?).map (out ((l.take k).foldl next s)) := by
  induction l generalizing s k with
  | nil => rfl
  | cons a l ih =>
    cases k with
    | zero => rfl
    | succ k => rw [transduce, List.getElem?_cons_succ, ih, List.getElem?_cons_succ,
        List.take_succ_cons, List.foldl_cons]

theorem isCausal_transduce (s : σ) : IsCausal (transduce next out s) := by
  intro l n
  induction l generalizing s n with
  | nil => rw [List.take_nil, transduce, List.take_nil]
  | cons a l ih =>
    cases n with
    | zero => rfl
    | succ n => rw [List.take_succ_cons, transduce, transduce, List.take_succ_cons, ih]

/-- Such a machine, started by the first value it reads. -/
theorem isCausal_started {f : List α → List β} {first : α → β} {start : α → σ} (hnil : f [] = [])
    (hcons : ∀ a l, f (a :: l) = first a :: transduce next out (start a) l) : IsCausal f := by
  intro l n
  cases l with
  | nil => rw [List.take_nil, hnil, List.take_nil]
  | cons a l =>
    cases n with
    | zero => rw [List.take_zero, List.take_zero, hnil]
    | succ n =>
      rw [List.take_succ_cons, hcons, hcons, List.take_succ_cons, isCausal_transduce]

/-- Such a machine, started by the first values it reads: it has no output for those before the last
    of them. -/
theorem isCausal_delayed (next : σ → α → σ) (out : σ → α → Option β) (first : List α → Option β)
    (start : List α → σ) {f : List α → List (Option β)} {k : ℕ}
    (hshort : ∀ l, l.length ≤ k → f l = List.replicate l.length none)
    (hlong : ∀ l, k < l.length → f l = List.replicate k none ++
      first (l.take (k + 1)) :: transduce next out (start (l.take (k + 1))) (l.drop (k + 1))) :
    IsCausal f := by
  intro l n
  by_cases hl : l.length ≤ k
  · have hn : (l.take n).length ≤ k := Nat.le_trans (List.length_take_le' n l) hl
    rw [hshort l hl, hshort _ hn, List.length_take, List.take_replicate]
  · rw [Nat.not_le] at hl
    by_cases hn : n ≤ k
    · rw [hlong l hl, hshort _ (Nat.le_trans (List.length_take_le n l) hn), List.length_take,
        Nat.min_eq_left (by omega), List.take_append_of_le_length (by simpa using hn),
        List.take_replicate, Nat.min_eq_left hn]
    · obtain ⟨m, rfl⟩ := Nat.exists_eq_add_of_le (Nat.succ_le_of_lt (Nat.lt_of_not_le hn))
      have hlen : k < (l.take (k.succ + m)).length := by
        rw [List.length_take]
        omega
      have htake : (l.take (k.succ + m)).take (k + 1) = l.take (k + 1) := by
        rw [List.take_take, Nat.min_eq_left (by omega)]
      have hdrop : (l.take (k.succ + m)).drop (k + 1) = (l.drop (k + 1)).take m := by
        rw [List.drop_take]
        congr 1
        omega
      rw [hlong l hl, hlong _ hlen, htake, hdrop, isCausal_transduce,
        show k.succ + m = k + (m + 1) by omega]
      have hpad : ∀ rest : List (Option β), (List.replicate k none ++ rest).take (k + (m + 1))
          = List.replicate k none ++ rest.take (m + 1) := by
        intro rest
        rw [List.take_append, List.length_replicate, Nat.add_sub_cancel_left,
          List.take_of_length_le (by rw [List.length_replicate]; omega)]
      rw [hpad, List.take_succ_cons]

/-- A first value without an output, then what a machine makes of the rest. -/
theorem isCausal_shifted {f : List α → List β} {b : β} {g : α → List α → List β} (hnil : f [] = [])
    (hcons : ∀ a l, f (a :: l) = b :: g a l) (hg : ∀ a, IsCausal (g a)) : IsCausal f := by
  intro l n
  cases l with
  | nil => rw [List.take_nil, hnil, List.take_nil]
  | cons a l =>
    cases n with
    | zero => rw [List.take_zero, List.take_zero, hnil]
    | succ n => rw [List.take_succ_cons, hcons, hcons, List.take_succ_cons, hg]

end

theorem IsCausal.comp {g : List β → List γ} {f : List α → List β} (hg : IsCausal g)
    (hf : IsCausal f) : IsCausal fun l => g (f l) := by
  intro l n
  change g (f (l.take n)) = (g (f l)).take n
  rw [hf, hg]

theorem IsCausal.zipWith {f : List α → List β} {g : List α → List γ} (op : β → γ → σ)
    (hf : IsCausal f) (hg : IsCausal g) : IsCausal fun l => List.zipWith op (f l) (g l) := by
  intro l n
  change List.zipWith op (f (l.take n)) (g (l.take n)) = (List.zipWith op (f l) (g l)).take n
  rw [hf, hg, List.take_zipWith]

/-- Inputs that agree so far give outputs that agree so far. -/
theorem IsCausal.take_congr {f : List α → List β} (hf : IsCausal f) {s t : List α} {n : ℕ}
    (h : s.take n = t.take n) : (f s).take n = (f t).take n := by
  rw [← hf, ← hf, h]

theorem IsCausal.getElem?_congr {f : List α → List β} (hf : IsCausal f) {s t : List α} {i : ℕ}
    (h : s.take (i + 1) = t.take (i + 1)) : (f s)[i]? = (f t)[i]? := by
  have htake := hf.take_congr h
  have hi : ∀ l : List β, (l.take (i + 1))[i]? = l[i]? := fun l =>
    List.getElem?_take_of_lt (Nat.lt_succ_self i)
  rw [← hi, htake, hi]

end ScalpingBot.Causal
