import Mathlib.Data.Int.Order.Basic
import Mathlib.Data.List.Perm.Basic

/-! The least and the largest element of a list do not depend on the order of its elements. -/

namespace ScalpingBot.Extremes

variable {l l' : List ℤ}

theorem min?_perm (h : l.Perm l') : l.min? = l'.min? := by
  cases hmin : l'.min? with
  | none =>
    rw [List.min?_eq_none_iff] at hmin ⊢
    exact List.Perm.eq_nil (hmin ▸ h)
  | some a =>
    rw [List.min?_eq_some_iff] at hmin ⊢
    exact ⟨h.mem_iff.mpr hmin.1, fun b hb => hmin.2 b (h.mem_iff.mp hb)⟩

theorem max?_perm (h : l.Perm l') : l.max? = l'.max? := by
  cases hmax : l'.max? with
  | none =>
    rw [List.max?_eq_none_iff] at hmax ⊢
    exact List.Perm.eq_nil (hmax ▸ h)
  | some a =>
    rw [List.max?_eq_some_iff] at hmax ⊢
    exact ⟨h.mem_iff.mpr hmax.1, fun b hb => hmax.2 b (h.mem_iff.mp hb)⟩

end ScalpingBot.Extremes
