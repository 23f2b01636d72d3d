import Mathlib.Data.List.Induction
import Mathlib.Tactic.Common

/-! Traces in which every event is allowed by what came before it, and the latest event of a kind. -/

namespace ScalpingBot

variable {ε κ : Type*}

/-- Every event obeys the rule, which sees what came before it. -/
def Lawful (rule : List ε → ε → Prop) (trace : List ε) : Prop :=
  ∀ before e after, trace = before ++ e :: after → rule before e

namespace Lawful

variable {rule rule' : List ε → ε → Prop} {trace : List ε} {e : ε}

theorem nil : Lawful rule [] := by
  intro before e after h
  simp at h

theorem snoc (h : Lawful rule trace) (he : rule trace e) : Lawful rule (trace ++ [e]) := by
  intro before e' after htrace
  rcases List.eq_nil_or_concat after with rfl | ⟨after, last, rfl⟩
  · obtain ⟨rfl, hlast⟩ := List.append_inj' htrace rfl
    simp only [List.cons.injEq, and_true] at hlast
    exact hlast ▸ he
  · refine h before e' after ?_
    have hsame : trace ++ [e] = (before ++ e' :: after) ++ [last] := by simpa using htrace
    exact (List.append_inj' hsame rfl).1

end Lawful

/-- The latest event of its kind in a trace. -/
def Latest (kind : ε → κ) (trace : List ε) (e : ε) : Prop :=
  ∃ before after, trace = before ++ e :: after ∧ ∀ e' ∈ after, kind e' ≠ kind e

namespace Latest

variable {kind : ε → κ} {trace : List ε} {e e' : ε}

theorem last : Latest kind (trace ++ [e]) e := ⟨trace, [], rfl, by simp⟩

theorem snoc (h : Latest kind trace e) (he : kind e' ≠ kind e) : Latest kind (trace ++ [e']) e := by
  obtain ⟨before, after, rfl, hafter⟩ := h
  refine ⟨before, after ++ [e'], by simp, ?_⟩
  intro e'' hmem
  rcases List.mem_append.mp hmem with hmem | hmem
  · exact hafter e'' hmem
  · rwa [List.mem_singleton.mp hmem]

theorem mem (h : Latest kind trace e) : e ∈ trace := by
  obtain ⟨before, after, rfl, -⟩ := h
  simp

/-- There is no more than one of a kind. -/
theorem unique (h : Latest kind trace e) (h' : Latest kind trace e') (hkind : kind e = kind e') :
    e = e' := by
  induction trace using List.reverseRecOn with
  | nil => exact absurd h.mem List.not_mem_nil
  | append_singleton trace last ih =>
    have hcases : ∀ {e}, Latest kind (trace ++ [last]) e →
        e = last ∨ kind last ≠ kind e ∧ Latest kind trace e := by
      rintro e ⟨before, after, htrace, hafter⟩
      rcases List.eq_nil_or_concat after with rfl | ⟨after, last', rfl⟩
      · left
        obtain ⟨-, hlast⟩ := List.append_inj' htrace rfl
        simpa using hlast.symm
      · right
        have hsame : trace ++ [last] = (before ++ e :: after) ++ [last'] := by simpa using htrace
        obtain ⟨rfl, hlast⟩ := List.append_inj' hsame rfl
        obtain rfl : last = last' := by simpa using hlast
        exact ⟨hafter last (by simp), before, after, rfl, fun x hx => hafter x (by simp [hx])⟩
    rcases hcases h with rfl | ⟨hne, h⟩ <;> rcases hcases h' with rfl | ⟨hne', h'⟩
    · rfl
    · exact absurd hkind hne'
    · exact absurd hkind.symm hne
    · exact ih h h'

end Latest

/-- An event since the latest one of a kind. -/
def Since (kind : ε → κ) (trace : List ε) (e e' : ε) : Prop :=
  ∃ before after, trace = before ++ e :: after ∧ (∀ x ∈ after, kind x ≠ kind e) ∧ e' ∈ after

namespace Since

variable {kind : ε → κ} {trace : List ε} {e e' x : ε}

theorem last (h : Latest kind trace e) (he : kind e' ≠ kind e) :
    Since kind (trace ++ [e']) e e' := by
  obtain ⟨before, after, rfl, hafter⟩ := h
  refine ⟨before, after ++ [e'], by simp, ?_, by simp⟩
  intro x hx
  rcases List.mem_append.mp hx with hx | hx
  · exact hafter x hx
  · rwa [List.mem_singleton.mp hx]

theorem snoc (h : Since kind trace e e') (hx : kind x ≠ kind e) :
    Since kind (trace ++ [x]) e e' := by
  obtain ⟨before, after, rfl, hafter, hmem⟩ := h
  refine ⟨before, after ++ [x], by simp, ?_, by simp [hmem]⟩
  intro y hy
  rcases List.mem_append.mp hy with hy | hy
  · exact hafter y hy
  · rwa [List.mem_singleton.mp hy]

end Since

end ScalpingBot
