import Mathlib.Data.List.Basic
import Mathlib.Tactic.Common

/-! Imperative code that can throw: what was written before the throw stays written. An attempt
    gives the state it leaves, and either its output or the reason it threw; a loop is one attempt
    after the other, up to the first that throws. -/

namespace ScalpingBot

/-- What a piece of code does to the state, with its output or the reason why it threw. -/
abbrev Attempt (σ β : Type) := σ → σ × Except String (List β)

namespace Attempt

variable {σ β ι : Type}

/-- Nothing is done. -/
def skip : Attempt σ β := fun s => (s, .ok [])

/-- The second piece runs where the first left the state, unless the first threw. -/
def andThen (f g : Attempt σ β) : Attempt σ β := fun s =>
  match (f s).2 with
  | .error e => ((f s).1, .error e)
  | .ok out => ((g (f s).1).1, (g (f s).1).2.map (out ++ ·))

/-- A loop: a round for each index. -/
def loop (f : ι → Attempt σ β) : List ι → Attempt σ β
  | [] => skip
  | i :: is => (f i).andThen (loop f is)

/-- Whether it throws or not, the piece of code does not leave `I`. -/
def Keeps (I : σ → Prop) (f : Attempt σ β) : Prop := ∀ s, I s → I (f s).1

variable {I : σ → Prop} {f g : Attempt σ β}

theorem Keeps.skip : Keeps I (skip : Attempt σ β) := fun _ hs => hs

/-- What the first piece leads to holds if it throws, and is where the second one starts. -/
theorem andThen_leads {J K : σ → Prop} (hweak : ∀ s, K s → J s) (hf : ∀ s, I s → K (f s).1)
    (hg : ∀ s, K s → J (g s).1) : ∀ s, I s → J (f.andThen g s).1 := by
  intro s hs
  have hmid := hf s hs
  rw [Attempt.andThen]
  split
  · exact hweak _ hmid
  · exact hg _ hmid

theorem Keeps.andThen (hf : Keeps I f) (hg : Keeps I g) : Keeps I (f.andThen g) :=
  andThen_leads (fun _ hs => hs) hf hg

theorem Keeps.loop {f : ι → Attempt σ β} {is : List ι} (h : ∀ i ∈ is, Keeps I (f i)) :
    Keeps I (loop f is) := by
  induction is with
  | nil => exact Keeps.skip
  | cons i is ih =>
    exact (h i List.mem_cons_self).andThen (ih fun j hj => h j (List.mem_cons_of_mem i hj))

/-- A round that throws is the last one. -/
theorem loop_cons_error {f : ι → Attempt σ β} {i : ι} {is : List ι} {s t : σ} {e : String}
    (h : f i s = (t, .error e)) : (loop f (i :: is) s).1 = t := by
  simp only [loop, andThen, h]

theorem loop_cons_ok {f : ι → Attempt σ β} {i : ι} {is : List ι} {s t : σ} {out : List β}
    (h : f i s = (t, .ok out)) : (loop f (i :: is) s).1 = (loop f is t).1 := by
  simp only [loop, andThen, h]

/-- A piece without output is followed by the other one alone. -/
theorem andThen_silent {s t : σ} (h : f s = (t, .ok [])) : f.andThen g s = g t := by
  simp only [Attempt.andThen, h, List.nil_append]
  rcases g t with ⟨u, e | out⟩ <;> rfl

theorem isOk_left {s : σ} (h : (f.andThen g s).2.isOk = true) : (f s).2.isOk = true := by
  rw [Attempt.andThen] at h
  split at h
  · cases h
  · rename_i hout
    rw [hout]
    rfl

/-- Two runs of the same code that stay related throw together or not at all. -/
def Relates (E : σ → σ → Prop) (f : Attempt σ β) : Prop :=
  ∀ s t, E s t → E (f s).1 (f t).1 ∧ (f s).2 = (f t).2

theorem Relates.andThen {E : σ → σ → Prop} (hf : Relates E f) (hg : Relates E g) :
    Relates E (f.andThen g) := by
  intro s t h
  obtain ⟨hstate, hout⟩ := hf s t h
  simp only [Attempt.andThen, ← hout]
  split
  · exact ⟨hstate, rfl⟩
  · obtain ⟨hstate, hout⟩ := hg _ _ hstate
    exact ⟨hstate, congrArg (Except.map _) hout⟩

/-- The rule of a loop whose invariant speaks of the rounds that are still to come. -/
theorem loop_rule {f : ι → Attempt σ β} {I : List ι → σ → Prop} {J : σ → Prop}
    (hend : ∀ is s, I is s → J s) (hround : ∀ i is s, I (i :: is) s → I is (f i s).1) :
    ∀ is s, I is s → J (loop f is s).1 := by
  intro is
  induction is with
  | nil => exact hend []
  | cons i is ih =>
    intro s hs
    have hnext := hround i is s hs
    rcases h : f i s with ⟨t, e | out⟩ <;> rw [h] at hnext
    · rw [loop_cons_error h]
      exact hend is t hnext
    · rw [loop_cons_ok h]
      exact ih t hnext

end Attempt

end ScalpingBot
