import Mathlib.Tactic.Common

/-! Programs with a state and exits, their rules of pre- and postconditions, and programs that call an
    environment. The environment answers every call by a value or a failure that may depend on all
    earlier calls and answers; the state records them. -/

namespace ScalpingBot

variable {σ ε ε' α β : Type}

/-- A computation on a state that may exit; the state stays what it is at the exit. -/
abbrev Program (σ ε α : Type) := ExceptT ε (StateM σ) α

namespace Program

/-- The answer of a program started in a state, and the state it ends in. -/
def outcome (m : Program σ ε α) (s : σ) : Except ε α × σ := m.run s

@[simp] theorem outcome_pure (a : α) (s : σ) : outcome (pure a : Program σ ε α) s = (.ok a, s) := rfl

@[simp] theorem outcome_throw (e : ε) (s : σ) :
    outcome (throw e : Program σ ε α) s = (.error e, s) := rfl

theorem outcome_bind (m : Program σ ε α) (f : α → Program σ ε β) (s : σ) :
    outcome (m >>= f) s = match outcome m s with
      | (.ok a, t) => outcome (f a) t
      | (.error e, t) => (.error e, t) := by
  simp only [outcome, ExceptT.run_bind]
  simp only [bind, StateT.bind]
  rcases m.run s with ⟨e | a, t⟩ <;> rfl

theorem outcome_bind_ok {m : Program σ ε α} {f : α → Program σ ε β} {s t : σ} {a : α}
    (h : outcome m s = (.ok a, t)) : outcome (m >>= f) s = outcome (f a) t := by
  rw [outcome_bind, h]

theorem outcome_bind_error {m : Program σ ε α} {f : α → Program σ ε β} {s t : σ} {e : ε}
    (h : outcome m s = (.error e, t)) : outcome (m >>= f) s = (.error e, t) := by
  rw [outcome_bind, h]

/-- Run the handler on the exit of a program. -/
def recover (m : Program σ ε α) (handler : ε → Program σ ε' α) : Program σ ε' α :=
  ExceptT.mk fun s => match outcome m s with
    | (.ok a, t) => (.ok a, t)
    | (.error e, t) => (handler e).run t

theorem outcome_recover (m : Program σ ε α) (handler : ε → Program σ ε' α) (s : σ) :
    outcome (recover m handler) s = match outcome m s with
      | (.ok a, t) => (.ok a, t)
      | (.error e, t) => outcome (handler e) t := rfl

/-! ### Pre- and postconditions -/

/-- From a state with `P`, the program returns with `Q` or exits with `E`. -/
def Triple (P : σ → Prop) (m : Program σ ε α) (Q : α → σ → Prop) (E : ε → σ → Prop) : Prop :=
  ∀ s, P s → match outcome m s with
    | (.ok a, t) => Q a t
    | (.error e, t) => E e t

namespace Triple

variable {P P' : σ → Prop} {m m' : Program σ ε α} {f : α → Program σ ε β} {Q Q' : α → σ → Prop}
  {R : β → σ → Prop} {E E' : ε → σ → Prop} {F : ε' → σ → Prop}

theorem pure {a : α} (h : ∀ s, P s → Q a s) : Triple P (Pure.pure a) Q E := h

theorem exit {e : ε} (h : ∀ s, P s → E e s) : Triple P (throw e) Q E := h

theorem bind (hm : Triple P m Q E) (hf : ∀ a, Triple (Q a) (f a) R E) :
    Triple P (m >>= f) R E := by
  intro s hs
  have h := hm s hs
  rw [outcome_bind]
  generalize outcome m s = r at h ⊢
  rcases r with ⟨e | a, t⟩
  · exact h
  · exact hf a t h

theorem ite {c : Prop} [Decidable c] (hm : c → Triple P m Q E) (hm' : ¬c → Triple P m' Q E) :
    Triple P (if c then m else m') Q E := by
  split
  · next h => exact hm h
  · next h => exact hm' h

theorem recover {handler : ε → Program σ ε' α} (hm : Triple P m Q E)
    (hh : ∀ e, Triple (E e) (handler e) Q F) : Triple P (Program.recover m handler) Q F := by
  intro s hs
  have h := hm s hs
  rw [outcome_recover]
  generalize outcome m s = r at h ⊢
  rcases r with ⟨e | a, t⟩
  · exact hh e t h
  · exact h

theorem mono (h : Triple P m Q E) (hP : ∀ s, P' s → P s) (hQ : ∀ a s, Q a s → Q' a s)
    (hE : ∀ e s, E e s → E' e s) : Triple P' m Q' E' := by
  intro s hs
  have h := h s (hP s hs)
  generalize outcome m s = r at h ⊢
  rcases r with ⟨e | a, t⟩
  · exact hE e t h
  · exact hQ a t h

end Triple

/-! ### Calls of an environment -/

variable {C φ ρ : Type} {R : C → Type}

/-- A call and its answer. -/
structure Called (C : Type) (R : C → Type) (φ : Type) where
  call : C
  answer : Except φ (R call)

/-- Answers a call from all earlier calls and answers. -/
abbrev Environment (C : Type) (R : C → Type) (φ : Type) :=
  List (Called C R φ) → (c : C) → Except φ (R c)

/-- The calls made so far, in their order, and the program's own memory. -/
structure Record (C : Type) (R : C → Type) (φ ρ : Type) where
  trace : List (Called C R φ)
  memory : ρ

/-- The record after one more call. -/
def Record.called (s : Record C R φ ρ) (e : Called C R φ) : Record C R φ ρ :=
  { s with trace := s.trace ++ [e] }

@[simp] theorem Record.called_trace (s : Record C R φ ρ) (e : Called C R φ) :
    (s.called e).trace = s.trace ++ [e] := rfl

@[simp] theorem Record.called_memory (s : Record C R φ ρ) (e : Called C R φ) :
    (s.called e).memory = s.memory := rfl

/-- Call the environment; a failure exits. -/
def perform (env : Environment C R φ) (raise : φ → ε) (c : C) :
    Program (Record C R φ ρ) ε (R c) :=
  ExceptT.mk fun s => match env s.trace c with
    | .ok v => (.ok v, s.called ⟨c, .ok v⟩)
    | .error f => (.error (raise f), s.called ⟨c, .error f⟩)

theorem outcome_perform (env : Environment C R φ) (raise : φ → ε) (c : C) (s : Record C R φ ρ) :
    outcome (perform env raise c) s = match env s.trace c with
      | .ok v => (.ok v, s.called ⟨c, .ok v⟩)
      | .error f => (.error (raise f), s.called ⟨c, .error f⟩) := rfl

theorem Triple.perform {env : Environment C R φ} {raise : φ → ε} {c : C}
    {P : Record C R φ ρ → Prop} {Q : R c → Record C R φ ρ → Prop} {E : ε → Record C R φ ρ → Prop}
    (hQ : ∀ s v, P s → Q v (s.called ⟨c, .ok v⟩))
    (hE : ∀ s f, P s → E (raise f) (s.called ⟨c, .error f⟩)) :
    Triple P (perform env raise c) Q E := by
  intro s hs
  rw [outcome_perform]
  cases env s.trace c with
  | ok v => exact hQ s v hs
  | error f => exact hE s f hs

/-- Change the program's own memory. -/
def remember (g : ρ → ρ) : Program (Record C R φ ρ) ε Unit :=
  ExceptT.mk fun s => (.ok (), { s with memory := g s.memory })

theorem Triple.remember {g : ρ → ρ} {P : Record C R φ ρ → Prop} {Q : Unit → Record C R φ ρ → Prop}
    {E : ε → Record C R φ ρ → Prop} (h : ∀ s, P s → Q () { s with memory := g s.memory }) :
    Triple P (remember g) Q E := h

/-- Read the program's own memory. -/
def recollect : Program (Record C R φ ρ) ε ρ := ExceptT.mk fun s => (.ok s.memory, s)

theorem Triple.recollect {P : Record C R φ ρ → Prop} {Q : ρ → Record C R φ ρ → Prop}
    {E : ε → Record C R φ ρ → Prop} (h : ∀ s, P s → Q s.memory s) : Triple P recollect Q E := h

end Program

end ScalpingBot
