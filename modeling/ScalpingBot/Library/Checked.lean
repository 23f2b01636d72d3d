/-! Computations that stop at the first failing check. -/

namespace ScalpingBot

variable {ε α β : Type}

theorem bind_ok {x : Except ε α} {f : α → Except ε β} {b : β} :
    (x >>= f) = .ok b ↔ ∃ a, x = .ok a ∧ f a = .ok b := by
  cases x with
  | error e => simp [bind, Except.bind]
  | ok a => simp [bind, Except.bind]

/-- Where a computation of two parts stops. -/
theorem bind_error {x : Except ε α} {f : α → Except ε β} {e : ε} :
    (x >>= f) = .error e ↔ x = .error e ∨ ∃ a, x = .ok a ∧ f a = .error e := by
  cases x with
  | error e => simp [bind, Except.bind]
  | ok a => simp [bind, Except.bind]

/-- What has been computed is used in the rest. -/
theorem ok_bind (a : α) (f : α → Except ε β) : (Except.ok a >>= f) = f a := rfl

@[simp] theorem pure_ok {a b : α} : (pure a : Except ε α) = .ok b ↔ a = b := by
  simp [pure, Except.pure]

theorem pure_error {a : α} {e : ε} : (pure a : Except ε α) = .error e ↔ False := by
  simp [pure, Except.pure]

theorem map_ok {x : Except ε α} {f : α → β} {b : β} :
    x.map f = .ok b ↔ ∃ a, x = .ok a ∧ f a = b := by
  cases x with
  | error e => simp [Except.map]
  | ok a => simp [Except.map]

/-- A check that passes, or the reason why it does not. -/
def require (accepted : Prop) [Decidable accepted] (reason : ε) : Except ε Unit :=
  if accepted then .ok () else .error reason

variable {p : Prop} [Decidable p] {reason : ε}

@[simp] theorem require_ok {u : Unit} : require p reason = .ok u ↔ p := by
  rw [require]
  split <;> simp [*]

theorem require_error {e : ε} : require p reason = .error e ↔ ¬ p ∧ reason = e := by
  rw [require]
  split <;> simp [*]

theorem require_eq (h : p) : require p reason = .ok () := if_pos h

/-! ### Reasons that a computation never gives -/

/-- A computation that never stops for one of these reasons. -/
def Avoids (reasons : List ε) (x : Except ε α) : Prop := ∀ reason ∈ reasons, x ≠ .error reason

variable {reasons : List ε} {x : Except ε α}

theorem avoids_ok {a : α} : Avoids reasons (.ok a : Except ε α) := fun _ _ => nofun

theorem avoids_pure {a : α} : Avoids reasons (pure a : Except ε α) := fun _ _ => nofun

theorem avoids_require (h : reason ∉ reasons) : Avoids reasons (require p reason) := by
  intro other hmem hother
  rw [require_error] at hother
  exact h (hother.2 ▸ hmem)

theorem Avoids.bind {f : α → Except ε β} (hx : Avoids reasons x) (hf : ∀ a, Avoids reasons (f a)) :
    Avoids reasons (x >>= f) := by
  intro reason hmem hbind
  rcases bind_error.mp hbind with hstop | ⟨a, -, hstop⟩
  · exact hx reason hmem hstop
  · exact hf a reason hmem hstop

/-- Each element stands beside what was computed from it. -/
theorem mapM_zip {f : α → Except ε β} {l : List α} {bs : List β} (h : l.mapM f = .ok bs) :
    ∀ p ∈ l.zip bs, f p.1 = .ok p.2 := by
  induction l generalizing bs with
  | nil => simp
  | cons a l ih =>
    simp only [List.mapM_cons, bind_ok, pure_ok] at h
    obtain ⟨b, hb, rest, hrest, rfl⟩ := h
    intro p hp
    rcases List.mem_cons.mp hp with rfl | hp
    · exact hb
    · exact ih hrest p hp

end ScalpingBot
