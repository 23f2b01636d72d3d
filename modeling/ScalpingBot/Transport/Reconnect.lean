import ScalpingBot.Transport.Step

/-! Once connected, the transport has to come back after every loss of its socket. `#closed` arms a
    timer that captures the current generation and ignores itself when another generation is
    current at the time it fires, so what matters is that no later change of the generation leaves
    that timer armed. `#closed` itself changes the generation without replacing an armed timer: the
    failure continuation of a reconnect is the one place that calls it with a timer armed. -/

namespace ScalpingBot.Transport

namespace Connection

variable {c : Connection} {k : ℕ}

/-- The transport holds an open socket, or a closing one whose close event is still to come. -/
def HasSocket (c : Connection) : Prop :=
  ∃ k, c.socket = some k ∧
    ((c.sockets k).readyState = .open ∨ (c.sockets k).readyState = .closing)

/-- A connection attempt for the current generation is in progress. -/
def Connecting (c : Connection) : Prop :=
  ∃ a ∈ c.attempts, c.current a.socket a.generation

/-- The reconnect timer is armed and will start an attempt when it fires. -/
def Armed (c : Connection) : Prop := c.reconnectTimer = some c.generation

/-- Connected once and not closed since: without a socket, an attempt is in progress or coming. -/
def Recovering (c : Connection) : Prop :=
  c.established → c.explicitClose = false → ¬ c.HasSocket → c.Connecting ∨ c.Armed

/-- What holds of the connection whatever the ready state of its socket. -/
structure Core (c : Connection) : Prop where
  timer_socket : c.socket ≠ none → c.reconnectTimer = none
  attempt_generation : ∀ a ∈ c.attempts,
    (c.sockets a.socket).generation = a.generation ∧ a.socket < c.nextSocket
  opening_current : ∀ a ∈ c.attempts, a.inner = none → c.socket = some a.socket ∧
    a.generation = c.generation ∧ c.cancelConnect = some a.socket ∧
    c.connectPromise = some a.socket
  promise_attempt : ∀ k, c.connectPromise = some k → ∃ a ∈ c.attempts, a.socket = k
  attempt_unique : ∀ a ∈ c.attempts, ∀ b ∈ c.attempts, a.socket = b.socket → a = b
  reconnects_own : ∀ a ∈ c.attempts, a.reconnects = [] ∨ a.reconnects = [a.generation]
  closed_established : c.explicitClose = true → c.established = false

/-- The invariant of the connection lifecycle. -/
structure Inv (c : Connection) : Prop extends Core c where
  socket_live : ∀ k, c.socket = some k → (c.sockets k).generation = c.generation ∧
    (c.sockets k).readyState ≠ .closed ∧ k < c.nextSocket
  socket_attempt : ∀ k, c.socket = some k → (c.sockets k).readyState = .connecting →
    ∃ a ∈ c.attempts, a.socket = k
  armed : c.established = true → c.socket = none → c.Armed

theorem inv_initial : Inv initial where
  timer_socket := by simp [initial]
  attempt_generation := by simp [initial]
  opening_current := by simp [initial]
  promise_attempt := by simp [initial]
  attempt_unique := by simp [initial]
  reconnects_own := by simp [initial]
  closed_established := by simp [initial]
  socket_live := by simp [initial]
  socket_attempt := by simp [initial]
  armed := by simp [initial]

theorem Inv.recovering (h : Inv c) : c.Recovering := by
  intro hest _ hsock
  cases hs : c.socket with
  | none => exact Or.inr (h.armed hest hs)
  | some k =>
    left
    obtain ⟨hgen, hclosed, _⟩ := h.socket_live k hs
    have hready : (c.sockets k).readyState = .connecting := by
      cases hr : (c.sockets k).readyState with
      | connecting => rfl
      | «open» => exact absurd ⟨k, hs, Or.inl hr⟩ hsock
      | closing => exact absurd ⟨k, hs, Or.inr hr⟩ hsock
      | closed => exact absurd hr hclosed
    obtain ⟨a, ha, rfl⟩ := h.socket_attempt k hs hready
    exact ⟨a, ha, by simp [current, hs, ← (h.attempt_generation a ha).1, hgen]⟩

/-! ### Settling an attempt's inner promise -/

theorem mem_finish {ok : Bool} {b : Attempt} (hb : b ∈ (c.finish k ok).attempts) :
    ∃ a ∈ c.attempts, b.socket = a.socket ∧ b.generation = a.generation ∧
      b.reconnects = a.reconnects ∧ (b.inner = none → b = a ∧ a.socket ≠ k) := by
  simp only [finish, List.mem_map] at hb
  obtain ⟨a, ha, rfl⟩ := hb
  refine ⟨a, ha, ?_⟩
  split
  · exact ⟨rfl, rfl, rfl, fun hn => by cases hn⟩
  · next hno => exact ⟨rfl, rfl, rfl, fun hn => ⟨rfl, fun hk => hno ⟨hk, hn⟩⟩⟩

theorem exists_finish {ok : Bool} (h : ∃ a ∈ c.attempts, a.socket = k) (j : ℕ) :
    ∃ a ∈ (c.finish j ok).attempts, a.socket = k := by
  obtain ⟨a, ha, rfl⟩ := h
  refine ⟨_, List.mem_map_of_mem ha, ?_⟩
  split <;> rfl

theorem unique_finish {ok : Bool} (h : ∀ a ∈ c.attempts, ∀ b ∈ c.attempts, a.socket = b.socket → a = b)
    (k : ℕ) : ∀ a ∈ (c.finish k ok).attempts, ∀ b ∈ (c.finish k ok).attempts,
      a.socket = b.socket → a = b := by
  simp only [Connection.finish, List.mem_map]
  rintro _ ⟨a, ha, rfl⟩ _ ⟨b, hb, rfl⟩ hab
  have hs : a.socket = b.socket := by
    revert hab; split <;> split <;> exact id
  rw [h a ha b hb hs]

theorem Core.finish (h : Core c) (k : ℕ) (ok : Bool) : Core (c.finish k ok) where
  timer_socket := h.timer_socket
  attempt_generation b hb := by
    obtain ⟨a, ha, hs, hg, _⟩ := mem_finish hb
    rw [hs, hg]; exact h.attempt_generation a ha
  opening_current b hb hin := by
    obtain ⟨a, ha, _, _, _, hnone⟩ := mem_finish hb
    obtain ⟨rfl, hk⟩ := hnone hin
    obtain ⟨h1, h2, h3, h4⟩ := h.opening_current b ha hin
    refine ⟨h1, h2, ?_, h4⟩
    simp [Connection.finish, h3, hk]
  promise_attempt j hj := exists_finish (h.promise_attempt j hj) k
  attempt_unique := unique_finish h.attempt_unique k
  reconnects_own b hb := by
    obtain ⟨a, ha, _, hg, hr, _⟩ := mem_finish hb
    rw [hr, hg]; exact h.reconnects_own a ha
  closed_established := h.closed_established

theorem Inv.finish (h : Inv c) (k : ℕ) (ok : Bool) : Inv (c.finish k ok) where
  toCore := h.toCore.finish k ok
  socket_live := h.socket_live
  socket_attempt j hj hr := exists_finish (h.socket_attempt j hj hr) k
  armed := h.armed

/-! ### Ready states -/

theorem Core.setReadyState (h : Core c) (k : ℕ) (r : ReadyState) : Core (c.setReadyState k r) where
  timer_socket := h.timer_socket
  attempt_generation a ha := by
    rw [setReadyState_generation]; exact h.attempt_generation a ha
  opening_current := h.opening_current
  promise_attempt := h.promise_attempt
  attempt_unique := h.attempt_unique
  reconnects_own := h.reconnects_own
  closed_established := h.closed_established

theorem Inv.setReadyState (h : Inv c) {r : ReadyState} (hc : r ≠ .connecting)
    (hk : r = .closed → c.socket ≠ some k) : Inv (c.setReadyState k r) where
  toCore := h.toCore.setReadyState k r
  socket_live j hj := by
    rw [setReadyState_generation]
    obtain ⟨h1, h2, h3⟩ := h.socket_live j hj
    refine ⟨h1, ?_, h3⟩
    by_cases hjk : j = k
    · subst hjk
      rw [setReadyState_self]
      exact fun hr => hk hr hj
    · rwa [setReadyState_of_ne hjk]
  socket_attempt j hj hr := by
    by_cases hjk : j = k
    · subst hjk
      rw [setReadyState_self] at hr
      exact absurd hr hc
    · rw [setReadyState_of_ne hjk] at hr
      exact h.socket_attempt j hj hr
  armed := h.armed

theorem Inv.terminate (h : Inv c) (k : ℕ) : Inv (c.terminate k) := by
  unfold Connection.terminate
  split
  · exact h
  · exact h.setReadyState (by simp) (by simp)

theorem Core.terminate (h : Core c) (k : ℕ) : Core (c.terminate k) := by
  unfold Connection.terminate
  split
  · exact h
  · exact h.setReadyState k .closing

/-! ### Losing the socket -/

theorem mem_cancel {b : Attempt} (hb : b ∈ c.cancel.attempts) :
    ∃ a ∈ c.attempts, b.socket = a.socket ∧ b.generation = a.generation ∧
      b.reconnects = a.reconnects ∧
      (b.inner = none → b = a ∧ c.cancelConnect ≠ some a.socket) := by
  unfold cancel at hb
  split at hb
  · next k hk =>
    obtain ⟨a, ha, hs, hg, hr, hn⟩ := mem_finish hb
    exact ⟨a, ha, hs, hg, hr, fun hb' => ⟨(hn hb').1, by
      rw [hk]; exact fun he => (hn hb').2 (Option.some.inj he).symm⟩⟩
  · next hk => exact ⟨b, hb, rfl, rfl, rfl, fun _ => ⟨rfl, by simp [hk]⟩⟩

theorem exists_cancel (h : ∃ a ∈ c.attempts, a.socket = k) :
    ∃ a ∈ c.cancel.attempts, a.socket = k := by
  unfold cancel
  split
  · exact exists_finish h _
  · exact h

/-- After `#cancelConnect` no attempt is left opening. -/
theorem Core.no_opening (h : Core c) {b : Attempt} (hb : b ∈ c.cancel.attempts) :
    b.inner ≠ none := by
  intro hin
  obtain ⟨a, ha, _, _, _, hn⟩ := mem_cancel hb
  obtain ⟨rfl, hne⟩ := hn hin
  exact hne (h.opening_current b ha hin).2.2.1

/-- A connection that has dropped its socket and cancelled its attempt keeps `Core`, whatever
    generation and timer it ends with. -/
theorem Core.dropped (h : Core c) {d : Connection} (hsock : d.socket = none)
    (hatt : d.attempts = c.cancel.attempts) (hsockets : d.sockets = c.sockets)
    (hnext : d.nextSocket = c.nextSocket)
    (hprom : d.connectPromise = c.connectPromise ∨ d.connectPromise = none)
    (hclosed : d.explicitClose = true → d.established = false) : Core d where
  timer_socket hs := absurd hsock hs
  attempt_generation b hb := by
    rw [hatt] at hb
    obtain ⟨a, ha, hs, hg, _⟩ := mem_cancel hb
    rw [hs, hg, hsockets, hnext]; exact h.attempt_generation a ha
  opening_current b hb hin := absurd hin (h.no_opening (hatt ▸ hb))
  promise_attempt j hj := by
    rw [hatt]
    rcases hprom with hp | hp
    · exact exists_cancel (h.promise_attempt j (hp ▸ hj))
    · simp [hp] at hj
  attempt_unique := by
    rw [hatt]
    unfold cancel
    split
    · exact unique_finish h.attempt_unique _
    · exact h.attempt_unique
  reconnects_own b hb := by
    rw [hatt] at hb
    obtain ⟨a, ha, _, hg, hr, _⟩ := mem_cancel hb
    rw [hr, hg]; exact h.reconnects_own a ha
  closed_established := hclosed

theorem Core.toInv (h : Core c) (hsock : c.socket = none) (harm : c.established = true → c.Armed) :
    Inv c where
  toCore := h
  socket_live k hk := by simp [hsock] at hk
  socket_attempt k hk := by simp [hsock] at hk
  armed he _ := harm he

theorem Core.closed (h : Core c) : Core c.closed := by
  refine h.dropped closed_socket ?_ ?_ ?_ (Or.inl ?_) (by simpa using h.closed_established) <;>
  · unfold Connection.closed
    simp only [cancel_withGeneration]
    split <;> simp

/-- `#closed` with no timer armed leaves a timer of the new generation behind. -/
theorem Core.closed_inv (h : Core c) (ht : c.established = true → c.reconnectTimer = none) :
    Inv c.closed := by
  refine h.closed.toInv closed_socket fun he => ?_
  rw [closed_established_eq] at he
  have hx : c.explicitClose = false := by
    cases hx : c.explicitClose with
    | false => rfl
    | true => simp [h.closed_established hx] at he
  simp [Armed, closed_reconnectTimer, ht he, hx]

theorem cancel_close (g : ℕ) :
    ({ c with explicitClose := true, generation := g } : Connection).cancel =
      { c.cancel with explicitClose := true, generation := g } := by
  unfold cancel; split <;> simp_all [finish, opening]

theorem Core.close_inv (h : Core c) : Inv c.close := by
  unfold Connection.close
  simp only [cancel_close]
  have hcore : Core { c.cancel with
      explicitClose := true, generation := c.generation + 1, connectPromise := none,
      reconnectTimer := none, socket := none, established := false } :=
    h.dropped rfl rfl (by simp) (by simp) (Or.inr rfl) fun _ => rfl
  split
  · exact hcore.toInv rfl (by simp)
  · exact (hcore.toInv rfl (by simp)).terminate _

/-! ### Starting an attempt -/

/-- A new attempt is in progress whatever became of the timer. -/
theorem Core.connect_new (h : Core c) {rs : List ℕ} (hconn : c.connected = false)
    (hp : c.connectPromise = none) (hrs : rs = [] ∨ rs = [c.generation + 1]) :
    Inv (c.connect rs) := by
  unfold Connection.connect
  simp only [hconn, hp, Bool.false_eq_true, if_false]
  have hfresh : ∀ a ∈ c.attempts, a.socket ≠ c.nextSocket :=
    fun a ha => Nat.ne_of_lt (h.attempt_generation a ha).2
  refine
    { timer_socket := fun _ => rfl
      attempt_generation := ?_
      opening_current := ?_
      promise_attempt := fun k hk => ⟨_, List.mem_cons_self .., Option.some.inj hk⟩
      attempt_unique := ?_
      reconnects_own := ?_
      closed_established := fun hx => by simp at hx
      socket_live := ?_
      socket_attempt := fun k hk _ => ⟨_, List.mem_cons_self .., Option.some.inj hk⟩
      armed := fun _ hs => by simp at hs }
  · intro a ha
    rcases List.mem_cons.mp ha with rfl | ha
    · simp
    · dsimp only
      rw [Function.update_of_ne (hfresh a ha)]
      exact ⟨(h.attempt_generation a ha).1, Nat.lt_succ_of_lt (h.attempt_generation a ha).2⟩
  · intro a ha hin
    rcases List.mem_cons.mp ha with rfl | ha
    · exact ⟨rfl, rfl, rfl, rfl⟩
    · -- an attempt that is still opening would own the shared promise
      have hown := (h.opening_current a ha hin).2.2.2
      rw [hp] at hown
      cases hown
  · intro a ha b hb hab
    rcases List.mem_cons.mp ha with rfl | ha <;> rcases List.mem_cons.mp hb with rfl | hb
    · rfl
    · exact absurd hab.symm (hfresh b hb)
    · exact absurd hab (hfresh a ha)
    · exact h.attempt_unique a ha b hb hab
  · intro a ha
    rcases List.mem_cons.mp ha with rfl | ha
    · exact hrs
    · exact h.reconnects_own a ha
  · intro k hk
    obtain rfl := Option.some.inj hk
    simp

theorem Inv.connect (h : Inv c) : Inv (c.connect []) := by
  by_cases hconn : c.connected = true
  · rw [Connection.connect, if_pos hconn]; exact h
  · cases hp : c.connectPromise with
    | none => exact h.toCore.connect_new (by simpa using hconn) hp (Or.inl rfl)
    | some k =>
      -- the caller joins the attempt in progress and chains nothing on it
      have hjoin (k : ℕ) : (c.attempts.map fun a : Attempt =>
          if a.socket = k then { a with reconnects := a.reconnects ++ [] } else a) = c.attempts := by
        refine (List.map_congr_left fun a _ => ?_).trans (List.map_id _)
        split <;> simp
      have hsame : c.connect [] = c := by
        unfold Connection.connect
        rw [if_neg hconn]
        split
        · rw [hjoin]
        · next hnone => simp [hp] at hnone
      rw [hsame]; exact h

/-! ### The continuations of a settled attempt -/

theorem Core.attemptDone (h : Core c) (a : Attempt) : Core (c.attemptDone a) where
  timer_socket := h.timer_socket
  attempt_generation b hb := h.attempt_generation b (List.mem_of_mem_filter hb)
  opening_current b hb hin := by
    obtain ⟨hmem, hne⟩ := List.mem_filter.mp hb
    obtain ⟨h1, h2, h3, h4⟩ := h.opening_current b hmem hin
    refine ⟨h1, h2, h3, ?_⟩
    simp only [Connection.attemptDone, h4, Option.some.injEq]
    rw [if_neg (by simpa using hne)]
  promise_attempt j hj := by
    simp only [Connection.attemptDone] at hj
    split at hj
    · cases hj
    · next hne =>
      obtain ⟨b, hb, rfl⟩ := h.promise_attempt j hj
      have hba : b.socket ≠ a.socket := fun he => hne (he ▸ hj)
      exact ⟨b, List.mem_filter.mpr ⟨hb, by simpa using hba⟩, rfl⟩
  attempt_unique b hb d hd :=
    h.attempt_unique b (List.mem_of_mem_filter hb) d (List.mem_of_mem_filter hd)
  reconnects_own b hb := h.reconnects_own b (List.mem_of_mem_filter hb)
  closed_established := h.closed_established

theorem Inv.attemptDone (h : Inv c) (a : Attempt)
    (ha : c.socket = some a.socket → (c.sockets a.socket).readyState ≠ .connecting) :
    Inv (c.attemptDone a) where
  toCore := h.toCore.attemptDone a
  socket_live := h.socket_live
  socket_attempt k hk hr := by
    obtain ⟨b, hb, rfl⟩ := h.socket_attempt k hk hr
    have hba : b.socket ≠ a.socket := fun he => ha (he ▸ hk) (he ▸ hr)
    exact ⟨b, List.mem_filter.mpr ⟨hb, by simpa using hba⟩, rfl⟩
  armed := h.armed

theorem Inv.withHandlers (h : Inv c) (gs : List ℕ) : Inv { c with reconnectHandlers := gs } where
  timer_socket := h.timer_socket
  attempt_generation := h.attempt_generation
  opening_current := h.opening_current
  promise_attempt := h.promise_attempt
  attempt_unique := h.attempt_unique
  reconnects_own := h.reconnects_own
  closed_established := h.closed_established
  socket_live := h.socket_live
  socket_attempt := h.socket_attempt
  armed := h.armed

theorem Inv.established (h : Inv c) (hsock : c.socket ≠ none) (hx : c.explicitClose = false) :
    Inv { c with established := true } where
  timer_socket := h.timer_socket
  attempt_generation := h.attempt_generation
  opening_current := h.opening_current
  promise_attempt := h.promise_attempt
  attempt_unique := h.attempt_unique
  reconnects_own := h.reconnects_own
  closed_established hc := by simp [hx] at hc
  socket_live := h.socket_live
  socket_attempt := h.socket_attempt
  armed _ hs := absurd hs hsock

theorem Inv.reconnectsSucceeded (h : Inv c) (gs : List ℕ) :
    Inv (gs.foldl Connection.reconnectSucceeded c) := by
  induction gs generalizing c with
  | nil => exact h
  | cons g gs ih =>
    rw [List.foldl_cons]
    refine ih ?_
    unfold Connection.reconnectSucceeded
    split
    · exact h.withHandlers _
    · exact h

/-- The failure continuation of a reconnect is about to call `#closed` with a timer armed. -/
def Strands (c : Connection) (attemptGeneration : ℕ) : Prop :=
  c.established = true ∧ c.generation ≤ attemptGeneration + 1 ∧ c.socket = none ∧
    c.reconnectTimer.isSome

theorem Inv.reconnectFailed (h : Inv c) {g : ℕ} (hg : ¬ c.Strands g) :
    Inv (c.reconnectFailed g).1 := by
  unfold Connection.reconnectFailed
  split
  · exact h
  · next hno =>
    split
    · split
      · exact h.terminate _
      · exact h
    · next hs =>
      refine h.toCore.closed_inv fun he => ?_
      by_contra ht
      exact hg ⟨he, by omega, hs, Option.isSome_iff_ne_none.mpr ht⟩

/-- A reconnect that fails while its own loss of the socket is the last one arms a new timer. -/
theorem Core.reconnectFailed_none (h : Core c) {g : ℕ} (hs : c.socket = none)
    (ht : c.reconnectTimer = none) (hg : c.generation ≤ g + 1) : Inv (c.reconnectFailed g).1 := by
  unfold Connection.reconnectFailed
  split
  · next hstop =>
    refine h.toInv hs fun he => ?_
    rcases hstop with hx | hlt
    · simp [h.closed_established hx] at he
    · omega
  · simp only [hs]
    exact h.closed_inv fun _ => ht

/-- Giving up the current socket: no timer is armed, for none is while there is a socket. -/
theorem Core.openFailed (h : Core c) {a : Attempt} (ha : a ∈ c.attempts) (hin : a.inner ≠ none)
    (hcur : c.current a.socket a.generation = true) :
    Core { c with socket := none, generation := c.generation + 1 } where
  timer_socket hs := absurd rfl hs
  attempt_generation := h.attempt_generation
  opening_current b hb hb' := by
    -- an opening attempt would be the one on the current socket, which is settled
    have hsock := (h.opening_current b hb hb').1
    rw [(current_iff.mp hcur).1] at hsock
    exact absurd (h.attempt_unique a ha b hb (Option.some.inj hsock) ▸ hb') hin
  promise_attempt := h.promise_attempt
  attempt_unique := h.attempt_unique
  reconnects_own := h.reconnects_own
  closed_established := h.closed_established

/-- A caller's own `connect()` fails after the transport had been connected: the timer was dropped
    when the attempt began, and no continuation of a reconnect is there to arm it again. -/
def Abandons (c : Connection) (a : Attempt) (ok : Bool) : Prop :=
  c.established = true ∧ c.current a.socket a.generation = true ∧
    (ok = false ∨ c.connected = false) ∧ a.reconnects = []

theorem Inv.not_current (h : Inv c) {a : Attempt} (ha : a ∈ c.attempts)
    (hcur : ¬ c.current a.socket a.generation = true) : c.socket ≠ some a.socket := fun hs =>
  hcur (current_iff.mpr ⟨hs, (h.socket_live _ hs).1.symm.trans (h.attempt_generation a ha).1⟩)

theorem Inv.settle (h : Inv c) {a : Attempt} {ok : Bool} (ha : a ∈ c.attempts)
    (hin : a.inner = some ok) (hcaller : ¬ c.Abandons a ok)
    (hreconnect : ¬ c.current a.socket a.generation → ∀ g ∈ a.reconnects, ¬ c.Strands g) :
    Inv (c.settle a ok).1 := by
  have hsettled : a.inner ≠ none := by simp [hin]
  unfold Connection.settle
  split
  · next hok =>
    obtain ⟨-, hcur, hx, hconn⟩ := hok
    have hs := (current_iff.mp hcur).1
    have hopen : (c.sockets a.socket).readyState = .open := by simpa [connected, hs] using hconn
    have hdone := h.attemptDone a fun _ => by simp [hopen]
    exact (hdone.established (by simp [hs])
      (Bool.not_eq_true _ ▸ hx)).reconnectsSucceeded _
  · next hno =>
    simp only [Connection.openFailed]
    by_cases hcur : c.current a.socket a.generation = true
    · simp only [hcur, if_true]
      have ht : c.reconnectTimer = none := h.timer_socket (by simp [(current_iff.mp hcur).1])
      have hcore := ((h.toCore.openFailed ha hsettled hcur).terminate a.socket).attemptDone a
      rcases h.reconnects_own a ha with hr | hr
      · rw [hr]
        refine hcore.toInv (by simp) fun he => absurd ?_ hcaller
        have hest : c.established = true := by simpa using he
        have hx : ¬ c.explicitClose = true := fun hx => by simp [h.closed_established hx] at hest
        have hdown : ok = false ∨ c.connected = false := by
          by_contra hup
          rw [not_or, Bool.not_eq_false, Bool.not_eq_false] at hup
          exact hno ⟨hup.1, hcur, hx, hup.2⟩
        exact ⟨hest, hcur, hdown, hr⟩
      · rw [hr]
        exact hcore.reconnectFailed_none (by simp) (by simpa using ht)
          (by simp [(current_iff.mp hcur).2])
    · simp only [hcur]
      have hne := h.not_current ha hcur
      have hinv := (h.terminate a.socket).attemptDone a fun hs => absurd hs (by simpa using hne)
      rcases h.reconnects_own a ha with hr | hr
      · rw [hr]; exact hinv
      · rw [hr]
        refine hinv.reconnectFailed ?_
        simpa [Strands] using hreconnect hcur a.generation (by simp [hr])

theorem Inv.timerFired (h : Inv c) {g : ℕ} (ht : c.reconnectTimer = some g)
    (hdrained : ∀ a ∈ c.attempts, a.inner = none) : Inv (c.timerFired g) := by
  have hs : c.socket = none := by
    by_contra hs
    simp [h.timer_socket hs] at ht
  have hp : c.connectPromise = none := by
    cases hp : c.connectPromise with
    | none => rfl
    | some k =>
      obtain ⟨a, ha, -⟩ := h.promise_attempt k hp
      have := (h.opening_current a ha (hdrained a ha)).1
      rw [hs] at this
      cases this
  have hcore : Core { c with reconnectTimer := none } :=
    { timer_socket := fun _ => rfl
      attempt_generation := h.attempt_generation
      opening_current := h.opening_current
      promise_attempt := h.promise_attempt
      attempt_unique := h.attempt_unique
      reconnects_own := h.reconnects_own
      closed_established := h.closed_established }
  unfold Connection.timerFired
  simp only
  split
  · next hstale =>
    refine hcore.toInv hs fun he => ?_
    rcases hstale with hne | hx
    · exact absurd (Option.some.inj (ht.symm.trans (h.armed he hs))) hne
    · simp [h.closed_established hx] at he
  · next hfresh =>
    obtain ⟨hg, -⟩ := not_or.mp hfresh
    exact hcore.connect_new (by simp [connected, hs]) hp (Or.inr (by simp [not_not.mp hg]))

end Connection

open Connection

/-- The steps that bring the transport back: no caller's own `connect()` fails after the first
    connection, and no reconnect fails while a timer is already armed. -/
def Regular (t : CTraderJsonTransport) : Event → Prop
  | .settle k => ∀ a, t.connection.attempts.find? (fun a => a.socket = k) = some a →
      ∀ ok, a.inner = some ok → ¬ t.connection.Abandons a ok ∧
        (¬ t.connection.current a.socket a.generation → ∀ g ∈ a.reconnects, ¬ t.connection.Strands g)
  | .handlerDone g false => g ∈ t.connection.reconnectHandlers → ¬ t.connection.Strands g
  | _ => True

/-- What one event can do to the connection. -/
theorem inv_step (o : Options) (t : CTraderJsonTransport) (e : Event) (t' : CTraderJsonTransport)
    (h : Inv t.connection) (hreg : Regular t e) (hstep : step o t e = some t') :
    Inv t'.connection := by
  cases e with
  | connect => cases hstep; exact h.connect
  | close => cases hstep; exact h.toCore.close_inv
  | socketOpen k =>
    simp only [step, Option.ite_none_right_eq_some, Option.some.injEq] at hstep
    obtain ⟨-, rfl⟩ := hstep
    exact (h.setReadyState (by simp) (by simp)).finish k true
  | socketError k => cases hstep; exact h.finish k false
  | socketClosing k =>
    simp only [step, Option.ite_none_left_eq_some, Option.some.injEq] at hstep
    obtain ⟨-, rfl⟩ := hstep
    exact h.setReadyState (by simp) (by simp)
  | socketClose k =>
    simp only [step, Option.ite_none_left_eq_some, Option.some.injEq] at hstep
    obtain ⟨-, rfl⟩ := hstep
    rw [rejectPendingIf_connection]
    refine Inv.finish ?_ k false
    split
    · next hcur =>
      refine (h.toCore.setReadyState k .closed).closed_inv fun _ => h.timer_socket ?_
      simp [show t.connection.socket = some k from (current_iff.mp hcur).1]
    · next hcur =>
      refine h.setReadyState (by simp) fun _ hs => hcur (current_iff.mpr ⟨hs, ?_⟩)
      rw [setReadyState_generation]
      exact (h.socket_live k hs).1.symm
  | handshakeTimeout k => cases hstep; exact h.finish k false
  | settle k =>
    simp only [step] at hstep
    split at hstep
    · next a ha =>
      split at hstep
      · next ok hok =>
        cases hstep
        rw [rejectPendingIf_connection]
        obtain ⟨hcaller, hreconnect⟩ := hreg a ha ok hok
        exact h.settle (List.mem_of_find?_eq_some ha) hok hcaller hreconnect
      · cases hstep
    · cases hstep
  | handlerDone g ok =>
    simp only [step, Option.ite_none_right_eq_some] at hstep
    obtain ⟨hmem, hstep⟩ := hstep
    cases ok with
    | true => cases hstep; exact h.withHandlers _
    | false =>
      cases hstep
      rw [rejectPendingIf_connection]
      exact (h.withHandlers _).reconnectFailed (hreg hmem)
  | reconnectTimer =>
    simp only [step] at hstep
    split at hstep
    · next g hg =>
      simp only [Option.ite_none_right_eq_some, Option.some.injEq] at hstep
      obtain ⟨hd, rfl⟩ := hstep
      exact h.timerFired hg (drained_iff.mp hd).1
    · cases hstep
  | request payloadType expected => cases hstep; exact h
  | requestTimeout id =>
    simp only [step] at hstep
    split at hstep
    · simp only [Option.ite_none_right_eq_some, Option.some.injEq] at hstep
      obtain ⟨-, rfl⟩ := hstep
      exact h
    · cases hstep
  | beginAdmission =>
    simp only [step] at hstep
    split at hstep
    · cases hstep; exact h
    · cases hstep
  | admissionTimer =>
    simp only [step] at hstep
    split at hstep
    · simp only [Option.ite_none_right_eq_some, Option.some.injEq] at hstep
      obtain ⟨-, rfl⟩ := hstep
      exact h
    · cases hstep
  | dispatch q sendThrows =>
    simp only [step, Option.ite_none_right_eq_some, Option.some.injEq] at hstep
    obtain ⟨-, rfl⟩ := hstep
    exact h
  | message k m =>
    simp only [step, Option.ite_none_right_eq_some, Option.some.injEq] at hstep
    obtain ⟨-, rfl⟩ := hstep
    exact h
  | tick ms =>
    simp only [step, Option.ite_none_right_eq_some, Option.some.injEq] at hstep
    obtain ⟨-, rfl⟩ := hstep
    exact h

/-! ### The two irregular steps do strand the transport -/

namespace Connection

variable {c : Connection}

theorem not_recovering (hest : c.established = true) (hx : c.explicitClose = false)
    (hs : c.socket = none) (ht : ¬ c.Armed) : ¬ c.Recovering := by
  intro hrec
  rcases hrec hest hx (by rintro ⟨k, hk, -⟩; simp [hs] at hk) with ⟨a, -, ha⟩ | harm
  · simp [current, hs] at ha
  · exact ht harm

theorem Inv.not_explicit (h : Inv c) (hest : c.established = true) : c.explicitClose = false := by
  cases hx : c.explicitClose with
  | false => rfl
  | true => simp [h.closed_established hx] at hest

theorem Inv.strands_reconnectFailed (h : Inv c) {g : ℕ} (hg : c.Strands g) :
    ¬ (c.reconnectFailed g).1.Recovering := by
  obtain ⟨hest, hgen, hs, ht⟩ := hg
  have hx := h.not_explicit hest
  have hclosed : (c.reconnectFailed g).1 = c.closed := by
    unfold Connection.reconnectFailed
    rw [if_neg (by simp [hx]; omega)]
    simp [hs]
  rw [hclosed]
  refine not_recovering (by simpa using hest) (by simpa using hx) closed_socket ?_
  have harm : c.reconnectTimer = some c.generation := h.armed hest hs
  simp [Armed, closed_reconnectTimer, hx, harm]

theorem Inv.abandons_settle (h : Inv c) {a : Attempt} {ok : Bool} (hab : c.Abandons a ok) :
    ¬ (c.settle a ok).1.Recovering := by
  obtain ⟨hest, hcur, hdown, hr⟩ := hab
  have hx := h.not_explicit hest
  have ht : c.reconnectTimer = none := h.timer_socket (by simp [(current_iff.mp hcur).1])
  have hno : ¬ (ok = true ∧ c.current a.socket a.generation = true ∧ ¬ c.explicitClose = true ∧
      c.connected = true) := by
    rintro ⟨hok, -, -, hconn⟩
    rcases hdown with hd | hd
    · simp [hd] at hok
    · simp [hd] at hconn
  unfold Connection.settle
  rw [if_neg hno]
  simp only [Connection.openFailed, hcur, if_true, hr, reconnectsFailed]
  exact not_recovering (by simpa using hest) (by simpa using hx) (by simp) (by simp [Armed, ht])

end Connection

theorem irregular_step (o : Options) (t : CTraderJsonTransport) (e : Event)
    (h : Inv t.connection) (hreg : ¬ Regular t e) :
    ∃ t', step o t e = some t' ∧ ¬ t'.connection.Recovering := by
  cases e with
  | settle k =>
    simp only [Regular, not_forall] at hreg
    obtain ⟨a, ha, ok, hok, hbad⟩ := hreg
    refine ⟨_, by simp only [step, ha, hok]; rfl, ?_⟩
    rw [rejectPendingIf_connection]
    by_cases hab : t.connection.Abandons a ok
    · exact h.abandons_settle hab
    · simp only [hab, not_false_eq_true, true_and, not_forall, not_not] at hbad
      obtain ⟨hcur, g, hg, hstr⟩ := hbad
      have hmem := List.mem_of_find?_eq_some ha
      have hr : a.reconnects = [g] := by
        rcases h.reconnects_own a hmem with hr | hr <;> rw [hr] at hg ⊢
        · cases hg
        · rw [List.mem_singleton.mp hg]
      unfold Connection.settle
      rw [if_neg (fun hyes => hcur hyes.2.1)]
      simp only [Connection.openFailed, hcur, hr, reconnectsFailed]
      have hne := h.not_current hmem hcur
      exact ((h.terminate a.socket).attemptDone a fun hs => absurd hs (by simpa using hne)
        ).strands_reconnectFailed (by simpa [Strands] using hstr)
  | handlerDone g ok =>
    cases ok with
    | true => exact absurd trivial hreg
    | false =>
      simp only [Regular, Classical.not_imp, not_not] at hreg
      refine ⟨_, by simp only [step, hreg.1, if_true]; rfl, ?_⟩
      rw [rejectPendingIf_connection]
      exact (h.withHandlers _).strands_reconnectFailed hreg.2
  | _ => exact absurd trivial hreg

/-- In a run from a new transport, the transport can recover in every state visited exactly when
    every step is regular. -/
theorem recovers_iff_regular (o : Options) (es : List Event) :
    Transition.Throughout (step o) (fun t => t.connection.Recovering) .initial es ↔
      Transition.Guarded (step o) Regular .initial es :=
  Transition.throughout_iff_guarded (I := fun t : CTraderJsonTransport => Inv t.connection) (fun _ h => h.recovering)
    (inv_step o) (irregular_step o) inv_initial

/-- A reconnect handler is running when its socket closes: `#closed` arms a timer for the new
    generation, and the handler's failure calls `#closed` again, which leaves that timer stale. -/
def lostDuringHandler : List Event :=
  [.connect, .socketOpen 0, .settle 0, .socketClose 0, .reconnectTimer, .socketOpen 1, .settle 1,
   .socketClose 1, .handlerDone 3 false, .reconnectTimer]

theorem lost_during_handler : ∃ t, Run {} lostDuringHandler t ∧ ¬ t.connection.Recovering ∧
    t.connection.reconnectTimer = none ∧ t.connection.attempts = [] := by
  refine ⟨_, rfl, ?_, rfl, rfl⟩
  exact not_recovering rfl rfl rfl (by simp [Armed]; decide)

end ScalpingBot.Transport
