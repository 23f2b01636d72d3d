import Mathlib.Logic.Function.Basic
import Mathlib.Data.List.Basic

/-! The connection lifecycle of `CTraderJsonTransport` (packages/ctrader-client/src/transport.ts):
    `connect`, `#open`, `close`, `#closed` and the reconnect timer with its two continuations.
    Promises are modelled by the continuation they owe: an `Attempt` is one call of `#open` whose
    inner promise is pending, or settled with the code after its `await` still to run.

    A socket is known by its creation index. `new WebSocket(url)` always yields a socket; that it
    cannot connect is reported by its events. The heartbeat and the length of the reconnect delay
    are left out: nothing here depends on them (the timer may fire at any later moment). -/

namespace ScalpingBot.Transport

/-- `WebSocket.readyState`. -/
inductive ReadyState where | connecting | open | closing | closed
  deriving DecidableEq

/-- A socket with the generation its callbacks captured when `#open` installed them. -/
structure Socket where
  readyState : ReadyState
  generation : ℕ
  deriving DecidableEq

/-- One call of `#open`, until the code after its `await` has run. `inner` is the promise inside
    `#open`; `reconnects` are the `attemptGeneration`s of the timer callbacks chained on the shared
    `connect()` promise (none when only callers of `connect` wait for it). -/
structure Attempt where
  socket : ℕ
  generation : ℕ
  inner : Option Bool
  reconnects : List ℕ
  deriving DecidableEq

/-- The fields of the transport that the connection lifecycle reads and writes. `established` is
    not a field of the class: it records that `connect()` has succeeded since the last `close()`. -/
structure Connection where
  sockets : ℕ → Socket
  nextSocket : ℕ
  socket : Option ℕ
  generation : ℕ
  cancelConnect : Option ℕ
  connectPromise : Option ℕ
  attempts : List Attempt
  reconnectTimer : Option ℕ
  explicitClose : Bool
  reconnectHandlers : List ℕ
  established : Bool

namespace Connection

def initial : Connection where
  sockets := fun _ => ⟨.closed, 0⟩
  nextSocket := 0
  socket := none
  generation := 0
  cancelConnect := none
  connectPromise := none
  attempts := []
  reconnectTimer := none
  explicitClose := false
  reconnectHandlers := []
  established := false

/-- `get connected`. -/
def connected (c : Connection) : Bool :=
  match c.socket with
  | some k => decide ((c.sockets k).readyState = .open)
  | none => false

/-- The closure `current()` of `#open`, for a socket and the generation it captured. -/
def current (c : Connection) (k generation : ℕ) : Bool :=
  decide (c.socket = some k ∧ c.generation = generation)

def setReadyState (c : Connection) (k : ℕ) (r : ReadyState) : Connection :=
  { c with sockets := Function.update c.sockets k { c.sockets k with readyState := r } }

/-- `socket.terminate()`: the close event follows as an event of its own. -/
def terminate (c : Connection) (k : ℕ) : Connection :=
  if (c.sockets k).readyState = .closed then c else c.setReadyState k .closing

/-- The inner promise of the attempt on socket `k` is still pending. -/
def opening (c : Connection) (k : ℕ) : Bool :=
  c.attempts.any fun a => a.socket = k ∧ a.inner = none

/-- `finish` inside `#open`: settles the inner promise once and drops its cancel function. -/
def finish (c : Connection) (k : ℕ) (ok : Bool) : Connection :=
  { c with
    attempts := c.attempts.map fun a =>
      if a.socket = k ∧ a.inner = none then { a with inner := some ok } else a
    cancelConnect := if c.opening k ∧ c.cancelConnect = some k then none else c.cancelConnect }

/-- `this.#cancelConnect?.()`. -/
def cancel (c : Connection) : Connection :=
  match c.cancelConnect with
  | some k => c.finish k false
  | none => c

/-- `connect()` up to its first `await`; `reconnects` is what the caller chains on the promise. -/
def connect (c : Connection) (reconnects : List ℕ) : Connection :=
  if c.connected then c
  else match c.connectPromise with
    | some k =>
      { c with attempts := c.attempts.map fun a =>
          if a.socket = k then { a with reconnects := a.reconnects ++ reconnects } else a }
    | none =>
      let k := c.nextSocket
      let generation := c.generation + 1
      { c with
        reconnectTimer := none
        explicitClose := false
        generation := generation
        sockets := Function.update c.sockets k ⟨.connecting, generation⟩
        nextSocket := k + 1
        socket := some k
        cancelConnect := some k
        connectPromise := some k
        attempts := ⟨k, generation, none, reconnects⟩ :: c.attempts }

/-- `#closed()` without its `#rejectPending`. -/
def closed (c : Connection) : Connection :=
  let c := { c with generation := c.generation + 1 }.cancel
  let c := { c with socket := none }
  if c.explicitClose ∨ c.reconnectTimer.isSome then c
  else { c with reconnectTimer := some c.generation }

/-- `close()` without its `#rejectPending`. -/
def close (c : Connection) : Connection :=
  let socket := c.socket
  let c := { c with explicitClose := true, generation := c.generation + 1 }.cancel
  let c :=
    { c with connectPromise := none, reconnectTimer := none, socket := none, established := false }
  match socket with
  | none => c
  | some k => c.terminate k

/-- The `catch` chained on a reconnect, run for the attempt of generation `attemptGeneration`;
    the second component says whether it called `#closed`. -/
def reconnectFailed (c : Connection) (attemptGeneration : ℕ) : Connection × Bool :=
  if c.explicitClose ∨ attemptGeneration + 1 < c.generation then (c, false)
  else match c.socket with
    | some k => (if c.generation = attemptGeneration then c.terminate k else c, false)
    | none => (c.closed, true)

/-- The `then` chained on a reconnect: start the reconnect handler if still current. -/
def reconnectSucceeded (c : Connection) (attemptGeneration : ℕ) : Connection :=
  if attemptGeneration = c.generation ∧ c.connected ∧ ¬ c.explicitClose then
    { c with reconnectHandlers := attemptGeneration :: c.reconnectHandlers }
  else c

/-- The `catch` block of `#open`: forget the socket if it is still current, and terminate it. The
    second component says whether it ran `#rejectPending`. -/
def openFailed (c : Connection) (a : Attempt) : Connection × Bool :=
  if c.current a.socket a.generation then
    ({ c with socket := none, generation := c.generation + 1 }.terminate a.socket, true)
  else (c.terminate a.socket, false)

/-- The `finally` of `connect`, and the end of the attempt. -/
def attemptDone (c : Connection) (a : Attempt) : Connection :=
  { c with
    attempts := c.attempts.filter fun b => b.socket ≠ a.socket
    connectPromise := if c.connectPromise = some a.socket then none else c.connectPromise }

/-- Run the failure continuation of every reconnect chained on a failed attempt. -/
def reconnectsFailed (c : Connection) : List ℕ → Connection × Bool
  | [] => (c, false)
  | g :: gs =>
    let (c, r) := c.reconnectFailed g
    let (c, r') := c.reconnectsFailed gs
    (c, r || r')

/-- The code after the `await` of `#open`, the rest of `connect()`, and the continuations chained
    on it: they follow each other as microtasks, with no event in between. The second component
    says whether `#rejectPending` ran. -/
def settle (c : Connection) (a : Attempt) (ok : Bool) : Connection × Bool :=
  if ok ∧ c.current a.socket a.generation ∧ ¬ c.explicitClose ∧ c.connected then
    let c := { c.attemptDone a with established := true }
    (a.reconnects.foldl reconnectSucceeded c, false)
  else
    let (c, r) := c.openFailed a
    let (c, r') := (c.attemptDone a).reconnectsFailed a.reconnects
    (c, r || r')

/-- The reconnect timer's callback. -/
def timerFired (c : Connection) (generation : ℕ) : Connection :=
  let c := { c with reconnectTimer := none }
  if generation ≠ c.generation ∨ c.explicitClose then c
  else c.connect [generation + 1]

/-! ### What the operations leave alone -/

variable {c : Connection} {k : ℕ}

theorem setReadyState_of_ne {j : ℕ} {r : ReadyState} (h : j ≠ k) :
    (c.setReadyState k r).sockets j = c.sockets j := by
  simp [setReadyState, Function.update_of_ne h]
@[simp] theorem setReadyState_self {r : ReadyState} :
    (c.setReadyState k r).sockets k = ⟨r, (c.sockets k).generation⟩ := by
  simp [setReadyState]
@[simp] theorem setReadyState_generation {r : ReadyState} (j : ℕ) :
    ((c.setReadyState k r).sockets j).generation = (c.sockets j).generation := by
  by_cases hj : j = k
  · subst hj; simp
  · rw [setReadyState_of_ne hj]

@[simp] theorem terminate_socket : (c.terminate k).socket = c.socket := by
  unfold terminate; split <;> rfl
@[simp] theorem terminate_generation : (c.terminate k).generation = c.generation := by
  unfold terminate; split <;> rfl
@[simp] theorem terminate_reconnectTimer : (c.terminate k).reconnectTimer = c.reconnectTimer := by
  unfold terminate; split <;> rfl
@[simp] theorem terminate_explicitClose : (c.terminate k).explicitClose = c.explicitClose := by
  unfold terminate; split <;> rfl
@[simp] theorem terminate_established : (c.terminate k).established = c.established := by
  unfold terminate; split <;> rfl

@[simp] theorem cancel_sockets : c.cancel.sockets = c.sockets := by unfold cancel; split <;> rfl
@[simp] theorem cancel_nextSocket : c.cancel.nextSocket = c.nextSocket := by
  unfold cancel; split <;> rfl
@[simp] theorem cancel_socket : c.cancel.socket = c.socket := by unfold cancel; split <;> rfl
@[simp] theorem cancel_generation : c.cancel.generation = c.generation := by
  unfold cancel; split <;> rfl
@[simp] theorem cancel_connectPromise : c.cancel.connectPromise = c.connectPromise := by
  unfold cancel; split <;> rfl
@[simp] theorem cancel_reconnectTimer : c.cancel.reconnectTimer = c.reconnectTimer := by
  unfold cancel; split <;> rfl
@[simp] theorem cancel_explicitClose : c.cancel.explicitClose = c.explicitClose := by
  unfold cancel; split <;> rfl
@[simp] theorem cancel_established : c.cancel.established = c.established := by
  unfold cancel; split <;> rfl
@[simp] theorem cancel_withGeneration (g : ℕ) :
    ({ c with generation := g } : Connection).cancel = { c.cancel with generation := g } := by
  unfold cancel; split <;> simp_all [finish, opening]

@[simp] theorem closed_socket : c.closed.socket = none := by
  unfold closed; simp only; split <;> rfl
@[simp] theorem closed_generation : c.closed.generation = c.generation + 1 := by
  unfold closed; simp only [cancel_withGeneration]; split <;> rfl
@[simp] theorem closed_established_eq : c.closed.established = c.established := by
  unfold closed; simp only [cancel_withGeneration]; split <;> simp
@[simp] theorem closed_explicitClose : c.closed.explicitClose = c.explicitClose := by
  unfold closed; simp only [cancel_withGeneration]; split <;> simp
theorem closed_reconnectTimer : c.closed.reconnectTimer =
    if c.explicitClose ∨ c.reconnectTimer.isSome then c.reconnectTimer
    else some (c.generation + 1) := by
  unfold closed; simp only [cancel_withGeneration, cancel_explicitClose, cancel_reconnectTimer]
  split <;> simp

@[simp] theorem attemptDone_socket {a : Attempt} : (c.attemptDone a).socket = c.socket := rfl
@[simp] theorem attemptDone_generation {a : Attempt} :
    (c.attemptDone a).generation = c.generation := rfl
@[simp] theorem attemptDone_reconnectTimer {a : Attempt} :
    (c.attemptDone a).reconnectTimer = c.reconnectTimer := rfl
@[simp] theorem attemptDone_explicitClose {a : Attempt} :
    (c.attemptDone a).explicitClose = c.explicitClose := rfl
@[simp] theorem attemptDone_established {a : Attempt} :
    (c.attemptDone a).established = c.established := rfl

theorem current_iff {g : ℕ} : c.current k g = true ↔ c.socket = some k ∧ c.generation = g := by
  simp [current]

end Connection

end ScalpingBot.Transport
