import ScalpingBot.Library.Transition
import ScalpingBot.Transport.Connection
import ScalpingBot.Transport.Requests

/-! `CTraderJsonTransport` as a state machine: one event is one turn of the event loop (a socket
    event, a timer, a call from outside) or one chain of microtasks that such a turn left behind.
    Microtasks run before the next timer, message or tick of the clock (`drained`); calls from
    outside and socket events may come at any point. -/

namespace ScalpingBot.Transport

/-- `CTraderTransportOptions`, as far as it is read here. -/
structure Options where
  requestTimeoutMs : ℕ := 10000

structure CTraderJsonTransport where
  connection : Connection
  requests : Requests

inductive Event where
  | connect                                        -- a caller's `connect()`
  | close                                          -- a caller's `close()`
  | socketOpen (k : ℕ)
  | socketError (k : ℕ)
  | socketClosing (k : ℕ)                          -- the closing handshake has begun, no event yet
  | socketClose (k : ℕ)
  | handshakeTimeout (k : ℕ)
  | settle (k : ℕ)                                 -- the continuations of a settled attempt
  | handlerDone (attemptGeneration : ℕ) (ok : Bool) -- the reconnect handler resolved or rejected
  | reconnectTimer
  | request (payloadType : ℕ) (expected : List ℕ)
  | requestTimeout (id : ℕ)
  | beginAdmission
  | admissionTimer
  | dispatch (q : Request) (sendThrows : Bool)
  | message (k : ℕ) (m : CTraderEnvelope)
  | tick (ms : ℕ)

namespace CTraderJsonTransport

def initial : CTraderJsonTransport := ⟨.initial, .initial⟩

/-- `#rejectPending` as `#closed` and `#open` call it. -/
def rejectPendingIf (t : CTraderJsonTransport) (b : Bool) : CTraderJsonTransport :=
  if b then { t with requests := t.requests.rejectPending .connectionLost } else t

/-- No continuation is waiting to run. -/
def drained (t : CTraderJsonTransport) : Bool :=
  t.connection.attempts.all (fun a => a.inner = none) && t.requests.admitted.isEmpty

end CTraderJsonTransport

@[simp] theorem rejectPendingIf_connection (t : CTraderJsonTransport) (b : Bool) :
    (t.rejectPendingIf b).connection = t.connection := by
  unfold CTraderJsonTransport.rejectPendingIf; split <;> rfl

theorem drained_iff {t : CTraderJsonTransport} : t.drained = true ↔
    (∀ a ∈ t.connection.attempts, a.inner = none) ∧ t.requests.admitted = [] := by
  simp [CTraderJsonTransport.drained]

open CTraderJsonTransport in
/-- One event; `none` when it cannot happen in this state. -/
def step (o : Options) (t : CTraderJsonTransport) : Event → Option CTraderJsonTransport
  | .connect => some { t with connection := t.connection.connect [] }
  | .close => some ⟨t.connection.close, t.requests.rejectPending .transportClosed⟩
  | .socketOpen k =>
    if (t.connection.sockets k).readyState = .connecting then
      some { t with connection := (t.connection.setReadyState k .open).finish k true }
    else none
  | .socketError k => some { t with connection := t.connection.finish k false }
  | .socketClosing k =>
    if (t.connection.sockets k).readyState = .closed then none
    else some { t with connection := t.connection.setReadyState k .closing }
  | .socketClose k =>
    if (t.connection.sockets k).readyState = .closed then none
    else
      let c := t.connection.setReadyState k .closed
      let current := c.current k (c.sockets k).generation
      let c := if current then c.closed else c
      some ({ t with connection := c.finish k false }.rejectPendingIf current)
  | .handshakeTimeout k => some { t with connection := t.connection.finish k false }
  | .settle k =>
    match t.connection.attempts.find? (fun a => a.socket = k) with
    | some a =>
      match a.inner with
      | some ok =>
        let (c, rejects) := t.connection.settle a ok
        some ({ t with connection := c }.rejectPendingIf rejects)
      | none => none
    | none => none
  | .handlerDone g ok =>
    if g ∈ t.connection.reconnectHandlers then
      let c := { t.connection with reconnectHandlers := t.connection.reconnectHandlers.erase g }
      if ok then some { t with connection := c }
      else
        let (c, rejects) := c.reconnectFailed g
        some ({ t with connection := c }.rejectPendingIf rejects)
    else none
  | .reconnectTimer =>
    match t.connection.reconnectTimer with
    | some g => if t.drained then some { t with connection := t.connection.timerFired g } else none
    | none => none
  | .request payloadType expected =>
    some { t with requests :=
      t.requests.request t.connection.generation payloadType expected o.requestTimeoutMs }
  | .requestTimeout id =>
    match t.requests.requests.find? (fun q => q.clientMsgId = id ∧ id ∈ t.requests.pending) with
    | some q =>
      if q.deadline ≤ t.requests.now then
        some { t with requests := t.requests.deleteAndSettle id (.timeout q.payloadType) }
      else none
    | none => none
  | .beginAdmission =>
    match t.requests.admission, t.requests.waitUntil with
    | q :: _, none =>
      some { t with requests := t.requests.beginAdmission t.connection.generation q }
    | _, _ => none
  | .admissionTimer =>
    match t.requests.admission, t.requests.waitUntil with
    | q :: _, some due =>
      if due ≤ t.requests.now then
        some { t with requests := t.requests.finishAdmission t.connection.generation q }
      else none
    | _, _ => none
  | .dispatch q sendThrows =>
    if q ∈ t.requests.admitted then
      some { t with requests :=
        t.requests.dispatch t.connection.generation t.connection.connected q sendThrows }
    else none
  | .message k m =>
    if t.drained && t.connection.current k (t.connection.sockets k).generation &&
        t.connection.connected then
      some { t with requests := t.requests.receive m }
    else none
  | .tick ms =>
    if t.drained then some { t with requests := { t.requests with now := t.requests.now + ms } }
    else none

/-- The transport reaches `t` by the events `es` from a new transport. -/
def Run (o : Options) (es : List Event) (t : CTraderJsonTransport) : Prop :=
  Transition.run (step o) .initial es = some t

end ScalpingBot.Transport
