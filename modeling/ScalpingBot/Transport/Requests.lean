import Mathlib.Logic.Function.Basic
import Mathlib.Data.List.Basic

/-! Requests of `CTraderJsonTransport` (packages/ctrader-client/src/transport.ts): the pending map,
    the admission chain of `#rateLimit`, and the responses that settle a request. Times are
    milliseconds of `Date.now()`. -/

namespace ScalpingBot.Transport

/-- The `CTraderPayload` numbers that this file compares with. -/
def dealListReq : ℕ := 2133
def getTrendbarsReq : ℕ := 2137
def cashFlowHistoryListReq : ℕ := 2143
def orderListReq : ℕ := 2175
def errorRes : ℕ := 2142
def orderErrorEvent : ℕ := 2132

/-- What a request's promise was settled with. -/
inductive Outcome where
  | response (payloadType : ℕ)
  | rejected (payloadType : ℕ)      -- CTRADER_REQUEST_REJECTED
  | typeMismatch (payloadType : ℕ)  -- CTRADER_RESPONSE_TYPE_MISMATCH:n
  | timeout (payloadType : ℕ)       -- CTRADER_REQUEST_TIMEOUT:n
  | connectionLost                  -- CTRADER_CONNECTION_LOST_RECONCILIATION_REQUIRED
  | transportClosed                 -- CTRADER_TRANSPORT_CLOSED
  | cooldown                        -- CTRADER_RATE_LIMIT_COOLDOWN
  | notConnected                    -- CTRADER_NOT_CONNECTED
  | sendFailed                      -- CTRADER_SEND_FAILED, or what socket.send threw
  deriving DecidableEq

/-- `CTraderErrorDetails` of an error message, as `firstText` read them. -/
structure CTraderErrorDetails where
  code : Option String
  description : Option String

/-- `A.?B` at the head of a text: `A`, at most one character other than a line break, `B`. -/
def matchesGap (a b text : List Char) : Bool :=
  a.isPrefixOf text &&
    (b.isPrefixOf (text.drop a.length) ||
      match text.drop a.length with
      | c :: rest => c ≠ '\n' && c ≠ '\r' && b.isPrefixOf rest
      | [] => false)

/-- `isCTraderRateLimitDetails`: the pattern `RATE.?LIMIT|TOO.?MANY|THROTTL` in the upper-case text. -/
def isCTraderRateLimitDetails (d : CTraderErrorDetails) : Bool :=
  let text := (d.code.getD "" ++ " " ++ d.description.getD "").toUpper.toList
  text.tails.any fun t =>
    matchesGap "RATE".toList "LIMIT".toList t || matchesGap "TOO".toList "MANY".toList t ||
      "THROTTL".toList.isPrefixOf t

/-- A parsed envelope as `#receive` reads it; `details` are those of an error payload. -/
structure CTraderEnvelope where
  clientMsgId : Option ℕ
  payloadType : ℕ
  details : CTraderErrorDetails

/-- One call of `request`. Its `clientMsgId` is fresh: `randomUUID()` is a counter here. -/
structure Request where
  clientMsgId : ℕ
  payloadType : ℕ
  expectedPayloadTypes : List ℕ
  generation : ℕ
  deadline : ℕ
  deriving DecidableEq

/-- The paced classes of `#rateLimit`. -/
inductive FrameClass where | historical | regular
  deriving DecidableEq

/-- The first argument that `request` gives to `#rateLimit`. -/
def frameClass (payloadType : ℕ) : FrameClass :=
  if payloadType = getTrendbarsReq ∨ payloadType = dealListReq ∨
      payloadType = cashFlowHistoryListReq ∨ payloadType = orderListReq then .historical
  else .regular

/-- The class that paces a request. -/
def Request.frameClass (q : Request) : FrameClass := Transport.frameClass q.payloadType

/-- The spacing that an admission of the class leaves before the next one. -/
def FrameClass.spacing : FrameClass → ℕ
  | .historical => 210
  | .regular => 25

/-- A frame handed to `socket.send`, with the moment and the connection generation of the call. -/
structure Frame where
  request : Request
  sentAt : ℕ
  generation : ℕ
  deriving DecidableEq

/-- `requests` lists every request ever made, newest first. `admission` is the promise chain of
    `#rateLimit`: the callbacks not yet finished, the head being the one that runs; `waitUntil` is
    the end of the head's `setTimeout`. `admitted` are the requests whose admission has resolved and
    whose `then` has yet to run. `outcome` is the promise of each request. -/
structure Requests where
  now : ℕ
  requests : List Request
  pending : List ℕ
  outcome : ℕ → Option Outcome
  settlements : List (ℕ × Outcome)
  admission : List Request
  waitUntil : Option ℕ
  admitted : List Request
  nextAt : FrameClass → ℕ
  rateLimitBlockedUntil : ℕ
  rateLimitBackoffMs : ℕ
  frames : List Frame

namespace Requests

def initial : Requests where
  now := 0
  requests := []
  pending := []
  outcome := fun _ => none
  settlements := []
  admission := []
  waitUntil := none
  admitted := []
  nextAt := fun _ => 0
  rateLimitBlockedUntil := 0
  rateLimitBackoffMs := 1000
  frames := []

/-- Calling a promise's `resolve` or `reject`: only the first call has an effect. -/
def settle (r : Requests) (id : ℕ) (o : Outcome) : Requests :=
  match r.outcome id with
  | some _ => r
  | none => { r with
      outcome := Function.update r.outcome id (some o), settlements := (id, o) :: r.settlements }

/-- `clearTimeout(timeout); this.#pending.delete(id)`, then settle. -/
def deleteAndSettle (r : Requests) (id : ℕ) (o : Outcome) : Requests :=
  { r with pending := r.pending.erase id }.settle id o

/-- `#rejectPending`. -/
def rejectPending (r : Requests) (o : Outcome) : Requests :=
  { r.pending.foldl (fun r id => r.settle id o) r with pending := [] }

/-- `request(…)`: registers the request and appends its admission to the chain. -/
def request (r : Requests) (generation payloadType : ℕ) (expected : List ℕ) (timeoutMs : ℕ) :
    Requests :=
  let q : Request := ⟨r.requests.length, payloadType, expected, generation, r.now + timeoutMs⟩
  { r with
    requests := q :: r.requests
    pending := q.clientMsgId :: r.pending
    admission := r.admission ++ [q] }

/-- The closure `valid()` of a request; what it throws, if it does. -/
def valid (r : Requests) (generation : ℕ) (q : Request) : Option Outcome :=
  if q.clientMsgId ∉ r.pending then some (.timeout q.payloadType)
  else if q.generation ≠ generation then some .connectionLost
  else none

/-- The head of the admission chain ends with an exception: `request`'s `catch` settles it. -/
def admissionFailed (r : Requests) (q : Request) (o : Outcome) : Requests :=
  { r with admission := r.admission.tail, waitUntil := none }.deleteAndSettle q.clientMsgId o

/-- The second half of an admission, after the wait. -/
def finishAdmission (r : Requests) (generation : ℕ) (q : Request) : Requests :=
  match r.valid generation q with
  | some o => r.admissionFailed q o
  | none =>
    if r.now < r.rateLimitBlockedUntil then r.admissionFailed q .cooldown
    else
      let c := q.frameClass
      { r with
        admission := r.admission.tail
        waitUntil := none
        admitted := r.admitted ++ [q]
        nextAt := Function.update r.nextAt c (r.now + c.spacing) }

/-- The first half of an admission: checks, then the wait for the class's next slot if needed. -/
def beginAdmission (r : Requests) (generation : ℕ) (q : Request) : Requests :=
  match r.valid generation q with
  | some o => r.admissionFailed q o
  | none =>
    if r.now < r.rateLimitBlockedUntil then r.admissionFailed q .cooldown
    else
      let next := r.nextAt q.frameClass
      if r.now < next then { r with waitUntil := some (r.now + (next - r.now)) }
      else r.finishAdmission generation q

/-- The `then` after admission: check again and send. `sendThrows` is `socket.send` throwing. -/
def dispatch (r : Requests) (generation : ℕ) (connected : Bool) (q : Request) (sendThrows : Bool) :
    Requests :=
  let r := { r with admitted := r.admitted.erase q }
  match r.valid generation q with
  | some o => r.deleteAndSettle q.clientMsgId o
  | none =>
    if ¬ connected then r.deleteAndSettle q.clientMsgId .notConnected
    else if sendThrows then r.deleteAndSettle q.clientMsgId .sendFailed
    else { r with frames := ⟨q, r.now, generation⟩ :: r.frames }

/-- `#noteRateLimit`. -/
def noteRateLimit (r : Requests) (d : CTraderErrorDetails) : Requests :=
  if isCTraderRateLimitDetails d then
    { r with
      rateLimitBlockedUntil := max r.rateLimitBlockedUntil (r.now + r.rateLimitBackoffMs)
      rateLimitBackoffMs := min (r.rateLimitBackoffMs * 2) 30000 }
  else r

/-- `#noteSuccessfulRequest`. -/
def noteSuccessfulRequest (r : Requests) : Requests :=
  if r.rateLimitBlockedUntil ≤ r.now then
    { r with rateLimitBlockedUntil := 0, rateLimitBackoffMs := 1000 }
  else r

/-- `#receive` on a parsed envelope. -/
def receive (r : Requests) (m : CTraderEnvelope) : Requests :=
  match m.clientMsgId with
  | none => r
  | some id =>
    match r.requests.find? (fun q => q.clientMsgId = id ∧ id ∈ r.pending) with
    | none => r
    | some q =>
      let r := { r with pending := r.pending.erase id }
      if m.payloadType = errorRes ∨ m.payloadType = orderErrorEvent then
        (r.noteRateLimit m.details).settle id (.rejected m.payloadType)
      else if m.payloadType ∉ q.expectedPayloadTypes then
        r.settle id (.typeMismatch m.payloadType)
      else r.noteSuccessfulRequest.settle id (.response m.payloadType)

end Requests

end ScalpingBot.Transport
