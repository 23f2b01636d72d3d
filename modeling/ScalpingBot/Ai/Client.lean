import ScalpingBot.Library.Checked
import ScalpingBot.Library.Journal

/-! The client of a model provider: one analysis at a time, each with a deadline, a few attempts, a
    local gate before each of them, and a circuit that opens after too many failures. The client waits
    at the gate and for the provider; what it does between two waits is one step. -/

namespace ScalpingBot.Ai

/-! ### Failures -/

inductive ErrorName where
  | timeoutError
  | typeError
  | other
  deriving DecidableEq

/-- An error, with the telemetry and the raw response that stand as evidence of a rejected proposal. -/
structure Failure (M : Type) where
  name : ErrorName
  message : String
  evidence : Option (M × Option String)
  deriving DecidableEq

variable {P C R V M T : Type}

def failed (message : String) : Failure M := { name := .other, message, evidence := none }

def safeReason (reason : String) : Bool :=
  1 ≤ reason.length && reason.length ≤ 160 &&
    reason.all fun c => ('A' ≤ c && c ≤ 'Z') || ('0' ≤ c && c ≤ '9') || c = '_' || c = ':'

/-- The failure of a completed response whose proposal was rejected. -/
def providerFailure (reason : String) (telemetry : M) (rawResponse : Option String) : Failure M where
  name := .other
  message := if safeReason reason then reason else "AI_PROVIDER_INVALID_RESPONSE"
  evidence := some (telemetry, rawResponse.filter fun raw => raw.utf8ByteSize ≤ 4000000)

/-! ### Requests and responses -/

inductive InputProfile where
  | chart
  | structured
  deriving DecidableEq

/-- A number of milliseconds, as far as it is a safe integer. -/
inductive Milliseconds where
  | safeInteger (ms : ℤ)
  | other

structure AiAnalysisRequest (P C : Type) where
  analysisId : String
  symbol : String
  payload : P
  chart : Option C
  timeoutMs : Option Milliseconds

/-- The options that the client reads, within the bounds that its constructor checks. -/
structure AiClientOptions where
  model : String
  timeoutMs : Option ℤ
  maxRetries : Option ℕ
  maxRequestBytes : Option ℕ
  circuitBreakerFailures : Option ℕ
  circuitBreakerResetMs : Option ℤ
  inputProfile : Option InputProfile
  requireReturnedModelMatch : Option Bool
  timeout_bounds : 1000 ≤ timeoutMs.getD 30000 ∧ timeoutMs.getD 30000 ≤ 120000
  retries_bound : maxRetries.getD 0 ≤ 2
  bytes_bounds : 1 ≤ maxRequestBytes.getD 5600000 ∧ maxRequestBytes.getD 5600000 ≤ 5600000
  failures_bounds : 1 ≤ circuitBreakerFailures.getD 3 ∧ circuitBreakerFailures.getD 3 ≤ 10
  reset_bounds : 1000 ≤ circuitBreakerResetMs.getD 300000 ∧
    circuitBreakerResetMs.getD 300000 ≤ 900000

namespace AiClientOptions

variable (options : AiClientOptions)

def retries : ℕ := options.maxRetries.getD 0

def breakerFailures : ℕ := options.circuitBreakerFailures.getD 3

def breakerResetMs : ℤ := options.circuitBreakerResetMs.getD 300000

end AiClientOptions

/-- What a validator of responses says. -/
structure Verdict (T : Type) where
  accepted : Bool
  response : Option T
  reasonCodes : List String

/-- The texts of requests, and the readers of responses: `responseText` bounds what it reads,
    `envelope` parses it, `extract` finds the proposal in it. -/
structure Codec (P C R V M T : Type) where
  payloadText : P → Except (Failure M) String
  chartDataUrl : Option C → Except (Failure M) String
  requestBody : String → Option String → String
  responseText : R → Except (Failure M) String
  envelope : String → Except (Failure M) V
  returnedModel : V → Option String
  telemetry : V → (requestBytes responseBytes : ℕ) → Except (Failure M) M
  extract : V → Except (Failure M) String
  parse : String → AiAnalysisRequest P C → Except (Failure M) (Verdict T)
  analysisId : T → String
  symbol : T → String

structure AiAnalysisResult (M T : Type) where
  response : T
  rawResponse : String
  latencyMs : ℤ
  retryCount : ℕ
  model : String
  telemetry : M

/-- What became of a request: an error, if it was one, or a response. -/
inductive Reply (R M : Type) where
  | thrown (failure : Option (Failure M))
  | response (status : ℕ) (body : R)

def retryableStatus (status : ℕ) : Bool := status = 408 || status = 429 || status ≥ 500

/-- Only explicitly observed provider aliases are accepted. -/
def returnedModelMatches (requested : String) (returned : Option String) : Bool :=
  (returned = none && requested ≠ "deepseek-v4-pro/u5W" && requested ≠ "grok-4.5") ||
    returned = some requested ||
    (requested = "gpt-6-astra/u64" && returned = some "gpt-6-astra") ||
    (requested = "gpt-5.6-sol/u40" && returned = some "gpt-5.6-sol") ||
    (requested = "deepseek-v4-pro/u5W" && returned = some "deepseek-v4-pro") ||
    (requested = "grok-4.5" && returned = some "grok-4.5")

variable (options : AiClientOptions) (codec : Codec P C R V M T)

/-- The checks of a request before its first attempt, with the body to send and its deadline. -/
def prepare (request : AiAnalysisRequest P C) : Except (Failure M) (String × ℤ) := do
  let payloadText ← codec.payloadText request.payload
  require (payloadText.utf8ByteSize ≤ options.maxRequestBytes.getD 4000000)
    (failed "AI_REQUEST_OVERSIZED")
  let imageUrl ← if options.inputProfile.getD .chart = .structured then .ok none
    else (codec.chartDataUrl request.chart).map some
  let body := codec.requestBody payloadText imageUrl
  require (body.utf8ByteSize ≤ options.maxRequestBytes.getD 5600000) (failed "AI_REQUEST_OVERSIZED")
  let configured := options.timeoutMs.getD 30000
  match request.timeoutMs.getD (.safeInteger configured) with
  | .safeInteger ms =>
    require (1000 ≤ ms ∧ ms ≤ configured) (failed "AI_REQUEST_DEADLINE_INVALID")
    return (body, ms)
  | .other => .error (failed "AI_REQUEST_DEADLINE_INVALID")

/-- The envelope of a response of the model that was asked for, and its telemetry. -/
def readEnvelope (requestBody : String) (body : R) : Except (Failure M) (V × M) := do
  let text ← codec.responseText body
  let envelope ← codec.envelope text
  require (options.requireReturnedModelMatch = some false ∨
      returnedModelMatches options.model (codec.returnedModel envelope))
    (failed "AI_RETURNED_MODEL_MISMATCH")
  let telemetry ← codec.telemetry envelope requestBody.utf8ByteSize text.utf8ByteSize
  return (envelope, telemetry)

/-- The proposal in a raw response, if it is accepted and answers the request. -/
def validated (request : AiAnalysisRequest P C) (raw : String) : Except (Failure M) T := do
  let verdict ← codec.parse raw request
  match verdict.accepted, verdict.response with
  | true, some response =>
    require (codec.analysisId response = request.analysisId ∧ codec.symbol response = request.symbol)
      (failed "AI_RESPONSE_REQUEST_IDENTITY_MISMATCH")
    return response
  | _, _ => .error (failed (verdict.reasonCodes.headD "AI_RESPONSE_INVALID"))

/-- Failures after the telemetry carry it, and what has been read of the proposal. -/
def readResponse (request : AiAnalysisRequest P C) (requestBody : String) (body : R) :
    Except (Failure M) (T × String × M) := do
  let (envelope, telemetry) ← readEnvelope options codec requestBody body
  match codec.extract envelope with
  | .error failure => .error (providerFailure failure.message telemetry none)
  | .ok raw =>
    match validated codec request raw with
    | .error failure => .error (providerFailure failure.message telemetry (some raw))
    | .ok response => .ok (response, raw, telemetry)

/-! ### The client -/

/-- The call that is being served; no step reads how many requests it has `sent`. -/
structure Flight (P C : Type) where
  request : AiAnalysisRequest P C
  body : String
  started : ℤ
  timeoutMs : ℤ
  attempt : ℕ
  sent : ℕ

/-- What the client waits for. -/
inductive Phase (P C : Type) where
  | idle
  | gate (flight : Flight P C)
  | provider (flight : Flight P C)

structure Client (P C : Type) where
  failureCount : ℕ
  openUntil : ℤ
  phase : Phase P C

def Client.new : Client P C := ⟨0, 0, .idle⟩

def Client.circuitOpen (client : Client P C) (now : ℤ) : Bool := client.openUntil > now

/-- Calls, answers of the gate and of the provider, each with what the clock reads while the client
    works on it, in the order of the readings. -/
inductive Event (P C R M : Type) where
  | analyze (request : AiAnalysisRequest P C) (checkedAt startedAt : ℤ)
  | gateAnswers (answer : Except (Failure M) Unit) (readAt endedAt : ℤ)
  | providerAnswers (reply : Reply R M) (endedAt : ℤ)

def Event.readings : Event P C R M → List ℤ
  | .analyze _ checkedAt startedAt => [checkedAt, startedAt]
  | .gateAnswers _ readAt endedAt => [readAt, endedAt]
  | .providerAnswers _ endedAt => [endedAt]

/-- What leaves the client: a request to the provider, with the time that remains for it, and the end
    of a call that has sent so many requests. -/
inductive Output (M T : Type) where
  | sent (clock remainingMs : ℤ)
  | finished (requests : ℕ) (result : Except (Failure M) (AiAnalysisResult M T))

def recordFailure (client : Client P C) (now : ℤ) : Client P C :=
  { client with
    failureCount := client.failureCount + 1
    openUntil := if client.failureCount + 1 ≥ options.breakerFailures then now + options.breakerResetMs
      else client.openUntil }

/-- The next attempt starts at the gate. -/
def again (client : Client P C) (flight : Flight P C) : Client P C × List (Output M T) :=
  ({ client with phase := .gate { flight with attempt := flight.attempt + 1 } }, [])

/-- An error inside an attempt: a timeout or a broken transport is tried again, anything else is a
    failure of the call. -/
def caught (client : Client P C) (flight : Flight P C) (failure : Failure M) (endedAt : ℤ) :
    Client P C × List (Output M T) :=
  if flight.attempt < options.retries ∧ (failure.name = .timeoutError ∨ failure.name = .typeError) then
    again client flight
  else
    ({ recordFailure options client endedAt with phase := .idle },
      [.finished flight.sent (.error failure)])

/-- A call: refused while another one is served, while the circuit is open or when its request is
    invalid. -/
def analyze (client : Client P C) (request : AiAnalysisRequest P C) (checkedAt startedAt : ℤ) :
    Client P C × List (Output M T) :=
  match client.phase with
  | .idle =>
    if client.circuitOpen checkedAt then (client, [.finished 0 (.error (failed "AI_CIRCUIT_OPEN"))])
    else
      match prepare options codec request with
      | .error failure => (client, [.finished 0 (.error failure)])
      | .ok (body, timeoutMs) =>
        ({ client with
          phase := .gate { request, body, started := startedAt, timeoutMs, attempt := 0, sent := 0 } }, [])
  | _ => (client, [.finished 0 (.error (failed "AI_REQUEST_ALREADY_IN_FLIGHT"))])

/-- The gate stands outside the guarded block: what it throws ends the call. -/
def gateAnswers (client : Client P C) (flight : Flight P C) (answer : Except (Failure M) Unit)
    (readAt endedAt : ℤ) : Client P C × List (Output M T) :=
  match answer with
  | .error failure => ({ client with phase := .idle }, [.finished flight.sent (.error failure)])
  | .ok () =>
    let remainingTimeoutMs := flight.timeoutMs - (readAt - flight.started)
    if remainingTimeoutMs < 1000 then
      caught options client flight (failed "AI_REQUEST_DEADLINE_EXHAUSTED") endedAt
    else
      ({ client with phase := .provider { flight with sent := flight.sent + 1 } },
        [.sent readAt remainingTimeoutMs])

def providerAnswers (client : Client P C) (flight : Flight P C) (reply : Reply R M) (endedAt : ℤ) :
    Client P C × List (Output M T) :=
  match reply with
  | .thrown failure => caught options client flight (failure.getD (failed "AI_REQUEST_FAILED")) endedAt
  | .response status body =>
    if ¬ (200 ≤ status ∧ status ≤ 299) then
      if flight.attempt < options.retries ∧ retryableStatus status then again client flight
      else caught options client flight (failed ("AI_HTTP_ERROR:" ++ toString status)) endedAt
    else
      match readResponse options codec flight.request flight.body body with
      | .error failure => caught options client flight failure endedAt
      | .ok (response, rawResponse, telemetry) =>
        ({ failureCount := 0, openUntil := 0, phase := .idle }, [.finished flight.sent (.ok
          { response
            rawResponse
            latencyMs := endedAt - flight.started
            retryCount := flight.attempt
            model := options.model
            telemetry })])

/-- A step; answers that nobody waits for change nothing. -/
def step (client : Client P C) (event : Event P C R M) : Client P C × List (Output M T) :=
  match event, client.phase with
  | .analyze request checkedAt startedAt, _ => analyze options codec client request checkedAt startedAt
  | .gateAnswers answer readAt endedAt, .gate flight =>
    gateAnswers options client flight answer readAt endedAt
  | .providerAnswers reply endedAt, .provider flight =>
    providerAnswers options codec client flight reply endedAt
  | _, _ => (client, [])

def next (client : Client P C) (event : Event P C R M) : Client P C :=
  (step options codec client event).1

end ScalpingBot.Ai
