import ScalpingBot.Library.Checked
import ScalpingBot.Library.HashChain
import ScalpingBot.Library.JsonText

/-! The journal of operational evidence in packages/evaluation/src/operational-evidence.ts: JSON lines,
    each with the digest of its content and of the line before it. -/

namespace ScalpingBot.Evidence

open Json (Text RepeatsKey folded byteLength units)
open HashChain (Link Body)

def maxJournalBytes : ℕ := 32 * 1024 * 1024

def maxSamples : ℕ := 40321

def cadenceMs : ℕ := 15000

/-! ### Records -/

/-- `registrationSchema`, without the fields that are literals. -/
structure Registration where
  startedAt : Text
  deadline : Text
  deriving DecidableEq

inductive Session where | opened | closed | unavailable
  deriving DecidableEq

/-- `sampleSchema`. -/
structure EvidenceSample where
  /-- `at` -/
  sampledAt : Text
  available : Bool
  startupReady : Option Bool
  operationalReady : Option Bool
  tradingEnabled : Option Bool
  closedTrades : Option ℕ
  reasons : List Text
  session : Session
  sessionCheckedAt : Option Text
  scheduleFetchedAt : Option Text
  deriving DecidableEq

inductive Payload where
  | registration (r : Registration)
  | sample (s : EvidenceSample)
  deriving DecidableEq

/-- `recordSchema`. -/
abbrev EvidenceRecord := Link Payload Text

/-- The largest safe integer. -/
def maxSafe : ℕ := 9_007_199_254_740_991

/-- `/^[a-f0-9]{64}$/`. -/
def isSha256 (t : Text) : Bool :=
  t.length = 64 && t.all fun c => Json.isDigit c || (97 ≤ c && c ≤ 102)

/-- `/^[A-Z][A-Z0-9_]{0,95}$/`. -/
def isReason (t : Text) : Bool :=
  match t with
  | [] => false
  | c :: t => (65 ≤ c && c ≤ 90) && t.length ≤ 95 &&
      t.all fun c => (65 ≤ c && c ≤ 90) || Json.isDigit c || c == 95

/-- What the journal takes from its platform. -/
structure Platform where
  /-- the literal of `z.number().int().nonnegative()`, none where it refuses the number -/
  number : Json.Number → Option ℕ
  number_ofNat : ∀ n, number (.ofNat n) = if n ≤ maxSafe then some n else none
  /-- `z.iso.datetime()` -/
  isDatetime : Text → Bool
  /-- `Date.parse` of such a text -/
  parseDate : Text → ℤ
  /-- the hexadecimal SHA-256 digest of a text -/
  sha256 : Text → Text

/-! ### Records as JSON -/

def text (s : String) : Json := .string (units s)

def natural (n : ℕ) : Json := .number (.ofNat n)

def nullable {α : Type} (f : α → Json) : Option α → Json
  | none => .null
  | some a => f a

/-- An object with these members. -/
def object (members : List (String × Json)) : Json :=
  .object (members.map fun m => (units m.1, m.2))

def release : String := "0.3.0-fade-limit.3"

def encodeRegistration (r : Registration) : Json :=
  object [("kind", text "REGISTRATION"), ("version", text "operational-evidence-1.0"),
    ("mode", text "demo"), ("release", text release), ("startedAt", .string r.startedAt),
    ("deadline", .string r.deadline), ("cadenceMs", natural cadenceMs)]

def Session.text : Session → String
  | .opened => "OPEN"
  | .closed => "CLOSED"
  | .unavailable => "UNAVAILABLE"

def sampleMembers (s : EvidenceSample) : List (String × Json) :=
  [("kind", text "SAMPLE"), ("at", .string s.sampledAt), ("available", .bool s.available),
    ("startupReady", nullable .bool s.startupReady),
    ("operationalReady", nullable .bool s.operationalReady),
    ("tradingEnabled", nullable .bool s.tradingEnabled),
    ("closedTrades", nullable natural s.closedTrades),
    ("reasons", .array (s.reasons.map .string)), ("session", text s.session.text),
    ("sessionCheckedAt", nullable .string s.sessionCheckedAt),
    ("scheduleFetchedAt", nullable .string s.scheduleFetchedAt)]

def encodeSample (s : EvidenceSample) : Json := object (sampleMembers s)

def encodePayload : Payload → Json
  | .registration r => encodeRegistration r
  | .sample s => encodeSample s

def encodeBody (b : Body Payload Text) : Json :=
  object [("sequence", natural b.1), ("previousSha256", nullable .string b.2.1),
    ("payload", encodePayload b.2.2)]

def encodeRecord (r : EvidenceRecord) : Json :=
  object [("sequence", natural r.sequence), ("previousSha256", nullable .string r.previous),
    ("payload", encodePayload r.payload), ("sha256", .string r.digest)]

/-! ### The schemas -/

/-- `z.object(...).strict()`: an object without other members than these. -/
def strict (keys : List String) : Json → Option (List (Text × Json))
  | .object ms => if ms.all fun m => keys.any (units · = m.1) then some ms else none
  | _ => none

def field (ms : List (Text × Json)) (key : String) : Option Json :=
  (ms.find? (·.1 = units key)).map Prod.snd

/-- `z.literal` of a text. -/
def literal (s : String) : Json → Option Unit
  | .string t => if t = units s then some () else none
  | _ => none

def decodeText (check : Text → Bool) : Json → Option Text
  | .string t => if check t then some t else none
  | _ => none

def decodeBool : Json → Option Bool
  | .bool b => some b
  | _ => none

def decodeNat (P : Platform) (max : ℕ) : Json → Option ℕ
  | .number n => (P.number n).filter (· ≤ max)
  | _ => none

def decodeNullable {α : Type} (decode : Json → Option α) : Json → Option (Option α)
  | .null => some none
  | v => (decode v).map some

def decodeReasons : Json → Option (List Text)
  | .array vs => if vs.length ≤ 128 then vs.mapM (decodeText isReason) else none
  | _ => none

def decodeSession : Json → Option Session
  | .string t =>
    if t = units "OPEN" then some .opened
    else if t = units "CLOSED" then some .closed
    else if t = units "UNAVAILABLE" then some .unavailable
    else none
  | _ => none

def decodeRegistration (P : Platform) (v : Json) : Option Registration := do
  let ms ← strict ["kind", "version", "mode", "release", "startedAt", "deadline", "cadenceMs"] v
  literal "REGISTRATION" (← field ms "kind")
  literal "operational-evidence-1.0" (← field ms "version")
  literal "demo" (← field ms "mode")
  literal release (← field ms "release")
  let startedAt ← decodeText P.isDatetime (← field ms "startedAt")
  let deadline ← decodeText P.isDatetime (← field ms "deadline")
  let cadence ← decodeNat P maxSafe (← field ms "cadenceMs")
  if cadence = cadenceMs then some ⟨startedAt, deadline⟩ else none

def decodeSample (P : Platform) (v : Json) : Option EvidenceSample := do
  let ms ← strict ["kind", "at", "available", "startupReady", "operationalReady", "tradingEnabled",
    "closedTrades", "reasons", "session", "sessionCheckedAt", "scheduleFetchedAt"] v
  literal "SAMPLE" (← field ms "kind")
  let sampledAt ← decodeText P.isDatetime (← field ms "at")
  let available ← decodeBool (← field ms "available")
  let startupReady ← decodeNullable decodeBool (← field ms "startupReady")
  let operationalReady ← decodeNullable decodeBool (← field ms "operationalReady")
  let tradingEnabled ← decodeNullable decodeBool (← field ms "tradingEnabled")
  let closedTrades ← decodeNullable (decodeNat P maxSafe) (← field ms "closedTrades")
  let reasons ← decodeReasons (← field ms "reasons")
  let session ← decodeSession (← field ms "session")
  let sessionCheckedAt ←
    decodeNullable (decodeText P.isDatetime) (← field ms "sessionCheckedAt")
  let scheduleFetchedAt ←
    decodeNullable (decodeText P.isDatetime) (← field ms "scheduleFetchedAt")
  some ⟨sampledAt, available, startupReady, operationalReady, tradingEnabled, closedTrades, reasons,
    session, sessionCheckedAt, scheduleFetchedAt⟩

/-- `z.union([registrationSchema, sampleSchema])`. -/
def decodePayload (P : Platform) (v : Json) : Option Payload :=
  match decodeRegistration P v with
  | some r => some (.registration r)
  | none => (decodeSample P v).map .sample

/-- `recordSchema.parse`. -/
def decodeRecord (P : Platform) (v : Json) : Option EvidenceRecord := do
  let ms ← strict ["sequence", "previousSha256", "payload", "sha256"] v
  let sequence ← decodeNat P maxSamples (← field ms "sequence")
  let previous ← decodeNullable (decodeText isSha256) (← field ms "previousSha256")
  let payload ← decodePayload P (← field ms "payload")
  let sha256 ← decodeText isSha256 (← field ms "sha256")
  some ⟨sequence, previous, payload, sha256⟩

/-! ### The journal -/

def line (r : EvidenceRecord) : Text := Json.write (encodeRecord r)

/-- `digest`. -/
def digest (P : Platform) (b : Body Payload Text) : Text := P.sha256 (Json.write (encodeBody b))

/-- `chainRecord`. -/
def chainRecord (P : Platform) (payload : Payload) (previous : Option EvidenceRecord) :
    Except String EvidenceRecord :=
  match decodeRecord P (encodeRecord (HashChain.next (digest P) previous payload)) with
  | some r => .ok r
  | none => .error "ZodError"

/-- The lines of a journal. -/
def serialize (records : List EvidenceRecord) : Text := records.flatMap fun r => line r ++ [10]

def decodeLine (P : Platform) (l : Text) : Except String EvidenceRecord :=
  match Json.parse l with
  | none => .error "SyntaxError"
  | some v =>
    match decodeRecord P (folded v) with
    | some r => .ok r
    | none => .error "ZodError"

/-- The window of a registration. -/
def isWindow (P : Platform) (header : Registration) : Bool :=
  let duration := P.parseDate header.deadline - P.parseDate header.startedAt
  3_600_000 ≤ duration ∧ duration ≤ 168 * 3_600_000 ∧ duration % 3_600_000 = 0

/-- The counter of closed trades does not fall. -/
def countable (closedTrades maxClosed : Option ℕ) : Bool :=
  match closedTrades, maxClosed with
  | some closed, some most => most ≤ closed
  | _, _ => true

/-- One turn of the loop of `verifyJournal`: the instant and the counter for the next. -/
def verifyRecord (P : Platform) (deadline : ℤ) (previous : Option EvidenceRecord) (start : ℤ)
    (maxClosed : Option ℕ) (record : EvidenceRecord) : Except String (ℤ × Option ℕ) := do
  let expected ← chainRecord P record.payload previous
  require (line expected = line record) "OPERATIONAL_INTEGRITY_INVALID"
  if previous.isNone then return (start, maxClosed)
  else
    match record.payload with
    | .registration _ => .error "OPERATIONAL_REGISTRATION_INVALID"
    | .sample s => do
      let time := P.parseDate s.sampledAt
      require (start ≤ time ∧ time < deadline) "OPERATIONAL_CLOCK_INVALID"
      require (countable s.closedTrades maxClosed) "OPERATIONAL_COUNTER_REGRESSED"
      return (time, s.closedTrades <|> maxClosed)

/-- The loop of `verifyJournal`. -/
def verifyRecords (P : Platform) (deadline : ℤ) :
    Option EvidenceRecord → ℤ → Option ℕ → List EvidenceRecord → Except String Unit
  | _, _, _, [] => .ok ()
  | previous, start, maxClosed, record :: rest => do
    let (start, maxClosed) ← verifyRecord P deadline previous start maxClosed record
    verifyRecords P deadline (some record) start maxClosed rest

/-- `verifyJournal`. -/
def verifyJournal (P : Platform) (content : Text) : Except String (List EvidenceRecord) := do
  require (byteLength content ≤ maxJournalBytes) "OPERATIONAL_JOURNAL_TOO_LARGE"
  require (content.getLast? = some 10) "OPERATIONAL_JOURNAL_INCOMPLETE"
  let lines := content.dropLast.splitOn 10
  require (lines.length ≤ maxSamples + 1) "OPERATIONAL_JOURNAL_TOO_LARGE"
  let records ← lines.mapM (decodeLine P)
  match records.head?.map Link.payload with
  | some (.registration header) => do
    require (isWindow P header) "OPERATIONAL_REGISTRATION_INVALID"
    verifyRecords P (P.parseDate header.deadline) none (P.parseDate header.startedAt) none records
    return records
  | _ => .error "OPERATIONAL_REGISTRATION_INVALID"

end ScalpingBot.Evidence
