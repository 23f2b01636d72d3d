import ScalpingBot.Evidence.Summary
import ScalpingBot.Library.Transition

/-! The collector of operational evidence in scripts/observe-operational-evidence.ts: one process at a
    time, under a lock, appends samples to the journal. It may die at any moment, also within a line,
    and a later process resumes from the two files that it finds. -/

namespace ScalpingBot.Evidence

open Json (Text units byteLength)
open HashChain (Link Chain)

/-- `new Date(t).toISOString()`. -/
structure Clock (P : Platform) where
  iso : ℤ → Text
  parse_iso : ∀ t, P.isDatetime (iso t) = true → P.parseDate (iso t) = t

variable {P : Platform} {C : Clock P}

/-! ### Registration and samples -/

/-- `registration`, for hours that are an integer. -/
def registration (P : Platform) (C : Clock P) (version : Text) (hours : ℤ) (startedAt : Text) :
    Except String Registration :=
  if version = units release ∧ 1 ≤ hours ∧ hours ≤ 168 then
    match decodeRegistration P (encodeRegistration
      ⟨startedAt, C.iso (P.parseDate startedAt + hours * 3_600_000)⟩) with
    | some header => .ok header
    | none => .error "ZodError"
  else .error "OPERATIONAL_ARGUMENTS_INVALID"

/-- The members of an object, of a schema that is not strict. -/
def loose : Json → Option (List (Text × Json))
  | .object ms => some ms
  | _ => none

inductive Observation where
  | unavailable (reasons : List Text)
  | status (startupReady operationalReady tradingEnabled : Bool) (releaseClosedTrades : ℕ)
      (reasons : List Text)

def decodeIdentity (version : String) (v : Json) : Option Unit := do
  let ms ← loose v
  literal "demo" (← field ms "mode")
  literal version (← field ms "strategyVersion")

/-- `statusSchema`; the result is without the setup, which no sample reads. -/
def decodeStatus (P : Platform) (v : Json) : Option Observation := do
  let ms ← loose v
  literal "demo" (← field ms "mode")
  let _ ← decodeText (fun _ => true) (← field ms "strategyVersion")
  let startupReady ← decodeBool (← field ms "startupChecksPassed")
  let operationalReady ← decodeBool (← field ms "operationalReady")
  let tradingEnabled ← decodeBool (← field ms "tradingEnabled")
  let campaign ← loose (← field ms "automaticDemoTradeCampaign")
  let closed ← decodeNat P maxSafe (← field campaign "releaseClosedTrades")
  let setup ← loose (← field ms "managedSetup")
  let _ ← decodeText isReason (← field setup "status")
  let reasons ← match (← field ms "reasonCodes") with
    | .array vs => vs.mapM (decodeText isReason)
    | _ => none
  some (.status startupReady operationalReady tradingEnabled closed
    (reasons.dedup.mergeSort fun a b => decide (a ≤ b)))

/-- `observation`. -/
def observation (P : Platform) (v : Json) (version : String) : Observation :=
  match decodeIdentity version v with
  | none => .unavailable [units "OBSERVATION_IDENTITY_MISMATCH"]
  | some _ =>
    match decodeStatus P v with
    | none => .unavailable [units "OBSERVATION_STATUS_INVALID"]
    | some status => status

inductive SessionReason where | closed | unavailable
  deriving DecidableEq

structure MarketSession where
  state : Session
  checkedAt : Text
  scheduleFetchedAt : Option Text
  reasonCode : Option SessionReason

def decodeSessionReason : Json → Option SessionReason
  | .string t =>
    if t = units "MARKET_SESSION_CLOSED" then some .closed
    else if t = units "MARKET_SESSION_UNAVAILABLE" then some .unavailable
    else none
  | _ => none

/-- The market session of a status. -/
def decodeMarketSession (P : Platform) (v : Json) : Option MarketSession := do
  let ms ← loose v
  let session ← strict ["state", "checkedAt", "scheduleFetchedAt", "reasonCode"]
    (← field ms "marketSession")
  let state ← decodeSession (← field session "state")
  let checkedAt ← decodeText P.isDatetime (← field session "checkedAt")
  let fetchedAt ← decodeNullable (decodeText P.isDatetime) (← field session "scheduleFetchedAt")
  let reasonCode ← decodeNullable decodeSessionReason (← field session "reasonCode")
  some ⟨state, checkedAt, fetchedAt, reasonCode⟩

/-- `fresh`, of a status that is available. -/
def fresh (P : Platform) (sampledAt : Text) (s : MarketSession) : Bool :=
  let now := P.parseDate sampledAt
  let checked := P.parseDate s.checkedAt
  match s.scheduleFetchedAt with
  | none => false
  | some fetchedAt =>
    let fetched := P.parseDate fetchedAt
    checked ≤ now && now - checked ≤ 10_000 && fetched ≤ checked && now - fetched < 30_000 &&
      ((s.state = .opened && s.reasonCode = none) ||
        (s.state = .closed && s.reasonCode = some .closed))

/-- What `evidenceSample` passes to the schema. -/
def sampleFields (P : Platform) (base : Observation) (session : Option MarketSession)
    (sampledAt : Text) : EvidenceSample :=
  let checkedAt := session.map MarketSession.checkedAt
  let fetchedAt := session.bind MarketSession.scheduleFetchedAt
  match base with
  | .unavailable reasons => ⟨sampledAt, false, none, none, none, none, reasons, .unavailable,
      checkedAt, fetchedAt⟩
  | .status startupReady operationalReady tradingEnabled closed reasons =>
    let state := match session with
      | some s => if fresh P sampledAt s then s.state else .unavailable
      | none => .unavailable
    ⟨sampledAt, true, some startupReady, some operationalReady, some tradingEnabled, some closed,
      reasons, state, checkedAt, fetchedAt⟩

/-- `evidenceSample`. -/
def evidenceSample (P : Platform) (input : Json) (version : String) (sampledAt : Text) :
    Except String EvidenceSample :=
  let base := match input with
    | .null => .unavailable [units "OBSERVATION_STATUS_UNAVAILABLE"]
    | _ => observation P input version
  match decodeSample P (encodeSample (sampleFields P base (decodeMarketSession P input) sampledAt)) with
  | some s => .ok s
  | none => .error "ZodError"

/-! ### The process -/

/-- The files with the registration alone and with the journal. -/
structure Disk where
  anchor : Option Text
  journal : Option Text

/-- Where a process stands; the write that it makes next is not made yet. -/
inductive Stage where
  | idle
  /-- the registration is to be written -/
  | anchoring (header : Registration) (first : EvidenceRecord)
  /-- the journal is to be created -/
  | creating (header : Registration) (first : EvidenceRecord)
  /-- the first line is to be written -/
  | opening (header : Registration) (first : EvidenceRecord)
  /-- the head of the loop -/
  | waiting (header : Registration) (records : List EvidenceRecord)
  /-- the status has been read before the deadline -/
  | polled (header : Registration) (records : List EvidenceRecord)
  /-- a line is to be written -/
  | appending (header : Registration) (records : List EvidenceRecord) (record : EvidenceRecord)

structure Collector where
  disk : Disk
  stage : Stage

inductive Event where
  /-- a process is started with a release and hours, at an instant -/
  | start (version : Text) (hours now : ℤ)
  /-- the clock is read at the head of the loop and after the status has been read -/
  | poll (before after : ℤ)
  | stop
  /-- the clock is read for a sample with this status -/
  | sample (input : Json) (now : ℤ)
  /-- the next write is made -/
  | write
  /-- the process dies after so much of its next write -/
  | crash (progress : ℕ)

/-- `verifyRegistrationFile`. -/
def verifyRegistrationFile (P : Platform) (anchor : Option Text) (records : List EvidenceRecord) :
    Except String Unit :=
  match anchor with
  | none => .error "ENOENT"
  | some content => do
    require (byteLength content ≤ 8192) "OPERATIONAL_REGISTRATION_INVALID"
    let registered ← verifyJournal P content
    require (registered.length = 1 ∧
      registered.head?.map Link.digest = records.head?.map Link.digest)
      "OPERATIONAL_REGISTRATION_CHANGED"

/-- What a process does with the files that it finds. -/
def begin (P : Platform) (C : Clock P) (disk : Disk) (version : Text) (hours now : ℤ) :
    Except String Stage := do
  let initial ← registration P C version hours (C.iso now)
  match disk.journal with
  | some content => do
    let records ← verifyJournal P content
    match records.head?.map Link.payload with
    | some (.registration header) => do
      require (P.parseDate header.deadline - P.parseDate header.startedAt = hours * 3_600_000)
        "OPERATIONAL_RESUME_IDENTITY_INVALID"
      verifyRegistrationFile P disk.anchor records
      return .waiting header records
    | _ => .error "OPERATIONAL_RESUME_IDENTITY_INVALID"
  | none => do
    require (disk.anchor = none) "OPERATIONAL_JOURNAL_MISSING"
    let first ← chainRecord P (.registration initial) none
    return .anchoring initial first

/-- The record of a sample, if the loop writes it to a journal of this size. -/
def nextRecord (P : Platform) (C : Clock P) (header : Registration) (records : List EvidenceRecord)
    (size : ℕ) (input : Json) (now : ℤ) : Except String EvidenceRecord := do
  require (records.length ≤ maxSamples) "OPERATIONAL_JOURNAL_TOO_LARGE"
  let sample ← evidenceSample P input release (C.iso now)
  let record ← chainRecord P (.sample sample) records.getLast?
  let lastAt := ((records.getLast?.bind sampleOf).map EvidenceSample.sampledAt).getD header.startedAt
  require (P.parseDate lastAt ≤ time P sample) "OPERATIONAL_CLOCK_INVALID"
  let previousCount := ((records.filterMap sampleOf).filterMap EvidenceSample.closedTrades).getLast?
  require (countable sample.closedTrades previousCount) "OPERATIONAL_COUNTER_REGRESSED"
  require (size + byteLength (line record ++ [10]) ≤ maxJournalBytes) "OPERATIONAL_JOURNAL_TOO_LARGE"
  return record

def Disk.append (d : Disk) (t : Text) : Disk := { d with journal := d.journal.map (· ++ t) }

/-- The next write, and where the process stands after it. -/
def write (P : Platform) (d : Disk) : Stage → Option Collector
  | .anchoring header first =>
    some ⟨{ d with anchor := some (line first ++ [10]) }, .creating header first⟩
  | .creating header first => some ⟨{ d with journal := some [] }, .opening header first⟩
  | .opening header first => some ⟨d.append (line first ++ [10]),
      match verifyRegistrationFile P d.anchor [first] with
      | .ok _ => .waiting header [first]
      | .error _ => .idle⟩
  | .appending header records record =>
    some ⟨d.append (line record ++ [10]), .waiting header (records ++ [record])⟩
  | _ => none

/-- The files when a process dies after so much of its next write. -/
def torn (d : Disk) (progress : ℕ) : Stage → Disk
  | .anchoring _ first =>
    match progress with
    | 0 => d
    | n + 1 => { d with anchor := some ((line first ++ [10]).take n) }
  | .creating _ _ =>
    match progress with
    | 0 => d
    | _ + 1 => { d with journal := some [] }
  | .opening _ first => d.append ((line first ++ [10]).take progress)
  | .appending _ _ record => d.append ((line record ++ [10]).take progress)
  | _ => d

def isIdle : Stage → Bool
  | .idle => true
  | _ => false

def step (P : Platform) (C : Clock P) (c : Collector) (e : Event) : Option Collector :=
  match e with
  | .start version hours now =>
    if isIdle c.stage then
      match begin P C c.disk version hours now with
      | .ok stage => some ⟨c.disk, stage⟩
      | .error _ => some c
    else none
  | .poll before after =>
    match c.stage with
    | .waiting header records =>
      if before < P.parseDate header.deadline ∧ after < P.parseDate header.deadline then
        some ⟨c.disk, .polled header records⟩
      else some ⟨c.disk, .idle⟩
    | _ => none
  | .stop =>
    match c.stage with
    | .waiting _ _ => some ⟨c.disk, .idle⟩
    | _ => none
  | .sample input now =>
    match c.stage with
    | .polled header records =>
      match nextRecord P C header records (c.disk.journal.elim 0 byteLength) input now with
      | .ok record => some ⟨c.disk, .appending header records record⟩
      | .error _ => some ⟨c.disk, .idle⟩
    | _ => none
  | .write => write P c.disk c.stage
  | .crash progress => if isIdle c.stage then none else some ⟨torn c.disk progress c.stage, .idle⟩

def nothing : Collector := ⟨⟨none, none⟩, .idle⟩

end ScalpingBot.Evidence
