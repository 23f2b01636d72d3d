import Mathlib.Data.Int.Notation
import Mathlib.Data.Nat.Notation
import ScalpingBot.Library.Checked
import ScalpingBot.Library.Transition

/-! `DemoTrials` (apps/execution-service/src/demo-trials.ts) with the tables of its trials and the
    guard of migration 0042. Each of the two transactions of a tick holds the advisory lock of the
    scope; between them the controller asks the broker, and any other controller may run. -/

namespace ScalpingBot.Trials

/-! ### The clock -/

inductive TrialSessionState where | open | closed | unavailable
  deriving DecidableEq

/-- `getTime` of a timestamp in microseconds. -/
def getTime (timestamp : ℕ) : ℕ := timestamp / 1000

/-- `trialOpenCredit`, in milliseconds. -/
def trialOpenCredit (previous now start : ℕ) (bothOpen : Bool) : ℕ :=
  let delta : ℤ := now - (max previous start : ℕ)
  if bothOpen ∧ 0 < delta ∧ (now : ℤ) - previous ≤ 30000 then delta.toNat else 0

inductive ReceiptReason where
  | controllerResumed | observationGap | sessionUnavailableStarted | sessionUnavailableEnded
  deriving DecidableEq

structure ClockReceipt where
  fromTime : ℕ
  untilTime : ℕ
  reason : ReceiptReason
  sessionState : TrialSessionState
  creditedMilliseconds : ℕ
  deriving DecidableEq

/-- `trialClockReceipt`. -/
def trialClockReceipt (previous current : ℕ) (priorSession session : TrialSessionState)
    (resumed : Bool) (unavailableSince : Option ℕ) : Option ClockReceipt :=
  let reason :=
    if resumed then some ReceiptReason.controllerResumed
    else if 30000 < (getTime current : ℤ) - getTime previous then some .observationGap
    else if session = .unavailable ∧ priorSession ≠ .unavailable then
      some .sessionUnavailableStarted
    else if session ≠ .unavailable ∧ priorSession = .unavailable then some .sessionUnavailableEnded
    else none
  reason.map fun reason => {
    fromTime := getTime (if priorSession = .unavailable ∧ session ≠ .unavailable then
      unavailableSince.getD previous else previous)
    untilTime := getTime current
    reason := reason
    sessionState := session
    creditedMilliseconds := 0 }

/-- A receipt is true to what it says: no such observation is credited. -/
theorem receipt_uncredited {previous current start : ℕ} {priorSession session : TrialSessionState}
    {resumed active : Bool} {unavailableSince : Option ℕ} {receipt : ClockReceipt}
    (h : trialClockReceipt previous current priorSession session resumed unavailableSince =
      some receipt) :
    trialOpenCredit (getTime previous) (getTime current) start
      (!resumed && active && session = .open && priorSession = .open) =
        receipt.creditedMilliseconds := by
  obtain ⟨reason, hreason, rfl⟩ := Option.map_eq_some_iff.mp h
  refine if_neg ?_
  rintro ⟨hopen, -, hgap⟩
  simp only [Bool.and_eq_true, Bool.not_eq_true', decide_eq_true_eq] at hopen
  obtain ⟨⟨⟨hresumed, -⟩, rfl⟩, rfl⟩ := hopen
  rw [hresumed, if_neg Bool.false_ne_true, if_neg (by omega)] at hreason
  simp at hreason

/-! ### Slots -/

def demoTrialStrategyVersion : String := "0.10.0-demo-trials.1-codex.1"

def trendRetestVersion : String := "0.11.0-trend-retest.1-codex.1"

def trendPredecessorSource : String :=
  "39588e8734f9f0b3d952ffeec2f7f1906417bd8e7b66824cc220e73e8e21848b"

def trendClockPredecessorSource : String :=
  "de2eead48727bcd55815648f0952c7353ef58380b3083f569add66a0ebeda143"

/-- The digests of the two catalogues, as the migrations register them. -/
def catalogueSha256 : String := "0ff4268fcfe1c73e9c2dcc87ce461c9029e80bd4404194aabcfc2f9022da9e8f"

def trendCatalogueSha256 : String :=
  "287a992ca3bdba0dc97d0364f0692ed5f0630194d38ca49088c572d9a2bade9f"

structure TrialProfile where
  id : String
  entryStyle : Option String
  deriving DecidableEq

def profiles : List TrialProfile :=
  [⟨"ENTRY_CODEX", none⟩, ⟨"ENTRY_RANGE_3", none⟩, ⟨"ENTRY_RANGE_5", none⟩, ⟨"TP_040", none⟩,
    ⟨"TP_060", none⟩, ⟨"SL_005", none⟩, ⟨"SL_010", none⟩, ⟨"TTL_060", none⟩, ⟨"RANGE_010", none⟩]

def trendProfiles : List TrialProfile :=
  [⟨"TREND_BREAKOUT", some "BREAKOUT"⟩, ⟨"TREND_CONFIRMED", some "CONFIRMED_BREAKOUT"⟩,
    ⟨"TREND_RETEST", some "RETEST_LIMIT"⟩]

/-- The batches of the catalogue. -/
def batches : List (String × List String) :=
  [("ENTRY", ["ENTRY_CODEX", "ENTRY_RANGE_3", "ENTRY_RANGE_5"]),
    ("TP", ["ENTRY_RANGE_5", "TP_040", "TP_060"]),
    ("SL", ["ENTRY_RANGE_5", "SL_005", "SL_010"]),
    ("TTL", ["ENTRY_RANGE_5", "TTL_060"]),
    ("RANGE", ["ENTRY_RANGE_5", "RANGE_010"])]

/-- The loop of `trialSlot` over the batches. -/
def batchSlot (cycle ordinal : ℕ) : ℕ → List (String × List String) → Option String
  | _, [] => none
  | offset, (id, names) :: rest =>
    if ordinal < offset + names.length then
      names[(ordinal - offset + if id = "ENTRY" then 1 - cycle % 2 else 1) % names.length]?
    else batchSlot cycle ordinal (offset + names.length) rest

/-- `trialSlot`. -/
def trialSlot (cycle ordinal : ℕ) : Except String String :=
  if 13 ≤ ordinal then .error "DEMO_TRIAL_SLOT_INVALID"
  else
    match batchSlot cycle ordinal 0 batches with
    | some id => .ok id
    | none => .error "DEMO_TRIAL_SLOT_INVALID"

/-- `trendTrialSlot`. -/
def trendTrialSlot (cycle ordinal : ℕ) : Except String String :=
  let sequence := if cycle % 2 = 0 then
      ["TREND_BREAKOUT", "TREND_CONFIRMED", "TREND_CONFIRMED", "TREND_RETEST"]
    else ["TREND_CONFIRMED", "TREND_BREAKOUT", "TREND_RETEST", "TREND_CONFIRMED"]
  match sequence[ordinal]? with
  | some id => .ok id
  | none => .error "DEMO_TRIAL_SLOT_INVALID"

/-- `demo_trial_profile_for_slot` of migration 0041. -/
def demoTrialProfileForSlot (cycle ordinal : ℕ) : Option String :=
  if ordinal ≤ 2 then ["ENTRY_CODEX", "ENTRY_RANGE_3", "ENTRY_RANGE_5"][(ordinal + 1 - cycle % 2) % 3]?
  else if ordinal ≤ 12 then
    ["TP_040", "TP_060", "ENTRY_RANGE_5", "SL_005", "SL_010", "ENTRY_RANGE_5", "TTL_060",
      "ENTRY_RANGE_5", "RANGE_010", "ENTRY_RANGE_5"][ordinal - 3]?
  else none

theorem batchSlot_mod (cycle ordinal offset : ℕ) (bs : List (String × List String)) :
    batchSlot (cycle % 2) ordinal offset bs = batchSlot cycle ordinal offset bs := by
  induction bs generalizing offset with
  | nil => rfl
  | cons b bs ih => simp only [batchSlot, Nat.mod_mod, ih]

/-- The controller and the guard of the table agree on every slot. -/
theorem trialSlot_eq (cycle : ℕ) {ordinal : ℕ} (h : ordinal < 13) :
    ∃ id, trialSlot cycle ordinal = .ok id ∧ demoTrialProfileForSlot cycle ordinal = some id ∧
      id ∈ profiles.map (·.id) := by
  have hall : ∀ p < 2, ∀ o < 13, ∃ id ∈ profiles.map (·.id),
      batchSlot p o 0 batches = some id ∧ demoTrialProfileForSlot p o = some id := by
    decide
  obtain ⟨id, hid, hslot, hguard⟩ := hall (cycle % 2) (Nat.mod_lt _ (by decide)) ordinal h
  refine ⟨id, ?_, ?_, hid⟩
  · rw [batchSlot_mod] at hslot
    rw [trialSlot, if_neg (by omega), hslot]
  · rw [← hguard]
    simp only [demoTrialProfileForSlot, Nat.mod_mod]

/-- `trend_trial_profile_for_slot` of migration 0042. -/
def trendTrialProfileForSlot (cycle ordinal : ℕ) : Option String :=
  (if cycle % 2 = 0 then
      ["TREND_BREAKOUT", "TREND_CONFIRMED", "TREND_CONFIRMED", "TREND_RETEST"]
    else ["TREND_CONFIRMED", "TREND_BREAKOUT", "TREND_RETEST", "TREND_CONFIRMED"])[ordinal]?

/-! ### Tables -/

inductive TrialState where | active | draining | completed
  deriving DecidableEq

/-- A row of `demo_trials` of the scope. -/
structure Trial where
  id : ℕ
  strategyVersionId : ℕ
  sourceSha256 : String
  catalogueSha256 : String
  profileId : String
  cycle : ℕ
  ordinal : ℕ
  registeredAt : ℕ
  startsAt : ℕ
  modeRevision : ℕ
  state : TrialState
  marketOpenMs : ℕ
  observedAt : ℕ
  lastSessionState : TrialSessionState
  unavailableSince : Option ℕ
  completedAt : Option ℕ
  retirementReason : Option String
  deriving DecidableEq

inductive EntryMode where | ocoStopLimit | ocoLimit | singleStopLimit | singleLimit
  deriving DecidableEq

structure ModeSetting where
  revision : ℕ
  entryMode : EntryMode
  deriving DecidableEq

/-- What controllers write to `demo_trial_events`. -/
inductive TrialEvent where
  | clockGap (receipt : ClockReceipt)
  | sourceHandoverRequested (fromSourceSha256 toSourceSha256 toStrategyVersion
      toCatalogueSha256 : String)
  deriving DecidableEq

/-- That a trial was registered, and the row of the head that it replaced. -/
structure Registration where
  replaced : Option Trial
  trial : Trial
  handover : Bool
  deriving DecidableEq

/-- The rows of one scope, with two histories that no code reads: every version of a row of
    `demo_trials`, and the registrations. -/
structure TrialTables where
  mode : Option ModeSetting
  trials : List Trial
  head : Option ℕ
  events : List (ℕ × TrialEvent)
  written : List Trial
  registrations : List Registration
  deriving DecidableEq

namespace TrialTables

variable (db : TrialTables)

/-- The trial under an id. -/
def trial (id : ℕ) : Option Trial := db.trials.find? (·.id = id)

/-- The row that the head names. -/
def headRow : Option Trial := db.head.bind db.trial

/-- What `guard_demo_trial_progress` and the columns' checks demand of an update; the time is in
    microseconds, the credit in milliseconds. -/
def guardDemoTrialProgress (canComplete : Bool) (old new : Trial) : Bool :=
  old.state ≠ .completed ∧ old.observedAt ≤ new.observedAt ∧
    (old.marketOpenMs < new.marketOpenMs → new.lastSessionState = .open ∧
      old.lastSessionState = .open ∧ new.observedAt - old.observedAt ≤ 30000000 ∧
      old.state = .active) ∧
    old.marketOpenMs ≤ new.marketOpenMs ∧
    new.marketOpenMs - old.marketOpenMs ≤
      min 30000 ((new.observedAt - old.observedAt + 999) / 1000 + 1) ∧
    (old.state = .draining → new.state ≠ .active) ∧
    (new.state = .completed → old.state = .draining ∧ canComplete) ∧
    new.marketOpenMs ≤ 3630000

/-- `UPDATE demo_trials SET … WHERE id=… AND …`. -/
def updateTrial (canComplete : Bool) (id : ℕ) (p : Trial → Bool) (f : Trial → Trial) :
    Except String TrialTables :=
  match db.trial id with
  | none => .ok db
  | some old =>
    if p old then do
      require (guardDemoTrialProgress canComplete old (f old)) "DEMO_TRIAL_PROGRESS_INVALID"
      return { db with
        trials := db.trials.map fun t => if t.id = id then f t else t
        written := db.written ++ [f old] }
    else .ok db

/-- `INSERT INTO demo_trials`, with its keys and guard. -/
def insertTrial (t : Trial) : Except String TrialTables := do
  require (db.trial t.id = none) "demo_trials_pkey"
  require (db.trials.all fun r => ¬ (r.cycle = t.cycle ∧ r.ordinal = t.ordinal))
    "demo_trials_account_id_symbol_id_mode_cycle_ordinal_key"
  require (db.trials.all (·.state = .completed)) "demo_trial_one_active"
  require (t.registeredAt < t.startsAt) "demo_trials_check"
  require (some t.profileId = if t.catalogueSha256 = trendCatalogueSha256 then
      trendTrialProfileForSlot t.cycle t.ordinal else demoTrialProfileForSlot t.cycle t.ordinal)
    "DEMO_TRIAL_FUTURE_REGISTRATION_REQUIRED"
  return { db with trials := db.trials ++ [t], written := db.written ++ [t] }

end TrialTables

/-! ### Controllers -/

/-- Lower-case hexadecimal digits, `/^[a-f0-9]{64}$/`. -/
def isSha256 (text : String) : Bool :=
  text.length = 64 ∧ text.toList.all fun c => c ∈ "abcdef0123456789".toList

/-- The scope and source of a controller that its constructor has accepted. -/
structure DemoTrials where
  strategyVersionId : ℕ
  version : String
  sourceSha256 : String
  source : isSha256 sourceSha256
  known : version = demoTrialStrategyVersion ∨ version = trendRetestVersion

namespace DemoTrials

variable (c : DemoTrials)

def trend : Bool := c.version = trendRetestVersion

def catalogueDigest : String := if c.trend then trendCatalogueSha256 else catalogueSha256

def profileList : List TrialProfile := if c.trend then trendProfiles else profiles

def slots : ℕ := if c.trend then 4 else 13

def slot (cycle ordinal : ℕ) : Except String String :=
  if c.trend then trendTrialSlot cycle ordinal else trialSlot cycle ordinal

/-- The mode in which orders of a profile are entered. -/
def modeOf (profile : TrialProfile) : EntryMode :=
  if profile.entryStyle = some "RETEST_LIMIT" then .singleLimit else .singleStopLimit

/-- A trend controller takes over from a reviewed predecessor, whose version is looked up in
    `strategy_versions`. -/
def handsOver (versionOf : ℕ → String) (row : Trial) : Bool :=
  c.trend ∧
    (versionOf row.strategyVersionId = demoTrialStrategyVersion ∧
        row.sourceSha256 = trendPredecessorSource ∧
        row.catalogueSha256 = Trials.catalogueSha256 ∨
      versionOf row.strategyVersionId = trendRetestVersion ∧
        row.sourceSha256 = trendClockPredecessorSource ∧
        row.catalogueSha256 = c.catalogueDigest ∧ row.sourceSha256 ≠ c.sourceSha256)

/-! ### The first transaction of `advance` -/

/-- What the first transaction meets: the session state fetched before it, the clock at its SELECT
    and how much later the UPDATE reads it, the closed positions of the trial, and whether the
    proof of its end is complete. -/
structure Observation where
  session : TrialSessionState
  now : ℕ
  delay : ℕ
  closes : ℕ
  canComplete : Bool

/-- What the first transaction leaves in the variables of `advance`. -/
structure Snapshot where
  row : Option Trial
  handover : Bool
  switchNeeded : Bool
  mode : ModeSetting
  deriving DecidableEq

/-- The entry mode under which the controller runs at all. -/
def modeAllowed (mode : ModeSetting) : Bool :=
  if c.trend then mode.entryMode ∈ [.singleStopLimit, .singleLimit]
  else mode.entryMode = .singleStopLimit

/-- The head belongs to this release, and its profile to the mode. -/
def sameSource (row : Trial) (mode : ModeSetting) : Bool :=
  row.sourceSha256 = c.sourceSha256 ∧ row.catalogueSha256 = c.catalogueDigest ∧
    (c.profileList.find? (·.id = row.profileId)).any (fun p => mode.entryMode = modeOf p) ∧
    row.strategyVersionId = c.strategyVersionId ∧ row.modeRevision = mode.revision

/-- The time that an observation credits. -/
def elapsed (observed : Bool) (o : Observation) (row : Trial) : ℕ :=
  trialOpenCredit (getTime row.observedAt) (getTime o.now) (getTime row.startsAt)
    (observed && row.state = .active && o.session = .open && row.lastSessionState = .open)

/-- The row after an observation. -/
def observedRow (observed : Bool) (o : Observation) (row : Trial) : Trial :=
  let total := row.marketOpenMs + elapsed observed o row
  { row with
    observedAt := o.now + o.delay
    lastSessionState := o.session
    unavailableSince :=
      if o.session = .unavailable then some (row.unavailableSince.getD row.observedAt) else none
    marketOpenMs := total
    state := if row.state ≠ .active ∨ 3600000 ≤ total ∨ 20 ≤ o.closes then .draining else .active }

/-- The receipt of an observation, among the events of its trial. -/
def receipts (observed : Bool) (o : Observation) (row : Trial) : List (ℕ × TrialEvent) :=
  match trialClockReceipt row.observedAt o.now row.lastSessionState o.session (!observed)
    row.unavailableSince with
  | some receipt => [(row.id, .clockGap receipt)]
  | none => []

/-- The first transaction. -/
def firstTransaction (versionOf : ℕ → String) (observed : Bool) (o : Observation)
    (db : TrialTables) : Except String (TrialTables × Snapshot) :=
  match db.mode with
  | none => .error "DEMO_TRIAL_MODE_INVALID"
  | some mode => do
    require (c.modeAllowed mode) "DEMO_TRIAL_MODE_INVALID"
    match db.headRow with
    | none => return (db, ⟨none, false, true, mode⟩)
    | some row =>
      if c.handsOver versionOf row then return (db, ⟨some row, true, true, mode⟩)
      else
        require (c.sameSource row mode) "DEMO_TRIAL_SOURCE_DRIFT"
        let next := observedRow observed o row
        let db ← { db with events := db.events ++ receipts observed o row }.updateTrial false row.id
          (fun _ => true) (observedRow observed o)
        return (db, {
          row := some { row with marketOpenMs := next.marketOpenMs, state := next.state }
          handover := false
          switchNeeded := next.state = .draining && o.canComplete
          mode := mode })

/-! ### The second transaction -/

/-- What the second transaction meets: open groups or unresolved events of the scope, the proof of
    the trial's end, the readings of the clock, and the random ids. -/
structure Switch where
  blocked : Bool
  canComplete : Bool
  drainedAt : ℕ
  completedAt : ℕ
  registeredAt : ℕ
  startRead : ℕ
  insertedAt : ℕ
  id : ℕ
  modeRevision : ℕ

/-- The slot that follows the head, or the first slot of the next cycle after a handover. -/
def nextSlot (s : Snapshot) : ℕ × ℕ :=
  match s.row with
  | none => (0, 0)
  | some row =>
    let ordinal := if s.handover then 0 else (row.ordinal + 1) % c.slots
    (row.cycle + if ordinal = 0 then 1 else 0, ordinal)

/-- The head of a handover is drained, whatever it has left. -/
def drain (k : Switch) (row : Trial) (db : TrialTables) : Except String TrialTables :=
  let requested := TrialEvent.sourceHandoverRequested row.sourceSha256 c.sourceSha256 c.version
    c.catalogueDigest
  TrialTables.updateTrial { db with events := db.events ++ [(row.id, requested)] } k.canComplete
    row.id (fun t => t.state = .active) fun t => {
      t with
      state := .draining
      retirementReason := some "SOURCE_HANDOVER"
      observedAt := k.drainedAt }

/-- The head is completed. -/
def complete (k : Switch) (handover : Bool) (row : Trial) (db : TrialTables) :
    Except String TrialTables :=
  db.updateTrial k.canComplete row.id (fun t => t.state = .draining) fun t => {
    t with
    state := .completed
    completedAt := some k.completedAt
    retirementReason := some (if handover then "SOURCE_HANDOVER" else "ALLOCATION_COMPLETE")
    observedAt := k.completedAt }

/-- The head of a handover is drained first. -/
def drainHead (k : Switch) (s : Snapshot) (db : TrialTables) : Except String TrialTables :=
  match s.row with
  | some row => if s.handover then c.drain k row db else .ok db
  | none => .ok db

/-- A head that was not completed when it was read is completed. -/
def completeHead (k : Switch) (s : Snapshot) (db : TrialTables) : Except String TrialTables :=
  match s.row with
  | some row => if row.state ≠ .completed then complete k s.handover row db else .ok db
  | none => .ok db

/-- The trial that is registered in a slot. -/
def newTrial (k : Switch) (profile : TrialProfile) (slot : ℕ × ℕ) (modeRevision : ℕ) : Trial where
  id := k.id
  strategyVersionId := c.strategyVersionId
  sourceSha256 := c.sourceSha256
  catalogueSha256 := c.catalogueDigest
  profileId := profile.id
  cycle := slot.1
  ordinal := slot.2
  registeredAt := k.registeredAt
  startsAt := k.startRead + 1000000
  modeRevision := modeRevision
  state := .active
  marketOpenMs := 0
  observedAt := k.insertedAt
  lastSessionState := .unavailable
  unavailableSince := some k.insertedAt
  completedAt := none
  retirementReason := none

/-- The next trial is registered and becomes the head. -/
def register (k : Switch) (s : Snapshot) (replaced : Option Trial) (mode : ModeSetting)
    (db : TrialTables) : Except String TrialTables := do
  let slot := c.nextSlot s
  let profileId ← c.slot slot.1 slot.2
  match c.profileList.find? (·.id = profileId) with
  | none => .error "TypeError"
  | some profile =>
    let revision := if c.trend then k.modeRevision else mode.revision
    let trial := c.newTrial k profile slot revision
    let db ← { db with
      mode := if c.trend then some ⟨revision, modeOf profile⟩ else db.mode }.insertTrial trial
    return { db with
      head := some trial.id
      registrations := db.registrations ++ [⟨replaced, trial, s.handover⟩] }

/-- The second transaction; `none` when it is rolled back because the head has changed, the scope is
    blocked or the proof is incomplete. -/
def secondTransaction (k : Switch) (s : Snapshot) (db : TrialTables) :
    Except String (Option TrialTables) :=
  match db.mode with
  | none => .error "DEMO_TRIAL_MODE_CHANGED"
  | some mode => do
    require (mode = s.mode) "DEMO_TRIAL_MODE_CHANGED"
    if db.head ≠ s.row.map (·.id) ∨ k.blocked ∨ s.handover ∧ s.row.isSome ∧ !k.canComplete then
      return none
    let drained ← c.drainHead k s db
    let completed ← completeHead k s drained
    let registered ← c.register k s db.headRow mode completed
    return some registered

end DemoTrials

open DemoTrials

/-! ### Ticks, restarts and what lies between -/

/-- How a transaction ends: committed, committed without an answer, or given up by some statement
    that failed for another reason. -/
inductive Ending where | committed | answerLost | failed
  deriving DecidableEq

/-- The variables of a process: the flag of the controller, and those of a tick that waits for the
    broker. -/
structure Process where
  observed : Bool
  waiting : Option Snapshot
  deriving DecidableEq

structure TrialSystem where
  db : TrialTables
  processes : ℕ → Process

/-- What happens next. -/
inductive Action where
  | restart (i : ℕ)
  | setMode (mode : Option ModeSetting)
  | sessionFails (i : ℕ)
  | observe (i : ℕ) (o : Observation) (ending : Ending)
  | proceed (i : ℕ) (safe : Option Bool) (k : Switch) (ending : Ending)

namespace TrialSystem

variable (versionOf : ℕ → String) (controllers : ℕ → DemoTrials) (s : TrialSystem)

/-- A process leaves its tick, or waits for the broker. -/
def setProcess (i : ℕ) (p : Process) : TrialSystem :=
  { s with processes := fun j => if j = i then p else s.processes j }

/-- What an error does: the flag is taken back. -/
def caught (i : ℕ) : TrialSystem := s.setProcess i ⟨false, none⟩

/-- The first part of a tick. -/
def observe (i : ℕ) (o : Observation) (ending : Ending) : TrialSystem :=
  match (controllers i).firstTransaction versionOf (s.processes i).observed o s.db with
  | .error _ => s.caught i
  | .ok (db, snapshot) =>
    match ending with
    | .failed => s.caught i
    | .answerLost => { s with db := db }.caught i
    | .committed =>
      { s with db := db }.setProcess i
        (if snapshot.switchNeeded then ⟨(s.processes i).observed, some snapshot⟩ else ⟨true, none⟩)

/-- The part of a tick after the broker's answer to `safeToSwitch`. -/
def proceed (i : ℕ) (snapshot : Snapshot) (safe : Option Bool) (k : Switch) (ending : Ending) :
    TrialSystem :=
  match safe with
  | none => s.caught i
  | some false => s.setProcess i ⟨true, none⟩
  | some true =>
    match (controllers i).secondTransaction k snapshot s.db with
    | .error _ => s.caught i
    | .ok none => s.setProcess i ⟨(s.processes i).observed, none⟩
    | .ok (some db) =>
      match ending with
      | .failed => s.caught i
      | .answerLost => { s with db := db }.caught i
      | .committed => { s with db := db }.setProcess i ⟨true, none⟩

/-- A step of the system; a process has one tick at a time. -/
def step : Action → Option TrialSystem
  | .restart i => some (s.caught i)
  | .setMode mode => some { s with db := { s.db with mode := mode } }
  | .sessionFails i => if (s.processes i).waiting.isNone then some (s.caught i) else none
  | .observe i o ending =>
    if (s.processes i).waiting.isNone then some (s.observe versionOf controllers i o ending)
    else none
  | .proceed i safe k ending =>
    (s.processes i).waiting.map fun snapshot => s.proceed controllers i snapshot safe k ending

/-- A scope without trials. -/
def initial (mode : Option ModeSetting) : TrialSystem where
  db := ⟨mode, [], none, [], [], []⟩
  processes := fun _ => ⟨false, none⟩

end TrialSystem

end ScalpingBot.Trials
