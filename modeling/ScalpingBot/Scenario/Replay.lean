import ScalpingBot.Library.Attempt
import ScalpingBot.Risk.Commission
import ScalpingBot.Scenario.Plan

/-! The replay of packages/scenario-engine/src/replay.ts. What an event wrote before it was found
    invalid stays written. -/

namespace ScalpingBot.Scenario

/-! ### Input -/

inductive DataLabel where | synthetic | recorded
  deriving DecidableEq

/-- `ReplayInput` without its events. -/
structure ReplayInput where
  label : DataLabel
  plan : ScenarioPlan
  availableAt : Option ℕ
  metadata : SymbolMetadata
  deriving DecidableEq

structure ExecutionAssumptions where
  latencyMs : ℕ
  entrySlippageTicks : ℕ
  exitSlippageTicks : ℕ
  stopLimitRangeTicks : ℕ
  deriving DecidableEq

/-- `BASE_EXECUTION`. -/
def baseExecution : ExecutionAssumptions := ⟨500, 2, 5, 5⟩

/-- What an event brings; of a quote also the texts of its prices, and the risk context if there is
    one. -/
inductive EventBody (R : Type) where
  | candle (candle : Candle)
  | quote (quote : Quote) (bidText askText : String) (risk : Option R)
  deriving DecidableEq

structure ReplayEvent (R : Type) where
  id : String
  instant : Option ℕ
  body : EventBody R
  deriving DecidableEq

/-- What a checkpoint stores under its digest. -/
structure CheckpointData (R : Type) where
  input : ReplayInput
  execution : ExecutionAssumptions
  events : List (ReplayEvent R)
  halted : Bool
  censored : Bool
  deriving DecidableEq

/-- What the replay takes from elsewhere: the digests of JSON texts and the bytes of a checkpoint, the
    check of the plan's schema, and the admission of a confirmed entry, which gives the volume or the
    reasons why it is refused and does not throw. -/
structure External (D R : Type) where
  digestEvent : ReplayEvent R → D
  digestQuote : ℕ → String → String → D
  digestMetadata : SymbolMetadata → D
  digestData : CheckpointData R → D
  byteLength : CheckpointData R → ℕ
  schema : ScenarioPlan → Except String Unit
  riskMetadata : R → SymbolMetadata
  admitEntry : ScenarioEntry → Quote → ℕ → R → Except (List String) Decimal

variable {D R : Type}

/-- What the constructor makes of its input. -/
structure Config where
  input : ReplayInput
  execution : ExecutionAssumptions
  availableAt : ℕ
  validUntil : ℕ
  tickSize : Decimal
  deriving DecidableEq

/-- The checks of the constructor. -/
def configure (x : External D R) (input : ReplayInput) (execution : ExecutionAssumptions) :
    Except String Config := do
  require (execution.latencyMs ≤ 10000 ∧ execution.entrySlippageTicks ≤ 100 ∧
    execution.exitSlippageTicks ≤ 100 ∧ execution.stopLimitRangeTicks ≤ 100)
    "SCENARIO_EXECUTION_ASSUMPTION_INVALID"
  let plan ← validatePlan x.schema input.plan {
    analysisId := input.plan.analysisId
    symbol := input.metadata.symbolName
    capturedAt := input.plan.capturedAt
    availableAt := input.availableAt
    tickSize := input.metadata.tickSize }
  let availableAt ← time input.availableAt
  let validUntil ← time plan.validUntil
  let tickSize ← decimal input.metadata.tickSize
  return ⟨input, execution, availableAt, validUntil, tickSize⟩

/-! ### State -/

structure Pending where
  entry : ScenarioEntry
  volume : Decimal
  expires : ℕ
  deriving DecidableEq

inductive ExitReason where
  | confirmedInvalidation | maximumHoldingTime | structuralStop | firstTarget | exit
  deriving DecidableEq

structure Position where
  entry : ScenarioEntry
  volume : Decimal
  fill : Decimal
  opened : ℕ
  exitReason : Option ExitReason
  exitAt : Option ℕ
  deriving DecidableEq

inductive Outcome where
  | cancelled | waitingForConfirmation | confirmed | pathCensored | expired | unfilled | filled
  | blocked | pending | closed (reason : ExitReason)
  deriving DecidableEq

structure LifecycleEvent where
  instant : ℕ
  outcome : Outcome
  reasons : List String
  scenario : Option ScenarioName
  deriving DecidableEq

structure ClosedTrade where
  side : OrderSide
  entry : Decimal
  exit : Decimal
  volume : Decimal
  openedAt : ℕ
  closedAt : ℕ
  reason : ExitReason
  gross : Decimal
  fees : Decimal
  net : Decimal
  deriving DecidableEq

/-- A confirmed entry and the time from which it may be admitted. -/
structure Candidate where
  entry : ScenarioEntry
  ready : ℕ
  deriving DecidableEq

structure ScenarioReplay (D R : Type) where
  config : Config
  lifecycle : List LifecycleEvent
  trades : List ClosedTrade
  seen : List (String × D)
  journal : List (ReplayEvent R)
  lastAt : ℤ
  lastQuoteAt : Option ℕ
  lastSource : ℤ
  lastQuoteFingerprint : Option D
  previous : Option Bar
  candidate : Option Candidate
  pending : Option Pending
  position : Option Position
  consumed : Bool
  censored : Bool
  halted : Bool
  equityAdjustment : Decimal
  deriving DecidableEq

/-- A replay that has seen no event. -/
def fresh (config : Config) : ScenarioReplay D R where
  config := config
  lifecycle := []
  trades := []
  seen := []
  journal := []
  lastAt := -1
  lastQuoteAt := none
  lastSource := -1
  lastQuoteFingerprint := none
  previous := none
  candidate := none
  pending := none
  position := none
  consumed := false
  censored := false
  halted := false
  equityAdjustment := 0

/-- The constructor. -/
def construct (x : External D R) (input : ReplayInput) (execution : ExecutionAssumptions) :
    Except String (ScenarioReplay D R) := do
  let config ← configure x input execution
  return fresh config

namespace ScenarioReplay

variable (x : External D R) (s : ScenarioReplay D R)

/-- `note`. -/
def note (now : ℕ) (outcome : Outcome) (reasons : List String := [])
    (entry : Option ScenarioEntry := none) : ScenarioReplay D R :=
  { s with lifecycle := s.lifecycle ++ [⟨now, outcome, reasons, entry.map (·.scenario)⟩] }

/-! ### Checks -/

/-- `/^[a-zA-Z0-9_.:-]{1,128}$/`. -/
def isEventId (id : String) : Bool :=
  1 ≤ id.length ∧ id.length ≤ 128 ∧
    id.toList.all fun c => c.isAlphanum ∨ c ∈ ['_', '.', ':', '-']

/-- An event that has passed the checks made before anything is written. -/
inductive Checked (D R : Type) where
  | candle (now : ℕ) (bar : Bar)
  | quote (now : ℕ) (quote : Quote) (source : ℕ) (fingerprint : D) (risk : Option R)

def Checked.now : Checked D R → ℕ
  | candle now _ | quote now .. => now

variable [DecidableEq D]

/-- The checks of a candle and of a quote. -/
def checkBody (now : ℕ) : EventBody R → Except String (Checked D R)
  | .candle candle => do
    let bar ← validateCandle candle now
    require (now - bar.endTime ≤ 3000) "LATE_CANDLE"
    require (s.previous.all fun previous => previous.endTime < bar.endTime) "CANDLE_REGRESSED"
    return .candle now bar
  | .quote quote bidText askText risk => do
    let source ← time quote.sourceTime
    let receipt ← time quote.receivedAt
    let bid ← decimal quote.bid
    let ask ← decimal quote.ask
    let fingerprint := x.digestQuote source bidText askText
    require (source ≤ receipt ∧ receipt ≤ now ∧ now - source ≤ 3000 ∧ s.lastSource ≤ source ∧
      (source = s.lastSource → s.lastQuoteFingerprint = some fingerprint) ∧ 0 < bid ∧ bid ≤ ask ∧
      isTickAligned bid s.config.tickSize ∧ isTickAligned ask s.config.tickSize) "QUOTE_INVALID"
    return .quote now quote source fingerprint risk

/-- What `process` checks before it writes; `none` for an event it has accepted before. -/
def check (event : ReplayEvent R) : Except String (Option (Checked D R)) :=
  if ¬ (isEventId event.id ∧ s.journal.length < 200000) then .error "EVENT_ID_OR_COUNT_INVALID"
  else
    match s.seen.lookup event.id with
    | some old => if old = x.digestEvent event then .ok none else .error "EVENT_CONFLICT"
    | none => do
      let now ← time event.instant
      require (s.lastAt ≤ now ∧ s.config.availableAt ≤ now) "EVENT_TIME_REGRESSED"
      let checked ← s.checkBody x now event.body
      return some checked

end ScenarioReplay

/-! ### Writing -/

namespace ScenarioReplay

/-- Code of the replay that may throw. -/
abbrev Piece (D R : Type) := Attempt (ScenarioReplay D R) Empty

/-- Code that only writes. -/
def writes (f : ScenarioReplay D R → ScenarioReplay D R) : Piece D R := fun s => (f s, .ok [])

/-- A candle that does not continue the last one starts a new pair. -/
def breakChain (bar : Bar) (s : ScenarioReplay D R) : ScenarioReplay D R :=
  if s.previous.any (·.endTime ≠ bar.startTime) then { s with previous := none } else s

/-- The entry that is pending or open. -/
def active (s : ScenarioReplay D R) : Option ScenarioEntry :=
  (s.position.map (·.entry)).or (s.pending.map (·.entry))

/-- The pending entry is given up. -/
def cancelPending (now : ℕ) (entry : ScenarioEntry) (s : ScenarioReplay D R) : ScenarioReplay D R :=
  if s.pending.isSome then
    { s.note now .cancelled ["SCENARIO_INVALIDATED"] (some entry) with pending := none }
  else s

/-- The open position is to be left after the latency. -/
def scheduleExit (now : ℕ) (s : ScenarioReplay D R) : ScenarioReplay D R :=
  { s with position := s.position.map fun p =>
      if p.exitReason = none then
        { p with
          exitReason := some .confirmedInvalidation
          exitAt := some (now + s.config.execution.latencyMs) }
      else p }

/-- What a candle does to the entry that it invalidates. -/
def invalidateActive (now : ℕ) (bar : Bar) (s : ScenarioReplay D R) : ScenarioReplay D R :=
  match s.active with
  | none => s
  | some entry =>
    if invalidated entry bar.close then scheduleExit now (cancelPending now entry s) else s

/-- Is the replay still looking for its entry? -/
def seeking (s : ScenarioReplay D R) : Bool :=
  !s.halted ∧ !s.consumed ∧ s.pending.isNone ∧ s.position.isNone

/-- A candle that continues the last one may confirm an entry. -/
def seekEntry (now : ℕ) (bar : Bar) (s : ScenarioReplay D R) : ScenarioReplay D R :=
  match s.previous with
  | none => s
  | some previous =>
    if s.seeking then
      match confirmedEntry s.config.input.plan s.config.validUntil previous bar s.config.availableAt
          s.config.tickSize with
      | none => { s with candidate := none }.note now .waitingForConfirmation
      | some entry =>
        { s with candidate := some ⟨entry, now + s.config.execution.latencyMs⟩ }.note now .confirmed []
          (some entry)
    else s

/-- What a candle does. -/
def applyCandle (now : ℕ) (bar : Bar) : Piece D R := writes fun s =>
  { seekEntry now bar (invalidateActive now bar (breakChain bar s)) with previous := some bar }

/-- A gap in the quotes censors a path on which something is at stake. -/
def noteGap (now : ℕ) (s : ScenarioReplay D R) : ScenarioReplay D R :=
  if s.lastQuoteAt.any (· + 3000 < now) ∧ (s.pending.isSome ∨ s.position.isSome) then
    { s with censored := true, halted := true, pending := none, candidate := none }.note now
      .pathCensored ["QUOTE_GAP"]
  else s

def recordQuote (now source : ℕ) (fingerprint : D) (s : ScenarioReplay D R) : ScenarioReplay D R :=
  { s with
    lastQuoteAt := some now
    lastSource := source
    lastQuoteFingerprint := some fingerprint }

/-- `1` for a buy and `-1` for a sell. -/
def direction : OrderSide → Decimal
  | .buy => 1
  | .sell => -1

/-- What closing a position at this quote brings. -/
def closedTrade (s : ScenarioReplay D R) (p : Position) (q : Quote) (now : ℕ) (reason : ExitReason) :
    Except String ClosedTrade := do
  let m := s.config.input.metadata
  let mark := match p.entry.side with
    | .buy => q.bid
    | .sell => q.ask
  let price := Decimal.minus mark (Decimal.times (Decimal.times s.config.tickSize
    s.config.execution.exitSlippageTicks) (direction p.entry.side))
  let gross := Decimal.times (Decimal.times (Decimal.div (Decimal.times (Decimal.minus price p.fill)
    (direction p.entry.side)) m.tickSize) m.tickValue) p.volume
  let fill ← decimal p.fill
  let volume ← decimal p.volume
  let opening ← Risk.oneWayCommission m fill volume
  let closing ← Risk.oneWayCommission m price volume
  let fees := Decimal.plus (Decimal.plus opening closing)
    (Decimal.div (Decimal.times |gross| m.commission.pnlConversionFeeRate) 100)
  return {
    side := p.entry.side
    entry := p.fill
    exit := price
    volume := p.volume
    openedAt := p.opened
    closedAt := now
    reason := reason
    gross := gross
    fees := fees
    net := Decimal.minus gross fees }

/-- `close`. -/
def close (p : Position) (q : Quote) (now : ℕ) (reason : ExitReason) : Piece D R := fun s =>
  match s.closedTrade p q now reason with
  | .error e => (s, .error e)
  | .ok trade =>
    ({ { s with
          trades := s.trades ++ [trade]
          equityAdjustment := Decimal.plus s.equityAdjustment trade.net }.note now (.closed reason)
            [] (some p.entry) with position := none }, .ok [])

/-- Why the position leaves the market at this quote, its stop before its target. -/
def touched (p : Position) (q : Quote) : Option ExitReason :=
  match p.entry.side with
  | .buy => if q.bid ≤ p.entry.stop then some .structuralStop
    else if p.entry.target ≤ q.bid then some .firstTarget else none
  | .sell => if p.entry.stop ≤ q.ask then some .structuralStop
    else if q.ask ≤ p.entry.target then some .firstTarget else none

/-- A position held too long is left after the latency. -/
def holdLimit (now latency : ℕ) (p : Position) : Position :=
  if p.exitReason = none ∧ p.opened + maximumHoldingMs ≤ now then
    { p with exitReason := some .maximumHoldingTime, exitAt := some (now + latency) }
  else p

/-- `managePosition`. -/
def managePosition (q : Quote) (now : ℕ) : Piece D R := fun s =>
  match s.position with
  | none => (s, .ok [])
  | some p =>
    match touched p q with
    | some reason => close p q now reason s
    | none =>
      let p := holdLimit now s.config.execution.latencyMs p
      let s := { s with position := some p }
      if p.exitAt.any (· ≤ now) then close p q now (p.exitReason.getD .exit) s else (s, .ok [])

def expirePending (now : ℕ) (s : ScenarioReplay D R) : ScenarioReplay D R :=
  match s.pending with
  | none => s
  | some p =>
    if p.expires ≤ now then { s.note now .expired [] (some p.entry) with pending := none } else s

/-- Does the quote trigger the pending entry? -/
def triggered (entry : ScenarioEntry) (q : Quote) : Bool :=
  match entry.side with
  | .buy => entry.entry ≤ q.ask
  | .sell => q.bid ≤ entry.entry

/-- The price of a triggered entry, with its slippage. -/
def slippedFill (s : ScenarioReplay D R) (entry : ScenarioEntry) (q : Quote) : Decimal :=
  let market := match entry.side with
    | .buy => q.ask
    | .sell => q.bid
  Decimal.plus market (Decimal.times (Decimal.times s.config.tickSize
    s.config.execution.entrySlippageTicks) (direction entry.side))

/-- Is the price of a triggered entry beyond its stop limit? -/
def beyondEdge (s : ScenarioReplay D R) (entry : ScenarioEntry) (fill : Decimal) : Bool :=
  let edge := Decimal.plus entry.entry (Decimal.times (Decimal.times s.config.tickSize
    s.config.execution.stopLimitRangeTicks) (direction entry.side))
  match entry.side with
  | .buy => edge < fill
  | .sell => fill < edge

/-- What a triggered entry becomes. -/
def openedAs (s : ScenarioReplay D R) (p : Pending) (q : Quote) (now : ℕ) : Position where
  entry := p.entry
  volume := p.volume
  fill := s.slippedFill p.entry q
  opened := now
  exitReason := none
  exitAt := none

/-- A triggered entry is filled, or left unfilled beyond its stop limit. -/
def fillPending (q : Quote) (now : ℕ) : Piece D R := fun s =>
  match s.pending with
  | none => (s, .ok [])
  | some p =>
    if triggered p.entry q then
      match decimal p.entry.entry with
      | .error e => (s, .error e)
      | .ok _ =>
        if s.beyondEdge p.entry (s.slippedFill p.entry q) then
          ({ s.note now .unfilled ["STOP_LIMIT_RANGE_EXCEEDED"] (some p.entry) with
              censored := true, halted := true, pending := none }, .ok [])
        else
          managePosition q now ({ s with
            position := some (s.openedAs p q now), pending := none, consumed := true }.note now
              .filled [] (some p.entry))
    else (s, .ok [])

variable (x : External D R) [DecidableEq D]

/-- A confirmed entry is admitted once it is ready. -/
def admitCandidate (q : Quote) (now : ℕ) (risk : Option R) (s : ScenarioReplay D R) :
    ScenarioReplay D R :=
  match s.candidate with
  | none => s
  | some candidate =>
    if s.seeking ∧ candidate.ready ≤ now then
      let entry := some candidate.entry
      let s := { s with candidate := none }
      if s.config.validUntil ≤ now ∨ candidate.entry.confirmedAt + pendingLifetimeMs < now then
        s.note now .expired ["PLAN_OR_CONFIRMATION_EXPIRED"] entry
      else
        match risk with
        | none => s.note now .blocked ["RISK_CONTEXT_UNAVAILABLE"] entry
        | some risk =>
          if x.digestMetadata (x.riskMetadata risk) ≠ x.digestMetadata s.config.input.metadata then
            s.note now .blocked ["METADATA_CHANGED"] entry
          else
            match x.admitEntry candidate.entry q now risk with
            | .error reasonCodes => s.note now .blocked reasonCodes entry
            | .ok volume =>
              { s with
                pending := some {
                  entry := candidate.entry
                  volume := volume
                  expires := min s.config.validUntil (now + pendingLifetimeMs) } }.note now .pending
                    [] entry
    else s

/-- What a quote does. -/
def applyQuote (now : ℕ) (q : Quote) (source : ℕ) (fingerprint : D) (risk : Option R) : Piece D R :=
  (writes fun s => recordQuote now source fingerprint (noteGap now s)).andThen
    ((managePosition q now).andThen
      ((writes (expirePending now)).andThen
        ((fillPending q now).andThen (writes (admitCandidate x q now risk)))))

def apply : Checked D R → Piece D R
  | .candle now bar => applyCandle now bar
  | .quote now q source fingerprint risk => applyQuote x now q source fingerprint risk

/-- An event that has been processed is kept. -/
def keep (event : ReplayEvent R) (now : ℕ) (s : ScenarioReplay D R) : ScenarioReplay D R :=
  { s with
    lastAt := now
    seen := s.seen ++ [(event.id, x.digestEvent event)]
    journal := s.journal ++ [event] }

/-- `process`. -/
def process (event : ReplayEvent R) : Piece D R := fun s =>
  match s.check x event with
  | .error e => (s, .error e)
  | .ok none => (s, .ok [])
  | .ok (some checked) => ((apply x checked).andThen (writes (keep x event checked.now))) s

/-- What an invalid event does beyond what it had already written. -/
def latch (s : ScenarioReplay D R) : ScenarioReplay D R :=
  { s with
    halted := true
    censored := s.censored || s.pending.isSome || s.position.isSome
    pending := none
    candidate := none }

/-- `accept`, with whether the event was accepted or "SCENARIO_EVENT_INVALID" thrown. -/
def accept (s : ScenarioReplay D R) (event : ReplayEvent R) : ScenarioReplay D R × Bool :=
  match process x event s with
  | (t, .error _) => (t.latch, false)
  | (t, .ok _) => (t, true)

/-- The replay after it has been offered these events, and which of them it accepted. -/
def offer (s : ScenarioReplay D R) : List (ReplayEvent R) → ScenarioReplay D R × List Bool
  | [] => (s, [])
  | event :: events =>
    let rest := offer (s.accept x event).1 events
    (rest.1, (s.accept x event).2 :: rest.2)

/-! ### Reports and checkpoints -/

/-- What `report` computes; the policy version and the labels that it repeats are left out. -/
structure Report where
  label : DataLabel
  assumptions : ExecutionAssumptions
  events : ℕ
  closedTrades : ℕ
  pathCensored : Bool
  halted : Bool
  openPosition : Bool
  pendingOrder : Bool
  awaitingAdmission : Bool
  netBeforeModelCosts : Option Decimal
  lifecycle : List LifecycleEvent
  trades : List ClosedTrade
  deriving DecidableEq

omit [DecidableEq D] in
/-- `report`. -/
def report (s : ScenarioReplay D R) : Report :=
  let censored := s.halted || s.censored || s.position.isSome || s.pending.isSome ||
    s.candidate.isSome
  { label := s.config.input.label
    assumptions := s.config.execution
    events := s.journal.length
    closedTrades := s.trades.length
    pathCensored := censored
    halted := s.halted
    openPosition := s.position.isSome
    pendingOrder := s.pending.isSome
    awaitingAdmission := s.candidate.isSome
    netBeforeModelCosts := if censored then none else some s.equityAdjustment
    lifecycle := s.lifecycle
    trades := s.trades }

structure Checkpoint (D R : Type) where
  data : CheckpointData R
  sha256 : D

omit [DecidableEq D] in
/-- What `checkpoint` stores. -/
def data (s : ScenarioReplay D R) : CheckpointData R :=
  ⟨s.config.input, s.config.execution, s.journal, s.halted, s.censored⟩

omit [DecidableEq D] in
/-- `checkpoint`. -/
def checkpoint (s : ScenarioReplay D R) : Checkpoint D R := ⟨s.data, x.digestData s.data⟩

/-- Every event of a journal has to be accepted. -/
def acceptAll (s : ScenarioReplay D R) : List (ReplayEvent R) → Except String (ScenarioReplay D R)
  | [] => .ok s
  | event :: events =>
    if (s.accept x event).2 then acceptAll (s.accept x event).1 events
    else .error "SCENARIO_EVENT_INVALID"

omit [DecidableEq D] in
/-- What `restore` does with the flags of the checkpoint. -/
def reinstate (halted censored : Bool) (s : ScenarioReplay D R) : ScenarioReplay D R :=
  let s := { s with halted := s.halted || halted, censored := s.censored || censored }
  if s.halted then { s with pending := none, candidate := none } else s

/-- `restore`. -/
def restore (c : Checkpoint D R) : Except String (ScenarioReplay D R) := do
  require (x.byteLength c.data ≤ 64000000) "SCENARIO_CHECKPOINT_OVERSIZED"
  require (x.digestData c.data = c.sha256) "SCENARIO_CHECKPOINT_INVALID"
  let replay ← construct x c.data.input c.data.execution
  let replay ← acceptAll x replay c.data.events
  return reinstate c.data.halted c.data.censored replay

end ScenarioReplay

end ScalpingBot.Scenario
