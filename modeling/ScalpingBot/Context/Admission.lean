import ScalpingBot.Library.Locks
import ScalpingBot.Library.Transition
import ScalpingBot.Store.Tables

/-! The admission of a paid call: `claim` and `finish` of `PostgresContextStore`
    (apps/execution-service/src/scenario-context.ts) with the proofs of a terminal setup and of an
    entry replacement (entry-recovery-store.ts). A claim is a transaction under the advisory lock of
    its scope; orders, positions and trades are written by others at any time. Times are
    microseconds of the database clock. -/

namespace ScalpingBot.Admission

open Store (OrderState OrderGroupState MappingState)

structure Scope where
  account : ℕ
  symbol : ℕ
  mode : Store.TradingMode
  deriving DecidableEq

inductive ContextState where | requesting | ready | failed
  deriving DecidableEq

/-- `schema_version` of a plan. -/
inductive SchemaVersion where | pair | direction | modes | scalp | wait
  deriving DecidableEq

structure ContextPlan where
  schemaVersion : SchemaVersion
  observedM1End : Option ℤ := none
  deriving DecidableEq

/-- A row of `scenario_contexts`, with the `prompt_sha256` of its provider evidence. -/
structure ScenarioContext where
  id : ℕ
  scope : Scope
  requestedAt : ℤ
  availableAt : Option ℤ := none
  completedAt : Option ℤ := none
  state : ContextState := .requesting
  requestedModel : String
  plan : Option ContextPlan := none
  reason : Option String := none
  refreshAfter : Option ℕ
  refreshAfterEntry : Option ℕ
  refreshAfterWait : Option ℕ
  promptSha256 : Option String
  deriving DecidableEq

/-- A row of `order_groups`, with the account and symbol of its analysis. -/
structure OrderGroup where
  id : ℕ
  contextPlanId : Option ℕ
  account : ℕ
  symbol : ℕ
  mode : Store.TradingMode
  state : OrderGroupState
  cancellationReason : Option String
  entrySide : Option OrderSide
  updatedAt : ℤ
  deriving DecidableEq

structure Order where
  id : ℕ
  group : ℕ
  account : ℕ
  strategyOwned : Bool
  brokerOrderId : Option String
  state : OrderState
  filledVolume : ℚ
  deriving DecidableEq

/-- A row of `broker_execution_events`, with two fields of `normalized_payload`. -/
structure BrokerEvent where
  group : Option ℕ
  order : Option ℕ
  account : ℕ
  symbol : ℕ
  mapping : MappingState
  executionType : ℕ
  brokerOrderId : Option String
  reasonCodes : List String
  orderState : Option OrderState
  orderFilledVolume : Option String
  resolved : Bool
  deriving DecidableEq

structure Position where
  id : ℕ
  group : ℕ
  closed : Bool
  deriving DecidableEq

structure Trade where
  position : ℕ
  group : ℕ
  closedAt : ℤ
  deriving DecidableEq

/-- The tables that the proofs read besides the contexts; a fill is the id of its order. -/
structure Evidence where
  groups : List OrderGroup := []
  orders : List Order := []
  events : List BrokerEvent := []
  fills : List ℕ := []
  positions : List Position := []
  trades : List Trade := []

/-- Where the statement reads the clock; every row that a condition looks at is a reading. -/
inductive Site where
  | cooldown | spacing | closedTrade | groupUpdated | available | recentParent | unknownCall
  | waitAvailable | waitUnknownCall | waitSpacing
  deriving DecidableEq

abbrev Clock := Site → ℕ → ℤ

def minute : ℤ := 60000000

def fiveMinutes : ℤ := 300000000

def aiModel : String := "gpt-6.1-sol"

/-- CLOSED, EXPIRED and FAILED. -/
def ended (state : OrderGroupState) : Bool := state ∈ [.closed, .expired, .failed]

namespace ScenarioContext

variable (c : ScenarioContext)

/-- A call that was rejected before any request was sent. -/
def circuitRejected : Bool := c.state = .failed ∧ c.reason = some "AI_CIRCUIT_OPEN"

def schemaVersion : Option SchemaVersion := c.plan.map (·.schemaVersion)

/-- The contexts that this one follows up. -/
def parents : List ℕ := [c.refreshAfter, c.refreshAfterEntry, c.refreshAfterWait].reduceOption

/-- No context of the scope was requested later. -/
def newest (contexts : List ScenarioContext) : Bool :=
  ∀ x ∈ contexts, x.scope = c.scope → ¬ c.requestedAt < x.requestedAt

end ScenarioContext

def OrderGroup.ofScope (g : OrderGroup) (scope : Scope) : Bool :=
  g.account = scope.account ∧ g.symbol = scope.symbol ∧ g.mode = scope.mode

namespace Evidence

variable (e : Evidence) (clock : Clock)

/-- The broker has confirmed that the order ended without a fill. -/
def confirmedUnfilled (c : ScenarioContext) (o : Order) : Bool :=
  ∃ v ∈ e.events, v.order = some o.id ∧ v.account = c.scope.account ∧ v.symbol = c.scope.symbol ∧
    v.brokerOrderId = o.brokerOrderId ∧ v.mapping = .mapped ∧ v.executionType ∈ [5, 6, 7] ∧
    v.reasonCodes = [] ∧ v.orderState = some o.state ∧ v.orderFilledVolume = some "0"

/-- The group has ended for a reason that allows the proof. -/
def zeroFillEnded (c : ScenarioContext) (g : OrderGroup) : Bool :=
  (g.state = .failed ∧ g.cancellationReason ∈
      [some "OCO_PEER_UNFILLED_TERMINAL", some "DEMO_BROKER_ZERO_FILL_CANCELLED"]) ∨
  c.schemaVersion = some .scalp ∧ g.state = .expired ∧
    (g.cancellationReason = some "ANALYSIS_EXPIRED" ∨ g.cancellationReason = none ∧
      ∃ o ∈ e.orders, ∃ v ∈ e.events, v.order = some o.id ∧ o.group = g.id ∧ o.state = .expired ∧
        v.group = some g.id ∧ v.account = c.scope.account ∧ v.symbol = c.scope.symbol ∧
        v.mapping = .mapped ∧ v.executionType = 6 ∧ o.brokerOrderId ≠ none ∧
        v.brokerOrderId = o.brokerOrderId)

/-- `zeroFillTerminalProof`. -/
def zeroFillTerminalProof (c : ScenarioContext) (g : OrderGroup) : Bool :=
  e.zeroFillEnded c g ∧ g.updatedAt ≤ clock .groupUpdated g.id ∧ g.ofScope c.scope ∧
  (e.orders.filter (·.group = g.id)).length = (if g.entrySide = none then 2 else 1) ∧
  (∀ o ∈ e.orders, o.group = g.id → o.account = c.scope.account ∧ o.strategyOwned ∧
    o.brokerOrderId ≠ none ∧ o.state ∈ [.cancelled, .expired, .rejected] ∧ o.filledVolume = 0 ∧
    e.confirmedUnfilled c o) ∧
  (∀ o ∈ e.orders, o.group = g.id → o.id ∉ e.fills) ∧
  (∀ p ∈ e.positions, p.group ≠ g.id) ∧ (∀ t ∈ e.trades, t.group ≠ g.id) ∧
  ∀ v ∈ e.events, v.account = c.scope.account → v.symbol = c.scope.symbol → v.resolved = false →
    v.mapping = .mapped ∧ v.reasonCodes = []

/-- A setup whose positions are closed, each with its trade, and whose orders have ended. -/
def closedSetup (g : OrderGroup) : Bool :=
  g.state = .closed ∧
  (∃ t ∈ e.trades, t.group = g.id ∧ t.closedAt ≤ clock .closedTrade t.position) ∧
  (∃ p ∈ e.positions, p.group = g.id ∧ p.closed) ∧
  (∀ p ∈ e.positions, p.group = g.id → p.closed ∧
    ∃ t ∈ e.trades, t.position = p.id ∧ t.group = g.id) ∧
  ∀ o ∈ e.orders, o.group = g.id → o.state ∈ [.filled, .cancelled, .expired, .rejected]

end Evidence

/-- The arguments of `claim` that the statement reads. -/
structure ClaimInput where
  id : ℕ
  capturedAt : ℤ
  model : String := aiModel
  promptSha256 : Option String := none
  afterContextId : Option ℕ := none
  afterEntryContextId : Option ℕ := none
  afterWaitContextId : Option ℕ := none
  completedM1End : Option ℤ := none
  deriving DecidableEq

/-- What the statement sees. -/
structure Snapshot where
  contexts : List ScenarioContext
  retirements : List ℕ
  evidence : Evidence

namespace Snapshot

variable (s : Snapshot) (clock : Clock) (scope : Scope) (input : ClaimInput)

/-- No group of the scope is under way. -/
def noOpenGroup : Bool := ∀ g ∈ s.evidence.groups, g.ofScope scope → ended g.state

def unparented : Bool :=
  (∀ x ∈ s.contexts, x.scope = scope →
    ¬ (clock .cooldown x.id - fiveMinutes < x.requestedAt ∧ ¬ x.circuitRejected)) ∧
  ∀ x ∈ s.contexts, x.scope = scope → ¬ clock .spacing x.id - minute < x.requestedAt

/-- One early request after a terminal setup. -/
def terminalRefresh (id : ℕ) : Bool :=
  ∃ c ∈ s.contexts, ∃ g ∈ s.evidence.groups, g.contextPlanId = some c.id ∧ c.id = id ∧
    c.scope = scope ∧ c.state = .ready ∧ c.newest s.contexts ∧
    (∀ x ∈ s.contexts, x.refreshAfter ≠ some c.id) ∧
    (s.evidence.closedSetup clock g ∨ s.evidence.zeroFillTerminalProof clock c g)

/-- `entryReplacementProof`. -/
def entryReplacementProof (c : ScenarioContext) : Bool :=
  c.state = .ready ∧ c.requestedModel = input.model ∧
  c.schemaVersion ∈ [some .pair, some .direction] ∧ c.refreshAfterEntry = none ∧
  c.availableAt.any (· ≤ clock .available c.id) ∧
  clock .recentParent c.id - fiveMinutes < c.requestedAt ∧ c.id ∈ s.retirements ∧
  (∀ g ∈ s.evidence.groups, g.contextPlanId ≠ some c.id) ∧
  (∀ x ∈ s.contexts, x.refreshAfterEntry ≠ some c.id) ∧ c.newest s.contexts ∧
  ∀ x ∈ s.contexts, x.scope = c.scope →
    ¬ (clock .unknownCall x.id - fiveMinutes < x.requestedAt ∧ x.state ≠ .ready ∧
      ¬ x.circuitRejected)

def entryReplacement (id : ℕ) : Bool :=
  ∃ c ∈ s.contexts, c.id = id ∧ c.scope = scope ∧ s.entryReplacementProof clock input c

/-- The completed candle is newer than the one that the wait has seen, and fresh. -/
def newerCandle (c : ScenarioContext) : Bool :=
  match input.completedM1End, c.plan.bind (·.observedM1End) with
  | some completed, some observed => observed < completed ∧ completed ≤ input.capturedAt ∧
      input.capturedAt - 90000000 < completed
  | _, _ => false

/-- One successor of a wait. -/
def waitRefresh (id : ℕ) : Bool :=
  (∃ c ∈ s.contexts, c.id = id ∧ c.scope = scope ∧ c.state = .ready ∧
    c.schemaVersion = some .wait ∧ c.availableAt.any (· ≤ clock .waitAvailable c.id - minute) ∧
    c.requestedModel = input.model ∧ c.promptSha256 ≠ none ∧ c.promptSha256 = input.promptSha256 ∧
    newerCandle input c ∧ (∀ g ∈ s.evidence.groups, g.contextPlanId ≠ some c.id) ∧
    c.newest s.contexts ∧ ∀ x ∈ s.contexts, x.refreshAfterWait ≠ some c.id) ∧
  (∀ x ∈ s.contexts, x.scope = scope →
    ¬ (clock .waitUnknownCall x.id - fiveMinutes < x.requestedAt ∧
      x.state ∈ [.requesting, .failed] ∧ ¬ x.circuitRejected)) ∧
  ∀ x ∈ s.contexts, x.scope = scope → ¬ clock .waitSpacing x.id - minute < x.requestedAt

/-- The WHERE of the INSERT. -/
def admits : Bool :=
  s.noOpenGroup scope &&
  match input.afterContextId, input.afterEntryContextId, input.afterWaitContextId with
  | none, none, none => s.unparented clock scope
  | some id, none, none => s.terminalRefresh clock scope id
  | none, some id, none => s.entryReplacement clock scope input id
  | none, none, some id => s.waitRefresh clock scope input id
  | _, _, _ => false

end Snapshot

/-- Where a claim stands; `inserted` has the new row and the groups that its statement saw. -/
inductive Phase where
  | idle
  | locked (scope : Scope)
  | inserted (context : ScenarioContext) (groups : List OrderGroup)

def Phase.scope : Phase → Option Scope
  | .idle => none
  | .locked scope => some scope
  | .inserted context _ => some context.scope

/-- What is committed, the claims of the processes, and the groups that each claim saw. -/
structure Db where
  now : ℤ := 0
  contexts : List ScenarioContext := []
  retirements : List ℕ := []
  evidence : Evidence := {}
  locks : Scope → Option ℕ := fun _ => none
  claims : ℕ → Phase := fun _ => .idle
  seen : ℕ → List OrderGroup := fun _ => []

inductive Event where
  | tick (elapsed : ℕ)
  /-- `pg_advisory_xact_lock`. -/
  | lock (i : ℕ) (scope : Scope)
  /-- The INSERT, which takes `elapsed` and reads the clock at the offsets. -/
  | insert (i : ℕ) (input : ClaimInput) (elapsed : ℕ) (offset : Site → ℕ → ℕ)
  | commit (i : ℕ)
  | rollback (i : ℕ)
  | finish (id : ℕ) (scope : Scope) (result : Option ContextPlan) (reason : Option String)
  /-- The commit of `retireEntries`. -/
  | retire (id : ℕ) (scope : Scope)
  | evidence (evidence : Evidence)

namespace Db

variable (s : Db)

def snapshot : Snapshot := ⟨s.contexts, s.retirements, s.evidence⟩

/-- The readings of a statement lie between its start and the time of the new row. -/
def clock (elapsed : ℕ) (offset : Site → ℕ → ℕ) : Clock := fun site row =>
  s.now + 1 + min (offset site row) elapsed

/-- The end of the transaction of process `i`. -/
def release (i : ℕ) : Db :=
  { s with locks := Locks.release s.locks i, claims := Function.update s.claims i .idle }

/-- The row that the INSERT adds. -/
def requested (scope : Scope) (input : ClaimInput) (elapsed : ℕ) : ScenarioContext where
  id := input.id
  scope := scope
  requestedAt := s.now + 2 + elapsed
  requestedModel := input.model
  refreshAfter := input.afterContextId
  refreshAfterEntry := input.afterEntryContextId
  refreshAfterWait := input.afterWaitContextId
  promptSha256 := input.promptSha256

def insert (i : ℕ) (scope : Scope) (input : ClaimInput) (elapsed : ℕ) (offset : Site → ℕ → ℕ) :
    Db :=
  let next := { s with now := s.now + 2 + elapsed }
  if s.snapshot.admits (s.clock elapsed offset) scope input then
    { next with
      claims := Function.update s.claims i
        (.inserted (s.requested scope input elapsed) s.evidence.groups) }
  else
    next.release i

/-- The UPDATE of `finish` on a row. -/
def settle (id : ℕ) (scope : Scope) (result : Option ContextPlan) (reason : Option String)
    (c : ScenarioContext) : ScenarioContext :=
  if c.id = id ∧ c.state = .requesting ∧ c.scope = scope then
    { c with
      state := if result.isSome then .ready else .failed
      completedAt := some (s.now + 1)
      availableAt := if result.isSome then some (s.now + 1) else none
      plan := result
      reason := reason }
  else c

/-- Whether `retireEntryContext` finds its context and no group of it. -/
def retirable (id : ℕ) (scope : Scope) : Bool :=
  (∃ c ∈ s.contexts, c.id = id ∧ c.scope = scope ∧ c.state = .ready ∧
    c.requestedModel = aiModel ∧ c.schemaVersion ∈ [some .pair, some .direction]) ∧
  ∀ g ∈ s.evidence.groups, g.contextPlanId ≠ some id

def step : Event → Option Db
  | .tick elapsed => some { s with now := s.now + elapsed }
  | .lock i scope =>
    match s.claims i with
    | .idle =>
      if s.locks scope = none then
        some { s with
          locks := Locks.acquire s.locks i scope
          claims := Function.update s.claims i (.locked scope) }
      else none
    | _ => none
  | .insert i input elapsed offset =>
    match s.claims i with
    | .locked scope => some (s.insert i scope input elapsed offset)
    | _ => none
  | .commit i =>
    match s.claims i with
    | .inserted context groups =>
      -- the primary key
      if ∀ c ∈ s.contexts, c.id ≠ context.id then
        some { s.release i with
          contexts := context :: s.contexts
          seen := Function.update s.seen context.id groups }
      else none
    | _ => none
  | .rollback i => some (s.release i)
  | .finish id scope result reason =>
    some { s with
      now := s.now + 1
      contexts := s.contexts.map (s.settle id scope result reason) }
  | .retire id scope =>
    if s.locks scope = none ∧ s.retirable id scope then
      some { s with retirements := id :: s.retirements }
    else none
  | .evidence evidence => some { s with evidence }

end Db

end ScalpingBot.Admission
