import Mathlib.Algebra.Field.Rat
import Mathlib.Algebra.Order.Monoid.Defs
import Mathlib.Order.Lattice.Nat
import Mathlib.Tactic.Common
import ScalpingBot.Market

/-! The packet of python/research/learning_evidence.py, as far as the reconstructions read it. Instants
    are microseconds since 1970 in UTC, which is how the validator of `Instant` writes them all;
    identities are only compared. A clock status that a validator compares with the clocks is derived
    from them here. -/

namespace ScalpingBot.Learning

abbrev Instant := ℤ
abbrev Identity := ℕ

/-- A text of the pattern of `Number`: the sign, the digits and how many of them are decimals. -/
structure Number where
  negative : Bool := false
  digits : ℕ
  places : ℕ := 0
  deriving DecidableEq

/-- `Decimal(text)`. -/
def Number.value (n : Number) : ℚ :=
  (if n.negative then -(n.digits : ℚ) else n.digits) / 10 ^ n.places

/-- A decimal that a sum gives: its value and the decimals that its text shows. -/
structure Figure where
  value : ℚ
  places : ℕ
  deriving DecidableEq

def Number.figure (n : Number) : Figure := ⟨n.value, n.places⟩

namespace Figure

variable {a b c : Figure}

instance : Zero Figure := ⟨⟨0, 0⟩⟩

instance : Add Figure := ⟨fun a b => ⟨a.value + b.value, max a.places b.places⟩⟩

@[simp] theorem zero_value : (0 : Figure).value = 0 := rfl

@[simp] theorem add_value : (a + b).value = a.value + b.value := rfl

@[ext] theorem ext (hvalue : a.value = b.value) (hplaces : a.places = b.places) : a = b := by
  cases a
  cases b
  rw [mk.injEq]
  exact ⟨hvalue, hplaces⟩

instance : AddCommMonoid Figure where
  add_assoc a b c := ext (add_assoc a.value b.value c.value) (max_assoc a.places b.places c.places)
  zero_add a := ext (zero_add a.value) (Nat.zero_max a.places)
  add_zero a := ext (add_zero a.value) (Nat.max_zero a.places)
  add_comm a b := ext (add_comm a.value b.value) (max_comm a.places b.places)
  nsmul := nsmulRec

theorem sum_value (figures : List Figure) :
    figures.sum.value = (figures.map Figure.value).sum := by
  induction figures with
  | nil => rfl
  | cons a figures ih => rw [List.sum_cons, add_value, ih, List.map_cons, List.sum_cons]

end Figure

inductive ClockStatus where | causal | unordered | incomplete
  deriving DecidableEq

/-- `clock_status`. -/
def clockStatus (values : List (Option Instant)) : ClockStatus :=
  let known := values.filterMap id
  if ¬ known.Pairwise (· ≤ ·) then .unordered
  else if known.length ≠ values.length then .incomplete
  else .causal

/-- `context_clock`. -/
def contextClock (captured requested : Instant) (available completed : Option Instant)
    (valid : Instant) : ClockStatus :=
  let statuses :=
    [clockStatus [captured, requested, completed, available], clockStatus [captured, valid]]
  if .unordered ∈ statuses then .unordered
  else if .incomplete ∈ statuses then .incomplete
  else .causal

inductive Decision where | buy | sell | wait | unknown
  deriving DecidableEq

/-- The side of an order as the decision of a context. -/
def Decision.of : OrderSide → Decision
  | .buy => .buy
  | .sell => .sell

structure ContextObservation where
  id : Identity
  originRelease : String
  requestedAt : Instant
  capturedAt : Instant
  availableAt : Option Instant
  completedAt : Option Instant
  validUntil : Instant
  decision : Decision
  entryPrice : Option Number
  takeProfit : Option Number
  stopLoss : Option Number

def ContextObservation.clockStatus (c : ContextObservation) : ClockStatus :=
  contextClock c.capturedAt c.requestedAt c.availableAt c.completedAt c.validUntil

inductive OrderType where | stop | stopLimit | limit
  deriving DecidableEq

inductive TimeInForce where | gtc | gtd
  deriving DecidableEq

structure OrderObservation where
  id : Identity
  side : OrderSide
  state : String
  orderType : OrderType
  timeInForce : TimeInForce
  entryPrice : Number
  stopLoss : Number
  takeProfit : Number
  approvedVolume : Number
  filledVolume : Number
  expiresAt : Option Instant
  submissionValidUntil : Option Instant
  updatedAt : Instant

structure FillObservation where
  id : Identity
  orderId : Option Identity
  positionId : Option Identity
  price : Number
  volume : Number
  commission : Number
  occurredAt : Instant
  receivedAt : Instant
  deriving DecidableEq

def FillObservation.clockStatus (f : FillObservation) : ClockStatus :=
  Learning.clockStatus [f.occurredAt, f.receivedAt]

inductive MappingState where | mapped | unmatched | conflict
  deriving DecidableEq

structure BrokerObservation where
  id : Identity
  executionType : ℤ
  mappingState : MappingState
  closingOrder : Bool
  orderType : Option ℤ
  orderId : Option Identity
  occurredAt : Instant
  receivedAt : Instant
  persistedAt : Instant
  resolvedAt : Option Instant
  reasonCodes : List String

def BrokerObservation.clockStatus (e : BrokerObservation) : ClockStatus :=
  Learning.clockStatus [e.occurredAt, e.receivedAt, e.persistedAt]

structure ProtectionObservation where
  positionId : Identity
  side : OrderSide
  positionState : String
  volume : Number
  entryPrice : Number
  observedAt : Option Instant

structure ProtectionHistoryObservation where
  id : Identity
  observedAt : Option Instant
  persistedAt : Instant

structure CloseObservation where
  id : Identity
  positionId : Identity
  closedVolume : Number
  entryPrice : Number
  gross : Number
  commission : Number
  swap : Number
  conversionFee : Number
  occurredAt : Instant
  recordedAt : Instant
  externalIntervention : Bool
  evidenceSha256 : String
  deriving DecidableEq

inductive Direction where | long | short
  deriving DecidableEq

structure TradeObservation where
  id : Identity
  direction : Direction
  realizedNet : Number
  signedFees : Number
  openedAt : Instant
  closedAt : Instant

structure SetupObservation where
  id : Identity
  originRelease : String
  contextId : Option Identity
  state : String
  executionMode : Option String
  timeInForce : TimeInForce
  createdAt : Instant
  updatedAt : Instant
  expiresAt : Option Instant
  submissionValidUntil : Option Instant
  orders : List OrderObservation
  fills : List FillObservation
  brokerEvents : List BrokerObservation
  currentProtection : List ProtectionObservation
  protectionHistory : List ProtectionHistoryObservation
  protectionHistoryComplete : Bool
  closeDeals : List CloseObservation
  closedTrades : List TradeObservation

structure LearningEvidence where
  /-- `until` -/
  cutoff : Instant
  contexts : List ContextObservation
  setups : List SetupObservation

/-! ### Events of an order -/

/-- The event is about the order itself, not about an order that closes its position. -/
def BrokerObservation.about (e : BrokerObservation) (order : OrderObservation) : Prop :=
  e.orderId = some order.id ∧ e.closingOrder = false

instance (e : BrokerObservation) (order : OrderObservation) : Decidable (e.about order) :=
  inferInstanceAs (Decidable (_ ∧ _))

/-- The event is mapped without objection, its clocks are in order and it was known at the cutoff. -/
def BrokerObservation.attested (e : BrokerObservation) (cutoff : Instant) : Prop :=
  e.mappingState = .mapped ∧ e.reasonCodes = [] ∧ e.clockStatus = .causal ∧ e.persistedAt ≤ cutoff

instance (e : BrokerObservation) (cutoff : Instant) : Decidable (e.attested cutoff) :=
  inferInstanceAs (Decidable (_ ∧ _))

/-- The execution types that end an order, with the state that each leaves it in. -/
def terminalStates : List (ℤ × String) := [(5, "CANCELLED"), (6, "EXPIRED"), (7, "REJECTED")]

instance lawfulBEq_terminalStates : LawfulBEq (ℤ × String) := inferInstance

/-- `terminal`: an attested event ended the order in the state that it has. -/
def terminal (group : SetupObservation) (order : OrderObservation) (cutoff : Instant) : Bool :=
  group.brokerEvents.any fun e =>
    e.about order ∧ (e.executionType, order.state) ∈ terminalStates ∧ e.attested cutoff

/-! ### Volumes of positions -/

/-- `sum(Decimal(f.volume) for f in fills if f.positionId == position)`. -/
def filledInto (fills : List FillObservation) (position : Option Identity) : ℚ :=
  ((fills.filter fun f => f.positionId = position).map (·.volume.value)).sum

/-- `sum(Decimal(d.closedVolume) for d in closes if d.positionId == position)`. -/
def closedFrom (closes : List CloseObservation) (position : Identity) : ℚ :=
  ((closes.filter fun d => d.positionId = position).map (·.closedVolume.value)).sum

variable {fills fills' : List FillObservation} {closes closes' : List CloseObservation}

theorem filledInto_perm (h : fills'.Perm fills) (position : Option Identity) :
    filledInto fills' position = filledInto fills position :=
  ((h.filter _).map _).sum_eq

theorem closedFrom_perm (h : closes'.Perm closes) (position : Identity) :
    closedFrom closes' position = closedFrom closes position :=
  ((h.filter _).map _).sum_eq

end ScalpingBot.Learning
