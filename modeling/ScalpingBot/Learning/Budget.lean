import Mathlib.Algebra.BigOperators.Group.List.Basic
import Mathlib.Algebra.Order.BigOperators.Group.List
import Mathlib.Algebra.Ring.Int.Defs
import Mathlib.Data.List.Nodup
import ScalpingBot.Library.Checked

/-! The budget of the learning loop, python/learning/budget.py: reservations of a resource, each
    dispatched and then settled. Every call is one transaction, so a history is the list of the
    calls in the order in which they commit. Instants are microseconds since 1970 in UTC. -/

namespace ScalpingBot.Learning

/-- `Policy`, as far as the budget reads it. -/
structure Policy where
  paused : Bool
  dailyLimit : ℤ
  limit_valid : 1 ≤ dailyLimit ∧ dailyLimit ≤ 1000000000

/-- The status of a reservation. -/
inductive Status where | reserved | dispatched | complete | unknown
  deriving DecidableEq

/-- A row of `reservations`. -/
structure Reservation where
  id : String
  day : ℤ
  estimate : ℤ
  actual : Option ℤ
  status : Status
  topic : String
  created : ℤ
  binding : String
  deriving DecidableEq

structure Budget where
  policy : Policy
  reservations : List Reservation

/-- What `reserve` answers. -/
inductive ReserveStatus where
  | admitted | outcomeAlreadyClaimed | waitingLearningPaused | waitingLearningBudget
  deriving DecidableEq

/-- `at.date()`. -/
def dayOf (instant : ℤ) : ℤ := instant / 86400000000

/-- `COALESCE(actual, estimate)`. -/
def Reservation.worth (r : Reservation) : ℤ := r.actual.getD r.estimate

/-- The sum over the reservations of the day and those without an actual. -/
def charge (reservations : List Reservation) (day : ℤ) : ℤ :=
  ((reservations.filter fun r => r.day = day ∨ r.actual = none).map Reservation.worth).sum

/-- The largest integer that SQLite stores. -/
def integerMax : ℤ := 9223372036854775807

namespace Budget

/-- The database as the constructor makes it. -/
def create (policy : Policy) : Budget := ⟨policy, []⟩

def update (b : Budget) (value : Policy) : Budget := { b with policy := value }

def find (b : Budget) (key : String) : Option Reservation :=
  b.reservations.find? fun r => r.id = key

/-- The answer to a key that has a reservation. -/
def repeated (b : Budget) (prior : Reservation) (estimate : ℤ) (topic binding : String) :
    Except String (ReserveStatus × Budget) := do
  require (prior.estimate = estimate ∧ prior.topic = topic ∧ prior.binding = binding)
    "BUDGET_RESERVATION_CHANGED"
  return (if prior.status = .reserved then .admitted else .outcomeAlreadyClaimed, b)

/-- The daily limit, under the ceiling of the caller. -/
def limit (b : Budget) : Option ℤ → ℤ
  | some ceiling => min b.policy.dailyLimit ceiling
  | none => b.policy.dailyLimit

/-- The answer to a new key. -/
def reserveNew (b : Budget) (key : String) (estimate : ℤ) (topic : String) (now : ℤ)
    (ceiling : Option ℤ) (binding : String) : Except String (ReserveStatus × Budget) :=
  if b.policy.paused then .ok (.waitingLearningPaused, b)
  else do
    let charged := charge b.reservations (dayOf now)
    require (charged ≤ integerMax) "integer overflow"
    if charged + estimate > b.limit ceiling then return (.waitingLearningBudget, b)
    else return (.admitted, { b with
      reservations := b.reservations ++
        [⟨key, dayOf now, estimate, none, .reserved, topic, now, binding⟩] })

def reserve (b : Budget) (key : String) (estimate : ℤ) (topic : String) (now : ℤ)
    (ceiling : Option ℤ) (binding : String) : Except String (ReserveStatus × Budget) := do
  require (key ≠ "" ∧ key.length ≤ 256 ∧ 0 < estimate) "BUDGET_RESERVATION_INVALID"
  match b.find key with
  | some prior => b.repeated prior estimate topic binding
  | none => b.reserveNew key estimate topic now ceiling binding

def dispatch (b : Budget) (key : String) (now : ℤ) : Except String Budget := do
  require ((b.reservations.filter fun r => r.id = key ∧ r.status = .reserved).length = 1)
    "BUDGET_ALREADY_DISPATCHED_OR_UNKNOWN"
  return { b with
    reservations := b.reservations.map fun r =>
      if r.id = key ∧ r.status = .reserved then { r with status := .dispatched, day := dayOf now }
      else r }

/-- The status that an actual settles to. -/
def settledStatus (actual : Option ℤ) : Status := if actual = none then .unknown else .complete

/-- The settlement of a reservation that was found. -/
def settleRow (b : Budget) (key : String) (actual : Option ℤ) (row : Reservation) :
    Except String Budget := do
  require (row.status ≠ .reserved) "BUDGET_SETTLEMENT_INVALID"
  if row.status = .complete ∨ row.status = .unknown then
    require (row.actual = actual ∧ row.status = settledStatus actual) "BUDGET_SETTLEMENT_CHANGED"
    return b
  else do
    require (∀ a ∈ actual, a ≤ integerMax) "Python int too large to convert to SQLite INTEGER"
    return { b with
      reservations := b.reservations.map fun r =>
        if r.id = key then { r with actual := actual, status := settledStatus actual } else r }

def settle (b : Budget) (key : String) (actual : Option ℤ) : Except String Budget := do
  require (∀ a ∈ actual, 0 ≤ a) "BUDGET_USAGE_INVALID"
  match b.find key with
  | some row => b.settleRow key actual row
  | none => .error "BUDGET_SETTLEMENT_INVALID"

end Budget

/-- The calls that write. -/
inductive Call where
  | reserve (key : String) (estimate : ℤ) (topic : String) (ceiling : Option ℤ) (binding : String)
  | dispatch (key : String)
  | settle (key : String) (actual : Option ℤ)
  | update (value : Policy)

/-- The state that a call commits. -/
def Call.perform (b : Budget) (now : ℤ) : Call → Except String Budget
  | .reserve key estimate topic ceiling binding =>
    Prod.snd <$> b.reserve key estimate topic now ceiling binding
  | .dispatch key => b.dispatch key now
  | .settle key actual => b.settle key actual
  | .update value => .ok (b.update value)

/-- A call that raises an error is rolled back. -/
def step (b : Budget) (call : ℤ × Call) : Budget :=
  match call.2.perform b call.1 with
  | .ok after => after
  | .error _ => b

def run (b : Budget) (calls : List (ℤ × Call)) : Budget := calls.foldl step b

end ScalpingBot.Learning
