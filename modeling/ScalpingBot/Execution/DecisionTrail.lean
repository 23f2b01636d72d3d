import ScalpingBot.Execution.OrderMaintenance
import ScalpingBot.Library.Checked

/-! The transactions with which `PostgresDecisionTrail` (apps/execution-service/src/postgres-trail.ts)
    records a placement and a reconciliation, between those of the execution store. Row locks let
    each of them take effect at its commit; only the order rows that a CASE has seen may be older. -/

namespace ScalpingBot.Trail

open Store Transition
open Execution (GroupAdvanced forall₂_trans forall₂_map forall₂_updateWhere)

/-- The tables, the orders that have a `submitted_at`, and those that some state of the run has shown
    in a terminal state with a recorded fill. -/
structure Ledger where
  tables : Tables
  submitted : List ℕ
  ended : List ℕ

/-- The order has a filled volume, or a row in `fills`. -/
def recordedFill (t : Tables) (r : OrderRow) : Bool :=
  0 < r.filledVolume ∨ t.fills.any (·.orderId = some r.id)

def endedOrders (t : Tables) : List ℕ :=
  (t.orders.filter fun r => r.state.terminal ∧ recordedFill t r).map (·.id)

/-- `UPDATE orders`, with the constraints that it can violate. -/
def updateOrders (matched : OrderRow → Bool) (f : OrderRow → OrderRow) (t : Tables) :
    Except String Tables :=
  let orders := updateWhere matched f t.orders
  if orders.any fun r => matched r ∧
      (r.filledVolume < 0 ∨ r.normalizedVolume < r.filledVolume) then
    .error "orders_filled_volume_check"
  else if orders.any fun r => matched r ∧ r.brokerOrderId.isSome ∧ orders.any fun q =>
      q.id ≠ r.id ∧ q.accountId = r.accountId ∧ q.brokerOrderId = r.brokerOrderId then
    .error "unique_account_broker_order_id"
  else .ok { t with orders }

/-- The parameter `order.updatedAt` of a statement. -/
def timestamp (order : GatewayOrder) : Except String ℕ :=
  match order.updatedAt with
  | none => .error "invalid input syntax for type timestamp with time zone"
  | some time => .ok time

/-! ### Placement -/

def locallyRejectedBySession (order : GatewayOrder) : Except String Bool := do
  if order.reasonCode.getD "" ∉ ["MARKET_SESSION_CLOSED", "MARKET_SESSION_UNAVAILABLE",
      "DEMO_PEER_WITHHELD_BEFORE_DISPATCH", "DEMO_PREFLIGHT_RECONCILIATION_WITHHELD"] then
    return false
  require (order.state = .rejected ∧ order.brokerOrderId = none ∧ order.filledVolume = 0)
    "TRAIL_LOCAL_SESSION_REJECTION_INVALID"
  return true

/-- The SET of the placement. -/
def placedRow (order : GatewayOrder) (time : ℕ) (r : OrderRow) : OrderRow := {
  r with
  brokerOrderId := order.brokerOrderId
  state := orderStateOf order.state
  filledVolume := order.filledVolume
  updatedAt := time
  version := r.version + 1 }

/-- The WHERE of the placement. -/
def placedIn (submitted : List ℕ) (order : GatewayOrder) (rejected : Bool) (r : OrderRow) : Bool :=
  r.clientOrderId = order.clientOrderId ∧ (rejected = true → r.brokerOrderId = none ∧
    r.id ∉ submitted ∧ r.filledVolume = 0 ∧ r.state ∈ [.intent, .rejected])

/-- The statements on one order; `proven` tells whether the local proofs of the call hold. -/
def placeOrder (proven : Bool) (order : GatewayOrder) (s : Ledger) : Except String Ledger := do
  let rejected ← locallyRejectedBySession order
  let time ← timestamp order
  let matched := placedIn s.submitted order rejected
  let tables ← updateOrders matched (placedRow order time) s.tables
  require ((s.tables.orders.filter matched).length = 1) "TRAIL_PLACEMENT_EVIDENCE_CONFLICT"
  require (rejected = true → proven = true) "TRAIL_LOCAL_UNSENT_PROOF_CONFLICT"
  return ⟨tables, if rejected then s.submitted
    else s.submitted ++ (s.tables.orders.filter matched).map (·.id), s.ended⟩

def placeOrders (proven : Bool) : List GatewayOrder → Ledger → Except String Ledger
  | [], s => .ok s
  | order :: orders, s => do
    let s ← placeOrder proven order s
    placeOrders proven orders s

/-- The state that a placement gives its group. -/
def placementState (orders : List GatewayOrder) : OrderGroupState :=
  let sessionTerminal := orders.any (fun order => locallyRejectedBySession order = .ok true) ∧
    orders.all fun order => order.state ∈ [.rejected, .cancelled] ∧ order.filledVolume = 0
  if sessionTerminal ∨ orders.all (·.state = .rejected) then .failed
  else if orders.any (·.state = .unknown) then .reconciliationRequired
  else .active

/-- A group with the state that a statement writes. -/
def setGroup (gid : ℕ) (f : OrderGroupRow → OrderGroupRow) (t : Tables) : Tables :=
  { t with orderGroups := updateWhere (·.id = gid) f t.orderGroups }

/-- `placement`. -/
def placement (gid : ℕ) (orders : List GatewayOrder) (proven : Bool) (now : ℕ) (s : Ledger) :
    Except String Ledger := do
  let s ← placeOrders proven orders s
  return { s with
    tables := setGroup gid
      (fun g => { g with state := placementState orders, updatedAt := now }) s.tables }

/-! ### Reconciliation -/

/-- The orders of a snapshot that the trail records. -/
def recorded (orders : List GatewayOrder) : List GatewayOrder :=
  orders.filter fun order => ¬ "manual:".toList <+: order.clientOrderId.toList

/-- The SET of the reconciliation. -/
def reconciledRow (order : GatewayOrder) (time : ℕ) (r : OrderRow) : OrderRow := {
  r with
  brokerOrderId := order.brokerOrderId.or r.brokerOrderId
  state := orderStateOf order.state
  filledVolume := order.filledVolume
  updatedAt := time
  version := r.version + 1 }

def reconcileOrder (order : GatewayOrder) (t : Tables) : Except String Tables := do
  let time ← timestamp order
  updateOrders (·.clientOrderId = order.clientOrderId) (reconciledRow order time) t

def reconcileOrders : List GatewayOrder → Tables → Except String Tables
  | [], t => .ok t
  | order :: orders, t => do
    let t ← reconcileOrder order t
    reconcileOrders orders t

/-- The CASE of the reconciliation, over the order rows that its statement sees. -/
def reconciledState (seen : List OrderRow) (gid : ℕ) : OrderGroupState :=
  let order := fun states : List OrderState =>
    seen.any fun r => r.orderGroupId = gid ∧ r.state ∈ states
  if order [.partiallyFilled, .cancelPending, .unknown] then .reconciliationRequired
  else if order [.filled] ∧ order [.intent, .submitting, .pending] then .reconciliationRequired
  else if order [.filled] then .positionOpen
  else if ¬ order [.intent, .submitting, .pending] ∧ order [.expired] then .expired
  else if ¬ order [.intent, .submitting, .pending] then .failed
  else .active

/-- `state NOT IN ('CLOSED', 'EXPIRED', 'FAILED')`, and an order of the group was touched. -/
def touched (t : Tables) (orders : List GatewayOrder) (g : OrderGroupRow) : Bool :=
  g.state ∉ [.closed, .expired, .failed] ∧ t.orders.any fun r => r.orderGroupId = g.id ∧
    orders.any (·.clientOrderId = r.clientOrderId)

/-- `reconciliation`. -/
def reconciliation (snapshot : ReconciliationSnapshot) (seen : List OrderRow) (now : ℕ)
    (s : Ledger) : Except String Ledger := do
  let orders := recorded snapshot.orders
  let t ← reconcileOrders orders s.tables
  let groups := updateWhere (touched t orders)
    (fun g => { g with state := reconciledState seen g.id, updatedAt := now }) t.orderGroups
  let groups := if snapshot.certain then groups
    else updateWhere (touched t orders)
      (fun g => { g with state := .reconciliationRequired, updatedAt := now }) groups
  return { s with tables := { t with orderGroups := groups } }

/-! ### The transactions -/

/-- A group whose row was locked while the store waited gets the state of older order rows. -/
def restate (before after : Tables) : Option (ℕ × List OrderRow) → Tables
  | none => after
  | some (gid, seen) =>
    if before.orderGroups.all fun g => g.id = gid → g.state ∉ [.closed, .expired] then
      setGroup gid (fun g => { g with state := groupState { after with orders := seen } gid }) after
    else after

/-- A transaction that commits. -/
inductive Committed where
  | placement (orderGroupId : ℕ) (orders : List GatewayOrder) (proven : Bool) (now : ℕ)
  | reconciliation (snapshot : ReconciliationSnapshot) (seen : List OrderRow) (now : ℕ)
  | persist (d : Delivery) (seen : Option (ℕ × List OrderRow))

variable (o : PostgresDemoExecutionStoreOptions)

def execute (s : Ledger) : Committed → Except String Ledger
  | .placement gid orders proven now => placement gid orders proven now s
  | .reconciliation snapshot seen now => reconciliation snapshot seen now s
  | .persist d seen => .ok { s with tables := restate s.tables (deliver o s.tables d) seen }

/-- A step; a transaction that fails is rolled back and none. -/
def step (s : Ledger) (c : Committed) : Option Ledger :=
  (execute o s c).toOption.map fun t => { t with ended := s.ended ++ endedOrders t.tables }

def start (t : Tables) (submitted : List ℕ) : Ledger := ⟨t, submitted, endedOrders t⟩

/-! ### What no transaction should undo -/

/-- The row `r'` is a later one of the same order: no filled volume is lost, and an order that has
    ended with a fill does not become PENDING. -/
structure OrderKept (ended : List ℕ) (r r' : OrderRow) : Prop where
  id : r'.id = r.id
  filledVolume : r.filledVolume ≤ r'.filledVolume
  pending : r.id ∈ ended → r'.state = .pending → r.state = .pending

/-- No fill of `s` is undone in `s'`, and CLOSED stays. -/
structure Kept (s s' : Ledger) : Prop where
  orders : List.Forall₂ (OrderKept s.ended) s.tables.orders s'.tables.orders
  groups : List.Forall₂ GroupAdvanced s.tables.orderGroups s'.tables.orderGroups
  ended : s.ended ⊆ s'.ended

variable {o} {s s' s'' : Ledger} {t t' : Tables}

theorem OrderKept.refl {ended : List ℕ} (r : OrderRow) : OrderKept ended r r :=
  ⟨rfl, le_rfl, fun _ h => h⟩

theorem Kept.refl (s : Ledger) : Kept s s :=
  ⟨List.forall₂_same.mpr fun r _ => .refl r, List.forall₂_same.mpr fun g _ => .refl g,
    List.Subset.refl _⟩

theorem Kept.trans (h : Kept s s') (h' : Kept s' s'') : Kept s s'' := by
  have hweaker : List.Forall₂ (OrderKept s.ended) s'.tables.orders s''.tables.orders :=
    h'.orders.imp fun r r' hr =>
      ⟨hr.id, hr.filledVolume, fun hended => hr.pending (h.ended hended)⟩
  refine ⟨forall₂_trans ?_ h.orders hweaker, forall₂_trans ?_ h.groups h'.groups,
    fun id hid => h'.ended (h.ended hid)⟩
  · rintro a b c ⟨hid, hvolume, hpending⟩ ⟨hid', hvolume', hpending'⟩
    refine ⟨hid'.trans hid, hvolume.trans hvolume', fun hended hc => ?_⟩
    exact hpending hended (hpending' (hid.symm ▸ hended) hc)
  · rintro a b c ⟨hid, hclosed⟩ ⟨hid', hclosed'⟩
    exact ⟨hid'.trans hid, fun ha => hclosed' (hclosed ha)⟩

/-- The last of the answers for an order. -/
def lastAnswer (orders : List GatewayOrder) (clientOrderId : String) : Option GatewayOrder :=
  (orders.filter (·.clientOrderId = clientOrderId)).getLast?

/-- The orders of a placement that were not withheld before dispatch. -/
def dispatched (orders : List GatewayOrder) : List GatewayOrder :=
  orders.filter fun order => locallyRejectedBySession order = .ok false

/-- The answer is not older than the row, as far as it can be seen. -/
def Current (s : Ledger) (orders : List GatewayOrder) : Prop :=
  ∀ r ∈ s.tables.orders, ∀ answer, lastAnswer orders r.clientOrderId = some answer →
    r.filledVolume ≤ answer.filledVolume ∧
      (r.id ∈ s.ended → answer.state = .pending → r.state = .pending)

/-- What a transaction must find, so that it undoes no fill and no close. -/
def Finds (o : PostgresDemoExecutionStoreOptions) (s : Ledger) : Committed → Prop
  | .placement gid orders _ _ => Current s (dispatched orders) ∧
    ∀ g ∈ s.tables.orderGroups, g.id = gid → g.state ≠ .closed
  | .reconciliation snapshot _ _ => Current s (recorded snapshot.orders)
  | .persist d _ => ∀ m gid, Applies o s.tables d m gid → ∀ q, d.event.order = some q →
    q.state = .pending → ∀ r ∈ s.tables.orders, r.id ∈ s.ended → r.Takes o m.order q →
      r.state = .pending

theorem orderStateOf_pending {x : ExternalOrderState} : orderStateOf x = .pending ↔ x = .pending := by
  cases x <;> decide

theorem lastAnswer_cons (order : GatewayOrder) (orders : List GatewayOrder) (id : String) :
    lastAnswer (order :: orders) id =
      (lastAnswer orders id).or (if order.clientOrderId = id then some order else none) := by
  rw [lastAnswer, lastAnswer, List.filter_cons]
  by_cases h : order.clientOrderId = id
  · simp only [h, decide_true, if_true]
    cases hrest : orders.filter (·.clientOrderId = id) with
    | nil => rfl
    | cons a rest =>
      rw [List.getLast?_cons_cons]
      cases hlast : (a :: rest).getLast? with
      | none => simp at hlast
      | some last => rfl
  · simp [h]

theorem updateOrders_ok {matched : OrderRow → Bool} {f : OrderRow → OrderRow}
    (h : updateOrders matched f t = .ok t') :
    t' = { t with orders := updateWhere matched f t.orders } := by
  unfold updateOrders at h
  simp only at h
  split at h
  · cases h
  · split at h
    · cases h
    · cases h
      rfl

/-- A row after answers: it has what the last one says, or is as it was, save for a rejection. -/
def Answered (answer : Option GatewayOrder) (fixed : Prop) (r r' : OrderRow) : Prop :=
  match answer with
  | some a => r'.filledVolume = a.filledVolume ∧ r'.state = orderStateOf a.state
  | none => r'.filledVolume = r.filledVolume ∧ (r'.state = r.state ∨ r'.state = .rejected) ∧
    (fixed → r'.state = r.state)

/-- A row keeps what it has had exactly if the last answer on it keeps that. -/
theorem orderKept_answered {answer : Option GatewayOrder} {fixed : Prop} {ended : List ℕ}
    {r r' : OrderRow} (hid : r'.id = r.id) (h : Answered answer fixed r r') :
    OrderKept ended r r' ↔ ∀ a, answer = some a → r.filledVolume ≤ a.filledVolume ∧
      (r.id ∈ ended → a.state = .pending → r.state = .pending) := by
  cases answer with
  | none =>
    obtain ⟨hvolume, hstate, -⟩ := h
    refine iff_of_true ⟨hid, hvolume.ge, fun _ hpending => ?_⟩ fun a ha => by cases ha
    rcases hstate with hstate | hstate
    · rw [← hstate, hpending]
    · rw [hstate] at hpending
      cases hpending
  | some a =>
    obtain ⟨hvolume, hstate⟩ := h
    constructor
    · rintro ⟨-, hle, hpending⟩ _ ⟨⟩
      refine ⟨hvolume ▸ hle, fun hended ha => hpending hended ?_⟩
      rw [hstate, orderStateOf_pending, ha]
    · intro hkeeps
      obtain ⟨hle, hpending⟩ := hkeeps a rfl
      refine ⟨hid, hvolume.symm ▸ hle, fun hended hr => hpending hended ?_⟩
      rw [hstate] at hr
      exact orderStateOf_pending.mp hr

/-! ### Placement -/

theorem locallyRejected_ok {order : GatewayOrder}
    (h : locallyRejectedBySession order = .ok true) :
    order.state = .rejected ∧ order.filledVolume = 0 := by
  unfold locallyRejectedBySession at h
  split at h
  · cases h
  · simp only [bind_ok, require_ok, pure_ok] at h
    obtain ⟨-, ⟨hstate, -, hfilled⟩, -⟩ := h
    exact ⟨hstate, hfilled⟩

/-- What one answer leaves in a row, with the `submitted_at` that it sets. -/
theorem placeOrder_row {proven : Bool} {order : GatewayOrder} (h : placeOrder proven order s = .ok s') :
    ∃ rejected f, locallyRejectedBySession order = .ok rejected ∧
      s' = { s with tables := { s.tables with orders := s.tables.orders.map f },
                    submitted := s'.submitted } ∧
      (∀ id ∈ s.submitted, id ∈ s'.submitted) ∧
      ∀ r ∈ s.tables.orders, (f r).id = r.id ∧ (f r).clientOrderId = r.clientOrderId ∧
        (placedIn s.submitted order rejected r = false → f r = r) ∧
        (placedIn s.submitted order rejected r = true →
          (f r).filledVolume = order.filledVolume ∧ (f r).state = orderStateOf order.state ∧
          (rejected = false → r.id ∈ s'.submitted)) := by
  simp only [placeOrder, bind_ok, require_ok, pure_ok] at h
  obtain ⟨rejected, hrejected, time, -, tables, htables, -, -, -, -, rfl⟩ := h
  obtain rfl := updateOrders_ok htables
  refine ⟨rejected, fun r => if placedIn s.submitted order rejected r then placedRow order time r
    else r, hrejected, rfl, fun id hid => ?_, fun r hr => ?_⟩
  · dsimp only
    split
    · exact hid
    · exact List.mem_append_left _ hid
  · cases hplaced : placedIn s.submitted order rejected r with
    | false => simp [hplaced]
    | true =>
      simp only [hplaced, if_true]
      refine ⟨rfl, rfl, (fun hunplaced => by cases hunplaced),
        fun _ => ⟨rfl, rfl, fun hsent => ?_⟩⟩
      rw [if_neg (by simp [hsent])]
      exact List.mem_append_right _ (List.mem_map_of_mem (List.mem_filter.mpr ⟨hr, hplaced⟩))

/-- What the answers leave in the rows: an order that was not dispatched is at most rejected. -/
theorem placeOrders_rows {proven : Bool} {orders : List GatewayOrder}
    (h : placeOrders proven orders s = .ok s') : ∃ f : OrderRow → OrderRow,
      s' = { s with tables := { s.tables with orders := s.tables.orders.map f },
                    submitted := s'.submitted } ∧
      ∀ r ∈ s.tables.orders, (f r).id = r.id ∧
        Answered (lastAnswer (dispatched orders) r.clientOrderId) (r.id ∈ s.submitted) r (f r) := by
  induction orders generalizing s with
  | nil =>
    cases h
    exact ⟨id, by rw [List.map_id], fun r _ => ⟨rfl, rfl, .inl rfl, fun _ => rfl⟩⟩
  | cons order orders ih =>
    simp only [placeOrders, bind_ok] at h
    obtain ⟨s1, hfirst, hrest⟩ := h
    obtain ⟨rejected, f, hrejected, hs1, hsubmitted, hf⟩ := placeOrder_row hfirst
    obtain ⟨g, hs', hg⟩ := ih hrest
    refine ⟨g ∘ f, ?_, fun r hr => ?_⟩
    · rw [hs', hs1, List.map_map]
    · obtain ⟨hid, hclient, hkept, hwritten⟩ := hf r hr
      have hmem : f r ∈ s1.tables.orders := by
        rw [hs1]
        exact List.mem_map_of_mem hr
      obtain ⟨hgid, hanswered⟩ := hg (f r) hmem
      refine ⟨hgid.trans hid, ?_⟩
      rw [hclient, hid] at hanswered
      have hlast : lastAnswer (dispatched (order :: orders)) r.clientOrderId =
          (lastAnswer (dispatched orders) r.clientOrderId).or
            (if rejected = false ∧ order.clientOrderId = r.clientOrderId then some order
              else none) := by
        rw [dispatched, List.filter_cons, hrejected]
        cases rejected with
        | true => simp [dispatched]
        | false => simp [lastAnswer_cons, dispatched]
      rw [hlast, Function.comp_apply]
      cases hanswer : lastAnswer (dispatched orders) r.clientOrderId with
      | some a =>
        rw [hanswer] at hanswered
        exact hanswered
      | none =>
        rw [hanswer] at hanswered
        obtain ⟨hvolume, hstate, hfixed⟩ := hanswered
        rw [Option.none_or]
        cases hplaced : placedIn s.submitted order rejected r with
        | false =>
          rw [hkept hplaced] at hvolume hstate hfixed ⊢
          rw [if_neg]
          · exact ⟨hvolume, hstate, fun hid => hfixed (hsubmitted _ hid)⟩
          · rintro ⟨rfl, hsame⟩
            simp [placedIn, hsame] at hplaced
        | true =>
          obtain ⟨hfilled, hwrote, hsent⟩ := hwritten hplaced
          simp only [placedIn, decide_eq_true_eq] at hplaced
          cases rejected with
          | false =>
            rw [if_pos ⟨rfl, hplaced.1.symm⟩]
            exact ⟨hvolume.trans hfilled, (hfixed (hsent rfl)).trans hwrote⟩
          | true =>
            obtain ⟨hrejectedState, hzero⟩ := locallyRejected_ok hrejected
            obtain ⟨-, hnot, hnone, -⟩ := hplaced.2 rfl
            rw [if_neg (by simp)]
            refine ⟨by rw [hvolume, hfilled, hzero, hnone], .inr ?_, fun hid => absurd hid hnot⟩
            rcases hstate with hstate | hstate
            · rw [hstate, hwrote, hrejectedState]
              rfl
            · exact hstate

theorem placementState_ne_closed (orders : List GatewayOrder) :
    placementState orders ≠ .closed := by
  unfold placementState
  dsimp only
  split
  · decide
  · split <;> decide

theorem groups_updateWhere {p : OrderGroupRow → Bool} {f : OrderGroupRow → OrderGroupRow}
    {groups : List OrderGroupRow} (hid : ∀ g, (f g).id = g.id) (hf : ∀ g, (f g).state ≠ .closed) :
    List.Forall₂ GroupAdvanced groups (updateWhere p f groups) ↔
      ∀ g ∈ groups, p g = true → g.state ≠ .closed := by
  rw [forall₂_updateWhere GroupAdvanced.refl]
  refine forall₂_congr fun g _ => imp_congr_right fun _ => ⟨fun h hclosed => ?_, fun h => ?_⟩
  · exact hf g (h.closed hclosed)
  · exact ⟨hid g, fun hclosed => absurd hclosed h⟩

/-- The rows keep what they have had exactly if the last answers keep it. -/
theorem orders_kept_iff {orders : List GatewayOrder} {fixed : OrderRow → Prop}
    {f : OrderRow → OrderRow} (hf : ∀ r ∈ s.tables.orders, (f r).id = r.id ∧
      Answered (lastAnswer orders r.clientOrderId) (fixed r) r (f r)) :
    List.Forall₂ (OrderKept s.ended) s.tables.orders (s.tables.orders.map f) ↔
      Current s orders := by
  rw [forall₂_map]
  exact forall₂_congr fun r hr => orderKept_answered (hf r hr).1 (hf r hr).2

theorem placement_kept_iff {gid now : ℕ} {orders : List GatewayOrder} {proven : Bool}
    {ended : List ℕ} (hended : s.ended ⊆ ended) (h : placement gid orders proven now s = .ok s') :
    Kept s { s' with ended := ended } ↔ Finds o s (.placement gid orders proven now) := by
  simp only [placement, bind_ok, pure_ok] at h
  obtain ⟨s1, hplace, rfl⟩ := h
  obtain ⟨f, hs1, hf⟩ := placeOrders_rows hplace
  rw [hs1]
  have horders := orders_kept_iff hf
  have hgroups : List.Forall₂ GroupAdvanced s.tables.orderGroups
      (updateWhere (·.id = gid)
        (fun g => { g with state := placementState orders, updatedAt := now })
        s.tables.orderGroups) ↔ ∀ g ∈ s.tables.orderGroups, g.id = gid → g.state ≠ .closed := by
    refine (groups_updateWhere ?_ ?_).trans (by simp only [decide_eq_true_eq])
    · exact fun _ => rfl
    · exact fun _ => placementState_ne_closed orders
  exact ⟨fun h => ⟨horders.mp h.orders, hgroups.mp h.groups⟩,
    fun h => ⟨horders.mpr h.1, hgroups.mpr h.2, hended⟩⟩

/-! ### Reconciliation -/

theorem reconcileOrders_rows {orders : List GatewayOrder}
    (h : reconcileOrders orders t = .ok t') : ∃ f : OrderRow → OrderRow,
      t' = { t with orders := t.orders.map f } ∧ ∀ r, (f r).id = r.id ∧
        Answered (lastAnswer orders r.clientOrderId) True r (f r) := by
  induction orders generalizing t with
  | nil =>
    cases h
    exact ⟨id, by rw [List.map_id], fun r => ⟨rfl, rfl, .inl rfl, fun _ => rfl⟩⟩
  | cons order orders ih =>
    simp only [reconcileOrders, reconcileOrder, bind_ok] at h
    obtain ⟨t1, ⟨time, -, hupdate⟩, hrest⟩ := h
    obtain rfl := updateOrders_ok hupdate
    obtain ⟨g, ht', hg⟩ := ih hrest
    refine ⟨fun r => g (if decide (r.clientOrderId = order.clientOrderId) then
      reconciledRow order time r else r), ?_, fun r => ?_⟩
    · rw [ht', updateWhere, List.map_map]
      rfl
    · rw [lastAnswer_cons]
      by_cases hsame : r.clientOrderId = order.clientOrderId
      · obtain ⟨hid, hanswered⟩ := hg (reconciledRow order time r)
        simp only [hsame, decide_true, if_true]
        refine ⟨hid, ?_⟩
        rw [show (reconciledRow order time r).clientOrderId = order.clientOrderId from hsame]
          at hanswered
        cases hanswer : lastAnswer orders order.clientOrderId with
        | some a =>
          rw [hanswer] at hanswered
          exact hanswered
        | none =>
          rw [hanswer] at hanswered
          exact ⟨hanswered.1, hanswered.2.2 trivial⟩
      · obtain ⟨hid, hanswered⟩ := hg r
        simp only [hsame, decide_false, Bool.false_eq_true, if_false]
        refine ⟨hid, ?_⟩
        rw [if_neg (Ne.symm hsame), Option.or_none]
        exact hanswered

/-- A reconciliation leaves the CLOSED groups alone. -/
theorem touched_advanced {orders : List GatewayOrder} {f : OrderGroupRow → OrderGroupRow}
    {groups : List OrderGroupRow} (hid : ∀ g, (f g).id = g.id) :
    List.Forall₂ GroupAdvanced groups (updateWhere (touched t orders) f groups) := by
  refine (forall₂_updateWhere GroupAdvanced.refl).mpr fun g _ htouched => ?_
  refine ⟨hid g, fun hclosed => ?_⟩
  simp [touched, hclosed] at htouched

theorem groups_trans {as bs cs : List OrderGroupRow} (h : List.Forall₂ GroupAdvanced as bs)
    (h' : List.Forall₂ GroupAdvanced bs cs) : List.Forall₂ GroupAdvanced as cs :=
  forall₂_trans (fun _ _ _ h h' => ⟨h'.id.trans h.id, fun ha => h'.closed (h.closed ha)⟩) h h'

theorem reconciliation_kept_iff {snapshot : ReconciliationSnapshot} {seen : List OrderRow} {now : ℕ}
    {ended : List ℕ} (hended : s.ended ⊆ ended)
    (h : reconciliation snapshot seen now s = .ok s') :
    Kept s { s' with ended := ended } ↔ Finds o s (.reconciliation snapshot seen now) := by
  simp only [reconciliation, bind_ok, pure_ok] at h
  obtain ⟨t1, hrows, rfl⟩ := h
  obtain ⟨f, rfl, hf⟩ := reconcileOrders_rows hrows
  have horders := orders_kept_iff (s := s) fun r _ => hf r
  refine ⟨fun h => horders.mp h.orders, fun h => ⟨horders.mpr h, ?_, hended⟩⟩
  dsimp only
  split
  · exact touched_advanced fun _ => rfl
  · refine groups_trans (touched_advanced ?_) (touched_advanced ?_)
    · exact fun _ => rfl
    · exact fun _ => rfl

/-! ### The execution store -/

theorem deliver_groups (d : Delivery) :
    List.Forall₂ GroupAdvanced t.orderGroups (deliver o t d).orderGroups := by
  have hrefl : List.Forall₂ GroupAdvanced t.orderGroups t.orderGroups :=
    List.forall₂_same.mpr fun g _ => .refl g
  rw [deliver]
  split
  · next t' result hpersist =>
    rcases persist_cases hpersist with hkept | ⟨rows, m, id, replay, -, hmapped⟩
    · exact hkept.orderGroups ▸ hrefl
    · obtain ⟨f, hgroups, hf⟩ := persistMapped_groups hmapped
      rw [hgroups]
      refine forall₂_map.mpr fun g _ => ⟨(hf g).1, fun hclosed => ?_⟩
      rw [(hf g).2, if_neg, hclosed]
      simp [hclosed, OrderGroupState.finished]
  · exact hrefl

theorem restate_groups (d : Delivery) (seen : Option (ℕ × List OrderRow)) :
    List.Forall₂ GroupAdvanced t.orderGroups (restate t (deliver o t d) seen).orderGroups := by
  cases seen with
  | none => exact deliver_groups d
  | some seen =>
    obtain ⟨gid, rows⟩ := seen
    rw [restate]
    split
    · next hopen =>
      rw [setGroup, updateWhere, List.forall₂_map_right_iff]
      have hmem := (List.forall₂_and_left _ _).mpr
        ⟨fun g hg => List.all_eq_true.mp hopen g hg, deliver_groups (o := o) (t := t) d⟩
      refine hmem.imp fun g g' hg => ?_
      obtain ⟨hnot, hadvanced⟩ := hg
      split
      · next hid =>
        refine ⟨hadvanced.id, fun hclosed => ?_⟩
        rw [decide_eq_true_eq] at hid
        simp [hadvanced.id ▸ hid, hclosed] at hnot
      · exact hadvanced
    · exact deliver_groups d

theorem restate_orders {after : Tables} (seen : Option (ℕ × List OrderRow)) :
    (restate t after seen).orders = after.orders := by
  cases seen with
  | none => rfl
  | some seen =>
    rw [restate]
    split
    · rfl
    · rfl

/-- A row keeps what it has had exactly if it does not take a report of PENDING after its end. -/
theorem orderKept_stateAfter {event : DemoExecutionEvent} {order : Option OrderMatch}
    {ended : List ℕ} {r r' : OrderRow} (hid : r'.id = r.id) (hvolume : r.filledVolume ≤ r'.filledVolume)
    (hstate : r'.state = r.stateAfter o event order) :
    OrderKept ended r r' ↔ ∀ q, event.order = some q → q.state = .pending → r.id ∈ ended →
      r.Takes o order q → r.state = .pending := by
  constructor
  · rintro ⟨-, -, hpending⟩ q hq hqp hended htakes
    refine hpending hended ?_
    rw [hstate, OrderRow.stateAfter, hq]
    simp only [htakes, if_true]
    rw [hqp]
    rfl
  · intro h
    refine ⟨hid, hvolume, fun hended hpending => ?_⟩
    rw [hstate, OrderRow.stateAfter] at hpending
    split at hpending
    · next q hq =>
      split at hpending
      · next htakes => exact h q hq (orderStateOf_pending.mp hpending) hended htakes
      · exact hpending
    · exact hpending

theorem persist_kept_iff {d : Delivery} {seen : Option (ℕ × List OrderRow)} {ended : List ℕ}
    (hended : s.ended ⊆ ended) :
    Kept s ⟨restate s.tables (deliver o s.tables d) seen, s.submitted, ended⟩ ↔
      Finds o s (.persist d seen) := by
  have happlied : ∀ m gid, Applies o s.tables d m gid →
      (List.Forall₂ (OrderKept s.ended) s.tables.orders (deliver o s.tables d).orders ↔
        ∀ q, d.event.order = some q → q.state = .pending → ∀ r ∈ s.tables.orders,
          r.id ∈ s.ended → r.Takes o m.order q → r.state = .pending) := by
    rintro m gid ⟨-, rows, replay, t', result, hpersist, hmapped⟩
    obtain ⟨f, horders, hf⟩ := persistMapped_orders hmapped
    rw [show deliver o s.tables d = t' by rw [deliver, hpersist], horders]
    refine forall₂_map.trans ?_
    constructor
    · intro h q hq hqp r hr
      obtain ⟨hid, -, hvolume, hstate⟩ := hf r
      exact (orderKept_stateAfter hid hvolume hstate).mp (h r hr) q hq hqp
    · intro h r hr
      obtain ⟨hid, -, hvolume, hstate⟩ := hf r
      exact (orderKept_stateAfter hid hvolume hstate).mpr fun q hq hqp => h q hq hqp r hr
  constructor
  · intro h m gid happlies
    have horders := h.orders
    rw [restate_orders] at horders
    exact (happlied m gid happlies).mp horders
  · intro h
    refine ⟨?_, restate_groups d seen, hended⟩
    rw [restate_orders, deliver]
    split
    · next t' result hpersist =>
      rcases persist_cases hpersist with hkept | ⟨rows, m, id, replay, hmatches, hmapped⟩
      · exact hkept.orders ▸ List.forall₂_same.mpr fun r _ => .refl r
      · have happlies : Applies o s.tables d m id :=
          ⟨hmatches, rows, replay, t', result, hpersist, hmapped⟩
        have hkept := (happlied m id happlies).mpr (h m id happlies)
        rwa [deliver, hpersist] at hkept
    · exact List.forall₂_same.mpr fun r _ => .refl r

/-- A transaction undoes no fill and no close exactly if it finds the tables as it should. -/
theorem step_kept_iff (c : Committed) (h : step o s c = some s') : Kept s s' ↔ Finds o s c := by
  simp only [step, Option.map_eq_some_iff] at h
  obtain ⟨s1, hs1, rfl⟩ := h
  have hended : s.ended ⊆ s.ended ++ endedOrders s1.tables := List.subset_append_left _ _
  have hok : execute o s c = .ok s1 := by
    cases hexecute : execute o s c with
    | error e =>
      rw [hexecute] at hs1
      cases hs1
    | ok s2 =>
      rw [hexecute] at hs1
      rw [Option.some.inj hs1]
  cases c with
  | placement gid orders proven now => exact placement_kept_iff hended hok
  | reconciliation snapshot seen now => exact reconciliation_kept_iff hended hok
  | persist d seen =>
    cases hok
    exact persist_kept_iff hended

/-- However placements, reconciliations and transactions of the store interleave: no filled volume
    is lost, an order that has ended with a fill does not become PENDING, and CLOSED stays, exactly
    if every transaction finds the tables as it should. -/
theorem trail_keeps_iff {submitted : List ℕ} {cs : List Committed} {z : Ledger}
    (hrun : run (step o) (start t submitted) cs = some z) :
    Evolves (step o) Kept (start t submitted) cs ↔
      Guarded (step o) (Finds o) (start t submitted) cs :=
  evolves_iff_guarded Kept.refl (fun _ _ _ => Kept.trans) (fun _ c _ => step_kept_iff c) hrun

namespace Sample

open Store.Sample (entry close report options store)

/-- The answer of the gateway before any fill. -/
def working : GatewayOrder := ⟨"cas-b", some "1", .pending, 0, some 1, none⟩

/-- The order is filled and its position closed before the placement is recorded. -/
def latePlacement : List Committed :=
  [.persist { event := entry } none, .persist { event := close "2" 5 } none,
    .placement 1 [working] true 6]

/-- The order is filled in part before the snapshot is recorded. -/
def lateSnapshot : List Committed :=
  [.persist { event := { report "deal:1" 11 .partiallyFilled 300 2 with
      brokerPositionId := some "9"
      brokerFillId := some "1"
      position := some ⟨"9", .buy, .opened, 300, some 10, none, none, some 2, none, 2⟩
      fill := some ⟨"1", "1", "9", 10, 300, 0, 2⟩ } } none,
    .reconciliation ⟨true, [working], 0⟩ store.orders 6]

end Sample

/-- The rows of two states in which the later one undoes a fill. -/
theorem not_kept (h : ∃ rows ∈ s.tables.orders.zip s'.tables.orders,
    rows.2.filledVolume < rows.1.filledVolume) : ¬ Kept s s' := by
  rintro ⟨horders, -, -⟩
  obtain ⟨⟨r, r'⟩, hmem, hless⟩ := h
  obtain ⟨-, hvolume, -⟩ := List.forall₂_zip horders hmem
  exact absurd hvolume (not_le.mpr hless)

/-- A run whose last part loses a filled volume. -/
theorem not_evolves_of_loss {cs : List Committed} (n : ℕ)
    (hloss : (run (step o) s (cs.take n)).any fun u => (run (step o) u (cs.drop n)).any fun z =>
      (u.tables.orders.zip z.tables.orders).any fun rows =>
        rows.2.filledVolume < rows.1.filledVolume) : ¬ Evolves (step o) Kept s cs := by
  intro hev
  obtain ⟨u, hu, hloss⟩ := (Option.any_eq_true _ _).mp hloss
  obtain ⟨z, hz, hloss⟩ := (Option.any_eq_true _ _).mp hloss
  obtain ⟨rows, hrows, hless⟩ := List.any_eq_true.mp hloss
  refine not_kept ⟨rows, hrows, of_decide_eq_true hless⟩ ?_
  exact hev (cs.take n) (cs.drop n) [] (by simp) u z hu hz

/-- What a run leaves in the tables. -/
def outcome (o : PostgresDemoExecutionStoreOptions) (t : Tables) (cs : List Committed) :
    Option (List (OrderState × Decimal) × List OrderGroupState) :=
  (run (step o) (start t []) cs).map fun s =>
    (s.tables.orders.map fun r => (r.state, r.filledVolume), s.tables.orderGroups.map (·.state))

/-- A placement recorded after the fill and the close takes both back: FILLED with 1000 becomes
    PENDING with 0, and CLOSED becomes ACTIVE. A snapshot recorded after a fill of 300 does the
    former. -/
theorem late_records_undo :
    outcome Sample.options Sample.store (Sample.latePlacement.take 2) =
      some ([(.filled, 1000)], [.closed]) ∧
    outcome Sample.options Sample.store Sample.latePlacement = some ([(.pending, 0)], [.active]) ∧
    ¬ Evolves (step Sample.options) Kept (start Sample.store []) Sample.latePlacement ∧
    outcome Sample.options Sample.store (Sample.lateSnapshot.take 1) =
      some ([(.partiallyFilled, 300)], [.reconciliationRequired]) ∧
    outcome Sample.options Sample.store Sample.lateSnapshot = some ([(.pending, 0)], [.active]) ∧
    ¬ Evolves (step Sample.options) Kept (start Sample.store []) Sample.lateSnapshot := by
  refine ⟨by decide +kernel, by decide +kernel, ?_, by decide +kernel, by decide +kernel, ?_⟩
  · exact not_evolves_of_loss 2 (by decide +kernel)
  · exact not_evolves_of_loss 1 (by decide +kernel)

theorem trail_keeps_iff_latePlacement :
    ¬ Guarded (step Sample.options) (Finds Sample.options) (start Sample.store [])
      Sample.latePlacement := by
  have hsome : (run (step Sample.options) (start Sample.store []) Sample.latePlacement).isSome := by
    decide +kernel
  obtain ⟨z, hrun⟩ := Option.isSome_iff_exists.mp hsome
  have hnot : ¬ Evolves (step Sample.options) Kept (start Sample.store []) Sample.latePlacement :=
    not_evolves_of_loss 2 (by decide +kernel)
  exact fun hguarded => hnot ((trail_keeps_iff hrun).mpr hguarded)

end ScalpingBot.Trail
