import Mathlib.Data.List.Forall2
import ScalpingBot.Library.Program
import ScalpingBot.Store.GroupStates

/-! `OrderMaintenance` (apps/execution-service/src/order-maintenance.ts): the cancellation of order
    rows, one SQL statement after the other, between the transactions of the execution store. The
    broker, the clock and those transactions are the environment; a broker call or a statement may
    fail. The statements on `analysis_runs` are turns that leave the tables. -/

namespace ScalpingBot.Execution

open Store
open Program (perform remember recollect Triple)

structure OrderMaintenance where
  scope : PostgresDemoExecutionStoreOptions
  symbol : String
  /-- `expires_at` of the groups with `time_in_force = 'GTD'`. -/
  dated : ℕ → Option ℕ

/-! ### Statements -/

/-- The rows that a selection returns. -/
structure CancelRow where
  clientOrderId : String
  orderGroupId : ℕ
  deriving DecidableEq

/-- The statements that write, with their parameters, and a whole transaction of the store. -/
inductive Statement where
  | persist (d : Delivery)
  | cancelPending (row : CancelRow) (now : ℕ)
  | update (update : GatewayOrder) (orderGroupId : ℕ)
  | group (orderGroupId : ℕ) (certain : Bool) (reasonCode : String) (now : ℕ)

section

variable (o : OrderMaintenance) (t : Tables)

/-- `client_order_id=… AND account_id=… AND order_group_id=… AND strategy_owned=true`. -/
def named (row : CancelRow) (r : OrderRow) : Bool :=
  r.clientOrderId = row.clientOrderId ∧ r.accountId = o.scope.accountId ∧
    r.orderGroupId = row.orderGroupId ∧ r.strategyOwned

/-- The first statement on a row: it is marked before the broker is asked to cancel it. -/
def cancelPending (row : CancelRow) (now : ℕ) : Tables :=
  { t with
    orders := updateWhere (named o row)
      (fun r => { r with state := .cancelPending, version := r.version + 1, updatedAt := now })
      t.orders }

/-- The row takes what the broker answered to the cancellation. -/
def writeUpdate (update : GatewayOrder) (orderGroupId : ℕ) : Except String Tables :=
  match update.updatedAt with
  | none => .error "invalid input syntax for type timestamp with time zone"
  | some time =>
    let matched := named o ⟨update.clientOrderId, orderGroupId⟩
    let orders := updateWhere matched
      (fun r =>
        { r with
          state := orderStateOf update.state
          brokerOrderId := update.brokerOrderId.or r.brokerOrderId
          filledVolume := update.filledVolume
          updatedAt := time
          version := r.version + 1 }) t.orders
    if orders.any fun r => matched r ∧
        (r.filledVolume < 0 ∨ r.normalizedVolume < r.filledVolume) then
      .error "orders_filled_volume_check"
    else if orders.any fun r => matched r ∧ r.brokerOrderId.isSome ∧ orders.any fun q =>
        q.id ≠ r.id ∧ q.accountId = r.accountId ∧ q.brokerOrderId = r.brokerOrderId then
      .error "unique_account_broker_order_id"
    else .ok { t with orders }

/-- The state that the last statement on a group writes. -/
def groupStateWritten (certain : Bool) (reasonCode : String) : OrderGroupState :=
  if certain then
    if reasonCode = "OCO_PEER_UNFILLED_TERMINAL" then .failed else .expired
  else .reconciliationRequired

def writeGroup (orderGroupId : ℕ) (certain : Bool) (reasonCode : String) (now : ℕ) : Tables :=
  { t with
    orderGroups := updateWhere (fun g => g.id = orderGroupId)
      (fun g =>
        { g with
          state := groupStateWritten certain reasonCode
          cancellationReason := some reasonCode
          updatedAt := now }) t.orderGroups }

/-- The tables after a statement. -/
def execute : Statement → Except String Tables
  | .persist d => .ok (deliver o.scope t d)
  | .cancelPending row now => .ok (cancelPending o t row now)
  | .update update orderGroupId => writeUpdate o t update orderGroupId
  | .group orderGroupId certain reasonCode now =>
    .ok (writeGroup t orderGroupId certain reasonCode now)

/-! ### Selections -/

/-- The join of an order with its group and analysis. -/
def ownedOrder (r : OrderRow) : Bool :=
  r.strategyOwned ∧ (t.orderGroup r.orderGroupId).any fun og =>
    og.analysis.accountId = o.scope.accountId ∧ og.analysis.symbolId = o.scope.symbolId

def selectOrders (p : OrderRow → Bool) : List CancelRow :=
  (t.orders.filter fun r => ownedOrder o t r && p r).map fun r => ⟨r.clientOrderId, r.orderGroupId⟩

/-- Working orders of a group in which another order was filled. -/
def filledPeers : List CancelRow :=
  selectOrders o t fun r => r.state ∈ [.pending, .partiallyFilled, .cancelPending] ∧
    t.orders.any fun filled => filled.orderGroupId = r.orderGroupId ∧ filled.id ≠ r.id ∧
      filled.strategyOwned ∧
      (filled.state ∈ [.filled, .partiallyFilled] ∨ 0 < filled.filledVolume)

/-- An event of the symbol waits for its resolution. -/
def unresolvedEvent : Bool :=
  t.events.any fun e => e.accountId = o.scope.accountId ∧ e.symbolId = o.scope.symbolId ∧
    e.resolvedAt = none ∧ (e.mappingState ≠ .mapped ∨ e.reasonCodes ≠ [])

/-- Some order of the group has a fill. -/
def groupFilled (orderGroupId : ℕ) : Bool :=
  t.fills.any fun f => t.orders.any fun fo =>
    f.orderId = some fo.id ∧ fo.orderGroupId = orderGroupId

/-- The broker confirmed that this order ended without a fill. -/
def endedUnfilled (peer : OrderRow) : Bool :=
  peer.accountId = o.scope.accountId ∧ peer.strategyOwned ∧
    peer.state ∈ [.cancelled, .expired, .rejected] ∧ peer.filledVolume = 0 ∧
    t.events.any fun e => e.orderId = some peer.id ∧ e.accountId = o.scope.accountId ∧
      e.symbolId = o.scope.symbolId ∧ e.mappingState = .mapped ∧
      e.normalizedPayload.executionType ∈ [5, 6, 7] ∧
      e.normalizedPayload.orderState.any (orderStateOf · = peer.state)

/-- Survivors of pairs whose other order ended without a fill. -/
def incompletePairs : List CancelRow :=
  selectOrders o t fun r => r.accountId = o.scope.accountId ∧ r.filledVolume = 0 ∧
    r.state ∈ [.pending, .cancelPending] ∧
    (t.orderGroup r.orderGroupId).any (fun og => og.state ∉ [.closed, .expired, .failed]) ∧
    (t.orders.filter (·.orderGroupId = r.orderGroupId)).length = 2 ∧
    (t.orders.any fun peer => peer.orderGroupId = r.orderGroupId ∧ peer.id ≠ r.id ∧
      endedUnfilled o t peer) ∧
    ¬ t.positions.any (·.orderGroupId = some r.orderGroupId) ∧
    ¬ groupFilled t r.orderGroupId ∧ ¬ unresolvedEvent o t

/-- The states in which `cancelAll` selects an order. -/
def cancellable (s : OrderState) : Bool :=
  s ∈ [.intent, .submitting, .pending, .partiallyFilled, .cancelPending, .unknown]

def expiredOrders (now : ℕ) : List CancelRow :=
  selectOrders o t fun r => cancellable r.state ∧ (o.dated r.orderGroupId).any (· ≤ now)

def activeOrders (datedOnly : Bool) : List CancelRow :=
  selectOrders o t fun r => cancellable r.state ∧ (datedOnly → (o.dated r.orderGroupId).isSome)

/-- The check of a group whose pair was left incomplete, after the cancellation. -/
def terminalPair (orderGroupId : ℕ) : Bool :=
  (t.orders.filter (·.orderGroupId = orderGroupId)).length = 2 ∧
    ¬ (t.orders.any fun r => r.orderGroupId = orderGroupId ∧
      (r.state ∉ [.cancelled, .expired, .rejected] ∨ r.filledVolume ≠ 0)) ∧
    ¬ t.positions.any (·.orderGroupId = some orderGroupId) ∧
    ¬ groupFilled t orderGroupId ∧ ¬ unresolvedEvent o t

end

/-! ### The maintenance -/

/-- What happens before a statement: transactions of the store commit, and time passes. -/
structure Turn where
  before : List Delivery := []
  now : ℕ := 0

inductive Call where
  | turn
  | order (rows : List CancelRow)
  | cancelStrategyOrder (clientOrderId reasonCode : String)
  | reconcile (symbol : String)

/-- What a call answers; a selection returns its rows in any order. -/
def Answer : Call → Type
  | .turn => Turn
  | .order rows => { rows' : List CancelRow // rows'.Perm rows }
  | .cancelStrategyOrder .. => GatewayOrder
  | .reconcile _ => ReconciliationSnapshot

abbrev Environment := Program.Environment Call Answer String

/-- The tables, and the statements that made them what they are. -/
structure History where
  tables : Tables
  statements : List Statement := []

abbrev Process (α : Type) := Program (Program.Record Call Answer String History) String α

/-- What `#cancelRows` collects for a group. -/
structure CancelGroup where
  updates : List GatewayOrder := []
  failed : Bool := false

/-- The `Map` of groups, in the order of insertion. -/
abbrev CancelGroups := List (ℕ × CancelGroup)

def CancelGroups.get (groups : CancelGroups) (id : ℕ) : CancelGroup :=
  (groups.lookup id).getD {}

def CancelGroups.set (groups : CancelGroups) (id : ℕ) (group : CancelGroup) : CancelGroups :=
  if groups.any fun entry => entry.1 = id then
    groups.map fun entry => if entry.1 = id then (id, group) else entry
  else groups ++ [(id, group)]

/-- The state of a broker order that is still at work. -/
def activeAtBroker (order : GatewayOrder) : Bool :=
  order.state ∈ [.pending, .partiallyFilled, .unknown]

/-- Nothing of the symbol is left at the broker, and no cancellation failed. -/
def certainlyFlat (reasonCode : String) (failed : Bool) (reconciliation : ReconciliationSnapshot) :
    Bool :=
  reasonCode ≠ "OCO_PEER_FILLED" ∧ ¬ failed ∧ reconciliation.certain ∧
    ¬ reconciliation.orders.any activeAtBroker ∧ reconciliation.relevantPositionCount = 0

section

variable (o : OrderMaintenance) (env : Environment)

def ask (c : Call) : Process (Answer c) := perform env id c

/-- One statement that writes, or one transaction of the store. -/
def statement (s : Statement) : Process Unit := do
  let history ← recollect
  match execute o history.tables s with
  | .ok tables => remember fun _ => ⟨tables, history.statements ++ [s]⟩
  | .error message => throw message

/-- The transactions that commit before the next statement. -/
def commit : List Delivery → Process Unit
  | [] => pure ()
  | d :: ds => do
    statement o (.persist d)
    commit ds

/-- The time at which the next statement runs. -/
def turn : Process ℕ := do
  let turn : Turn ← ask env .turn
  commit o turn.before
  return turn.now

/-- A selection on the tables as they are. -/
def select (rows : Tables → ℕ → List CancelRow) : Process (List CancelRow) := do
  let now ← turn o env
  let history ← recollect
  let answer : { rows' : List CancelRow // rows'.Perm (rows history.tables now) } ←
    ask env (.order (rows history.tables now))
  return answer.1

/-- The first loop of `#cancelRows`: a row is marked, then the broker is asked to cancel it. -/
def cancelEach (reasonCode : String) : List CancelRow → CancelGroups → Process CancelGroups
  | [], groups => pure groups
  | row :: rows, groups => do
    let now ← turn o env
    statement o (.cancelPending row now)
    let group := groups.get row.orderGroupId
    let group ← Program.recover
      (do
        let update : GatewayOrder ← ask env (.cancelStrategyOrder row.clientOrderId reasonCode)
        return { group with updates := group.updates ++ [update] })
      (fun _ => pure { group with failed := true })
    cancelEach reasonCode rows (groups.set row.orderGroupId group)

/-- The rows of a group take what the broker answered. -/
def updateEach (orderGroupId : ℕ) : List GatewayOrder → Process Unit
  | [] => pure ()
  | update :: updates => do
    let _ ← turn o env
    statement o (.update update orderGroupId)
    updateEach orderGroupId updates

/-- A fill can race the cancellation of an incomplete pair, so its rows are looked at again. -/
def stillCertain (reasonCode : String) (orderGroupId : ℕ) (certain : Bool) : Process Bool := do
  if reasonCode = "OCO_PEER_UNFILLED_TERMINAL" then
    let _ ← turn o env
    let history ← recollect
    return certain && terminalPair o history.tables orderGroupId
  else return certain

/-- The second loop of `#cancelRows`. -/
def finishEach (reasonCode : String) (reconciliation : ReconciliationSnapshot) :
    CancelGroups → Process Unit
  | [] => pure ()
  | (orderGroupId, group) :: groups => do
    updateEach o env orderGroupId group.updates
    let certain ← stillCertain o env reasonCode orderGroupId
      (certainlyFlat reasonCode group.failed reconciliation)
    let now ← turn o env
    statement o (.group orderGroupId certain reasonCode now)
    if certain then
      let _ ← turn o env  -- the analysis expires
    finishEach reasonCode reconciliation groups

/-- `#cancelRows`. -/
def cancelRows (rows : List CancelRow) (reasonCode : String) : Process Unit := do
  let groups ← cancelEach o env reasonCode rows []
  let reconciliation : ReconciliationSnapshot ← ask env (.reconcile o.symbol)
  finishEach o env reasonCode reconciliation groups
  if ¬ reconciliation.certain ∨ reconciliation.orders.any activeAtBroker then
    throw "ORDER_MAINTENANCE_RECONCILIATION_REQUIRED"
  else pure ()

/-- The rows that a selection finds are cancelled. -/
def cancelSelected (rows : Tables → ℕ → List CancelRow) (reasonCode : String) : Process Unit := do
  let found ← select o env rows
  if found = [] then pure () else cancelRows o env found reasonCode

/-- `expireAndReconcile`. -/
def expireAndReconcile : Process Unit := do
  let _ ← turn o env  -- analyses without a working group expire
  cancelSelected o env (fun t _ => filledPeers o t) "OCO_PEER_FILLED"
  cancelSelected o env (fun t _ => incompletePairs o t) "OCO_PEER_UNFILLED_TERMINAL"
  cancelSelected o env (fun t now => expiredOrders o t now) "ANALYSIS_EXPIRED"

/-- `cancelAll`. -/
def cancelAll (reasonCode : String) (datedOnly : Bool) : Process Unit :=
  cancelSelected o env (fun t _ => activeOrders o t datedOnly) reasonCode

/-- A call of the maintenance in some environment, or a transaction of the store between calls. -/
inductive Activity where
  | expireAndReconcile (env : Environment)
  | cancelAll (env : Environment) (reasonCode : String) (datedOnly : Bool)
  | persist (d : Delivery)

def activityProcess : Activity → Process Unit
  | .expireAndReconcile env => expireAndReconcile o env
  | .cancelAll env reasonCode datedOnly => cancelAll o env reasonCode datedOnly
  | .persist d => statement o (.persist d)

/-- What is left after calls and transactions, one after the other; a call may have thrown. -/
def historyAfter (activities : List Activity) (h : History) : History :=
  activities.foldl (fun h a => (Program.outcome (activityProcess o a) ⟨[], h⟩).2.memory) h

end

/-! ### The statements of a history -/

open Transition

variable {o : OrderMaintenance} {env : Environment} {t t' : Tables} {α β : Type}

/-- A statement as a step of the tables; one that fails is none. -/
def executed (o : OrderMaintenance) (t : Tables) (s : Statement) : Option Tables :=
  (execute o t s).toOption

/-- The tables of the history are what its statements make of `t`. -/
def Explained (o : OrderMaintenance) (t : Tables) (h : History) : Prop :=
  run (executed o) t h.statements = some h.tables

/-- A process whose statements explain the tables. -/
def Explains (o : OrderMaintenance) (m : Process α) : Prop :=
  ∀ t, Triple (fun s => Explained o t s.memory) m (fun _ s => Explained o t s.memory)
    fun _ s => Explained o t s.memory

theorem explains_pure (a : α) : Explains o (pure a : Process α) :=
  fun _ => Triple.pure fun _ h => h

theorem explains_throw (e : String) : Explains o (throw e : Process α) :=
  fun _ => Triple.exit fun _ h => h

theorem Explains.bind {m : Process α} {f : α → Process β} (hm : Explains o m)
    (hf : ∀ a, Explains o (f a)) : Explains o (m >>= f) :=
  fun t => Triple.bind (hm t) fun a => hf a t

theorem explains_ite {c : Prop} [Decidable c] {m m' : Process α} (hm : Explains o m)
    (hm' : Explains o m') : Explains o (if c then m else m') :=
  fun t => Triple.ite (fun _ => hm t) fun _ => hm' t

theorem Explains.recover {m : Process α} {handler : String → Process α} (hm : Explains o m)
    (hh : ∀ e, Explains o (handler e)) : Explains o (Program.recover m handler) :=
  fun t => Triple.recover (hm t) fun e => hh e t

theorem explains_ask (c : Call) : Explains o (ask env c) :=
  fun _ => Triple.perform (fun _ _ h => h) fun _ _ h => h

theorem explains_recollect : Explains o (recollect : Process History) :=
  fun _ => Triple.recollect fun _ h => h

theorem explains_statement (s : Statement) : Explains o (statement o s) := by
  intro t
  have hrecall : Triple (fun s : Program.Record Call Answer String History =>
      Explained o t s.memory) (recollect : Process History)
      (fun found s => found = s.memory ∧ Explained o t s.memory)
      fun _ s => Explained o t s.memory := Triple.recollect fun _ h => ⟨rfl, h⟩
  refine hrecall.bind fun found => ?_
  split
  · next tables htables =>
    refine Triple.remember fun r h => ?_
    obtain ⟨rfl, h⟩ := h
    exact run_append h (run_cons.mpr ⟨tables, by rw [executed, htables]; rfl, rfl⟩)
  · exact Triple.exit fun _ h => h.2

theorem explains_commit (ds : List Delivery) : Explains o (commit o ds) := by
  induction ds with
  | nil => exact explains_pure _
  | cons d ds ih => exact (explains_statement _).bind fun _ => ih

theorem explains_turn : Explains o (turn o env) :=
  (explains_ask .turn).bind fun (turn : Turn) =>
    (explains_commit turn.before).bind fun _ => explains_pure _

theorem explains_select (rows : Tables → ℕ → List CancelRow) : Explains o (select o env rows) :=
  explains_turn.bind fun now => explains_recollect.bind fun history =>
    (explains_ask (.order (rows history.tables now))).bind fun _ => explains_pure _

theorem explains_cancelEach (reasonCode : String) (rows : List CancelRow) (groups : CancelGroups) :
    Explains o (cancelEach o env reasonCode rows groups) := by
  induction rows generalizing groups with
  | nil => exact explains_pure _
  | cons row rows ih =>
    refine explains_turn.bind fun now => (explains_statement _).bind fun _ => ?_
    refine Explains.bind ?_ fun group => ih _
    refine Explains.recover ?_ fun _ => explains_pure _
    exact (explains_ask _).bind fun _ => explains_pure _

theorem explains_updateEach (orderGroupId : ℕ) (updates : List GatewayOrder) :
    Explains o (updateEach o env orderGroupId updates) := by
  induction updates with
  | nil => exact explains_pure _
  | cons update updates ih =>
    exact explains_turn.bind fun _ => (explains_statement _).bind fun _ => ih

theorem explains_stillCertain (reasonCode : String) (orderGroupId : ℕ) (certain : Bool) :
    Explains o (stillCertain o env reasonCode orderGroupId certain) :=
  explains_ite (explains_turn.bind fun _ => explains_recollect.bind fun _ => explains_pure _)
    (explains_pure _)

theorem explains_finishEach (reasonCode : String) (reconciliation : ReconciliationSnapshot)
    (groups : CancelGroups) : Explains o (finishEach o env reasonCode reconciliation groups) := by
  induction groups with
  | nil => exact explains_pure _
  | cons entry groups ih =>
    refine (explains_updateEach _ _).bind fun _ => ?_
    refine (explains_stillCertain _ _ _).bind fun certain => ?_
    refine explains_turn.bind fun now => (explains_statement _).bind fun _ => ?_
    exact explains_ite (explains_turn.bind fun _ => ih) ih

theorem explains_cancelSelected (rows : Tables → ℕ → List CancelRow) (reasonCode : String) :
    Explains o (cancelSelected o env rows reasonCode) := by
  refine (explains_select rows).bind fun found => explains_ite (explains_pure _) ?_
  refine (explains_cancelEach _ _ _).bind fun groups => ?_
  refine (explains_ask _).bind fun reconciliation => (explains_finishEach _ _ _).bind fun _ => ?_
  exact explains_ite (explains_throw _) (explains_pure _)

theorem explains_activity (a : Activity) : Explains o (activityProcess o a) := by
  cases a with
  | expireAndReconcile env =>
    exact explains_turn.bind fun _ => (explains_cancelSelected _ _).bind fun _ =>
      (explains_cancelSelected _ _).bind fun _ => explains_cancelSelected _ _
  | cancelAll env reasonCode datedOnly => exact explains_cancelSelected _ _
  | persist d =>
    rw [activityProcess]
    exact explains_statement (.persist d)

/-- The tables of a history are explained by its statements. -/
theorem explained_historyAfter {activities : List Activity} {h : History} (hh : Explained o t h) :
    Explained o t (historyAfter o activities h) := by
  induction activities generalizing h with
  | nil => exact hh
  | cons a activities ih =>
    have hafter := explains_activity a t ⟨[], h⟩ hh
    have hmemory : Explained o t (Program.outcome (activityProcess o a) ⟨[], h⟩).2.memory := by
      generalize Program.outcome (activityProcess o a) ⟨[], h⟩ = r at hafter ⊢
      rcases r with ⟨e | a, s⟩ <;> exact hafter
    exact ih hmemory

/-! ### What no statement should undo -/

/-- The row `r'` is a later one of the same order: no filled volume is lost, and FILLED stays. -/
structure OrderAdvanced (r r' : OrderRow) : Prop where
  id : r'.id = r.id
  filledVolume : r.filledVolume ≤ r'.filledVolume
  filled : r.state = .filled → r'.state = .filled

/-- The row `g'` is a later one of the same group, and CLOSED stays. -/
structure GroupAdvanced (g g' : OrderGroupRow) : Prop where
  id : g'.id = g.id
  closed : g.state = .closed → g'.state = .closed

/-- The tables `t'` are later ones, in which no fill and no close of `t` is undone. -/
structure Advanced (t t' : Tables) : Prop where
  orders : List.Forall₂ OrderAdvanced t.orders t'.orders
  groups : List.Forall₂ GroupAdvanced t.orderGroups t'.orderGroups

theorem OrderAdvanced.refl (r : OrderRow) : OrderAdvanced r r := ⟨rfl, le_rfl, fun h => h⟩

theorem GroupAdvanced.refl (g : OrderGroupRow) : GroupAdvanced g g := ⟨rfl, fun h => h⟩

theorem Advanced.refl (t : Tables) : Advanced t t :=
  ⟨List.forall₂_same.mpr fun r _ => .refl r, List.forall₂_same.mpr fun g _ => .refl g⟩

theorem forall₂_trans {R : α → α → Prop} (hR : ∀ a b c, R a b → R b c → R a c) {as bs cs : List α}
    (h : List.Forall₂ R as bs) (h' : List.Forall₂ R bs cs) : List.Forall₂ R as cs := by
  induction h generalizing cs with
  | nil =>
    cases h'
    exact .nil
  | cons hab _ ih =>
    cases h' with
    | cons hbc hrest => exact .cons (hR _ _ _ hab hbc) (ih hrest)

theorem Advanced.trans {t t' t'' : Tables} (h : Advanced t t') (h' : Advanced t' t'') :
    Advanced t t'' := by
  refine ⟨forall₂_trans ?_ h.orders h'.orders, forall₂_trans ?_ h.groups h'.groups⟩
  · rintro a b c ⟨hid, hvolume, hfilled⟩ ⟨hid', hvolume', hfilled'⟩
    exact ⟨hid'.trans hid, hvolume.trans hvolume', fun ha => hfilled' (hfilled ha)⟩
  · rintro a b c ⟨hid, hclosed⟩ ⟨hid', hclosed'⟩
    exact ⟨hid'.trans hid, fun ha => hclosed' (hclosed ha)⟩

theorem forall₂_map {R : α → α → Prop} {f : α → α} {as : List α} :
    List.Forall₂ R as (as.map f) ↔ ∀ a ∈ as, R a (f a) := by
  rw [List.forall₂_map_right_iff, List.forall₂_same]

/-- An update advances the rows exactly if it advances those that it is for. -/
theorem forall₂_updateWhere {R : α → α → Prop} (hrefl : ∀ a, R a a) {p : α → Bool} {f : α → α}
    {as : List α} :
    List.Forall₂ R as (updateWhere p f as) ↔ ∀ a ∈ as, p a = true → R a (f a) := by
  rw [updateWhere, forall₂_map]
  refine forall₂_congr fun a _ => ⟨fun h hp => ?_, fun h => ?_⟩
  · simpa only [if_pos hp] using h
  · split
    · next hp => exact h hp
    · exact hrefl a

/-- What a statement must find in the tables, so that it undoes no fill and no close. -/
def Finds (o : OrderMaintenance) (t : Tables) : Statement → Prop
  | .persist d => ∀ m gid, Applies o.scope t d m gid → ∀ q, d.event.order = some q →
      q.state ≠ .filled → ∀ r ∈ t.orders, r.state = .filled → ¬ r.Takes o.scope m.order q
  | .cancelPending row _ => ∀ r ∈ t.orders, named o row r → r.state ≠ .filled
  | .update update orderGroupId => ∀ r ∈ t.orders, named o ⟨update.clientOrderId, orderGroupId⟩ r →
      r.filledVolume ≤ update.filledVolume ∧ (r.state = .filled → update.state = .filled)
  | .group orderGroupId _ _ _ => ∀ g ∈ t.orderGroups, g.id = orderGroupId → g.state ≠ .closed

theorem orderStateOf_filled {s : ExternalOrderState} : orderStateOf s = .filled ↔ s = .filled := by
  cases s <;> decide

theorem cancelPending_advanced_iff {row : CancelRow} {now : ℕ} :
    Advanced t (cancelPending o t row now) ↔ ∀ r ∈ t.orders, named o row r → r.state ≠ .filled := by
  have horders : List.Forall₂ OrderAdvanced t.orders (cancelPending o t row now).orders ↔
      ∀ r ∈ t.orders, named o row r → r.state ≠ .filled := by
    rw [cancelPending, forall₂_updateWhere OrderAdvanced.refl]
    refine forall₂_congr fun r _ => imp_congr_right fun _ => ⟨fun h hfilled => ?_, fun h => ?_⟩
    · cases h.filled hfilled
    · exact ⟨rfl, le_rfl, fun hfilled => absurd hfilled h⟩
  exact ⟨fun h => horders.mp h.orders, fun h => ⟨horders.mpr h, (Advanced.refl t).groups⟩⟩

theorem writeUpdate_advanced_iff {update : GatewayOrder} {gid : ℕ}
    (h : writeUpdate o t update gid = .ok t') :
    Advanced t t' ↔ ∀ r ∈ t.orders, named o ⟨update.clientOrderId, gid⟩ r →
      r.filledVolume ≤ update.filledVolume ∧ (r.state = .filled → update.state = .filled) := by
  unfold writeUpdate at h
  split at h
  · cases h
  · simp only at h
    split at h
    · cases h
    · split at h
      · cases h
      · cases h
        refine ⟨fun h => ?_, fun h => ⟨?_, (Advanced.refl t).groups⟩⟩
        · intro r hr hnamed
          have hrow := (forall₂_updateWhere OrderAdvanced.refl).mp h.orders r hr hnamed
          exact ⟨hrow.filledVolume, fun hfilled => orderStateOf_filled.mp (hrow.filled hfilled)⟩
        · refine (forall₂_updateWhere OrderAdvanced.refl).mpr fun r hr hnamed => ?_
          obtain ⟨hvolume, hfilled⟩ := h r hr hnamed
          exact ⟨rfl, hvolume, fun hr => orderStateOf_filled.mpr (hfilled hr)⟩

theorem groupStateWritten_ne_closed (certain : Bool) (reasonCode : String) :
    groupStateWritten certain reasonCode ≠ .closed := by
  unfold groupStateWritten
  split
  · split <;> decide
  · decide

theorem writeGroup_advanced_iff {gid now : ℕ} {certain : Bool} {reasonCode : String} :
    Advanced t (writeGroup t gid certain reasonCode now) ↔
      ∀ g ∈ t.orderGroups, g.id = gid → g.state ≠ .closed := by
  have hgroups : List.Forall₂ GroupAdvanced t.orderGroups
      (writeGroup t gid certain reasonCode now).orderGroups ↔
      ∀ g ∈ t.orderGroups, g.id = gid → g.state ≠ .closed := by
    rw [writeGroup, forall₂_updateWhere GroupAdvanced.refl]
    refine forall₂_congr fun g _ => ?_
    rw [decide_eq_true_eq]
    refine imp_congr_right fun _ => ⟨fun h hclosed => ?_, fun h => ?_⟩
    · exact groupStateWritten_ne_closed certain reasonCode (h.closed hclosed)
    · exact ⟨rfl, fun hclosed => absurd hclosed h⟩
  exact ⟨fun h => hgroups.mp h.groups, fun h => ⟨(Advanced.refl t).orders, hgroups.mpr h⟩⟩

theorem stateAfter_filled {scope : PostgresDemoExecutionStoreOptions} {event : DemoExecutionEvent}
    {order : Option OrderMatch} {r : OrderRow} (hr : r.state = .filled) :
    r.stateAfter scope event order = .filled ↔
      ∀ q, event.order = some q → q.state ≠ .filled → ¬ r.Takes scope order q := by
  unfold OrderRow.stateAfter
  split
  · next q hq =>
    simp only [hq, Option.some.injEq, forall_eq']
    split
    · next htakes =>
      rw [orderStateOf_filled]
      exact ⟨fun h hne => absurd h hne, fun h => by_contra fun hne => h hne htakes⟩
    · next htakes => exact ⟨fun _ _ => htakes, fun _ => hr⟩
  · next hnone => simp [hnone, hr]

/-- A transaction of the store may only take the state FILLED from an order that takes a report. -/
theorem deliver_advanced_iff {d : Delivery} :
    Advanced t (deliver o.scope t d) ↔ ∀ m gid, Applies o.scope t d m gid →
      ∀ q, d.event.order = some q → q.state ≠ .filled → ∀ r ∈ t.orders, r.state = .filled →
        ¬ r.Takes o.scope m.order q := by
  have happlied : ∀ m gid, Applies o.scope t d m gid → (Advanced t (deliver o.scope t d) ↔
      ∀ q, d.event.order = some q → q.state ≠ .filled → ∀ r ∈ t.orders, r.state = .filled →
        ¬ r.Takes o.scope m.order q) := by
    rintro m gid ⟨-, rows, replay, t', result, hpersist, hmapped⟩
    obtain ⟨f, horders, hf⟩ := persistMapped_orders hmapped
    obtain ⟨f', hgroups, hf'⟩ := persistMapped_groups hmapped
    rw [show deliver o.scope t d = t' by rw [deliver, hpersist]]
    constructor
    · intro h q hq hne r hr hfilled
      have hrow := forall₂_map.mp (horders ▸ h.orders) r hr
      exact (stateAfter_filled hfilled).mp ((hf r).2.2.2 ▸ hrow.filled hfilled) q hq hne
    · refine fun h => ⟨?_, ?_⟩
      · rw [horders]
        refine forall₂_map.mpr fun r hr => ⟨(hf r).1, (hf r).2.2.1, fun hfilled => ?_⟩
        rw [(hf r).2.2.2]
        exact (stateAfter_filled hfilled).mpr fun q hq hne => h q hq hne r hr hfilled
      · rw [hgroups]
        refine forall₂_map.mpr fun g _ => ⟨(hf' g).1, fun hclosed => ?_⟩
        rw [(hf' g).2, if_neg, hclosed]
        simp [hclosed, OrderGroupState.finished]
  refine ⟨fun h m gid happlies => (happlied m gid happlies).mp h, fun h => ?_⟩
  unfold deliver
  split
  · next t' result hpersist =>
    rcases persist_cases hpersist with hkept | ⟨rows, m, id, replay, hmatches, hmapped⟩
    · obtain ⟨horders, hgroups⟩ := Advanced.refl t
      exact ⟨hkept.orders ▸ horders, hkept.orderGroups ▸ hgroups⟩
    · have happlies : Applies o.scope t d m id :=
        ⟨hmatches, rows, replay, t', result, hpersist, hmapped⟩
      have hadvanced := (happlied m id happlies).mpr (h m id happlies)
      rwa [deliver, hpersist] at hadvanced
  · exact Advanced.refl t

/-- Each statement undoes nothing exactly if it finds the tables as it should. -/
theorem executed_advanced_iff (s : Statement) (h : executed o t s = some t') :
    Advanced t t' ↔ Finds o t s := by
  have hok : execute o t s = .ok t' := by
    rw [executed] at h
    cases hs : execute o t s with
    | error e =>
      rw [hs] at h
      cases h
    | ok t1 =>
      rw [hs] at h
      rw [Option.some.inj h]
  cases s with
  | persist d =>
    cases hok
    exact deliver_advanced_iff
  | cancelPending row now =>
    cases hok
    exact cancelPending_advanced_iff
  | update update gid => exact writeUpdate_advanced_iff hok
  | group gid certain reasonCode now =>
    cases hok
    exact writeGroup_advanced_iff

/-- However calls of the maintenance interleave with transactions of the store: no filled volume is
    lost, FILLED and CLOSED stay, exactly if every statement finds the tables as it should. -/
theorem maintenance_advances_iff (o : OrderMaintenance) (t : Tables) (activities : List Activity) :
    let h := historyAfter o activities ⟨t, []⟩
    run (executed o) t h.statements = some h.tables ∧
      (Evolves (executed o) Advanced t h.statements ↔
        Guarded (executed o) (Finds o) t h.statements) := by
  have hexplained : Explained o t (historyAfter o activities ⟨t, []⟩) :=
    explained_historyAfter rfl
  exact ⟨hexplained, evolves_iff_guarded Advanced.refl (fun _ _ _ => Advanced.trans)
    (fun _ s _ => executed_advanced_iff s) hexplained⟩

namespace Sample

open Store.Sample (entry close report)

def maintenance : OrderMaintenance := ⟨Store.Sample.options, "EURUSD", fun _ => none⟩

/-- The order is filled and its position closed between the selection of the order and its mark;
    the broker has no order left to cancel. -/
def filledMeanwhile : Environment := fun trace call =>
  match call with
  | .turn => .ok (if trace.length = 2 then
      ⟨[{ event := entry }, { event := close "2" 5 }], 6⟩ else ⟨[], 6⟩)
  | .order rows => .ok ⟨rows, .refl rows⟩
  | .cancelStrategyOrder .. => .error "DEMO_ORDER_NOT_FOUND"
  | .reconcile _ => .ok ⟨true, [], 0⟩

/-- The order is filled in part after the broker has answered its cancellation. -/
def partlyFilledMeanwhile : Environment := fun trace call =>
  match call with
  | .turn => .ok (if trace.length = 5 then
      ⟨[{ event := { report "deal:1" 11 .partiallyFilled 300 2 with
            brokerPositionId := some "9"
            brokerFillId := some "1"
            position := some ⟨"9", .buy, .opened, 300, some 10, none, none, some 2, none, 2⟩
            fill := some ⟨"1", "1", "9", 10, 300, 0, 2⟩ } }], 6⟩ else ⟨[], 6⟩)
  | .order rows => .ok ⟨rows, .refl rows⟩
  | .cancelStrategyOrder id _ => .ok ⟨id, some "1", .cancelled, 0, some 6, none⟩
  | .reconcile _ => .ok ⟨true, [], 0⟩

def after (env : Environment) : History :=
  historyAfter maintenance [.cancelAll env "AUTOMATIC_SAFETY_CANCELLATION" false]
    ⟨Store.Sample.store, []⟩

end Sample

/-- The rows of two states in which the later one undoes a fill. -/
theorem not_advanced_of_orders (h : ∃ rows ∈ t.orders.zip t'.orders,
    rows.2.filledVolume < rows.1.filledVolume ∨
      rows.1.state = .filled ∧ rows.2.state ≠ .filled) : ¬ Advanced t t' := by
  rintro ⟨horders, -⟩
  obtain ⟨⟨r, r'⟩, hmem, hundone⟩ := h
  obtain ⟨-, hvolume, hfilled⟩ := List.forall₂_zip horders hmem
  rcases hundone with hless | ⟨hwas, hnot⟩
  · exact absurd hvolume (not_le.mpr hless)
  · exact hnot (hfilled hwas)

theorem not_evolves {h : History} (hh : Explained o t h) (n : ℕ)
    (hundone : (run (executed o) t (h.statements.take n)).any fun u =>
      (u.orders.zip h.tables.orders).any fun rows =>
        rows.2.filledVolume < rows.1.filledVolume ∨ rows.1.state = .filled ∧ rows.2.state ≠ .filled) :
    ¬ Evolves (executed o) Advanced t h.statements := by
  intro hev
  rw [Explained, ← List.take_append_drop n h.statements] at hh
  obtain ⟨u, hu, hv⟩ := run_split hh
  rw [hu, Option.any_some, List.any_eq_true] at hundone
  obtain ⟨rows, hrows, hless⟩ := hundone
  refine not_advanced_of_orders ⟨rows, hrows, of_decide_eq_true hless⟩ ?_
  exact hev (h.statements.take n) (h.statements.drop n) [] (by simp) u h.tables hu hv

/-- An order that is FILLED, in a group that is CLOSED, is marked CANCEL_PENDING, and the group
    leaves CLOSED; and the answer to a cancellation overwrites a filled volume of 300 with 0. -/
theorem fill_and_close_undone :
    (∃ h, h = Sample.after Sample.filledMeanwhile ∧
      (run (executed Sample.maintenance) Store.Sample.store (h.statements.take 2)).map (fun u =>
        (u.orders.map (·.state), u.orderGroups.map (·.state))) = some ([.filled], [.closed]) ∧
      h.tables.orders.map (·.state) = [.cancelPending] ∧
      h.tables.orderGroups.map (·.state) = [.reconciliationRequired] ∧
      ¬ Evolves (executed Sample.maintenance) Advanced Store.Sample.store h.statements) ∧
    ∃ h, h = Sample.after Sample.partlyFilledMeanwhile ∧
      (run (executed Sample.maintenance) Store.Sample.store (h.statements.take 2)).map (fun u =>
        u.orders.map (·.filledVolume)) = some [300] ∧
      h.tables.orders.map (·.filledVolume) = [0] ∧
      ¬ Evolves (executed Sample.maintenance) Advanced Store.Sample.store h.statements := by
  refine ⟨⟨_, rfl, by decide +kernel, by decide +kernel, by decide +kernel, ?_⟩,
    ⟨_, rfl, by decide +kernel, by decide +kernel, ?_⟩⟩
  · exact not_evolves (explained_historyAfter rfl) 2 (by decide +kernel)
  · exact not_evolves (explained_historyAfter rfl) 2 (by decide +kernel)

end ScalpingBot.Execution
