import ScalpingBot.Library.LatestWins
import ScalpingBot.Store.Stages

/-! The reports of the broker on one order, and what persisting them makes of the order's row: each
    is applied to the row once, at its first delivery, whatever the order of the deliveries. -/

namespace ScalpingBot.Store

namespace DemoExecutionEvent

variable (e : DemoExecutionEvent)

/-- The broker's time of the reported order. -/
def time : ℕ := (e.order.bind (·.updatedAt)).getD 0

def reportedState : OrderState := e.order.elim .unknown fun q => orderStateOf q.state

def reportedVolume : Decimal := e.order.elim 0 (·.filledVolume)

/-- The event reports a fill of its order. -/
def Fills : Prop := 0 < e.reportedVolume ∨ e.fill.isSome

end DemoExecutionEvent

/-- The row after one report. -/
def OrderRow.report (r : OrderRow) (e : DemoExecutionEvent) : OrderRow :=
  { r with
    brokerOrderId := r.brokerOrderId.or e.brokerOrderId
    state := if r.brokerUpdatedAt.all (· ≤ e.time) then e.reportedState else r.state
    filledVolume := max r.filledVolume e.reportedVolume
    brokerUpdatedAt := some (max (r.brokerUpdatedAt.getD e.time) e.time)
    updatedAt := max r.updatedAt e.time
    version := r.version + 1 }

/-- The row after the reports of a list. -/
def OrderRow.reports (r : OrderRow) (es : List DemoExecutionEvent) : OrderRow :=
  es.foldl OrderRow.report r

/-- `event` is a well-formed report on the order of row `r`, which has the broker's id `id`: it
    names the order, moves no closed position, and its numbers fit the order. -/
structure ReportsOn (r : OrderRow) (id : String) (e : DemoExecutionEvent) : Prop where
  order : ∃ q time, e.order = some q ∧ q.updatedAt = some time
  brokerOrderId : e.brokerOrderId = some id
  named : e.clientOrderId = some r.clientOrderId ∨
    (e.clientOrderId = none ∧ r.brokerOrderId = some id)
  entry : e.closingOrder = false
  closeDetail : e.closeDetail = none
  volume : 0 ≤ e.reportedVolume ∧ e.reportedVolume ≤ r.normalizedVolume
  orderType : ∀ n, e.brokerOrderType = some n → 1 ≤ n ∧ n ≤ 6
  position : ∀ p, e.position = some p → e.brokerPositionId = some p.brokerPositionId ∧
    0 ≤ p.volume ∧ ¬ p.entryPrice.any (· ≤ 0)
  fill : ∀ f, e.fill = some f → 0 < f.price ∧ 0 < f.volume

/-- The constraints of the schema on positions: one row for a position of the broker's, and ids
    below the next one. -/
structure PositionsUnique (t : Tables) : Prop where
  brokerPosition : t.positions.Pairwise fun p q =>
    ¬ (p.accountId = q.accountId ∧ p.brokerPositionId.isSome ∧
      p.brokerPositionId = q.brokerPositionId)
  id : ∀ p ∈ t.positions, p.id < t.nextId

/-- The row `r` of an order of the store, on which the reports `E` have not been delivered yet. -/
structure Unreported (o : PostgresDemoExecutionStoreOptions) (t : Tables) (r : OrderRow)
    (id : String) (E : List DemoExecutionEvent) : Prop where
  mem : r ∈ t.orders
  account : r.accountId = o.accountId
  symbol : (t.orderGroup r.orderGroupId).any (·.analysis.symbolId = o.symbolId)
  brokerOrderId : r.brokerOrderId = none ∨ r.brokerOrderId = some id
  /-- No other row has the order's ids. -/
  sole : ∀ q ∈ t.orders, q.id = r.id ∨ (q.accountId = o.accountId ∧
    (q.clientOrderId = r.clientOrderId ∨ q.brokerOrderId = some id)) → q = r
  nodup : t.orders.Nodup
  brokerUpdatedAt : r.brokerUpdatedAt = none
  state : r.state.terminal = false
  filledVolume : r.filledVolume = 0
  fills : ∀ f ∈ t.fills, f.orderId ≠ some r.id
  positions : PositionsUnique t
  reports : ∀ e ∈ E, ReportsOn r id e
  keys : ∀ e ∈ E, ∀ e' ∈ E, e.eventKey = e'.eventKey → e = e'
  fresh : ∀ e ∈ E, t.event o e.eventKey = none ∧
    ∀ f ∈ t.fills, f.brokerEventKey ≠ o.accountId ++ ":" ++ e.eventKey

/-- The delivery brings the event `e`, at whatever time. -/
def Delivery.Brings (d : Delivery) (e : DemoExecutionEvent) : Prop :=
  d.event = { e with receivedAt := d.event.receivedAt }

/-- What the store holds after the reports `es`, each persisted at least once. -/
structure Reported (o : PostgresDemoExecutionStoreOptions) (t0 t : Tables) (r : OrderRow)
    (E es : List DemoExecutionEvent) : Prop where
  nodup : es.Nodup
  sub : ∀ e ∈ es, e ∈ E
  orders : t.orders = t0.orders.map fun q => if q = r then r.reports es else q
  groups : ∀ gid, (t.orderGroup gid).map (·.analysis) = (t0.orderGroup gid).map (·.analysis)
  recorded : ∀ e ∈ es, ∃ row, t.event o e.eventKey = some row ∧
    row.normalizedPayload.payloadHash = e.payloadHash
  unrecorded : ∀ e ∈ E, e ∉ es → t.event o e.eventKey = none ∧
    ∀ f ∈ t.fills, f.brokerEventKey ≠ o.accountId ++ ":" ++ e.eventKey
  fills : (∃ f ∈ t.fills, f.orderId = some r.id) ↔ ∃ e ∈ es, e.fill.isSome
  positions : PositionsUnique t

variable {o : PostgresDemoExecutionStoreOptions} {t0 t t' : Tables} {r : OrderRow} {id : String}
  {E es : List DemoExecutionEvent} {e event : DemoExecutionEvent} {d : Delivery}
  {source : DemoExecutionEvidenceSource} {acknowledgement : Option BrokerAcknowledgement}
  {result : DemoExecutionPersistenceResult}

/-! ### The row -/

theorem reports_concat : r.reports (es ++ [e]) = (r.reports es).report e := by
  simp [OrderRow.reports]

theorem reports_keeps : (r.reports es).id = r.id ∧ (r.reports es).accountId = r.accountId ∧
    (r.reports es).orderGroupId = r.orderGroupId ∧
    (r.reports es).clientOrderId = r.clientOrderId ∧
    (r.reports es).normalizedVolume = r.normalizedVolume := by
  induction es using List.reverseRecOn with
  | nil => exact ⟨rfl, rfl, rfl, rfl, rfl⟩
  | append_singleton es e ih =>
    rw [reports_concat]
    exact ih

theorem reports_brokerOrderId (hr : r.brokerOrderId = none ∨ r.brokerOrderId = some id)
    (hes : ∀ e ∈ es, e.brokerOrderId = some id) :
    (r.reports es).brokerOrderId = none ∨ (r.reports es).brokerOrderId = some id := by
  induction es using List.reverseRecOn with
  | nil => exact hr
  | append_singleton es e ih =>
    rw [reports_concat]
    refine Or.inr ?_
    have he := hes e (by simp)
    rcases ih fun e he => hes e (List.mem_append_left _ he) with h | h <;>
      simp [OrderRow.report, h, he]

theorem reports_filledVolume_bounds (hr : r.filledVolume = 0)
    (hnorm : 0 ≤ r.normalizedVolume)
    (hes : ∀ e ∈ es, 0 ≤ e.reportedVolume ∧ e.reportedVolume ≤ r.normalizedVolume) :
    0 ≤ (r.reports es).filledVolume ∧ (r.reports es).filledVolume ≤ r.normalizedVolume := by
  induction es using List.reverseRecOn with
  | nil => exact ⟨hr.ge, hr.trans_le hnorm⟩
  | append_singleton es e ih =>
    rw [reports_concat]
    obtain ⟨h0, hle⟩ := ih fun e he => hes e (List.mem_append_left _ he)
    exact ⟨h0.trans (le_max_left _ _), max_le hle (hes e (by simp)).2⟩

theorem update_eq_report {q : GatewayOrder} {time : ℕ} (hq : e.order = some q)
    (htime : q.updatedAt = some time) : r.update e.brokerOrderId q time = r.report e := by
  simp [OrderRow.update, OrderRow.report, DemoExecutionEvent.time,
    DemoExecutionEvent.reportedState, DemoExecutionEvent.reportedVolume, hq, htime]

theorem reports_named (hr : r.brokerOrderId = some id) :
    (r.reports es).brokerOrderId = some id := by
  induction es using List.reverseRecOn with
  | nil => exact hr
  | append_singleton es e ih =>
    rw [reports_concat]
    simp [OrderRow.report, ih]

/-! ### The match -/

theorem filter_sole {α : Type} {p : α → Bool} {l : List α} {a : α} (hl : l.Nodup) (ha : a ∈ l)
    (hp : ∀ b ∈ l, p b = true ↔ b = a) : l.filter p = [a] := by
  induction l with
  | nil => cases ha
  | cons b l ih =>
    obtain ⟨hb, hl⟩ := List.nodup_cons.mp hl
    rcases List.mem_cons.mp ha with rfl | ha
    · rw [List.filter_cons_of_pos ((hp a (by simp)).mpr rfl), List.filter_eq_nil_iff.mpr]
      intro c hc hpc
      exact hb ((hp c (by simp [hc])).mp hpc ▸ hc)
    · have hba : b ≠ a := fun h => hb (h ▸ ha)
      rw [List.filter_cons_of_neg fun h => hba ((hp b (by simp)).mp h)]
      exact ih hl ha fun c hc => hp c (List.mem_cons_of_mem b hc)

theorem orderGroup_symbol (hrep : Reported o t0 t r E es) {gid : ℕ} :
    (t.orderGroup gid).any (·.analysis.symbolId = o.symbolId) =
      (t0.orderGroup gid).any (·.analysis.symbolId = o.symbolId) := by
  have h := hrep.groups gid
  cases hg : t.orderGroup gid <;> cases hg0 : t0.orderGroup gid <;> simp_all

/-- A report on the order is matched with its row alone. -/
theorem matchingOrders_report (hun : Unreported o t0 r id E) (hrep : Reported o t0 t r E es)
    (he : e ∈ E) (hd : event = { e with receivedAt := event.receivedAt }) :
    matchingOrders o t event = [⟨r.id, r.orderGroupId, (r.reports es).brokerOrderId⟩] := by
  obtain ⟨hid, haccount, hgroup, hclient, -⟩ := @reports_keeps r es
  have hreport := hun.reports e he
  have hbroker : event.brokerOrderId = some id := by rw [hd]; exact hreport.brokerOrderId
  have hnamed : event.clientOrderId = e.clientOrderId := by rw [hd]
  unfold matchingOrders
  rw [hrep.orders, List.filter_map, filter_sole hun.nodup hun.mem]
  · simp [hid, hgroup]
  · intro q hq
    simp only [Function.comp_apply, orderGroup_symbol hrep, decide_eq_true_eq]
    constructor
    · rintro ⟨hqaccount, -, hmatch⟩
      by_contra hne
      rw [if_neg hne] at hqaccount hmatch
      rw [hbroker, hnamed] at hmatch
      refine hne (hun.sole q hq (Or.inr ⟨hqaccount, ?_⟩))
      rcases hmatch with h | ⟨-, h⟩
      · rcases hreport.named with hown | ⟨hnone, -⟩
        · exact Or.inl (Option.some.inj (h.symm.trans hown))
        · cases h.symm.trans hnone
      · exact Or.inr h
    · rintro rfl
      rw [if_pos rfl, haccount, hgroup, hclient, hbroker, hnamed]
      refine ⟨hun.account, hun.symbol, ?_⟩
      rcases hreport.named with hown | ⟨-, hown⟩
      · exact Or.inl hown
      · exact Or.inr ⟨rfl, reports_named hown⟩

theorem length_filter_le_one {α : Type} {R : α → α → Prop} {p : α → Bool} {l : List α}
    (hl : l.Pairwise R) (hp : ∀ a b, p a = true → p b = true → ¬ R a b) :
    (l.filter p).length ≤ 1 := by
  have hf := hl.filter p
  rcases hcase : l.filter p with _ | ⟨a, _ | ⟨b, rest⟩⟩
  · simp
  · simp
  · rw [hcase] at hf
    have ha : p a = true := (List.mem_filter.mp (hcase ▸ List.mem_cons_self)).2
    have hb : p b = true :=
      (List.mem_filter.mp (hcase ▸ List.mem_cons_of_mem a List.mem_cons_self)).2
    exact absurd ((List.pairwise_cons.mp hf).1 b List.mem_cons_self) (hp a b ha hb)

theorem matchingPositions_length (hpos : PositionsUnique t) :
    (matchingPositions o t event).length ≤ 1 := by
  unfold matchingPositions
  split
  · simp
  · next bid hbid =>
    rw [List.length_map]
    refine length_filter_le_one hpos.brokerPosition fun p q hp hq => ?_
    simp only [decide_eq_true_eq] at hp hq
    rw [not_not]
    exact ⟨hp.1.trans hq.1.symm, by simp [hp.2.2], hp.2.2.trans hq.2.2.symm⟩

theorem observedManualClose_entry (hclose : event.closeDetail = none) :
    observedManualClose o t event = false := by
  have hnone : closeEvidence event = none := by
    unfold closeEvidence
    rw [hclose]
    cases event.fill <;> rfl
  unfold observedManualClose
  split
  · rfl
  · split
    · rfl
    · simp [provePositionClose, hnone]

/-- An event of an entry order binds no claim and keeps its order. -/
theorem persistAuthorized_entry {m : Matched} {replay : Bool}
    (hm : m.authorizedMarketClose = false) (hentry : event.closingOrder = false) :
    persistAuthorized o t event source acknowledgement m replay =
      persistMatched o t event source acknowledgement m replay := by
  simp [persistAuthorized, bindCloseOrder, hm, brokerGeneratedClosingOrder, hentry, bind,
    Except.bind]

/-- A report on the order that is not recorded yet is applied to the order's row. -/
theorem persist_report (hun : Unreported o t0 r id E) (hrep : Reported o t0 t r E es)
    (he : e ∈ E) (hes : e ∉ es) (hd : event = { e with receivedAt := event.receivedAt }) :
    persist o t event source acknowledgement =
      persistMapped o t event source acknowledgement
        ⟨some ⟨r.id, r.orderGroupId, (r.reports es).brokerOrderId⟩,
          (matchingPositions o t event).head?, false, false⟩ r.orderGroupId false := by
  have hreport := hun.reports e he
  have hkey : event.eventKey = e.eventKey := by rw [hd]
  have hbroker : event.brokerOrderId = some id := by rw [hd]; exact hreport.brokerOrderId
  have hentry : event.closingOrder = false := by rw [hd]; exact hreport.entry
  have hclose : event.closeDetail = none := by rw [hd]; exact hreport.closeDetail
  have hlen := @matchingPositions_length o t event hrep.positions
  have hown := @reports_brokerOrderId r id es hun.brokerOrderId
    fun e' he' => (hun.reports e' (hrep.sub e' he')).brokerOrderId
  unfold persist
  rw [hkey, (hrep.unrecorded e he hes).1]
  simp only [persistEvent, matchingOrders_report hun hrep he hd, hentry,
    observedManualClose_entry hclose, Bool.false_eq_true, false_and, and_false, decide_false]
  rw [if_neg (by simp), if_neg (by omega), if_false, persistAuthorized_entry rfl hentry]
  unfold persistMatched
  rw [if_neg (by rcases hown with h | h <;> simp [h, hbroker])]
  simp [persistInGroup, DemoExecutionEvent.closesPosition, hclose]

/-! ### What a step keeps -/

theorem PositionsUnique.mono (h : PositionsUnique t) (hpos : t'.positions = t.positions)
    (hid : t.nextId ≤ t'.nextId) : PositionsUnique t' :=
  ⟨hpos ▸ h.brokerPosition, fun p hp => (h.id p (hpos ▸ hp)).trans_le hid⟩

theorem PositionsUnique.upsert {p stored : PositionRow} (h : PositionsUnique t)
    (hnew : p.id = t.nextId ∨ ∃ q ∈ t.positions, q.id = p.id)
    (hup : upsertPosition t p = .ok (t', stored)) : PositionsUnique t' := by
  rcases upsertPosition_ok hup with ⟨q, -, -, -, -, rfl⟩ | ⟨hnone, -, rfl⟩
  · refine ⟨List.pairwise_map.mpr (h.brokerPosition.imp fun {a b} hab => ?_), fun q' hq' => ?_⟩
    · split <;> split <;> exact hab
    · obtain ⟨q, hq, rfl⟩ := mem_updateWhere.mp hq'
      split <;> exact h.id q hq
  · refine ⟨List.pairwise_append.mpr ⟨h.brokerPosition, by simp, fun a ha b hb => ?_⟩,
      fun q hq => ?_⟩
    · rw [List.mem_singleton.mp hb]
      exact fun hsame => hnone a ha ⟨hsame.1, hsame.2.2⟩
    · rcases List.mem_append.mp hq with hold | hlast
      · exact Nat.lt_succ_of_lt (h.id q hold)
      · rw [List.mem_singleton.mp hlast]
        rcases hnew with heq | ⟨q', hq', heq⟩
        · exact heq ▸ Nat.lt_succ_self _
        · exact heq ▸ Nat.lt_succ_of_lt (h.id q' hq')

theorem find?_updateWhere {α : Type} {p q : α → Bool} {f : α → α} (h : ∀ a, p (f a) = p a)
    (rows : List α) :
    (updateWhere q f rows).find? p = (rows.find? p).map fun a => if q a then f a else a := by
  rw [updateWhere, List.find?_map]
  congr 2
  funext a
  rw [Function.comp_apply]
  split
  · exact h a
  · rfl

theorem orderGroup_update {gid gid' time : ℕ} :
    ((updateOrderGroup t gid' time).orderGroup gid).map (·.analysis) =
      (t.orderGroup gid).map (·.analysis) := by
  unfold Tables.orderGroup updateOrderGroup
  rw [find?_updateWhere, Option.map_map]
  · congr 1
    funext g
    rw [Function.comp_apply]
    split <;> rfl
  · exact fun _ => rfl

/-- The row found for a key depends on the evidence of the rows alone. -/
theorem event_evidence {key : String}
    (h : t'.events.map EventRow.evidence = t.events.map EventRow.evidence) :
    (t'.event o key).map EventRow.evidence = (t.event o key).map EventRow.evidence := by
  have hfind : ∀ l : List EventRow, (l.find? fun row => row.accountId = o.accountId ∧
      row.normalizedPayload.eventKey = key).map EventRow.evidence =
      (l.map EventRow.evidence).find? fun row => row.accountId = o.accountId ∧
        row.normalizedPayload.eventKey = key := fun l => by
    rw [List.find?_map]
    rfl
  unfold Tables.event
  rw [hfind, hfind, h]

/-- What an applied event leaves, with the rows it was matched with. -/
structure Applied (o : PostgresDemoExecutionStoreOptions) (t t' : Tables)
    (event : DemoExecutionEvent) (m : Matched) : Prop where
  orders : (t'.orders = t.orders ∧ (event.order = none ∨ m.order = none)) ∨
    ∃ q k time, event.order = some q ∧ m.order = some k ∧ q.updatedAt = some time ∧
      t'.orders = updateWhere (fun r => r.id = k.orderId ∧ r.accountId = o.accountId)
        (fun r => r.update event.brokerOrderId q time) t.orders
  groups : ∀ gid, (t'.orderGroup gid).map (·.analysis) = (t.orderGroup gid).map (·.analysis)
  fills : (t'.fills = t.fills ∧ (event.fill = none ∨ t.fills.any fun f =>
      f.brokerEventKey = o.accountId ++ ":" ++ event.eventKey)) ∨
    ∃ row : FillRow, event.fill.isSome ∧ row.orderId = m.order.map (·.orderId) ∧
      row.brokerEventKey = o.accountId ++ ":" ++ event.eventKey ∧ t'.fills = t.fills ++ [row]
  events : ∃ row : EventRow, row.accountId = o.accountId ∧ row.normalizedPayload = event ∧
    t'.events.map EventRow.evidence = (t.events ++ [row]).map EventRow.evidence
  positions : PositionsUnique t'

theorem applied_of_persistMapped {m : Matched} {gid : ℕ} (hpos : PositionsUnique t)
    (hm : ∀ k, m.position = some k → ∃ q ∈ t.positions, q.id = k.positionId)
    (h : persistMapped o t event source acknowledgement m gid false = .ok (t', result)) :
    Applied o t t' event m := by
  obtain ⟨t1, s, t2, a, t3, p, reason, t4, t5, rows, acks, h1, h2, h3, h4, h5, hrows, rfl⟩ :=
    persistMapped_ok h
  obtain ⟨deals, rfl⟩ := persistCloseDeal_ok h2
  obtain ⟨hnone, row, haccount, hpayload, -, -, -, rfl⟩ :=
    insertEvent_ok (show insertEvent _ _ _ _ _ _ _ = _ from h5)
  have horder : t1.positions = t.positions ∧ t1.fills = t.fills ∧ t1.events = t.events ∧
      t1.orderGroups = t.orderGroups ∧ t1.nextId = t.nextId := by
    rcases persistOrder_ok h1 with ⟨rfl, -⟩ | ⟨q, k, time, -, -, -, rfl⟩ <;>
      exact ⟨rfl, rfl, rfl, rfl, rfl⟩
  have hposition : t3.orders = t1.orders ∧ t3.fills = t1.fills ∧ t3.events = t1.events ∧
      t3.orderGroups = t1.orderGroups ∧ PositionsUnique t3 := by
    have hpos1 : PositionsUnique { t1 with closeDeals := deals } :=
      hpos.mono horder.1 horder.2.2.2.2.ge
    rcases persistPosition_ok h3 with ⟨-, rfl, -⟩ | ⟨p, t6, stored, trades, -, hup, -, rfl⟩
    · exact ⟨rfl, rfl, rfl, rfl, hpos1⟩
    · have hpos6 : PositionsUnique t6 := hpos1.upsert (by
        cases hk : m.position with
        | none => exact Or.inl (by simp [proposedPosition])
        | some k =>
          obtain ⟨q, hq, hid⟩ := hm k hk
          refine Or.inr ⟨q, horder.1.symm ▸ hq, ?_⟩
          simpa [proposedPosition] using hid) hup
      rcases upsertPosition_ok hup with ⟨q, -, -, -, -, rfl⟩ | ⟨-, -, rfl⟩ <;>
        exact ⟨rfl, rfl, rfl, rfl, hpos6.mono rfl le_rfl⟩
  have hfill : t4.orders = t3.orders ∧ t4.events = t3.events ∧
      t4.orderGroups = t3.orderGroups ∧ PositionsUnique t4 := by
    rcases persistFill_ok h4 with ⟨rfl, -⟩ | ⟨row, -, -, -, rfl⟩ <;>
      exact ⟨rfl, rfl, rfl, hposition.2.2.2.2.mono rfl le_rfl⟩
  refine ⟨?_, fun gid' => ?_, ?_, ⟨row, haccount, hpayload, ?_⟩,
    hfill.2.2.2.mono rfl (Nat.le_succ _)⟩
  · rcases persistOrder_ok h1 with ⟨rfl, hwhy⟩ | ⟨q, k, time, hq, hk, htime, rfl⟩
    · exact Or.inl ⟨hfill.1.trans hposition.1, hwhy⟩
    · exact Or.inr ⟨q, k, time, hq, hk, htime, hfill.1.trans hposition.1⟩
  · have hgroups : t4.orderGroups = t.orderGroups :=
      hfill.2.2.1.trans (hposition.2.2.2.1.trans horder.2.2.2.1)
    refine (orderGroup_update (t := t4)).trans ?_
    simp only [Tables.orderGroup, hgroups]
  · have hsame : t3.fills = t.fills := hposition.2.1.trans horder.2.1
    rcases persistFill_ok h4 with ⟨rfl, hwhy⟩ | ⟨row, hsome, hid, hkey, rfl⟩
    · exact Or.inl ⟨hsame, hsame ▸ hwhy⟩
    · exact Or.inr ⟨row, hsome, hid, hkey, congrArg (· ++ [row]) hsame⟩
  · have hevents : t4.events = t.events :=
      hfill.2.1.trans (hposition.2.2.1.trans horder.2.2.1)
    rw [← hevents]
    exact hrows

/-! ### One delivery -/

theorem matchingPositions_mem {k : PositionMatch}
    (h : (matchingPositions o t event).head? = some k) : ∃ q ∈ t.positions, q.id = k.positionId := by
  have hmem := List.mem_of_mem_head? h
  unfold matchingPositions at hmem
  split at hmem
  · cases hmem
  · obtain ⟨q, hq, rfl⟩ := List.mem_map.mp hmem
    exact ⟨q, (List.mem_filter.mp hq).1, rfl⟩

/-- The first delivery of a report applies it to the order's row. -/
theorem Reported.first (hun : Unreported o t0 r id E) (hrep : Reported o t0 t r E es) (he : e ∈ E)
    (hes : e ∉ es) (hd : event = { e with receivedAt := event.receivedAt })
    (h : persist o t event source acknowledgement = .ok (t', result)) :
    Reported o t0 t' r E (es ++ [e]) := by
  rw [persist_report hun hrep he hes hd] at h
  have happ := applied_of_persistMapped hrep.positions (fun k hk => matchingPositions_mem hk) h
  obtain ⟨hid, haccount, hgroup, hclient, -⟩ := @reports_keeps r es
  have hkey : event.eventKey = e.eventKey := by rw [hd]
  obtain ⟨q, time, hq, htime⟩ := (hun.reports e he).order
  have hq' : event.order = some q := by rw [hd]; exact hq
  obtain ⟨row, hrowAccount, hpayload, hevents⟩ := happ.events
  have hfound : ∀ key, (t'.event o key).map EventRow.evidence =
      (({ t with events := t.events ++ [row] } : Tables).event o key).map EventRow.evidence :=
    fun key => event_evidence hevents
  have hmem : ∀ e' ∈ es ++ [e], e' ∈ E := fun e' he' => by
    rcases List.mem_append.mp he' with hold | hlast
    · exact hrep.sub e' hold
    · exact List.mem_singleton.mp hlast ▸ he
  refine ⟨?_, hmem, ?_, fun gid => (happ.groups gid).trans (hrep.groups gid), ?_, ?_, ?_,
    happ.positions⟩
  · exact List.nodup_append.mpr ⟨hrep.nodup, by simp, fun a ha b hb hab =>
      hes (List.mem_singleton.mp hb ▸ hab ▸ ha)⟩
  · rcases happ.orders with ⟨-, hnone | hnone⟩ | ⟨q1, k, time1, hq1, hk, htime1, horders⟩
    · rw [hq'] at hnone
      cases hnone
    · cases hnone
    · obtain rfl : q1 = q := Option.some.inj (hq1.symm.trans hq')
      obtain rfl : time1 = time := Option.some.inj (htime1.symm.trans htime)
      cases hk
      rw [horders, hrep.orders, updateWhere, List.map_map]
      refine List.map_congr_left fun q2 hq2 => ?_
      rw [Function.comp_apply]
      by_cases hsame : q2 = r
      · rw [if_pos hsame, if_pos (by simp [hid, haccount, hun.account]), if_pos hsame,
          reports_concat, update_eq_report hq' htime, hd]
        rfl
      · rw [if_neg hsame, if_neg, if_neg hsame]
        simp only [decide_eq_true_eq, not_and]
        exact fun hq2id => absurd (hun.sole q2 hq2 (Or.inl hq2id)) hsame
  · intro e' he'
    have hnone := (hrep.unrecorded e he hes).1
    have hsome : ∃ row', ({ t with events := t.events ++ [row] } : Tables).event o e'.eventKey =
        some row' ∧ row'.normalizedPayload.payloadHash = e'.payloadHash := by
      unfold Tables.event at hnone ⊢
      rcases List.mem_append.mp he' with hold | hlast
      · obtain ⟨row', hrow', hhash⟩ := hrep.recorded e' hold
        unfold Tables.event at hrow'
        exact ⟨row', by rw [List.find?_append, hrow']; rfl, hhash⟩
      · rw [List.mem_singleton.mp hlast]
        refine ⟨row, ?_, by rw [hpayload, hd]⟩
        rw [List.find?_append, hnone]
        simp [hrowAccount, hpayload, hkey]
    obtain ⟨row', hrow', hhash⟩ := hsome
    have := hfound e'.eventKey
    rw [hrow'] at this
    obtain ⟨row2, hrow2, hevidence⟩ := Option.map_eq_some_iff.mp this
    exact ⟨row2, hrow2, by rw [← hhash]; exact congrArg (·.normalizedPayload.payloadHash) hevidence⟩
  · intro e' he' hnot
    have hold : e' ∉ es := fun hin => hnot (List.mem_append_left _ hin)
    have hne : e.eventKey ≠ e'.eventKey := fun heq =>
      hnot (hun.keys e he e' he' heq ▸ List.mem_append_right _ (by simp))
    obtain ⟨hnone, hfills⟩ := hrep.unrecorded e' he' hold
    refine ⟨?_, fun f hf => ?_⟩
    · have := hfound e'.eventKey
      unfold Tables.event at hnone this ⊢
      rw [List.find?_append, hnone] at this
      simpa [hrowAccount, hpayload, hkey, hne] using this
    · rcases happ.fills with ⟨hsame, -⟩ | ⟨row', -, -, hrowKey, hsame⟩
      · exact hfills f (hsame ▸ hf)
      · rw [hsame] at hf
        rcases List.mem_append.mp hf with hin | hlast
        · exact hfills f hin
        · rw [List.mem_singleton.mp hlast, hrowKey, hkey]
          simpa using hne
  · have hfill : event.fill = e.fill := by rw [hd]
    rcases happ.fills with ⟨hsame, hwhy⟩ | ⟨row', hsome, hrowId, -, hsame⟩
    · have hnone : e.fill = none := by
        rcases hwhy with hnone | hany
        · exact hfill ▸ hnone
        · obtain ⟨f, hf, hfkey⟩ := List.any_eq_true.mp hany
          have := (hrep.unrecorded e he hes).2 f hf
          rw [hkey] at hfkey
          exact absurd (of_decide_eq_true hfkey) this
      rw [hsame, hrep.fills]
      simp [hnone, or_and_right, exists_or]
    · rw [hsame]
      have : e.fill.isSome := hfill ▸ hsome
      exact ⟨fun _ => ⟨e, by simp, this⟩, fun _ => ⟨row', by simp, by simpa using hrowId⟩⟩

/-- A later delivery of a report changes neither the order's row nor its fills. -/
theorem Reported.again (hun : Unreported o t0 r id E) (hrep : Reported o t0 t r E es)
    (he : e ∈ es) (hd : event = { e with receivedAt := event.receivedAt })
    (h : persist o t event source acknowledgement = .ok (t', result)) :
    Reported o t0 t' r E es := by
  obtain ⟨row, hrow, hhash⟩ := hrep.recorded e he
  have hclose : event.closeDetail = none := by
    rw [hd]
    exact (hun.reports e (hrep.sub e he)).closeDetail
  unfold persist at h
  rw [show event.eventKey = e.eventKey by rw [hd], hrow] at h
  simp only at h
  rw [if_neg (by rw [hhash, hd]; simp), if_neg (by
    simp [replaysTradeOutcomeConflict, DemoExecutionEvent.closesPosition, hclose])] at h
  obtain ⟨t1, h1, h⟩ := bind_ok.mp h
  cases h
  obtain ⟨acks, rfl⟩ := persistAcknowledgement_ok h1
  exact ⟨hrep.nodup, hrep.sub, hrep.orders, hrep.groups, hrep.recorded, hrep.unrecorded,
    hrep.fills, hrep.positions.mono rfl le_rfl⟩

/-! ### A report that commits -/

/-- The order's row is found by what no other row satisfies. -/
theorem find?_reported {p : OrderRow → Bool} (hun : Unreported o t0 r id E)
    (hrep : Reported o t0 t r E es) (hr : p (r.reports es) = true)
    (hp : ∀ q ∈ t0.orders, p q = true → q = r) : t.orders.find? p = some (r.reports es) := by
  rw [hrep.orders, List.find?_map, ← List.head?_filter, filter_sole hun.nodup hun.mem]
  · simp
  · intro q hq
    rw [Function.comp_apply]
    by_cases hsame : q = r
    · simp [hsame, hr]
    · rw [if_neg hsame]
      exact ⟨fun h => hp q hq h, fun h => absurd h hsame⟩

theorem order_found (hun : Unreported o t0 r id E) (hrep : Reported o t0 t r E es) :
    t.orders.find? (fun q => q.id = r.id ∧ q.accountId = o.accountId) = some (r.reports es) := by
  obtain ⟨hid, haccount, -, -, -⟩ := @reports_keeps r es
  refine find?_reported hun hrep (by simp [hid, haccount, hun.account]) fun q hq h => ?_
  exact hun.sole q hq (Or.inl (of_decide_eq_true h).1)

theorem order_reported (hun : Unreported o t0 r id E) (hrep : Reported o t0 t r E es) :
    t.orders.find? (fun q => q.id = r.id) = some (r.reports es) := by
  refine find?_reported hun hrep (by simp [reports_keeps.1]) fun q hq h => ?_
  exact hun.sole q hq (Or.inl (of_decide_eq_true h))

theorem persistOrder_report (hun : Unreported o t0 r id E) (hrep : Reported o t0 t r E es)
    (he : e ∈ E) {k : OrderMatch} (hk : k.orderId = r.id) :
    ∃ t1 s, persistOrder o t e (some k) = .ok (t1, s) := by
  have hreport := hun.reports e he
  obtain ⟨q, time, hq, htime⟩ := hreport.order
  obtain ⟨hid, haccount, -, -, hnormalized⟩ := @reports_keeps r es
  have hbounds := @reports_filledVolume_bounds r (es ++ [e]) hun.filledVolume
    (hreport.volume.1.trans hreport.volume.2) fun e' he' => by
      rcases List.mem_append.mp he' with hold | hlast
      · exact (hun.reports e' (hrep.sub e' hold)).volume
      · exact List.mem_singleton.mp hlast ▸ hreport.volume
  have hnamed : ((r.reports es).report e).brokerOrderId = some id := by
    have := @reports_brokerOrderId r id es hun.brokerOrderId
      fun e' he' => (hun.reports e' (hrep.sub e' he')).brokerOrderId
    rcases this with h | h <;> simp [OrderRow.report, h, hreport.brokerOrderId]
  rw [reports_concat] at hbounds
  simp only [persistOrder, hq, htime, hk, update_eq_report hq htime]
  have hfind : (updateWhere (fun q => q.id = r.id ∧ q.accountId = o.accountId)
      (fun q => q.report e) t.orders).find? (fun q => q.id = r.id ∧ q.accountId = o.accountId) =
      some ((r.reports es).report e) := by
    rw [find?_updateWhere, order_found hun hrep, Option.map_some]
    · simp [hid, haccount, hun.account]
    · exact fun _ => rfl
  rw [hfind]
  simp only
  rw [if_neg (by
    rw [not_or, not_lt, not_lt]
    exact ⟨hbounds.1, by simpa [OrderRow.report, hnormalized] using hbounds.2⟩), if_neg]
  · exact ⟨_, _, rfl⟩
  · rw [not_and]
    intro _ hany
    obtain ⟨q', hq', hsame⟩ := List.any_eq_true.mp hany
    simp only [hnamed, decide_eq_true_eq] at hsame
    obtain ⟨hne, hqaccount, hqbroker⟩ := hsame
    obtain ⟨q1, hq1, rfl⟩ := mem_updateWhere.mp hq'
    rw [hrep.orders] at hq1
    obtain ⟨q0, hq0, rfl⟩ := List.mem_map.mp hq1
    by_cases heq : q0 = r
    · rw [if_pos heq] at hne
      split at hne <;> exact hne rfl
    · rw [if_neg heq] at hne hqaccount hqbroker
      have hq0id : q0.id ≠ r.id := fun h => heq (hun.sole q0 hq0 (Or.inl h))
      rw [if_neg (by simp [hq0id])] at hqaccount hqbroker
      refine heq (hun.sole q0 hq0 (Or.inr ⟨?_, Or.inr hqbroker⟩))
      exact hqaccount.trans (haccount.trans hun.account)

theorem persistPosition_report (gid : ℕ) (a : Option DemoExecutionCloseDetail)
    (hpos : PositionsUnique t) (hreport : ReportsOn r id e) :
    ∃ t3 p, persistPosition o t e (matchingPositions o t e).head? gid a = .ok (t3, p, none) := by
  unfold persistPosition
  cases hp : e.position with
  | none => exact ⟨_, _, rfl⟩
  | some p =>
    obtain ⟨hbroker, hvolume, hprice⟩ := hreport.position p hp
    have hup : ∃ t1 stored, upsertPosition t
        (proposedPosition o t p (matchingPositions o t e).head? gid) = .ok (t1, stored) := by
      unfold upsertPosition
      rw [if_neg (by simpa [proposedPosition, hvolume] using hprice)]
      simp only
      split
      · exact ⟨_, _, rfl⟩
      · next hnone =>
        rw [if_neg]
        · exact ⟨_, _, rfl⟩
        · intro hany
          obtain ⟨q, hq, hqid⟩ := List.any_eq_true.mp hany
          cases hmatch : (matchingPositions o t e).head? with
          | none =>
            rw [hmatch] at hqid
            exact absurd (hpos.id q hq) (by simpa [proposedPosition] using (of_decide_eq_true hqid).ge)
          | some k =>
            have hmem := List.mem_of_mem_head? hmatch
            simp only [matchingPositions, hbroker] at hmem
            obtain ⟨q', hq', -⟩ := List.mem_map.mp hmem
            obtain ⟨hq'mem, hq'same⟩ := List.mem_filter.mp hq'
            simp only [decide_eq_true_eq] at hq'same
            refine List.find?_eq_none.mp hnone q' hq'mem ?_
            simp [proposedPosition, hq'same]
    obtain ⟨t1, stored, hup⟩ := hup
    simp only [hreport.closeDetail]
    exact ⟨_, _, bind_ok.mpr ⟨_, hup, by cases p.state <;> rfl⟩⟩

/-- A report that is not recorded yet commits. -/
theorem persist_report_ok (hun : Unreported o t0 r id E) (hrep : Reported o t0 t r E es)
    (he : e ∈ E) (hes : e ∉ es) :
    ∃ t' result, persist o t e .unspecified none = .ok (t', result) := by
  have hreport := hun.reports e he
  have hnone := (hrep.unrecorded e he hes).1
  rw [persist_report hun hrep he hes rfl]
  obtain ⟨t1, s, h1⟩ := persistOrder_report hun hrep he (k := ⟨r.id, r.orderGroupId,
    (r.reports es).brokerOrderId⟩) rfl
  have hsame : t1.positions = t.positions ∧ t1.events = t.events ∧ t1.nextId = t.nextId := by
    rcases persistOrder_ok h1 with ⟨rfl, -⟩ | ⟨q, k, time, -, -, -, rfl⟩ <;> exact ⟨rfl, rfl, rfl⟩
  have hmatched : matchingPositions o t e = matchingPositions o t1 e := by
    unfold matchingPositions
    rw [hsame.1]
  have h2 : persistCloseDeal o t1 e false = .ok (t1, none) := by
    simp [persistCloseDeal, hreport.closeDetail]
  obtain ⟨t3, p, h3⟩ := persistPosition_report r.orderGroupId none
    (hrep.positions.mono hsame.1 hsame.2.2.ge) hreport
  have hevents : t3.events = t.events := by
    rcases persistPosition_ok h3 with ⟨-, rfl, -⟩ | ⟨p, t6, stored, trades, -, hup, -, rfl⟩
    · exact hsame.2.1
    · rcases upsertPosition_ok hup with ⟨q, -, -, -, -, rfl⟩ | ⟨-, -, rfl⟩ <;> exact hsame.2.1
  have h4 : ∃ t4, persistFill o t3 e (some ⟨r.id, r.orderGroupId,
      (r.reports es).brokerOrderId⟩) p = .ok t4 ∧ t4.events = t.events := by
    unfold persistFill
    cases hf : e.fill with
    | none => exact ⟨_, rfl, hevents⟩
    | some f =>
      obtain ⟨hprice, hvolume⟩ := hreport.fill f hf
      simp only
      rw [if_neg (by simp), if_neg (by simp [hprice, hvolume])]
      split
      · exact ⟨_, rfl, hevents⟩
      · exact ⟨_, rfl, hevents⟩
  obtain ⟨t4, h4, hevents4⟩ := h4
  have h5 : ∃ t5, recordMapped o (updateOrderGroup t4 r.orderGroupId e.occurredAt) e
      (some ⟨r.id, r.orderGroupId, (r.reports es).brokerOrderId⟩) p (mappedReasons e none s) false =
      .ok t5 := by
    have hnone' : (updateOrderGroup t4 r.orderGroupId e.occurredAt).event o e.eventKey = none := by
      unfold Tables.event at hnone ⊢
      rw [← hnone, ← hevents4]
      rfl
    simp only [recordMapped, Bool.false_eq_true, if_false, insertEvent, hnone']
    rw [if_neg (by simp), if_neg]
    · exact ⟨_, rfl⟩
    · rw [hreport.entry]
      rintro (⟨hfalse, -⟩ | hany)
      · cases hfalse
      · obtain ⟨n, hn, hout⟩ := (Option.any_eq_true _ _).mp hany
        have := hreport.orderType n hn
        have := of_decide_eq_true hout
        omega
  obtain ⟨t5, h5⟩ := h5
  exact ⟨_, _, bind_ok.mpr ⟨_, h1, bind_ok.mpr ⟨_, h2, bind_ok.mpr ⟨_, hmatched ▸ h3,
    bind_ok.mpr ⟨_, h4, bind_ok.mpr ⟨_, h5, bind_ok.mpr ⟨_, rfl, rfl⟩⟩⟩⟩⟩⟩⟩

end ScalpingBot.Store
