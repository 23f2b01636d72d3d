import ScalpingBot.Library.Checked
import ScalpingBot.Store.Persist

/-! What each stage of the transaction can change: the tables that a stage does not name are left
    as they are. -/

namespace ScalpingBot.Store

theorem mem_updateWhere {α : Type} {p : α → Bool} {f : α → α} {rows : List α} {b : α} :
    b ∈ updateWhere p f rows ↔ ∃ a ∈ rows, (if p a then f a else a) = b := by
  simp [updateWhere]

theorem updateWhere_congr {α β : Type} {p : α → Bool} {f : α → α} (g : α → β)
    (h : ∀ a, g (f a) = g a) (rows : List α) : (updateWhere p f rows).map g = rows.map g := by
  rw [updateWhere, List.map_map]
  refine List.map_congr_left fun a _ => ?_
  rw [Function.comp_apply]
  split
  · exact h a
  · rfl

variable {o : PostgresDemoExecutionStoreOptions} {t t' : Tables} {event : DemoExecutionEvent}
  {source : DemoExecutionEvidenceSource} {acknowledgement : Option BrokerAcknowledgement}
  {result : DemoExecutionPersistenceResult} {order : Option OrderMatch}
  {position : Option PositionMatch} {orderGroupId : ℕ} {m : Matched} {replay : Bool}

/-! ### The journal -/

theorem insertEvent_ok {s : MappingState} {reasons : List String}
    (h : insertEvent o t event order position s reasons = .ok t') :
    t.event o event.eventKey = none ∧ ∃ row : EventRow, row.accountId = o.accountId ∧
      row.normalizedPayload = event ∧ row.mappingState = s ∧ row.reasonCodes = reasons ∧
      row.resolvedAt = none ∧
      t' = { t with events := t.events ++ [row], nextId := t.nextId + 1 } := by
  unfold insertEvent at h
  split at h
  · cases h
  · next hnone =>
    split at h
    · cases h
    · cases h
      exact ⟨by simpa using hnone, _, rfl, rfl, rfl, rfl, rfl, rfl⟩

theorem persistAcknowledgement_ok (h : persistAcknowledgement o t event source acknowledgement =
    .ok t') : ∃ rows, t' = { t with acknowledgements := rows } := by
  unfold persistAcknowledgement at h
  split at h
  · cases h
    exact ⟨_, rfl⟩
  · split at h
    · cases h
    · split at h
      · cases h
      · split at h
        · cases h
          exact ⟨_, rfl⟩
        · split at h <;> cases h
          exact ⟨_, rfl⟩

theorem journal_ok {s : MappingState} {reason : String}
    (h : journal o t event source acknowledgement order position s reason = .ok (t', result)) :
    ∃ t1 rows, insertEvent o t event order position s [reason] = .ok t1 ∧
      t' = { t1 with acknowledgements := rows } := by
  obtain ⟨t1, h1, h⟩ := bind_ok.mp h
  obtain ⟨t2, h2, h⟩ := bind_ok.mp h
  obtain ⟨rows, rfl⟩ := persistAcknowledgement_ok h2
  cases h
  exact ⟨t1, rows, h1, rfl⟩

/-! ### Orders, positions and trades -/

/-- A stored order after an event: the row of the matched order is updated. -/
theorem persistOrder_ok {s : Option OrderState} (h : persistOrder o t event order = .ok (t', s)) :
    (t' = t ∧ (event.order = none ∨ order = none)) ∨
    ∃ q m time, event.order = some q ∧ order = some m ∧ q.updatedAt = some time ∧
      t' = { t with
        orders := updateWhere (fun r => r.id = m.orderId ∧ r.accountId = o.accountId)
          (fun r => r.update event.brokerOrderId q time) t.orders } := by
  unfold persistOrder at h
  split at h
  · next _ _ q m hq =>
    split at h
    · cases h
    · next time htime =>
      simp only at h
      split at h
      · cases h
      · split at h
        · cases h
        · split at h
          · cases h
          · cases h
            exact Or.inr ⟨q, m, time, hq, rfl, htime, rfl⟩
  · next hnone =>
    cases h
    refine Or.inl ⟨rfl, ?_⟩
    by_contra hboth
    rw [not_or] at hboth
    obtain ⟨q, hq⟩ := Option.ne_none_iff_exists'.mp hboth.1
    obtain ⟨m, hm⟩ := Option.ne_none_iff_exists'.mp hboth.2
    exact hnone q m hq hm

theorem persistCloseDeal_ok {manual : Bool} {a : Option DemoExecutionCloseDetail}
    (h : persistCloseDeal o t event manual = .ok (t', a)) :
    ∃ rows, t' = { t with closeDeals := rows } := by
  unfold persistCloseDeal at h
  split at h
  · obtain ⟨⟨t1, a1⟩, h1, h⟩ := bind_ok.mp h
    cases h
    unfold recordPositionClose at h1
    split at h1
    · split at h1 <;> cases h1
      exact ⟨_, rfl⟩
    · cases h1
  · cases h
    exact ⟨_, rfl⟩

/-- The row of a position is merged with the proposed one, or the proposed one is new. -/
theorem upsertPosition_ok {e stored : PositionRow} (h : upsertPosition t e = .ok (t', stored)) :
    (∃ r ∈ t.positions, r.accountId = e.accountId ∧ r.brokerPositionId = e.brokerPositionId ∧
      stored = r.merge e ∧
      t' = { t with
        positions := updateWhere (fun p => p.accountId = e.accountId ∧
          p.brokerPositionId = e.brokerPositionId) (·.merge e) t.positions }) ∨
    ((∀ r ∈ t.positions, ¬ (r.accountId = e.accountId ∧
        r.brokerPositionId = e.brokerPositionId)) ∧ stored = e ∧
      t' = { t with positions := t.positions ++ [e], nextId := t.nextId + 1 }) := by
  unfold upsertPosition at h
  split at h
  · cases h
  · simp only at h
    split at h
    · next r hr =>
      cases h
      have hsame := List.find?_some hr
      simp only [Bool.decide_and, Bool.and_eq_true, decide_eq_true_eq] at hsame
      exact Or.inl ⟨r, List.mem_of_find?_eq_some hr, hsame.1, hsame.2, rfl, rfl⟩
    · next hnone =>
      split at h <;> cases h
      refine Or.inr ⟨fun r hr hsame => ?_, rfl, rfl⟩
      exact List.find?_eq_none.mp hnone r hr (by simpa using hsame)

/-- The result of a trade is that of its close. -/
structure TradeRow.Realizes (row : TradeRow) (d : DemoExecutionCloseDetail) : Prop where
  fees : row.fees = Decimal.plus (Decimal.plus d.swap d.commission) d.pnlConversionFee
  realizedPnl : row.realizedPnl = Decimal.plus d.grossProfit row.fees

theorem groupOf_id {id : Option ℕ} {g : OrderGroupRow} (h : id.bind t.orderGroup = some g) :
    id = some g.id := by
  obtain ⟨i, rfl, hg⟩ := Option.bind_eq_some_iff.mp h
  have hid : g.id = i := by simpa using List.find?_some hg
  rw [hid]

theorem persistClosedTrade_ok {p : PositionRow} {d : DemoExecutionCloseDetail}
    {reason : Option String} (h : persistClosedTrade t p d = .ok (t', reason)) :
    (t' = t ∧ reason.isSome) ∨
    (reason = none ∧ ∃ row : TradeRow, row.positionId = some p.id ∧
      p.orderGroupId = some row.orderGroupId ∧ row.Realizes d ∧
      t' = { t with trades := t.trades ++ [row] }) := by
  unfold persistClosedTrade at h
  split at h
  · cases h
  · split at h
    · split at h
      · cases h
        exact Or.inl ⟨rfl, rfl⟩
      · next g hg =>
        split at h
        · split at h
          · cases h
            exact Or.inl ⟨rfl, rfl⟩
          · split at h
            · cases h
              exact Or.inl ⟨rfl, rfl⟩
            · split at h
              · split at h
                · cases h
                  exact Or.inl ⟨rfl, rfl⟩
                · simp only at h
                  split at h
                  · cases h
                  · split at h
                    · cases h
                    · cases h
                      exact Or.inr ⟨rfl, _, rfl, groupOf_id hg, ⟨rfl, rfl⟩, rfl⟩
              · cases h
                exact Or.inl ⟨rfl, rfl⟩
        · cases h
          exact Or.inl ⟨rfl, rfl⟩
    · cases h
      exact Or.inl ⟨rfl, rfl⟩

theorem persistPosition_ok {a : Option DemoExecutionCloseDetail} {p' : Option PositionMatch}
    {reason : Option String}
    (h : persistPosition o t event position orderGroupId a = .ok (t', p', reason)) :
    (event.position = none ∧ t' = t ∧ p' = position) ∨
    ∃ p t1 stored trades, event.position = some p ∧
      upsertPosition t (proposedPosition o t p position orderGroupId) = .ok (t1, stored) ∧
      p' = some ⟨stored.id, some orderGroupId⟩ ∧ t' = { t1 with trades := trades } := by
  unfold persistPosition at h
  split at h
  · next hnone =>
    cases h
    exact Or.inl ⟨hnone, rfl, rfl⟩
  · next p hp =>
    obtain ⟨⟨t1, stored⟩, h1, h⟩ := bind_ok.mp h
    refine Or.inr ⟨p, t1, stored, ?_⟩
    simp only at h
    split at h
    · obtain ⟨⟨t2, reason2⟩, h2, h⟩ := bind_ok.mp h
      cases h
      rcases persistClosedTrade_ok h2 with ⟨rfl, -⟩ | ⟨-, row, -, -, -, rfl⟩
      · exact ⟨_, hp, h1, rfl, rfl⟩
      · exact ⟨_, hp, h1, rfl, rfl⟩
    · cases h
      exact ⟨_, hp, h1, rfl, rfl⟩

theorem persistFill_ok (h : persistFill o t event order position = .ok t') :
    (t' = t ∧ (event.fill = none ∨ t.fills.any fun f =>
      f.brokerEventKey = o.accountId ++ ":" ++ event.eventKey)) ∨
    ∃ row : FillRow, event.fill.isSome ∧ row.orderId = order.map (·.orderId) ∧
      row.brokerEventKey = o.accountId ++ ":" ++ event.eventKey ∧
      t' = { t with fills := t.fills ++ [row] } := by
  unfold persistFill at h
  split at h
  · next hnone =>
    cases h
    exact Or.inl ⟨rfl, Or.inl hnone⟩
  · next f hf =>
    split at h
    · cases h
    · split at h
      · cases h
      · simp only at h
        split at h
        · next hany =>
          cases h
          exact Or.inl ⟨rfl, Or.inr hany⟩
        · cases h
          exact Or.inr ⟨_, by simp [hf], rfl, rfl, rfl⟩

/-! ### Groups, claims and resolutions -/

theorem bindCloseOrder_ok {authorized : Bool}
    (h : bindCloseOrder t event authorized position = .ok t') :
    ∃ rows, t' = { t with protections := rows } := by
  unfold bindCloseOrder at h
  simp only at h
  split at h
  · cases h
    exact ⟨_, rfl⟩
  · split at h
    · cases h
    · split at h <;> cases h
      exact ⟨_, rfl⟩

/-- The fields of a stored event that no resolution touches. -/
def EventRow.evidence (r : EventRow) : EventRow :=
  { r with mappingState := .mapped, resolvedAt := none, resolutionEventKey := none }

theorem resolveEvents_eq {p : EventRow → Bool} {f : EventRow → EventRow}
    (hf : ∀ r, (f r).evidence = r.evidence) :
    ∃ rows, rows.map EventRow.evidence = t.events.map EventRow.evidence ∧
      resolveEvents o t event p f = { t with events := rows } := by
  refine ⟨(resolveEvents o t event p f).events, ?_, rfl⟩
  exact updateWhere_congr (f := fun r => f
    { r with resolvedAt := some event.occurredAt, resolutionEventKey := some event.eventKey })
    EventRow.evidence (fun r => hf _) t.events

theorem resolvePartialFills_eq {s : Option OrderState} :
    ∃ rows, rows.map EventRow.evidence = t.events.map EventRow.evidence ∧
      resolvePartialFills o t event s = { t with events := rows } := by
  unfold resolvePartialFills
  split
  · exact resolveEvents_eq fun _ => rfl
  · exact ⟨_, rfl, rfl⟩

theorem resolveClosingOrder_eq :
    ∃ rows, rows.map EventRow.evidence = t.events.map EventRow.evidence ∧
      resolveClosingOrder o t event m = { t with events := rows } := by
  unfold resolveClosingOrder
  split
  · exact resolveEvents_eq fun _ => rfl
  · exact ⟨_, rfl, rfl⟩

theorem resolvePartialCloses_eq {a : Option DemoExecutionCloseDetail} :
    ∃ rows, rows.map EventRow.evidence = t.events.map EventRow.evidence ∧
      resolvePartialCloses o t event position a = { t with events := rows } := by
  unfold resolvePartialCloses
  split
  · exact resolveEvents_eq fun _ => rfl
  · exact ⟨_, rfl, rfl⟩

/-! ### The transaction -/

/-- The stages of an event that is applied. -/
theorem persistMapped_ok
    (h : persistMapped o t event source acknowledgement m orderGroupId replay = .ok (t', result)) :
    ∃ t1 s t2 a t3 p reason t4 t5 rows acks,
      persistOrder o t event m.order = .ok (t1, s) ∧
      persistCloseDeal o t1 event m.manualClose = .ok (t2, a) ∧
      persistPosition o t2 event m.position orderGroupId a = .ok (t3, p, reason) ∧
      persistFill o t3 event m.order p = .ok t4 ∧
      recordMapped o (updateOrderGroup t4 orderGroupId event.occurredAt) event m.order p
        (mappedReasons event reason s) replay = .ok t5 ∧
      rows.map EventRow.evidence = t5.events.map EventRow.evidence ∧
      t' = { t5 with events := rows, acknowledgements := acks } := by
  obtain ⟨⟨t1, s⟩, h1, h⟩ := bind_ok.mp h
  obtain ⟨⟨t2, a⟩, h2, h⟩ := bind_ok.mp h
  obtain ⟨⟨t3, p, reason⟩, h3, h⟩ := bind_ok.mp h
  obtain ⟨t4, h4, h⟩ := bind_ok.mp h
  obtain ⟨t5, h5, h⟩ := bind_ok.mp h
  obtain ⟨t6, h6, h⟩ := bind_ok.mp h
  cases h
  obtain ⟨acks, rfl⟩ := persistAcknowledgement_ok h6
  obtain ⟨rows1, hrows1, he1⟩ := @resolvePartialFills_eq o t5 event s
  obtain ⟨rows2, hrows2, he2⟩ := @resolveClosingOrder_eq o
    (resolvePartialFills o t5 event s) event m
  obtain ⟨rows3, hrows3, he3⟩ := @resolvePartialCloses_eq o
    (resolveClosingOrder o (resolvePartialFills o t5 event s) event m) event p a
  refine ⟨t1, s, t2, a, t3, p, reason, t4, t5, rows3, acks, h1, h2, h3, h4, h5, ?_, ?_⟩
  · rw [hrows3, he2]
    exact hrows2.trans (by rw [he1]; exact hrows1)
  · rw [he3, he2, he1]

/-- The rows of groups, orders, positions, fills and trades are as before. -/
structure RowsKept (t t' : Tables) : Prop where
  orderGroups : t'.orderGroups = t.orderGroups
  orders : t'.orders = t.orders
  positions : t'.positions = t.positions
  fills : t'.fills = t.fills
  trades : t'.trades = t.trades

/-- What `persist` matches an event with that it applies. -/
structure Matches (o : PostgresDemoExecutionStoreOptions) (t : Tables) (event : DemoExecutionEvent)
    (m : Matched) (orderGroupId : ℕ) : Prop where
  order : m.order = (matchingOrders o t event).head? ∨ m.order = none
  position : m.position = (matchingPositions o t event).head?
  group : (m.order.map (·.orderGroupId)).or (m.position.bind (·.orderGroupId)) = some orderGroupId

theorem insertEvent_rows {s : MappingState} {reasons : List String}
    (h : insertEvent o t event order position s reasons = .ok t') : RowsKept t t' := by
  obtain ⟨-, row, -, -, -, -, -, rfl⟩ := insertEvent_ok h
  exact ⟨rfl, rfl, rfl, rfl, rfl⟩

theorem journal_rows {s : MappingState} {reason : String}
    (h : journal o t event source acknowledgement order position s reason = .ok (t', result)) :
    RowsKept t t' := by
  obtain ⟨t1, rows, h1, rfl⟩ := journal_ok h
  obtain ⟨hgroups, horders, hpositions, hfills, htrades⟩ := insertEvent_rows h1
  exact ⟨hgroups, horders, hpositions, hfills, htrades⟩

theorem recordVariant_rows {duplicate : EventRow}
    (h : recordVariant o t event source acknowledgement duplicate = .ok (t', result)) :
    RowsKept t t' := by
  have hvariant : ∀ (t : Tables) (v : VariantRow), RowsKept t (insertVariant t v).1 := by
    intro t v
    unfold insertVariant
    split <;> exact ⟨rfl, rfl, rfl, rfl, rfl⟩
  rw [recordVariant] at h
  simp only at h
  generalize hfirst : insertVariant t _ = first at h
  obtain ⟨hgroups, horders, hpositions, hfills, htrades⟩ : RowsKept t first.1 := by
    rw [← hfirst]
    exact hvariant _ _
  generalize hsecond : insertVariant first.1 _ = second at h
  obtain ⟨hgroups', horders', hpositions', hfills', htrades'⟩ : RowsKept first.1 second.1 := by
    rw [← hsecond]
    exact hvariant _ _
  obtain ⟨t3, h3, h⟩ := bind_ok.mp h
  obtain ⟨acks, rfl⟩ := persistAcknowledgement_ok h3
  obtain rfl := (Prod.mk.inj (Except.ok.inj h)).1
  split
  all_goals exact ⟨hgroups'.trans hgroups, horders'.trans horders, hpositions'.trans hpositions,
    hfills'.trans hfills, htrades'.trans htrades⟩

theorem persistMatched_cases
    (h : persistMatched o t event source acknowledgement m replay = .ok (t', result)) :
    RowsKept t t' ∨ ∃ id, (m.order.map (·.orderGroupId)).or (m.position.bind (·.orderGroupId)) =
      some id ∧ persistMapped o t event source acknowledgement m id replay = .ok (t', result) := by
  unfold persistMatched at h
  split at h
  · exact .inl (journal_rows h)
  · split at h
    · exact .inl (journal_rows h)
    · next id hid =>
      unfold persistInGroup at h
      split at h
      · exact .inl (journal_rows h)
      · exact .inr ⟨id, hid, h⟩

/-- A transaction leaves the rows, or applies the event to those that it is matched with. -/
theorem persist_cases (h : persist o t event source acknowledgement = .ok (t', result)) :
    RowsKept t t' ∨ ∃ rows m id replay, Matches o t event m id ∧
      persistMapped o { t with protections := rows } event source acknowledgement m id replay =
        .ok (t', result) := by
  have hauthorized : ∀ (m : Matched) replay, m.order = (matchingOrders o t event).head? →
      m.position = (matchingPositions o t event).head? →
      persistAuthorized o t event source acknowledgement m replay = .ok (t', result) →
      RowsKept t t' ∨ ∃ rows m id replay, Matches o t event m id ∧
        persistMapped o { t with protections := rows } event source acknowledgement m id replay =
          .ok (t', result) := by
    intro m replay horder hposition h
    obtain ⟨t1, h1, h⟩ := bind_ok.mp h
    obtain ⟨rows, rfl⟩ := bindCloseOrder_ok h1
    split at h
    · split at h
      · obtain ⟨hgroups, horders, hpositions, hfills, htrades⟩ := journal_rows h
        exact .inl ⟨hgroups, horders, hpositions, hfills, htrades⟩
      · rcases persistMatched_cases h with ⟨hgroups, horders, hpositions, hfills, htrades⟩ |
          ⟨id, hid, hmapped⟩
        · exact .inl ⟨hgroups, horders, hpositions, hfills, htrades⟩
        · exact .inr ⟨rows, { m with order := none }, id, replay, ⟨.inr rfl, hposition, hid⟩, hmapped⟩
    · rcases persistMatched_cases h with ⟨hgroups, horders, hpositions, hfills, htrades⟩ |
        ⟨id, hid, hmapped⟩
      · exact .inl ⟨hgroups, horders, hpositions, hfills, htrades⟩
      · exact .inr ⟨rows, _, id, replay, ⟨.inl horder, hposition, hid⟩, hmapped⟩
  have hevent : ∀ replay, persistEvent o t event source acknowledgement replay = .ok (t', result) →
      RowsKept t t' ∨ ∃ rows m id replay, Matches o t event m id ∧
        persistMapped o { t with protections := rows } event source acknowledgement m id replay =
          .ok (t', result) := by
    intro replay h
    unfold persistEvent at h
    simp only at h
    split at h
    · exact .inl (journal_rows h)
    · split at h
      · exact .inl (journal_rows h)
      · split at h
        · exact .inl (journal_rows h)
        · exact hauthorized _ replay rfl rfl h
  unfold persist at h
  split at h
  · exact hevent false h
  · split at h
    · exact .inl (recordVariant_rows h)
    · split at h
      · exact hevent true h
      · obtain ⟨t1, h1, h⟩ := bind_ok.mp h
        obtain ⟨rows, rfl⟩ := persistAcknowledgement_ok h1
        cases h
        exact .inl ⟨rfl, rfl, rfl, rfl, rfl⟩

end ScalpingBot.Store
