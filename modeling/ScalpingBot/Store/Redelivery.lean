import ScalpingBot.Library.Transition
import ScalpingBot.Store.Stages

/-! Events that are delivered again. A recorded event is found by its key, and its redelivery is
    acknowledged without a change. An unresolved outcome conflict is the exception: its redelivery
    is applied as if it were new, and either meets the trade that caused the conflict, so that the
    event is inserted a second time against the unique key, or writes the position again. -/

namespace ScalpingBot.Store

variable {o : PostgresDemoExecutionStoreOptions} {t t' : Tables} {event : DemoExecutionEvent}
  {source : DemoExecutionEvidenceSource} {acknowledgement : Option BrokerAcknowledgement}
  {result : DemoExecutionPersistenceResult} {order : Option OrderMatch}
  {position : Option PositionMatch} {orderGroupId : ℕ} {m : Matched} {duplicate : EventRow}

/-- The tables agree on all that is recorded, acknowledgements and resolutions apart. -/
structure SameRecords (t t' : Tables) : Prop where
  orderGroups : t'.orderGroups = t.orderGroups
  orders : t'.orders = t.orders
  positions : t'.positions = t.positions
  fills : t'.fills = t.fills
  trades : t'.trades = t.trades
  events : t'.events.map EventRow.evidence = t.events.map EventRow.evidence
  mappings : t'.events.map (·.mappingState) = t.events.map (·.mappingState)

/-- The store takes the acknowledgement with a redelivery of `duplicate`: it comes from the broker
    callback of this delivery, and no other evidence is kept under its hash. -/
def AcknowledgementFits (t : Tables) (duplicate : EventRow) (event : DemoExecutionEvent)
    (source : DemoExecutionEvidenceSource) (acknowledgement : Option BrokerAcknowledgement) :
    Prop :=
  ∀ a, acknowledgement = some a → source = .brokerCallback ∧ a.eventKey = event.eventKey ∧
    a.receivedAt = event.receivedAt ∧
    ∀ r, (t.acknowledgements.find? fun r => r.eventId = duplicate.id ∧
      r.evidenceHash = a.evidenceHash) = some r →
      r = ⟨duplicate.id, event.payloadHash, a.evidenceHash, a, a.receivedAt⟩

theorem persistAcknowledgement_fits (hrow : t.event o event.eventKey = some duplicate) :
    (∃ t', persistAcknowledgement o t event source acknowledgement = .ok t') ↔
      AcknowledgementFits t duplicate event source acknowledgement := by
  unfold persistAcknowledgement AcknowledgementFits
  cases acknowledgement with
  | none => simp
  | some a =>
    simp only [hrow, Option.some.injEq, forall_eq']
    constructor
    · rintro ⟨t', h⟩
      split at h
      · cases h
      · next hsource =>
        rw [not_or, not_or, not_not, not_not, not_not] at hsource
        obtain ⟨hcallback, hkey, hreceived⟩ := hsource
        refine ⟨hcallback, hkey, hreceived, fun r hr => ?_⟩
        rw [hr] at h
        simp only at h
        split at h
        · assumption
        · cases h
    · rintro ⟨hcallback, hkey, hreceived, hkept⟩
      rw [if_neg (by simp [hcallback, hkey, hreceived])]
      cases hfind : t.acknowledgements.find? fun r =>
          r.eventId = duplicate.id ∧ r.evidenceHash = a.evidenceHash with
      | none => exact ⟨_, rfl⟩
      | some r =>
        simp only [hkept r hfind, if_true]
        exact ⟨t, rfl⟩

theorem acknowledgeDuplicate_fits (hrow : t.event o event.eventKey = some duplicate) :
    (∃ t' result, acknowledgeDuplicate o t event source acknowledgement duplicate =
      .ok (t', result) ∧ SameRecords t t') ↔
      AcknowledgementFits t duplicate event source acknowledgement := by
  rw [← persistAcknowledgement_fits hrow]
  constructor
  · rintro ⟨t', result, h, -⟩
    obtain ⟨t1, h1, -⟩ := bind_ok.mp h
    exact ⟨t1, h1⟩
  · rintro ⟨t1, h1⟩
    obtain ⟨rows, rfl⟩ := persistAcknowledgement_ok h1
    exact ⟨_, _, bind_ok.mpr ⟨_, h1, rfl⟩, rfl, rfl, rfl, rfl, rfl, rfl, rfl⟩

/-! ### The replay -/

/-- A recorded event is not inserted again. -/
theorem journal_recorded {s : MappingState} {reason : String}
    (hrow : t.event o event.eventKey = some duplicate) :
    journal o t event source acknowledgement order position s reason ≠ .ok (t', result) := by
  intro h
  obtain ⟨t1, rows, h1, -⟩ := journal_ok h
  rw [(insertEvent_ok h1).1] at hrow
  cases hrow

theorem upsertPosition_changes {e stored : PositionRow}
    (h : upsertPosition t e = .ok (t', stored)) : t'.positions ≠ t.positions := by
  rcases upsertPosition_ok h with ⟨r, hr, haccount, hid, -, rfl⟩ | ⟨-, -, rfl⟩
  · intro hsame
    have hmap := congrArg (List.map PositionRow.reconciliationVersion) hsame
    rw [updateWhere, List.map_map] at hmap
    have := (List.map_inj_left.mp hmap) r hr
    simp [haccount, hid, PositionRow.merge] at this
  · intro hsame
    have := congrArg List.length hsame
    simp at this

/-- An event with a position writes it when it is applied. -/
theorem persistMapped_changes {replay : Bool} (hp : event.position.isSome)
    (h : persistMapped o t event source acknowledgement m orderGroupId replay =
      .ok (t', result)) : t'.positions ≠ t.positions := by
  obtain ⟨t1, s, t2, a, t3, p, reason, t4, t5, rows, acks, h1, h2, h3, h4, h5, -, rfl⟩ :=
    persistMapped_ok h
  have hpos5 : t5.positions = t4.positions := by
    unfold recordMapped at h5
    split at h5
    · cases h5
      rfl
    · obtain ⟨-, row, -, -, -, -, -, rfl⟩ := insertEvent_ok h5
      rfl
  have hpos4 : t4.positions = t3.positions := by
    rcases persistFill_ok h4 with ⟨rfl, -⟩ | ⟨row, -, -, -, rfl⟩ <;> rfl
  have hpos2 : t2.positions = t1.positions := by
    obtain ⟨rows, rfl⟩ := persistCloseDeal_ok h2
    rfl
  have hpos1 : t1.positions = t.positions := by
    rcases persistOrder_ok h1 with ⟨rfl, -⟩ | ⟨q, m, time, -, -, -, rfl⟩ <;> rfl
  rcases persistPosition_ok h3 with ⟨hnone, -, -⟩ | ⟨p, t6, stored, trades, -, hup, -, rfl⟩
  · rw [hnone] at hp
    cases hp
  · have := upsertPosition_changes hup
    rw [show _ = t6.positions from hpos5.trans hpos4, ← hpos1, ← hpos2]
    exact this

theorem persistMatched_changes {replay : Bool} (hp : event.position.isSome)
    (hrow : t.event o event.eventKey = some duplicate)
    (h : persistMatched o t event source acknowledgement m replay = .ok (t', result)) :
    t'.positions ≠ t.positions := by
  unfold persistMatched at h
  split at h
  · exact absurd h (journal_recorded hrow)
  · split at h
    · exact absurd h (journal_recorded hrow)
    · unfold persistInGroup at h
      split at h
      · exact absurd h (journal_recorded hrow)
      · exact persistMapped_changes hp h

theorem persistAuthorized_changes {replay : Bool} (hp : event.position.isSome)
    (hrow : t.event o event.eventKey = some duplicate)
    (h : persistAuthorized o t event source acknowledgement m replay = .ok (t', result)) :
    t'.positions ≠ t.positions := by
  obtain ⟨t1, h1, h⟩ := bind_ok.mp h
  obtain ⟨rows, rfl⟩ := bindCloseOrder_ok h1
  have hrow' : Tables.event { t with protections := rows } o event.eventKey = some duplicate := hrow
  change t'.positions ≠ Tables.positions { t with protections := rows }
  split at h
  · split at h
    · exact absurd h (journal_recorded hrow')
    · exact persistMatched_changes hp hrow' h
  · exact persistMatched_changes hp hrow' h

/-- A recorded event that is applied again changes the positions, unless it throws. -/
theorem persistEvent_changes {replay : Bool} (hp : event.position.isSome)
    (hrow : t.event o event.eventKey = some duplicate)
    (h : persistEvent o t event source acknowledgement replay = .ok (t', result)) :
    t'.positions ≠ t.positions := by
  unfold persistEvent at h
  simp only at h
  split at h
  · exact absurd h (journal_recorded hrow)
  · split at h
    · exact absurd h (journal_recorded hrow)
    · split at h
      · exact absurd h (journal_recorded hrow)
      · exact persistAuthorized_changes hp hrow h

/-! ### Redelivery -/

/-- A recorded event is persisted again without an exception and without a change exactly if its
    row is no outcome conflict to be replayed and the store takes the acknowledgement. -/
theorem persist_again_iff (o : PostgresDemoExecutionStoreOptions) (t : Tables)
    (event : DemoExecutionEvent) (source : DemoExecutionEvidenceSource)
    (acknowledgement : Option BrokerAcknowledgement) (duplicate : EventRow)
    (hrow : t.event o event.eventKey = some duplicate)
    (hhash : duplicate.normalizedPayload.payloadHash = event.payloadHash) :
    (∃ t' result, persist o t event source acknowledgement = .ok (t', result) ∧
      SameRecords t t') ↔
    replaysTradeOutcomeConflict event duplicate = false ∧
      AcknowledgementFits t duplicate event source acknowledgement := by
  have hpersist : persist o t event source acknowledgement =
      if replaysTradeOutcomeConflict event duplicate then
        persistEvent o t event source acknowledgement true
      else acknowledgeDuplicate o t event source acknowledgement duplicate := by
    unfold persist
    simp [hrow, hhash]
  rw [hpersist]
  cases hreplay : replaysTradeOutcomeConflict event duplicate with
  | false =>
    simp only [Bool.false_eq_true, if_false, true_and]
    exact acknowledgeDuplicate_fits hrow
  | true =>
    simp only [if_true, Bool.true_eq_false, false_and, iff_false]
    rintro ⟨t', result, h, hsame⟩
    have hp : event.position.isSome := by
      simp only [replaysTradeOutcomeConflict, DemoExecutionEvent.closesPosition,
        DemoExecutionEvent.positionState, Bool.decide_and, Bool.and_eq_true, decide_eq_true_eq,
        Option.map_eq_some_iff] at hreplay
      obtain ⟨-, -, -, ⟨⟨p, hp, -⟩, -⟩, -⟩ := hreplay
      simp [hp]
    exact persistEvent_changes hp hrow h hsame.positions

/-! ### Runs -/

/-- One call of `persist` as a step of the store. -/
def step (o : PostgresDemoExecutionStoreOptions) (t : Tables) (d : Delivery) : Option Tables :=
  some (deliver o t d)

/-- The delivered event is recorded, in the row `duplicate`. -/
def Recorded (o : PostgresDemoExecutionStoreOptions) (t : Tables) (d : Delivery)
    (duplicate : EventRow) : Prop :=
  t.event o d.event.eventKey = some duplicate ∧
    duplicate.normalizedPayload.payloadHash = d.event.payloadHash

/-- If the event is recorded, its redelivery commits and changes nothing. -/
def RedeliveredUnchanged (o : PostgresDemoExecutionStoreOptions) (t : Tables) (d : Delivery) :
    Prop :=
  ∀ duplicate, Recorded o t d duplicate →
    ∃ t' result, persist o t d.event d.source d.acknowledgement = .ok (t', result) ∧
      SameRecords t t'

/-- If the event is recorded, its row is no outcome conflict to be replayed and the store takes the
    acknowledgement. -/
def RedeliveryTaken (o : PostgresDemoExecutionStoreOptions) (t : Tables) (d : Delivery) : Prop :=
  ∀ duplicate, Recorded o t d duplicate →
    replaysTradeOutcomeConflict d.event duplicate = false ∧
      AcknowledgementFits t duplicate d.event d.source d.acknowledgement

/-- In a run of the store every redelivery commits without a change exactly if every redelivery is
    one that the store takes. -/
theorem redelivered_unchanged_iff (o : PostgresDemoExecutionStoreOptions) (t : Tables)
    (ds : List Delivery) :
    Transition.Guarded (step o) (RedeliveredUnchanged o) t ds ↔
      Transition.Guarded (step o) (RedeliveryTaken o) t ds :=
  Transition.guarded_congr fun t d => forall_congr' fun duplicate => by
    refine ⟨fun h hrec => ?_, fun h hrec => ?_⟩
    · exact (persist_again_iff o t _ _ _ duplicate hrec.1 hrec.2).mp (h hrec)
    · exact (persist_again_iff o t _ _ _ duplicate hrec.1 hrec.2).mpr (h hrec)

/-- An entry, its close, and another outcome of the same close. -/
def conflictingClose : List Delivery :=
  [⟨Sample.entry, .brokerCallback, none⟩, ⟨Sample.close "2" 50, .brokerCallback, none⟩,
    ⟨Sample.close "3" 60, .brokerCallback, none⟩]

/-- The redelivery of the other outcome, recorded as a conflict, is inserted again and throws. -/
theorem replayed_conflict_throws :
    (deliverAll Sample.options Sample.store conflictingClose).events.map (·.reasonCodes) =
      [[], [], ["DEMO_TRADE_OUTCOME_CONFLICT"]] ∧
    persist Sample.options (deliverAll Sample.options Sample.store conflictingClose)
      (Sample.close "3" 60) .brokerCallback none =
      .error "broker_execution_events_account_id_broker_event_key_key" ∧
    ¬ Transition.Guarded (step Sample.options) (RedeliveredUnchanged Sample.options) Sample.store
      (conflictingClose ++ [⟨Sample.close "3" 60, .brokerCallback, none⟩]) := by
  have hthrows : persist Sample.options
      (deliverAll Sample.options Sample.store conflictingClose) (Sample.close "3" 60)
      .brokerCallback none = .error "broker_execution_events_account_id_broker_event_key_key" := by
    decide +kernel
  refine ⟨by decide +kernel, hthrows, fun h => ?_⟩
  have hrow : ((deliverAll Sample.options Sample.store conflictingClose).event Sample.options
      "deal:3").any (fun r => r.normalizedPayload.payloadHash = "deal:3") = true := by
    decide +kernel
  obtain ⟨duplicate, hduplicate, hhash⟩ := (Option.any_eq_true _ _).mp hrow
  obtain ⟨t', result, hok, -⟩ := (((h.2 _ rfl).2 _ rfl).2 _ rfl).1 duplicate
    ⟨hduplicate, of_decide_eq_true hhash⟩
  cases hthrows.symm.trans hok

end ScalpingBot.Store
