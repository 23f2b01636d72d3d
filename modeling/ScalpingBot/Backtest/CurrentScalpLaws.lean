import Mathlib.Data.Int.ConditionallyCompleteOrder
import ScalpingBot.Backtest.CurrentScalp
import ScalpingBot.Library.Extremes

/-! The volumes that `_reconstruct` accepts are conserved, and what it says does not depend on the order
    of a setup's records. -/

namespace ScalpingBot.CurrentScalp

open Learning

/-! ### The order of fills and close deals -/

section Orders

variable {fills fills' : List FillObservation} {closes closes' : List CloseObservation}
  {group : SetupObservation} {order : OrderObservation}

theorem volumeOf_perm (h : fills'.Perm fills) : volumeOf fills' = volumeOf fills := (h.map _).sum_eq

theorem closedVolume_perm (h : closes'.Perm closes) : closedVolume closes' = closedVolume closes :=
  (h.map _).sum_eq

theorem firstFill_perm (h : fills'.Perm fills) : firstFill fills' = firstFill fills :=
  Extremes.min?_perm (h.map _)

theorem lastClock_perm (hf : fills'.Perm fills) (hc : closes'.Perm closes) (updated : Bool)
    (position : Identity) :
    lastClock updated fills' closes' position = lastClock updated fills closes position :=
  Extremes.max?_perm (((hf.filter _).map _).append ((hc.filter _).map _))

theorem available_perm (h : fills'.Perm fills) (position : Identity) (instant : Instant) :
    available fills' position instant = available fills position instant :=
  filledInto_perm (h.filter _) _

theorem remainderMismatch_perm (hf : fills'.Perm fills) (hc : closes'.Perm closes) :
    remainderMismatch fills' closes' = remainderMismatch fills closes := by
  funext p
  rw [remainderMismatch, remainderMismatch, filledInto_perm hf, closedFrom_perm hc]

theorem samePositions_perm (h : fills'.Perm fills) :
    samePositions group fills' ↔ samePositions group fills := by
  rw [samePositions, samePositions, List.toFinset_eq_of_perm _ _ (h.map _)]

theorem closeProof_perm (hf : fills'.Perm fills) (hc : closes'.Perm closes)
    (trades : List TradeObservation) :
    closeProof group fills' closes' trades = closeProof group fills closes trades := by
  simp only [closeProof, Extremes.max?_perm (hc.map _), firstFill_perm hf, closedVolume_perm hc,
    volumeOf_perm hf, (hf.map _).all_eq, closedFrom_perm hc, filledInto_perm hf, samePositions_perm hf]

theorem classify_perm (hf : fills'.Perm fills) (hc : closes'.Perm closes)
    (trades : List TradeObservation) :
    classify group order fills' closes' trades = classify group order fills closes trades := by
  simp only [classify, closeProof_perm hf hc, volumeOf_perm hf, closedVolume_perm hc,
    remainderMismatch_perm hf hc, (hc.map feesOf).sum_eq, (hc.map grossAndCostsOf).sum_eq]

/-! ### Close deals in the order of time -/

theorem available_eq_total (position : Identity) (instant : Instant) :
    available fills position instant = Cumulative.total (·.volume.value)
      (fun f => f.positionId = some position ∧ f.occurredAt ≤ instant) fills := by
  rw [available, filledInto, List.filter_filter, Cumulative.total]
  simp only [Bool.decide_and]

theorem available_mono (h : ∀ f ∈ fills, 0 ≤ f.volume.value) (position : Identity) :
    Monotone (available fills position) := by
  intro s t hst
  rw [available_eq_total, available_eq_total]
  refine Cumulative.total_mono h fun f _ hf => ?_
  rw [decide_eq_true_eq] at hf ⊢
  exact ⟨hf.1, hf.2.trans hst⟩

theorem available_nonneg (h : ∀ f ∈ fills, 0 ≤ f.volume.value) (position : Identity)
    (instant : Instant) : 0 ≤ available fills position instant := by
  rw [available_eq_total]
  exact Cumulative.total_nonneg h

/-- Close deals of positive volumes stay within the fills one after another exactly when they do at every
    instant. -/
theorem not_overdrawn_iff (hf : ∀ f ∈ fills, 0 ≤ f.volume.value)
    (hc : ∀ d ∈ closes, 0 ≤ d.closedVolume.value) :
    Cumulative.overdrawn CloseObservation.positionId (·.closedVolume.value)
        (fun d => available fills d.positionId d.occurredAt) (fun _ => 0)
        (closes.insertionSort fun a b => a.occurredAt ≤ b.occurredAt) = false ↔
      ∀ position instant, Cumulative.total (·.closedVolume.value)
        (Cumulative.upTo CloseObservation.positionId CloseObservation.occurredAt position instant)
        closes ≤ available fills position instant := by
  have hperm := List.perm_insertionSort
    (fun a b : CloseObservation => a.occurredAt ≤ b.occurredAt) closes
  rw [Cumulative.not_overdrawn_iff
    (List.pairwise_insertionSort (fun a b : CloseObservation => a.occurredAt ≤ b.occurredAt) closes)
    (fun d hd => hc d (hperm.mem_iff.mp hd)) (available_mono hf) (available_nonneg hf)]
  simp only [Cumulative.total_perm hperm]

theorem chronologyInvalid_perm (hpos : ∀ f ∈ fills, 0 ≤ f.volume.value) (hf : fills'.Perm fills)
    (hc : closes'.Perm closes) (h : chronologyInvalid fills closes = false) :
    chronologyInvalid fills' closes' = false := by
  rw [chronologyInvalid, Bool.or_eq_false_iff] at h ⊢
  have hdeals : ∀ d ∈ closes, 0 ≤ d.closedVolume.value := by
    intro d hd
    have hd := List.any_eq_false.mp h.1 d hd
    rw [decide_eq_true_eq, not_or, not_le] at hd
    exact hd.1.le
  rw [not_overdrawn_iff hpos hdeals] at h
  rw [not_overdrawn_iff (fun f hmem => hpos f (hf.mem_iff.mp hmem))
    fun d hmem => hdeals d (hc.mem_iff.mp hmem)]
  constructor
  · rw [hc.any_eq]
    simpa only [(hf.map _).mem_iff] using h.1
  · intro position instant
    rw [Cumulative.total_perm hc, available_perm hf]
    exact h.2 position instant

end Orders

/-! ### Setups whose records stand in another order -/

/-- The setup with its fills, close deals and broker events in another order. -/
structure Reordered (group other : SetupObservation) : Prop where
  rest : other = { group with
    fills := other.fills, closeDeals := other.closeDeals, brokerEvents := other.brokerEvents }
  fills : other.fills.Perm group.fills
  closeDeals : other.closeDeals.Perm group.closeDeals
  brokerEvents : other.brokerEvents.Perm group.brokerEvents

variable {packet : LearningEvidence} {positionUpdates : Option (Identity → Option Instant)}
  {group other : SetupObservation} {order : OrderObservation} {s : Settled}

theorem flagged_eq_nil {tests : List (Bool × Reason)} :
    flagged tests = [] ↔ ∀ test ∈ tests, test.1 = false := by
  rw [flagged, List.filterMap_eq_nil_iff]
  simp

/-- What a row without reasons says of the fills and of the broker's events. -/
theorem entry_facts (h : (entryRow packet group order).reasons = []) :
    fillsOf packet.cutoff group order = group.fills ∧ (group.fills.map (·.id)).Nodup ∧
      ∀ f ∈ group.fills, f.orderId = some order.id ∧ f.receivedAt ≤ packet.cutoff ∧
        0 < f.volume.value := by
  simp only [entryRow, List.append_eq_nil_iff, flagged_eq_nil, List.forall_mem_cons] at h
  obtain ⟨-, hfills, -⟩ := h
  rw [fillsInvalid, Bool.or_eq_false_iff, decide_eq_false_iff_not, not_not] at hfills
  obtain ⟨hall, hnodup⟩ := Dictionary.values_filter_of_length hfills.1
  have hself : fillsOf packet.cutoff group order = group.fills := by
    rw [fillsOf, List.filter_eq_self.mpr hall, Dictionary.values_eq_self hnodup]
  refine ⟨hself, hnodup, fun f hf => ?_⟩
  have hf' := hall f hf
  have hvalid := List.any_eq_false.mp (hself ▸ hfills.2) f hf
  simp only [decide_eq_true_eq, not_or, not_le] at hf' hvalid
  exact ⟨hf'.1, hf'.2, hvalid.2.1⟩

theorem fillsOf_perm (hother : Reordered group other)
    (h : (entryRow packet group order).reasons = []) :
    (fillsOf packet.cutoff other order).Perm (fillsOf packet.cutoff group order) := by
  have hnodup := (entry_facts h).2.1
  refine Dictionary.values_perm (Dictionary.consistent_of_nodup ?_) fun f => ?_
  · exact hnodup.sublist (List.filter_sublist.map _)
  · rw [List.mem_filter, List.mem_filter, hother.fills.mem_iff]

theorem acceptedAt_perm (hother : Reordered group other) (cutoff : Instant) :
    acceptedAt cutoff other order = acceptedAt cutoff group order :=
  Extremes.min?_perm ((hother.brokerEvents.filter _).map _)

theorem contextReasons_perm (hother : Reordered group other) :
    contextReasons packet other order = contextReasons packet group order := by
  rw [hother.rest]
  rfl

theorem availableContext_perm (hother : Reordered group other) :
    availableContext packet other = availableContext packet group := by
  rw [hother.rest]
  rfl

theorem acceptanceReasons_perm (hother : Reordered group other) :
    acceptanceReasons packet other order = acceptanceReasons packet group order := by
  have haccepts : (accepts packet.cutoff other order).Perm (accepts packet.cutoff group order) :=
    hother.brokerEvents.filter _
  have htype : expectedType other = expectedType group := by
    rw [hother.rest]
    rfl
  have hcreated : other.createdAt = group.createdAt := by rw [hother.rest]
  simp only [acceptanceReasons, acceptedAt_perm hother, availableContext_perm hother, htype, hcreated,
    haccepts.any_eq]

theorem terminal_perm (hother : Reordered group other) (cutoff : Instant) :
    terminal other order cutoff = terminal group order cutoff := hother.brokerEvents.any_eq

theorem entryRow_perm (hother : Reordered group other)
    (h : (entryRow packet group order).reasons = []) :
    entryRow packet other order = entryRow packet group order := by
  have hfills := fillsOf_perm hother h
  have hlifetime : lifetimeMismatch other order = lifetimeMismatch group order := by
    rw [hother.rest]
    rfl
  have hinvalid : fillsInvalid packet.cutoff other order = fillsInvalid packet.cutoff group order := by
    simp only [fillsInvalid, hfills.length_eq, hother.fills.length_eq, hfills.any_eq,
      acceptedAt_perm hother]
  have hconflict : terminalConflict other order = terminalConflict group order :=
    hother.brokerEvents.any_eq
  have hprecedes :
      terminalPrecedes packet.cutoff other order = terminalPrecedes packet.cutoff group order := by
    simp only [terminalPrecedes, acceptedAt_perm hother, hother.brokerEvents.any_eq]
  have hid : other.id = group.id := by rw [hother.rest]
  have hupdated : other.updatedAt = group.updatedAt := by rw [hother.rest]
  have hhistory : other.protectionHistory = group.protectionHistory := by rw [hother.rest]
  have hcomplete : other.protectionHistoryComplete = group.protectionHistoryComplete := by
    rw [hother.rest]
  simp only [entryRow, hfills.length_eq, volumeOf_perm hfills, contextReasons_perm hother,
    acceptanceReasons_perm hother, availableContext_perm hother, acceptedAt_perm hother, hlifetime,
    hinvalid, hconflict, hprecedes, hid, hupdated, hhistory, hcomplete, hother.brokerEvents.any_eq,
    (hother.brokerEvents.map _).nodup_iff]

/-! ### What a settled position has passed -/

/-- The close deals of a settled position are all the setup's. -/
theorem closesOf_eq_self (h : (closesOf packet.cutoff group).length = group.closeDeals.length) :
    closesOf packet.cutoff group = group.closeDeals ∧ (group.closeDeals.map (·.id)).Nodup := by
  obtain ⟨hall, hnodup⟩ := Dictionary.values_filter_of_length h
  refine ⟨?_, hnodup⟩
  rw [closesOf, List.filter_eq_self.mpr hall, Dictionary.values_eq_self hnodup]

theorem closesOf_perm (hother : Reordered group other) (h : (group.closeDeals.map (·.id)).Nodup) :
    (closesOf packet.cutoff other).Perm (closesOf packet.cutoff group) := by
  refine Dictionary.values_perm (Dictionary.consistent_of_nodup ?_) fun d => ?_
  · exact h.sublist (List.filter_sublist.map _)
  · rw [List.mem_filter, List.mem_filter, hother.closeDeals.mem_iff]

/-- The checks that a settled position passed. -/
structure Passed (packet : LearningEvidence) (positionUpdates : Option (Identity → Option Instant))
    (group : SetupObservation) (order : OrderObservation) (fills : List FillObservation)
    (closes : List CloseObservation) : Prop where
  known : none ∉ fills.map (·.positionId)
  closes_length : closes.length = group.closeDeals.length
  trades_length : (tradesOf packet.cutoff group).length = group.closedTrades.length
  held_nodup : (group.currentProtection.map (·.positionId)).Nodup
  same : samePositions group fills
  single : (fills.map (·.positionId)).toFinset.card = 1
  protection : group.currentProtection.all fun p =>
    p.side = order.side ∧ 0 ≤ p.volume.value ∧ 0 < p.entryPrice.value ∧
      (positionClock positionUpdates p).any (· ≤ packet.cutoff)
  chronology : chronologyInvalid fills closes = false
  observed : group.currentProtection.all fun p =>
    (positionClock positionUpdates p).all fun clock =>
      (lastClock positionUpdates.isSome fills closes p.positionId).all (· ≤ clock)
  trades : (tradesOf packet.cutoff group).all fun t =>
    some t.openedAt = firstFill fills ∧ t.openedAt ≤ t.closedAt ∧
      t.direction = if order.side = .buy then .long else .short

theorem settlePosition_ok :
    settlePosition packet positionUpdates group order = .ok s ↔
      Passed packet positionUpdates group order (fillsOf packet.cutoff group order)
          (closesOf packet.cutoff group) ∧
        classify group order (fillsOf packet.cutoff group order) (closesOf packet.cutoff group)
          (tradesOf packet.cutoff group) = .ok s := by
  simp only [settlePosition, bind_ok, require_ok, exists_and_left, exists_const, Bool.not_eq_true]
  constructor
  · rintro ⟨⟨hknown, hcloses, htrades, hheld⟩, ⟨hsame, hsingle⟩, hprotection, hchronology, hobserved,
      hclocks, hclassify⟩
    exact ⟨⟨hknown, hcloses, htrades, hheld, hsame, hsingle, hprotection, hchronology, hobserved,
      hclocks⟩, hclassify⟩
  · rintro ⟨h, hclassify⟩
    exact ⟨⟨h.known, h.closes_length, h.trades_length, h.held_nodup⟩, ⟨h.same, h.single⟩, h.protection,
      h.chronology, h.observed, h.trades, hclassify⟩

theorem settlePosition_perm (hother : Reordered group other)
    (hentry : (entryRow packet group order).reasons = [])
    (h : settlePosition packet positionUpdates group order = .ok s) :
    settlePosition packet positionUpdates other order = .ok s := by
  rw [settlePosition_ok] at h ⊢
  obtain ⟨h, hclassify⟩ := h
  have hfills := fillsOf_perm hother hentry
  have hcloses : (closesOf packet.cutoff other).Perm (closesOf packet.cutoff group) :=
    closesOf_perm hother (closesOf_eq_self h.closes_length).2
  have hprotection : other.currentProtection = group.currentProtection := by rw [hother.rest]
  have htrades : tradesOf packet.cutoff other = tradesOf packet.cutoff group := by
    rw [hother.rest]
    rfl
  have hclosed : other.closedTrades = group.closedTrades := by rw [hother.rest]
  have hpositive : ∀ f ∈ fillsOf packet.cutoff group order, 0 ≤ f.volume.value := by
    intro f hf
    rw [(entry_facts hentry).1] at hf
    exact ((entry_facts hentry).2.2 f hf).2.2.le
  refine ⟨⟨?_, ?_, ?_, ?_, ?_, ?_, ?_, ?_, ?_, ?_⟩, ?_⟩
  · rw [(hfills.map _).mem_iff]
    exact h.known
  · rw [hcloses.length_eq, hother.closeDeals.length_eq]
    exact h.closes_length
  · rw [htrades, hclosed]
    exact h.trades_length
  · rw [hprotection]
    exact h.held_nodup
  · rw [samePositions, hprotection]
    exact (samePositions_perm hfills).mpr h.same
  · rw [List.toFinset_eq_of_perm _ _ (hfills.map _)]
    exact h.single
  · rw [hprotection]
    exact h.protection
  · exact chronologyInvalid_perm hpositive hfills hcloses h.chronology
  · simp only [hprotection, lastClock_perm hfills hcloses]
    exact h.observed
  · simp only [htrades, firstFill_perm hfills]
    exact h.trades
  · rw [htrades, classify_perm hfills hcloses, ← hclassify]
    rw [hother.rest]
    rfl

section Settlement

variable {fills : List FillObservation} {closes : List CloseObservation} {trades : List TradeObservation}

/-- A settled setup has one position: all its fills and close deals are of the one that is held. -/
theorem one_position (h : Passed packet positionUpdates group order fills closes) :
    ∃ row, group.currentProtection = [row] ∧ (∀ f ∈ fills, f.positionId = some row.positionId) ∧
      ∀ d ∈ closes, 0 < d.closedVolume.value ∧ d.positionId = row.positionId := by
  have hnodup : (group.currentProtection.map fun p => some p.positionId).Nodup := by
    have hmap := h.held_nodup.map (Option.some_injective Identity)
    rw [List.map_map] at hmap
    exact hmap
  have hlength : group.currentProtection.length = 1 := by
    have hcard := List.toFinset_card_of_nodup hnodup
    rw [← h.same, h.single, List.length_map] at hcard
    exact hcard.symm
  obtain ⟨row, hrow⟩ := List.length_eq_one_iff.mp hlength
  have hsame := h.same
  rw [samePositions, hrow] at hsame
  have hposition : ∀ position, position ∈ fills.map (·.positionId) → position = some row.positionId := by
    intro position hmem
    rw [← List.mem_toFinset, hsame] at hmem
    simpa using hmem
  refine ⟨row, hrow, fun f hf => hposition _ (List.mem_map_of_mem hf), fun d hd => ?_⟩
  have hdeal := List.any_eq_false.mp (Bool.or_eq_false_iff.mp h.chronology).1 d hd
  simp only [decide_eq_true_eq, not_or, not_le, not_not] at hdeal
  exact ⟨hdeal.1, Option.some_injective _ (hposition _ hdeal.2.1)⟩

theorem classify_ok (h : classify group order fills closes trades = .ok s) :
    (s.status = .closed ∧ closedVolume closes = (volumeOf fills).value ∧
        ∃ net, s.recordedClosedNet = some net ∧ net.value = (closes.map grossAndCostsOf).sum) ∨
      ((s.status = .stillOpen ∨ s.status = .partialOpen) ∧
        ∀ p ∈ group.currentProtection,
          p.volume.value = filledInto fills p.positionId - closedFrom closes p.positionId) := by
  rw [classify] at h
  split at h
  · rename_i hproof
    simp only [bind_ok, require_ok, exists_and_left, exists_const, pure_ok] at h
    obtain ⟨⟨hnet, -⟩, rfl⟩ := h
    simp only [closeProof, Bool.and_eq_true, decide_eq_true_eq] at hproof
    exact .inl ⟨rfl, hproof.1.1.1.2, _, rfl, hnet⟩
  · split at h
    · cases h
    · split at h
      · cases h
      · rename_i hmatch
        have hmatch : ∀ p ∈ group.currentProtection,
            p.volume.value = filledInto fills p.positionId - closedFrom closes p.positionId := by
          intro p hp
          rw [Bool.not_eq_true, List.any_eq_false] at hmatch
          have hp := hmatch p hp
          simp only [remainderMismatch, Bool.or_eq_true, decide_eq_true_eq, not_or, not_not] at hp
          exact hp.2
        refine .inr ⟨?_, hmatch⟩
        split at h <;> rw [pure_ok] at h <;> subst h
        · exact .inr rfl
        · exact .inl rfl

end Settlement

theorem settleUnfilled_ok (h : settleUnfilled packet group order = .ok s) :
    s.status = .zeroFillTerminal ∧ group.closeDeals = [] ∧ order.state ≠ "PENDING" ∨
      s.status = .pending ∧ order.state = "PENDING" := by
  rw [settleUnfilled] at h
  split at h
  · rename_i hterminal
    cases h
    refine .inl ⟨rfl, hterminal.2.1, fun hstate => ?_⟩
    obtain ⟨e, -, he⟩ := List.any_eq_true.mp hterminal.1
    rw [decide_eq_true_eq, hstate] at he
    simp [terminalStates] at he
  · split at h
    · cases h
      exact .inr ⟨rfl, ‹_›⟩
    · exact absurd h nofun

/-- How a setup comes to a status that says something. -/
theorem reconstructSetup_cases
    (hsupported : (reconstructSetup packet positionUpdates group).status ≠ .unsupported)
    (hknown : (reconstructSetup packet positionUpdates group).status ≠ .unknown) :
    ∃ order s, group.orders = [order] ∧ supportedMode group ∧ (entryRow packet group order).reasons = [] ∧
      reconstructSetup packet positionUpdates group = (entryRow packet group order).settle (.ok s) ∧
      ((volumeOf (fillsOf packet.cutoff group order)).value = 0 ∧
          settleUnfilled packet group order = .ok s ∨
        (volumeOf (fillsOf packet.cutoff group order)).value ≠ 0 ∧
          settlePosition packet positionUpdates group order = .ok s) := by
  rw [reconstructSetup] at hsupported hknown ⊢
  split at hsupported
  case h_2 => exact absurd rfl hsupported
  case h_1 order horders =>
    simp only [horders] at hknown ⊢
    split at hsupported
    case isFalse => exact absurd rfl hsupported
    case isTrue hmode =>
      rw [if_pos hmode] at hknown ⊢
      rw [reconstructOrder] at hknown ⊢
      split at hknown
      case isTrue => exact absurd rfl hknown
      case isFalse hreasons =>
        rw [not_not] at hreasons
        rw [if_neg (not_not.mpr hreasons)]
        split at hknown
        case isTrue hzero =>
          rw [if_pos hzero]
          cases hsettle : settleUnfilled packet group order with
          | error reason => exact absurd rfl (by rwa [hsettle] at hknown)
          | ok s => exact ⟨order, s, rfl, hmode, hreasons, rfl, .inl ⟨hzero, hsettle⟩⟩
        case isFalse hfilled =>
          rw [if_neg hfilled]
          cases hsettle : settlePosition packet positionUpdates group order with
          | error reason => exact absurd rfl (by rwa [hsettle] at hknown)
          | ok s => exact ⟨order, s, rfl, hmode, hreasons, rfl, .inr ⟨hfilled, hsettle⟩⟩

theorem reconstructSetup_perm (hother : Reordered group other)
    (hsupported : (reconstructSetup packet positionUpdates group).status ≠ .unsupported)
    (hknown : (reconstructSetup packet positionUpdates group).status ≠ .unknown) :
    reconstructSetup packet positionUpdates other = reconstructSetup packet positionUpdates group := by
  obtain ⟨order, s, horders, hmode, hreasons, hrow, hcase⟩ := reconstructSetup_cases hsupported hknown
  have hentry := entryRow_perm hother hreasons
  have horders' : other.orders = [order] := by
    rw [hother.rest]
    exact horders
  have hmode' : supportedMode other := by
    rw [hother.rest]
    exact hmode
  have hvolume : (entryRow packet group order).filledVolume =
    volumeOf (fillsOf packet.cutoff group order) := rfl
  have hunfilled : settleUnfilled packet other order = settleUnfilled packet group order := by
    have hdeals : other.closeDeals = [] ↔ group.closeDeals = [] :=
      ⟨fun h => List.Perm.nil_eq (h ▸ hother.closeDeals) ▸ rfl,
        fun h => List.Perm.eq_nil (h ▸ hother.closeDeals)⟩
    have htrades : other.closedTrades = group.closedTrades := by rw [hother.rest]
    have hprotection : other.currentProtection = group.currentProtection := by rw [hother.rest]
    simp only [settleUnfilled, terminal_perm hother, hdeals, htrades, hprotection]
  rw [hrow, reconstructSetup]
  simp only [horders', if_pos hmode', reconstructOrder, hentry, hreasons, ne_eq, not_true_eq_false,
    if_false, hvolume]
  rcases hcase with ⟨hzero, hsettle⟩ | ⟨hfilled, hsettle⟩
  · rw [if_pos hzero, hunfilled, hsettle]
  · rw [if_neg hfilled, settlePosition_perm hother hreasons hsettle]

/-! ### Conservation -/

/-- What the setup's close deals had closed by an instant. -/
def closedBy (group : SetupObservation) (instant : Instant) : ℚ :=
  ((group.closeDeals.filter fun d => d.occurredAt ≤ instant).map (·.closedVolume.value)).sum

/-- What the setup's fills had filled by an instant. -/
def filledBy (group : SetupObservation) (instant : Instant) : ℚ :=
  ((group.fills.filter fun f => f.occurredAt ≤ instant).map (·.volume.value)).sum

def closedTotal (group : SetupObservation) : ℚ := (group.closeDeals.map (·.closedVolume.value)).sum

def filledTotal (group : SetupObservation) : ℚ := (group.fills.map (·.volume.value)).sum

/-- The volumes of a setup are conserved in its row, and the row does not depend on the order of the
    setup's records. -/
structure Conserves (packet : LearningEvidence)
    (positionUpdates : Option (Identity → Option Instant)) (group : SetupObservation) : Prop where
  closed_le : ∀ instant, closedBy group instant ≤ filledBy group instant
  closed_all : (reconstructSetup packet positionUpdates group).status = .closed →
    closedTotal group = filledTotal group
  none_closed : (reconstructSetup packet positionUpdates group).status = .pending ∨
      (reconstructSetup packet positionUpdates group).status = .zeroFillTerminal →
    ∀ instant, closedBy group instant = 0
  remaining : (reconstructSetup packet positionUpdates group).status = .stillOpen ∨
      (reconstructSetup packet positionUpdates group).status = .partialOpen →
    ∃ p, group.currentProtection = [p] ∧ p.volume.value = filledTotal group - closedTotal group
  net : (reconstructSetup packet positionUpdates group).status = .closed →
    ∃ net, (reconstructSetup packet positionUpdates group).recordedClosedNet = some net ∧
      net.value = (group.closeDeals.map fun d =>
        d.gross.value + d.commission.value + d.swap.value + d.conversionFee.value).sum
  order_independent : ∀ other, Reordered group other →
    reconstructSetup packet positionUpdates other = reconstructSetup packet positionUpdates group

/-- The order is pending and nothing was filled, but close deals of some instant left a volume. -/
def PendingWithCloses (group : SetupObservation) : Prop :=
  (∃ order, group.orders = [order] ∧ order.state = "PENDING") ∧ group.fills = [] ∧
    ∃ deal ∈ group.closeDeals,
      ((group.closeDeals.filter fun d => d.occurredAt = deal.occurredAt).map
        (·.closedVolume.value)).sum ≠ 0

/-- Something was closed at some time exactly when the deals of some instant leave a volume. -/
theorem closedBy_eq_zero_iff : (∀ instant, closedBy group instant = 0) ↔
    ∀ deal ∈ group.closeDeals, ((group.closeDeals.filter fun d => d.occurredAt = deal.occurredAt).map
      (·.closedVolume.value)).sum = 0 :=
  Cumulative.total_upTo_eq_zero_iff

theorem fills_eq_nil (hreasons : (entryRow packet group order).reasons = [])
    (hzero : (volumeOf (fillsOf packet.cutoff group order)).value = 0) : group.fills = [] := by
  obtain ⟨hself, -, hvalid⟩ := entry_facts hreasons
  rw [hself, volumeOf, Figure.sum_value, List.map_map] at hzero
  have hpositive : ∀ x ∈ group.fills.map (·.volume.value), 0 < x := by
    intro x hx
    obtain ⟨f, hf, rfl⟩ := List.mem_map.mp hx
    exact (hvalid f hf).2.2
  cases hfills : group.fills with
  | nil => rfl
  | cons f fills =>
    have hpos := List.sum_pos _ hpositive (by rw [hfills]; exact List.cons_ne_nil _ _)
    exact absurd hzero hpos.ne'

/-- The books of a settled position. -/
theorem settled_books (hreasons : (entryRow packet group order).reasons = [])
    (h : settlePosition packet positionUpdates group order = .ok s) :
    (∀ instant, closedBy group instant ≤ filledBy group instant) ∧
      ∃ p, group.currentProtection = [p] ∧
        filledInto (fillsOf packet.cutoff group order) p.positionId = filledTotal group ∧
        closedFrom (closesOf packet.cutoff group) p.positionId = closedTotal group := by
  obtain ⟨hself, -, hvalid⟩ := entry_facts hreasons
  obtain ⟨h, -⟩ := settlePosition_ok.mp h
  obtain ⟨hcloses, -⟩ := closesOf_eq_self h.closes_length
  rw [hself, hcloses] at h ⊢
  obtain ⟨p, hp, hfills, hdeals⟩ := one_position h
  refine ⟨fun instant => ?_, p, hp, ?_, ?_⟩
  · have hbooks := (not_overdrawn_iff (fun f hf => (hvalid f hf).2.2.le)
      fun d hd => (hdeals d hd).1.le).mp (Bool.or_eq_false_iff.mp h.chronology).2 p.positionId instant
    rw [available_eq_total] at hbooks
    have hclosed : closedBy group instant = Cumulative.total (·.closedVolume.value)
        (Cumulative.upTo CloseObservation.positionId CloseObservation.occurredAt p.positionId instant)
        group.closeDeals :=
      Cumulative.total_congr fun d hd => by simp [Cumulative.upTo, (hdeals d hd).2]
    have hfilled : filledBy group instant = Cumulative.total (·.volume.value)
        (fun f => f.positionId = some p.positionId ∧ f.occurredAt ≤ instant) group.fills :=
      Cumulative.total_congr fun f hf => by simp [hfills f hf]
    rwa [hclosed, hfilled]
  · exact Cumulative.total_eq_sum fun f hf => decide_eq_true (hfills f hf)
  · exact Cumulative.total_eq_sum fun d hd => decide_eq_true (hdeals d hd).2

theorem conserves_unfilled
    (hsupported : (reconstructSetup packet positionUpdates group).status ≠ .unsupported)
    (hknown : (reconstructSetup packet positionUpdates group).status ≠ .unknown)
    (hstatus : (reconstructSetup packet positionUpdates group).status = .pending ∨
      (reconstructSetup packet positionUpdates group).status = .zeroFillTerminal)
    (hfills : group.fills = []) (hnone : ∀ instant, closedBy group instant = 0) :
    Conserves packet positionUpdates group := by
  have hfilled : ∀ instant, filledBy group instant = 0 := by
    intro instant
    rw [filledBy, hfills]
    rfl
  refine ⟨fun instant => ?_, fun h => ?_, fun _ => hnone, fun h => ?_, fun h => ?_,
    fun other hother => reconstructSetup_perm hother hsupported hknown⟩
  · rw [hnone, hfilled]
  · rcases hstatus with hstatus | hstatus <;> rw [hstatus] at h <;> cases h
  · rcases hstatus with hstatus | hstatus <;> rw [hstatus] at h <;> rcases h with h | h <;> cases h
  · rcases hstatus with hstatus | hstatus <;> rw [hstatus] at h <;> cases h

theorem conserves_settled
    (hsupported : (reconstructSetup packet positionUpdates group).status ≠ .unsupported)
    (hknown : (reconstructSetup packet positionUpdates group).status ≠ .unknown)
    (hreasons : (entryRow packet group order).reasons = [])
    (hrow : reconstructSetup packet positionUpdates group = (entryRow packet group order).settle (.ok s))
    (hsettle : settlePosition packet positionUpdates group order = .ok s) :
    Conserves packet positionUpdates group := by
  have hstatus : (reconstructSetup packet positionUpdates group).status = s.status := by
    rw [hrow]
    rfl
  have hrecorded : (reconstructSetup packet positionUpdates group).recordedClosedNet =
      s.recordedClosedNet := by
    rw [hrow]
    rfl
  obtain ⟨hbooks, p, hp, hfilled, hclosed⟩ := settled_books hreasons hsettle
  obtain ⟨hpassed, hclassify⟩ := settlePosition_ok.mp hsettle
  have hself := (entry_facts hreasons).1
  have hdeals := (closesOf_eq_self hpassed.closes_length).1
  have hvolume : (volumeOf group.fills).value = filledTotal group := by
    rw [volumeOf, Figure.sum_value, List.map_map]
    rfl
  rw [hself, hdeals] at hclassify
  rw [hself] at hfilled
  rw [hdeals] at hclosed
  rcases classify_ok hclassify with ⟨hs, hall, net, hnet, hsum⟩ | ⟨hs, hmatch⟩
  · refine ⟨hbooks, fun _ => hall.trans hvolume, fun h => ?_, fun h => ?_,
      fun _ => ⟨net, hrecorded.trans hnet, hsum⟩,
      fun other hother => reconstructSetup_perm hother hsupported hknown⟩
    · rw [hstatus, hs] at h
      rcases h with h | h <;> cases h
    · rw [hstatus, hs] at h
      rcases h with h | h <;> cases h
  · refine ⟨hbooks, fun h => ?_, fun h => ?_, fun _ => ⟨p, hp, ?_⟩, fun h => ?_,
      fun other hother => reconstructSetup_perm hother hsupported hknown⟩
    · rw [hstatus] at h
      rcases hs with hs | hs <;> rw [hs] at h <;> cases h
    · rw [hstatus] at h
      rcases hs with hs | hs <;> rw [hs] at h <;> rcases h with h | h <;> cases h
    · rw [hmatch p (hp ▸ List.mem_singleton_self p), hfilled, hclosed]
    · rw [hstatus] at h
      rcases hs with hs | hs <;> rw [hs] at h <;> cases h

/-- A setup of which the row says something is accounted for exactly when it is no pending order with
    volume closed. -/
theorem conserves_iff (packet : LearningEvidence)
    (positionUpdates : Option (Identity → Option Instant)) (group : SetupObservation)
    (hsupported : (reconstructSetup packet positionUpdates group).status ≠ .unsupported)
    (hknown : (reconstructSetup packet positionUpdates group).status ≠ .unknown) :
    Conserves packet positionUpdates group ↔ ¬ PendingWithCloses group := by
  obtain ⟨order, s, horders, -, hreasons, hrow, hcase⟩ := reconstructSetup_cases hsupported hknown
  have hstatus : (reconstructSetup packet positionUpdates group).status = s.status := by
    rw [hrow]
    rfl
  rcases hcase with ⟨hzero, hsettle⟩ | ⟨hfilled, hsettle⟩
  · have hfills := fills_eq_nil hreasons hzero
    rcases settleUnfilled_ok hsettle with ⟨hs, hdeals, hstate⟩ | ⟨hs, hstate⟩
    · have hnone : ∀ instant, closedBy group instant = 0 := by
        intro instant
        rw [closedBy, hdeals]
        rfl
      refine iff_of_true
        (conserves_unfilled hsupported hknown (.inr (hstatus.trans hs)) hfills hnone) ?_
      rintro ⟨-, -, deal, hdeal, -⟩
      rw [hdeals] at hdeal
      exact List.not_mem_nil hdeal
    · constructor
      · rintro h ⟨-, -, deal, hdeal, hvolume⟩
        have hnone := h.none_closed (.inl (hstatus.trans hs))
        exact hvolume (closedBy_eq_zero_iff.mp hnone deal hdeal)
      · intro h
        refine conserves_unfilled hsupported hknown (.inl (hstatus.trans hs)) hfills ?_
        refine closedBy_eq_zero_iff.mpr fun deal hdeal => ?_
        by_contra hvolume
        exact h ⟨⟨order, horders, hstate⟩, hfills, deal, hdeal, hvolume⟩
  · refine iff_of_true (conserves_settled hsupported hknown hreasons hrow hsettle) ?_
    rintro ⟨-, hfills, -⟩
    rw [(entry_facts hreasons).1, hfills] at hfilled
    exact hfilled rfl

/-! ### Setups of a packet -/

namespace SetupSample

def intent : ContextObservation where
  id := 1
  originRelease := "0.10.0-demo-trials.1-codex.1"
  requestedAt := 1
  capturedAt := 0
  availableAt := some 3
  completedAt := some 2
  validUntil := 100
  decision := .buy
  entryPrice := some ⟨false, 2000, 0⟩
  takeProfit := some ⟨false, 2005, 0⟩
  stopLoss := some ⟨false, 1995, 0⟩

def workingOrder : OrderObservation where
  id := 7
  side := .buy
  state := "PENDING"
  orderType := .stopLimit
  timeInForce := .gtd
  entryPrice := ⟨false, 2000, 0⟩
  stopLoss := ⟨false, 1995, 0⟩
  takeProfit := ⟨false, 2005, 0⟩
  approvedVolume := ⟨false, 2, 0⟩
  filledVolume := ⟨false, 0, 0⟩
  expiresAt := some 100
  submissionValidUntil := some 100
  updatedAt := 5

def acceptance : BrokerObservation where
  id := 1
  executionType := 2
  mappingState := .mapped
  closingOrder := false
  orderType := some 6
  orderId := some 7
  occurredAt := 6
  receivedAt := 6
  persistedAt := 7
  resolvedAt := none
  reasonCodes := []

/-- Half a unit closed at an instant. -/
def halfClosed : CloseObservation where
  id := 1
  positionId := 9
  closedVolume := ⟨false, 5, 1⟩
  entryPrice := ⟨false, 2000, 0⟩
  gross := ⟨false, 1, 0⟩
  commission := ⟨true, 1, 1⟩
  swap := ⟨false, 0, 0⟩
  conversionFee := ⟨false, 0, 0⟩
  occurredAt := 20
  recordedAt := 21
  externalIntervention := false
  evidenceSha256 := ""

/-- A pending order of which a close deal is recorded. -/
def pendingSetup : SetupObservation where
  id := 4
  originRelease := "0.10.0-demo-trials.1-codex.1"
  contextId := some 1
  state := "PENDING"
  executionMode := "SINGLE_STOP_LIMIT"
  timeInForce := .gtd
  createdAt := 4
  updatedAt := 5
  expiresAt := some 100
  submissionValidUntil := some 100
  orders := [workingOrder]
  fills := []
  brokerEvents := [acceptance]
  currentProtection := []
  protectionHistory := []
  protectionHistoryComplete := false
  closeDeals := [halfClosed]
  closedTrades := []

/-- The same order after a fill of one unit. -/
def partialSetup : SetupObservation :=
  { pendingSetup with
    state := "OPEN"
    orders := [{ workingOrder with state := "FILLED", filledVolume := ⟨false, 1, 0⟩ }]
    fills := [⟨1, some 7, some 9, ⟨false, 2000, 0⟩, ⟨false, 1, 0⟩, ⟨false, 0, 0⟩, 10, 11⟩]
    currentProtection := [⟨9, .buy, "OPEN", ⟨false, 5, 1⟩, ⟨false, 2000, 0⟩, some 30⟩] }

def samplePacket : LearningEvidence := ⟨50, [intent], [pendingSetup, partialSetup]⟩

end SetupSample

open SetupSample

theorem conserves_iff_partial :
    (reconstructSetup samplePacket none partialSetup).status = .partialOpen ∧
      (Conserves samplePacket none partialSetup ↔ ¬ PendingWithCloses partialSetup) :=
  ⟨by decide +kernel, conserves_iff samplePacket none partialSetup (by decide +kernel)
    (by decide +kernel)⟩

/-- Half a unit counts as closed of a pending order that filled nothing. -/
theorem pending_counts_closed_volume :
    (reconstructSetup samplePacket none pendingSetup).status = .pending ∧
      closedBy pendingSetup 20 = 1 / 2 ∧ filledBy pendingSetup 20 = 0 ∧
      ¬ Conserves samplePacket none pendingSetup := by
  have hclosed : closedBy pendingSetup 20 = 1 / 2 := by decide +kernel
  have hfilled : filledBy pendingSetup 20 = 0 := by decide +kernel
  refine ⟨by decide +kernel, hclosed, hfilled, fun h => ?_⟩
  have hle := h.closed_le 20
  rw [hclosed, hfilled] at hle
  exact absurd hle (by decide +kernel)

end ScalpingBot.CurrentScalp
