import ScalpingBot.Backtest.ScalpReplay
import ScalpingBot.Library.Cumulative

/-! The volumes of a setup with a known state, and that its state does not depend on the order of its
    records or on how often a fill is repeated. -/

namespace ScalpingBot.ScalpReplay

open Learning

variable {cutoff : Instant} {group other : SetupObservation} {order : OrderObservation}
  {context : Option ContextObservation} {closes : List CloseObservation}
  {row : SetupReconstruction}

/-! ### Reasons -/

theorem flagged_eq_nil {tests : List (Bool × Reason)} :
    flagged tests = [] ↔ ∀ test ∈ tests, test.1 = false := by
  rw [flagged, List.filterMap_eq_nil_iff]
  simp

theorem flagged_subset {tests : List (Bool × Reason)} (h : ∀ test ∈ tests, test.2 ∈ blockers) :
    flagged tests ⊆ blockers := by
  intro reason hreason
  obtain ⟨test, htest, hsome⟩ := List.mem_filterMap.mp hreason
  split at hsome
  · rw [← Option.some_injective _ hsome]
    exact h test htest
  · exact absurd hsome nofun

theorem contextReasons_subset : contextReasons group order context ⊆ blockers := by
  rw [contextReasons.eq_def]
  split
  · decide
  · split
    · decide
    · split
      · decide
      · exact flagged_subset (by simp [blockers])

theorem classify_error {fills : List FillObservation} {reason : Reason}
    (h : classify cutoff group order fills closes = .error reason) : reason ∈ blockers := by
  rw [classify] at h
  split at h
  · split at h
    · exact absurd h nofun
    · split at h <;> cases h
      decide
  · split at h
    · exact absurd h nofun
    · split at h <;> cases h
      decide

/-! ### The scan of the fills -/

/-- A fill that no test objects to. -/
structure Usable (cutoff : Instant) (order : OrderObservation) (context : Option ContextObservation)
    (fill : FillObservation) : Prop where
  linked : fill.orderId = some order.id
  known : fill.receivedAt ≤ cutoff
  volume : 0 < fill.volume.value
  price : 0 < fill.price.value
  admitted : (availableAt context).any (fill.occurredAt < ·) = false
  causal : fill.clockStatus = .causal

variable {s : FillScan} {fill : FillObservation}

theorem scanFill_reasons : (scanFill cutoff order context s fill).reasons = [] ↔
    s.reasons = [] ∧ Usable cutoff order context fill ∧ ∀ f ∈ s.fills, f.id = fill.id → f = fill := by
  rw [scanFill]
  split
  · rename_i hlinked
    exact ⟨fun h => by simp [FillScan.skip] at h, fun h => absurd h.2.1.linked hlinked⟩
  · split
    · rename_i hknown
      exact ⟨fun h => by simp [FillScan.skip] at h, fun h => absurd h.2.1.known hknown.not_ge⟩
    · split
      · rename_i hvolume
        refine ⟨fun h => by simp [FillScan.skip] at h, fun h => ?_⟩
        rcases hvolume with hvolume | hprice
        · exact absurd h.2.1.volume hvolume.not_gt
        · exact absurd h.2.1.price hprice.not_gt
      · rename_i hlinked hknown hvolume
        rw [not_not] at hlinked
        rw [not_lt] at hknown
        rw [not_or, not_le, not_le] at hvolume
        simp only [List.append_eq_nil_iff, flagged_eq_nil, List.forall_mem_cons,
          List.any_eq_false, decide_eq_true_eq, decide_eq_false_iff_not, not_not, not_and]
        constructor
        · rintro ⟨hs, hadmitted, hsame, hcausal, -⟩
          exact ⟨hs, ⟨hlinked, hknown, hvolume.1, hvolume.2, hadmitted, hcausal⟩, hsame⟩
        · rintro ⟨hs, h, hsame⟩
          refine ⟨hs, h.admitted, hsame, h.causal, fun _ hnone => ?_⟩
          cases hnone

theorem scanFill_fills (h : (scanFill cutoff order context s fill).reasons = []) :
    (scanFill cutoff order context s fill).fills =
      Dictionary.put FillObservation.id fill s.fills := by
  obtain ⟨-, h, -⟩ := scanFill_reasons.mp h
  rw [scanFill, if_neg (not_not.mpr h.linked), if_neg h.known.not_gt,
    if_neg (not_or.mpr ⟨h.volume.not_ge, h.price.not_ge⟩)]

/-- The scan objects to nothing exactly when every fill is usable and an identity stands for one row. It
    then holds each of the rows once. -/
theorem scan_spec (rows : List FillObservation) :
    ((rows.foldl (scanFill cutoff order context) {}).reasons = [] ↔
        (∀ f ∈ rows, Usable cutoff order context f) ∧ Dictionary.Consistent FillObservation.id rows) ∧
      ((rows.foldl (scanFill cutoff order context) {}).reasons = [] →
        (rows.foldl (scanFill cutoff order context) {}).fills =
          Dictionary.values FillObservation.id rows) := by
  induction rows using List.reverseRecOn with
  | nil => exact ⟨⟨fun _ => ⟨nofun, nofun⟩, fun _ => rfl⟩, fun _ => rfl⟩
  | append_singleton rows fill ih =>
    obtain ⟨hiff, hfills⟩ := ih
    rw [List.foldl_append, List.foldl_cons, List.foldl_nil]
    refine ⟨?_, fun h => ?_⟩
    · rw [scanFill_reasons, Dictionary.consistent_append]
      constructor
      · rintro ⟨hreasons, husable, hsame⟩
        obtain ⟨hrows, hconsistent⟩ := hiff.mp hreasons
        rw [hfills hreasons] at hsame
        refine ⟨fun f hf => ?_, hconsistent, fun f hf => hsame f ((Dictionary.mem_values hconsistent).mpr hf)⟩
        rcases List.mem_append.mp hf with hf | hf
        · exact hrows f hf
        · rw [List.mem_singleton.mp hf]
          exact husable
      · rintro ⟨husable, hconsistent, hsame⟩
        have hreasons := hiff.mpr ⟨fun f hf => husable f (List.mem_append_left _ hf), hconsistent⟩
        refine ⟨hreasons, husable fill (List.mem_append_right _ (List.mem_singleton_self fill)), ?_⟩
        rw [hfills hreasons]
        exact fun f hf => hsame f (Dictionary.mem_of_mem_values hf)
    · rw [scanFill_fills h, hfills (scanFill_reasons.mp h).1, Dictionary.values_append]

theorem skip_reasons_subset {reason : Reason} (hs : s.reasons ⊆ blockers) (h : reason ∈ blockers) :
    (s.skip reason).reasons ⊆ blockers :=
  List.append_subset.mpr ⟨hs, List.cons_subset.mpr ⟨h, List.nil_subset _⟩⟩

theorem scan_reasons_subset (rows : List FillObservation) :
    (rows.foldl (scanFill cutoff order context) {}).reasons ⊆ blockers := by
  induction rows using List.reverseRecOn with
  | nil => exact List.nil_subset _
  | append_singleton rows fill ih =>
    rw [List.foldl_append, List.foldl_cons, List.foldl_nil, scanFill]
    split
    · exact skip_reasons_subset ih (by decide)
    · split
      · exact skip_reasons_subset ih (by decide)
      · split
        · exact skip_reasons_subset ih (by decide)
        · exact List.append_subset.mpr ⟨ih, flagged_subset (by simp [blockers])⟩

theorem reasonsOf_subset : reasonsOf cutoff group order context closes ⊆ blockers := by
  rw [reasonsOf]
  refine List.append_subset.mpr ⟨?_, ?_⟩
  · refine List.append_subset.mpr ⟨?_, flagged_subset (by simp [blockers])⟩
    refine List.append_subset.mpr ⟨?_, scan_reasons_subset _⟩
    refine List.append_subset.mpr ⟨?_, flagged_subset (by simp [blockers])⟩
    exact List.append_subset.mpr ⟨flagged_subset (by simp [blockers]), contextReasons_subset⟩
  · split
    · exact List.nil_subset _
    · rename_i reason hreason
      exact List.cons_subset.mpr ⟨classify_error hreason, List.nil_subset _⟩

/-! ### The close deals -/

theorem scanClose_spec (rows closes : List CloseObservation) :
    rows.foldlM scanClose [] = .ok closes ↔
      Dictionary.Consistent CloseObservation.id rows ∧
        closes = Dictionary.values CloseObservation.id rows := by
  induction rows using List.reverseRecOn generalizing closes with
  | nil =>
    refine ⟨fun h => ?_, fun h => h.2 ▸ rfl⟩
    cases h
    exact ⟨by simp [Dictionary.Consistent], rfl⟩
  | append_singleton rows deal ih =>
    simp only [List.foldlM_append, List.foldlM_cons, List.foldlM_nil, bind_ok, pure_ok, ih,
      Dictionary.consistent_append, Dictionary.values_append]
    constructor
    · rintro ⟨held, ⟨hconsistent, rfl⟩, next, hscan, rfl⟩
      rw [scanClose] at hscan
      split at hscan
      · cases hscan
      · rename_i hsame
        cases hscan
        simp only [Bool.not_eq_true, List.any_eq_false, decide_eq_true_eq, not_and, not_not] at hsame
        exact ⟨⟨hconsistent, fun d hd => hsame d ((Dictionary.mem_values hconsistent).mpr hd)⟩, rfl⟩
    · rintro ⟨⟨hconsistent, hsame⟩, rfl⟩
      refine ⟨_, ⟨hconsistent, rfl⟩, _, ?_, rfl⟩
      rw [scanClose, if_neg]
      simp only [Bool.not_eq_true, List.any_eq_false, decide_eq_true_eq, not_and, not_not]
      exact fun d hd => hsame d (Dictionary.mem_of_mem_values hd)

theorem closesOf_of_nodup (h : ((closeRows cutoff group).map (·.id)).Nodup) :
    closesOf cutoff group = .ok (closeRows cutoff group) :=
  (scanClose_spec _ _).mpr ⟨Dictionary.consistent_of_nodup h, (Dictionary.values_eq_self h).symm⟩

/-! ### Setups with a known state -/

/-- The rows of a setup, each counted once. -/
def uniqueFills (group : SetupObservation) : List FillObservation :=
  Dictionary.values FillObservation.id group.fills

/-- What a setup with a known state has passed. -/
structure Passed (cutoff : Instant) (group : SetupObservation) (order : OrderObservation)
    (context : Option ContextObservation) : Prop where
  usable : ∀ f ∈ group.fills, Usable cutoff order context f
  consistent : Dictionary.Consistent FillObservation.id group.fills
  closes_nodup : ((closeRows cutoff group).map (·.id)).Nodup
  reasons : reasonsOf cutoff group order context (closeRows cutoff group) = []

theorem Passed.fills (h : Passed cutoff group order context) :
    (scanFills cutoff group order context).fills = uniqueFills group :=
  (scan_spec group.fills).2 ((scan_spec group.fills).1.mpr ⟨h.usable, h.consistent⟩)

theorem Passed.state (h : Passed cutoff group order context) :
    (rowOf cutoff group order context (closeRows cutoff group)).state =
      match classify cutoff group order (uniqueFills group) (closeRows cutoff group) with
      | .ok state => state
      | .error _ => .unknown := by
  rw [← h.fills]
  refine if_neg ?_
  rw [h.reasons]
  decide

theorem reconstruct_cases (hrow : reconstruct group context cutoff = .ok row)
    (hknown : row.state ≠ .unknown) :
    ∃ order, group.orders = [order] ∧ group.originRelease = release ∧ group.timeInForce = .gtd ∧
      Passed cutoff group order context ∧
      row = rowOf cutoff group order context (closeRows cutoff group) ∧
      classify cutoff group order (uniqueFills group) (closeRows cutoff group) = .ok row.state := by
  rw [reconstruct] at hrow
  split at hrow
  case h_2 =>
    cases hrow
    exact absurd rfl hknown
  case h_1 order horders =>
    split at hrow
    case isFalse =>
      cases hrow
      exact absurd rfl hknown
    case isTrue hsupported =>
      simp only [bind_ok, pure_ok] at hrow
      obtain ⟨closes, hcloses, rfl⟩ := hrow
      have hreasons : reasonsOf cutoff group order context closes = [] := by
        by_contra hne
        obtain ⟨reason, hreason⟩ := List.exists_mem_of_ne_nil _ hne
        refine hknown (if_pos (List.any_eq_true.mpr ⟨reason, List.mem_append_right _ hreason, ?_⟩))
        exact decide_eq_true (reasonsOf_subset hreason)
      obtain ⟨-, hvalues⟩ := (scanClose_spec _ _).mp hcloses
      have hparts := hreasons
      simp only [reasonsOf, List.append_eq_nil_iff, flagged_eq_nil, List.forall_mem_cons,
        decide_eq_false_iff_not, not_not] at hparts
      obtain ⟨⟨⟨-, hscan⟩, -, -, -, hlength, -⟩, hclassify⟩ := hparts
      rw [hvalues] at hlength
      have hnodup := Dictionary.nodup_of_length hlength
      rw [Dictionary.values_eq_self hnodup] at hvalues
      subst hvalues
      obtain ⟨husable, hconsistent⟩ := (scan_spec group.fills).1.mp hscan
      have hpassed : Passed cutoff group order context := ⟨husable, hconsistent, hnodup, hreasons⟩
      refine ⟨order, horders, hsupported.1, hsupported.2, hpassed, rfl, ?_⟩
      rw [hpassed.fills] at hclassify
      rw [hpassed.state]
      split at hclassify
      · rename_i state hok
        rw [hok]
      · exact absurd hclassify (List.cons_ne_nil _ _)

/-! ### Setups whose records stand in another order -/

/-- The setup with its records in another order, some of its fills repeated. -/
structure Reordered (group other : SetupObservation) : Prop where
  rest : other = { group with
    fills := other.fills, closeDeals := other.closeDeals, closedTrades := other.closedTrades,
    brokerEvents := other.brokerEvents }
  fills : ∀ fill, fill ∈ other.fills ↔ fill ∈ group.fills
  closeDeals : other.closeDeals.Perm group.closeDeals
  closedTrades : other.closedTrades.Perm group.closedTrades
  brokerEvents : other.brokerEvents.Perm group.brokerEvents

section Orders

variable {fills fills' : List FillObservation} {closes' : List CloseObservation}

theorem quantityOf_perm (h : fills'.Perm fills) : quantityOf fills' = quantityOf fills := (h.map _).sum_eq

theorem partialClose_perm (h : closes'.Perm closes) : partialClose closes' = partialClose closes :=
  (h.map _).sum_eq

theorem weightedEntry_perm (h : fills'.Perm fills) : weightedEntry fills' = weightedEntry fills := by
  rw [weightedEntry, weightedEntry, quantityOf_perm h, (h.map _).sum_eq]

theorem positionsOf_perm (h : fills'.Perm fills) : positionsOf fills' = positionsOf fills :=
  List.toFinset_eq_of_perm _ _ (h.map _)

theorem closedPositions_perm (h : closes'.Perm closes) :
    closedPositions closes' = closedPositions closes :=
  List.toFinset_eq_of_perm _ _ (h.map _)

theorem remainderMismatch_perm (hf : fills'.Perm fills) (hc : closes'.Perm closes) :
    remainderMismatch fills' closes' = remainderMismatch fills closes := by
  funext p
  rw [remainderMismatch, remainderMismatch, filledInto_perm hf, closedFrom_perm hc]

variable (hother : Reordered group other) (hf : fills'.Perm fills) (hc : closes'.Perm closes)
include hother

theorem protectedPositions_perm : protectedPositions other = protectedPositions group := by
  rw [hother.rest]
  rfl

theorem nil_iff_perm : (other.closeDeals = [] ↔ group.closeDeals = []) ∧
    (other.closedTrades = [] ↔ group.closedTrades = []) := by
  have hiff : ∀ {α : Type} {l l' : List α}, l.Perm l' → (l = [] ↔ l' = []) := by
    intro α l l' h
    rw [← List.length_eq_zero_iff, h.length_eq, List.length_eq_zero_iff]
  exact ⟨hiff hother.closeDeals, hiff hother.closedTrades⟩

theorem terminal_perm : terminal other order cutoff = terminal group order cutoff :=
  hother.brokerEvents.any_eq

theorem terminalConflict_perm : terminalConflict other order = terminalConflict group order :=
  hother.brokerEvents.any_eq

theorem admissionInvalid_perm :
    admissionInvalid other order context = admissionInvalid group order context := by
  have hcreated : other.createdAt = group.createdAt := by rw [hother.rest]
  simp only [admissionInvalid, hcreated, hother.brokerEvents.any_eq]

theorem closeRows_perm : (closeRows cutoff other).Perm (closeRows cutoff group) :=
  hother.closeDeals.filter _

theorem uniqueFills_perm (h : Dictionary.Consistent FillObservation.id group.fills) :
    (uniqueFills other).Perm (uniqueFills group) :=
  Dictionary.values_perm h hother.fills

include hf hc

theorem positionMismatch_perm :
    positionMismatch other order fills' closes' = positionMismatch group order fills closes := by
  have hprotection : other.currentProtection = group.currentProtection := by rw [hother.rest]
  rw [positionMismatch, positionMismatch, positionsOf_perm hf, protectedPositions_perm hother,
    hprotection, remainderMismatch_perm hf hc]

theorem closeProof_perm : closeProof other fills' closes' = closeProof group fills closes := by
  have hprotection : other.currentProtection = group.currentProtection := by rw [hother.rest]
  have hstate : other.state = group.state := by rw [hother.rest]
  simp only [closeProof, positionsOf_perm hf, protectedPositions_perm hother, hprotection, hstate,
    (nil_iff_perm hother).2, ne_eq, closedPositions_perm hc, partialClose_perm hc, quantityOf_perm hf,
    (hf.map _).all_eq, closedFrom_perm hc, filledInto_perm hf]

theorem classify_perm :
    classify cutoff other order fills' closes' = classify cutoff group order fills closes := by
  have hprotection : other.currentProtection = group.currentProtection := by rw [hother.rest]
  have hstate : other.state = group.state := by rw [hother.rest]
  simp only [classify, closeProof_perm hother hf hc, quantityOf_perm hf, hprotection, hstate,
    nil_iff_perm hother, ne_eq, terminal_perm hother]

end Orders

/-- The closed trades of a setup that passed have their own identities. -/
theorem Passed.trades_nodup (h : Passed cutoff group order context) :
    (group.closedTrades.map (·.id)).Nodup := by
  have hreasons := h.reasons
  simp only [reasonsOf, List.append_eq_nil_iff, flagged_eq_nil, List.forall_mem_cons,
    decide_eq_false_iff_not, not_not] at hreasons
  exact Dictionary.nodup_of_length hreasons.1.2.2.2.2.2.2.2.2.2.1

theorem Passed.reordered (h : Passed cutoff group order context) (hother : Reordered group other) :
    Passed cutoff other order context := by
  have husable : ∀ f ∈ other.fills, Usable cutoff order context f :=
    fun f hf => h.usable f ((hother.fills f).mp hf)
  have hconsistent : Dictionary.Consistent FillObservation.id other.fills := fun a ha b hb =>
    h.consistent a ((hother.fills a).mp ha) b ((hother.fills b).mp hb)
  have hrows : (closeRows cutoff other).Perm (closeRows cutoff group) := closeRows_perm hother
  refine ⟨husable, hconsistent, (hrows.map _).nodup_iff.mpr h.closes_nodup, ?_⟩
  have hscan : (scanFills cutoff other order context).reasons = [] :=
    (scan_spec other.fills).1.mpr ⟨husable, hconsistent⟩
  have hscan' : (scanFills cutoff group order context).reasons = [] :=
    (scan_spec group.fills).1.mpr ⟨h.usable, h.consistent⟩
  have hfills : (scanFills cutoff other order context).fills.Perm
      (scanFills cutoff group order context).fills := by
    rw [h.fills, scanFills, (scan_spec other.fills).2 hscan]
    exact uniqueFills_perm hother h.consistent
  have htrades : (tradesOf other).Perm (tradesOf group) :=
    Dictionary.values_perm (Dictionary.consistent_of_nodup h.trades_nodup)
      fun t => hother.closedTrades.mem_iff
  have hmismatch : groupMismatch other order = groupMismatch group order := by
    rw [hother.rest]
    rfl
  have hcontext : contextReasons other order context = contextReasons group order context := by
    cases context with
    | none => rfl
    | some c =>
      have hrelease : other.originRelease = group.originRelease := by rw [hother.rest]
      rw [contextReasons, contextReasons, hrelease]
  have hhistory : other.protectionHistory = group.protectionHistory := by rw [hother.rest]
  rw [← h.reasons]
  simp only [reasonsOf, hscan, hscan', quantityOf_perm hfills, hmismatch, hcontext, hhistory,
    admissionInvalid_perm hother, hother.brokerEvents.any_eq, (hother.brokerEvents.map _).nodup_iff,
    terminalConflict_perm hother, positionMismatch_perm hother hfills hrows, htrades.length_eq,
    htrades.any_eq, hother.closedTrades.length_eq, classify_perm hother hfills hrows, ne_eq,
    not_true_eq_false]

/-- A known state, the volumes and the weighted entry are those of any order of the records. -/
theorem reconstruct_reordered (hother : Reordered group other)
    (hrow : reconstruct group context cutoff = .ok row) (hknown : row.state ≠ .unknown) :
    ∃ row', reconstruct other context cutoff = .ok row' ∧ row'.state = row.state ∧
      row'.filledVolume = row.filledVolume ∧ row'.weightedEntry = row.weightedEntry ∧
      row'.partialCloseVolume = row.partialCloseVolume := by
  obtain ⟨order, horders, hrelease, hgtd, h, hrowOf, hclassify⟩ := reconstruct_cases hrow hknown
  have h' := h.reordered hother
  have hfills := uniqueFills_perm hother h.consistent
  have hrows : (closeRows cutoff other).Perm (closeRows cutoff group) := closeRows_perm hother
  have horders' : other.orders = [order] := by
    rw [hother.rest]
    exact horders
  have hrelease' : other.originRelease = release := by
    rw [hother.rest]
    exact hrelease
  have hgtd' : other.timeInForce = .gtd := by
    rw [hother.rest]
    exact hgtd
  refine ⟨rowOf cutoff other order context (closeRows cutoff other), ?_, ?_, ?_, ?_, ?_⟩
  · simp only [reconstruct, horders', if_pos (And.intro hrelease' hgtd'),
      closesOf_of_nodup h'.closes_nodup]
    rfl
  · rw [h'.state, classify_perm hother hfills hrows, hclassify]
  · rw [hrowOf]
    simp only [rowOf, h.fills, h'.fills, quantityOf_perm hfills]
  · rw [hrowOf]
    simp only [rowOf, h.fills, h'.fills, weightedEntry_perm hfills]
  · rw [hrowOf]
    exact partialClose_perm hrows

/-! ### Conservation -/

/-- The volume filled into a position, each row of a fill counted once. -/
def filled (group : SetupObservation) (position : Identity) : ℚ :=
  filledInto group.fills.dedup (some position)

/-- The volume of a position's close deals that count at the cutoff. -/
def closedOf (cutoff : Instant) (group : SetupObservation) (position : Identity) : ℚ :=
  closedFrom (closeRows cutoff group) position

/-- The volumes of a row are conserved, and they do not depend on the order of the setup's records. -/
structure Conserves (cutoff : Instant) (group : SetupObservation) (context : Option ContextObservation)
    (row : SetupReconstruction) : Prop where
  partial_le : row.partialCloseVolume.value ≤ row.filledVolume.value
  filled_le : ∀ order ∈ group.orders, row.filledVolume.value ≤ order.approvedVolume.value
  closed_le : ∀ position, closedOf cutoff group position ≤ filled group position
  closed_iff : row.state = .closed ↔
    group.fills ≠ [] ∧ ∀ position, closedOf cutoff group position = filled group position
  order_independent : ∀ other, Reordered group other →
    ∃ row', reconstruct other context cutoff = .ok row' ∧ row'.state = row.state ∧
      row'.filledVolume = row.filledVolume ∧ row'.weightedEntry = row.weightedEntry ∧
      row'.partialCloseVolume = row.partialCloseVolume

/-- No fill went into the position. -/
def Stray (group : SetupObservation) (position : Identity) : Prop :=
  ∀ f ∈ group.fills, f.positionId ≠ some position

/-- The volume that the row of a position leaves open: its own one if it is open. -/
def remaining (cutoff : Instant) (group : SetupObservation) (p : ProtectionObservation) : ℚ :=
  if p.positionState = "OPEN" then p.volume.value
  else filled group p.positionId - closedOf cutoff group p.positionId

/-- The close deals fit the positions: none counts for a position without fills; where there are fills, no
    row that is not closed leaves less than nothing, and not all of them leave nothing. -/
structure BooksFit (cutoff : Instant) (group : SetupObservation) : Prop where
  stray : ∀ position, Stray group position → closedOf cutoff group position ≤ 0
  rows : group.fills ≠ [] → ∀ p ∈ group.currentProtection, p.positionState ≠ "CLOSED" →
    0 ≤ remaining cutoff group p
  left : group.fills ≠ [] → (∀ p ∈ group.currentProtection, p.positionState ≠ "CLOSED") →
    (∃ p ∈ group.currentProtection, remaining cutoff group p ≠ 0) ∨
      ∃ position, Stray group position ∧ closedOf cutoff group position ≠ 0

theorem filled_eq (h : Passed cutoff group order context) (position : Identity) :
    filledInto (uniqueFills group) (some position) = filled group position := by
  refine filledInto_perm ((List.perm_ext_iff_of_nodup ?_ group.fills.nodup_dedup).mpr fun f => ?_) _
  · exact List.Nodup.of_map _ Dictionary.nodup_values
  · rw [uniqueFills, Dictionary.mem_values h.consistent, List.mem_dedup]

theorem filled_of_stray {position : Identity} (h : Stray group position) : filled group position = 0 := by
  rw [filled, filledInto, List.filter_eq_nil_iff.mpr]
  · rfl
  · intro f hf
    rw [decide_eq_true_eq]
    exact h f (List.mem_dedup.mp hf)

/-- Without fills every position is stray. -/
theorem quantity_eq_zero_iff (h : Passed cutoff group order context) :
    (quantityOf (uniqueFills group)).value = 0 ↔ group.fills = [] := by
  rw [quantityOf, Figure.sum_value, List.map_map]
  constructor
  · intro hzero
    by_contra hne
    obtain ⟨f, hf⟩ := List.exists_mem_of_ne_nil _ hne
    have hpositive : ∀ x ∈ (uniqueFills group).map (·.volume.value), 0 < x := by
      intro x hx
      obtain ⟨f, hf, rfl⟩ := List.mem_map.mp hx
      exact (h.usable f (Dictionary.mem_of_mem_values hf)).volume
    have hmem : f ∈ uniqueFills group := (Dictionary.mem_values h.consistent).mpr hf
    have hne : (uniqueFills group).map (·.volume.value) ≠ [] :=
      List.ne_nil_of_mem (List.mem_map_of_mem hmem)
    exact (List.sum_pos _ hpositive hne).ne' hzero
  · intro hnil
    rw [uniqueFills, hnil]
    rfl

/-- Where no position was closed beyond its fills, the setup was not. -/
theorem partial_le_of_closed_le (h : Passed cutoff group order context)
    (hknown : none ∉ (uniqueFills group).map (·.positionId))
    (hle : ∀ position, closedOf cutoff group position ≤ filled group position) :
    (partialClose (closeRows cutoff group)).value ≤ (quantityOf (uniqueFills group)).value := by
  rw [partialClose, quantityOf, Figure.sum_value, Figure.sum_value, List.map_map, List.map_map]
  refine Cumulative.sum_le_sum_of_accounts (fun d : CloseObservation => some d.positionId)
    FillObservation.positionId fun position => ?_
  cases position with
  | none =>
    rw [Cumulative.total_eq_zero, Cumulative.total_eq_zero]
    · intro f hf hnone
      exact hknown (List.mem_map.mpr ⟨f, hf, of_decide_eq_true hnone⟩)
    · intro d _ hnone
      exact absurd (of_decide_eq_true hnone) nofun
  | some position =>
    have hp := hle position
    rw [← filled_eq h] at hp
    refine le_trans (le_of_eq ?_) hp
    exact Cumulative.total_congr fun d _ => by simp

/-! ### The branches -/

/-- The positions of a setup with fills are the ones held, and the open ones hold what is left. -/
structure Held (cutoff : Instant) (group : SetupObservation) : Prop where
  known : none ∉ (uniqueFills group).map (·.positionId)
  held : ∀ position, ¬ Stray group position → ∃ p ∈ group.currentProtection, p.positionId = position
  remaining : ∀ p ∈ group.currentProtection,
    remaining cutoff group p = filled group p.positionId - closedOf cutoff group p.positionId

theorem Passed.held (h : Passed cutoff group order context) (hfills : group.fills ≠ []) :
    Held cutoff group := by
  have hreasons := h.reasons
  simp only [reasonsOf, List.append_eq_nil_iff, flagged_eq_nil, List.forall_mem_cons, h.fills] at hreasons
  have hmismatch := hreasons.1.2.2.2.2.2.2.2.2.1
  rw [decide_eq_true (mt (quantity_eq_zero_iff h).mp hfills), Bool.true_and] at hmismatch
  simp only [positionMismatch, Bool.or_eq_false_iff, decide_eq_false_iff_not, not_not,
    List.any_eq_false] at hmismatch
  obtain ⟨⟨⟨⟨hknown, hpositions⟩, -⟩, -⟩, hremaining⟩ := hmismatch
  rw [positionsOf, List.mem_toFinset] at hknown
  refine ⟨hknown, fun position hposition => ?_, fun p hp => ?_⟩
  · rw [Stray] at hposition
    push Not at hposition
    obtain ⟨f, hf, hf'⟩ := hposition
    have hmem : some position ∈ positionsOf (uniqueFills group) := by
      rw [positionsOf, List.mem_toFinset]
      exact List.mem_map.mpr ⟨f, (Dictionary.mem_values h.consistent).mpr hf, hf'⟩
    rw [hpositions, protectedPositions, List.mem_toFinset] at hmem
    obtain ⟨p, hp, hp'⟩ := List.mem_map.mp hmem
    exact ⟨p, hp, Option.some_injective _ hp'⟩
  · rw [ScalpReplay.remaining]
    split
    · rename_i hopen
      have hp := hremaining p hp
      simp only [remainderMismatch, hopen, decide_true, Bool.true_and, decide_eq_true_eq,
        not_not] at hp
      rw [hp, filled_eq h]
      rfl
    · rfl

theorem conserves_closed (h : Passed cutoff group order context)
    (hproof : closeProof group (uniqueFills group) (closeRows cutoff group)) :
    (∀ position, closedOf cutoff group position = filled group position) ∧
      group.currentProtection ≠ [] ∧ ∀ p ∈ group.currentProtection, p.positionState = "CLOSED" := by
  simp only [closeProof, Bool.and_eq_true, decide_eq_true_eq, List.all_eq_true] at hproof
  obtain ⟨⟨⟨⟨⟨⟨⟨-, hheld⟩, -⟩, hpositions⟩, hclosed⟩, hstates⟩, -⟩, hequal⟩ := hproof
  refine ⟨fun position => ?_, hheld, hstates⟩
  by_cases hposition : some position ∈ (uniqueFills group).map (·.positionId)
  · have hp := hequal _ hposition
    rw [Option.all_some, decide_eq_true_eq, filled_eq h] at hp
    exact hp
  · have hstray : Stray group position := fun f hf hf' =>
      hposition (List.mem_map.mpr ⟨f, (Dictionary.mem_values h.consistent).mpr hf, hf'⟩)
    rw [filled_of_stray hstray, closedOf, closedFrom, List.filter_eq_nil_iff.mpr]
    · rfl
    · intro d hd hd'
      have hmem : some position ∈ closedPositions (closeRows cutoff group) := by
        rw [closedPositions, List.mem_toFinset]
        exact List.mem_map.mpr ⟨d, hd, congrArg some (of_decide_eq_true hd')⟩
      rw [← hclosed, ← hpositions, positionsOf, List.mem_toFinset] at hmem
      exact hposition hmem

theorem classify_cases {fills : List FillObservation} {state : State}
    (h : classify cutoff group order fills closes = .ok state) :
    ((quantityOf fills).value ≠ 0 ∧ state = .closed ∧ closeProof group fills closes) ∨
      ((quantityOf fills).value ≠ 0 ∧ state ≠ .closed ∧
        ∀ p ∈ group.currentProtection, p.positionState ≠ "CLOSED") ∨
      ((quantityOf fills).value = 0 ∧ state ≠ .closed) := by
  rw [classify] at h
  split at h
  · rename_i hquantity
    split at h
    · cases h
      exact .inl ⟨hquantity, rfl, ‹_›⟩
    · split at h
      · exact absurd h nofun
      · rename_i hopen
        rw [not_or, not_or, Bool.not_eq_true, List.any_eq_false] at hopen
        cases h
        refine .inr (.inl ⟨hquantity, ?_, fun p hp => ?_⟩)
        · split <;> exact nofun
        · simpa using hopen.2.2 p hp
  · rename_i hquantity
    rw [not_not] at hquantity
    refine .inr (.inr ⟨hquantity, ?_⟩)
    split at h
    · cases h
      exact nofun
    · split at h <;> cases h
      exact nofun

/-- A setup with a known state is accounted for exactly when its close deals fit its positions. -/
theorem volumes_balance_iff (group : SetupObservation) (context : Option ContextObservation)
    (cutoff : Instant) (row : SetupReconstruction) (hrow : reconstruct group context cutoff = .ok row)
    (hknown : row.state ≠ .unknown) :
    Conserves cutoff group context row ↔ BooksFit cutoff group := by
  obtain ⟨order, horders, -, -, h, hrowOf, hclassify⟩ := reconstruct_cases hrow hknown
  have hpartly : row.partialCloseVolume = partialClose (closeRows cutoff group) := by
    rw [hrowOf]
    rfl
  have hfilled : row.filledVolume = quantityOf (uniqueFills group) := by
    rw [hrowOf]
    simp only [rowOf, h.fills]
  have hle : ∀ o ∈ group.orders, row.filledVolume.value ≤ o.approvedVolume.value := by
    have hreasons := h.reasons
    simp only [reasonsOf, List.append_eq_nil_iff, flagged_eq_nil, List.forall_mem_cons, h.fills,
      Bool.or_eq_false_iff, decide_eq_false_iff_not, not_lt] at hreasons
    intro o ho
    rw [horders, List.mem_singleton] at ho
    rw [ho, hfilled]
    exact hreasons.1.2.1.2
  have horder : ∀ other, Reordered group other → ∃ row', reconstruct other context cutoff = .ok row' ∧
      row'.state = row.state ∧ row'.filledVolume = row.filledVolume ∧
      row'.weightedEntry = row.weightedEntry ∧ row'.partialCloseVolume = row.partialCloseVolume :=
    fun other hother => reconstruct_reordered hother hrow hknown
  rcases classify_cases hclassify with ⟨hquantity, hstate, hproof⟩ | ⟨hquantity, hstate, hopen⟩ |
    ⟨hquantity, hstate⟩
  · -- proved closed: every position's volumes are equal
    have hfills := mt (quantity_eq_zero_iff h).mpr hquantity
    obtain ⟨hequal, hheld, hstates⟩ := conserves_closed h hproof
    refine iff_of_true ⟨?_, hle, fun position => (hequal position).le, ?_, horder⟩ ⟨?_, ?_, ?_⟩
    · rw [hpartly, hfilled]
      exact partial_le_of_closed_le h (h.held hfills).known fun position => (hequal position).le
    · exact iff_of_true hstate ⟨hfills, hequal⟩
    · intro position hstray
      rw [hequal position, filled_of_stray hstray]
    · exact fun _ p hp hp' => absurd (hstates p hp) hp'
    · intro _ hnone
      obtain ⟨p, hp⟩ := List.exists_mem_of_ne_nil _ hheld
      exact absurd (hstates p hp) (hnone p hp)
  · -- open: what a row of a position leaves is its fills minus its close deals
    have hfills := mt (quantity_eq_zero_iff h).mpr hquantity
    obtain ⟨hnone, hheld, hremaining⟩ := h.held hfills
    constructor
    · intro hc
      refine ⟨fun position hstray => ?_, fun _ p hp _ => ?_, fun _ _ => ?_⟩
      · exact (hc.closed_le position).trans_eq (filled_of_stray hstray)
      · rw [hremaining p hp, sub_nonneg]
        exact hc.closed_le p.positionId
      · by_contra hleft
        push Not at hleft
        refine hstate (hc.closed_iff.mpr ⟨hfills, fun position => ?_⟩)
        by_cases hstray : Stray group position
        · rw [hleft.2 position hstray, filled_of_stray hstray]
        · obtain ⟨p, hp, rfl⟩ := hheld position hstray
          have hzero := hleft.1 p hp
          rw [hremaining p hp, sub_eq_zero] at hzero
          exact hzero.symm
    · intro hb
      have hclosed : ∀ position, closedOf cutoff group position ≤ filled group position := by
        intro position
        by_cases hstray : Stray group position
        · exact (hb.stray position hstray).trans_eq (filled_of_stray hstray).symm
        · obtain ⟨p, hp, rfl⟩ := hheld position hstray
          have hrow := hb.rows hfills p hp (hopen p hp)
          rwa [hremaining p hp, sub_nonneg] at hrow
      refine ⟨?_, hle, hclosed, iff_of_false hstate ?_, horder⟩
      · rw [hpartly, hfilled]
        exact partial_le_of_closed_le h hnone hclosed
      · rintro ⟨-, hequal⟩
        rcases hb.left hfills hopen with ⟨p, hp, hne⟩ | ⟨position, hstray, hne⟩
        · rw [hremaining p hp, hequal, sub_self] at hne
          exact hne rfl
        · rw [hequal, filled_of_stray hstray] at hne
          exact hne rfl
  · -- nothing was filled: every position is stray
    have hfills := (quantity_eq_zero_iff h).mp hquantity
    have hstray : ∀ position, Stray group position := by
      intro position f hf
      rw [hfills] at hf
      exact absurd hf List.not_mem_nil
    constructor
    · intro hc
      refine ⟨fun position _ => ?_, fun hne => absurd hfills hne, fun hne => absurd hfills hne⟩
      exact (hc.closed_le position).trans_eq (filled_of_stray (hstray position))
    · intro hb
      have hclosed : ∀ position, closedOf cutoff group position ≤ filled group position := fun position =>
        (hb.stray position (hstray position)).trans_eq (filled_of_stray (hstray position)).symm
      refine ⟨?_, hle, hclosed, iff_of_false hstate fun hall => hall.1 hfills, horder⟩
      rw [hpartly, hfilled]
      refine partial_le_of_closed_le h ?_ hclosed
      rw [uniqueFills, hfills]
      exact List.not_mem_nil

/-! ### Setups of a packet -/

namespace ReplaySample

def intent : ContextObservation where
  id := 1
  originRelease := "0.8.0-model-scalp.1-codex.1"
  requestedAt := 1
  capturedAt := 0
  availableAt := some 3
  completedAt := some 2
  validUntil := 100
  decision := .buy
  entryPrice := some ⟨false, 2000, 0⟩
  takeProfit := some ⟨false, 2005, 0⟩
  stopLoss := some ⟨false, 1995, 0⟩

def workingOrder : OrderObservation where
  id := 7
  side := .buy
  state := "PENDING"
  orderType := .stopLimit
  timeInForce := .gtd
  entryPrice := ⟨false, 2000, 0⟩
  stopLoss := ⟨false, 1995, 0⟩
  takeProfit := ⟨false, 2005, 0⟩
  approvedVolume := ⟨false, 2, 0⟩
  filledVolume := ⟨false, 0, 0⟩
  expiresAt := some 100
  submissionValidUntil := some 100
  updatedAt := 5

/-- Half a unit closed. -/
def halfClosed : CloseObservation where
  id := 1
  positionId := 9
  closedVolume := ⟨false, 5, 1⟩
  entryPrice := ⟨false, 2000, 0⟩
  gross := ⟨false, 1, 0⟩
  commission := ⟨true, 1, 1⟩
  swap := ⟨false, 0, 0⟩
  conversionFee := ⟨false, 0, 0⟩
  occurredAt := 20
  recordedAt := 21
  externalIntervention := false
  evidenceSha256 := ""

/-- A pending order of which a close deal is recorded. -/
def pendingSetup : SetupObservation where
  id := 4
  originRelease := "0.8.0-model-scalp.1-codex.1"
  contextId := some 1
  state := "PENDING"
  executionMode := "SINGLE_STOP_LIMIT"
  timeInForce := .gtd
  createdAt := 4
  updatedAt := 5
  expiresAt := some 100
  submissionValidUntil := some 100
  orders := [workingOrder]
  fills := []
  brokerEvents := []
  currentProtection := []
  protectionHistory := []
  protectionHistoryComplete := false
  closeDeals := [halfClosed]
  closedTrades := []

/-- The same order after a fill of one unit, of which half is left. -/
def partialSetup : SetupObservation :=
  { pendingSetup with
    state := "OPEN"
    orders := [{ workingOrder with state := "FILLED", filledVolume := ⟨false, 1, 0⟩ }]
    fills := [⟨1, some 7, some 9, ⟨false, 2000, 0⟩, ⟨false, 1, 0⟩, ⟨false, 0, 0⟩, 10, 11⟩]
    currentProtection := [⟨9, .buy, "OPEN", ⟨false, 5, 1⟩, ⟨false, 2000, 0⟩, some 30⟩] }

/-- The row of a setup at the cutoff 50. -/
def rowAt (group : SetupObservation) : SetupReconstruction :=
  match reconstruct group (some intent) 50 with
  | .ok row => row
  | .error _ => unsupportedRow group

end ReplaySample

open ReplaySample

theorem volumes_balance_iff_partial : (rowAt partialSetup).state = .partialOpen ∧
    (Conserves 50 partialSetup (some intent) (rowAt partialSetup) ↔ BooksFit 50 partialSetup) :=
  ⟨by decide +kernel, volumes_balance_iff partialSetup (some intent) 50 (rowAt partialSetup) rfl
    (by decide +kernel)⟩

/-- Half a unit counts as closed of a pending order that filled nothing. -/
theorem pending_closes_more_than_filled :
    reconstruct pendingSetup (some intent) 50 = .ok (rowAt pendingSetup) ∧
      (rowAt pendingSetup).state = .unfilledPending ∧
      (rowAt pendingSetup).partialCloseVolume.value = 1 / 2 ∧
      (rowAt pendingSetup).filledVolume.value = 0 ∧
      ¬ Conserves 50 pendingSetup (some intent) (rowAt pendingSetup) := by
  have hclosed : (rowAt pendingSetup).partialCloseVolume.value = 1 / 2 := by decide +kernel
  have hfilled : (rowAt pendingSetup).filledVolume.value = 0 := by decide +kernel
  refine ⟨rfl, by decide +kernel, hclosed, hfilled, fun h => ?_⟩
  have hle := h.partial_le
  rw [hclosed, hfilled] at hle
  exact absurd hle (by decide +kernel)

end ScalpingBot.ScalpReplay
