import Mathlib.Data.List.Sort
import Mathlib.Data.Int.Order.Basic
import ScalpingBot.Gateway.Report
import ScalpingBot.Library.Transition
import ScalpingBot.Store.Event

/-! `DurableDemoExecutionRecorder` (apps/execution-service/src/demo-execution.ts): a queue of broker
    executions that is drained into the execution store, and the failures met on the way, kept under
    their reason codes until a terminal recovery acknowledges them. Normalization and the projection
    of acknowledgements are parameters; what they throw is `none` when it is no `Error`.
    `outstanding` and `reports` are not fields of the class: they hold every failure that no
    acknowledgement has covered, and what the flushes answered while which were outstanding. -/

namespace ScalpingBot.Execution

open Gateway (BrokerExecution RawValue)
open Store (DemoExecutionEvent DemoExecutionPersistenceResult BrokerAcknowledgement)

/-- `rawBrokerFillId`. -/
def rawBrokerFillId (execution : BrokerExecution) : Option String :=
  match execution.deal with
  | none => none
  | some deal =>
    match deal.dealId with
    | .text value => if 0 < value.length then some value else none
    | .integer value => some (toString value)
    | .other => none

/-- `/^(?:CTRADER|DEMO)_[A-Z0-9_]+(?::[A-Za-z][A-Za-z0-9_]*)?$/`. -/
def isFailureReason (message : String) : Bool :=
  let code (c : Char) : Bool := c.isUpper || c.isDigit || c = '_'
  ["CTRADER_", "DEMO_"].any fun start =>
    let rest := message.toList.drop start.length
    start.toList.isPrefixOf message.toList && rest.takeWhile code ≠ [] &&
      match rest.dropWhile code with
      | [] => true
      | ':' :: first :: name => first.isAlpha && name.all fun c => c.isAlphanum || c = '_'
      | _ => false

/-- `failureReason`. -/
def failureReason (error : Option String) (fallback : String) : String :=
  match error with
  | some message => if isFailureReason message then message else fallback
  | none => fallback

inductive FailureStage where
  | normalize | persist | readiness
  deriving DecidableEq

/-- A failure, as the map of reason codes holds the last one of each code. -/
structure Failure where
  reasonCode : String
  sequence : ℕ
  brokerFillId : Option String
  deriving DecidableEq

structure DurableDemoExecutionRecorder where
  pending : List BrokerExecution := []
  drains : ℕ := 0                 -- the unfinished drains that `#tail` awaits
  persisting : Option (BrokerExecution × DemoExecutionEvent) := none
  flushing : ℕ := 0               -- calls of `flush` that await `#tail`
  reading : ℕ := 0                -- calls of `flush` that await `readiness`
  reasonCodes : List Failure := []
  failureSequence : ℕ := 0
  acknowledgedTerminalProofKeys : List String := []
  persistedBrokerFillIds : List String := []
  diagnostics : List (String × FailureStage) := []   -- what `onFailure` was called with
  outstanding : List Failure := []
  reports : List (DemoExecutionPersistenceResult × List Failure) := []

/-- The arguments of `acknowledgeCertainTerminalRecovery`. -/
structure Acknowledgement where
  checkpoint : ℤ
  terminalProofKey : String
  recovery : DemoExecutionPersistenceResult
  terminalBrokerFillId : Option String := none

namespace DurableDemoExecutionRecorder

variable (s : DurableDemoExecutionRecorder)

def enqueue (execution : BrokerExecution) : DurableDemoExecutionRecorder :=
  { s with pending := s.pending ++ [execution] }

/-- `Map.set` of a failure under its reason code. -/
def setReason (failure : Failure) : List Failure :=
  if s.reasonCodes.any (·.reasonCode = failure.reasonCode) then
    s.reasonCodes.map fun old => if old.reasonCode = failure.reasonCode then failure else old
  else s.reasonCodes ++ [failure]

/-- `#recordFailure`. -/
def recordFailure (reasonCode : String) (stage : FailureStage)
    (execution : Option BrokerExecution) : DurableDemoExecutionRecorder :=
  let failure : Failure := ⟨reasonCode, s.failureSequence + 1, execution.bind rawBrokerFillId⟩
  { s with
    failureSequence := s.failureSequence + 1
    reasonCodes := s.setReason failure
    diagnostics := if s.reasonCodes.any (·.reasonCode = reasonCode) then s.diagnostics
      else s.diagnostics ++ [(reasonCode, stage)]
    outstanding := failure :: s.outstanding }

def failureCheckpoint : ℕ := s.failureSequence

/-- The loop of `#drain` on what is pending, up to its next `await`. -/
def drain (normalize : BrokerExecution → Except (Option String) (Option DemoExecutionEvent))
    (projectBrokerAcknowledgement : BrokerExecution → DemoExecutionEvent →
      Except (Option String) (Option BrokerAcknowledgement)) :
    DurableDemoExecutionRecorder → List BrokerExecution → DurableDemoExecutionRecorder
  | s, [] => { s with pending := [], drains := s.drains - 1 }
  | s, execution :: rest =>
    if (rawBrokerFillId execution).any (· ∈ s.persistedBrokerFillIds) then
      drain normalize projectBrokerAcknowledgement s rest
    else
      match normalize execution with
      | .error error =>
        drain normalize projectBrokerAcknowledgement
          (s.recordFailure (failureReason error "DEMO_EXECUTION_NORMALIZATION_FAILED") .normalize
            (some execution)) rest
      | .ok none => drain normalize projectBrokerAcknowledgement s rest
      | .ok (some normalized) =>
        match projectBrokerAcknowledgement execution normalized with
        | .error error =>
          drain normalize projectBrokerAcknowledgement
            (s.recordFailure (failureReason error "DEMO_EXECUTION_PERSISTENCE_FAILED") .persist
              (some execution)) rest
        | .ok _ => { s with pending := rest, persisting := some (execution, normalized) }

/-- What `#drain` does with the answer of the store. -/
def persisted (execution : BrokerExecution) (normalized : DemoExecutionEvent) :
    Except (Option String) DemoExecutionPersistenceResult → DurableDemoExecutionRecorder
  | .error error =>
    s.recordFailure (failureReason error "DEMO_EXECUTION_PERSISTENCE_FAILED") .persist
      (some execution)
  | .ok result =>
    let s := match result.certain, normalized.brokerFillId with
      | true, some brokerFillId =>
        { s with persistedBrokerFillIds := brokerFillId :: s.persistedBrokerFillIds }
      | _, _ => s
    if ¬ result.certain ∧ result.reasonCodes.length = 0 then
      s.recordFailure "DEMO_EXECUTION_PERSISTENCE_UNCERTAIN" .persist (some execution)
    else s

/-- The end of `flush`: the answer of `readiness` is known, `none` if it throws. -/
def finish (readiness : Option DemoExecutionPersistenceResult) : DurableDemoExecutionRecorder :=
  let s := if readiness.isNone then
    s.recordFailure "DEMO_EXECUTION_READINESS_FAILED" .readiness none else s
  let persisted := readiness.getD ⟨false, []⟩
  let reasonCodes := (s.reasonCodes.map (·.reasonCode) ++ persisted.reasonCodes).dedup
  let result : DemoExecutionPersistenceResult :=
    ⟨persisted.certain ∧ reasonCodes.length = 0, reasonCodes.insertionSort (· ≤ ·)⟩
  { s with reading := s.reading - 1, reports := (result, s.outstanding) :: s.reports }

/-- Does the acknowledgement cover the failure? The first one of a proof covers what was recorded up
    to its checkpoint, a repeated one only what belongs to its terminal fill. -/
def covers (input : Acknowledgement) (failure : Failure) : Bool :=
  failure.sequence ≤ input.checkpoint ∧
    (input.terminalProofKey ∉ s.acknowledgedTerminalProofKeys ∨
      failure.brokerFillId = input.terminalBrokerFillId)

/-- Is the acknowledgement refused with `DEMO_EXECUTION_RECOVERY_ACK_INVALID`? -/
def invalid (input : Acknowledgement) : Bool :=
  input.checkpoint < 0 ∨ s.failureSequence < input.checkpoint ∨ input.terminalProofKey.length = 0

/-- Is the acknowledgement passed over? -/
def idle (input : Acknowledgement) : Bool :=
  ¬ input.recovery.certain ∨
    (input.terminalProofKey ∈ s.acknowledgedTerminalProofKeys ∧ input.terminalBrokerFillId = none)

/-- `acknowledgeCertainTerminalRecovery`; one that throws changes nothing. -/
def acknowledgeCertainTerminalRecovery (input : Acknowledgement) : DurableDemoExecutionRecorder :=
  if s.invalid input then s
  else if s.idle input then s
  else { s with
    acknowledgedTerminalProofKeys :=
      if input.terminalProofKey ∈ s.acknowledgedTerminalProofKeys then
        s.acknowledgedTerminalProofKeys
      else input.terminalProofKey :: s.acknowledgedTerminalProofKeys
    reasonCodes := s.reasonCodes.filter fun failure => ¬ s.covers input failure
    outstanding := s.outstanding.filter fun failure => ¬ s.covers input failure }

end DurableDemoExecutionRecorder

inductive Event where
  | enqueue (execution : BrokerExecution)
  | flush
  | drain                          -- the next drain of `#tail` starts
  | persisted (result : Except (Option String) DemoExecutionPersistenceResult)
  | settled                        -- a flush has seen the last drain of `#tail` end
  | readiness (result : Option DemoExecutionPersistenceResult)
  | acknowledge (input : Acknowledgement)

section

variable (normalize : BrokerExecution → Except (Option String) (Option DemoExecutionEvent))
  (projectBrokerAcknowledgement : BrokerExecution → DemoExecutionEvent →
    Except (Option String) (Option BrokerAcknowledgement))

/-- One event; `none` when it cannot happen in this state. -/
def step (s : DurableDemoExecutionRecorder) : Event → Option DurableDemoExecutionRecorder
  | .enqueue execution => some (s.enqueue execution)
  | .flush => some { s with drains := s.drains + 1, flushing := s.flushing + 1 }
  | .drain =>
    if 0 < s.drains ∧ s.persisting.isNone then
      some (s.drain normalize projectBrokerAcknowledgement s.pending)
    else none
  | .persisted result =>
    s.persisting.map fun (execution, normalized) =>
      ({ s with persisting := none }.persisted execution normalized result).drain normalize
        projectBrokerAcknowledgement s.pending
  | .settled =>
    if 0 < s.flushing ∧ s.drains = 0 then
      some { s with flushing := s.flushing - 1, reading := s.reading + 1 }
    else none
  | .readiness result => if 0 < s.reading then some (s.finish result) else none
  | .acknowledge input => some (s.acknowledgeCertainTerminalRecovery input)

end

namespace DurableDemoExecutionRecorder

variable {s t : DurableDemoExecutionRecorder} {input : Acknowledgement}

/-- Every failure that no acknowledgement covers is held against its reason code, and the recorder
    has called itself healthy only while there was none. -/
structure Sound (s : DurableDemoExecutionRecorder) : Prop where
  kept : ∀ f ∈ s.outstanding, f.reasonCode ∈ s.reasonCodes.map (·.reasonCode)
  healthy : ∀ report ∈ s.reports, report.1.certain → report.2 = []

/-- A reason code is held once, with the last of its failures. -/
structure Indexed (s : DurableDemoExecutionRecorder) : Prop extends Sound s where
  distinct : (s.reasonCodes.map (·.reasonCode)).Nodup
  latest : ∀ m ∈ s.reasonCodes, ∀ f ∈ s.outstanding, f.reasonCode = m.reasonCode →
    f.sequence ≤ m.sequence
  recorded : ∀ f ∈ s.outstanding, f.sequence ≤ s.failureSequence

theorem indexed_initial : Indexed {} where
  kept := fun f hf => by cases hf
  healthy := fun report hreport => by cases hreport
  distinct := List.nodup_nil
  latest := fun m hm => by cases hm
  recorded := fun f hf => by cases hf

/-- The failures and the reports are the same. -/
structure SameFailures (t s : DurableDemoExecutionRecorder) : Prop where
  reasonCodes : t.reasonCodes = s.reasonCodes
  failureSequence : t.failureSequence = s.failureSequence
  outstanding : t.outstanding = s.outstanding
  reports : t.reports = s.reports

theorem Indexed.congr (h : Indexed s) (ht : SameFailures t s) : Indexed t where
  kept := by rw [ht.outstanding, ht.reasonCodes]; exact h.kept
  healthy := by rw [ht.reports]; exact h.healthy
  distinct := by rw [ht.reasonCodes]; exact h.distinct
  latest := by rw [ht.reasonCodes, ht.outstanding]; exact h.latest
  recorded := by rw [ht.outstanding, ht.failureSequence]; exact h.recorded

theorem setReason_codes (failure : Failure) :
    (s.setReason failure).map (·.reasonCode) =
      if s.reasonCodes.any (·.reasonCode = failure.reasonCode) then s.reasonCodes.map (·.reasonCode)
      else s.reasonCodes.map (·.reasonCode) ++ [failure.reasonCode] := by
  unfold setReason
  split
  · rw [List.map_map]
    refine List.map_congr_left fun old _ => ?_
    rw [Function.comp]
    split
    · next h => exact h.symm
    · rfl
  · simp

theorem mem_setReason {failure m : Failure} (h : m ∈ s.setReason failure) :
    m = failure ∨ (m ∈ s.reasonCodes ∧ m.reasonCode ≠ failure.reasonCode) := by
  unfold setReason at h
  split at h
  · obtain ⟨old, hold, rfl⟩ := List.mem_map.mp h
    split
    · exact Or.inl rfl
    · next hne => exact Or.inr ⟨hold, hne⟩
  · next hnew =>
    rcases List.mem_append.mp h with hold | hlast
    · refine Or.inr ⟨hold, fun heq => hnew ?_⟩
      exact List.any_eq_true.mpr ⟨m, hold, by simpa using heq⟩
    · exact Or.inl (List.mem_singleton.mp hlast)

theorem mem_setReason_codes {failure : Failure} {code : String} :
    code ∈ (s.setReason failure).map (·.reasonCode) ↔
      code = failure.reasonCode ∨ code ∈ s.reasonCodes.map (·.reasonCode) := by
  rw [setReason_codes]
  split
  · next hany =>
    obtain ⟨old, hold, heq⟩ := List.any_eq_true.mp hany
    refine (or_iff_right_of_imp ?_).symm
    rintro rfl
    exact List.mem_map.mpr ⟨old, hold, by simpa using heq⟩
  · rw [List.mem_append, List.mem_singleton, or_comm]

theorem Indexed.recordFailure (h : Indexed s) (reasonCode : String) (stage : FailureStage)
    (execution : Option BrokerExecution) : Indexed (s.recordFailure reasonCode stage execution) where
  kept := by
    intro f hf
    rw [DurableDemoExecutionRecorder.recordFailure, mem_setReason_codes]
    rcases List.mem_cons.mp hf with rfl | hf
    · exact Or.inl rfl
    · exact Or.inr (h.kept f hf)
  healthy := h.healthy
  distinct := by
    rw [DurableDemoExecutionRecorder.recordFailure, setReason_codes]
    split
    · exact h.distinct
    · next hnew =>
      refine List.nodup_append.mpr ⟨h.distinct, List.nodup_singleton _, fun code hcode last hlast heq => ?_⟩
      obtain ⟨old, hold, rfl⟩ := List.mem_map.mp hcode
      refine hnew (List.any_eq_true.mpr ⟨old, hold, ?_⟩)
      simpa [List.mem_singleton.mp hlast] using heq
  latest := by
    intro m hm f hf hcode
    rcases List.mem_cons.mp hf with rfl | hf
    · rcases mem_setReason hm with rfl | ⟨-, hne⟩
      · exact le_rfl
      · exact absurd hcode.symm hne
    · rcases mem_setReason hm with rfl | ⟨hold, -⟩
      · exact (h.recorded f hf).trans (Nat.le_succ _)
      · exact h.latest m hold f hf hcode
  recorded := by
    intro f hf
    rcases List.mem_cons.mp hf with rfl | hf
    · exact le_rfl
    · exact (h.recorded f hf).trans (Nat.le_succ _)

variable {normalize : BrokerExecution → Except (Option String) (Option DemoExecutionEvent)}
  {project : BrokerExecution → DemoExecutionEvent →
    Except (Option String) (Option BrokerAcknowledgement)}

theorem Indexed.drain (h : Indexed s) (executions : List BrokerExecution) :
    Indexed (s.drain normalize project executions) := by
  induction executions generalizing s with
  | nil => exact h.congr ⟨rfl, rfl, rfl, rfl⟩
  | cons execution rest ih =>
    unfold DurableDemoExecutionRecorder.drain
    split
    · exact ih h
    · split
      · exact ih (h.recordFailure ..)
      · exact ih h
      · split
        · exact ih (h.recordFailure ..)
        · exact h.congr ⟨rfl, rfl, rfl, rfl⟩

theorem Indexed.persisted (h : Indexed s) (execution : BrokerExecution)
    (normalized : DemoExecutionEvent)
    (result : Except (Option String) DemoExecutionPersistenceResult) :
    Indexed (s.persisted execution normalized result) := by
  cases result with
  | error error => exact h.recordFailure ..
  | ok result =>
    have hids : Indexed (match result.certain, normalized.brokerFillId with
        | true, some brokerFillId =>
          { s with persistedBrokerFillIds := brokerFillId :: s.persistedBrokerFillIds }
        | _, _ => s) := by
      split
      · exact h.congr ⟨rfl, rfl, rfl, rfl⟩
      · exact h
    simp only [DurableDemoExecutionRecorder.persisted]
    split
    · exact hids.recordFailure ..
    · exact hids

/-- A flush that answers that all is certain holds no reason code. -/
theorem Indexed.finish (h : Indexed s) (readiness : Option DemoExecutionPersistenceResult) :
    Indexed (s.finish readiness) := by
  have hread : Indexed (if readiness.isNone then
      s.recordFailure "DEMO_EXECUTION_READINESS_FAILED" .readiness none else s) := by
    split
    · exact h.recordFailure ..
    · exact h
  unfold DurableDemoExecutionRecorder.finish
  generalize (if readiness.isNone then
    s.recordFailure "DEMO_EXECUTION_READINESS_FAILED" .readiness none else s) = s' at hread ⊢
  refine ⟨⟨hread.kept, fun report hreport => ?_⟩, hread.distinct, hread.latest, hread.recorded⟩
  rcases List.mem_cons.mp hreport with rfl | hold
  · intro hcertain
    simp only [decide_eq_true_eq, List.length_eq_zero_iff, List.dedup_eq_nil, List.append_eq_nil_iff,
      List.map_eq_nil_iff] at hcertain
    refine List.eq_nil_iff_forall_not_mem.mpr fun f hf => ?_
    have hcode := hread.kept f hf
    rw [hcertain.2.1] at hcode
    cases hcode
  · exact hread.healthy report hold

/-- No failure of another execution that is outstanding shares its reason code with the last
    failure of the fill that a repeated acknowledgement is for. -/
def Separated (s : DurableDemoExecutionRecorder) (event : Event) : Prop :=
  ∀ input, event = .acknowledge input → ¬ s.invalid input → ¬ s.idle input →
    input.terminalProofKey ∈ s.acknowledgedTerminalProofKeys →
    ∀ m ∈ s.reasonCodes, m.sequence ≤ input.checkpoint →
      m.brokerFillId = input.terminalBrokerFillId →
      ∀ f ∈ s.outstanding, f.reasonCode = m.reasonCode →
        f.brokerFillId = input.terminalBrokerFillId

theorem acknowledge_taken (hinvalid : ¬ s.invalid input) (hidle : ¬ s.idle input) :
    (s.acknowledgeCertainTerminalRecovery input).reasonCodes =
        s.reasonCodes.filter (fun failure => ¬ s.covers input failure) ∧
      (s.acknowledgeCertainTerminalRecovery input).outstanding =
        s.outstanding.filter (fun failure => ¬ s.covers input failure) := by
  unfold acknowledgeCertainTerminalRecovery
  rw [if_neg hinvalid, if_neg hidle]
  exact ⟨rfl, rfl⟩

theorem covers_iff {failure : Failure} : s.covers input failure ↔
    failure.sequence ≤ input.checkpoint ∧
      (input.terminalProofKey ∉ s.acknowledgedTerminalProofKeys ∨
        failure.brokerFillId = input.terminalBrokerFillId) := by
  simp [covers]

theorem Indexed.acknowledge (h : Indexed s) (hseparated : Separated s (.acknowledge input)) :
    Indexed (s.acknowledgeCertainTerminalRecovery input) := by
  by_cases hinvalid : s.invalid input
  · rwa [acknowledgeCertainTerminalRecovery, if_pos hinvalid]
  by_cases hidle : s.idle input
  · rwa [acknowledgeCertainTerminalRecovery, if_neg hinvalid, if_pos hidle]
  rw [acknowledgeCertainTerminalRecovery, if_neg hinvalid, if_neg hidle]
  refine ⟨⟨?_, h.healthy⟩, ?_, ?_, ?_⟩
  · intro f hf
    simp only [List.mem_filter, decide_not, Bool.not_eq_true', decide_eq_false_iff_not] at hf
    obtain ⟨m, hm, hcode⟩ := List.mem_map.mp (h.kept f hf.1)
    refine List.mem_map.mpr ⟨m, ?_, hcode⟩
    simp only [List.mem_filter, decide_not, Bool.not_eq_true', decide_eq_false_iff_not]
    refine ⟨hm, fun hcovered => hf.2 ?_⟩
    -- the code is deleted for a failure that is later than `f`
    obtain ⟨hsequence, hfill⟩ := covers_iff.mp hcovered
    have hle : (f.sequence : ℤ) ≤ input.checkpoint :=
      le_trans (by exact_mod_cast h.latest m hm f hf.1 hcode.symm) hsequence
    refine covers_iff.mpr ⟨hle, ?_⟩
    by_cases hnew : input.terminalProofKey ∈ s.acknowledgedTerminalProofKeys
    · exact Or.inr (hseparated input rfl hinvalid hidle hnew m hm hsequence
        (hfill.resolve_left (not_not.mpr hnew)) f hf.1 hcode.symm)
    · exact Or.inl hnew
  · exact h.distinct.sublist (List.filter_sublist.map _)
  · exact fun m hm f hf => h.latest m (List.mem_of_mem_filter hm) f (List.mem_of_mem_filter hf)
  · exact fun f hf => h.recorded f (List.mem_of_mem_filter hf)

/-- An acknowledgement that is not separated forgets a failure that it does not cover. -/
theorem forgets (h : Indexed s) (hnot : ¬ Separated s (.acknowledge input)) :
    ¬ Sound (s.acknowledgeCertainTerminalRecovery input) := by
  simp only [Separated, Event.acknowledge.injEq, not_forall] at hnot
  obtain ⟨_, rfl, hinvalid, hidle, hold, m, hm, hsequence, hfill, f, hf, hcode, hother⟩ := hnot
  obtain ⟨hcodes, houtstanding⟩ := acknowledge_taken hinvalid hidle
  intro hsound
  have hkept := hsound.kept f (by
    rw [houtstanding, List.mem_filter]
    refine ⟨hf, ?_⟩
    simp [covers, hold, hother])
  rw [hcodes] at hkept
  obtain ⟨m', hm', hcode'⟩ := List.mem_map.mp hkept
  obtain ⟨hm', huncovered⟩ := List.mem_filter.mp hm'
  obtain rfl : m' = m := List.inj_on_of_nodup_map h.distinct hm' hm (hcode'.trans hcode)
  simp [covers, hsequence, hfill] at huncovered

theorem indexed_step (s : DurableDemoExecutionRecorder) (event : Event)
    (t : DurableDemoExecutionRecorder) (h : Indexed s) (hseparated : Separated s event)
    (hstep : step normalize project s event = some t) : Indexed t := by
  cases event with
  | enqueue execution => cases hstep; exact h.congr ⟨rfl, rfl, rfl, rfl⟩
  | flush => cases hstep; exact h.congr ⟨rfl, rfl, rfl, rfl⟩
  | drain =>
    obtain ⟨-, ⟨⟩⟩ := Option.ite_none_right_eq_some.mp hstep
    exact h.drain s.pending
  | persisted result =>
    obtain ⟨⟨execution, normalized⟩, -, rfl⟩ := Option.map_eq_some_iff.mp hstep
    have hs : Indexed { s with persisting := none } := h.congr ⟨rfl, rfl, rfl, rfl⟩
    exact (hs.persisted execution normalized result).drain s.pending
  | settled =>
    obtain ⟨-, ⟨⟩⟩ := Option.ite_none_right_eq_some.mp hstep
    exact h.congr ⟨rfl, rfl, rfl, rfl⟩
  | readiness result =>
    obtain ⟨-, ⟨⟩⟩ := Option.ite_none_right_eq_some.mp hstep
    exact h.finish result
  | acknowledge input => cases hstep; exact h.acknowledge hseparated

/-- The recorder is sound throughout a run exactly if no repeated acknowledgement of the run meets
    an outstanding failure of another execution under the reason code of its fill's failure. -/
theorem sound_iff_separated (events : List Event) :
    Transition.Throughout (step normalize project) Sound {} events ↔
      Transition.Guarded (step normalize project) Separated {} events := by
  refine Transition.throughout_iff_guarded (I := Indexed) (fun s h => h.toSound) indexed_step ?_
    indexed_initial
  intro s event h hnot
  cases event with
  | acknowledge input => exact ⟨_, rfl, forgets h hnot⟩
  | _ => exact absurd (fun input hinput => by cases hinput) hnot

end DurableDemoExecutionRecorder

namespace Sample

/-- A fill without its order, which does not pass normalization. -/
def orderless (deal : String) : BrokerExecution where
  executionType := 3
  order := none
  deal := some { dealId := .text deal }

/-- Normalization of executions of the strategy that concern no other type. -/
def normalize (execution : BrokerExecution) : Except (Option String) (Option DemoExecutionEvent) :=
  if execution.executionType = 3 ∧ execution.order.isNone then
    .error (some "DEMO_EXECUTION_ORDER_MISSING") else .ok none

/-- A certain recovery with one proof, up to a checkpoint. -/
def recovered (checkpoint : ℤ) (fill : Option String) : Event :=
  .acknowledge ⟨checkpoint, "terminal:proof", ⟨true, []⟩, fill⟩

def flushed : List Event := [.flush, .drain, .settled, .readiness (some ⟨true, []⟩)]

end Sample

/-- The failure of fill 1 is forgotten with that of fill 2, and the recorder calls itself certain. -/
theorem other_failure_forgotten : ∃ s, Transition.run (step Sample.normalize fun _ _ => .ok none) {}
    ([Sample.recovered 0 none, .enqueue (Sample.orderless "1"), .enqueue (Sample.orderless "2")] ++
      Sample.flushed ++ [Sample.recovered 2 (some "2")] ++ Sample.flushed) = some s ∧
    s.outstanding = [⟨"DEMO_EXECUTION_ORDER_MISSING", 1, some "1"⟩] ∧
    s.reports.head? = some (⟨true, []⟩, s.outstanding) ∧ ¬ s.Sound := by
  have h : (Transition.run (step Sample.normalize fun _ _ => .ok none) {}
      ([Sample.recovered 0 none, .enqueue (Sample.orderless "1"), .enqueue (Sample.orderless "2")] ++
        Sample.flushed ++ [Sample.recovered 2 (some "2")] ++ Sample.flushed)).any (fun s =>
      s.outstanding = [⟨"DEMO_EXECUTION_ORDER_MISSING", 1, some "1"⟩] ∧
        s.reports.head? = some (⟨true, []⟩, s.outstanding)) := by
    decide +kernel
  obtain ⟨s, hrun, hs⟩ := (Option.any_eq_true _ _).mp h
  obtain ⟨houtstanding, hreport⟩ := of_decide_eq_true hs
  refine ⟨s, hrun, houtstanding, hreport, fun hsound => ?_⟩
  have hnil := hsound.healthy _ (List.mem_of_head? hreport) rfl
  rw [houtstanding] at hnil
  cases hnil

end ScalpingBot.Execution
