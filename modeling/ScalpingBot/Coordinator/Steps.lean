import ScalpingBot.Coordinator.Cycle
import ScalpingBot.Library.Lawful

/-! What every call of a cycle may rely on: the rule for each call in terms of the calls before it, and
    the rules of pre- and postconditions for the steps from which a cycle is put together. -/

namespace ScalpingBot.Coordinator

open Program (recollect remember Triple Record)
open Risk (OcoEvaluation)

variable {W : Wire} {α β : Type}

/-! ### The rule -/

/-- The state of the analysis after the transitions of a trace. -/
def machineAfter (trace : List (Event W)) : AnalysisState :=
  trace.foldl (fun q e => match e.call with
    | .transition event => event.target
    | _ => q) .pending

def Unplaced (trace : List (Event W)) : Prop := ∀ e ∈ trace, e.call.kind ≠ .place

/-- The verdict that a call records; every other call is accepted. -/
def Call.accepted : Call W → Bool
  | .validation _ accepted _ _ => accepted
  | _ => true

/-- No verdict of the trace is a rejection. -/
def Validated (trace : List (Event W)) : Prop := ∀ e ∈ trace, e.call.accepted = true

/-- The kind of the call of an event. -/
def kindOf (e : Event W) : Kind := e.call.kind

/-- The last gate was open for the latest answers. -/
def Gated (o : CoordinatorOptions) (trace : List (Event W)) : Prop :=
  ∃ (safety : SafetyGateInput) (symbolId : String) (account : AccountState)
    (controls : PlacementControls) (circuitOpen : Bool) (snapshot : MarketSnapshot W)
    (quoteNow bookNow : ℕ),
    Latest kindOf trace ⟨.safety, .ok safety⟩ ∧
    Latest kindOf trace ⟨.reconcile symbolId, .ok account⟩ ∧
    Latest kindOf trace ⟨.placementControls, .ok controls⟩ ∧
    Latest kindOf trace ⟨.circuitOpen, .ok circuitOpen⟩ ∧
    Since kindOf trace ⟨.snapshot, .ok snapshot⟩ ⟨.now, .ok quoteNow⟩ ∧
    Since kindOf trace ⟨.snapshot, .ok snapshot⟩ ⟨.now, .ok bookNow⟩ ∧
    (evaluatePlacementEligibility (placementInput safety account controls circuitOpen
      (fresh quoteNow snapshot.quote.sourceTime o.maxQuoteAgeMs)
      (fresh bookNow snapshot.orderBook.sourceTime o.maxOrderBookAgeMs))).allowed = true

/-- The latest session is open, where there are sessions. -/
def InSession (o : CoordinatorOptions) (trace : List (Event W)) : Prop :=
  o.hasMarketSession = true → ∃ session : MarketSessionStatus,
    Latest kindOf trace ⟨.marketSession, .ok session⟩ ∧ session.isOpen = true

/-- The latest answer of the risk evaluator. -/
def Evaluated (evaluation : OcoEvaluation) (trace : List (Event W)) : Prop :=
  ∃ response account metadata quote trend side, Latest kindOf trace
    ⟨.evaluate response account metadata quote trend side, .ok evaluation⟩

/-- The orders of an evaluation may be sent. -/
structure MayPlace (o : CoordinatorOptions) (evaluation : OcoEvaluation)
    (trace : List (Event W)) : Prop where
  unplaced : Unplaced trace
  validated : Validated trace
  evaluated : Evaluated evaluation trace
  approved : evaluation.approved = true
  gated : Gated o trace
  inSession : InSession o trace

/-- The trail has the intent, as the last thing that happened. -/
def Intended (o : CoordinatorOptions) (evaluation : OcoEvaluation) (trace : List (Event W)) : Prop :=
  ∃ before, trace = before ++ [⟨.intent evaluation, .ok ()⟩] ∧ MayPlace o evaluation before

/-- What holds before each call of a cycle. -/
def CallRule (o : CoordinatorOptions) (before : List (Event W)) (e : Event W) : Prop :=
  match e.call with
  | .transition event =>
    event.source = machineAfter before ∧ event.target ∈ event.source.transitions
  | .intent evaluation => MayPlace o evaluation before
  | .placeDirectional command =>
    ∃ evaluation, Intended o evaluation before ∧ evaluation.directionalCommand = some command
  | .placeOco commands => ∃ evaluation, Intended o evaluation before ∧
      evaluation.directionalCommand = none ∧ evaluation.commands = some commands
  | .placement _ | .flushExecutionEvents => True
  | _ => Unplaced before

/-! ### The rules for steps -/

abbrev State (W : Wire) := Record (Call W) (Answer (W := W)) Failure Memory

/-- The trail has no acceptance. -/
def Unaccepted (trace : List (Event W)) : Prop :=
  ∀ event, ⟨.transition event, .ok ()⟩ ∈ trace → event.target ≠ .accepted

/-- The trace keeps the rule, the machine is what the trace says, and nothing is accepted yet. -/
structure Settled (o : CoordinatorOptions) (s : State W) : Prop where
  lawful : Lawful (CallRule o) s.trace
  traced : machineAfter s.trace = s.memory.machine
  unaccepted : Unaccepted s.trace

/-- What the gateway answered to the orders. -/
def placementOf (e : Event W) : Option OcoPlacementResult :=
  match e with
  | ⟨.placeDirectional _, .ok placement⟩ => some placement
  | ⟨.placeOco _, .ok placement⟩ => some placement
  | _ => none

/-- A record after the orders that failed. -/
def Unrecorded (e : Event W) : Prop :=
  match e with
  | ⟨.placement _, .error _⟩ => True
  | ⟨.flushExecutionEvents, .error _⟩ => True
  | ⟨.transition event, .error _⟩ => event.target = .accepted
  | _ => False

/-- Orders that the gateway answered are not reported: a leg met a closed session, or a record after
    them failed. -/
def Unreported (trace : List (Event W)) : Prop :=
  ∀ e ∈ trace, ∀ placement, placementOf e = some placement →
    sessionRejections placement ≠ [] ∨ ∃ e' ∈ trace, Unrecorded e'

/-- A cycle whose start is recorded has come to its end. -/
def Concluded (s : State W) : Prop := s.memory.started = true → s.memory.machine.terminal = true

/-- A cycle that is left before its end. -/
structure Left (o : CoordinatorOptions) (exit : Exit) (s : State W) : Prop where
  settled : Settled o s
  unreported : Unreported s.trace
  concluded : ∀ result, exit = .returned result → Concluded s ∧ result.outcome ≠ .placed

/-- The same in a given state of the analysis, before anything is placed, with more to know. -/
structure Holds (o : CoordinatorOptions) (q : AnalysisState) (F : List (Event W) → Prop)
    (s : State W) : Prop where
  settled : Settled o s
  machine : s.memory.machine = q
  unplaced : Unplaced s.trace
  known : F s.trace

/-- What stays known along accepted calls of some kinds. -/
def Kept (kinds : List Kind) (F : List (Event W) → Prop) : Prop :=
  ∀ trace e, kindOf e ∈ kinds → e.call.accepted = true → F trace → F (trace ++ [e])

/-- A program that makes calls of some kinds, keeps the rule and moves the machine. -/
def Moves (o : CoordinatorOptions) (kinds : List Kind) (q q' : AnalysisState)
    (m : Process W α) : Prop :=
  ∀ F, Kept kinds F → Triple (Holds o q F) m (fun _ => Holds o q' F) (Left o)

/-- The kinds of calls for which the rule only asks that nothing was placed. -/
def ordinary : List Kind :=
  [.safety, .circuitOpen, .marketSession, .beforeAnalysis, .start, .snapshot, .market, .analyze,
    .analytics, .spreadContext, .reconcile, .proposalConstraints, .decisionMarket, .performance,
    .compressionPreflight, .prepare, .analyzeModel, .modelFailure, .retireEntries, .model, .now,
    .evidenceScalp, .compressionScalp, .evaluate, .commandFeeCheck, .placementControls,
    .currentSetupRiskPercent]

variable {o : CoordinatorOptions} {kinds : List Kind} {q q' : AnalysisState}
  {F G : List (Event W) → Prop} {s : State W} {e : Event W}

theorem callRule_ordinary {before : List (Event W)} (hkind : kindOf e ∈ ordinary)
    (h : Unplaced before) : CallRule o before e := by
  rcases e with ⟨c, answer⟩
  cases c <;> first | exact h | simp [kindOf, Call.kind, ordinary] at hkind

theorem machineAfter_snoc {trace : List (Event W)} (h : kindOf e ≠ .transition) :
    machineAfter (trace ++ [e]) = machineAfter trace := by
  rcases e with ⟨c, answer⟩
  rw [machineAfter, List.foldl_concat, ← machineAfter]
  cases c <;> first | rfl | exact absurd rfl h

theorem unplaced_snoc {trace : List (Event W)} (h : Unplaced trace) (he : kindOf e ≠ .place) :
    Unplaced (trace ++ [e]) := by
  intro x hx
  rcases List.mem_append.mp hx with hx | hx
  · exact h x hx
  · rw [List.mem_singleton.mp hx]
    exact he

theorem unaccepted_snoc {trace : List (Event W)} (h : Unaccepted trace)
    (he : ∀ event, e = ⟨.transition event, .ok ()⟩ → event.target ≠ .accepted) :
    Unaccepted (trace ++ [e]) := by
  intro event hevent
  rcases List.mem_append.mp hevent with hevent | hevent
  · exact h event hevent
  · exact he event (List.mem_singleton.mp hevent).symm

theorem unreported_of_unplaced {trace : List (Event W)} (h : Unplaced trace) :
    Unreported trace := by
  rintro ⟨c, answer⟩ he placement hplacement
  cases c <;> first | exact absurd rfl (h _ he) | cases hplacement

/-- What has been unreported stays so after calls that place nothing. -/
theorem unreported_snoc {trace : List (Event W)} (h : Unreported trace) (he : kindOf e ≠ .place) :
    Unreported (trace ++ [e]) := by
  intro x hx placement hplacement
  rcases List.mem_append.mp hx with hx | hx
  · refine (h x hx placement hplacement).imp_right ?_
    rintro ⟨e', he', hunrecorded⟩
    exact ⟨e', List.mem_append_left _ he', hunrecorded⟩
  · rcases e with ⟨c, answer⟩
    rw [List.mem_singleton.mp hx] at hplacement
    cases c <;> first | exact absurd rfl he | cases hplacement

/-- Calls that may be made at any time keep the trace lawful. -/
theorem Settled.called (h : Settled o s) (hrule : CallRule o s.trace e)
    (hkind : kindOf e ≠ .transition) : Settled o (s.called e) := by
  refine ⟨h.lawful.snoc hrule, (machineAfter_snoc hkind).trans h.traced, ?_⟩
  refine unaccepted_snoc h.unaccepted ?_
  rintro event rfl
  exact absurd rfl hkind

/-- An exception leaves a cycle that has placed nothing. -/
theorem Holds.left {failure : Failure} (h : Holds o q F s) : Left o (.threw failure) s :=
  ⟨h.settled, unreported_of_unplaced h.unplaced, by simp⟩

theorem Holds.called (h : Holds o q F s) (hrule : CallRule o s.trace e)
    (htransition : kindOf e ≠ .transition) (hplace : kindOf e ≠ .place)
    (hknown : G (s.trace ++ [e])) : Holds o q G (s.called e) :=
  ⟨h.settled.called hrule htransition, h.machine, unplaced_snoc h.unplaced hplace, hknown⟩

theorem Holds.mono (h : Holds o q F s) (hknown : F s.trace → G s.trace) : Holds o q G s :=
  ⟨h.settled, h.machine, h.unplaced, hknown h.known⟩

theorem Holds.called_left {failure : Failure} (h : Holds o q F s) (hrule : CallRule o s.trace e)
    (htransition : kindOf e ≠ .transition) (hplace : kindOf e ≠ .place) :
    Left o (.threw failure) (s.called e) :=
  (h.called (G := fun _ => True) hrule htransition hplace trivial).left

theorem Kept.and (hF : Kept kinds F) (hG : Kept kinds G) :
    Kept kinds fun trace => F trace ∧ G trace :=
  fun trace e hkind hok h => ⟨hF trace e hkind hok h.1, hG trace e hkind hok h.2⟩

theorem kept_latest (h : kindOf e ∉ kinds) : Kept kinds fun trace => Latest kindOf trace e := by
  intro trace e' hkind _ hlatest
  exact hlatest.snoc fun heq => h (heq ▸ hkind)

theorem kept_since {r : Event W} (h : kindOf e ∉ kinds) :
    Kept kinds fun trace => Since kindOf trace e r := by
  intro trace x hkind _ hsince
  exact hsince.snoc fun heq => h (heq ▸ hkind)

theorem kept_validated : Kept kinds (Validated (W := W)) := by
  intro trace e _ hok h x hx
  rcases List.mem_append.mp hx with hx | hx
  · exact h x hx
  · rw [List.mem_singleton.mp hx]
    exact hok

theorem Kept.subset {K : List Kind} (h : Kept kinds F) (hsub : ∀ k ∈ K, k ∈ kinds) :
    Kept K F :=
  fun trace e hkind hok hF => h trace e (hsub _ hkind) hok hF

namespace Moves

variable {m : Process W α} {f : α → Process W β}

theorem pure {a : α} : Moves o kinds q q (Pure.pure a : Process W α) :=
  fun _ _ => Triple.pure fun _ h => h

theorem bind {r : AnalysisState} (hm : Moves o kinds q r m) (hf : ∀ a, Moves o kinds r q' (f a)) :
    Moves o kinds q q' (m >>= f) :=
  fun F hF => Triple.bind (hm F hF) fun a => hf a F hF

theorem ite {c : Prop} [Decidable c] {m m' : Process W α} (hm : c → Moves o kinds q q' m)
    (hm' : ¬c → Moves o kinds q q' m') : Moves o kinds q q' (if c then m else m') :=
  fun F hF => Triple.ite (fun h => hm h F hF) fun h => hm' h F hF

theorem throw {failure : Failure} : Moves o kinds q q' (throw (.threw failure) : Process W α) :=
  fun _ _ => Triple.exit fun _ h => h.left

theorem compute {e : Except String α} : Moves o kinds q q (compute e : Process W α) := by
  cases e with
  | ok a => exact pure
  | error message => exact throw

theorem subset {kinds' : List Kind} (h : Moves o kinds q q' m) (hsub : ∀ k ∈ kinds, k ∈ kinds') :
    Moves o kinds' q q' m :=
  fun F hF => h F (hF.subset hsub)

end Moves

/-- The state after a transition and its record. -/
def recorded (s : State W) (event : AnalysisTransition) (answer : Except Failure Unit) : State W :=
  Record.called ⟨s.trace, { s.memory with machine := event.target }⟩ ⟨.transition event, answer⟩

/-- A recorded transition keeps the trace lawful, unless it is the acceptance. -/
theorem Settled.recorded {event : AnalysisTransition} {answer : Except Failure Unit}
    (h : Settled o s) (hsource : event.source = s.memory.machine)
    (hmem : event.target ∈ s.memory.machine.transitions)
    (hok : answer = .ok () → event.target ≠ .accepted) : Settled o (recorded s event answer) := by
  refine ⟨h.lawful.snoc ⟨hsource.trans h.traced.symm, hsource ▸ hmem⟩, ?_, ?_⟩
  · rw [Coordinator.recorded, Record.called_trace, machineAfter, List.foldl_concat]
    rfl
  · refine unaccepted_snoc h.unaccepted ?_
    rintro event' heq
    cases heq
    exact hok rfl

variable (o) (env : Environment W)

theorem accepted_of_ordinary {c : Call W} (hmem : c.kind ∈ ordinary) : c.accepted = true := by
  cases c <;> first | rfl | simp [Call.kind, ordinary] at hmem

/-- One call, and what is known after its answer. -/
theorem ask_rule {c : Call W} {G : Answer c → List (Event W) → Prop}
    (hmem : ordinary.contains c.kind)
    (hok : ∀ trace answer, F trace → G answer (trace ++ [⟨c, .ok answer⟩])) :
    Triple (Holds o q F) (ask env c) (fun a => Holds o q (G a)) (Left o) := by
  have hmem : c.kind ∈ ordinary := List.contains_iff_mem.mp hmem
  have htransition : c.kind ≠ .transition := fun h => absurd hmem (h ▸ by decide)
  have hplace : c.kind ≠ .place := fun h => absurd hmem (h ▸ by decide)
  refine Triple.perform (fun s v hs => ?_) fun s f hs => ?_
  · exact hs.called (callRule_ordinary hmem hs.unplaced) htransition hplace (hok _ _ hs.known)
  · exact hs.called_left (callRule_ordinary hmem hs.unplaced) htransition hplace

/-- The answer is the latest of its kind. -/
theorem ask_latest {c : Call W} (hmem : ordinary.contains c.kind) (hkind : kinds.contains c.kind)
    (hF : Kept kinds F) :
    Triple (Holds o q F) (ask env c)
      (fun a => Holds o q fun trace => F trace ∧ Latest kindOf trace ⟨c, .ok a⟩) (Left o) := by
  refine ask_rule o env hmem fun trace answer hknown => ⟨?_, Latest.last⟩
  exact hF _ _ (List.contains_iff_mem.mp hkind)
    (accepted_of_ordinary (List.contains_iff_mem.mp hmem)) hknown

/-- The answer comes since the latest event of another kind. -/
theorem ask_since {c : Call W} (hmem : ordinary.contains c.kind) (hkind : kinds.contains c.kind)
    (hF : Kept kinds F) (hlatest : ∀ trace, F trace → Latest kindOf trace e)
    (hne : c.kind ≠ kindOf e) :
    Triple (Holds o q F) (ask env c)
      (fun a => Holds o q fun trace => F trace ∧ Since kindOf trace e ⟨c, .ok a⟩) (Left o) := by
  refine ask_rule o env hmem fun trace answer hknown => ⟨?_, Since.last (hlatest _ hknown) hne⟩
  exact hF _ _ (List.contains_iff_mem.mp hkind)
    (accepted_of_ordinary (List.contains_iff_mem.mp hmem)) hknown

theorem ask_moves {c : Call W} (hmem : ordinary.contains c.kind) (hkind : kinds.contains c.kind) :
    Moves o kinds q q (ask env c) := by
  intro F hF
  refine ask_rule o env hmem fun trace answer hknown => ?_
  exact hF trace _ (List.contains_iff_mem.mp hkind)
    (accepted_of_ordinary (List.contains_iff_mem.mp hmem)) hknown

/-- A transition moves the machine along its table, and nothing else. -/
theorem transition_rule {target : AnalysisState} {reasons : List String} {P : State W → Prop} :
    Triple P (transition target reasons)
      (fun event t => ∃ s, P s ∧ t = ⟨s.trace, { s.memory with machine := target }⟩ ∧
        event.source = s.memory.machine ∧ event.target = target ∧
        target ∈ s.memory.machine.transitions)
      (fun exit s => P s ∧ (target ∈ s.memory.machine.transitions →
        target = .rejected ∧ reasons = []) ∧ ∃ failure, exit = .threw failure) := by
  refine Triple.bind (Triple.recollect (Q := fun memory s => P s ∧ memory = s.memory)
    fun s hs => ⟨hs, rfl⟩) fun memory => ?_
  refine Triple.ite (fun hmem => Triple.exit ?_) fun hmem => ?_
  · rintro s ⟨hs, rfl⟩
    exact ⟨hs, fun h => absurd h hmem, _, rfl⟩
  refine Triple.ite (fun hrejected => Triple.exit fun s hs => ⟨hs.1, fun _ => hrejected, _, rfl⟩)
    fun _ => ?_
  refine Triple.bind (Triple.remember (Q := fun _ t => ∃ s, P s ∧ memory = s.memory ∧
    t = ⟨s.trace, { s.memory with machine := target }⟩) fun s hs => ⟨s, hs.1, hs.2, rfl⟩)
    fun _ => Triple.pure ?_
  rintro t ⟨s, hs, rfl, rfl⟩
  exact ⟨s, hs, rfl, rfl, rfl, not_not.mp hmem⟩

/-- A transition and its record; the trace has it also when the trail fails. -/
theorem record_rule {target : AnalysisState} {reasons : List String} {P : State W → Prop}
    {Q : State W → Prop} {E : Exit → State W → Prop}
    (hthrow : ∀ s failure, P s → (target ∈ s.memory.machine.transitions →
      target = .rejected ∧ reasons = []) → E (.threw failure) s)
    (hok : ∀ s event, P s → event.source = s.memory.machine → event.target = target →
      target ∈ s.memory.machine.transitions → Q (recorded s event (.ok ())))
    (herror : ∀ s event failure, P s → event.source = s.memory.machine → event.target = target →
      target ∈ s.memory.machine.transitions →
      E (.threw failure) (recorded s event (.error failure))) :
    Triple P (record env target reasons) (fun _ => Q) E := by
  refine Triple.bind (transition_rule.mono (fun _ h => h) (fun _ _ h => h) ?_) fun event => ?_
  · rintro exit s ⟨hs, hmem, failure, rfl⟩
    exact hthrow s failure hs hmem
  · refine Triple.perform ?_ ?_
    · rintro t ⟨⟩ ⟨s, hs, rfl, hsource, rfl, hmem⟩
      exact hok s event hs hsource rfl hmem
    · rintro t failure ⟨s, hs, rfl, hsource, rfl, hmem⟩
      exact herror s event failure hs hsource rfl hmem

/-- The machine moves along its table, up to the acceptance. -/
theorem record_moves {target : AnalysisState} {reasons : List String}
    (htarget : target ≠ .accepted) (hkind : .transition ∈ kinds) :
    Moves o kinds q target (record env target reasons) := by
  intro F hF
  have hholds : ∀ s event answer, Holds o q F s → event.source = s.memory.machine →
      event.target = target → target ∈ s.memory.machine.transitions →
      Holds o target F (recorded s event answer) := by
    rintro s event answer hs hsource rfl hmem
    refine ⟨hs.settled.recorded hsource hmem fun _ => htarget, rfl, ?_, ?_⟩
    · exact unplaced_snoc hs.unplaced (by simp [kindOf, Call.kind])
    · exact hF _ _ hkind rfl hs.known
  refine record_rule env (fun s failure hs _ => hs.left) (fun s event hs hsource htarget hmem => ?_)
    fun s event failure hs hsource htarget hmem => ?_
  · exact hholds s event _ hs hsource htarget hmem
  · exact (hholds s event _ hs hsource htarget hmem).left

/-- The trail has refused the rejection, as the last thing that happened. -/
def Refused (trace : List (Event W)) : Prop :=
  ∃ before event failure, trace = before ++ [⟨.transition event, .error failure⟩] ∧
    event.target = .rejected

theorem rejected_mem {q : AnalysisState} (h : ¬ q.terminal) : .rejected ∈ q.transitions := by
  cases q <;> first | decide | exact absurd rfl h

/-- A rejection ends a cycle that has been started, whatever has happened before, unless the trail
    refuses it. -/
theorem reject_rule {reasons : List String} :
    Triple (fun s => Settled o s ∧ Unreported s.trace) (reject env reasons)
      (fun result s => Settled o s ∧ Unreported s.trace ∧ Concluded s ∧
        result.outcome = .rejected)
      (fun exit s => Left o exit s ∧ (reasons ≠ [] → Refused s.trace)) := by
  refine Triple.bind (Triple.recollect (Q := fun memory s =>
    (Settled o s ∧ Unreported s.trace) ∧ memory = s.memory) fun s hs => ⟨hs, rfl⟩) fun memory => ?_
  refine Triple.bind (Q := fun _ s => Settled o s ∧ Unreported s.trace ∧ Concluded s) ?_
    fun _ => Triple.pure fun s hs => ⟨hs.1, hs.2.1, hs.2.2, rfl⟩
  refine Triple.ite (fun hopen => ?_) fun hnot => Triple.pure ?_
  · have hrecorded : ∀ (s : State W) event answer,
        ((Settled o s ∧ Unreported s.trace) ∧ memory = s.memory) →
        event.source = s.memory.machine → event.target = .rejected →
        .rejected ∈ s.memory.machine.transitions → Settled o (recorded s event answer) ∧
          Unreported (recorded s event answer).trace ∧ Concluded (recorded s event answer) := by
      rintro s event answer ⟨⟨hs, hunreported⟩, -⟩ hsource htarget hmem
      refine ⟨hs.recorded hsource (htarget ▸ hmem) fun _ => ?_, ?_, fun _ => ?_⟩
      · rw [htarget]
        decide
      · exact unreported_snoc hunreported (by simp [kindOf, Call.kind])
      · show event.target.terminal = true
        rw [htarget]
        rfl
    refine record_rule env (fun s failure hs hnot => ⟨⟨hs.1.1, hs.1.2, by simp⟩, fun hne => ?_⟩)
      (fun s event hs hsource htarget hmem => hrecorded s event _ hs hsource htarget hmem)
      fun s event failure hs hsource htarget hmem => ?_
    · exact absurd (hnot (hs.2 ▸ rejected_mem hopen.2)).2 (reasonSet_ne_nil hne)
    · have h := hrecorded s event (.error failure) hs hsource htarget hmem
      exact ⟨⟨h.1, h.2.1, by simp⟩, fun _ => ⟨s.trace, event, failure, rfl, htarget⟩⟩
  · rintro s ⟨⟨hs, hunreported⟩, rfl⟩
    refine ⟨hs, hunreported, fun hstarted => ?_⟩
    by_contra hterminal
    exact hnot ⟨hstarted, hterminal⟩

theorem refuse_rule {reasons : List String} {Q : α → State W → Prop} :
    Triple (fun s => Settled o s ∧ Unreported s.trace) (refuse env reasons : Process W α) Q
      (Left o) := by
  refine Triple.bind ((reject_rule o env).mono (fun _ h => h) (fun _ _ h => h) fun _ _ h => h.1)
    fun result => Triple.exit ?_
  rintro s ⟨hs, hunreported, hconcluded, houtcome⟩
  refine ⟨hs, hunreported, ?_⟩
  rintro result' heq
  cases heq
  exact ⟨hconcluded, by rw [houtcome]; decide⟩

theorem refuse_leaves {reasons : List String} {Q : α → State W → Prop} :
    Triple (Holds o q F) (refuse env reasons : Process W α) Q (Left o) :=
  (refuse_rule o env).mono (fun _ hs => ⟨hs.settled, unreported_of_unplaced hs.unplaced⟩)
    (fun _ _ h => h) fun _ _ h => h

theorem refuse_moves {reasons : List String} :
    Moves o kinds q q' (refuse env reasons : Process W α) := fun _ _ => refuse_leaves o env

theorem demand_moves {holds : Bool} {reasons : List String} :
    Moves o kinds q q (demand env holds reasons) :=
  Moves.ite (fun _ => Moves.pure) fun _ => refuse_moves o env

/-- A recorded verdict: what follows may take it for an acceptance, unless it leaves the cycle. -/
theorem validation_rule {stage : ValidationStage} {accepted : Bool} {reasons : List String}
    {scope : Option String} {f : Unit → Process W α} {Q : α → State W → Prop}
    (hF : Kept [.validation] F) (hok : accepted = true → Triple (Holds o q F) (f ()) Q (Left o))
    (hbad : accepted = false → Triple (Holds o q fun _ => True) (f ()) (fun _ _ => False)
      (Left o)) :
    Triple (Holds o q F) (ask env (.validation stage accepted reasons scope) >>= f) Q (Left o) := by
  have hleft : ∀ s (failure : Failure), Holds o q F s → Left o (.threw failure)
      (s.called ⟨.validation stage accepted reasons scope, .error failure⟩) := by
    intro s failure hs
    exact hs.called_left hs.unplaced (by simp [kindOf, Call.kind]) (by simp [kindOf, Call.kind])
  cases haccepted : accepted with
  | true =>
    subst haccepted
    refine Triple.bind (Q := fun _ => Holds o q F)
      (Triple.perform (fun s v hs => ?_) fun s failure hs => hleft s failure hs) fun _ => hok rfl
    exact hs.called hs.unplaced (by simp [kindOf, Call.kind]) (by simp [kindOf, Call.kind])
      (hF _ _ (List.mem_singleton.mpr rfl) rfl hs.known)
  | false =>
    subst haccepted
    refine Triple.bind (Q := fun _ => Holds o q fun _ => True)
      (Triple.perform (fun s v hs => ?_) fun s failure hs => hleft s failure hs)
      fun _ => (hbad rfl).mono (fun _ h => h) (fun _ _ h => h.elim) fun _ _ h => h
    exact hs.called hs.unplaced (by simp [kindOf, Call.kind]) (by simp [kindOf, Call.kind]) trivial

theorem validation_moves {stage : ValidationStage} {accepted : Bool} {reasons : List String}
    {scope : Option String} {f : Unit → Process W α} (hkind : .validation ∈ kinds)
    (hok : accepted = true → Moves o kinds q q' (f ()))
    (hbad : accepted = false → Triple (Holds o q fun _ => True) (f ()) (fun _ _ => False)
      (Left o)) :
    Moves o kinds q q' (ask env (.validation stage accepted reasons scope) >>= f) := by
  intro F hF
  refine validation_rule o env (hF.subset ?_) (fun h => hok h F hF) hbad
  simpa using hkind

/-- After a verdict the cycle goes on, if at all, with an accepted one. -/
theorem validated_rule {stage : ValidationStage} {verdict : Verdict} {scope : Option String}
    (hF : Kept [.validation] F) :
    Triple (Holds o q F) (validated env stage verdict scope)
      (fun _ => Holds o q fun trace => F trace ∧ verdict.accepted = true) (Left o) := by
  refine validation_rule o env hF (fun h => ?_) fun h => ?_
  · rw [demand, if_pos h]
    exact Triple.pure fun s hs => hs.mono fun hknown => ⟨hknown, h⟩
  · rw [demand, h]
    exact refuse_leaves o env

theorem validated_moves {stage : ValidationStage} {verdict : Verdict} {scope : Option String}
    (hkind : .validation ∈ kinds) : Moves o kinds q q (validated env stage verdict scope) := by
  intro F hF
  refine (validated_rule o env (hF.subset ?_)).mono (fun _ h => h)
    (fun _ _ h => h.mono And.left) fun _ _ h => h
  simpa using hkind

theorem invalidated_leaves {reasons : List String} {scope : Option String} {Q : α → State W → Prop}
    (hF : Kept [.validation] F) :
    Triple (Holds o q F) (invalidated env reasons scope : Process W α) Q (Left o) :=
  validation_rule o env hF (fun h => absurd h (by decide)) fun _ => refuse_leaves o env

theorem invalidated_moves {reasons : List String} {scope : Option String}
    (hkind : .validation ∈ kinds) :
    Moves o kinds q q' (invalidated env reasons scope : Process W α) := by
  intro F hF
  refine invalidated_leaves o env (hF.subset ?_)
  simpa using hkind

/-- A call whose failure leaves the cycle in a way of its own. -/
theorem catching_rule {c : Call W} {handler : Failure → Process W (Answer c)}
    (hmem : ordinary.contains c.kind) (hkind : kinds.contains c.kind) (hF : Kept kinds F)
    (hh : ∀ f, Triple (Holds o q fun _ => True) (handler f) (fun _ _ => False) (Left o)) :
    Triple (Holds o q F) (catching (ask env c) handler)
      (fun a => Holds o q fun trace => F trace ∧ Latest kindOf trace ⟨c, .ok a⟩) (Left o) := by
  have hmem' : c.kind ∈ ordinary := List.contains_iff_mem.mp hmem
  have htransition : c.kind ≠ .transition := fun h => absurd hmem' (h ▸ by decide)
  have hplace : c.kind ≠ .place := fun h => absurd hmem' (h ▸ by decide)
  refine Triple.recover (E := fun exit s => Holds o q (fun _ => True) s ∧
    ∃ failure, exit = .threw failure) (Triple.perform (fun s v hs => ?_) fun s f hs => ?_) ?_
  · refine hs.called (callRule_ordinary hmem' hs.unplaced) htransition hplace ⟨?_, Latest.last⟩
    exact hF _ _ (List.contains_iff_mem.mp hkind) (accepted_of_ordinary hmem') hs.known
  · exact ⟨hs.called (callRule_ordinary hmem' hs.unplaced) htransition hplace trivial, f, rfl⟩
  · rintro (result | failure)
    · rintro s ⟨-, failure, heq⟩
      cases heq
    · exact (hh failure).mono (fun _ h => h.1) (fun _ _ h => h.elim) fun _ _ h => h

theorem catching_moves {c : Call W} {handler : Failure → Process W (Answer c)}
    (hmem : ordinary.contains c.kind) (hkind : kinds.contains c.kind)
    (hh : ∀ f, Triple (Holds o q fun _ => True) (handler f) (fun _ _ => False) (Left o)) :
    Moves o kinds q q (catching (ask env c) handler) := by
  intro F hF
  exact (catching_rule o env hmem hkind hF hh).mono (fun _ h => h)
    (fun _ _ h => h.mono And.left) fun _ _ h => h

end ScalpingBot.Coordinator
