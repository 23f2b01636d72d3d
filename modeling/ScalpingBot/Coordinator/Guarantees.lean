import ScalpingBot.Coordinator.CycleLaws

/-! Every cycle, for every environment: the gateway is called at most once, after the intent, with every
    verdict accepted and the last gate open for the latest answers; the recorded transitions are a path
    of the machine; and the result says whether the orders are on record. -/

namespace ScalpingBot.Coordinator

open Program (Triple)
open Risk (OcoEvaluation)

variable {W : Wire} (o : CoordinatorOptions) (fn : Functions W) (env : Environment W)

/-! ### Every cycle -/

/-- A cycle of a coordinator that is free, in an environment. -/
def run : Except Exit CycleResult × State W := Program.outcome (runOnce o fn env) (initial false)

/-- A cycle that is reported as placed has everything of it on record; any other leaves no acceptance,
    and orders that the gateway answered stay unreported only for a closed session or a record that
    failed. A cycle that has started ends in a terminal state, and only a refused rejection throws. -/
theorem runOnce_ends :
    Ended o (run o fn env).1 (run o fn env).2 ∧ (run o fn env).2.memory.running = false := by
  have h := runOnce_rule o fn env (initial false) rfl
  rw [← run] at h
  generalize run o fn env = r at h ⊢
  rcases r with ⟨exit | result, s⟩
  · exact h
  · exact h

/-- Transitions that follow each other along the table. -/
def Path : AnalysisState → List AnalysisTransition → Prop
  | _, [] => True
  | q, event :: events => event.source = q ∧ event.target ∈ q.transitions ∧ Path event.target events

theorem Path.snoc {q : AnalysisState} {events : List AnalysisTransition} {event : AnalysisTransition}
    (h : Path q events) (hsource : event.source = ((events.getLast?.map (·.target)).getD q))
    (hmem : event.target ∈ event.source.transitions) : Path q (events ++ [event]) := by
  induction events generalizing q with
  | nil =>
    obtain rfl : event.source = q := hsource
    exact ⟨rfl, hmem, trivial⟩
  | cons first events ih =>
    obtain ⟨hfirst, hnext, hrest⟩ := h
    refine ⟨hfirst, hnext, ih hrest ?_⟩
    rw [hsource, List.getLast?_cons]
    cases events.getLast? <;> rfl

def transitionOf (e : Event W) : Option AnalysisTransition :=
  match e.call with
  | .transition event => some event
  | _ => none

/-- The transitions of a trace, in the order in which they were recorded. -/
def transitionsOf (trace : List (Event W)) : List AnalysisTransition := trace.filterMap transitionOf

theorem transitionsOf_snoc (trace : List (Event W)) (e : Event W) :
    transitionsOf (trace ++ [e]) = transitionsOf trace ++ (transitionOf e).toList := by
  rw [transitionsOf, List.filterMap_append, ← transitionsOf]
  cases h : transitionOf e <;> simp [h]

theorem machineAfter_eq (trace : List (Event W)) :
    machineAfter trace = ((transitionsOf trace).getLast?.map (·.target)).getD .pending := by
  induction trace using List.reverseRecOn with
  | nil => rfl
  | append_singleton trace e ih =>
    rcases e with ⟨c, answer⟩
    cases c with
    | transition event =>
      rw [transitionsOf_snoc, machineAfter, List.foldl_concat]
      simp [transitionOf]
    | _ =>
      rw [machineAfter_snoc (by simp [kindOf, Call.kind]), ih, transitionsOf_snoc]
      simp [transitionOf]

variable {o} in
theorem path_of_lawful {trace : List (Event W)} (h : Lawful (CallRule o) trace) :
    Path .pending (transitionsOf trace) := by
  induction trace using List.reverseRecOn with
  | nil => exact trivial
  | append_singleton trace e ih =>
    have hrule := h trace e [] rfl
    have hpath := ih fun before x after htrace => h before x (after ++ [e]) (by simp [htrace])
    rcases e with ⟨c, answer⟩
    rw [transitionsOf_snoc]
    cases c with
    | transition event =>
      rw [CallRule, machineAfter_eq] at hrule
      exact hpath.snoc hrule.1 hrule.2
    | _ => exact (List.append_nil _).symm ▸ hpath

variable {o} in
theorem intended_of_place {before : List (Event W)} {e : Event W} (h : CallRule o before e)
    (hkind : kindOf e = .place) : ∃ evaluation, Intended o evaluation before := by
  rcases e with ⟨c, answer⟩
  cases c <;> first | exact h.imp fun _ h => h.1 | cases hkind

variable {o} in
theorem Intended.unplaced {evaluation : OcoEvaluation} {trace : List (Event W)}
    (h : Intended o evaluation trace) : Unplaced trace := by
  obtain ⟨before, rfl, hmay⟩ := h
  exact unplaced_snoc hmay.unplaced (by simp [kindOf, Call.kind])

variable {o} in
/-- The gateway is called at most once. -/
theorem placed_once {trace : List (Event W)} (h : Lawful (CallRule o) trace) :
    trace.countP (fun e => kindOf e = .place) ≤ 1 := by
  induction trace using List.reverseRecOn with
  | nil => simp
  | append_singleton trace e ih =>
    have hrule := h trace e [] rfl
    have hcount := ih fun before x after htrace => h before x (after ++ [e]) (by simp [htrace])
    rw [List.countP_append]
    by_cases hkind : kindOf e = .place
    · obtain ⟨evaluation, hintended⟩ := intended_of_place hrule hkind
      have hnone : trace.countP (fun e => kindOf e = .place) = 0 := by
        rw [List.countP_eq_zero]
        intro x hx
        exact fun h => hintended.unplaced x hx (of_decide_eq_true h)
      rw [hnone]
      simp [hkind]
    · simpa [hkind] using hcount

/-- Whatever the environment answers, and whichever call fails: the gateway is called at most once, for
    the orders of the evaluator's latest answer, right after the trail has their intent, with every
    recorded verdict accepted; and the recorded transitions are a path of the machine. -/
theorem placed_once_after_intent :
    Lawful (CallRule o) (run o fn env).2.trace ∧
      (run o fn env).2.trace.countP (fun e => kindOf e = .place) ≤ 1 ∧
      Path .pending (transitionsOf (run o fn env).2.trace) := by
  have h := (runOnce_ends o fn env).1.lawful
  exact ⟨h, placed_once h, path_of_lawful h⟩

/-! ### The last gate -/

/-- What the last gate asks of the answers that it looks at. -/
structure OpenGate (o : CoordinatorOptions) (safety : SafetyGateInput) (account : AccountState)
    (controls : PlacementControls) (circuitOpen : Bool) (snapshot : MarketSnapshot W)
    (quoteNow bookNow : ℕ) : Prop where
  healthy : safety.serviceHealthy = true ∧ safety.accountAuthenticated = true ∧
    safety.duplicateFree = true ∧ safety.criticalAuditAvailable = true
  noStop : safety.environmentEmergencyStop = false ∧
    safety.filesystemEmergencyStop = false ∧ controls.filesystemEmergencyStop = false ∧
    safety.databaseEmergencyStop = false ∧ controls.databaseEmergencyStop = false
  notPaused : safety.pauseNewAnalyses = false ∧ controls.pauseNewAnalyses = false ∧
    safety.lossStreakPauseActive = false ∧ safety.operationalRiskLockout = false ∧
    (safety.tradingMode ≠ .demo → safety.dailyLossLockout = false)
  certain : safety.filesystemControlsCertain = true ∧ controls.filesystemControlsCertain = true ∧
    safety.runtimeControlsCertain = true ∧ controls.runtimeControlsCertain = true ∧
    safety.accountReconciled = true ∧ safety.reconciliationCertain = true ∧ account.certain = true
  flat : safety.relevantPositionCount = 0 ∧ account.relevantPositionCount = 0 ∧
    safety.relevantPendingOrderCount = 0 ∧ account.relevantPendingOrderCount = 0 ∧
    safety.partialFillPresent = false ∧ account.hasPartialFill = false ∧
    safety.cancellationPending = false ∧ account.hasCancellationPending = false
  circuit : circuitOpen = false
  freshQuote : ∃ time, snapshot.quote.sourceTime = some time ∧ time ≤ quoteNow ∧
    (quoteNow : ℤ) - time ≤ o.maxQuoteAgeMs
  freshBook : ∃ time, snapshot.orderBook.sourceTime = some time ∧ time ≤ bookNow ∧
    (bookNow : ℤ) - time ≤ o.maxOrderBookAgeMs
  live : safety.tradingMode = .live → safety.liveTradingEnabled = true ∧
    safety.liveAcknowledgement = liveAcknowledgement ∧ safety.liveEnablementFileValid = true ∧
    controls.liveEnablementFileValid = true ∧ safety.startupChecksPassed = true ∧
    safety.dashboardAcknowledged = true ∧ controls.dashboardAcknowledged = true

theorem fresh_iff {now : ℕ} {sourceTime : Option ℕ} {maximumAge : ℤ} :
    fresh now sourceTime maximumAge = true ↔
      ∃ time, sourceTime = some time ∧ time ≤ now ∧ (now : ℤ) - time ≤ maximumAge := by
  cases sourceTime with
  | none => simp [fresh]
  | some time => simp [fresh]

/-- The gate is open exactly when all that holds. -/
theorem openGate_iff {safety : SafetyGateInput} {account : AccountState}
    {controls : PlacementControls} {circuitOpen : Bool} {snapshot : MarketSnapshot W}
    {quoteNow bookNow : ℕ} :
    (evaluatePlacementEligibility (placementInput safety account controls circuitOpen
      (fresh quoteNow snapshot.quote.sourceTime o.maxQuoteAgeMs)
      (fresh bookNow snapshot.orderBook.sourceTime o.maxOrderBookAgeMs))).allowed = true ↔
      OpenGate o safety account controls circuitOpen snapshot quoteNow bookNow := by
  rw [placement_allowed]
  constructor
  · rintro ⟨hcommon, hplacement, hlive⟩
    simp [commonChecks, placementInput] at hcommon
    simp [placementChecks, placementInput] at hplacement
    simp [liveChecks, placementInput] at hlive
    obtain ⟨hhealthy, henvironment, hfiles, hfileStop, hruntime, hdatabase, hpause, hauthenticated,
      haccount, hreconciled, hpositions, hpending, hpartly, hcancel, hbook, hquote, hdaily,
      hoperational, hcircuit, hstreak⟩ := hcommon
    exact
      { healthy := ⟨hhealthy, hauthenticated, hplacement⟩
        noStop := ⟨henvironment, hfileStop.1, hfileStop.2, hdatabase⟩
        notPaused := ⟨hpause.1, hpause.2, hstreak, hoperational, hdaily.resolve_left⟩
        certain := ⟨hfiles.1, hfiles.2, hruntime.1, hruntime.2, haccount.1, hreconciled⟩
        flat := ⟨hpositions.1, hpositions.2, hpending.1, hpending.2, hpartly.1, hpartly.2, hcancel⟩
        circuit := hcircuit
        freshQuote := fresh_iff.mp hquote
        freshBook := fresh_iff.mp hbook
        live := fun h =>
          have ⟨henabled, hacknowledged, hfile, hrest⟩ := hlive h
          ⟨henabled, of_decide_eq_true hacknowledged, hfile.1, hfile.2, hrest⟩ }
  · intro h
    refine ⟨?_, ?_, fun hlive => ?_⟩
    · have hdaily : safety.tradingMode = .demo ∨ safety.dailyLossLockout = false :=
        or_iff_not_imp_left.mpr h.notPaused.2.2.2.2
      simp [commonChecks, placementInput, h.healthy, h.noStop, h.notPaused.1, h.notPaused.2.1,
        h.notPaused.2.2.1, h.notPaused.2.2.2.1, hdaily, h.certain, h.flat, h.circuit,
        fresh_iff.mpr h.freshQuote, fresh_iff.mpr h.freshBook]
    · simp [placementChecks, placementInput, h.healthy]
    · simp [liveChecks, placementInput, h.live hlive]

/-- What holds when the gateway is called, in terms of the latest answers before it. -/
def PlacedUnder (o : CoordinatorOptions) (before : List (Event W)) (e : Event W) : Prop :=
  kindOf e = .place → ∃ (safety : SafetyGateInput) (symbolId : String) (account : AccountState)
    (controls : PlacementControls) (circuitOpen : Bool) (snapshot : MarketSnapshot W)
    (quoteNow bookNow : ℕ),
    Latest kindOf before ⟨.safety, .ok safety⟩ ∧
    Latest kindOf before ⟨.reconcile symbolId, .ok account⟩ ∧
    Latest kindOf before ⟨.placementControls, .ok controls⟩ ∧
    Latest kindOf before ⟨.circuitOpen, .ok circuitOpen⟩ ∧
    Since kindOf before ⟨.snapshot, .ok snapshot⟩ ⟨.now, .ok quoteNow⟩ ∧
    Since kindOf before ⟨.snapshot, .ok snapshot⟩ ⟨.now, .ok bookNow⟩ ∧
    OpenGate o safety account controls circuitOpen snapshot quoteNow bookNow ∧
    (o.hasMarketSession = true → ∃ session : MarketSessionStatus,
      Latest kindOf before ⟨.marketSession, .ok session⟩ ∧ session.isOpen = true)

/-- Orders are only sent when the latest answers of the safety state, the account, the controls, the
    circuit, the market and the session all allow it: a stop, a pause, an open position or a stale
    quote in any of them, however late, keeps the gateway from being called. -/
theorem placed_under_open_gate : Lawful (PlacedUnder o) (run o fn env).2.trace := by
  intro before e after htrace hkind
  have hrule := (runOnce_ends o fn env).1.lawful before e after htrace
  obtain ⟨evaluation, earlier, rfl, hmay⟩ := intended_of_place hrule hkind
  obtain ⟨safety, symbolId, account, controls, circuitOpen, snapshot, quoteNow, bookNow, hsafety,
    haccount, hcontrols, hcircuit, hquote, hbook, hallowed⟩ := hmay.gated
  refine ⟨safety, symbolId, account, controls, circuitOpen, snapshot, quoteNow, bookNow,
    hsafety.snoc ?_, haccount.snoc ?_, hcontrols.snoc ?_, hcircuit.snoc ?_, hquote.snoc ?_,
    hbook.snoc ?_, (openGate_iff o).mp hallowed, fun hsession => ?_⟩
  case refine_7 =>
    obtain ⟨session, hlatest, hopen⟩ := hmay.inSession hsession
    exact ⟨session, hlatest.snoc (by simp [kindOf, Call.kind]), hopen⟩
  all_goals simp [kindOf, Call.kind]

end ScalpingBot.Coordinator
