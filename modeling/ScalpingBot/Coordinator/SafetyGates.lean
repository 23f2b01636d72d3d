import ScalpingBot.Market

/-! The gates of apps/execution-service/src/safety-gates.ts: every check names its reason, and a gate
    opens exactly when no check fails. -/

namespace ScalpingBot.Coordinator

def liveAcknowledgement : String := "I_UNDERSTAND_LIVE_ORDERS_CAN_LOSE_MONEY"

structure SafetyGateInput where
  tradingMode : TradingMode
  liveTradingEnabled : Bool
  liveAcknowledgement : String
  environmentEmergencyStop : Bool
  filesystemControlsCertain : Bool
  filesystemEmergencyStop : Bool
  liveEnablementFileValid : Bool
  runtimeControlsCertain : Bool
  databaseEmergencyStop : Bool
  dashboardAcknowledged : Bool
  pauseNewAnalyses : Bool
  startupChecksPassed : Bool
  serviceHealthy : Bool
  accountAuthenticated : Bool
  accountReconciled : Bool
  reconciliationCertain : Bool
  relevantPositionCount : ℕ
  relevantPendingOrderCount : ℕ
  partialFillPresent : Bool
  cancellationPending : Bool
  previousAnalysisExpired : Bool
  candlesSynchronized : Bool
  orderBookFresh : Bool
  marketDataFresh : Bool
  dailyLossLockout : Bool
  operationalRiskLockout : Bool
  aiCircuitOpen : Bool
  symbolMetadataValid : Bool
  aiResponseValid : Bool
  deterministicRiskApproved : Bool
  spreadSafe : Bool
  duplicateFree : Bool
  criticalAuditAvailable : Bool
  lossStreakPauseActive : Bool
  deriving DecidableEq

structure SafetyGateResult where
  allowed : Bool
  reasonCodes : List String
  deriving DecidableEq

/-- `[...new Set(reasons)].sort()`. -/
def reasonSet (reasons : List String) : List String := reasons.eraseDups.mergeSort (· ≤ ·)

/-- The reasons of the checks that fail. -/
def failing (checks : List (Bool × String)) : List String :=
  (checks.filter fun check => !check.1).map Prod.snd

theorem failing_eq_nil {checks : List (Bool × String)} :
    failing checks = [] ↔ ∀ check ∈ checks, check.1 = true := by
  simp [failing]

section

variable (input : SafetyGateInput)

/-- The checks of `commonReasons`. -/
def commonChecks : List (Bool × String) :=
  [(input.serviceHealthy, "SERVICE_UNHEALTHY"),
    (!input.environmentEmergencyStop, "EMERGENCY_STOP_ENV"),
    (input.filesystemControlsCertain, "FILESYSTEM_CONTROLS_UNCERTAIN"),
    (!input.filesystemEmergencyStop, "EMERGENCY_STOP_FILE"),
    (input.runtimeControlsCertain, "RUNTIME_CONTROLS_UNCERTAIN"),
    (!input.databaseEmergencyStop, "EMERGENCY_STOP_DATABASE"),
    (!input.pauseNewAnalyses, "ANALYSES_PAUSED"),
    (input.accountAuthenticated, "ACCOUNT_NOT_AUTHENTICATED"),
    (input.accountReconciled, "ACCOUNT_NOT_RECONCILED"),
    (input.reconciliationCertain, "RECONCILIATION_UNCERTAIN"),
    (input.relevantPositionCount = 0, "RELEVANT_POSITION_EXISTS"),
    (input.relevantPendingOrderCount = 0, "RELEVANT_PENDING_ORDER_EXISTS"),
    (!input.partialFillPresent, "PARTIAL_FILL_BLOCKING"),
    (!input.cancellationPending, "CANCELLATION_PENDING"),
    (input.previousAnalysisExpired, "PREVIOUS_ANALYSIS_ACTIVE"),
    (input.candlesSynchronized, "CANDLES_UNSYNCHRONIZED"),
    (input.orderBookFresh, "ORDER_BOOK_STALE"),
    (input.marketDataFresh, "MARKET_DATA_STALE"),
    (input.tradingMode = .demo ∨ !input.dailyLossLockout, "DAILY_LOSS_LOCKOUT"),
    (!input.operationalRiskLockout, "OPERATIONAL_RISK_LOCKOUT"),
    (!input.aiCircuitOpen, "AI_CIRCUIT_OPEN"),
    (input.symbolMetadataValid, "SYMBOL_METADATA_INVALID"),
    (!input.lossStreakPauseActive, "LOSS_STREAK_PAUSE_ACTIVE")]

def commonReasons : List String := failing (commonChecks input)

def evaluateAnalysisEligibility : SafetyGateResult where
  allowed := (commonReasons input).isEmpty
  reasonCodes := (commonReasons input).mergeSort (· ≤ ·)

/-- The checks that only a placement makes. -/
def placementChecks : List (Bool × String) :=
  [(input.aiResponseValid, "AI_RESPONSE_INVALID"),
    (input.deterministicRiskApproved, "RISK_NOT_APPROVED"),
    (input.spreadSafe, "SPREAD_UNSAFE"),
    (input.duplicateFree, "DUPLICATE_ORDER_RISK"),
    (input.criticalAuditAvailable, "CRITICAL_AUDIT_UNAVAILABLE")]

/-- The checks that only a live placement makes. -/
def liveChecks : List (Bool × String) :=
  [(input.liveTradingEnabled, "LIVE_TRADING_DISABLED"),
    (input.liveAcknowledgement = Coordinator.liveAcknowledgement, "LIVE_ACKNOWLEDGEMENT_INVALID"),
    (input.liveEnablementFileValid, "LIVE_ENABLEMENT_FILE_INVALID"),
    (input.startupChecksPassed, "STARTUP_SAFETY_CHECKS_FAILED"),
    (input.dashboardAcknowledged, "DASHBOARD_ACKNOWLEDGEMENT_REQUIRED")]

def placementReasons : List String :=
  commonReasons input ++ failing (placementChecks input) ++
    (if input.tradingMode = .live then failing (liveChecks input) else [])

def evaluatePlacementEligibility : SafetyGateResult where
  allowed := (placementReasons input).isEmpty
  reasonCodes := reasonSet (placementReasons input)

theorem analysis_allowed :
    (evaluateAnalysisEligibility input).allowed = true ↔
      ∀ check ∈ commonChecks input, check.1 = true := by
  rw [evaluateAnalysisEligibility, List.isEmpty_iff, commonReasons, failing_eq_nil]

theorem placement_allowed :
    (evaluatePlacementEligibility input).allowed = true ↔
      (∀ check ∈ commonChecks input, check.1 = true) ∧
        (∀ check ∈ placementChecks input, check.1 = true) ∧
        (input.tradingMode = .live → ∀ check ∈ liveChecks input, check.1 = true) := by
  rw [evaluatePlacementEligibility, List.isEmpty_iff, placementReasons, List.append_eq_nil_iff,
    List.append_eq_nil_iff, commonReasons, failing_eq_nil, failing_eq_nil, and_assoc]
  refine and_congr_right fun _ => and_congr_right fun _ => ?_
  by_cases hlive : input.tradingMode = .live
  · simp [hlive, failing_eq_nil]
  · simp [hlive]

end

/-- Reasons that are there stay there. -/
theorem reasonSet_ne_nil {reasons : List String} (h : reasons ≠ []) : reasonSet reasons ≠ [] := by
  obtain ⟨reason, hreason⟩ := List.exists_mem_of_ne_nil _ h
  intro hnil
  have hmem : reason ∈ reasonSet reasons :=
    List.mem_mergeSort.mpr (List.mem_eraseDups.mpr hreason)
  rw [hnil] at hmem
  exact absurd hmem List.not_mem_nil

end ScalpingBot.Coordinator
