import ScalpingBot.Coordinator.Steps

/-! The parts of a cycle one after the other: what each of them keeps, what the parts before the order
    find out, and in which ways `runOnce` ends. -/

namespace ScalpingBot.Coordinator

open Program (recollect remember Triple Record)
open Risk (OcoEvaluation)

variable {W : Wire} {α β : Type} (o : CoordinatorOptions) (fn : Functions W) (env : Environment W)
  {kinds : List Kind} {q q' : AnalysisState} {F G : List (Event W) → Prop}

/-! ### The steps of a cycle -/

theorem whenever_moves {condition : Prop} [Decidable condition] {m : Process W Unit}
    (hm : condition → Moves o kinds q q m) : Moves o kinds q q (whenever condition m) :=
  Moves.ite hm fun _ => Moves.pure

theorem computed_moves {e : Except String α} : Moves o kinds q q (computed env e) := by
  cases e with
  | ok a => exact Moves.pure
  | error message => exact refuse_moves o env

theorem beforeAnalysis_moves : Moves o [.beforeAnalysis] q q (beforeAnalysis o env) :=
  whenever_moves o fun _ => ask_moves o env rfl rfl

theorem sessionOpen_moves {scope : String} :
    Moves o [.marketSession, .validation] q q (sessionOpen o env scope) := by
  refine whenever_moves o fun _ => ?_
  refine Moves.bind (ask_moves o env rfl rfl) fun session => ?_
  refine validation_moves o env (by decide) (fun _ => demand_moves o env) fun h => ?_
  rw [demand, h]
  exact refuse_leaves o env

theorem spreadApproved_moves {snapshot : MarketSnapshot W} {atr : Decimal} {scope : Option String} :
    Moves o [.spreadContext, .validation] q q (spreadApproved o fn env snapshot atr scope) := by
  refine Moves.bind (r := q) ?_ fun context => validated_moves o env (by decide)
  exact Moves.ite (fun _ => Moves.pure) fun _ => ask_moves o env rfl rfl

/-- The refreshed snapshot is the latest one. -/
theorem refreshed_rule {earlier : MarketSnapshot W} {atr : Decimal} {phase : RefreshPhase}
    {unavailable : Process W (MarketSnapshot W)} {contextScope spreadScope : Option String}
    (hunavailable : Triple (Holds o q fun _ => True) unavailable (fun _ _ => False) (Left o))
    (hF : Kept [.snapshot, .validation, .decisionMarket, .spreadContext] F) :
    Triple (Holds o q F) (refreshed o fn env earlier atr phase unavailable contextScope spreadScope)
      (fun snapshot => Holds o q fun trace => F trace ∧
        Latest kindOf trace ⟨.snapshot, .ok snapshot⟩) (Left o) := by
  refine Triple.bind (catching_rule o env rfl rfl hF fun _ => hunavailable)
    fun snapshot => ?_
  have hknown : Kept [.validation, .decisionMarket, .spreadContext] fun trace => F trace ∧
      Latest kindOf trace ⟨.snapshot, .ok snapshot⟩ :=
    (hF.subset (by decide)).and (kept_latest (by simp [kindOf, Call.kind]))
  refine Triple.bind (whenever_moves o (fun _ => invalidated_moves o env (by decide)) _ hknown)
    fun _ => ?_
  refine Triple.bind (ask_moves o env rfl rfl _ hknown) fun _ => ?_
  refine Triple.bind ((spreadApproved_moves o fn env).subset (by decide) _ hknown) fun _ => ?_
  exact Triple.pure fun _ hs => hs

theorem refreshed_moves {earlier : MarketSnapshot W} {atr : Decimal} {phase : RefreshPhase}
    {unavailable : Process W (MarketSnapshot W)} {contextScope spreadScope : Option String}
    (hunavailable : Triple (Holds o q fun _ => True) unavailable (fun _ _ => False) (Left o)) :
    Moves o [.snapshot, .validation, .decisionMarket, .spreadContext] q q
      (refreshed o fn env earlier atr phase unavailable contextScope spreadScope) :=
  fun _ hF => (refreshed_rule o fn env hunavailable hF).mono (fun _ h => h)
    (fun _ _ h => h.mono And.left) fun _ _ h => h

theorem affordableStop_moves {account : AccountState} {snapshot : MarketSnapshot W}
    {scope : String} :
    Moves o [.proposalConstraints, .validation] q q (affordableStop env account snapshot scope) := by
  refine Moves.bind (ask_moves o env rfl rfl) fun constraints => ?_
  refine validation_moves o env (by decide) (fun _ => ?_) fun h => ?_
  · rw [affordable]
    split
    · exact Moves.pure
    · exact refuse_moves o env
  · rw [affordable, h]
    exact refuse_leaves o env

theorem proposalValid_moves {model : ModelAnswer W} {context : SemanticContext W}
    {current : MarketSnapshot W} {phase : RefreshPhase} {scope : String} :
    Moves o [.validation] q q (proposalValid o fn env model context current phase scope) := by
  refine whenever_moves o fun _ => ?_
  refine Moves.bind Moves.compute fun semantic => ?_
  refine validation_moves o env (by decide) (fun h => ?_) fun h => ?_
  · exact whenever_moves o fun h' => absurd h (by simp [h'])
  · rw [whenever, if_pos h]
    refine Triple.bind (Q := fun _ => Holds o q fun _ => True) ?_ fun _ => refuse_leaves o env
    have hretire : Moves o ordinary q q
        (retireUnusableEntries o env model semantic.reasonCodes current phase) := by
      rw [retireUnusableEntries]
      split
      · refine whenever_moves o fun _ => ?_
        exact Moves.bind (ask_moves o env rfl rfl) fun _ => Moves.pure
      · exact Moves.pure
    exact hretire _ fun _ _ _ _ _ => trivial

/-! ### Until the model has answered -/

/-- The kinds of calls until the risk is evaluated. -/
def early : List Kind := .transition :: .validation :: ordinary

theorem openCycle_moves : Moves o early .pending .pending (openCycle o env) := by
  refine Moves.bind (ask_moves o env rfl rfl) fun initialSafety => ?_
  refine Moves.bind (ask_moves o env rfl rfl) fun circuitOpen => ?_
  refine Moves.bind (demand_moves o env) fun _ => ?_
  refine Moves.bind (whenever_moves o fun _ => ?_) fun _ => ?_
  · exact Moves.bind (ask_moves o env rfl rfl) fun _ => demand_moves o env
  refine Moves.bind ((beforeAnalysis_moves o env).subset (by decide)) fun _ => ?_
  refine Moves.bind (ask_moves o env rfl rfl) fun _ => ?_
  exact fun F _ => Triple.remember fun s hs =>
    ⟨⟨hs.settled.lawful, hs.settled.traced, hs.settled.unaccepted⟩, hs.machine, hs.unplaced, hs.known⟩

theorem analyzed_moves {snapshot : MarketSnapshot W} :
    Moves o early q q (analyzed o env snapshot) := by
  refine Moves.ite (fun _ => Moves.ite (fun _ => Moves.throw) fun _ => ?_) fun _ => ?_
  · refine Moves.bind (ask_moves o env rfl rfl) fun analytics => ?_
    exact Moves.bind (whenever_moves o fun _ => Moves.throw) fun _ => Moves.pure
  · exact ask_moves o env rfl rfl

theorem collect_moves : Moves o early .pending .collecting (collect o fn env) := by
  refine Moves.bind (record_moves o env (by decide) (by decide)) fun _ => ?_
  refine Moves.bind (ask_moves o env rfl rfl) fun snapshot => ?_
  refine Moves.bind (ask_moves o env rfl rfl) fun _ => ?_
  refine Moves.bind (analyzed_moves o env) fun analytics => ?_
  refine Moves.bind (ask_moves o env rfl rfl) fun _ => ?_
  refine Moves.bind (demand_moves o env) fun _ => Moves.bind (demand_moves o env) fun _ => ?_
  refine Moves.bind Moves.compute fun atr => ?_
  refine Moves.bind (Moves.ite (fun _ => Moves.compute) fun _ => Moves.pure) fun trend => ?_
  exact Moves.bind ((spreadApproved_moves o fn env).subset (by decide)) fun _ => Moves.pure

theorem constrain_moves {c : Collected W} :
    Moves o early .collecting .collecting (constrain o fn env c) := by
  refine Moves.bind Moves.compute fun minimumStopDistance => ?_
  refine Moves.bind (ask_moves o env rfl rfl) fun account => ?_
  refine Moves.bind ((affordableStop_moves o env).subset (by decide)) fun maxAffordable => ?_
  refine Moves.bind Moves.compute fun maximum => ?_
  refine Moves.bind (whenever_moves o fun _ => invalidated_moves o env (by decide)) fun _ => ?_
  refine Moves.bind (r := .collecting) (Moves.ite (fun _ => ?_) fun _ => Moves.pure)
    fun preModelSnapshot => ?_
  · exact (refreshed_moves o fn env (refuse_leaves o env)).subset (by decide)
  exact Moves.bind (Moves.ite (fun _ => computed_moves o env) fun _ => Moves.pure)
    fun _ => Moves.pure

theorem feeBuffered_moves {bounds : Model.ModelExecutionBounds} {k : Constrained W} :
    Moves o early q q (feeBuffered fn env bounds k) := by
  refine Moves.bind Moves.compute fun distances => ?_
  refine validation_moves o env (by decide) (fun _ => ?_) fun h => ?_
  · refine Moves.bind (r := q) ?_ fun stopLoss => ?_
    · rw [requiredStop]
      split
      · exact Moves.pure
      · exact refuse_moves o env
    refine Moves.bind Moves.compute fun minimum => Moves.bind Moves.compute fun maximum => ?_
    exact Moves.bind (demand_moves o env) fun _ => Moves.pure
  · refine Triple.bind (Q := fun _ _ => False) ?_ fun _ => fun _ hfalse => hfalse.elim
    rw [requiredStop, h]
    exact refuse_leaves o env

theorem prepared_moves {snapshot : MarketSnapshot W} {chart : Option W.Chart}
    {payload : W.Payload} :
    Moves o early .featured .featured (prepared o env snapshot chart payload) := by
  refine whenever_moves o fun _ => ?_
  refine Moves.bind (ask_moves o env rfl rfl) fun waiting => ?_
  cases waiting with
  | none => exact Moves.pure
  | some reason =>
    refine Moves.bind (r := .deferred) (record_moves o env (by decide) (by decide)) fun _ => ?_
    refine fun F _ => Triple.exit fun s hs => ⟨hs.settled, unreported_of_unplaced hs.unplaced, ?_⟩
    rintro result heq
    cases heq
    exact ⟨fun _ => by rw [hs.machine]; rfl, by simp⟩

theorem feature_moves {c : Collected W} {k : Constrained W} :
    Moves o early .collecting .featured (feature o fn env c k) := by
  refine Moves.bind (record_moves o env (by decide) (by decide)) fun _ => ?_
  refine Moves.bind (ask_moves o env rfl rfl) fun performance => ?_
  refine Moves.bind (computed_moves o env) fun bounds => ?_
  refine Moves.bind (feeBuffered_moves o fn env) fun buffered => ?_
  refine Moves.bind Moves.compute fun payload => ?_
  refine Moves.bind ((beforeAnalysis_moves o env).subset (by decide)) fun _ => ?_
  refine Moves.bind ((sessionOpen_moves o env).subset (by decide)) fun _ => ?_
  refine Moves.bind (whenever_moves o fun _ => ?_) fun _ => ?_
  · exact Moves.bind (ask_moves o env rfl rfl) fun _ =>
      validated_moves o env (by decide)
  exact Moves.bind (prepared_moves o env) fun _ => Moves.pure

theorem askModel_moves {c : Collected W} {k : Constrained W} {f : Featured W} :
    Moves o early .featured .modelPending (askModel o env c k f) := by
  refine Moves.bind (record_moves o env (by decide) (by decide)) fun _ => ?_
  refine Moves.bind (catching_moves o env rfl rfl fun failure => ?_)
    fun model => ?_
  · refine Triple.bind (Q := fun _ => Holds o .modelPending fun _ => True) ?_
      fun _ => Triple.exit fun s hs => hs.left
    have hfailure : Moves o early .modelPending .modelPending
        (whenever o.hasModelFailure (ask env (.modelFailure (modelFailureReason failure)))) :=
      whenever_moves o fun _ => ask_moves o env rfl rfl
    exact hfailure _ fun _ _ _ _ _ => trivial
  refine Moves.bind (demand_moves o env) fun _ => ?_
  exact Moves.bind (ask_moves o env rfl rfl) fun _ => Moves.pure

theorem transform_moves {model : ModelAnswer W} {snapshot : MarketSnapshot W}
    {atr minimumStopDistance maximum : Decimal} : Moves o early q q
      (transform o fn env model snapshot atr minimumStopDistance maximum) := by
  refine Moves.ite (fun _ => ?_) fun _ => Moves.ite (fun _ => ?_) fun _ =>
    Moves.ite (fun _ => Moves.compute) fun _ => Moves.ite (fun _ => Moves.compute) fun _ =>
      Moves.compute
  · exact ask_moves o env rfl rfl
  · exact ask_moves o env rfl rfl

theorem validating_moves {c : Collected W} {k : Constrained W} {f : Featured W}
    {model : ModelAnswer W} :
    Moves o early .modelPending .validating (validating o fn env c k f model) := by
  refine Moves.bind (record_moves o env (by decide) (by decide)) fun _ => ?_
  refine Moves.bind ((refreshed_moves o fn env (refuse_leaves o env)).subset (by decide))
    fun snapshot => ?_
  refine Moves.bind (ask_moves o env rfl rfl) fun account => ?_
  refine Moves.bind ((affordableStop_moves o env).subset (by decide)) fun maxAffordable => ?_
  refine Moves.bind (ask_moves o env rfl rfl) fun now => ?_
  refine Moves.bind (demand_moves o env) fun _ => Moves.bind Moves.compute fun adjustment => ?_
  refine Moves.bind ((proposalValid_moves o fn env).subset (by decide)) fun _ => ?_
  refine Moves.bind Moves.compute fun maximum => ?_
  refine Moves.bind (transform_moves o fn env) fun transformed => ?_
  refine validation_moves o env (by decide) (fun _ => ?_) fun h => ?_
  · refine Moves.bind (r := .validating) ?_ fun response => ?_
    · rw [transformedResponse]
      split
      · exact Moves.pure
      · exact refuse_moves o env
    refine Moves.bind (Moves.ite (fun _ => Moves.compute) fun _ => Moves.pure) fun effective => ?_
    exact Moves.bind (validated_moves o env (by decide)) fun _ => Moves.pure
  · refine Triple.bind (Q := fun _ _ => False) ?_ fun _ => fun _ hfalse => hfalse.elim
    rw [transformedResponse, h]
    exact refuse_leaves o env

/-! ### The order -/

theorem approvedCommands_moves {risk : OcoEvaluation} :
    Moves o kinds q q (approvedCommands env risk : Process W _) := by
  rw [approvedCommands]
  split
  · exact Moves.pure
  · exact refuse_moves o env

theorem commissionCoverage_moves {commands : List PendingOrderCommand}
    {metadata : SymbolMetadata} :
    Moves o [.commandFeeCheck] q q (commissionCoverage o env commands metadata) :=
  Moves.ite (fun _ => ask_moves o env rfl rfl) fun _ => Moves.pure

/-- The evaluation whose orders are executable is the evaluator's latest answer. -/
theorem size_rule {c : Collected W} {model : ModelAnswer W} {d : Decided W}
    (hF : Kept [.evaluate, .validation, .commandFeeCheck] F) :
    Triple (Holds o q F) (size o env c model d)
      (fun sized => Holds o q fun trace => F trace ∧ Evaluated sized.1 trace ∧
        sized.1.approved = true) (Left o) := by
  refine Triple.bind (ask_latest o env rfl rfl hF) fun (risk : OcoEvaluation) => ?_
  have hknown : Kept [.validation, .commandFeeCheck] fun trace => F trace ∧
      Latest kindOf trace ⟨.evaluate d.response d.account d.snapshot.metadata d.snapshot.quote
        c.trendDirection model.entrySide, .ok risk⟩ :=
    (hF.subset (by decide)).and (kept_latest (by simp [kindOf, Call.kind]))
  refine validation_rule o env (hknown.subset (by decide)) (fun happroved => ?_) fun hrejected => ?_
  · refine Triple.bind (approvedCommands_moves o env _ hknown) fun commands => ?_
    refine Triple.bind (demand_moves o env _ hknown) fun _ => ?_
    refine Triple.bind ((commissionCoverage_moves o env).subset (by decide) _ hknown)
      fun coverage => ?_
    refine Triple.bind (validated_moves o env (by decide) _ hknown) fun _ => Triple.pure ?_
    exact fun s hs => hs.mono fun h => ⟨h.1, ⟨_, _, _, _, _, _, h.2⟩, happroved⟩
  · refine Triple.bind (Q := fun _ _ => False) ?_ fun _ => fun _ hfalse => hfalse.elim
    rw [approvedCommands, hrejected]
    exact refuse_leaves o env

/-- What the last gate looks at are the latest answers. -/
theorem confirm_rule {c : Collected W} {model : ModelAnswer W} {d : Decided W}
    {commands : List PendingOrderCommand}
    (hF : Kept [.safety, .reconcile, .proposalConstraints, .validation, .snapshot, .decisionMarket,
      .spreadContext, .now, .commandFeeCheck] F) :
    Triple (Holds o q F) (confirm o fn env c model d commands)
      (fun confirmed => Holds o q fun trace => ((F trace ∧
        Latest kindOf trace ⟨.safety, .ok confirmed.safety⟩) ∧
        Latest kindOf trace ⟨.reconcile d.snapshot.metadata.symbolId, .ok confirmed.account⟩) ∧
        Latest kindOf trace ⟨.snapshot, .ok confirmed.snapshot⟩) (Left o) := by
  refine Triple.bind (ask_latest o env rfl rfl hF)
    fun (safety : SafetyGateInput) => ?_
  have hsafety : Kept [.reconcile, .proposalConstraints, .validation, .snapshot, .decisionMarket,
      .spreadContext, .now, .commandFeeCheck] fun trace => F trace ∧
      Latest kindOf trace ⟨.safety, .ok safety⟩ :=
    (hF.subset (by decide)).and (kept_latest (by simp [kindOf, Call.kind]))
  refine Triple.bind (ask_latest o env rfl rfl hsafety)
    fun (account : AccountState) => ?_
  have haccount : Kept [.proposalConstraints, .validation, .snapshot, .decisionMarket,
      .spreadContext, .now, .commandFeeCheck] fun trace => (F trace ∧
      Latest kindOf trace ⟨.safety, .ok safety⟩) ∧
      Latest kindOf trace ⟨.reconcile d.snapshot.metadata.symbolId, .ok account⟩ :=
    (hsafety.subset (by decide)).and (kept_latest (by simp [kindOf, Call.kind]))
  refine Triple.bind ((affordableStop_moves o env).subset (by decide) _ haccount)
    fun maxAffordable => ?_
  refine Triple.bind (whenever_moves o (fun _ => invalidated_moves o env (by decide)) _ haccount)
    fun _ => ?_
  refine Triple.bind (refreshed_rule o fn env (invalidated_leaves o env fun _ _ _ _ _ => trivial)
    (haccount.subset (by decide))) fun snapshot => ?_
  have hknown : Kept [.validation, .now, .commandFeeCheck] fun trace => ((F trace ∧
      Latest kindOf trace ⟨.safety, .ok safety⟩) ∧
      Latest kindOf trace ⟨.reconcile d.snapshot.metadata.symbolId, .ok account⟩) ∧
      Latest kindOf trace ⟨.snapshot, .ok snapshot⟩ :=
    (haccount.subset (by decide)).and (kept_latest (by simp [kindOf, Call.kind]))
  refine Triple.bind (ask_moves o env rfl rfl _ hknown) fun now => ?_
  refine Triple.bind ((proposalValid_moves o fn env).subset (by decide) _ hknown) fun _ => ?_
  refine Triple.bind (whenever_moves o (fun _ => ?_) _ hknown) fun _ => ?_
  · exact Moves.bind (ask_moves o env rfl rfl) fun _ => validated_moves o env (by decide)
  refine Triple.bind (whenever_moves o (fun _ => ?_) _ hknown) fun _ => Triple.pure fun _ hs => hs
  exact Moves.bind Moves.compute fun _ => validated_moves o env (by decide)

theorem capitalUnchanged_moves {risk : OcoEvaluation} :
    Moves o [.currentSetupRiskPercent] q q (capitalUnchanged o env risk) := by
  rw [capitalUnchanged]
  split
  · refine Moves.bind (ask_moves o env rfl rfl) fun current => ?_
    exact Moves.bind Moves.compute fun _ => Moves.bind Moves.compute fun _ => demand_moves o env
  · exact Moves.pure

/-- Calls of other kinds leave the last gate open. -/
theorem kept_gated (h : ∀ k ∈ [Kind.safety, .reconcile, .placementControls, .circuitOpen, .snapshot],
    k ∉ kinds) : Kept kinds (Gated o (W := W)) := by
  rintro trace e hkind haccepted ⟨safety, symbolId, account, controls, circuitOpen, snapshot,
    quoteNow, bookNow, hsafety, haccount, hcontrols, hcircuit, hquote, hbook, hallowed⟩
  refine ⟨safety, symbolId, account, controls, circuitOpen, snapshot, quoteNow, bookNow, ?_, ?_, ?_,
    ?_, ?_, ?_, hallowed⟩
  · exact kept_latest (h .safety (by decide)) trace e hkind haccepted hsafety
  · exact kept_latest (h .reconcile (by decide)) trace e hkind haccepted haccount
  · exact kept_latest (h .placementControls (by decide)) trace e hkind haccepted hcontrols
  · exact kept_latest (h .circuitOpen (by decide)) trace e hkind haccepted hcircuit
  · exact kept_since (h .snapshot (by decide)) trace e hkind haccepted hquote
  · exact kept_since (h .snapshot (by decide)) trace e hkind haccepted hbook

theorem sessionOpen_rule {scope : String} (hF : Kept [.marketSession, .validation] F) :
    Triple (Holds o q F) (sessionOpen o env scope)
      (fun _ => Holds o q fun trace => F trace ∧ InSession o trace) (Left o) := by
  refine Triple.ite (fun _ => ?_) fun hnone => ?_
  · refine Triple.bind (ask_latest o env rfl rfl hF)
      fun (session : MarketSessionStatus) => ?_
    have hknown : Kept [.validation] fun trace => F trace ∧
        Latest kindOf trace ⟨.marketSession, .ok session⟩ :=
      (hF.subset (by decide)).and (kept_latest (by simp [kindOf, Call.kind]))
    refine validation_rule o env hknown (fun hopen => ?_) fun hclosed => ?_
    · rw [demand, if_pos hopen]
      exact Triple.pure fun s hs => hs.mono fun h => ⟨h.1, fun _ => ⟨session, h.2, hopen⟩⟩
    · rw [demand, hclosed]
      exact refuse_leaves o env
  · exact Triple.pure fun s hs => hs.mono fun h => ⟨h, fun hsome => absurd hsome hnone⟩

/-- After the last gate everything has been answered as it has to be. -/
theorem authorize_rule {risk : OcoEvaluation} {confirmed : Confirmed W} {symbolId : String}
    (hF : Kept [.placementControls, .currentSetupRiskPercent, .now, .circuitOpen, .validation,
      .beforeAnalysis, .marketSession] F) :
    Triple (Holds o q fun trace => ((F trace ∧
        Latest kindOf trace ⟨.safety, .ok confirmed.safety⟩) ∧
        Latest kindOf trace ⟨.reconcile symbolId, .ok confirmed.account⟩) ∧
        Latest kindOf trace ⟨.snapshot, .ok confirmed.snapshot⟩)
      (authorize o env risk confirmed)
      (fun _ => Holds o q fun trace => (F trace ∧ Gated o trace) ∧ InSession o trace) (Left o) := by
  have hconfirmed : Kept [.placementControls, .currentSetupRiskPercent, .now, .circuitOpen,
      .validation] fun trace => ((F trace ∧
      Latest kindOf trace ⟨.safety, .ok confirmed.safety⟩) ∧
      Latest kindOf trace ⟨.reconcile symbolId, .ok confirmed.account⟩) ∧
      Latest kindOf trace ⟨.snapshot, .ok confirmed.snapshot⟩ :=
    (((hF.subset (by decide)).and (kept_latest (by simp [kindOf, Call.kind]))).and
      (kept_latest (by simp [kindOf, Call.kind]))).and (kept_latest (by simp [kindOf, Call.kind]))
  refine Triple.bind (ask_latest o env rfl rfl hconfirmed)
    fun (controls : PlacementControls) => ?_
  have hcontrols := (hconfirmed.subset (K := [.currentSetupRiskPercent, .now, .circuitOpen,
    .validation]) (by decide)).and (kept_latest (e := ⟨.placementControls, .ok controls⟩)
      (by simp [kindOf, Call.kind]))
  refine Triple.bind ((capitalUnchanged_moves o env).subset (by decide) _ hcontrols) fun _ => ?_
  refine Triple.bind (ask_since o env rfl rfl hcontrols (fun _ h => h.1.2)
    (by simp [kindOf, Call.kind])) fun (quoteNow : ℕ) => ?_
  have hquote := (hcontrols.subset (K := [.now, .circuitOpen, .validation]) (by decide)).and
    (kept_since (e := ⟨.snapshot, .ok confirmed.snapshot⟩) (r := ⟨.now, .ok quoteNow⟩)
      (by simp [kindOf, Call.kind]))
  refine Triple.bind (ask_since o env rfl rfl hquote (fun _ h => h.1.1.2)
    (by simp [kindOf, Call.kind])) fun (bookNow : ℕ) => ?_
  have hbook := (hquote.subset (K := [.circuitOpen, .validation]) (by decide)).and
    (kept_since (e := ⟨.snapshot, .ok confirmed.snapshot⟩) (r := ⟨.now, .ok bookNow⟩)
      (by simp [kindOf, Call.kind]))
  refine Triple.bind (ask_latest o env rfl rfl hbook)
    fun (circuitOpen : Bool) => ?_
  have hcircuit := (hbook.subset (K := [.validation]) (by decide)).and
    (kept_latest (e := ⟨.circuitOpen, .ok circuitOpen⟩) (by simp [kindOf, Call.kind]))
  refine Triple.bind (validated_rule o env hcircuit) fun _ => ?_
  have hgated : Kept [.beforeAnalysis, .marketSession, .validation]
      fun trace => F trace ∧ Gated o trace :=
    (hF.subset (by decide)).and (kept_gated o (by decide))
  refine Triple.bind (Q := fun _ => Holds o q fun trace => F trace ∧ Gated o trace) ?_ fun _ => ?_
  · refine Triple.mono ((beforeAnalysis_moves o env).subset (by decide) _ hgated) ?_
      (fun _ _ h => h) fun _ _ h => h
    refine fun s hs => hs.mono ?_
    rintro ⟨⟨⟨⟨⟨⟨⟨⟨hknown, hsafety⟩, haccount⟩, -⟩, hcontrols⟩, hquote⟩, hbook⟩, hcircuit⟩, hallowed⟩
    exact ⟨hknown, _, _, _, _, _, _, _, _, hsafety, haccount, hcontrols, hcircuit, hquote, hbook,
      hallowed⟩
  refine Triple.bind (sessionOpen_rule o env (hgated.subset (by decide))) fun _ => ?_
  exact (show Moves o [] _ _ (demand env _ _) from demand_moves o env) _
    fun _ _ hkind => absurd hkind List.not_mem_nil

/-! ### The placement -/

/-- The orders are sent; whatever the gateway has answered is the answer to them. -/
structure Sent (o : CoordinatorOptions) (placement : OcoPlacementResult) (s : State W) : Prop where
  settled : Settled o s
  machine : s.memory.machine = .validating
  answered : ∃ e ∈ s.trace, placementOf e = some placement
  only : ∀ e ∈ s.trace, ∀ answer, placementOf e = some answer → answer = placement

variable {placement : OcoPlacementResult}

theorem intended_rule {risk : OcoEvaluation} :
    Triple (Holds o .validating (MayPlace o risk)) (ask env (.intent risk))
      (fun _ => Holds o .validating (Intended o risk)) (Left o) := by
  refine Triple.perform (fun s v hs => ?_) fun s failure hs => ?_
  · exact hs.called hs.known (by simp [kindOf, Call.kind]) (by simp [kindOf, Call.kind])
      ⟨s.trace, rfl, hs.known⟩
  · exact hs.called_left hs.known (by simp [kindOf, Call.kind]) (by simp [kindOf, Call.kind])

/-- In a trace without earlier orders only the last call is answered by the gateway. -/
theorem answered_last {trace : List (Event W)} {e : Event W} (h : Unplaced trace) :
    ∀ x ∈ trace ++ [e], ∀ answer, placementOf x = some answer → x = e := by
  intro x hx answer hanswer
  rcases List.mem_append.mp hx with hx | hx
  · have hplaced := h x hx
    rcases x with ⟨c, answer'⟩
    cases c <;> first | exact absurd rfl hplaced | cases hanswer
  · exact List.mem_singleton.mp hx

theorem ask_place_rule {c : Call W} (answerOf : Answer c → OcoPlacementResult)
    (hkind : c.kind = .place)
    (hrule : ∀ s, Holds o .validating F s → ∀ answer, CallRule o s.trace ⟨c, answer⟩)
    (hok : ∀ v, placementOf ⟨c, .ok v⟩ = some (answerOf v))
    (herror : ∀ failure, placementOf ⟨c, .error failure⟩ = none) :
    Triple (Holds o .validating F) (ask env c) (fun v => Sent o (answerOf v)) (Left o) := by
  have htransition : c.kind ≠ .transition := by simp [hkind]
  refine Triple.perform (fun s v hs => ?_) fun s failure hs => ?_
  · refine ⟨hs.settled.called (hrule s hs _) htransition, hs.machine, ⟨_, by simp, hok v⟩, ?_⟩
    intro x hx answer hanswer
    rw [answered_last hs.unplaced x hx answer hanswer, hok] at hanswer
    exact (Option.some.inj hanswer).symm
  · refine ⟨hs.settled.called (hrule s hs _) htransition, ?_, by simp⟩
    intro x hx answer hanswer
    rw [answered_last hs.unplaced x hx answer hanswer, herror] at hanswer
    cases hanswer

/-- The gateway is asked for the intended orders. -/
theorem place_rule {risk : OcoEvaluation} :
    Triple (Holds o .validating (Intended o risk)) (place env risk) (fun placement => Sent o placement)
      (Left o) := by
  rw [place]
  split
  · next _ command hcommand =>
    exact ask_place_rule o env (c := .placeDirectional command) id rfl
      (fun s hs _ => ⟨risk, hs.known, hcommand⟩) (fun _ => rfl) fun _ => rfl
  · next commands hnone hcommands =>
    exact ask_place_rule o env (c := .placeOco commands) id rfl
      (fun s hs _ => ⟨risk, hs.known, hnone, hcommands⟩) (fun _ => rfl) fun _ => rfl
  · exact Triple.exit fun s hs => hs.left

/-- A record after the orders: when it fails, they stay unreported. -/
theorem ask_sent_rule {c : Call W} (htransition : c.kind ≠ .transition) (hplace : c.kind ≠ .place)
    (hrule : ∀ before answer, CallRule o before ⟨c, answer⟩)
    (herror : ∀ failure, Unrecorded ⟨c, .error failure⟩) {K : List (Event W) → Prop}
    (hK : ∀ trace v, K trace → K (trace ++ [⟨c, .ok v⟩])) :
    Triple (fun s => Sent o placement s ∧ K s.trace) (ask env c)
      (fun v s => Sent o placement s ∧ K s.trace ∧ ⟨c, .ok v⟩ ∈ s.trace) (Left o) := by
  refine Triple.perform (fun s v hs => ?_) fun s failure hs => ?_
  · obtain ⟨⟨hsettled, hmachine, ⟨e, he, hanswered⟩, honly⟩, hknown⟩ := hs
    refine ⟨⟨hsettled.called (hrule _ _) htransition, hmachine, ⟨e, by simp [he], hanswered⟩, ?_⟩,
      hK _ _ hknown, by simp⟩
    intro x hx answer hanswer
    rcases List.mem_append.mp hx with hx | hx
    · exact honly x hx answer hanswer
    · rw [List.mem_singleton.mp hx] at hanswer
      cases c <;> first | exact absurd rfl hplace | cases hanswer
  · refine ⟨hs.1.settled.called (hrule _ _) htransition, ?_, by simp⟩
    exact fun x hx answer hanswer => .inr ⟨⟨c, .error failure⟩, by simp, herror failure⟩

/-- The whole of a reported placement: the gateway's answer, its records, and the acceptance. -/
structure Reported (o : CoordinatorOptions) (placement : OcoPlacementResult)
    (trace : List (Event W)) : Prop where
  answered : ∃ e ∈ trace, placementOf e = some placement
  placed : ⟨.placement placement, .ok ()⟩ ∈ trace
  flushed : o.hasFlushExecutionEvents = true → ⟨.flushExecutionEvents, .ok ()⟩ ∈ trace
  inSession : sessionRejections placement = []
  accepted : ∃ event, ⟨.transition event, .ok ()⟩ ∈ trace ∧ event.target = .accepted

/-- What a cycle ends with that has sent its orders. -/
structure Placed (o : CoordinatorOptions) (result : CycleResult) (s : State W) : Prop where
  lawful : Lawful (CallRule o) s.trace
  traced : machineAfter s.trace = s.memory.machine
  machine : s.memory.machine = .accepted
  outcome : result.outcome = .placed
  reported : ∃ placement, result.placement = some placement ∧ Reported o placement s.trace

/-- Whether everything between the gateway's answer and the acceptance is done. -/
def Accountable (o : CoordinatorOptions) (placement : OcoPlacementResult)
    (trace : List (Event W)) : Prop :=
  ⟨.placement placement, .ok ()⟩ ∈ trace ∧
    (o.hasFlushExecutionEvents = true → ⟨.flushExecutionEvents, .ok ()⟩ ∈ trace) ∧
    sessionRejections placement = []

theorem accepted_rule :
    Triple (fun s => Sent o placement s ∧ Accountable o placement s.trace)
      (recordTransition env .accepted) (fun _ => Placed o ⟨.placed, [], some placement⟩)
      (Left o) := by
  refine record_rule env (fun s failure hs hnot => ?_) (fun s event hs hsource htarget hmem => ?_)
    fun s event failure hs hsource htarget hmem => ?_
  · rw [hs.1.machine] at hnot
    exact absurd (hnot (by decide)).1 (by decide)
  · obtain ⟨⟨hsettled, -, ⟨e, he, hanswered⟩, -⟩, hplaced, hflushed, hsession⟩ := hs
    refine ⟨hsettled.lawful.snoc ⟨hsource.trans hsettled.traced.symm, hsource ▸ htarget ▸ hmem⟩, ?_,
      htarget, rfl, placement, rfl, ⟨e, List.mem_append_left _ he, hanswered⟩,
      List.mem_append_left _ hplaced, fun h => List.mem_append_left _ (hflushed h), hsession,
      event, List.mem_append_right _ (List.mem_singleton.mpr rfl), htarget⟩
    rw [recorded, Record.called_trace, machineAfter, List.foldl_concat]
    rfl
  · refine ⟨hs.1.settled.recorded hsource (htarget ▸ hmem) (by simp), ?_, by simp⟩
    exact fun x hx answer hanswer => .inr ⟨⟨.transition event, .error failure⟩,
      List.mem_append_right _ (List.mem_singleton.mpr rfl), htarget⟩

/-- A closed session, or a failing record, leaves the orders unreported; otherwise they are
    reported. -/
theorem dispatch_rule {risk : OcoEvaluation} :
    Triple (Holds o .validating (MayPlace o risk)) (dispatch o env risk) (Placed o) (Left o) := by
  refine Triple.bind (intended_rule o env) fun _ => ?_
  refine Triple.bind (place_rule o env) fun placement => ?_
  refine Triple.bind (Q := fun _ s => Sent o placement s ∧ ⟨.placement placement, .ok ()⟩ ∈ s.trace)
    ?_ fun _ => ?_
  · exact (ask_sent_rule o env (c := .placement placement) (K := fun _ => True)
      (by simp [Call.kind]) (by simp [Call.kind]) (fun _ _ => trivial) (fun _ => trivial) fun _ _ h => h).mono (fun s hs => ⟨hs, trivial⟩)
      (fun _ s hs => ⟨hs.1, hs.2.2⟩) fun _ _ h => h
  refine Triple.bind (Q := fun _ s => Sent o placement s ∧ ⟨.placement placement, .ok ()⟩ ∈ s.trace ∧
    (o.hasFlushExecutionEvents = true → ⟨.flushExecutionEvents, .ok ()⟩ ∈ s.trace)) ?_ fun _ => ?_
  · refine Triple.ite (fun _ => ?_) fun hnone => Triple.pure fun s hs =>
      ⟨hs.1, hs.2, fun h => absurd h hnone⟩
    refine (ask_sent_rule o env (c := .flushExecutionEvents)
      (K := fun trace => ⟨.placement placement, .ok ()⟩ ∈ trace)
      (by simp [Call.kind]) (by simp [Call.kind]) (fun _ _ => trivial) (fun _ => trivial)
      fun _ _ h => List.mem_append_left _ h).mono (fun _ h => h)
      (fun _ s hs => ⟨hs.1, hs.2.1, fun _ => hs.2.2⟩) fun _ _ h => h
  refine Triple.bind (Q := fun _ s => Sent o placement s ∧ Accountable o placement s.trace) ?_
    fun _ => Triple.bind (accepted_rule o env) fun _ => Triple.pure fun _ hs => hs
  refine Triple.ite (fun hclosed => ?_) fun hsession => Triple.pure fun s hs =>
    ⟨hs.1, hs.2.1, hs.2.2, not_not.mp hsession⟩
  refine (refuse_rule o env).mono (fun s hs => ⟨hs.1.settled, ?_⟩) (fun _ _ h => h) fun _ _ h => h
  intro x hx answer hanswer
  exact .inl (hs.1.only x hx answer hanswer ▸ hclosed)

/-! ### The cycle -/

/-- Calls of other kinds leave the evaluator's latest answer. -/
theorem kept_evaluated {risk : OcoEvaluation} (h : .evaluate ∉ kinds) :
    Kept kinds (Evaluated risk (W := W)) := by
  rintro trace e hkind haccepted ⟨response, account, metadata, quote, trend, side, hlatest⟩
  exact ⟨response, account, metadata, quote, trend, side,
    kept_latest h trace e hkind haccepted hlatest⟩

theorem cycle_rule :
    Triple (Holds o .pending Validated) (cycle o fn env) (Placed o) (Left o) := by
  refine Triple.bind (openCycle_moves o env _ kept_validated) fun _ => ?_
  refine Triple.bind (collect_moves o fn env _ kept_validated) fun collected => ?_
  refine Triple.bind (constrain_moves o fn env _ kept_validated) fun constrained => ?_
  refine Triple.bind (feature_moves o fn env _ kept_validated) fun featured => ?_
  refine Triple.bind (askModel_moves o env _ kept_validated) fun model => ?_
  refine Triple.bind (validating_moves o fn env _ kept_validated) fun decided => ?_
  refine Triple.bind (size_rule o env kept_validated) fun sized => ?_
  have hsized : ∀ kinds, .evaluate ∉ kinds → Kept kinds fun trace : List (Event W) =>
      Validated trace ∧ Evaluated sized.1 trace ∧ sized.1.approved = true := by
    intro kinds h
    exact kept_validated.and ((kept_evaluated h).and fun _ _ _ _ happroved => happroved)
  refine Triple.bind (confirm_rule o fn env (hsized _ (by decide))) fun confirmed => ?_
  refine Triple.bind (authorize_rule o env (hsized _ (by decide))) fun _ => ?_
  intro s hs
  refine dispatch_rule o env s ⟨hs.settled, hs.machine, hs.unplaced, ?_⟩
  obtain ⟨⟨⟨hvalidated, hevaluated, happroved⟩, hgated⟩, hsession⟩ := hs.known
  exact ⟨hs.unplaced, hvalidated, hevaluated, happroved, hgated, hsession⟩

/-- What `runOnce` ends with: a result, or an exception of the trail that refuses the rejection. -/
structure Ended (o : CoordinatorOptions) (answer : Except Exit CycleResult) (s : State W) : Prop where
  lawful : Lawful (CallRule o) s.trace
  placed : ∀ result, answer = .ok result → result.outcome = .placed →
    ∃ placement, result.placement = some placement ∧ Reported o placement s.trace
  unplaced : (∀ result, answer = .ok result → result.outcome ≠ .placed) →
    Unaccepted s.trace ∧ Unreported s.trace
  concluded : Concluded s
  refused : ∀ exit, answer = .error exit → Refused s.trace

theorem Refused.terminal {trace : List (Event W)} (h : Refused trace) :
    (machineAfter trace).terminal = true := by
  obtain ⟨before, event, failure, rfl, htarget⟩ := h
  rw [machineAfter, List.foldl_concat]
  show event.target.terminal = true
  rw [htarget]
  rfl

variable {o} in
theorem Placed.ended {result : CycleResult} {s : State W} (h : Placed o result s) :
    Ended o (.ok result) s where
  lawful := h.lawful
  placed := by
    rintro _ ⟨⟩ -
    exact h.reported
  unplaced hnot := absurd h.outcome (hnot result rfl)
  concluded _ := by
    rw [h.machine]
    rfl
  refused := nofun

theorem handled_rule :
    Triple (Holds o .pending Validated) (Program.recover (cycle o fn env) (handle env))
      (fun result => Ended o (.ok result)) (fun exit => Ended o (.error exit)) := by
  refine Triple.recover ((cycle_rule o fn env).mono (fun _ h => h) (fun _ _ h => h.ended)
    fun _ _ h => h) fun exit => ?_
  cases exit with
  | returned result =>
    refine Triple.pure fun s hs => ?_
    obtain ⟨hconcluded, hunplaced⟩ := hs.concluded result rfl
    refine ⟨hs.settled.lawful, ?_, fun _ => ⟨hs.settled.unaccepted, hs.unreported⟩, hconcluded,
      nofun⟩
    rintro _ ⟨⟩ hplaced
    exact absurd hplaced hunplaced
  | threw failure =>
    refine (reject_rule o env).mono (fun s hs => ⟨hs.settled, hs.unreported⟩) ?_ ?_
    · rintro result s ⟨hsettled, hunreported, hconcluded, houtcome⟩
      refine ⟨hsettled.lawful, ?_, fun _ => ⟨hsettled.unaccepted, hunreported⟩, hconcluded, nofun⟩
      rintro _ ⟨⟩ hplaced
      rw [houtcome] at hplaced
      cases hplaced
    · rintro exit s ⟨hleft, hrefused⟩
      have hrefused := hrefused (List.cons_ne_nil _ _)
      refine ⟨hleft.settled.lawful, nofun, fun _ => ⟨hleft.settled.unaccepted, hleft.unreported⟩,
        fun _ => ?_, fun _ _ => hrefused⟩
      rw [← hleft.settled.traced]
      exact hrefused.terminal

/-- The record of the coordinator before its first call. -/
def initial (running : Bool) : State W := ⟨[], { running := running }⟩

/-- Every cycle ends in one of the ways that are listed, and leaves the coordinator free. -/
theorem runOnce_rule :
    Triple (· = initial false) (runOnce o fn env)
      (fun result s => Ended o (.ok result) s ∧ s.memory.running = false)
      (fun exit s => Ended o (.error exit) s ∧ s.memory.running = false) := by
  have hrelease : ∀ {answer : Except Exit CycleResult} {s : State W}, Ended o answer s →
      Ended o answer ⟨s.trace, { s.memory with running := false }⟩ :=
    fun h => ⟨h.lawful, h.placed, h.unplaced, h.concluded, h.refused⟩
  refine Triple.bind (Triple.recollect (Q := fun memory s => s = initial false ∧
    memory.running = false) ?_) fun memory => ?_
  · rintro s rfl
    exact ⟨rfl, rfl⟩
  refine Triple.ite (fun hrunning => ?_) fun _ => ?_
  · rintro s ⟨-, hidle⟩
    rw [hidle] at hrunning
    cases hrunning
  refine Triple.bind (Triple.remember (Q := fun _ => Holds o .pending Validated) ?_) fun _ => ?_
  · rintro s ⟨rfl, -⟩
    exact ⟨⟨Lawful.nil, rfl, by simp [initial, Unaccepted]⟩, rfl, by simp [initial, Unplaced],
      by simp [initial, Validated]⟩
  refine Triple.bind (Q := fun result => Ended o (.ok result))
    (Triple.recover (handled_rule o fn env) fun exit => ?_) fun result => ?_
  · refine Triple.bind (Triple.remember (Q := fun _ s => Ended o (.error exit) s ∧
      s.memory.running = false) fun s hs => ⟨hrelease hs, rfl⟩) fun _ => Triple.exit fun _ hs => hs
  · exact Triple.bind (Triple.remember (Q := fun _ s => Ended o (.ok result) s ∧
      s.memory.running = false) fun s hs => ⟨hrelease hs, rfl⟩) fun _ => Triple.pure fun _ hs => hs

end ScalpingBot.Coordinator
