import ScalpingBot.Gateway.Step

/-! What one event can do to the tracked orders, the maps and the latches. Every event does at most
    one of a few things to them (`Core`), and beyond that only sends commands and moves the
    promises on (`Frame`). -/

namespace ScalpingBot.Gateway

namespace CTraderDemoGateway

variable {o : CTraderDemoGatewayOptions} {g g' g'' : CTraderDemoGateway}

/-- The tracked orders, the maps and the latches are the same; cancellations may have been sent. -/
structure Frame (g' g : CTraderDemoGateway) : Prop where
  tracked : g'.tracked = g.tracked
  created : g'.created = g.created
  groups : g'.groups = g.groups
  orders : g'.orders = g.orders
  uncertainReason : g'.uncertainReason = g.uncertainReason
  slippageOrderGroupId : g'.slippageOrderGroupId = g.slippageOrderGroupId
  causes : g'.causes = g.causes
  cancelInFlight : ∀ id ∈ g'.cancelInFlight, id ∈ g.cancelInFlight ∨ .cancel id ∈ g'.sent
  sent : ∃ ids : List String, g'.sent = ids.map Sent.cancel ++ g.sent

theorem Frame.refl (g : CTraderDemoGateway) : Frame g g :=
  ⟨rfl, rfl, rfl, rfl, rfl, rfl, rfl, fun _ => Or.inl, [], rfl⟩

theorem Frame.trans (h : Frame g'' g') (h' : Frame g' g) : Frame g'' g := by
  obtain ⟨l, hl⟩ := h.sent
  obtain ⟨l', hl'⟩ := h'.sent
  refine ⟨h.tracked.trans h'.tracked, h.created.trans h'.created, h.groups.trans h'.groups,
    h.orders.trans h'.orders, h.uncertainReason.trans h'.uncertainReason,
    h.slippageOrderGroupId.trans h'.slippageOrderGroupId, h.causes.trans h'.causes,
    fun id hid => ?_, l ++ l', by rw [hl, hl', List.map_append, List.append_assoc]⟩
  rcases h.cancelInFlight id hid with hid' | hs
  · rcases h'.cancelInFlight id hid' with h0 | hs
    · exact Or.inl h0
    · exact Or.inr (hl ▸ List.mem_append_right _ hs)
  · exact Or.inr hs

theorem frame_finish (r : Except String OcoPlacementResult) : Frame (g.finish r) g :=
  ⟨rfl, rfl, rfl, rfl, rfl, rfl, rfl, fun _ => Or.inl, [], rfl⟩

theorem frame_finishTracked (p : Placement) : Frame (g.finishTracked p) g := frame_finish _

theorem frame_suspend (p : Placement) (s : Stage) : Frame (g.suspend p s) g :=
  ⟨rfl, rfl, rfl, rfl, rfl, rfl, rfl, fun _ => Or.inl, [], rfl⟩

theorem frame_sendCancel (ref : ℕ) : Frame (g.sendCancel ref) g :=
  ⟨rfl, rfl, rfl, rfl, rfl, rfl, rfl, fun _ => Or.inl, [_], rfl⟩

theorem frame_secondLegFailed (p : Placement) : Frame (g.secondLegFailed p) g := by
  unfold secondLegFailed
  simp only
  split
  · exact (frame_suspend p _).trans (frame_sendCancel _)
  · exact frame_suspend p _

theorem frame_start (key : String) (commands : List PendingOrderCommand)
    (sameType : TrackedGroup → Bool) : Frame (g.start key commands sameType) g := by
  unfold start
  split
  · split <;> exact frame_finish _
  · exact ⟨rfl, rfl, rfl, rfl, rfl, rfl, rfl, fun _ => Or.inl, [], rfl⟩

theorem frame_cancelPendingPeer (group : TrackedGroup) : Frame (g.cancelPendingPeer group) g := by
  unfold cancelPendingPeer
  split
  · exact Frame.refl g
  · split
    · exact Frame.refl g
    · simp only
      split
      · exact Frame.refl g
      · split
        · exact Frame.refl g
        · refine ⟨rfl, rfl, rfl, rfl, rfl, rfl, rfl, fun id hid => ?_, [_], rfl⟩
          rcases List.mem_cons.mp hid with rfl | hid
          · exact Or.inr (List.mem_cons_self ..)
          · exact Or.inl hid

theorem frame_cancelStrategyOrder (clientOrderId reasonCode : String) :
    Frame (g.cancelStrategyOrder o clientOrderId reasonCode) g := by
  unfold cancelStrategyOrder
  split
  · exact Frame.refl g
  · simp only
    split
    · exact Frame.refl g
    · split
      · exact Frame.refl g
      · split
        · exact Frame.refl g
        · exact ⟨rfl, rfl, rfl, rfl, rfl, rfl, rfl, fun _ => Or.inl, [_], rfl⟩

/-! ### Reports -/

/-- What is known of an accepted report: it is for a tracked order, not older than its volume, and
    does not take a terminal order back to PENDING. -/
structure Accepted (g : CTraderDemoGateway) (order : BrokerOrder) (ref : ℕ) (report : Report) :
    Prop where
  opening : isBrokerGeneratedClosingOrder order = .ok false
  id : ∃ id, order.clientOrderId = .value id ∧ g.orders id = some ref
  volume : (g.tracked ref).filledVolume ≤ report.filledVolume
  terminal : report.state = .pending → ¬ (g.tracked ref).state.terminal

theorem optional_value {α : Type} {key : String} {f : Field α} {a : α}
    (h : f.optional key = .ok (some a)) : f = .value a := by
  cases f <;> simp_all [Field.optional]

theorem accepted {e : BrokerExecution} {order : BrokerOrder} {ref : ℕ} {report : Report}
    (h : g.readReport e order = .ok (some (ref, report))) : Accepted g order ref report := by
  unfold readReport at h
  simp only [bind, Except.bind, pure, Except.pure] at h
  split at h
  · cases h
  · next closing hclosing =>
    split at h
    · cases h
    · next hopen =>
      split at h
      · cases h
      · split at h
        · cases h
        · next hid =>
          split at h
          · cases h
          · next ref' horder =>
            split at h
            · cases h
            · split at h
              · cases h
              · split at h
                · cases h
                · next hnew =>
                  split at h <;> cases h
                  simp only [not_or, not_lt, not_and] at hnew
                  rw [Bool.not_eq_true] at hopen
                  exact ⟨hopen ▸ hclosing, ⟨_, optional_value hid, horder⟩, hnew.1, hnew.2⟩

/-- What an accepted report makes of its tracked order. -/
structure Reported (old new : TrackedOrder) (report : Report) : Prop where
  command : new.command = old.command
  brokerOrderId : new.brokerOrderId = some report.brokerOrderId
  state : new.state = report.state
  filledVolume : new.filledVolume = report.filledVolume

/-- The fill that an accepted report brings sets a latch. -/
def FillLatches (o : CTraderDemoGatewayOptions) (g : CTraderDemoGateway) (e : BrokerExecution)
    (order : BrokerOrder) (ref : ℕ) : Prop :=
  (e.executionType = 3 ∨ e.executionType = 11) ∧ ∃ price reason,
    executionPrice e order = .ok price ∧
      fillReason o (g.tracked ref).command price = some reason

/-- An accepted report updates its order, and may set the latch of a fill. -/
inductive Applied (o : CTraderDemoGatewayOptions) (g : CTraderDemoGateway) (e : BrokerExecution) :
    CTraderDemoGateway → Prop
  | ignored (hnone : ∀ order ref report, e.order = some order →
      g.readReport e order ≠ .ok (some (ref, report))) : Applied o g e g
  | updated (order : BrokerOrder) (ref : ℕ) (report : Report) (x : TrackedOrder)
      (horder : e.order = some order) (hread : g.readReport e order = .ok (some (ref, report)))
      (hx : Reported (g.tracked ref) x report) (hno : ¬ FillLatches o g e order ref) :
      Applied o g e (g.setTracked ref x)
  | latched (order : BrokerOrder) (ref : ℕ) (report : Report) (x : TrackedOrder)
      (price : Option Decimal) (reason : UncertainReason)
      (horder : e.order = some order) (hread : g.readReport e order = .ok (some (ref, report)))
      (hx : Reported (g.tracked ref) x report)
      (hfill : e.executionType = 3 ∨ e.executionType = 11)
      (hprice : executionPrice e order = .ok price)
      (hreason : fillReason o (g.tracked ref).command price = some reason) :
      Applied o g e
        ((g.latchFill reason (g.tracked ref).command.orderGroupId).setTracked ref x)

@[simp] theorem latchFill_tracked (reason : UncertainReason) (gid : String) :
    (g.latchFill reason gid).tracked = g.tracked := by
  unfold latchFill; split <;> rfl

theorem latchFill_setTracked (reason : UncertainReason) (gid : String) (ref : ℕ) (x : TrackedOrder) :
    (g.setTracked ref x).latchFill reason gid = (g.latchFill reason gid).setTracked ref x := by
  unfold latchFill; split <;> simp [latch, setTracked]

theorem setTracked_setTracked (ref : ℕ) (x y : TrackedOrder) :
    (g.setTracked ref x).setTracked ref y = g.setTracked ref y := by
  simp [setTracked]

@[simp] theorem setTracked_self (ref : ℕ) (x : TrackedOrder) :
    (g.setTracked ref x).tracked ref = x := by
  simp [setTracked]

theorem applied (e : BrokerExecution) (rc : Option String) :
    Applied o g e (g.applyExecution o e rc).1 := by
  unfold applyExecution
  split
  · next hnone => exact .ignored fun order _ _ horder => by rw [hnone] at horder; cases horder
  · next order horder =>
    have hignored : ∀ r, (∀ ref report, r ≠ .ok (some (ref, report))) → g.readReport e order = r →
        Applied o g e g := fun r hr hread => .ignored fun order' ref report horder' => by
      obtain rfl := Option.some.inj (horder.symm.trans horder')
      rw [hread]
      exact hr ref report
    split
    · next hread => exact hignored _ (by simp) hread
    · next hread => exact hignored _ (by simp) hread
    · next ref report hread =>
      unfold write
      simp only
      split
      · next hfill =>
        split
        · next hprice =>
          refine .updated order ref report _ horder hread ⟨rfl, rfl, rfl, rfl⟩ ?_
          rintro ⟨-, price, reason, hok, -⟩
          rw [hprice] at hok
          cases hok
        · next price hprice =>
          simp only [checkFillPrice, setTracked_self]
          split
          · next hreason =>
            refine .updated order ref report _ horder hread ⟨rfl, rfl, rfl, rfl⟩ ?_
            rintro ⟨-, price', reason, hok, hsome⟩
            obtain rfl := Except.ok.inj (hprice.symm.trans hok)
            rw [hreason] at hsome
            cases hsome
          · next reason hreason =>
            rw [latchFill_setTracked, setTracked_setTracked]
            exact .latched order ref report _ price reason horder hread ⟨rfl, rfl, rfl, rfl⟩
              hfill hprice hreason
      · next hfill =>
        exact .updated order ref report _ horder hread ⟨rfl, rfl, rfl, rfl⟩ fun h => hfill h.1

theorem Applied.cancellations {e : BrokerExecution} {l : List Cancellation}
    (h : Applied o { g with cancellations := l } e g') :
    ∃ g1, Applied o g e g1 ∧ Frame g' g1 := by
  cases h with
  | ignored hnone => exact ⟨g, .ignored hnone, ⟨rfl, rfl, rfl, rfl, rfl, rfl, rfl, fun _ => Or.inl, [], rfl⟩⟩
  | updated order ref report x horder hread hx hno =>
    exact ⟨_, .updated order ref report x horder hread hx hno,
      ⟨rfl, rfl, rfl, rfl, rfl, rfl, rfl, fun _ => Or.inl, [], rfl⟩⟩
  | latched order ref report x price reason horder hread hx hfill hprice hreason =>
    refine ⟨_, .latched order ref report x price reason horder hread hx hfill hprice hreason, ?_⟩
    unfold latchFill
    split <;> exact ⟨rfl, rfl, rfl, rfl, rfl, rfl, rfl, fun _ => Or.inl, [], rfl⟩

/-! ### Rejections and recoveries -/

theorem reject_latches (now : ℕ) (rc : String) : ∀ (refs : List ℕ) (g : CTraderDemoGateway),
    (g.reject now rc refs).uncertainReason = g.uncertainReason ∧
    (g.reject now rc refs).slippageOrderGroupId = g.slippageOrderGroupId ∧
    (g.reject now rc refs).causes = g.causes
  | [], _ => ⟨rfl, rfl, rfl⟩
  | ref :: refs, g => reject_latches now rc refs (g.setTracked ref _)

theorem retire_latches (input : TerminalRecovery) (ref : ℕ) :
    (g.retire input ref).uncertainReason = g.uncertainReason ∧
    (g.retire input ref).slippageOrderGroupId = g.slippageOrderGroupId ∧
    (g.retire input ref).causes = g.causes := by
  unfold retire
  simp only
  split <;> exact ⟨rfl, rfl, rfl⟩

theorem retireAll_latches (input : TerminalRecovery) : ∀ (refs : List ℕ) (g : CTraderDemoGateway),
    (refs.foldl (fun g ref => g.retire input ref) g).uncertainReason = g.uncertainReason ∧
    (refs.foldl (fun g ref => g.retire input ref) g).slippageOrderGroupId =
      g.slippageOrderGroupId ∧
    (refs.foldl (fun g ref => g.retire input ref) g).causes = g.causes
  | [], _ => ⟨rfl, rfl, rfl⟩
  | ref :: refs, g => by
    obtain ⟨h1, h2, h3⟩ := retireAll_latches input refs (g.retire input ref)
    obtain ⟨k1, k2, k3⟩ := retire_latches (g := g) input ref
    exact ⟨h1.trans k1, h2.trans k2, h3.trans k3⟩

end CTraderDemoGateway

/-! ### One event -/

/-- The execution report that an event delivers. -/
def reportOf : Event → Option BrokerExecution
  | .resume (.executed e) => some e
  | .callback e => some e
  | .cancellationDone (.peer _) response => response
  | .cancellationDone (.strategyOrder _ _) response => response
  | _ => none

open CTraderDemoGateway in
/-- What one event does to the tracked orders, the maps and the latches. -/
inductive Core (o : CTraderDemoGatewayOptions) (g : CTraderDemoGateway) (ev : Event) :
    CTraderDemoGateway → Prop
  | nothing : Core o g ev g
  | latched (reason : UncertainReason) (gid : String) (hr : reason ≠ .fillSlippageExceeded) :
      Core o g ev (g.latch reason gid)
  | reported (e : BrokerExecution) (he : reportOf ev = some e) (g1 : CTraderDemoGateway)
      (h : Applied o g e g1) : Core o g ev g1
  | reportedLatched (e : BrokerExecution) (he : reportOf ev = some e) (g1 : CTraderDemoGateway)
      (h : Applied o g e g1) (reason : UncertainReason) (gid : String)
      (hr : reason ≠ .fillSlippageExceeded) : Core o g ev (g1.latch reason gid)
  | dispatchedFirst (p : Placement) (hp : g.placing = some p) :
      Core o g ev (g.placePendingEntry (firstOf p))
  | dispatchedSecond (p : Placement) (hp : g.placing = some p)
      (hstate : (g.tracked (firstOf p)).state = .pending)
      (hvolume : (g.tracked (firstOf p)).filledVolume = 0) (hcertain : g.uncertainReason = none) :
      Core o g ev (g.placePendingEntry (secondOf p))
  | rejected (now : ℕ) (reasonCode : String) (refs : List ℕ) :
      Core o g ev (g.reject now reasonCode refs)
  | created (p : Placement) (hp : g.placing = some p) (hstage : p.stage = .preflight)
      (raw : RawReconciliation) (hev : ev = .resume (.reconciled raw)) (now : ℕ) :
      Core o g ev (g.track p.key (orderGroupIdOf p) (p.commands.map (newOrder now))).1
  | recovered (p : Placement) (hp : g.placing = some p) (hstage : p.stage = .preflight)
      (raw : RawReconciliation) (hev : ev = .resume (.reconciled raw)) (orders : List TrackedOrder)
      (hfound : recoverOrders o raw p.commands = .ok (.orders orders)) :
      Core o g ev (g.track p.key (orderGroupIdOf p) orders).1
  | acknowledged (input : TerminalRecovery) (hev : ev = .acknowledge input)
      (g1 : CTraderDemoGateway) (h : g.acknowledgeCertainTerminalRecovery input = some g1) :
      Core o g ev g1

namespace CTraderDemoGateway

variable {o : CTraderDemoGatewayOptions} {g g' : CTraderDemoGateway} {env : Env} {ev : Event}
  {p : Placement}

/-- The event did what `Core` allows, and nothing but `Frame` beyond it. -/
def Effect (o : CTraderDemoGatewayOptions) (g : CTraderDemoGateway) (ev : Event)
    (g' : CTraderDemoGateway) : Prop :=
  ∃ g1, Core o g ev g1 ∧ Frame g' g1

theorem Effect.frame (h : Frame g' g) : Effect o g ev g' := ⟨g, .nothing, h⟩

theorem Effect.trans {g'' : CTraderDemoGateway} (h : Effect o g ev g') (hf : Frame g'' g') :
    Effect o g ev g'' := by
  obtain ⟨g1, hcore, hframe⟩ := h
  exact ⟨g1, hcore, hf.trans hframe⟩

theorem effect_withhold : Effect o g ev (withhold env g p) :=
  ⟨_, .rejected _ _ _, frame_finishTracked p⟩

theorem effect_dispatchFirst (hp : g.placing = some p) : Effect o g ev (dispatchFirst o env g p) := by
  unfold dispatchFirst
  simp only
  split
  · exact effect_withhold
  · exact ⟨_, .dispatchedFirst p hp, frame_suspend p _⟩

theorem effect_dispatchSecond (hp : g.placing = some p) (status : Option MarketSessionStatus) :
    Effect o g ev (dispatchSecond o env g p status) := by
  unfold dispatchSecond
  simp only
  split
  · next reason _ =>
    refine ⟨_, .rejected env.now reason [secondOf p], ?_⟩
    split
    · exact (frame_suspend p _).trans (frame_sendCancel _)
    · exact frame_suspend p _
  · split
    · exact ⟨_, .rejected _ _ _, frame_finishTracked p⟩
    · next hcheck =>
      simp only [ne_eq, not_or, not_not] at hcheck
      exact ⟨_, .dispatchedSecond p hp hcheck.1 hcheck.2.1 hcheck.2.2, frame_suspend p _⟩

theorem effect_preflight {raw : RawReconciliation} (hp : g.placing = some p)
    (hstage : p.stage = .preflight) (hev : ev = .resume (.reconciled raw)) : Effect o g ev (preflight o env g p raw) := by
  unfold preflight
  split
  · exact .frame (frame_finish _)
  · exact ⟨_, .latched _ _ (by decide), frame_finish _⟩
  · next orders hfound => exact ⟨_, .recovered p hp hstage raw hev orders hfound, frame_finish _⟩
  · split
    · exact .frame (frame_finish _)
    · exact ⟨_, .created p hp hstage raw hev env.now, frame_suspend _ _⟩

theorem effect_applyCancellation {response : Option BrokerExecution}
    (hev : ∀ e, response = some e → reportOf ev = some e) :
    Effect o g ev (g.applyCancellation o p response) := by
  unfold applyCancellation
  split
  · exact ⟨_, .latched _ _ (by decide), Frame.refl _⟩
  · next e =>
    have happ := applied (o := o) (g := g) e none
    split
    · next g1 err heq =>
      rw [heq] at happ
      exact ⟨_, .reportedLatched e (hev e rfl) g1 happ _ _ (by decide), Frame.refl _⟩
    · next g1 heq =>
      rw [heq] at happ
      exact ⟨_, .reported e (hev e rfl) g1 happ, Frame.refl _⟩

theorem effect_resume {response : Response} (hp : g.placing = some p)
    (h : resume o env g p response = some g') : Effect o g (.resume response) g' := by
  cases response with
  | reconciled raw =>
    simp only [resume] at h
    split at h
    · next hstage => cases h; exact effect_preflight hp hstage rfl
    · split at h <;> cases h
      · exact effect_withhold
      · exact .frame (frame_suspend p _)
    · split at h <;> cases h
      · exact .frame (frame_finishTracked p)
      · exact .frame (frame_suspend p _)
    · cases h; exact .frame (frame_finishTracked p)
    · cases h; exact .frame (frame_finishTracked p)
    · cases h; exact .frame (frame_finish _)
    · cases h
  | session status =>
    simp only [resume] at h
    split at h
    · next hstage =>
      split at h <;> cases h
      · exact ⟨_, .rejected _ _ _, frame_finishTracked p⟩
      · rw [if_pos hstage]
        exact .frame (frame_suspend p _)
    · next hstage =>
      split at h <;> cases h
      · exact ⟨_, .rejected _ _ _, frame_finishTracked p⟩
      · rw [if_neg (by rw [hstage]; decide)]
        exact effect_dispatchFirst hp
    · cases h; exact effect_dispatchSecond hp status
    · cases h
  | ready certain =>
    simp only [resume] at h
    split at h <;> cases h
    split
    · exact .frame (frame_suspend p _)
    · exact effect_withhold
  | executed e =>
    have happ := applied (o := o) (g := g) e none
    simp only [resume] at h
    split at h
    · split at h
      · next g1 err heq =>
        cases h
        rw [heq] at happ
        exact ⟨g1, .reported e rfl g1 happ, frame_finish _⟩
      · next g1 heq =>
        cases h
        rw [heq] at happ
        exact ⟨g1, .reported e rfl g1 happ, frame_suspend p _⟩
    · cases h
      exact (effect_applyCancellation (by rintro _ ⟨⟩; rfl)).trans (frame_suspend p _)
    · cases h
      exact (effect_applyCancellation (by rintro _ ⟨⟩; rfl)).trans (frame_suspend p _)
    · split at h
      · next g1 err heq =>
        cases h
        rw [heq] at happ
        exact ⟨g1, .reported e rfl g1 happ, frame_secondLegFailed p⟩
      · next g1 heq =>
        cases h
        rw [heq] at happ
        exact ⟨g1, .reported e rfl g1 happ, (frame_suspend p _).trans (frame_cancelPendingPeer _)⟩
    · cases h
  | failed error =>
    simp only [resume] at h
    split at h <;> cases h
    · exact .frame (frame_finish _)
    · exact .frame (frame_finish _)
    · exact .frame (frame_finish _)
    · exact .frame (frame_finish _)
    · exact effect_withhold
    · exact effect_withhold
    · exact .frame (frame_secondLegFailed p)
    · exact .frame (frame_secondLegFailed p)
    · exact .frame (frame_secondLegFailed p)
    · exact (effect_applyCancellation (by rintro _ ⟨⟩)).trans (frame_suspend p _)
    · exact (effect_applyCancellation (by rintro _ ⟨⟩)).trans (frame_suspend p _)

/-- A callback applies its report, and beyond that only sends a cancellation. -/
theorem applied_handleExecution (e : BrokerExecution) :
    ∃ g1, Applied o g e g1 ∧ Frame (g.handleExecution o e) g1 := by
  have hclosing : ∀ order, e.order = some order → isBrokerGeneratedClosingOrder order ≠ .ok false →
      Applied o g e g := fun order horder hne => .ignored fun order' ref report horder' hread => by
    obtain rfl := Option.some.inj (horder.symm.trans horder')
    exact hne (accepted hread).opening
  unfold handleExecution
  split
  · next hnone =>
    refine ⟨g, .ignored fun order ref report horder => ?_, Frame.refl g⟩
    rw [hnone] at horder
    cases horder
  · next order horder =>
    split
    · next heq => exact ⟨g, hclosing order horder (by simp [heq]), Frame.refl g⟩
    · next heq => exact ⟨g, hclosing order horder (by simp [heq]), Frame.refl g⟩
    · have happ := applied (o := o) (g := g) e none
      split
      · next g1 err heq =>
        rw [heq] at happ
        exact ⟨g1, happ, Frame.refl g1⟩
      · next g1 heq =>
        rw [heq] at happ
        refine ⟨g1, happ, ?_⟩
        split
        · split
          · exact Frame.refl g1
          · split
            · exact Frame.refl g1
            · exact frame_cancelPendingPeer _
        · exact Frame.refl g1

theorem effect_handleExecution (e : BrokerExecution) :
    Effect o g (.callback e) (g.handleExecution o e) := by
  obtain ⟨g1, happ, hframe⟩ := applied_handleExecution (o := o) (g := g) e
  exact ⟨g1, .reported e rfl g1 happ, hframe⟩

theorem effect_cancellationDone (c : Cancellation) (response : Option BrokerExecution) :
    Effect o g (.cancellationDone c response) (g.cancellationDone o c response) := by
  have hlatch : ∀ (g1 : CTraderDemoGateway) (l : List Cancellation) (id gid : String),
      Frame { ({ g1 with cancellations := l } : CTraderDemoGateway).latch
        .ocoCancellationReconciliationRequired gid with
          cancelInFlight := g1.cancelInFlight.erase id }
        (g1.latch .ocoCancellationReconciliationRequired gid) :=
    fun _ _ _ _ => ⟨rfl, rfl, rfl, rfl, rfl, rfl, rfl,
      fun _ hid => Or.inl (List.mem_of_mem_erase hid), [], rfl⟩
  cases c with
  | peer ref =>
    cases response with
    | none => exact ⟨_, .latched _ _ (by decide), hlatch g _ _ _⟩
    | some e =>
      have happ := applied (o := o) (g := { g with
        cancellations := g.cancellations.erase (.peer ref) }) e (some "DEMO_OCO_PEER_FILLED")
      simp only [cancellationDone]
      split
      · next g2 err heq =>
        rw [heq] at happ
        obtain ⟨g1, h1, hf⟩ := happ.cancellations
        refine ⟨_, .reportedLatched e rfl g1 h1 .ocoCancellationReconciliationRequired
          (g2.groupIdOf ref) (by decide), ?_⟩
        exact ⟨hf.tracked, hf.created, hf.groups, hf.orders, rfl, hf.slippageOrderGroupId,
          congrArg (List.cons _) hf.causes,
          fun id hid => hf.cancelInFlight id (List.mem_of_mem_erase hid), hf.sent⟩
      · next g2 heq =>
        rw [heq] at happ
        obtain ⟨g1, h1, hf⟩ := happ.cancellations
        exact ⟨g1, .reported e rfl g1 h1, ⟨hf.tracked, hf.created, hf.groups, hf.orders,
          hf.uncertainReason, hf.slippageOrderGroupId, hf.causes, hf.cancelInFlight, hf.sent⟩⟩
  | peerReconcile ref =>
    cases response with
    | none => exact ⟨_, .latched _ _ (by decide), hlatch g _ _ _⟩
    | some e =>
      exact .frame ⟨rfl, rfl, rfl, rfl, rfl, rfl, rfl,
        fun _ hid => Or.inl (List.mem_of_mem_erase hid), [], rfl⟩
  | strategyOrder ref rc =>
    cases response with
    | none => exact .frame ⟨rfl, rfl, rfl, rfl, rfl, rfl, rfl, fun _ => Or.inl, [], rfl⟩
    | some e =>
      obtain ⟨g1, h1, hf⟩ := (applied (o := o) (g := { g with
        cancellations := g.cancellations.erase (.strategyOrder ref rc) }) e (some rc)).cancellations
      exact ⟨g1, .reported e rfl g1 h1, hf⟩

end CTraderDemoGateway

open CTraderDemoGateway in
theorem effect_step {o : CTraderDemoGatewayOptions} {g g' : CTraderDemoGateway}
    {ev : Env × Event} (h : step o g ev = some g') : Effect o g ev.2 g' := by
  obtain ⟨env, ev⟩ := ev
  cases ev with
  | placeDirectional c =>
    simp only [step] at h
    split at h <;> cases h
    unfold placeDirectional
    split
    · exact .frame (frame_finish _)
    · exact .frame (frame_start ..)
  | placeOco first second =>
    simp only [step] at h
    split at h <;> cases h
    unfold placeOco
    simp only
    split
    · exact .frame (frame_finish _)
    · exact .frame (frame_start ..)
  | resume response =>
    obtain ⟨p, hp, hr⟩ := Option.bind_eq_some_iff.mp h
    exact effect_resume hp hr
  | callback e => cases h; exact effect_handleExecution e
  | cancelStrategyOrder clientOrderId reasonCode =>
    cases h; exact .frame (frame_cancelStrategyOrder ..)
  | cancellationDone c response =>
    simp only [step] at h
    split at h <;> cases h
    exact effect_cancellationDone c response
  | acknowledge input => exact ⟨g', .acknowledged input rfl g' h, Frame.refl g'⟩

end ScalpingBot.Gateway
