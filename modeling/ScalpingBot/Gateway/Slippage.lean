import ScalpingBot.Gateway.Shape
import ScalpingBot.Library.Checked
import ScalpingBot.Library.Watermark

/-! Whether the certainty of the gateway depends on the order in which fills are delivered. A fill
    of less volume than is known of its order is discarded before its price is looked at, so the
    recorded volumes are watermarks and the uncertainty is an alarm behind them. -/

namespace ScalpingBot.Gateway

open Watermark (Message Monitor Agreed)

namespace CTraderDemoGateway

variable {o : CTraderDemoGatewayOptions} {g g' : CTraderDemoGateway} {e : BrokerExecution}
  {es es' : List BrokerExecution}

/-- What a report says of a tracked order, whatever is known of that order. -/
def readFill (g : CTraderDemoGateway) (e : BrokerExecution) (order : BrokerOrder) :
    Except String (Option (ℕ × Report)) := do
  if ← isBrokerGeneratedClosingOrder order then return none
  match ← order.clientOrderId.optional "clientOrderId" with
  | none => return none
  | some clientOrderId =>
    match g.orders clientOrderId with
    | none => return none
    | some ref =>
      let nextVolume := (← order.executedVolume.optional "executedVolume").getD 0
      let nextState ← nextState e order
      return some (ref, ⟨← order.orderId.required "orderId", nextState, nextVolume⟩)

/-- Is the report older than what is known of its order? -/
def Outdated (g : CTraderDemoGateway) (ref : ℕ) (report : Report) : Prop :=
  report.filledVolume < (g.tracked ref).filledVolume ∨
    (report.state = .pending ∧ (g.tracked ref).state.terminal)

theorem readReport_iff {order : BrokerOrder} {ref : ℕ} {report : Report} :
    g.readReport e order = .ok (some (ref, report)) ↔
      g.readFill e order = .ok (some (ref, report)) ∧ ¬ g.Outdated ref report := by
  simp only [readReport, readFill, Outdated]
  cases isBrokerGeneratedClosingOrder order with
  | error err => simp [bind, Except.bind]
  | ok closing =>
    cases closing with
    | true => simp [bind, Except.bind, pure, Except.pure]
    | false =>
      cases order.clientOrderId.optional "clientOrderId" with
      | error err => simp [bind, Except.bind]
      | ok id =>
        cases id with
        | none => simp [bind, Except.bind, pure, Except.pure]
        | some id =>
          cases hid : g.orders id with
          | none => simp [bind, Except.bind, pure, Except.pure, hid]
          | some ref' =>
            cases order.executedVolume.optional "executedVolume" with
            | error err => simp [bind, Except.bind, hid]
            | ok volume =>
              cases nextState e order with
              | error err => simp [bind, Except.bind, hid]
              | ok state =>
                simp only [bind, Except.bind, pure, Except.pure, hid, Bool.false_eq_true, if_false]
                by_cases hold : volume.getD 0 < (g.tracked ref').filledVolume ∨
                    (state = .pending ∧ (g.tracked ref').state.terminal)
                · rw [if_pos hold]
                  cases order.orderId.required "orderId" with
                  | error err => simp
                  | ok orderId =>
                    simp only [Except.ok.injEq, reduceCtorEq, Option.some.injEq, Prod.mk.injEq,
                      false_iff, not_and, not_not]
                    rintro ⟨rfl, rfl⟩
                    exact hold
                · rw [if_neg hold]
                  cases order.orderId.required "orderId" with
                  | error err => simp
                  | ok orderId =>
                    simp only [Except.ok.injEq, Option.some.injEq, Prod.mk.injEq, iff_self_and]
                    rintro ⟨rfl, rfl⟩
                    exact hold

/-- Why a fill at the price that a message gives makes the gateway uncertain, if it does; a price
    that cannot be read is not looked at. -/
def alarmOf (o : CTraderDemoGatewayOptions) (g : CTraderDemoGateway) (e : BrokerExecution)
    (order : BrokerOrder) (ref : ℕ) : Option UncertainReason :=
  match executionPrice e order with
  | .ok price => fillReason o (g.tracked ref).command price
  | .error _ => none

/-- A fill callback as a message: its order, the cumulative volume and what is wrong with its
    price. Nothing if it cannot be read or is not for a tracked order. -/
def fillOf (o : CTraderDemoGatewayOptions) (g : CTraderDemoGateway) (e : BrokerExecution) :
    Option (Message ℕ Decimal UncertainReason) :=
  match e.order with
  | none => none
  | some order =>
    match g.readFill e order with
    | .ok (some (ref, report)) => some ⟨ref, report.filledVolume, g.alarmOf o e order ref⟩
    | _ => none

/-- The recorded volumes and the uncertainty. -/
def monitor (g : CTraderDemoGateway) : Monitor ℕ Decimal UncertainReason where
  level := fun ref => (g.tracked ref).filledVolume
  latch := g.uncertainReason

/-- A callback of a fill: execution type 3 or 11, and it does not call its order PENDING. -/
structure FillCallback (g : CTraderDemoGateway) (e : BrokerExecution) : Prop where
  type : e.executionType = 3 ∨ e.executionType = 11
  state : ∀ order ref report, e.order = some order →
    g.readFill e order = .ok (some (ref, report)) → report.state ≠ .pending

/-- The messages are read from the commands and the map of orders alone. -/
structure SameOrders (g' g : CTraderDemoGateway) : Prop where
  orders : g'.orders = g.orders
  command : ∀ ref, (g'.tracked ref).command = (g.tracked ref).command

theorem readFill_congr (h : SameOrders g' g) (order : BrokerOrder) :
    g'.readFill e order = g.readFill e order := by
  unfold readFill
  rw [h.orders]

theorem fillOf_congr (h : SameOrders g' g) : fillOf o g' e = fillOf o g e := by
  simp only [fillOf, alarmOf, readFill_congr h, h.command]

theorem FillCallback.congr (h : SameOrders g' g) (hfill : FillCallback g e) :
    FillCallback g' e where
  type := hfill.type
  state := fun order ref report horder hread =>
    hfill.state order ref report horder (readFill_congr h order ▸ hread)

theorem monitor_frame (h : Frame g' g) : g'.monitor = g.monitor := by
  simp only [monitor, h.tracked, h.uncertainReason]

theorem SameOrders.frame (h : Frame g' g) : SameOrders g' g :=
  ⟨h.orders, fun ref => by rw [h.tracked]⟩

theorem monitor_setTracked (ref : ℕ) (x : TrackedOrder) :
    (g.setTracked ref x).monitor =
      ⟨Function.update g.monitor.level ref x.filledVolume, g.uncertainReason⟩ := by
  refine congrArg (Monitor.mk · _) (funext fun r => ?_)
  rcases eq_or_ne r ref with rfl | hne
  · simp
  · simp [monitor, setTracked, Function.update_of_ne hne]

theorem monitor_latchFill (reason : UncertainReason) (gid : String) :
    (g.latchFill reason gid).monitor = ⟨g.monitor.level, some reason⟩ := by
  unfold latchFill
  split <;> rfl

theorem fillOf_eq {order : BrokerOrder} {ref : ℕ} {report : Report} (horder : e.order = some order)
    (hread : g.readFill e order = .ok (some (ref, report))) :
    fillOf o g e = some ⟨ref, report.filledVolume, g.alarmOf o e order ref⟩ := by
  simp only [fillOf, horder, hread]

/-- An accepted fill raises the watermark of its order, and latches its alarm. -/
theorem deliver_accepted {ref : ℕ} {report : Report} {alarm : Option UncertainReason}
    (h : ¬ g.Outdated ref report) :
    Watermark.deliver g.monitor ⟨ref, report.filledVolume, alarm⟩ =
      ⟨Function.update g.monitor.level ref report.filledVolume, alarm <|> g.uncertainReason⟩ :=
  if_neg fun hlt => h (Or.inl hlt)

/-- A fill callback is delivered to the monitor. -/
theorem monitor_handleExecution (hfill : FillCallback g e) :
    (g.handleExecution o e).monitor =
      match fillOf o g e with
      | none => g.monitor
      | some m => Watermark.deliver g.monitor m := by
  obtain ⟨g1, happ, hframe⟩ := applied_handleExecution (o := o) (g := g) e
  rw [monitor_frame hframe]
  cases happ with
  | ignored hnone =>
    cases hm : fillOf o g e with
    | none => rfl
    | some m =>
      unfold fillOf at hm
      split at hm
      · cases hm
      · next order horder =>
        split at hm
        · next ref report hread =>
          cases hm
          have hold : g.Outdated ref report := by
            by_contra hnew
            exact hnone order ref report horder (readReport_iff.mpr ⟨hread, hnew⟩)
          rcases hold with hlt | ⟨hpending, -⟩
          · exact (Watermark.deliver_of_lt hlt).symm
          · exact absurd hpending (hfill.state order ref report horder hread)
        · cases hm
  | updated order ref report x horder hread hx hno =>
    obtain ⟨hfilled, hnew⟩ := readReport_iff.mp hread
    have halarm : g.alarmOf o e order ref = none := by
      unfold alarmOf
      split
      · next price hprice =>
        refine Option.eq_none_iff_forall_ne_some.mpr fun reason hreason => ?_
        exact hno ⟨hfill.type, price, reason, hprice, hreason⟩
      · rfl
    simp only [fillOf_eq horder hfilled, deliver_accepted hnew, halarm, monitor_setTracked,
      hx.filledVolume]
    rfl
  | latched order ref report x price reason horder hread hx htype hprice hreason =>
    obtain ⟨hfilled, hnew⟩ := readReport_iff.mp hread
    have halarm : g.alarmOf o e order ref = some reason := by
      simp only [alarmOf, hprice, hreason]
    simp only [fillOf_eq horder hfilled, deliver_accepted hnew, halarm, monitor_setTracked,
      hx.filledVolume, monitor_latchFill]
    exact congrArg (Monitor.mk _) (congrArg Monitor.latch (monitor_latchFill reason _))

theorem setTracked_command {ref : ℕ} {x : TrackedOrder}
    (hx : x.command = (g.tracked ref).command) (r : ℕ) :
    ((g.setTracked ref x).tracked r).command = (g.tracked r).command := by
  rcases eq_or_ne r ref with rfl | hne
  · rw [setTracked_self, hx]
  · simp [setTracked, Function.update_of_ne hne]

theorem sameOrders_handleExecution : SameOrders (g.handleExecution o e) g := by
  obtain ⟨g1, happ, hframe⟩ := applied_handleExecution (o := o) (g := g) e
  refine ⟨hframe.orders.trans happ.maps.2.2.1, fun r => ?_⟩
  rw [hframe.tracked]
  cases happ with
  | ignored => rfl
  | updated order ref report x horder hread hx => exact setTracked_command hx.command r
  | latched order ref report x price reason horder hread hx =>
    rw [setTracked_command (by rw [hx.command, latchFill_tracked]), latchFill_tracked]

variable (o) in
/-- The gateway after some callbacks, in the order of their delivery. -/
def handleAll (g : CTraderDemoGateway) (es : List BrokerExecution) : CTraderDemoGateway :=
  es.foldl (fun g e => g.handleExecution o e) g

theorem run_callbacks (env : Env) :
    Transition.run (step o) g (es.map fun e => (env, .callback e)) = some (handleAll o g es) := by
  induction es generalizing g with
  | nil => rfl
  | cons e es ih => exact ih

/-- Delivered fill callbacks are delivered to the monitor. -/
theorem monitor_handleAll (hfills : ∀ e ∈ es, FillCallback g e) :
    (handleAll o g es).monitor = Watermark.deliverAll g.monitor (es.filterMap (fillOf o g)) := by
  induction es generalizing g with
  | nil => rfl
  | cons e es ih =>
    have hsame : SameOrders (g.handleExecution o e) g := sameOrders_handleExecution
    have hrest : ∀ e' ∈ es, FillCallback (g.handleExecution o e) e' := fun e' he' =>
      (hfills e' (List.mem_cons_of_mem _ he')).congr hsame
    have hfillOf : fillOf o (g.handleExecution o e) = fillOf o g :=
      funext fun e' => fillOf_congr hsame
    have hhead := monitor_handleExecution (o := o) (hfills e List.mem_cons_self)
    rw [handleAll, List.foldl_cons, ← handleAll, ih hrest, hfillOf, hhead]
    cases hm : fillOf o g e with
    | none => rw [List.filterMap_cons_none hm]
    | some m => rw [List.filterMap_cons_some hm, Watermark.deliverAll_cons]

/-- The fill is beyond the slippage limits of its order. -/
def Exceeds (o : CTraderDemoGatewayOptions) (g : CTraderDemoGateway) (e : BrokerExecution) : Prop :=
  ∃ m, fillOf o g e = some m ∧ m.alarm = some .fillSlippageExceeded

/-- After all the fills the certainty is the same for every order of delivery, and is lost if any
    of them is beyond its slippage limits. -/
def OrderIndependent (o : CTraderDemoGatewayOptions) (g : CTraderDemoGateway)
    (es : List BrokerExecution) : Prop :=
  ∀ es', es'.Perm es →
    (handleAll o g es').uncertainReason = (handleAll o g es).uncertainReason ∧
    ((∃ e ∈ es', Exceeds o g e) → (handleAll o g es').uncertainReason ≠ none)

/-- The certainty is independent of the order of delivery exactly if the alarms of the fills agree:
    those that can come last give one reason, which the gateway had already unless one of them has
    the largest volume of its order, and which is none only if no fill is beyond its limits. -/
theorem orderIndependent_iff (hfills : ∀ e ∈ es, FillCallback g e) :
    OrderIndependent o g es ↔ ∃ reason, Agreed g.monitor (es.filterMap (fillOf o g)) reason ∧
      ((∃ e ∈ es, Exceeds o g e) → reason ≠ none) := by
  have hlatch : ∀ es', es'.Perm es → (handleAll o g es').uncertainReason =
      (Watermark.deliverAll g.monitor (es'.filterMap (fillOf o g))).latch := fun es' hperm =>
    congrArg Monitor.latch (monitor_handleAll fun e he => hfills e (hperm.mem_iff.mp he))
  constructor
  · intro h
    refine ⟨(handleAll o g es).uncertainReason, Watermark.latch_perm_iff.mp fun ms hms => ?_,
      (h es (List.Perm.refl es)).2⟩
    obtain ⟨es', hperm, rfl⟩ := Watermark.exists_perm_filterMap hms.symm
    rw [← hlatch es' hperm]
    exact (h es' hperm).1
  · rintro ⟨reason, hagreed, hexceeds⟩ es' hperm
    have hfinal : ∀ es', es'.Perm es → (handleAll o g es').uncertainReason = reason :=
      fun es' hperm => by
        rw [hlatch es' hperm]
        exact Watermark.latch_perm_iff.mpr hagreed _ (hperm.filterMap _)
    rw [hfinal es' hperm, hfinal es (List.Perm.refl es)]
    refine ⟨rfl, fun ⟨e, he, hslips⟩ => hexceeds ⟨e, hperm.mem_iff.mp he, hslips⟩⟩

theorem readFill_state {order : BrokerOrder} {ref : ℕ} {report : Report}
    (h : g.readFill e order = .ok (some (ref, report))) : nextState e order = .ok report.state := by
  unfold readFill at h
  obtain ⟨closing, -, h⟩ := bind_ok.mp h
  split at h
  · cases h
  · obtain ⟨id, -, h⟩ := bind_ok.mp h
    split at h
    · cases h
    · split at h
      · cases h
      · obtain ⟨volume, -, h⟩ := bind_ok.mp h
        obtain ⟨state, hstate, h⟩ := bind_ok.mp h
        obtain ⟨orderId, -, h⟩ := bind_ok.mp h
        cases h
        exact hstate

theorem fillCallback_of {order : BrokerOrder} (htype : e.executionType = 3 ∨ e.executionType = 11)
    (horder : e.order = some order) (hstate : nextState e order ≠ .ok .pending) :
    FillCallback g e where
  type := htype
  state := by
    intro order' ref report horder' hread hpending
    obtain rfl := Option.some.inj (horder.symm.trans horder')
    exact hstate (hpending ▸ readFill_state hread)

end CTraderDemoGateway

open CTraderDemoGateway

namespace Sample

/-- A fill of 300 of the buy leg of the pair `a`, beyond its slippage limits. -/
def slipped : BrokerExecution := report 11 (record "a" .buy 1 300) (.value (12 / 10))

/-- The fill of the whole leg, at its entry price. -/
def filled : BrokerExecution := report 3 (record "a" .buy 2 1000) (.value (11 / 10))

theorem fillCallback_of_a (g : CTraderDemoGateway) : ∀ e ∈ [slipped, filled], FillCallback g e := by
  intro e he
  rcases List.mem_cons.mp he with rfl | he
  · exact fillCallback_of (Or.inr rfl) rfl (by decide +kernel)
  · obtain rfl := List.mem_singleton.mp he
    exact fillCallback_of (Or.inl rfl) rfl (by decide +kernel)

end Sample

theorem orderIndependent_iff_of_a : ∃ g, Run Sample.options (Sample.found "a") g ∧
    (OrderIndependent Sample.options g [Sample.slipped, Sample.filled] ↔
      ∃ reason, Agreed g.monitor
        ([Sample.slipped, Sample.filled].filterMap (fillOf Sample.options g)) reason ∧
        ((∃ e ∈ [Sample.slipped, Sample.filled], Exceeds Sample.options g e) → reason ≠ none)) := by
  have h : (Transition.run (step Sample.options) initial (Sample.found "a")).isSome := by
    decide +kernel
  obtain ⟨g, hrun⟩ := Option.isSome_iff_exists.mp h
  exact ⟨g, hrun, orderIndependent_iff (Sample.fillCallback_of_a g)⟩

/-- The partial fill is noticed before the fill of the rest, and not after it. -/
theorem late_slippage_unnoticed : ∃ g, Run Sample.options (Sample.found "a") g ∧
    (∀ e ∈ [Sample.slipped, Sample.filled], FillCallback g e) ∧
    ¬ OrderIndependent Sample.options g [Sample.slipped, Sample.filled] := by
  have h : (Transition.run (step Sample.options) initial (Sample.found "a")).any (fun g =>
      (handleAll Sample.options g [Sample.slipped, Sample.filled]).uncertainReason =
        some .fillSlippageExceeded ∧
      (handleAll Sample.options g [Sample.filled, Sample.slipped]).uncertainReason = none) := by
    decide +kernel
  obtain ⟨g, hrun, hg⟩ := (Option.any_eq_true _ _).mp h
  obtain ⟨hnoticed, hmissed⟩ := of_decide_eq_true hg
  refine ⟨g, hrun, Sample.fillCallback_of_a g, fun hindependent => ?_⟩
  have hsame := (hindependent _ (List.Perm.swap _ _ [])).1
  rw [hmissed, hnoticed] at hsame
  cases hsame

end ScalpingBot.Gateway
