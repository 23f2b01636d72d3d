import ScalpingBot.Gateway.Effects

/-! When the gateway may become certain again. `#uncertainReason` and `#slippageOrderGroupId` hold
    the last cause only. A recovery clears the reason when the last cause is slippage of the
    recovered group, whatever was latched before; every other latch stays for ever. So the reason is
    cleared too early exactly through a slippage latch that hides a cause of another group. -/

namespace ScalpingBot.Gateway

namespace CTraderDemoGateway

variable {o : CTraderDemoGatewayOptions} {g g' : CTraderDemoGateway}

/-- Every cause latched since the gateway was last certain is covered by a recovery. -/
def Covered (g : CTraderDemoGateway) : Prop := g.uncertainReason = none → g.causes = []

/-- A reason that a recovery can clear is the reason of the recovered group alone. -/
structure Coherent (g : CTraderDemoGateway) : Prop where
  certain : g.Covered
  slippage : g.uncertainReason = some .fillSlippageExceeded →
    ∃ gid, g.slippageOrderGroupId = some gid ∧ ∀ cause ∈ g.causes, cause.2 = gid

theorem coherent_initial : Coherent initial where
  certain := fun _ => rfl
  slippage := by simp [initial]

theorem Coherent.congr (h : Coherent g) (hr : g'.uncertainReason = g.uncertainReason)
    (hs : g'.slippageOrderGroupId = g.slippageOrderGroupId) (hc : g'.causes = g.causes) :
    Coherent g' where
  certain := by unfold Covered; rw [hr, hc]; exact h.certain
  slippage := by rw [hr, hs, hc]; exact h.slippage

theorem Coherent.frame (h : Coherent g) (hf : Frame g' g) : Coherent g' :=
  h.congr hf.uncertainReason hf.slippageOrderGroupId hf.causes

/-- A latch other than slippage is never cleared. -/
theorem coherent_latch (reason : UncertainReason) (gid : String)
    (hr : reason ≠ .fillSlippageExceeded) : Coherent (g.latch reason gid) where
  certain := by simp [Covered, latch]
  slippage := by simp [latch, hr]

theorem coherent_latchFill (reason : UncertainReason) (gid : String)
    (hcauses : reason = .fillSlippageExceeded → ∀ cause ∈ g.causes, cause.2 = gid) :
    Coherent (g.latchFill reason gid) := by
  unfold latchFill
  split
  · next hr =>
    refine ⟨by simp [Covered, latch], fun _ => ⟨gid, rfl, ?_⟩⟩
    simpa [latch] using hcauses hr
  · next hr => exact coherent_latch reason gid hr

theorem Coherent.acknowledge (h : Coherent g) {input : TerminalRecovery}
    (hack : g.acknowledgeCertainTerminalRecovery input = some g') : Coherent g' := by
  unfold acknowledgeCertainTerminalRecovery at hack
  split at hack
  · cases hack
  · split at hack
    · cases hack; exact h
    · next group _ =>
      obtain ⟨h1, h2, h3⟩ := retireAll_latches input group.orders g
      simp only at hack
      split at hack
      · next hclear =>
        cases hack
        obtain ⟨hreason, hgroup⟩ := hclear
        obtain ⟨gid, hgid, hall⟩ := h.slippage (h1 ▸ hreason)
        obtain rfl : gid = input.orderGroupId := by
          rw [h2, hgid] at hgroup
          exact Option.some.inj hgroup
        refine ⟨fun _ => ?_, by simp⟩
        simp only [h3, List.filter_eq_nil_iff]
        intro cause hcause
        simp [hall cause hcause]
      · cases hack
        refine ⟨fun hr => ?_, fun hr => ?_⟩
        · simp only [h3]
          rw [h.certain (h1 ▸ hr), List.filter_nil]
        · obtain ⟨gid, hgid, hall⟩ := h.slippage (h1 ▸ hr)
          refine ⟨gid, h2.trans hgid, fun cause hcause => hall cause ?_⟩
          rw [← h3]
          exact List.mem_of_mem_filter hcause

end CTraderDemoGateway

open CTraderDemoGateway

/-- The report is a fill of an order of the group `gid` beyond its slippage limits. -/
def Slips (o : CTraderDemoGatewayOptions) (g : CTraderDemoGateway) (e : BrokerExecution)
    (gid : String) : Prop :=
  ∃ order ref report price, e.order = some order ∧
    g.readReport e order = .ok (some (ref, report)) ∧
    (e.executionType = 3 ∨ e.executionType = 11) ∧ executionPrice e order = .ok price ∧
    fillReason o (g.tracked ref).command price = some .fillSlippageExceeded ∧
    gid = (g.tracked ref).command.orderGroupId

/-- The event brings no slippage of one group while a cause of another is uncovered. -/
def SlipsAlone (o : CTraderDemoGatewayOptions) (g : CTraderDemoGateway) (ev : Env × Event) : Prop :=
  ∀ e gid, reportOf ev.2 = some e → Slips o g e gid → ∀ cause ∈ g.causes, cause.2 = gid

theorem coherent_applied {o : CTraderDemoGatewayOptions} {g g' : CTraderDemoGateway}
    {e : BrokerExecution} (h : Coherent g)
    (halone : ∀ gid, Slips o g e gid → ∀ cause ∈ g.causes, cause.2 = gid)
    (happ : Applied o g e g') : Coherent g' := by
  cases happ with
  | ignored => exact h
  | updated order ref report x horder hread hx => exact h.congr rfl rfl rfl
  | latched order ref report x price reason horder hread hx hfill hprice hreason =>
    refine (coherent_latchFill (g := g) reason _ ?_).congr rfl rfl rfl
    rintro rfl
    exact halone _ ⟨order, ref, report, price, horder, hread, hfill, hprice, hreason, rfl⟩

theorem coherent_step (o : CTraderDemoGatewayOptions) (g : CTraderDemoGateway) (ev : Env × Event)
    (g' : CTraderDemoGateway) (h : Coherent g) (halone : SlipsAlone o g ev)
    (hstep : step o g ev = some g') : Coherent g' := by
  obtain ⟨env, ev⟩ := ev
  obtain ⟨g1, hcore, hframe⟩ := effect_step hstep
  refine Coherent.frame ?_ hframe
  cases hcore with
  | nothing => exact h
  | latched reason gid hr => exact coherent_latch reason gid hr
  | reported e he _ happ => exact coherent_applied h (fun gid => halone e gid he) happ
  | reportedLatched e he _ happ reason gid hr => exact coherent_latch reason gid hr
  | dispatchedFirst p hp => exact h.congr rfl rfl rfl
  | dispatchedSecond p hp _ _ _ => exact h.congr rfl rfl rfl
  | rejected now rc refs =>
    obtain ⟨h1, h2, h3⟩ := reject_latches now rc refs g
    exact h.congr h1 h2 h3
  | created p hp hstage raw hev now => exact h.congr rfl rfl rfl
  | recovered p hp hstage raw hev orders hfound => exact h.congr rfl rfl rfl
  | acknowledged input hev _ hack => exact h.acknowledge hack

/-- While no slippage is latched over a cause of another group, the gateway becomes certain only
    when every cause since it was last certain has been covered. -/
theorem certain_only_when_covered (o : CTraderDemoGatewayOptions) (es : List (Env × Event))
    (h : Transition.Guarded (step o) (SlipsAlone o) initial es) :
    Transition.Throughout (step o) Covered initial es :=
  Transition.throughout_of_guarded (I := Coherent) (fun _ h => h.certain) (coherent_step o)
    coherent_initial h

/-- The recovery of the sample pair `name`, its buy leg filled and its sell leg cancelled. -/
def recovery (name : String) : TerminalRecovery where
  orderGroupId := name
  terminalProofKey := "terminal:" ++ String.ofList (List.replicate 64 '0')
  certain := true
  orders := [⟨name ++ "-b", some (name ++ "1"), .filled, 1000, some 3, none⟩,
    ⟨name ++ "-s", some (name ++ "2"), .cancelled, 0, some 3, none⟩]

/-- A fill of the buy leg of the sample pair `name`, beyond its slippage limits. -/
def slip (name : String) : Env × Event :=
  ({ now := 1 }, .callback (Sample.report 3 (Sample.record name .buy 2 1000) (.value (12 / 10))))

theorem certain_only_when_covered_slip : Transition.Throughout (step Sample.options) Covered initial
    (Sample.found "a" ++ [slip "a", ({ now := 3 }, .acknowledge (recovery "a"))]) := by
  refine certain_only_when_covered Sample.options _ ?_
  refine Transition.guarded_of_checkRun
    (t := fun g ev => g.causes.isEmpty || (reportOf ev.2).isNone) (fun g ev h => ?_)
    (by decide +kernel)
  rcases Bool.or_eq_true_iff.mp h with hnil | hnone
  · intro e gid _ _ cause hcause
    rw [List.isEmpty_iff.mp hnil] at hcause
    cases hcause
  · intro e gid he
    rw [he] at hnone
    cases hnone

/-- Slippage of the pair `a`, then of the pair `b`, then a recovery of `b`. -/
def slippedTwice : List (Env × Event) :=
  Sample.found "a" ++ Sample.found "b" ++ [slip "a", slip "b", ({ now := 3 }, .acknowledge (recovery "b"))]

/-- The recovery of `b` makes the gateway certain although the slippage of `a` is uncovered. -/
theorem certain_with_uncovered_slippage : ∃ g, Run Sample.options slippedTwice g ∧
    g.uncertainReason = none ∧ g.causes = [(.fillSlippageExceeded, "a")] := by
  have h : (Transition.run (step Sample.options) initial slippedTwice).map
      (fun g => (g.uncertainReason, g.causes)) = some (none, [(.fillSlippageExceeded, "a")]) := by
    decide +kernel
  obtain ⟨g, hrun, hg⟩ := Option.map_eq_some_iff.mp h
  exact ⟨g, hrun, (Prod.mk.inj hg).1, (Prod.mk.inj hg).2⟩

end ScalpingBot.Gateway
