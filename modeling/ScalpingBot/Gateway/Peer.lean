import ScalpingBot.Gateway.Evolution

/-! A pair is never silently live on both sides: once a leg has a fill, its pending peer has been
    sent a cancellation, or the gateway is uncertain. `#cancelPendingPeer` sees to it after an
    execution callback and after the PLACE response of the second leg. Fill information that comes
    by another way (a recovered snapshot, the PLACE response of the first leg, the response to a
    cancellation) updates the tracked orders and leaves the peer alone. -/

namespace ScalpingBot.Gateway

open CTraderDemoGateway

variable {o : CTraderDemoGatewayOptions} {g g' g1 : CTraderDemoGateway} {ev : Env × Event} {ref : ℕ}

/-- A cancellation of the order has been sent. -/
def CancelSent (g : CTraderDemoGateway) (ref : ℕ) : Prop :=
  .cancel (g.tracked ref).command.clientOrderId ∈ g.sent

/-- Beside a filled leg of the group, a pending leg that the broker knows has been sent a cancel. -/
def Covers (g : CTraderDemoGateway) (group : TrackedGroup) : Prop :=
  ∀ x ∈ group.orders, ∀ y ∈ group.orders, x ≠ y → 0 < (g.tracked x).filledVolume →
    (g.tracked y).state = .pending → (g.tracked y).brokerOrderId ≠ none → CancelSent g y

/-- No pair is silently live on both sides. -/
def NeverSilent (g : CTraderDemoGateway) : Prop :=
  g.uncertainReason = none → ∀ group ∈ g.groups, Covers g group

/-! ### The cancellation of the peer -/

/-- A pending order has no fill. -/
def PendingUnfilled (g : CTraderDemoGateway) : Prop :=
  ∀ group ∈ g.groups, ∀ ref ∈ group.orders,
    (g.tracked ref).state = .pending → ¬ 0 < (g.tracked ref).filledVolume

theorem pair_cases {l : List ℕ} {x y : ℕ} (hlen : l.length ≤ 2) (hx : x ∈ l) (hy : y ∈ l)
    (hne : x ≠ y) : l = [x, y] ∨ l = [y, x] := by
  match l, hlen with
  | [a], _ =>
    rw [List.mem_singleton] at hx hy
    exact absurd (hx.trans hy.symm) hne
  | [a, b], _ =>
    simp only [List.mem_cons, List.not_mem_nil, or_false] at hx hy
    rcases hx with rfl | rfl <;> rcases hy with rfl | rfl
    · exact absurd rfl hne
    · exact Or.inl rfl
    · exact Or.inr rfl
    · exact absurd rfl hne

theorem covers_cancelPendingPeer {group : TrackedGroup} (hpair : group.orders.length ≤ 2)
    (hzero : ∀ ref ∈ group.orders, (g.tracked ref).state = .pending →
      ¬ 0 < (g.tracked ref).filledVolume)
    (hflight : ∀ id ∈ g.cancelInFlight, .cancel id ∈ g.sent) :
    Covers (g.cancelPendingPeer group) group := by
  intro x hx y hy hne hvol hstate hid
  have hframe := frame_cancelPendingPeer (g := g) group
  rw [hframe.tracked] at hvol hstate hid
  have hy0 := hzero y hy hstate
  have hfilled : group.orders.find? (fun ref => 0 < (g.tracked ref).filledVolume) = some x := by
    rcases pair_cases hpair hx hy hne with he | he <;> simp [he, hvol, hy0]
  have hpeer : group.orders.find? (fun ref => ref ≠ x) = some y := by
    rcases pair_cases hpair hx hy hne with he | he <;> simp [he, hne.symm]
  unfold CancelSent
  rw [hframe.tracked]
  simp only [cancelPendingPeer, hfilled, hpeer]
  rw [if_neg (by simp [hid, hstate])]
  split
  · next hin => exact hflight _ hin
  · exact List.mem_cons_self ..

/-! ### The condition on the events -/

/-- The report gives a fill to a leg beside a pending one, or makes a leg PENDING beside a filled
    one, and no cancellation of the pending leg has been sent. -/
def Exposes (g : CTraderDemoGateway) (ref : ℕ) (report : Report) : Prop :=
  ∃ group ∈ g.groups, ref ∈ group.orders ∧ ∃ y ∈ group.orders, y ≠ ref ∧
    ((0 < report.filledVolume ∧ (g.tracked y).state = .pending ∧
        (g.tracked y).brokerOrderId ≠ none ∧ ¬ CancelSent g y) ∨
      (report.state = .pending ∧ 0 < (g.tracked y).filledVolume ∧ ¬ CancelSent g ref))

/-- The event goes on to `#cancelPendingPeer` for the group of the order. -/
def CancelsPeer (g : CTraderDemoGateway) (ref : ℕ) : Event → Prop
  | .callback _ => True
  | .resume _ => ∃ p, g.placing = some p ∧ p.stage = .placeSecond ∧ ref ∈ p.orders
  | _ => False

/-- The price of a fill, if it is one, can be read. -/
def PriceReadable (e : BrokerExecution) (order : BrokerOrder) : Prop :=
  e.executionType = 3 ∨ e.executionType = 11 → ∃ price, executionPrice e order = .ok price

/-- No event leaves a filled leg beside a pending one on a way that does not cancel the peer. -/
structure Regular (o : CTraderDemoGatewayOptions) (g : CTraderDemoGateway) (ev : Env × Event) :
    Prop where
  pending : ∀ e order ref report, reportOf ev.2 = some e → e.order = some order →
    g.readReport e order = .ok (some (ref, report)) → report.state = .pending →
    ¬ 0 < report.filledVolume
  exposes : ∀ e order ref report, reportOf ev.2 = some e → e.order = some order →
    g.readReport e order = .ok (some (ref, report)) → g.uncertainReason = none →
    ¬ FillLatches o g e order ref → Exposes g ref report →
    CancelsPeer g ref ev.2 ∧ PriceReadable e order
  recovers : ∀ p raw orders, g.placing = some p → p.stage = .preflight →
    ev.2 = .resume (.reconciled raw) → recoverOrders o raw p.commands = .ok (.orders orders) →
    (∀ x ∈ orders, x.state = .pending → ¬ 0 < x.filledVolume) ∧
    (g.uncertainReason = none → ∀ x ∈ orders, 0 < x.filledVolume → ∀ y ∈ orders, y.state ≠ .pending)
  acknowledges : ∀ input group, ev.2 = .acknowledge input → g.uncertainReason ≠ none →
    g.recoveredGroup input = some group → ∀ group' ∈ g.groups, group' ≠ group → Covers g group'

/-! ### What every event keeps -/

theorem applied_certain {e : BrokerExecution} (h : Applied o g e g1)
    (hnone : g1.uncertainReason = none) : g.uncertainReason = none := by
  cases h with
  | ignored => exact hnone
  | updated => exact hnone
  | latched => exact absurd hnone latchFill_uncertain

theorem certain_of_core (h : Core o g ev.2 g1) (hack : ∀ input, ev.2 ≠ .acknowledge input)
    (hnone : g1.uncertainReason = none) : g.uncertainReason = none := by
  cases h with
  | nothing | dispatchedFirst | dispatchedSecond | created | recovered => exact hnone
  | latched reason gid hr => cases hnone
  | reported e he _ happ => exact applied_certain happ hnone
  | reportedLatched => cases hnone
  | rejected now rc refs => exact (reject_latches now rc refs g).1 ▸ hnone
  | acknowledged input hev => exact absurd hev (hack input)

theorem sent_step (h : step o g ev = some g') : ∃ l, g'.sent = l ++ g.sent := by
  obtain ⟨g1, hcore, hframe⟩ := effect_step h
  obtain ⟨ids, hids⟩ := hframe.sent
  rcases core_sent hcore with hs | ⟨p, _, hs⟩ | ⟨p, _, hs, _⟩ <;> rw [hids, hs]
  · exact ⟨_, rfl⟩
  · exact ⟨_, (List.append_assoc _ [_] _).symm⟩
  · exact ⟨_, (List.append_assoc _ [_] _).symm⟩

theorem cancelInFlight_of_core (h : Core o g ev.2 g1) : g1.cancelInFlight = g.cancelInFlight := by
  cases h with
  | nothing | latched | dispatchedFirst | dispatchedSecond | created | recovered => rfl
  | reported e he _ happ | reportedLatched e he _ happ => exact happ.placing.2
  | rejected now rc refs =>
    induction refs generalizing g with
    | nil => rfl
    | cons r refs ih => exact ih
  | acknowledged input hev _ hack =>
    rcases acknowledge_cases hack with ⟨rfl, -⟩ | ⟨group, _, _, _, _, _, _, hflight, _⟩
    · rfl
    · exact hflight

/-- A cancellation in flight has been sent. -/
def FlightSent (g : CTraderDemoGateway) : Prop := ∀ id ∈ g.cancelInFlight, .cancel id ∈ g.sent

theorem flightSent_step (hf : FlightSent g) (h : step o g ev = some g') : FlightSent g' := by
  intro id hid
  obtain ⟨g1, hcore, hframe⟩ := effect_step h
  obtain ⟨l, hl⟩ := sent_step h
  rcases hframe.cancelInFlight id hid with hold | hsent
  · rw [cancelInFlight_of_core hcore] at hold
    exact hl ▸ List.mem_append_right _ (hf id hold)
  · exact hsent

theorem CancelSent.step (hi : Inv g) (h : step o g ev = some g') (href : ref < g.created)
    (hc : CancelSent g ref) : CancelSent g' ref := by
  obtain ⟨l, hl⟩ := sent_step h
  unfold CancelSent
  rw [evolves_command (evolves_step hi h href), hl]
  exact List.mem_append_right _ hc

/-- A group that an event adds holds new orders, or the orders of a recovered snapshot. -/
theorem group_cases {group : TrackedGroup} (h : Core o g ev.2 g1) (hg : group ∈ g1.groups) :
    group ∈ g.groups ∨
    (∀ ref ∈ group.orders, (g1.tracked ref).filledVolume = 0 ∧ (g1.tracked ref).state = .unknown) ∨
    ∃ p raw orders, g.placing = some p ∧ p.stage = .preflight ∧
      ev.2 = .resume (.reconciled raw) ∧ recoverOrders o raw p.commands = .ok (.orders orders) ∧
      ∀ ref ∈ group.orders, g1.tracked ref ∈ orders := by
  have hnew : ∀ key gid (orders : List TrackedOrder), group ∈ (g.track key gid orders).1.groups →
      group ∈ g.groups ∨ ∀ ref ∈ group.orders, (g.track key gid orders).1.tracked ref ∈ orders := by
    intro key gid orders hg
    rw [track_groups] at hg
    rcases List.mem_append.mp hg with hold | hlast
    · exact Or.inl hold
    · refine Or.inr fun ref href => ?_
      rw [List.mem_singleton.mp hlast] at href
      obtain ⟨hle, hlt⟩ := (mem_track key gid).mp href
      obtain ⟨i, rfl⟩ := Nat.exists_eq_add_of_le hle
      rw [track_tracked_new (by omega)]
      exact List.getElem_mem _
  cases h with
  | nothing | latched | dispatchedFirst | dispatchedSecond => exact Or.inl hg
  | reported e he _ happ | reportedLatched e he _ happ => exact Or.inl (happ.maps.2.1 ▸ hg)
  | rejected now rc refs => exact Or.inl ((reject_maps now rc refs g).2.1 ▸ hg)
  | created p hp hstage raw hev now =>
    refine (hnew _ _ _ hg).imp_right fun hall => Or.inl fun ref href => ?_
    obtain ⟨c, -, hc⟩ := List.mem_map.mp (hall ref href)
    rw [← hc]
    exact ⟨rfl, rfl⟩
  | recovered p hp hstage raw hev orders hfound =>
    exact (hnew _ _ _ hg).imp_right fun hall =>
      Or.inr ⟨p, raw, orders, hp, hstage, hev, hfound, hall⟩
  | acknowledged input hev _ hack =>
    rcases acknowledge_cases hack with ⟨rfl, -⟩ | ⟨_, _, _, _, _, hgroups, _⟩
    · exact Or.inl hg
    · exact Or.inl (hgroups ▸ hg)

theorem pendingUnfilled_step (hi : Inv g) (hz : PendingUnfilled g) (hreg : Regular o g ev)
    (h : step o g ev = some g') : PendingUnfilled g' := by
  intro group hgroup ref href hstate
  obtain ⟨g1, hcore, hframe⟩ := effect_step h
  rcases group_cases hcore (hframe.groups ▸ hgroup) with hold | hnew | hrec
  · have hlt := hi.group_ref group hold ref href
    cases evolves_step hi h hlt with
    | same h =>
      rw [h] at hstate ⊢
      exact hz group hold ref href hstate
    | reported e order report he horder hread h hlatch =>
      rw [h.filledVolume]
      exact hreg.pending e order ref report he horder hread (h.state ▸ hstate)
    | rejected h => rw [h.state] at hstate; cases hstate
    | retired h hgone input hev =>
      have := h.state
      rw [hstate] at this
      cases this
  · rw [hframe.tracked, (hnew ref href).2] at hstate
    cases hstate
  · obtain ⟨p, raw, orders, hp, hstage, hev, hfound, hall⟩ := hrec
    rw [hframe.tracked] at hstate ⊢
    exact (hreg.recovers p raw orders hp hstage hev hfound).1 _ (hall ref href) hstate

/-! ### The ways that cancel the peer -/

theorem applyExecution_ok {e : BrokerExecution} {order : BrokerOrder} {report : Report}
    {c : Option String} (horder : e.order = some order)
    (hread : g.readReport e order = .ok (some (ref, report))) (hprice : PriceReadable e order) :
    (g.applyExecution o e c).2 = none := by
  unfold applyExecution
  simp only [horder, hread, write]
  split
  · next hfill =>
    obtain ⟨price, hok⟩ := hprice hfill
    rw [hok]
  · rfl

theorem handleExecution_cancels {e : BrokerExecution} {order : BrokerOrder} {report : Report}
    (hi : Inv g) (horder : e.order = some order)
    (hread : g.readReport e order = .ok (some (ref, report))) (hprice : PriceReadable e order) :
    ∃ g1 group, Applied o g e g1 ∧ group ∈ g1.groups ∧ ref ∈ group.orders ∧
      g.handleExecution o e = g1.cancelPendingPeer group := by
  obtain ⟨hopening, ⟨id, hclient, hid⟩, -, -⟩ := accepted hread
  have happ := applied (o := o) (g := g) e none
  have hok := applyExecution_ok (o := o) (c := none) horder hread hprice
  cases hres : g.applyExecution o e none with
  | mk g1 err =>
    rw [hres] at happ hok
    obtain rfl : err = none := hok
    obtain ⟨hc, hgroups, horders, -⟩ := happ.maps
    have hid1 : g1.orders id = some ref := horders ▸ hid
    obtain ⟨group0, hmem0, href0⟩ := hi.order_group id ref hid
    cases hfind : g1.groups.find? (fun group => ref ∈ group.orders) with
    | none =>
      have := List.find?_eq_none.mp hfind group0 (hgroups ▸ hmem0)
      exact absurd href0 (by simpa using this)
    | some group =>
      have href : ref ∈ group.orders := by simpa using List.find?_some hfind
      refine ⟨g1, group, happ, List.mem_of_find?_eq_some hfind, href, ?_⟩
      simp [handleExecution, horder, hopening, hres, hclient, hid1, hfind]

theorem placeSecond_cancels {e : BrokerExecution} {order : BrokerOrder} {report : Report}
    {p : Placement} {env : Env} (hp : g.placing = some p) (hstage : p.stage = .placeSecond)
    (horder : e.order = some order) (hread : g.readReport e order = .ok (some (ref, report)))
    (hprice : PriceReadable e order) (h : step o g (env, .resume (.executed e)) = some g') :
    ∃ g1, Applied o g e g1 ∧ Frame g' (g1.cancelPendingPeer (groupOf p)) := by
  have happ := applied (o := o) (g := g) e none
  have hok := applyExecution_ok (o := o) (c := none) horder hread hprice
  cases hres : g.applyExecution o e none with
  | mk g1 err =>
    rw [hres] at happ hok
    obtain rfl : err = none := hok
    simp only [step, hp, Option.bind_some, resume, hstage, hres, Option.some.injEq] at h
    exact ⟨g1, happ, h ▸ frame_suspend p _⟩

/-- After such an event the group of the order is covered. -/
theorem covers_of_cancelsPeer {e : BrokerExecution} {order : BrokerOrder} {report : Report}
    {group : TrackedGroup} (hi : Inv g) (hf : FlightSent g) (hz' : PendingUnfilled g')
    (h : step o g ev = some g') (he : reportOf ev.2 = some e) (horder : e.order = some order)
    (hread : g.readReport e order = .ok (some (ref, report))) (hprice : PriceReadable e order)
    (hcancels : CancelsPeer g ref ev.2) (hgroup : group ∈ g.groups) (href : ref ∈ group.orders) :
    Covers g' group := by
  have hflight : ∀ g1, Applied o g e g1 → ∀ id ∈ g1.cancelInFlight, .cancel id ∈ g1.sent :=
    fun g1 happ id hid => by
      rw [happ.maps.2.2.2]
      exact hf id (happ.placing.2 ▸ hid)
  have hcover : ∀ g1 group', Applied o g e g1 → group' ∈ g1.groups → ref ∈ group'.orders →
      Frame g' (g1.cancelPendingPeer group') → Covers g' group := by
    intro g1 group' happ hmem href' hframe
    rw [happ.maps.2.1] at hmem
    obtain rfl := hi.group_unique group hgroup group' hmem ref href href'
    have hframe1 := hframe.trans (frame_cancelPendingPeer (g := g1) group)
    have hcov := covers_cancelPendingPeer (g := g1) (hi.group_pair group hmem)
      (fun r hr => by
        have := hz' group (hframe1.groups ▸ happ.maps.2.1 ▸ hgroup) r hr
        rwa [hframe1.tracked] at this)
      (hflight g1 happ)
    obtain ⟨ids, hids⟩ := hframe.sent
    intro x hx y hy hne hvol hstate hid
    rw [hframe.tracked] at hvol hstate hid
    have hsent := hcov x hx y hy hne hvol hstate hid
    unfold CancelSent
    rw [hframe.tracked, hids]
    exact List.mem_append_right _ hsent
  obtain ⟨env, ev⟩ := ev
  cases ev with
  | callback e' =>
    obtain rfl : e' = e := Option.some.inj he
    obtain ⟨g1, group', happ, hmem, href', heq⟩ := handleExecution_cancels hi horder hread hprice
    have hg' : g' = g.handleExecution o e' := (Option.some.inj h).symm
    exact hcover g1 group' happ hmem href' (by rw [hg', heq]; exact Frame.refl _)
  | resume response =>
    cases response with
    | executed e' =>
      obtain rfl : e' = e := Option.some.inj he
      obtain ⟨p, hp, hstage, hrefp⟩ := hcancels
      obtain ⟨g1, happ, hframe⟩ := placeSecond_cancels hp hstage horder hread hprice h
      have hmem := (hi.placing p hp).group (by rw [hstage]; decide)
      exact hcover g1 (groupOf p) happ (happ.maps.2.1 ▸ hmem) hrefp hframe
    | reconciled raw => cases he
    | session status => cases he
    | ready certain => cases he
    | failed error => cases he
  | placeDirectional c => cases he
  | placeOco first second => cases he
  | cancelStrategyOrder id rc => cases he
  | cancellationDone c response => exact hcancels.elim
  | acknowledge input => cases he

/-! ### One event, and whole runs -/

theorem neverSilent_acknowledge {input : TerminalRecovery} (hi : Inv g) (hs : NeverSilent g)
    (hreg : Regular o g ev) (hev : ev.2 = .acknowledge input)
    (h : g.acknowledgeCertainTerminalRecovery input = some g') : NeverSilent g' := by
  intro hnone group hgroup
  rcases acknowledge_cases h with ⟨rfl, -⟩ |
    ⟨group0, hmem0, hrec, htracked, -, hgroups, hsent, -, -, -, -⟩
  · exact hs hnone group hgroup
  · rw [hgroups] at hgroup
    have hretire := retireAll_tracked group0.orders g (hi.group_nodup group0 hmem0)
      (proved_of_recoveredGroup hrec)
    intro x hx y hy hne hvol hstate hid
    by_cases hsame : group = group0
    · subst hsame
      have hterm := ((hretire y).2 hy).1.state
      rw [← htracked, hstate] at hterm
      cases hterm
    · have hkeep : ∀ r ∈ group.orders, g'.tracked r = g.tracked r := fun r hr => by
        rw [htracked]
        exact (hretire r).1 fun hr0 =>
          hsame (hi.group_unique group hgroup group0 hmem0 r hr hr0)
      have hcov : Covers g group := by
        by_cases hcertain : g.uncertainReason = none
        · exact hs hcertain group hgroup
        · exact hreg.acknowledges input group0 hev hcertain hrec group hgroup hsame
      rw [hkeep x hx] at hvol
      rw [hkeep y hy] at hstate hid
      unfold CancelSent
      rw [hkeep y hy, hsent]
      exact hcov x hx y hy hne hvol hstate hid

theorem neverSilent_step (hi : Inv g) (hz : PendingUnfilled g) (hf : FlightSent g)
    (hs : NeverSilent g) (hreg : Regular o g ev) (h : step o g ev = some g') : NeverSilent g' := by
  by_cases hack : ∃ input, ev.2 = .acknowledge input
  · obtain ⟨input, hev⟩ := hack
    obtain ⟨env, ev⟩ := ev
    obtain rfl : ev = .acknowledge input := hev
    exact neverSilent_acknowledge hi hs hreg rfl h
  · have hack' : ∀ input, ev.2 ≠ .acknowledge input := fun input hev => hack ⟨input, hev⟩
    intro hnone group hgroup
    obtain ⟨g1, hcore, hframe⟩ := effect_step h
    have hcertain := certain_of_core hcore hack' (hframe.uncertainReason ▸ hnone)
    intro x hx y hy hne hvol hstate hid
    rcases group_cases hcore (hframe.groups ▸ hgroup) with hold | hnew | hrec
    · have hltx := hi.group_ref group hold x hx
      have hlty := hi.group_ref group hold y hy
      -- a report on `ref` that exposes the pair comes by a way that covers it
      have hreported : ∀ e order ref report, reportOf ev.2 = some e → e.order = some order →
          g.readReport e order = .ok (some (ref, report)) → ¬ FillLatches o g e order ref →
          ref ∈ group.orders → Exposes g ref report → CancelSent g' y := by
        intro e order ref report he horder hread hno href hexp
        obtain ⟨hcancels, hprice⟩ := hreg.exposes e order ref report he horder hread hcertain hno hexp
        exact covers_of_cancelsPeer hi hf (pendingUnfilled_step hi hz hreg h) h he horder hread
          hprice hcancels hold href x hx y hy hne hvol hstate hid
      have hbefore : CancelSent g y → CancelSent g' y := CancelSent.step hi h hlty
      by_contra hnot
      have hopen : ¬ CancelSent g y := fun hc => hnot (hbefore hc)
      cases evolves_step hi h hlty with
      | reported e order report he horder hread hrep hlatch =>
        have hxsame : 0 < (g.tracked x).filledVolume := by
          cases evolves_step hi h hltx with
          | same h => rwa [h] at hvol
          | reported e' order' report' he' horder' hread' hrep' _ =>
            obtain rfl := Option.some.inj (he.symm.trans he')
            obtain rfl := Option.some.inj (horder.symm.trans horder')
            cases hread.symm.trans hread'
            exact absurd rfl hne
          | rejected h => rwa [h.filledVolume] at hvol
          | retired h hgone input hev => exact absurd hev (hack' input)
        exact hnot (hreported e order y report he horder hread (hlatch hnone) hy
          ⟨group, hold, hy, x, hx, hne, Or.inr ⟨hrep.state ▸ hstate, hxsame, hopen⟩⟩)
      | rejected h => rw [h.state] at hstate; cases hstate
      | retired h hgone input hev => exact hack' input hev
      | same hysame =>
        rw [hysame] at hstate hid
        cases evolves_step hi h hltx with
        | same h =>
          rw [h] at hvol
          exact hopen (hs hcertain group hold x hx y hy hne hvol hstate hid)
        | rejected h =>
          rw [h.filledVolume] at hvol
          exact hopen (hs hcertain group hold x hx y hy hne hvol hstate hid)
        | retired h hgone input hev => exact hack' input hev
        | reported e order report he horder hread hrep hlatch =>
          exact hnot (hreported e order x report he horder hread (hlatch hnone) hx
            ⟨group, hold, hx, y, hy, hne.symm,
              Or.inl ⟨hrep.filledVolume ▸ hvol, hstate, hid, hopen⟩⟩)
    · rw [hframe.tracked, (hnew x hx).1] at hvol
      exact absurd hvol (lt_irrefl _)
    · obtain ⟨p, raw, orders, hp, hstage, hev, hfound, hall⟩ := hrec
      rw [hframe.tracked] at hvol hstate
      exact absurd hstate ((hreg.recovers p raw orders hp hstage hev hfound).2 hcertain
        _ (hall x hx) hvol _ (hall y hy))

/-- The invariant behind `NeverSilent`. -/
structure Watched (g : CTraderDemoGateway) : Prop extends Inv g where
  pendingUnfilled : PendingUnfilled g
  flightSent : FlightSent g
  neverSilent : NeverSilent g

theorem watched_initial : Watched initial where
  toShape := shape_initial
  keyed := by simp [Keyed, initial]
  pendingUnfilled := by simp [PendingUnfilled, initial]
  flightSent := by simp [FlightSent, initial]
  neverSilent := by simp [NeverSilent, initial]

theorem watched_step (o : CTraderDemoGatewayOptions) (g : CTraderDemoGateway) (ev : Env × Event)
    (g' : CTraderDemoGateway) (hw : Watched g) (hreg : Regular o g ev)
    (h : step o g ev = some g') : Watched g' :=
  { inv_step o g ev g' hw.toInv h with
    pendingUnfilled := pendingUnfilled_step hw.toInv hw.pendingUnfilled hreg h
    flightSent := flightSent_step hw.flightSent h
    neverSilent := neverSilent_step hw.toInv hw.pendingUnfilled hw.flightSent hw.neverSilent hreg h }

/-- A test that implies `Regular`, for placements, recovered snapshots and callbacks. -/
def regular (o : CTraderDemoGatewayOptions) (g : CTraderDemoGateway) (ev : Env × Event) : Bool :=
  match ev.2 with
  | .placeOco _ _ => true
  | .resume (.reconciled raw) =>
    match g.placing with
    | none => true
    | some p =>
      match recoverOrders o raw p.commands with
      | .ok (.orders orders) => orders.all fun x => ¬ 0 < x.filledVolume
      | _ => true
  | .callback e =>
    match e.order with
    | none => true
    | some order =>
      match g.readReport e order, executionPrice e order with
      | .ok (some (_, report)), .ok _ => report.state ≠ .pending
      | _, _ => false
  | _ => false

theorem regular_sound (o : CTraderDemoGatewayOptions) (g : CTraderDemoGateway) (ev : Env × Event)
    (h : regular o g ev) : Regular o g ev := by
  obtain ⟨env, ev⟩ := ev
  cases ev with
  | placeOco first second =>
    exact ⟨fun _ _ _ _ he => (by cases he), fun _ _ _ _ he => (by cases he),
      fun _ _ _ _ _ he => (by cases he), fun _ _ he => (by cases he)⟩
  | resume response =>
    cases response with
    | reconciled raw =>
      refine ⟨fun _ _ _ _ he => (by cases he), fun _ _ _ _ he => (by cases he),
        fun p raw' orders hp hstage hev hfound => ?_, fun _ _ he => (by cases he)⟩
      cases hev
      simp only [regular, hp, hfound, List.all_eq_true, decide_eq_true_eq] at h
      exact ⟨fun x hx _ => h x hx, fun _ x hx hpos => absurd hpos (h x hx)⟩
    | session status => cases h
    | ready certain => cases h
    | executed e => cases h
    | failed error => cases h
  | callback e =>
    have hcheck : ∀ order ref report, e.order = some order →
        g.readReport e order = .ok (some (ref, report)) →
        report.state ≠ .pending ∧ ∃ price, executionPrice e order = .ok price := by
      intro order ref report horder hread
      simp only [regular, horder, hread] at h
      split at h
      · next hprice =>
        cases ‹Except.ok (some (ref, report)) = _›
        exact ⟨of_decide_eq_true h, _, hprice⟩
      · cases h
    refine ⟨fun e' order ref report he horder hread hp => ?_,
      fun e' order ref report he horder hread _ _ _ => ?_,
      fun _ _ _ _ _ he => (by cases he), fun _ _ he => (by cases he)⟩
    · cases he
      exact absurd hp (hcheck order ref report horder hread).1
    · cases he
      exact ⟨trivial, fun _ => (hcheck order ref report horder hread).2⟩
  | placeDirectional c => cases h
  | cancelStrategyOrder id rc => cases h
  | cancellationDone c response => cases h
  | acknowledge input => cases h

end ScalpingBot.Gateway
