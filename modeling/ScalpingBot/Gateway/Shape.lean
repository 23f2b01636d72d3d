import ScalpingBot.Gateway.Effects

/-! The shape of the gateway's maps in every reachable state: a tracked order is in one group of at
    most two, and the running placement's orders form one of the groups. -/

namespace ScalpingBot.Gateway

namespace CTraderDemoGateway

variable {o : CTraderDemoGatewayOptions} {g g' : CTraderDemoGateway} {env : Env} {ev : Event}
  {p : Placement}

/-- The maps refer to existing objects, and no object is in two groups. -/
structure Maps (g : CTraderDemoGateway) : Prop where
  order_group : ∀ id ref, g.orders id = some ref → ∃ group ∈ g.groups, ref ∈ group.orders
  group_ref : ∀ group ∈ g.groups, ∀ ref ∈ group.orders, ref < g.created
  group_unique : ∀ group ∈ g.groups, ∀ group' ∈ g.groups, ∀ ref,
    ref ∈ group.orders → ref ∈ group'.orders → group = group'
  group_nodup : ∀ group ∈ g.groups, group.orders.Nodup
  group_pair : ∀ group ∈ g.groups, group.orders.length ≤ 2

/-- A running placement has at most two commands, and once it tracks orders they are a group. -/
structure Placing (g : CTraderDemoGateway) (p : Placement) : Prop where
  commands : p.commands.length ≤ 2
  fresh : p.stage = .preflight → p.orders = []
  group : p.stage ≠ .preflight → groupOf p ∈ g.groups

structure Shape (g : CTraderDemoGateway) : Prop extends Maps g where
  placing : ∀ p, g.placing = some p → Placing g p

theorem maps_initial : Maps initial where
  order_group := by simp [initial]
  group_ref := by simp [initial]
  group_unique := by simp [initial]
  group_nodup := by simp [initial]
  group_pair := by simp [initial]

theorem shape_initial : Shape initial where
  toMaps := maps_initial
  placing := by simp [initial]

/-- Groups only come, and an id may only be forgotten. -/
theorem Maps.shrink (h : Maps g) (hc : g'.created = g.created) (hg : g'.groups = g.groups)
    (ho : ∀ id ref, g'.orders id = some ref → g.orders id = some ref) : Maps g' where
  order_group id ref hid := by rw [hg]; exact h.order_group id ref (ho id ref hid)
  group_ref := by rw [hg, hc]; exact h.group_ref
  group_unique := by rw [hg]; exact h.group_unique
  group_nodup := by rw [hg]; exact h.group_nodup
  group_pair := by rw [hg]; exact h.group_pair

theorem Maps.frame (h : Maps g) (hf : Frame g' g) : Maps g' :=
  h.shrink hf.created hf.groups fun id ref hid => by rwa [← hf.orders]

/-! ### Tracking new orders -/

theorem mem_refs {n k ref : ℕ} :
    ref ∈ (List.range n).map (k + ·) ↔ k ≤ ref ∧ ref < k + n := by
  simp only [List.mem_map, List.mem_range]
  constructor
  · rintro ⟨i, hi, rfl⟩
    omega
  · rintro ⟨h1, h2⟩
    exact ⟨ref - k, by omega, by omega⟩

theorem track_groups (key gid : String) (orders : List TrackedOrder) :
    (g.track key gid orders).1.groups = g.groups ++ [⟨key, gid, (g.track key gid orders).2⟩] := rfl

theorem mem_track (key gid : String) {orders : List TrackedOrder} {ref : ℕ} :
    ref ∈ (g.track key gid orders).2 ↔ g.created ≤ ref ∧ ref < g.created + orders.length :=
  mem_refs

theorem track_orders {key gid : String} {orders : List TrackedOrder} {id : String} {ref : ℕ}
    (h : (g.track key gid orders).1.orders id = some ref) :
    ref ∈ (g.track key gid orders).2 ∨ g.orders id = some ref := by
  simp only [track] at h
  split at h
  · next r hr =>
    cases h
    have hmem := List.mem_reverse.mp (List.mem_of_find?_eq_some hr)
    exact Or.inl (List.of_mem_zip hmem).1
  · exact Or.inr h

theorem track_tracked_old {key gid : String} {orders : List TrackedOrder} {ref : ℕ}
    (h : ref < g.created) : (g.track key gid orders).1.tracked ref = g.tracked ref := by
  simp [track, Nat.not_le.mpr h]

theorem track_tracked_new {key gid : String} {orders : List TrackedOrder} {i : ℕ}
    (h : i < orders.length) :
    (g.track key gid orders).1.tracked (g.created + i) = orders[i] := by
  simp [track, h]

theorem Maps.track (h : Maps g) (key gid : String) {orders : List TrackedOrder}
    (hpair : orders.length ≤ 2) : Maps (g.track key gid orders).1 where
  order_group id ref hid := by
    rw [track_groups]
    rcases track_orders hid with hnew | hold
    · exact ⟨_, List.mem_append_right _ (List.mem_singleton_self _), hnew⟩
    · obtain ⟨group, hgroup, href⟩ := h.order_group id ref hold
      exact ⟨group, List.mem_append_left _ hgroup, href⟩
  group_ref group hgroup ref href := by
    rw [track_groups] at hgroup
    rcases List.mem_append.mp hgroup with hold | hnew
    · exact Nat.lt_of_lt_of_le (h.group_ref group hold ref href) (Nat.le_add_right _ _)
    · cases List.mem_singleton.mp hnew
      exact ((mem_track key gid).mp href).2
  group_unique group hgroup group' hgroup' ref href href' := by
    rw [track_groups] at hgroup hgroup'
    rcases List.mem_append.mp hgroup with hold | hnew <;>
      rcases List.mem_append.mp hgroup' with hold' | hnew'
    · exact h.group_unique group hold group' hold' ref href href'
    · cases List.mem_singleton.mp hnew'
      have := h.group_ref group hold ref href
      have := ((mem_track key gid).mp href').1
      omega
    · cases List.mem_singleton.mp hnew
      have := h.group_ref group' hold' ref href'
      have := ((mem_track key gid).mp href).1
      omega
    · rw [List.mem_singleton.mp hnew, List.mem_singleton.mp hnew']
  group_nodup group hgroup := by
    rw [track_groups] at hgroup
    rcases List.mem_append.mp hgroup with hold | hnew
    · exact h.group_nodup group hold
    · cases List.mem_singleton.mp hnew
      exact List.nodup_range.map fun a b hab => Nat.add_left_cancel hab
  group_pair group hgroup := by
    rw [track_groups] at hgroup
    rcases List.mem_append.mp hgroup with hold | hnew
    · exact h.group_pair group hold
    · cases List.mem_singleton.mp hnew
      simpa [CTraderDemoGateway.track] using hpair

/-! ### The other effects -/

theorem Applied.maps {e : BrokerExecution} (h : Applied o g e g') :
    g'.created = g.created ∧ g'.groups = g.groups ∧ g'.orders = g.orders ∧ g'.sent = g.sent := by
  cases h with
  | ignored => exact ⟨rfl, rfl, rfl, rfl⟩
  | updated => exact ⟨rfl, rfl, rfl, rfl⟩
  | latched =>
    unfold latchFill
    split <;> exact ⟨rfl, rfl, rfl, rfl⟩

theorem reject_maps (now : ℕ) (rc : String) : ∀ (refs : List ℕ) (g : CTraderDemoGateway),
    (g.reject now rc refs).created = g.created ∧ (g.reject now rc refs).groups = g.groups ∧
    (g.reject now rc refs).orders = g.orders ∧ (g.reject now rc refs).sent = g.sent
  | [], _ => ⟨rfl, rfl, rfl, rfl⟩
  | ref :: refs, g => reject_maps now rc refs (g.setTracked ref _)

theorem retire_maps (input : TerminalRecovery) (ref : ℕ) :
    (g.retire input ref).created = g.created ∧ (g.retire input ref).groups = g.groups ∧
    (g.retire input ref).sent = g.sent ∧ (g.retire input ref).cancelInFlight = g.cancelInFlight ∧
    (g.retire input ref).placing = g.placing ∧
    ∀ id r, (g.retire input ref).orders id = some r → g.orders id = some r := by
  unfold retire
  simp only
  split
  · exact ⟨rfl, rfl, rfl, rfl, rfl, fun _ _ => id⟩
  · refine ⟨rfl, rfl, rfl, rfl, rfl, fun id r hid => ?_⟩
    by_cases he : id = (g.tracked ref).command.clientOrderId
    · simp [he] at hid
    · simpa [Function.update_of_ne he] using hid

theorem retireAll_maps (input : TerminalRecovery) : ∀ (refs : List ℕ) (g : CTraderDemoGateway),
    (refs.foldl (fun g ref => g.retire input ref) g).created = g.created ∧
    (refs.foldl (fun g ref => g.retire input ref) g).groups = g.groups ∧
    (refs.foldl (fun g ref => g.retire input ref) g).sent = g.sent ∧
    (refs.foldl (fun g ref => g.retire input ref) g).cancelInFlight = g.cancelInFlight ∧
    (refs.foldl (fun g ref => g.retire input ref) g).placing = g.placing ∧
    ∀ id r, (refs.foldl (fun g ref => g.retire input ref) g).orders id = some r →
      g.orders id = some r
  | [], _ => ⟨rfl, rfl, rfl, rfl, rfl, fun _ _ => id⟩
  | ref :: refs, g => by
    obtain ⟨h1, h2, h3, h4, h5, h6⟩ := retireAll_maps input refs (g.retire input ref)
    obtain ⟨k1, k2, k3, k4, k5, k6⟩ := retire_maps (g := g) input ref
    exact ⟨h1.trans k1, h2.trans k2, h3.trans k3, h4.trans k4, h5.trans k5,
      fun id r hid => k6 id r (h6 id r hid)⟩

/-- What a recovery does: nothing, or it retires the orders of a group and may clear the latch. -/
theorem acknowledge_cases {input : TerminalRecovery}
    (h : g.acknowledgeCertainTerminalRecovery input = some g') :
    (g' = g ∧ g.recoveredGroup input = none) ∨
    ∃ group ∈ g.groups, g.recoveredGroup input = some group ∧
      g'.tracked = (group.orders.foldl (fun g ref => g.retire input ref) g).tracked ∧
      g'.created = g.created ∧ g'.groups = g.groups ∧ g'.sent = g.sent ∧
      g'.cancelInFlight = g.cancelInFlight ∧ g'.placing = g.placing ∧
      g'.orders = (group.orders.foldl (fun g ref => g.retire input ref) g).orders ∧
      (g'.uncertainReason = g.uncertainReason ∨
        g'.uncertainReason = none ∧ g.uncertainReason = some .fillSlippageExceeded ∧
          g.slippageOrderGroupId = some input.orderGroupId) := by
  unfold acknowledgeCertainTerminalRecovery at h
  split at h
  · cases h
  · split at h
    · next hnone => cases h; exact Or.inl ⟨rfl, hnone⟩
    · next group hgroup =>
      obtain ⟨h1, h2, h3, h4, h5, -⟩ := retireAll_maps input group.orders g
      obtain ⟨k1, k2, _⟩ := retireAll_latches input group.orders g
      have hmem : group ∈ g.groups := by
        unfold recoveredGroup at hgroup
        split at hgroup
        · cases hgroup
        · split at hgroup
          · cases hgroup
          · next hfind =>
            split at hgroup <;> cases hgroup
            exact List.mem_of_find?_eq_some hfind
      refine Or.inr ⟨group, hmem, hgroup, ?_⟩
      simp only at h
      split at h
      · next hclear =>
        cases h
        exact ⟨rfl, h1, h2, h3, h4, h5, rfl, Or.inr ⟨rfl, k1 ▸ hclear.1, k2 ▸ hclear.2⟩⟩
      · cases h
        exact ⟨rfl, h1, h2, h3, h4, h5, rfl, Or.inl k1⟩

theorem mapM_length {α β : Type} (f : α → Except String β) : ∀ (l : List α) (r : List β),
    l.mapM f = .ok r → r.length = l.length
  | [], r, h => by cases h; rfl
  | a :: l, r, h => by
    rw [List.mapM_cons] at h
    cases ha : f a with
    | error e => rw [ha] at h; cases h
    | ok b =>
      cases hl : l.mapM f with
      | error e => rw [ha, hl] at h; cases h
      | ok bs =>
        rw [ha, hl] at h
        cases h
        simp [mapM_length f l bs hl]

theorem recoverOrders_length {raw : RawReconciliation} {commands : List PendingOrderCommand}
    {orders : List TrackedOrder} (h : recoverOrders o raw commands = .ok (.orders orders)) :
    orders.length ≤ commands.length := by
  unfold recoverOrders at h
  cases hfound : commands.mapM (matchOrder raw) with
  | error e => rw [hfound] at h; cases h
  | ok found =>
    rw [hfound] at h
    simp only [bind, Except.bind, pure, Except.pure] at h
    split at h
    · cases h
    · split at h
      · cases h
      · split at h
        · cases h
        · next orders' horders =>
          cases h
          rw [mapM_length _ _ _ horders, List.length_zip]
          exact Nat.min_le_left _ _

theorem maps_of_core {g1 : CTraderDemoGateway} (h : Core o g ev g1) (hs : Shape g) : Maps g1 := by
  cases h with
  | nothing => exact hs.toMaps
  | latched => exact hs.shrink rfl rfl fun _ _ => id
  | reported e he _ happ =>
    obtain ⟨h1, h2, h3, _⟩ := happ.maps
    exact hs.shrink h1 h2 fun id ref hid => by rwa [← h3]
  | reportedLatched e he _ happ =>
    obtain ⟨h1, h2, h3, _⟩ := happ.maps
    exact hs.shrink h1 h2 fun id ref hid => by rwa [← h3]
  | dispatchedFirst => exact hs.shrink rfl rfl fun _ _ => id
  | dispatchedSecond => exact hs.shrink rfl rfl fun _ _ => id
  | rejected now rc refs =>
    obtain ⟨h1, h2, h3, _⟩ := reject_maps now rc refs g
    exact hs.shrink h1 h2 fun id ref hid => by rwa [← h3]
  | created p hp hstage raw hev now =>
    exact hs.track _ _ (by simpa using (hs.placing p hp).commands)
  | recovered p hp hstage raw hev orders hfound =>
    exact hs.track _ _ (Nat.le_trans (recoverOrders_length hfound) (hs.placing p hp).commands)
  | acknowledged input hev _ hack =>
    rcases acknowledge_cases hack with ⟨rfl, -⟩ | ⟨group, _, _, _, hc, hg, _, _, _, ho, _⟩
    · exact hs.toMaps
    · exact hs.shrink hc hg (ho ▸ (retireAll_maps input group.orders g).2.2.2.2.2)

theorem groups_of_core {g1 : CTraderDemoGateway} (h : Core o g ev g1) {group : TrackedGroup}
    (hg : group ∈ g.groups) : group ∈ g1.groups := by
  cases h with
  | nothing | latched | dispatchedFirst | dispatchedSecond => exact hg
  | reported e he _ happ | reportedLatched e he _ happ => exact happ.maps.2.1 ▸ hg
  | rejected now rc refs => exact (reject_maps now rc refs g).2.1 ▸ hg
  | created | recovered => exact List.mem_append_left _ hg
  | acknowledged input hev _ hack =>
    rcases acknowledge_cases hack with ⟨rfl, -⟩ | ⟨group', _, _, _, _, hgroups, _⟩
    · exact hg
    · exact hgroups ▸ hg

theorem created_of_core {g1 : CTraderDemoGateway} (h : Core o g ev g1) :
    g.created ≤ g1.created := by
  cases h with
  | nothing | latched | dispatchedFirst | dispatchedSecond => exact Nat.le_refl _
  | reported e he _ happ | reportedLatched e he _ happ => exact Nat.le_of_eq happ.maps.1.symm
  | rejected now rc refs => exact Nat.le_of_eq (reject_maps now rc refs g).1.symm
  | created | recovered => exact Nat.le_add_right _ _
  | acknowledged input hev _ hack =>
    rcases acknowledge_cases hack with ⟨rfl, -⟩ | ⟨_, _, _, _, hcreated, _⟩
    · exact Nat.le_refl _
    · exact Nat.le_of_eq hcreated.symm

/-! ### The running placement -/

/-- The placement has returned, or goes on with the orders it had. -/
def MovesOn (p : Placement) (g' : CTraderDemoGateway) : Prop :=
  g'.placing = none ∨ ∃ s, s ≠ .preflight ∧ g'.placing = some { p with stage := s }

theorem movesOn_finish (r : Except String OcoPlacementResult) : MovesOn p (g.finish r) := Or.inl rfl

theorem movesOn_suspend {s : Stage} (hs : s ≠ .preflight) : MovesOn p (g.suspend p s) :=
  Or.inr ⟨s, hs, rfl⟩

theorem movesOn_secondLegFailed : MovesOn p (g.secondLegFailed p) := by
  unfold secondLegFailed
  simp only
  split <;> exact movesOn_suspend (by decide)

theorem movesOn_dispatchFirst : MovesOn p (dispatchFirst o env g p) := by
  unfold dispatchFirst
  simp only
  split
  · exact movesOn_finish _
  · exact movesOn_suspend (by decide)

theorem movesOn_dispatchSecond (status : Option MarketSessionStatus) :
    MovesOn p (dispatchSecond o env g p status) := by
  unfold dispatchSecond
  simp only
  split
  · split <;> exact movesOn_suspend (by decide)
  · split
    · exact movesOn_finish _
    · exact movesOn_suspend (by decide)

theorem movesOn_resume {response : Response} (hs : p.stage ≠ .preflight)
    (h : resume o env g p response = some g') : MovesOn p g' := by
  cases response with
  | reconciled raw =>
    simp only [resume] at h
    split at h
    · exact absurd ‹_› hs
    · split at h <;> cases h
      · exact movesOn_finish _
      · refine movesOn_suspend ?_
        split <;> decide
    · split at h <;> cases h
      · exact movesOn_finish _
      · exact movesOn_suspend (by decide)
    · cases h; exact movesOn_finish _
    · cases h; exact movesOn_finish _
    · cases h; exact movesOn_finish _
    · cases h
  | session status =>
    simp only [resume] at h
    split at h
    · split at h <;> cases h
      · exact movesOn_finish _
      · rw [if_pos ‹_›]
        exact movesOn_suspend (by decide)
    · next hstage =>
      split at h <;> cases h
      · exact movesOn_finish _
      · rw [if_neg (by rw [hstage]; decide)]
        exact movesOn_dispatchFirst
    · cases h; exact movesOn_dispatchSecond status
    · cases h
  | ready certain =>
    simp only [resume] at h
    split at h <;> cases h
    split
    · exact movesOn_suspend (by decide)
    · exact movesOn_finish _
  | executed e =>
    simp only [resume] at h
    split at h
    · split at h <;> cases h
      · exact movesOn_finish _
      · exact movesOn_suspend (by decide)
    · cases h; exact movesOn_suspend (by decide)
    · cases h; exact movesOn_suspend (by decide)
    · split at h <;> cases h
      · exact movesOn_secondLegFailed
      · exact movesOn_suspend (by decide)
    · cases h
  | failed error =>
    simp only [resume] at h
    split at h <;> cases h
    · exact movesOn_finish _
    · exact movesOn_finish _
    · exact movesOn_finish _
    · exact movesOn_finish _
    · exact movesOn_finish _
    · exact movesOn_finish _
    · exact movesOn_secondLegFailed
    · exact movesOn_secondLegFailed
    · exact movesOn_secondLegFailed
    · exact movesOn_suspend (by decide)
    · exact movesOn_suspend (by decide)

/-- The first step of a placement: it returns, or has its orders tracked. -/
theorem resume_preflight {response : Response} (hs : p.stage = .preflight)
    (h : resume o env g p response = some g') : g'.placing = none ∨
      ∃ refs, g'.placing = some { p with orders := refs, stage := .session } ∧
        ⟨p.key, orderGroupIdOf p, refs⟩ ∈ g'.groups := by
  cases response with
  | reconciled raw =>
    simp only [resume, hs, Option.some.injEq] at h
    subst h
    unfold preflight
    split
    · exact Or.inl rfl
    · exact Or.inl rfl
    · exact Or.inl rfl
    · split
      · exact Or.inl rfl
      · exact Or.inr ⟨_, rfl, List.mem_append_right _ (List.mem_singleton_self _)⟩
  | failed error =>
    simp only [resume, hs, Option.some.injEq] at h
    subst h
    exact Or.inl rfl
  | session status | ready certain | executed e =>
    simp only [resume, hs] at h
    cases h

theorem start_placing {key : String} {commands : List PendingOrderCommand}
    {sameType : TrackedGroup → Bool} {p' : Placement}
    (h : (g.start key commands sameType).placing = some p') :
    p'.commands = commands ∧ p'.stage = .preflight ∧ p'.orders = [] := by
  unfold start at h
  split at h
  · split at h <;> cases h
  · cases h; exact ⟨rfl, rfl, rfl⟩

theorem Applied.placing {e : BrokerExecution} (h : Applied o g e g') :
    g'.placing = g.placing ∧ g'.cancelInFlight = g.cancelInFlight := by
  cases h with
  | ignored => exact ⟨rfl, rfl⟩
  | updated => exact ⟨rfl, rfl⟩
  | latched =>
    unfold latchFill
    split <;> exact ⟨rfl, rfl⟩

theorem cancelPendingPeer_placing (group : TrackedGroup) :
    (g.cancelPendingPeer group).placing = g.placing := by
  unfold cancelPendingPeer
  split
  · rfl
  · split
    · rfl
    · simp only
      split
      · rfl
      · split <;> rfl

theorem handleExecution_placing (e : BrokerExecution) :
    (g.handleExecution o e).placing = g.placing := by
  unfold handleExecution
  split
  · rfl
  · split
    · rfl
    · rfl
    · have happ := (applied (o := o) (g := g) e none).placing.1
      split
      · next heq => rw [heq] at happ; exact happ
      · next heq =>
        rw [heq] at happ
        split
        · split
          · exact happ
          · split
            · exact happ
            · exact (cancelPendingPeer_placing _).trans happ
        · exact happ

theorem cancelStrategyOrder_placing (clientOrderId rc : String) :
    (g.cancelStrategyOrder o clientOrderId rc).placing = g.placing := by
  unfold cancelStrategyOrder
  split
  · rfl
  · simp only
    split
    · rfl
    · split
      · rfl
      · split <;> rfl

theorem cancellationDone_placing (c : Cancellation) (response : Option BrokerExecution) :
    (g.cancellationDone o c response).placing = g.placing := by
  cases c with
  | peer ref =>
    cases response with
    | none => rfl
    | some e =>
      have happ := (applied (o := o) (g := { g with
        cancellations := g.cancellations.erase (.peer ref) }) e
          (some "DEMO_OCO_PEER_FILLED")).placing.1
      simp only [cancellationDone]
      split
      · next heq => rw [heq] at happ; exact happ
      · next heq => rw [heq] at happ; exact happ
  | peerReconcile ref => cases response <;> rfl
  | strategyOrder ref rc =>
    cases response with
    | none => rfl
    | some e => exact (applied e (some rc)).placing.1

theorem acknowledge_placing {input : TerminalRecovery}
    (h : g.acknowledgeCertainTerminalRecovery input = some g') : g'.placing = g.placing := by
  rcases acknowledge_cases h with ⟨rfl, -⟩ | ⟨group, _, _, _, _, _, _, _, hp, _⟩
  · rfl
  · exact hp

end CTraderDemoGateway

open CTraderDemoGateway

theorem groups_step {o : CTraderDemoGatewayOptions} {g g' : CTraderDemoGateway}
    {ev : Env × Event} (h : step o g ev = some g') {group : TrackedGroup}
    (hg : group ∈ g.groups) : group ∈ g'.groups := by
  obtain ⟨g1, hcore, hframe⟩ := effect_step h
  exact hframe.groups ▸ groups_of_core hcore hg

theorem created_step {o : CTraderDemoGatewayOptions} {g g' : CTraderDemoGateway}
    {ev : Env × Event} (h : step o g ev = some g') : g.created ≤ g'.created := by
  obtain ⟨g1, hcore, hframe⟩ := effect_step h
  exact hframe.created ▸ created_of_core hcore

theorem placing_step {o : CTraderDemoGatewayOptions} {g g' : CTraderDemoGateway} {env : Env}
    {ev : Event} (hs : Shape g) (h : step o g (env, ev) = some g') (p' : Placement)
    (hp' : g'.placing = some p') : Placing g' p' := by
  have hkeep : g'.placing = g.placing → Placing g' p' := fun heq => by
    obtain ⟨h1, h2, h3⟩ := hs.placing p' (heq ▸ hp')
    exact ⟨h1, h2, fun hstage => groups_step h (h3 hstage)⟩
  cases ev with
  | placeDirectional c =>
    simp only [step] at h
    split at h <;> cases h
    unfold placeDirectional at hp'
    split at hp'
    · cases hp'
    · obtain ⟨hc, hstage, horders⟩ := start_placing hp'
      exact ⟨by simp [hc], fun _ => horders, fun hne => absurd hstage hne⟩
  | placeOco first second =>
    simp only [step] at h
    split at h <;> cases h
    unfold placeOco at hp'
    simp only at hp'
    split at hp'
    · cases hp'
    · obtain ⟨hc, hstage, horders⟩ := start_placing hp'
      exact ⟨by simp [hc], fun _ => horders, fun hne => absurd hstage hne⟩
  | resume response =>
    obtain ⟨p, hp, hr⟩ := Option.bind_eq_some_iff.mp h
    obtain ⟨hcommands, -, hgroup⟩ := hs.placing p hp
    by_cases hstage : p.stage = .preflight
    · rcases resume_preflight hstage hr with hnone | ⟨refs, hsome, hmem⟩
      · rw [hnone] at hp'; cases hp'
      · rw [hsome] at hp'; cases hp'
        exact ⟨hcommands, (fun hstage' => by cases hstage'), fun _ => hmem⟩
    · rcases movesOn_resume hstage hr with hnone | ⟨s, hs', hsome⟩
      · rw [hnone] at hp'; cases hp'
      · rw [hsome] at hp'; cases hp'
        exact ⟨hcommands, fun hpre => absurd hpre hs', fun _ => groups_step h (hgroup hstage)⟩
  | callback e => cases h; exact hkeep (handleExecution_placing e)
  | cancelStrategyOrder clientOrderId rc => cases h; exact hkeep (cancelStrategyOrder_placing ..)
  | cancellationDone c response =>
    have hg' : g' = g.cancellationDone o c response := by
      simp only [step] at h
      split at h <;> cases h
      rfl
    exact hkeep (hg' ▸ cancellationDone_placing c response)
  | acknowledge input => exact hkeep (acknowledge_placing h)

theorem shape_step (o : CTraderDemoGatewayOptions) (g : CTraderDemoGateway) (ev : Env × Event)
    (g' : CTraderDemoGateway) (hs : Shape g) (h : step o g ev = some g') : Shape g' := by
  obtain ⟨g1, hcore, hframe⟩ := effect_step h
  exact ⟨(maps_of_core hcore hs).frame hframe, placing_step hs h⟩

theorem shape_run {o : CTraderDemoGatewayOptions} {es : List (Env × Event)}
    {g : CTraderDemoGateway} (h : Run o es g) : Shape g :=
  Transition.invariant (shape_step o) shape_initial h

end ScalpingBot.Gateway
