import ScalpingBot.Store.Closing

/-! The recorded state of an order group against its orders, positions and trades, over runs of
    events in any order. The statement that recomputes it looks at the group of the event alone and
    skips finished groups; the rows of orders and positions are written in any case. -/

namespace ScalpingBot.Store

open Transition

variable {o : PostgresDemoExecutionStoreOptions} {t t' : Tables} {event : DemoExecutionEvent}
  {source : DemoExecutionEvidenceSource} {acknowledgement : Option BrokerAcknowledgement}
  {result : DemoExecutionPersistenceResult} {m : Matched} {gid : ℕ} {replay : Bool}

/-! ### Finished groups -/

/-- The states in which an order may still trade. -/
def OrderState.active (s : OrderState) : Bool :=
  s ∈ [.intent, .submitting, .pending, .partiallyFilled, .cancelPending, .unknown]

/-- CLOSED and EXPIRED: the states that are never recomputed. -/
def OrderGroupState.finished (s : OrderGroupState) : Bool := s ∈ [.closed, .expired]

/-- Nothing of a group is open, and a CLOSED group has the trade of each of its positions. -/
structure Concluded (t : Tables) (g : OrderGroupRow) : Prop where
  orders : ∀ r ∈ t.orders, r.orderGroupId = g.id → r.state.active = false
  positions : ∀ p ∈ t.positions, p.orderGroupId = some g.id → p.state = .closed
  trades : g.state = .closed → ∀ p ∈ t.positions, p.orderGroupId = some g.id →
    ∃ trade ∈ t.trades, trade.orderGroupId = g.id ∧ trade.positionId = some p.id

/-- Every finished group is concluded. -/
def GroupsConcluded (t : Tables) : Prop := ∀ g ∈ t.orderGroups, g.state.finished → Concluded t g

/-- Some group of this id is finished. -/
def Tables.finished (t : Tables) (id : ℕ) : Prop :=
  ∃ g ∈ t.orderGroups, g.id = id ∧ g.state.finished

/-! ### What the computed state says -/

/-- A group computed to be CLOSED is concluded. -/
theorem concluded_of_groupState {g : OrderGroupRow} (h : groupState t g.id = .closed) :
    Concluded t g := by
  unfold groupState at h
  simp only at h
  split at h
  · next hclosed =>
    obtain ⟨-, -, horders, hpositions⟩ := hclosed
    have hclosed : ∀ p ∈ t.positions, p.orderGroupId = some g.id → p.state = .closed ∧
        ∃ trade ∈ t.trades, trade.orderGroupId = g.id ∧ trade.positionId = some p.id := by
      intro p hp hg
      by_contra hnot
      refine hpositions (List.any_eq_true.mpr ⟨p, List.mem_filter.mpr ⟨hp, by simpa using hg⟩, ?_⟩)
      rw [decide_eq_true_eq]
      by_contra hboth
      simp only [not_or, not_not, List.any_eq_true, List.mem_filter, decide_eq_true_eq] at hboth
      obtain ⟨hstate, trade, ⟨htrade, hgroup⟩, hid⟩ := hboth
      exact hnot ⟨hstate, trade, htrade, hgroup, hid⟩
    refine ⟨fun r hr hg => ?_, fun p hp hg => (hclosed p hp hg).1, fun _ p hp hg => (hclosed p hp hg).2⟩
    refine Bool.eq_false_iff.mpr fun hactive => ?_
    exact horders (List.any_eq_true.mpr ⟨r, List.mem_filter.mpr ⟨hr, by simpa using hg⟩, hactive⟩)
  · repeat' split at h
    all_goals cases h

/-- The orders of a group, in the given states, ended without being filled, one by its expiry. -/
structure EndedUnfilled (t : Tables) (id : ℕ) (state : OrderRow → OrderState) : Prop where
  ended : ∀ r ∈ t.orders, r.orderGroupId = id → state r ∈ [.cancelled, .expired, .rejected]
  expired : ∃ r ∈ t.orders, r.orderGroupId = id ∧ state r = .expired

/-- Some order of the group is in one of the states. -/
theorem any_order_iff {id : ℕ} {states : List OrderState} :
    (t.orders.filter (·.orderGroupId = id)).any (·.state ∈ states) = true ↔
      ∃ r ∈ t.orders, r.orderGroupId = id ∧ r.state ∈ states := by
  simp only [List.any_eq_true, List.mem_filter, decide_eq_true_eq, and_assoc]

theorem any_closed_iff {id : ℕ} :
    (t.positions.filter (·.orderGroupId = some id)).any (·.state = .closed) = true ↔
      ∃ p ∈ t.positions, p.orderGroupId = some id ∧ p.state = .closed := by
  simp only [List.any_eq_true, List.mem_filter, decide_eq_true_eq, and_assoc]

theorem ended_of_not_mem {s : OrderState} (h : s ∉ [.partiallyFilled, .cancelPending, .unknown])
    (h' : s ∉ [.filled]) (h'' : s ∉ [.intent, .submitting, .pending]) :
    s ∈ [.cancelled, .expired, .rejected] := by
  revert h h' h''
  cases s <;> decide

/-- An EXPIRED group has orders that ended unfilled. Nothing is said of open positions. -/
theorem groupState_expired {id : ℕ} (h : groupState t id = .expired) :
    EndedUnfilled t id (·.state) ∧
      ∀ p ∈ t.positions, p.orderGroupId = some id → p.state ≠ .closed := by
  unfold groupState at h
  simp only at h
  split at h
  · cases h
  · split at h
    · cases h
    · next hclosed =>
      split at h
      · cases h
      · next hpartly =>
        split at h
        · cases h
        · split at h
          · cases h
          · next hfilled =>
            split at h
            · next hexpired =>
              rw [any_closed_iff] at hclosed
              simp only [any_order_iff] at hpartly hfilled hexpired
              obtain ⟨hwaiting, r, hr, hg, hstate⟩ := hexpired
              refine ⟨⟨fun q hq hqg => ?_, r, hr, hg, by simpa using hstate⟩, fun p hp hpg hstate =>
                hclosed ⟨p, hp, hpg, hstate⟩⟩
              have hnot : ∀ states : List OrderState, ¬ (∃ r ∈ t.orders, r.orderGroupId = id ∧
                  r.state ∈ states) → q.state ∉ states := fun _ h hmem => h ⟨q, hq, hqg, hmem⟩
              exact ended_of_not_mem (hnot _ hpartly) (hnot _ hfilled) (hnot _ hwaiting)
            · split at h <;> cases h

/-- A group with an open position and none that is CLOSED is EXPIRED once its orders ended. -/
theorem groupState_of_endedUnfilled {id : ℕ} (h : EndedUnfilled t id (·.state))
    (hopen : ∃ p ∈ t.positions, p.orderGroupId = some id)
    (hclosed : ∀ p ∈ t.positions, p.orderGroupId = some id → p.state ≠ .closed) :
    groupState t id = .expired := by
  have hnone : ∀ states : List OrderState,
      (∀ s ∈ states, s ∉ [OrderState.cancelled, .expired, .rejected]) →
      ¬ ((t.orders.filter (·.orderGroupId = id)).any (·.state ∈ states) = true) := by
    intro states hstates hany
    obtain ⟨r, hr, hg, hs⟩ := any_order_iff.mp hany
    exact hstates _ hs (h.ended r hr hg)
  obtain ⟨p, hp, hpg⟩ := hopen
  have hunconcluded : (t.positions.filter (·.orderGroupId = some id)).any (fun p =>
      p.state ≠ .closed ∨ ¬ (t.trades.filter (·.orderGroupId = id)).any
        (·.positionId = some p.id)) = true :=
    List.any_eq_true.mpr ⟨p, List.mem_filter.mpr ⟨hp, by simpa using hpg⟩,
      decide_eq_true (.inl (hclosed p hp hpg))⟩
  obtain ⟨r, hr, hg, hs⟩ := h.expired
  have hexpired : (t.orders.filter (·.orderGroupId = id)).any (·.state ∈ [.expired]) = true :=
    any_order_iff.mpr ⟨r, hr, hg, by simpa using hs⟩
  have hnotClosed : ¬ ((t.positions.filter (·.orderGroupId = some id)).any
      (·.state = .closed) = true) := by
    rw [any_closed_iff]
    rintro ⟨q, hq, hqg, hstate⟩
    exact hclosed q hq hqg hstate
  unfold groupState
  simp only
  rw [if_neg fun hall => hall.2.2.2 hunconcluded, if_neg hnotClosed, if_neg (hnone _ (by decide)),
    if_neg fun hboth => hnone [.filled] (by decide) hboth.1, if_neg (hnone _ (by decide)),
    if_pos ⟨hnone _ (by decide), hexpired⟩]

/-! ### What an applied event writes -/

section

variable (o) (event)

/-- The report is on this row and not older than it. -/
def OrderRow.Takes (order : Option OrderMatch) (r : OrderRow) (q : GatewayOrder) : Prop :=
  (∃ k, order = some k ∧ r.id = k.orderId ∧ r.accountId = o.accountId) ∧
    ∃ time, q.updatedAt = some time ∧ r.brokerUpdatedAt.all (· ≤ time)

/-- The position of the event is stored in this row. -/
def PositionRow.Stores (r : PositionRow) (p : DemoExecutionPosition) : Prop :=
  r.accountId = o.accountId ∧ r.brokerPositionId = some p.brokerPositionId

instance (r : PositionRow) (p : DemoExecutionPosition) : Decidable (r.Stores o p) :=
  inferInstanceAs (Decidable (_ ∧ _))

instance (order : Option OrderMatch) (r : OrderRow) (q : GatewayOrder) :
    Decidable (r.Takes o order q) :=
  decidable_of_iff ((order.any fun k => r.id = k.orderId ∧ r.accountId = o.accountId) ∧
    q.updatedAt.any fun time => r.brokerUpdatedAt.all (· ≤ time)) (by
      simp [OrderRow.Takes, Option.any_eq_true])

/-- The state of an order after the event. -/
def OrderRow.stateAfter (order : Option OrderMatch) (r : OrderRow) : OrderState :=
  match event.order with
  | some q => if r.Takes o order q then orderStateOf q.state else r.state
  | none => r.state

/-- The state of a position after the event. -/
def PositionRow.stateAfter (r : PositionRow) : PositionState :=
  match event.position with
  | some p => if r.Stores o p ∧ r.updatedAt ≤ p.updatedAt then p.state else r.state
  | none => r.state

/-- The row of a position that enters the group with this event. -/
def entering (t : Tables) (position : Option PositionMatch) (gid : ℕ) : Option PositionRow :=
  event.position.bind fun p =>
    let e := proposedPosition o t p position gid
    match t.positions.find? fun r => r.Stores o p with
    | none => some e
    | some r => if r.orderGroupId = none then some (r.merge e) else none

/-- The position has a trade in the group, or gets one because the event closes it. -/
def Traded (t : Tables) (gid : ℕ) (x : PositionRow) : Prop :=
  (∃ trade ∈ t.trades, trade.orderGroupId = gid ∧ trade.positionId = some x.id) ∨
    event.positionState = some .closed ∧ ∃ d, event.closeDetail = some d ∧
      (persistClosedTrade t x d).map (·.2) = .ok none

/-- What the event leaves to the finished groups, and to its own group when that expires. -/
structure Spares (t : Tables) (m : Matched) (gid : ℕ) : Prop where
  /-- No order of a finished group takes a report of an active state. -/
  orders : ∀ q, event.order = some q → (orderStateOf q.state).active → ∀ r ∈ t.orders,
    t.finished r.orderGroupId → ¬ r.Takes o m.order q
  /-- A position of a finished group that is reported open has a newer row. -/
  positions : ∀ p, event.position = some p → p.state ≠ .closed → ∀ r ∈ t.positions,
    r.Stores o p → ∀ id, r.orderGroupId = some id → t.finished id → p.updatedAt < r.updatedAt
  /-- A position enters a finished group only closed, and a CLOSED group only with its trade. -/
  entry : ∀ x, entering o event t m.position gid = some x → ∀ g ∈ t.orderGroups, g.id = gid →
    g.state.finished → x.state = .closed ∧ (g.state = .closed → Traded event t gid x)
  /-- When the last order of the group ends unfilled, one by expiry, no position is open: there is
      none, or one of them is closed. -/
  expiry : ∀ g ∈ t.orderGroups, g.id = gid → g.state.finished = false →
    EndedUnfilled t gid (·.stateAfter o event m.order) →
    ((∀ r ∈ t.positions, r.orderGroupId ≠ some gid) ∧ entering o event t m.position gid = none) ∨
    (∃ r ∈ t.positions, r.orderGroupId = some gid ∧ r.stateAfter o event = .closed) ∨
    ∃ x, entering o event t m.position gid = some x ∧ x.state = .closed

/-- What the rows are after an event that is applied to a group. -/
structure Written (t t' : Tables) (m : Matched) (gid : ℕ) : Prop where
  orders : ∃ f : OrderRow → OrderRow, t'.orders = t.orders.map f ∧ ∀ r,
    (f r).orderGroupId = r.orderGroupId ∧ (f r).state = r.stateAfter o event m.order
  positions : ∀ x ∈ t'.positions, ∀ id, x.orderGroupId = some id →
    (∃ r ∈ t.positions, r.orderGroupId = some id ∧ x.id = r.id ∧ x.state = r.stateAfter o event) ∨
    id = gid ∧ entering o event t m.position gid = some x
  stored : ∀ r ∈ t.positions, ∀ id, r.orderGroupId = some id → ∃ x ∈ t'.positions,
    x.orderGroupId = some id ∧ x.id = r.id ∧ x.state = r.stateAfter o event
  entered : ∀ x, entering o event t m.position gid = some x →
    x ∈ t'.positions ∧ x.orderGroupId = some gid
  trades : ∀ trade ∈ t.trades, trade ∈ t'.trades
  traded : ∀ x, entering o event t m.position gid = some x →
    ((∃ trade ∈ t'.trades, trade.orderGroupId = gid ∧ trade.positionId = some x.id) ↔
      Traded event t gid x)
  groups : ∃ f : OrderGroupRow → OrderGroupRow, t'.orderGroups = t.orderGroups.map f ∧ ∀ g,
    (f g).id = g.id ∧ (f g).state =
      if g.id = gid ∧ g.state.finished = false then groupState t' gid else g.state

end

/-! ### Applied events and finished groups -/

theorem stateAfter_active {r : OrderRow} {order : Option OrderMatch} (hr : r.state.active = false) :
    (r.stateAfter o event order).active = true ↔
      ∃ q, event.order = some q ∧ (orderStateOf q.state).active ∧ r.Takes o order q := by
  unfold OrderRow.stateAfter
  split
  · next q hq =>
    split
    · next htakes => simp [hq, htakes]
    · next htakes => simp [hq, htakes, hr]
  · next hnone => simp [hnone, hr]

theorem stateAfter_open {r : PositionRow} (hr : r.state = .closed) :
    r.stateAfter o event ≠ .closed ↔
      ∃ p, event.position = some p ∧ p.state ≠ .closed ∧ r.Stores o p ∧
        r.updatedAt ≤ p.updatedAt := by
  unfold PositionRow.stateAfter
  split
  · next p hp =>
    split
    · next hstores => simp [hp, hstores]
    · next hstores =>
      simp only [hr, ne_eq, not_true_eq_false, hp, Option.some.injEq, exists_eq_left', false_iff]
      exact fun hopen => hstores hopen.2
  · next hnone => simp [hnone, hr]

/-- The orders of the event's group after it. -/
theorem Written.ended_iff (h : Written o event t t' m gid) {id : ℕ} :
    EndedUnfilled t' id (·.state) ↔ EndedUnfilled t id (·.stateAfter o event m.order) := by
  obtain ⟨f, horders, hf⟩ := h.orders
  constructor
  · rintro ⟨hended, r', hr', hrg', hrs'⟩
    refine ⟨fun r hr hrg => ?_, ?_⟩
    · rw [← (hf r).2]
      exact hended (f r) (horders ▸ List.mem_map_of_mem hr) ((hf r).1.trans hrg)
    · rw [horders] at hr'
      obtain ⟨r, hr, rfl⟩ := List.mem_map.mp hr'
      exact ⟨r, hr, (hf r).1.symm.trans hrg', (hf r).2.symm.trans hrs'⟩
  · rintro ⟨hended, r, hr, hrg, hrs⟩
    refine ⟨fun r' hr' hrg' => ?_, f r, horders ▸ List.mem_map_of_mem hr, (hf r).1.trans hrg,
      (hf r).2.trans hrs⟩
    rw [horders] at hr'
    obtain ⟨r, hr, rfl⟩ := List.mem_map.mp hr'
    rw [(hf r).2]
    exact hended r hr ((hf r).1.symm.trans hrg')

/-- A finished group is still there after the event. -/
theorem Written.finished (h : Written o event t t' m gid) (ht' : GroupsConcluded t')
    {g : OrderGroupRow} (hg : g ∈ t.orderGroups) (hfin : g.state.finished) :
    ∃ g' ∈ t'.orderGroups, g'.id = g.id ∧ g'.state = g.state ∧ Concluded t' g' := by
  obtain ⟨f, hgroups, hf⟩ := h.groups
  have hmem : f g ∈ t'.orderGroups := hgroups ▸ List.mem_map_of_mem hg
  have hstate : (f g).state = g.state := by
    rw [(hf g).2, if_neg]
    simp [hfin]
  exact ⟨f g, hmem, (hf g).1, hstate, ht' _ hmem (hstate ▸ hfin)⟩

/-- An event that leaves the finished groups concluded has spared them. -/
theorem Written.spares (h : Written o event t t' m gid) (ht : GroupsConcluded t)
    (ht' : GroupsConcluded t') : Spares o event t m gid := by
  refine ⟨?_, ?_, ?_, ?_⟩
  · rintro q hq hactive r hr ⟨g, hg, hid, hfin⟩ htakes
    obtain ⟨g', hg', hid', -, hconcluded⟩ := h.finished ht' hg hfin
    obtain ⟨f, horders, hf⟩ := h.orders
    have hafter := hconcluded.orders (f r) (horders ▸ List.mem_map_of_mem hr)
      ((hf r).1.trans (hid'.trans hid).symm)
    rw [(hf r).2] at hafter
    have hbefore := (ht g hg hfin).orders r hr hid.symm
    exact Bool.eq_false_iff.mp hafter ((stateAfter_active hbefore).mpr ⟨q, hq, hactive, htakes⟩)
  · rintro p hp hopen r hr hstores id hgroup ⟨g, hg, hid, hfin⟩
    obtain ⟨g', hg', hid', -, hconcluded⟩ := h.finished ht' hg hfin
    obtain ⟨x, hx, hxg, -, hxs⟩ := h.stored r hr id hgroup
    have hafter := hconcluded.positions x hx (hxg.trans (by rw [hid', hid]))
    have hbefore := (ht g hg hfin).positions r hr (hgroup.trans (by rw [hid]))
    by_contra hcurrent
    exact (stateAfter_open hbefore).mpr ⟨p, hp, hopen, hstores, not_lt.mp hcurrent⟩ (hxs ▸ hafter)
  · intro x hx g hg hid hfin
    obtain ⟨g', hg', hid', hstate, hconcluded⟩ := h.finished ht' hg hfin
    obtain ⟨hmem, hgroup⟩ := h.entered x hx
    have hxg : x.orderGroupId = some g'.id := hgroup.trans (by rw [hid', hid])
    refine ⟨hconcluded.positions x hmem hxg, fun hclosed => (h.traded x hx).mp ?_⟩
    rw [← hid, ← hid']
    exact hconcluded.trades (hstate.trans hclosed) x hmem hxg
  · intro g hg hid hunfinished hended
    by_contra hopen
    rw [not_or, not_or] at hopen
    obtain ⟨hsome, hrows, hnew⟩ := hopen
    have hnone : ∀ x ∈ t'.positions, x.orderGroupId = some gid → x.state ≠ .closed := by
      intro x hx hxg hstate
      rcases h.positions x hx gid hxg with ⟨r, hr, hrg, -, hrs⟩ | ⟨-, hxe⟩
      · exact hrows ⟨r, hr, hrg, hrs ▸ hstate⟩
      · exact hnew ⟨x, hxe, hstate⟩
    have hexists : ∃ x ∈ t'.positions, x.orderGroupId = some gid := by
      by_contra hempty
      refine hsome ⟨fun r hr hrg => ?_, ?_⟩
      · obtain ⟨x, hx, hxg, -, -⟩ := h.stored r hr gid hrg
        exact hempty ⟨x, hx, hxg⟩
      · refine Option.eq_none_iff_forall_ne_some.mpr fun x hx => ?_
        exact hempty ⟨x, h.entered x hx⟩
    obtain ⟨f, hgroups, hf⟩ := h.groups
    have hexpired : (f g).state = .expired := by
      rw [(hf g).2, if_pos ⟨hid, hunfinished⟩]
      exact groupState_of_endedUnfilled (h.ended_iff.mpr hended) hexists hnone
    obtain ⟨x, hx, hxg⟩ := hexists
    refine hnone x hx hxg ((ht' (f g) (hgroups ▸ List.mem_map_of_mem hg) ?_).positions x hx ?_)
    · rw [hexpired]
      rfl
    · rw [(hf g).1, hid]
      exact hxg

/-- The group that the event concludes itself. -/
theorem Written.concluded_own (h : Written o event t t' m gid) (hspares : Spares o event t m gid)
    {g g' : OrderGroupRow} (hg : g ∈ t.orderGroups) (hid : g.id = gid) (hid' : g'.id = gid)
    (hunfinished : g.state.finished = false) (hfin : (groupState t' gid).finished) :
    Concluded t' g' := by
  have hcases : groupState t' gid = .closed ∨ groupState t' gid = .expired := by
    simpa [OrderGroupState.finished] using hfin
  rcases hcases with hclosed | hexpired
  · exact concluded_of_groupState (by rw [hid']; exact hclosed)
  · obtain ⟨hended, hnone⟩ := groupState_expired hexpired
    have hempty : ∀ x ∈ t'.positions, x.orderGroupId ≠ some gid := by
      intro x hx hxg
      rcases hspares.expiry g hg hid hunfinished (h.ended_iff.mp hended) with ⟨hrows, hnew⟩ |
        ⟨r, hr, hrg, hrs⟩ | ⟨y, hy, hys⟩
      · rcases h.positions x hx gid hxg with ⟨r, hr, hrg, -, -⟩ | ⟨-, hxe⟩
        · exact hrows r hr hrg
        · rw [hnew] at hxe
          cases hxe
      · obtain ⟨y, hy, hyg, -, hys⟩ := h.stored r hr gid hrg
        exact hnone y hy hyg (hys.trans hrs)
      · obtain ⟨hmem, hyg⟩ := h.entered y hy
        exact hnone y hmem hyg hys
    refine ⟨fun r hr hrg => ?_, fun x hx hxg => ?_, fun _ x hx hxg => ?_⟩
    · have hmem := hended.ended r hr (hrg.trans hid')
      revert hmem
      cases r.state <;> decide
    · exact absurd (hxg.trans (by rw [hid'])) (hempty x hx)
    · exact absurd (hxg.trans (by rw [hid'])) (hempty x hx)

/-- A group that was finished before stays concluded. -/
theorem Written.concluded_before (h : Written o event t t' m gid)
    (hspares : Spares o event t m gid) {g g' : OrderGroupRow} (hg : g ∈ t.orderGroups)
    (hid : g'.id = g.id) (hstate : g'.state = g.state) (hfin : g.state.finished)
    (hbefore : Concluded t g) : Concluded t' g' := by
  refine ⟨fun r' hr' hrg' => ?_, fun x hx hxg => ?_, fun hclosed x hx hxg => ?_⟩
  · obtain ⟨f, horders, hf⟩ := h.orders
    rw [horders] at hr'
    obtain ⟨r, hr, rfl⟩ := List.mem_map.mp hr'
    have hrg : r.orderGroupId = g.id := (hf r).1.symm.trans (hrg'.trans hid)
    rw [(hf r).2]
    refine Bool.eq_false_iff.mpr fun hactive => ?_
    obtain ⟨q, hq, hactive, htakes⟩ := (stateAfter_active (hbefore.orders r hr hrg)).mp hactive
    exact hspares.orders q hq hactive r hr ⟨g, hg, hrg.symm, hfin⟩ htakes
  · rw [hid] at hxg
    rcases h.positions x hx g.id hxg with ⟨r, hr, hrg, -, hrs⟩ | ⟨hgid, hxe⟩
    · rw [hrs]
      by_contra hopen
      obtain ⟨p, hp, hpopen, hstores, hcurrent⟩ :=
        (stateAfter_open (hbefore.positions r hr hrg)).mp hopen
      exact absurd (hspares.positions p hp hpopen r hr hstores g.id hrg ⟨g, hg, rfl, hfin⟩)
        (not_lt.mpr hcurrent)
    · exact (hspares.entry x hxe g hg hgid hfin).1
  · rw [hid] at hxg ⊢
    rw [hstate] at hclosed
    rcases h.positions x hx g.id hxg with ⟨r, hr, hrg, hri, -⟩ | ⟨hgid, hxe⟩
    · obtain ⟨trade, htrade, hgroup, hposition⟩ := hbefore.trades hclosed r hr hrg
      exact ⟨trade, h.trades trade htrade, hgroup, by rw [hri]; exact hposition⟩
    · rw [hgid]
      exact (h.traded x hxe).mpr ((hspares.entry x hxe g hg hgid hfin).2 hclosed)

/-- The finished groups stay concluded exactly when the event spares them. -/
theorem Written.concluded_iff (h : Written o event t t' m gid) (ht : GroupsConcluded t) :
    GroupsConcluded t' ↔ Spares o event t m gid := by
  refine ⟨h.spares ht, fun hspares g' hg' hfin => ?_⟩
  obtain ⟨f, hgroups, hf⟩ := h.groups
  rw [hgroups] at hg'
  obtain ⟨g, hg, rfl⟩ := List.mem_map.mp hg'
  obtain ⟨hid, hstate⟩ := hf g
  split at hstate
  · next hown =>
    rw [hstate] at hfin
    exact h.concluded_own hspares hg hown.1 (hid.trans hown.1) hown.2 hfin
  · rw [hstate] at hfin
    exact h.concluded_before hspares hg hid hstate hfin (ht g hg hfin)

/-! ### The rows that an applied event writes -/

/-- Whether a closed position gets its trade depends on the fills, trades and groups alone. -/
theorem persistClosedTrade_reason {t1 : Tables} {x : PositionRow} {d : DemoExecutionCloseDetail}
    (hgroups : t1.orderGroups = t.orderGroups) (hfills : t1.fills = t.fills)
    (htrades : t1.trades = t.trades) :
    (persistClosedTrade t1 x d).map (·.2) = (persistClosedTrade t x d).map (·.2) := by
  have hgroup : t1.orderGroup = t.orderGroup := by
    funext id
    rw [Tables.orderGroup, hgroups, Tables.orderGroup]
  have hvolume : t1.entryVolume = t.entryVolume := by
    funext id
    rw [Tables.entryVolume, hfills, Tables.entryVolume]
  unfold persistClosedTrade
  rw [hgroup, hvolume, htrades]
  repeat' split
  all_goals rfl

theorem traded_congr {t1 : Tables} {x : PositionRow} (hgroups : t1.orderGroups = t.orderGroups)
    (hfills : t1.fills = t.fills) (htrades : t1.trades = t.trades) :
    Traded event t1 gid x ↔ Traded event t gid x := by
  simp only [Traded, htrades, persistClosedTrade_reason hgroups hfills htrades]

/-- The row that stores the position of an event, and the positions with it. -/
theorem upsertPosition_find {p : DemoExecutionPosition} {position : Option PositionMatch}
    {stored : PositionRow}
    (h : upsertPosition t (proposedPosition o t p position gid) = .ok (t', stored)) :
    (∃ r, t.positions.find? (fun r => r.Stores o p) = some r ∧
      stored = r.merge (proposedPosition o t p position gid) ∧
      t' = { t with
        positions := updateWhere (fun r => r.Stores o p)
          (·.merge (proposedPosition o t p position gid)) t.positions }) ∨
    (t.positions.find? (fun r => r.Stores o p) = none ∧
      stored = proposedPosition o t p position gid ∧ (∀ r ∈ t.positions, r.id ≠ stored.id) ∧
      t' = { t with positions := t.positions ++ [stored], nextId := t.nextId + 1 }) := by
  unfold upsertPosition at h
  split at h
  · cases h
  · simp only at h
    split at h
    · next r hr =>
      cases h
      exact .inl ⟨r, hr, rfl, rfl⟩
    · next hnone =>
      split at h
      · cases h
      · next hid =>
        cases h
        refine .inr ⟨hnone, rfl, fun r hr hr' => hid ?_, rfl⟩
        exact List.any_eq_true.mpr ⟨r, hr, decide_eq_true hr'⟩

theorem persistPosition_stored {position k : Option PositionMatch}
    {a : Option DemoExecutionCloseDetail} {reason : Option String} {p : DemoExecutionPosition}
    (hp : event.position = some p)
    (h : persistPosition o t event position gid a = .ok (t', k, reason)) :
    ∃ t1 stored, upsertPosition t (proposedPosition o t p position gid) = .ok (t1, stored) ∧
      ((event.positionState = some .closed ∧ ∃ d, event.closeDetail = some d ∧
          persistClosedTrade t1 stored (a.getD d) = .ok (t', reason)) ∨
        (¬ (event.positionState = some .closed ∧ event.closeDetail.isSome) ∧ t' = t1)) := by
  simp only [persistPosition, hp] at h
  obtain ⟨⟨t1, stored⟩, h1, h⟩ := bind_ok.mp h
  refine ⟨t1, stored, h1, ?_⟩
  simp only at h
  split at h
  · next d hstate hd =>
    obtain ⟨⟨t2, reason2⟩, h2, h⟩ := bind_ok.mp h
    cases h
    exact .inl ⟨by simp [DemoExecutionEvent.positionState, hp, hstate], d, hd, h2⟩
  · next hnot =>
    cases h
    refine .inr ⟨?_, rfl⟩
    rintro ⟨hstate, hdetail⟩
    obtain ⟨d, hd⟩ := Option.isSome_iff_exists.mp hdetail
    exact hnot d (by simpa [DemoExecutionEvent.positionState, hp] using hstate) hd

/-- A position that enters a group has no closes in the ledger. -/
theorem persistCloseDeal_entering {manual : Bool} {a : Option DemoExecutionCloseDetail}
    {position : Option PositionMatch} {x : PositionRow} (hkeyed : PositionsKeyed t)
    (hx : entering o event t position gid = some x)
    (h : persistCloseDeal o t event manual = .ok (t', a)) : a = none := by
  unfold persistCloseDeal at h
  split at h
  · obtain ⟨⟨t1, a1⟩, h1, h⟩ := bind_ok.mp h
    cases h
    obtain ⟨f, d, p, v, row, deal, hproved, -, -, -, -⟩ := recordPositionClose_ok h1
    obtain ⟨-, -, hp, -, -, -, hbroker, -⟩ := closeEvidence_ok hproved.evidence
    have hmem := hproved.mem
    simp only [Tables.closablePositions, List.mem_filter, decide_eq_true_eq] at hmem
    obtain ⟨hrow, haccount, -, -, hrowBroker, -, hgroup, -⟩ := hmem
    have hstores : row.Stores o p := ⟨haccount, hrowBroker.trans hbroker⟩
    rw [entering, hp, Option.bind_some] at hx
    simp only at hx
    split at hx
    · next hnone => exact absurd hstores (by simpa using List.find?_eq_none.mp hnone row hrow)
    · next r hr =>
      have hrs : r.Stores o p := by simpa using List.find?_some hr
      obtain rfl := hkeyed.same_broker (List.mem_of_find?_eq_some hr) hrow hrs hstores
      rw [Option.ite_none_right_eq_some] at hx
      rw [Tables.groupOf, hx.1] at hgroup
      cases hgroup
  · cases h
    rfl

/-- The orders after the first statement. -/
theorem persistOrder_states {order : Option OrderMatch} {s : Option OrderState}
    (h : persistOrder o t event order = .ok (t', s)) :
    ∃ rows, t' = { t with orders := rows } ∧ ∃ f : OrderRow → OrderRow, rows = t.orders.map f ∧
      ∀ r, (f r).id = r.id ∧ (f r).orderGroupId = r.orderGroupId ∧
        r.filledVolume ≤ (f r).filledVolume ∧ (f r).state = r.stateAfter o event order := by
  rcases persistOrder_ok h with ⟨rfl, hnone⟩ | ⟨q, k, time, hq, rfl, htime, rfl⟩
  · refine ⟨_, rfl, id, (List.map_id _).symm, fun r => ⟨rfl, rfl, le_rfl, ?_⟩⟩
    unfold OrderRow.stateAfter
    split
    · next q hq =>
      rw [if_neg]
      · rfl
      · rintro ⟨⟨k, rfl, -⟩, -⟩
        simp [hq] at hnone
    · rfl
  · refine ⟨_, rfl, _, rfl, fun r => ?_⟩
    simp only [OrderRow.stateAfter, hq, OrderRow.Takes, Option.some.injEq, exists_eq_left', htime]
    split
    · next hmatched =>
      simp only [decide_eq_true_eq] at hmatched
      refine ⟨rfl, rfl, le_max_left _ _, ?_⟩
      rw [OrderRow.update]
      by_cases hcurrent : r.brokerUpdatedAt.all (· ≤ time) = true
      · simp [hcurrent, hmatched]
      · simp [hcurrent]
    · next hother =>
      simp only [decide_eq_true_eq] at hother
      simp [hother]

theorem merge_group {r e : PositionRow} : (r.merge e).orderGroupId = r.orderGroupId.or e.orderGroupId :=
  rfl

/-- The positions after the upsert. -/
theorem upsertPosition_positions {p : DemoExecutionPosition} {position : Option PositionMatch}
    {stored : PositionRow} (hkeyed : PositionsKeyed t) (hp : event.position = some p)
    (h : upsertPosition t (proposedPosition o t p position gid) = .ok (t', stored)) :
    (∀ x ∈ t'.positions, ∀ id, x.orderGroupId = some id →
      (∃ r ∈ t.positions, r.orderGroupId = some id ∧ x.id = r.id ∧
        x.state = r.stateAfter o event) ∨ id = gid ∧ entering o event t position gid = some x) ∧
    (∀ r ∈ t.positions, ∀ id, r.orderGroupId = some id → ∃ x ∈ t'.positions,
      x.orderGroupId = some id ∧ x.id = r.id ∧ x.state = r.stateAfter o event) ∧
    ∀ x, entering o event t position gid = some x →
      x = stored ∧ x ∈ t'.positions ∧ x.orderGroupId = some gid := by
  have hother : ∀ r : PositionRow, ¬ r.Stores o p → r.stateAfter o event = r.state := by
    intro r hr
    simp [PositionRow.stateAfter, hp, hr]
  have hsame : ∀ r : PositionRow, r.Stores o p →
      (r.merge (proposedPosition o t p position gid)).state = r.stateAfter o event := by
    intro r hr
    simp only [PositionRow.stateAfter, hp, hr, true_and]
    rfl
  have hentering : entering o event t position gid =
      match t.positions.find? fun r => r.Stores o p with
      | none => some (proposedPosition o t p position gid)
      | some r => if r.orderGroupId = none then
          some (r.merge (proposedPosition o t p position gid)) else none := by
    rw [entering, hp]
    rfl
  rcases upsertPosition_find h with ⟨r0, hr0, rfl, rfl⟩ | ⟨hnone, rfl, hid, rfl⟩
  · have hr0s : r0.Stores o p := by simpa using List.find?_some hr0
    have hr0m := List.mem_of_find?_eq_some hr0
    rw [hr0] at hentering
    refine ⟨fun x hx id hxg => ?_, fun r hr id hrg => ?_, fun x hx => ?_⟩
    · obtain ⟨r, hr, rfl⟩ := mem_updateWhere.mp hx
      by_cases hrs : r.Stores o p
      · obtain rfl := hkeyed.same_broker hr0m hr hr0s hrs
        simp only [hrs, decide_true, if_true] at hxg ⊢
        rw [merge_group] at hxg
        cases hg : r0.orderGroupId with
        | none =>
          refine .inr ⟨?_, by rw [hentering]; simp [hg]⟩
          rw [hg] at hxg
          exact (Option.some.inj hxg).symm
        | some g =>
          rw [hg] at hxg
          exact .inl ⟨r0, hr, hg.trans hxg, rfl, hsame r0 hrs⟩
      · simp only [hrs, decide_false, Bool.false_eq_true, if_false] at hxg ⊢
        exact .inl ⟨r, hr, hxg, rfl, (hother r hrs).symm⟩
    · by_cases hrs : r.Stores o p
      · refine ⟨r.merge (proposedPosition o t p position gid),
          mem_updateWhere.mpr ⟨r, hr, by simp [hrs]⟩, ?_, rfl, hsame r hrs⟩
        rw [merge_group, hrg]
        rfl
      · exact ⟨r, mem_updateWhere.mpr ⟨r, hr, by simp [hrs]⟩, hrg, rfl, (hother r hrs).symm⟩
    · rw [hentering] at hx
      obtain ⟨hg, ⟨⟩⟩ := Option.ite_none_right_eq_some.mp hx
      refine ⟨rfl, mem_updateWhere.mpr ⟨r0, hr0m, by simp [hr0s]⟩, ?_⟩
      rw [merge_group, hg]
      rfl
  · rw [hnone] at hentering
    have hnew : ∀ r ∈ t.positions, ¬ r.Stores o p := fun r hr => by
      simpa using List.find?_eq_none.mp hnone r hr
    refine ⟨fun x hx id hxg => ?_, fun r hr id hrg => ?_, fun x hx => ?_⟩
    · rcases List.mem_append.mp hx with hx | hx
      · exact .inl ⟨x, hx, hxg, rfl, (hother x (hnew x hx)).symm⟩
      · rw [List.mem_singleton.mp hx] at hxg ⊢
        exact .inr ⟨(Option.some.inj hxg).symm, hentering⟩
    · exact ⟨r, List.mem_append_left _ hr, hrg, rfl, (hother r (hnew r hr)).symm⟩
    · rw [hentering] at hx
      obtain rfl := Option.some.inj hx
      exact ⟨rfl, by simp, rfl⟩

theorem groupState_congr {id : ℕ} (horders : t'.orders = t.orders)
    (hpositions : t'.positions = t.positions) (htrades : t'.trades = t.trades) :
    groupState t' id = groupState t id := by
  rw [groupState, horders, hpositions, htrades, groupState]

/-- The positions and trades after the position of an event is stored. -/
theorem persistPosition_written {position k : Option PositionMatch} {manual : Bool}
    {a : Option DemoExecutionCloseDetail} {reason : Option String} {t1 : Tables}
    (hkeyed : PositionsKeyed t) (h1 : persistCloseDeal o t event manual = .ok (t1, a))
    (h : persistPosition o t1 event position gid a = .ok (t', k, reason)) :
    ((∀ x ∈ t'.positions, ∀ id, x.orderGroupId = some id →
        (∃ r ∈ t.positions, r.orderGroupId = some id ∧ x.id = r.id ∧
          x.state = r.stateAfter o event) ∨
        id = gid ∧ entering o event t position gid = some x) ∧
      ∀ r ∈ t.positions, ∀ id, r.orderGroupId = some id → ∃ x ∈ t'.positions,
        x.orderGroupId = some id ∧ x.id = r.id ∧ x.state = r.stateAfter o event) ∧
    (∀ x, entering o event t position gid = some x →
      (x ∈ t'.positions ∧ x.orderGroupId = some gid) ∧
      ((∃ trade ∈ t'.trades, trade.orderGroupId = gid ∧ trade.positionId = some x.id) ↔
        Traded event t gid x)) ∧
    ∀ trade ∈ t.trades, trade ∈ t'.trades := by
  obtain ⟨deals, rfl⟩ := persistCloseDeal_ok h1
  cases hp : event.position with
  | none =>
    rcases persistPosition_ok h with ⟨-, rfl, -⟩ | ⟨p, _, _, _, hp', -⟩
    · have hafter : ∀ r : PositionRow, r.stateAfter o event = r.state := fun r => by
        simp [PositionRow.stateAfter, hp]
      refine ⟨⟨fun x hx id hxg => .inl ⟨x, hx, hxg, rfl, (hafter x).symm⟩, fun r hr id hrg =>
        ⟨r, hr, hrg, rfl, (hafter r).symm⟩⟩, fun x hx => ?_, fun _ => id⟩
      rw [entering, hp] at hx
      cases hx
    · rw [hp] at hp'
      cases hp'
  | some p =>
    obtain ⟨t2, stored, hup, htrade⟩ := persistPosition_stored hp h
    obtain ⟨hpositions, hstored, hentered⟩ :=
      upsertPosition_positions (t := { t with closeDeals := deals }) ⟨hkeyed.1, hkeyed.2⟩ hp hup
    have hkept : t2.trades = t.trades ∧ t2.orderGroups = t.orderGroups ∧ t2.fills = t.fills := by
      rcases upsertPosition_ok hup with ⟨_, _, _, _, _, rfl⟩ | ⟨_, _, rfl⟩ <;>
        exact ⟨rfl, rfl, rfl⟩
    obtain ⟨htrades2, hgroups2, hfills2⟩ := hkept
    have hrest : t'.positions = t2.positions ∧ ∀ trade ∈ t2.trades, trade ∈ t'.trades := by
      rcases htrade with ⟨-, d, -, hclosed⟩ | ⟨-, rfl⟩
      · rcases persistClosedTrade_ok hclosed with ⟨rfl, -⟩ | ⟨-, row, -, -, -, rfl⟩
        · exact ⟨rfl, fun _ => id⟩
        · exact ⟨rfl, fun _ => List.mem_append_left _⟩
      · exact ⟨rfl, fun _ => id⟩
    obtain ⟨hpositions', htrades'⟩ := hrest
    refine ⟨⟨by rw [hpositions']; exact hpositions, by rw [hpositions']; exact hstored⟩, ?_,
      fun trade htrade => htrades' trade (htrades2 ▸ htrade)⟩
    intro x hx
    obtain ⟨rfl, hmem, hgroup⟩ := hentered x hx
    refine ⟨⟨hpositions' ▸ hmem, hgroup⟩, ?_⟩
    obtain rfl := persistCloseDeal_entering hkeyed hx h1
    rw [Traded, ← htrades2]
    rcases htrade with ⟨hclosed, d, hd, hresult⟩ | ⟨hopen, rfl⟩
    · have hreason : (persistClosedTrade t x d).map (·.2) = .ok reason := by
        rw [← persistClosedTrade_reason hgroups2 hfills2 htrades2]
        simp only [Option.getD_none] at hresult
        rw [hresult]
        rfl
      simp only [hclosed, hd, Option.some.injEq, exists_eq_left', hreason, true_and,
        Except.ok.injEq]
      rcases persistClosedTrade_ok hresult with ⟨rfl, hsome⟩ | ⟨rfl, trade, hid, hg, -, rfl⟩
      · rw [or_iff_left]
        rintro rfl
        cases hsome
      · refine iff_of_true ⟨trade, by simp, ?_, hid⟩ (.inr rfl)
        exact Option.some.inj (hg.symm.trans hgroup)
    · rw [or_iff_left]
      rintro ⟨hclosed, d, hd, -⟩
      exact hopen ⟨hclosed, by simp [hd]⟩

/-- What an applied event leaves in the order rows. -/
theorem persistMapped_orders
    (h : persistMapped o t event source acknowledgement m gid replay = .ok (t', result)) :
    ∃ f : OrderRow → OrderRow, t'.orders = t.orders.map f ∧ ∀ r, (f r).id = r.id ∧
      (f r).orderGroupId = r.orderGroupId ∧ r.filledVolume ≤ (f r).filledVolume ∧
      (f r).state = r.stateAfter o event m.order := by
  obtain ⟨t1, s, t2, a, t3, k, reason, t4, t5, rows, acks, h1, h2, h3, h4, h5, -, rfl⟩ :=
    persistMapped_ok h
  obtain ⟨orders, rfl, f, horders, hf⟩ := persistOrder_states h1
  obtain ⟨deals, rfl⟩ := persistCloseDeal_ok h2
  refine ⟨f, ?_, hf⟩
  have hthree : t3.orders = orders := by
    rcases persistPosition_ok h3 with ⟨-, rfl, -⟩ | ⟨p, t6, stored, trades, -, hup, -, rfl⟩
    · rfl
    · rcases upsertPosition_ok hup with ⟨_, _, _, _, _, rfl⟩ | ⟨_, _, rfl⟩ <;> rfl
  have hfour : t4.orders = t3.orders := by
    rcases persistFill_ok h4 with ⟨rfl, -⟩ | ⟨row, -, -, -, rfl⟩ <;> rfl
  have hfive : t5.orders = t4.orders := by
    unfold recordMapped at h5
    split at h5
    · cases h5
      rfl
    · obtain ⟨-, row, -, -, -, -, -, rfl⟩ := insertEvent_ok h5
      rfl
  exact (hfive.trans (hfour.trans hthree)).trans horders

/-- What an applied event leaves in the rows of the groups. -/
theorem persistMapped_groups
    (h : persistMapped o t event source acknowledgement m gid replay = .ok (t', result)) :
    ∃ f : OrderGroupRow → OrderGroupRow, t'.orderGroups = t.orderGroups.map f ∧ ∀ g,
      (f g).id = g.id ∧ (f g).state =
        if g.id = gid ∧ g.state.finished = false then groupState t' gid else g.state := by
  obtain ⟨t1, s, t2, a, t3, k, reason, t4, t5, rows, acks, h1, h2, h3, h4, h5, -, rfl⟩ :=
    persistMapped_ok h
  obtain ⟨orders, rfl, -⟩ := persistOrder_states h1
  obtain ⟨deals, rfl⟩ := persistCloseDeal_ok h2
  have hthree : t3.orderGroups = t.orderGroups := by
    rcases persistPosition_ok h3 with ⟨-, rfl, -⟩ | ⟨p, t6, stored, trades, -, hup, -, rfl⟩
    · rfl
    · rcases upsertPosition_ok hup with ⟨_, _, _, _, _, rfl⟩ | ⟨_, _, rfl⟩ <;> rfl
  have hfour : t4.orderGroups = t3.orderGroups := by
    rcases persistFill_ok h4 with ⟨rfl, -⟩ | ⟨row, -, -, -, rfl⟩ <;> rfl
  have hfive : t5.orderGroups = (updateOrderGroup t4 gid event.occurredAt).orderGroups ∧
      groupState t5 gid = groupState t4 gid := by
    unfold recordMapped at h5
    split at h5
    · cases h5
      exact ⟨rfl, groupState_congr rfl rfl rfl⟩
    · obtain ⟨-, row, -, -, -, -, -, rfl⟩ := insertEvent_ok h5
      exact ⟨rfl, groupState_congr rfl rfl rfl⟩
  refine ⟨_, hfive.1.trans (by rw [updateOrderGroup, hfour, hthree]; rfl), fun g => ?_⟩
  rw [show groupState { t5 with events := rows, acknowledgements := acks } gid = groupState t4 gid
    from (groupState_congr rfl rfl rfl).trans hfive.2]
  by_cases hown : g.id = gid ∧ g.state.finished = false
  · have hcond : g.id = gid ∧ g.state ∉ [OrderGroupState.closed, .expired] := by
      simpa [OrderGroupState.finished] using hown
    simp only [hcond, not_false_eq_true, and_self, decide_true, if_true, hown]
  · have hcond : ¬ (g.id = gid ∧ g.state ∉ [OrderGroupState.closed, .expired]) := by
      simpa [OrderGroupState.finished] using hown
    simp only [hcond, decide_false, Bool.false_eq_true, if_false, hown, and_self]

/-- What an applied event leaves in the rows of orders, positions and groups. -/
theorem written_of_persistMapped (hkeyed : PositionsKeyed t)
    (h : persistMapped o t event source acknowledgement m gid replay = .ok (t', result)) :
    Written o event t t' m gid := by
  obtain ⟨f, horders, hf⟩ := persistMapped_orders h
  have hgroups := persistMapped_groups h
  obtain ⟨t1, s, t2, a, t3, k, reason, t4, t5, rows, acks, h1, h2, h3, h4, h5, -, rfl⟩ :=
    persistMapped_ok h
  obtain ⟨orders, rfl, -⟩ := persistOrder_states h1
  obtain ⟨⟨hpositions, hstored⟩, hentered, htrades3⟩ :=
    persistPosition_written (t := { t with orders }) ⟨hkeyed.1, hkeyed.2⟩ h2 h3
  have hfour : t4.positions = t3.positions ∧ t4.trades = t3.trades := by
    rcases persistFill_ok h4 with ⟨rfl, -⟩ | ⟨row, -, -, -, rfl⟩ <;> exact ⟨rfl, rfl⟩
  have hfive : t5.positions = t4.positions ∧ t5.trades = t4.trades := by
    unfold recordMapped at h5
    split at h5
    · cases h5
      exact ⟨rfl, rfl⟩
    · obtain ⟨-, row, -, -, -, -, -, rfl⟩ := insertEvent_ok h5
      exact ⟨rfl, rfl⟩
  have hpositions' : t5.positions = t3.positions := hfive.1.trans hfour.1
  have htrades' : t5.trades = t3.trades := hfive.2.trans hfour.2
  have hentering : ∀ x, entering o event t m.position gid = some x →
      (x ∈ t5.positions ∧ x.orderGroupId = some gid) ∧
      ((∃ trade ∈ t5.trades, trade.orderGroupId = gid ∧ trade.positionId = some x.id) ↔
        Traded event t gid x) := by
    intro x hx
    obtain ⟨hmem, htraded⟩ := hentered x hx
    rw [hpositions', htrades']
    exact ⟨hmem, htraded.trans (traded_congr rfl rfl rfl)⟩
  exact {
    orders := ⟨f, horders, fun r => ⟨(hf r).2.1, (hf r).2.2.2⟩⟩
    positions := by rw [hpositions']; exact hpositions
    stored := by rw [hpositions']; exact hstored
    entered := fun x hx => (hentering x hx).1
    trades := by rw [htrades']; exact htrades3
    traded := fun x hx => (hentering x hx).2
    groups := hgroups }

/-! ### Runs -/

theorem RowsKept.concluded_iff (h : RowsKept t t') : GroupsConcluded t' ↔ GroupsConcluded t := by
  refine forall_congr' fun g => ?_
  rw [h.orderGroups]
  refine forall₂_congr fun _ _ => ⟨?_, ?_⟩
  · rintro ⟨horders, hpositions, htrades⟩
    rw [h.orders] at horders
    rw [h.positions] at hpositions htrades
    rw [h.trades] at htrades
    exact ⟨horders, hpositions, htrades⟩
  · rintro ⟨horders, hpositions, htrades⟩
    refine ⟨?_, ?_, ?_⟩
    · rw [h.orders]
      exact horders
    · rw [h.positions]
      exact hpositions
    · rw [h.positions, h.trades]
      exact htrades

/-- Position rows stay unique. -/
theorem PositionsKeyed.upsert {p : DemoExecutionPosition} {position : Option PositionMatch}
    {stored : PositionRow} (hkeyed : PositionsKeyed t)
    (h : upsertPosition t (proposedPosition o t p position gid) = .ok (t', stored)) :
    PositionsKeyed t' := by
  rcases upsertPosition_find h with ⟨r, -, -, rfl⟩ | ⟨hnone, rfl, hid, rfl⟩
  · exact hkeyed.update rfl
  · refine ⟨List.pairwise_append.mpr ⟨hkeyed.brokerPosition, by simp, ?_⟩,
      List.pairwise_append.mpr ⟨hkeyed.id, by simp, ?_⟩⟩
    · rintro r hr q hq ⟨haccount, -, hbroker⟩
      rw [List.mem_singleton.mp hq] at haccount hbroker
      have hother : ¬ r.Stores o p := by simpa using List.find?_eq_none.mp hnone r hr
      exact hother ⟨haccount, hbroker⟩
    · intro r hr q hq
      rw [List.mem_singleton.mp hq]
      exact hid r hr

theorem PositionsKeyed.mapped (hkeyed : PositionsKeyed t)
    (h : persistMapped o t event source acknowledgement m gid replay = .ok (t', result)) :
    PositionsKeyed t' := by
  obtain ⟨t1, s, t2, a, t3, k, reason, t4, t5, rows, acks, h1, h2, h3, h4, h5, -, rfl⟩ :=
    persistMapped_ok h
  have htwo : PositionsKeyed t2 := by
    obtain ⟨deals, rfl⟩ := persistCloseDeal_ok h2
    obtain ⟨orders, rfl, -⟩ := persistOrder_states h1
    exact ⟨hkeyed.brokerPosition, hkeyed.id⟩
  have hthree : PositionsKeyed t3 := by
    rcases persistPosition_ok h3 with ⟨-, rfl, -⟩ | ⟨p, t6, stored, trades, -, hup, -, rfl⟩
    · exact htwo
    · obtain ⟨hbroker, hid⟩ := htwo.upsert hup
      exact ⟨hbroker, hid⟩
  have hpositions : t5.positions = t3.positions := by
    have hfour : t4.positions = t3.positions := by
      rcases persistFill_ok h4 with ⟨rfl, -⟩ | ⟨row, -, -, -, rfl⟩ <;> rfl
    unfold recordMapped at h5
    split at h5
    · cases h5
      exact hfour
    · obtain ⟨-, row, -, -, -, -, -, rfl⟩ := insertEvent_ok h5
      exact hfour
  exact ⟨hpositions ▸ hthree.brokerPosition, hpositions ▸ hthree.id⟩

/-- The transaction commits and applies the event, matched as `m`, to the group. -/
structure Applies (o : PostgresDemoExecutionStoreOptions) (t : Tables) (d : Delivery) (m : Matched)
    (gid : ℕ) : Prop where
  isMatched : Matches o t d.event m gid
  commits : ∃ rows replay t' result,
    persist o t d.event d.source d.acknowledgement = .ok (t', result) ∧
    persistMapped o { t with protections := rows } d.event d.source d.acknowledgement m gid replay =
      .ok (t', result)

/-- The delivery, if its event is applied, spares the finished groups. -/
def SparesFinished (o : PostgresDemoExecutionStoreOptions) (t : Tables) (d : Delivery) : Prop :=
  ∀ m gid, Applies o t d m gid → Spares o d.event t m gid

theorem deliver_keyed (hkeyed : PositionsKeyed t) (d : Delivery) :
    PositionsKeyed (deliver o t d) := by
  unfold deliver
  split
  · next t' result h =>
    rcases persist_cases h with hkept | ⟨rows, m, id, replay, -, hmapped⟩
    · exact ⟨hkept.positions ▸ hkeyed.brokerPosition, hkept.positions ▸ hkeyed.id⟩
    · exact PositionsKeyed.mapped (t := { t with protections := rows })
        ⟨hkeyed.brokerPosition, hkeyed.id⟩ hmapped
  · exact hkeyed

theorem spares_protections (rows : List ProtectionRow) :
    Spares o event { t with protections := rows } m gid ↔ Spares o event t m gid := by
  have htraded : ∀ x, Traded event { t with protections := rows } gid x ↔ Traded event t gid x :=
    fun x => traded_congr rfl rfl rfl
  constructor
  · rintro ⟨horders, hpositions, hentry, hexpiry⟩
    refine ⟨horders, hpositions, fun x hx g hg hid hfin => ?_, fun g hg hid hfin hended =>
      hexpiry g hg hid hfin ⟨hended.1, hended.2⟩⟩
    rw [← htraded]
    exact hentry x hx g hg hid hfin
  · rintro ⟨horders, hpositions, hentry, hexpiry⟩
    refine ⟨horders, hpositions, fun x hx g hg hid hfin => ?_, fun g hg hid hfin hended =>
      hexpiry g hg hid hfin ⟨hended.1, hended.2⟩⟩
    rw [htraded]
    exact hentry x hx g hg hid hfin

theorem Applies.concluded_iff {d : Delivery} (h : Applies o t d m gid) (hkeyed : PositionsKeyed t)
    (ht : GroupsConcluded t) :
    GroupsConcluded (deliver o t d) ↔ Spares o d.event t m gid := by
  obtain ⟨rows, replay, t', result, hpersist, hmapped⟩ := h.commits
  have hdeliver : deliver o t d = t' := by
    rw [deliver, hpersist]
  have hwritten := written_of_persistMapped (t := { t with protections := rows })
    ⟨hkeyed.brokerPosition, hkeyed.id⟩ hmapped
  rw [hdeliver, ← spares_protections rows]
  exact hwritten.concluded_iff fun g hg hfin => ⟨(ht g hg hfin).1, (ht g hg hfin).2, (ht g hg hfin).3⟩

namespace Sample

theorem store_keyed : PositionsKeyed store := ⟨by decide, by decide⟩

theorem store_concluded : GroupsConcluded store := by
  intro g hg hfin
  rw [store, List.mem_singleton] at hg
  rw [hg] at hfin
  cases hfin

/-- A part of the order is filled, and the rest of it expires. -/
def partlyFilledThenExpired : List Delivery := closes [
  { report "deal:1" 11 .partiallyFilled 300 2 with
    brokerPositionId := some "9"
    brokerFillId := some "1"
    position := some ⟨"9", .buy, .opened, 300, some 10, none, none, some 2, none, 2⟩
    fill := some ⟨"1", "1", "9", 10, 300, 0, 2⟩ },
  report "order:1" 6 .expired 300 10]

/-- The expiry of the order is delivered before its fill. -/
def expiredThenFilled : List Delivery := closes [report "order:1" 6 .expired 0 10, entry]

end Sample

/-- A group with an OPEN position, and with orders that all ended, is EXPIRED. -/
structure ExpiredWhileOpen (t : Tables) : Prop where
  group : ∃ g ∈ t.orderGroups, g.id = 1 ∧ g.state = .expired
  position : ∃ p ∈ t.positions, p.orderGroupId = some 1 ∧ p.state = .opened

theorem not_concluded_of_open (h : ExpiredWhileOpen t) : ¬ GroupsConcluded t := by
  intro ht
  obtain ⟨⟨g, hg, hid, hstate⟩, p, hp, hpg, hopen⟩ := h
  have hclosed := (ht g hg (by rw [hstate]; rfl)).positions p hp (hpg.trans (by rw [hid]))
  rw [hopen] at hclosed
  cases hclosed

end ScalpingBot.Store
