import ScalpingBot.Library.Transition
import ScalpingBot.Paper.Gateway

/-! The life of a group of the paper gateway: what its two orders and the positions they opened look
    like together, in every state that calls can lead to. -/

namespace ScalpingBot.Paper

/-! ### The stages of a group -/

/-- An order that no quote has filled or refused. -/
def Waiting (order : MutablePaperOrder) : Prop :=
  order.state = .pending ∨ order.state = .cancelled ∨ order.state = .expired

/-- An order that will not be filled any more. -/
def Dead (order : MutablePaperOrder) : Prop :=
  order.state = .cancelled ∨ order.state = .expired ∨ order.state = .rejected

/-- An order that was filled; a cancellation may have followed a partial fill. -/
def Entered (order : MutablePaperOrder) : Prop :=
  order.state = .filled ∨ order.state = .partiallyFilled ∨ order.state = .cancelled

/-- Where a group is in its life, together with the positions that its legs opened. -/
inductive Stage (group : PaperGroup) : List PaperPosition → Prop
  | waiting : group.state = .active → (∀ l, Waiting (group.orders l)) → Stage group []
  | holding (p : PaperPosition) : group.state = .positionOpen → p.state = .opened →
      Entered (group.orders p.order.leg) → Dead (group.orders p.order.leg.peer) → Stage group [p]
  | doubtful (held : List PaperPosition) : group.state = .reconciliationRequired →
      (∀ p ∈ held, p.state = .unknown) → (∀ l, Entered (group.orders l)) → Stage group held
  | finished (p : PaperPosition) : group.state = .closed → p.state = .closed →
      Entered (group.orders p.order.leg) → Dead (group.orders p.order.leg.peer) → Stage group [p]
  | abandoned : group.state = .closed → (∀ l, Dead (group.orders l)) → Stage group []

theorem Leg.eq_or_peer (l m : Leg) : m = l ∨ m = l.peer := by
  cases l <;> cases m <;> simp [Leg.peer]

@[simp] theorem Leg.peer_ne (l : Leg) : l.peer ≠ l := by cases l <;> simp [Leg.peer]

theorem Leg.mem_legs (l : Leg) : l ∈ legs := by cases l <;> simp [legs]

/-- Two different legs are all there is. -/
theorem Leg.mem_of_two {l m : Leg} {rest : List Leg} (h : (l :: m :: rest).Nodup) (n : Leg) :
    n ∈ l :: m :: rest := by
  have hne : l ≠ m := by
    rintro rfl
    simp at h
  cases l <;> cases m <;> cases n <;> simp_all

/-- A waiting group is active, and only that. -/
theorem Stage.of_active {group : PaperGroup} {held : List PaperPosition} (h : Stage group held)
    (hs : group.state = .active) : held = [] ∧ ∀ l, Waiting (group.orders l) := by
  cases h with
  | waiting _ hw => exact ⟨rfl, hw⟩
  | holding _ h | doubtful _ h | finished _ h | abandoned h => rw [hs] at h; cases h

/-- The group of an open position holds that position and nothing else. -/
theorem Stage.of_opened {group : PaperGroup} {held : List PaperPosition} {p : PaperPosition}
    (h : Stage group held) (hp : p ∈ held) (hopen : p.state = .opened) :
    held = [p] ∧ group.state = .positionOpen ∧ Entered (group.orders p.order.leg) ∧
      Dead (group.orders p.order.leg.peer) := by
  cases h with
  | waiting | abandoned => cases hp
  | holding p' hs _ he hd =>
    obtain rfl := List.mem_singleton.mp hp
    exact ⟨rfl, hs, he, hd⟩
  | doubtful _ _ hu =>
    have := hu p hp
    rw [hopen] at this
    cases this
  | finished p' _ hc =>
    obtain rfl := List.mem_singleton.mp hp
    rw [hopen] at hc
    cases hc

/-! ### What a cancellation does -/

section

variable {order : MutablePaperOrder} (reason : String) (now : ℕ)

theorem Waiting.cancelled (h : Waiting order) : Waiting (PaperGateway.cancelled reason now order) := by
  rw [PaperGateway.cancelled]
  split
  · exact .inr (.inl rfl)
  · exact h

theorem Dead.cancelled (h : Dead order) : Dead (PaperGateway.cancelled reason now order) := by
  rw [PaperGateway.cancelled]
  split
  · exact .inl rfl
  · exact h

theorem Entered.cancelled (h : Entered order) : Entered (PaperGateway.cancelled reason now order) := by
  rw [PaperGateway.cancelled]
  split
  · exact .inr (.inr rfl)
  · exact h

/-- What is kept by a change of an order is kept by rewriting one leg. -/
theorem PaperGroup.rewrite_keeps {P : MutablePaperOrder → Prop}
    {f : MutablePaperOrder → MutablePaperOrder} (hf : ∀ order, P order → P (f order))
    {group : PaperGroup} {m : Leg} (l : Leg) (h : P (group.orders m)) :
    P ((group.rewrite l f).orders m) := by
  rcases eq_or_ne m l with rfl | hne
  · rw [rewrite_self]
    exact hf _ h
  · rw [rewrite_of_ne group hne]
    exact h

/-- A cancellation does not move a group to another stage. -/
theorem Stage.cancel {group : PaperGroup} {held : List PaperPosition} (h : Stage group held)
    (l : Leg) : Stage (group.rewrite l (PaperGateway.cancelled reason now)) held := by
  have hw {m : Leg} := @PaperGroup.rewrite_keeps Waiting
    (PaperGateway.cancelled reason now) (fun _ h => h.cancelled reason now) group m l
  have hd {m : Leg} := @PaperGroup.rewrite_keeps Dead
    (PaperGateway.cancelled reason now) (fun _ h => h.cancelled reason now) group m l
  have he {m : Leg} := @PaperGroup.rewrite_keeps Entered
    (PaperGateway.cancelled reason now) (fun _ h => h.cancelled reason now) group m l
  cases h with
  | waiting hs h => exact .waiting hs fun m => hw (h m)
  | holding p hs hp hin hout => exact .holding p hs hp (he hin) (hd hout)
  | doubtful held hs hp h => exact .doubtful held hs hp fun m => he (h m)
  | finished p hs hp hin hout => exact .finished p hs hp (he hin) (hd hout)
  | abandoned hs h => exact .abandoned hs fun m => hd (h m)

end

/-! ### The invariant of the gateway -/

/-- The positions that the legs of group `k` opened. -/
def PaperGateway.held (g : PaperGateway) (k : ℕ) : List PaperPosition :=
  g.positions.filter (·.order.group = k)

variable (o : PaperGatewayOptions)

/-- A closed position has the profit of leaving its entry at its exit. -/
def Booked (p : PaperPosition) : Prop :=
  p.state = .closed → ∃ x, p.exitPrice = some x ∧ p.realizedPnl = profit o p.side p.entryPrice x p.volume

/-- Every group is in a stage, every position belongs to a group and the closed ones are booked. -/
structure Sound (g : PaperGateway) : Prop where
  stage : ∀ k group, g.groups[k]? = some group → Stage group (g.held k)
  known : ∀ p ∈ g.positions, p.order.group < g.groups.length
  booked : ∀ p ∈ g.positions, Booked o p

theorem sound_empty : Sound o .empty where
  stage _ _ h := by simp [PaperGateway.empty] at h
  known _ h := by cases h
  booked _ h := by cases h

variable {o} {g : PaperGateway}

/-- What a change of group `k` alone has to keep. -/
theorem Sound.change (h : Sound o g) {k : ℕ} {group : PaperGroup} (hk : k < g.groups.length)
    {positions : List PaperPosition} (hstage : Stage group (positions.filter (·.order.group = k)))
    (hother : ∀ j ≠ k, positions.filter (·.order.group = j) = g.held j)
    (hbooked : ∀ p ∈ positions, p.order.group = k → Booked o p) :
    Sound o { g with groups := g.groups.set k group, positions := positions } := by
  have hmem {p : PaperPosition} (hp : p ∈ positions) (hne : p.order.group ≠ k) :
      p ∈ g.positions := by
    have : p ∈ positions.filter (·.order.group = p.order.group) := by simp [hp]
    rw [hother _ hne] at this
    exact (List.mem_filter.mp this).1
  refine ⟨fun j group' hj => ?_, fun p hp => ?_, fun p hp => ?_⟩
  · rcases eq_or_ne j k with rfl | hne
    · simp only [List.getElem?_set_self hk, Option.some.injEq] at hj
      exact hj ▸ hstage
    · simp only [List.getElem?_set_ne hne.symm] at hj
      have := h.stage j group' hj
      rw [← hother j hne] at this
      exact this
  · rw [List.length_set]
    rcases eq_or_ne p.order.group k with heq | hne
    · exact heq ▸ hk
    · exact h.known p (hmem hp hne)
  · rcases eq_or_ne p.order.group k with heq | hne
    · exact hbooked p hp heq
    · exact h.booked p (hmem hp hne)

/-- A change of group `k` that opens and closes nothing. -/
theorem Sound.restage (h : Sound o g) {k : ℕ} {group : PaperGroup} (hk : k < g.groups.length)
    (hstage : Stage group (g.held k)) : Sound o { g with groups := g.groups.set k group } :=
  h.change hk hstage (fun _ _ => rfl) fun p hp _ => h.booked p hp

/-! ### Placement and cancellation -/

theorem Sound.placeOco (h : Sound o g) (first second : PendingOrderCommand) (now : ℕ) :
    Sound o (g.placeOco first second now).1 := by
  rw [PaperGateway.placeOco]
  split
  · exact h
  split
  · exact h
  split
  · exact h
  refine ⟨fun k group hk => ?_, fun p hp => ?_, h.booked⟩
  · rcases lt_or_ge k g.groups.length with hlt | hge
    · rw [List.getElem?_append_left hlt] at hk
      exact h.stage k group hk
    · rw [List.getElem?_append_right hge, List.getElem?_singleton] at hk
      obtain ⟨-, ⟨⟩⟩ := Option.ite_none_right_eq_some.mp hk
      have hnone : g.held k = [] := by
        refine List.filter_eq_nil_iff.mpr fun p hp => ?_
        have := h.known p hp
        simp only [decide_eq_true_eq]
        omega
      show Stage _ (g.held k)
      rw [hnone]
      refine .waiting rfl fun l => ?_
      cases l <;> exact .inl rfl
  · have := h.known p hp
    simp only [List.length_append]
    omega

theorem Sound.cancelStrategyOrder (h : Sound o g) (clientOrderId reason : String) (now : ℕ) :
    Sound o (g.cancelStrategyOrder clientOrderId reason now).1 := by
  rw [PaperGateway.cancelStrategyOrder]
  split
  · exact h
  rename_i ref _
  split
  · exact h
  rename_i group hgroup
  obtain ⟨hk, -⟩ := List.getElem?_eq_some_iff.mp hgroup
  exact h.restage hk ((h.stage _ _ hgroup).cancel reason now ref.leg)

/-! ### Closing positions -/

/-- A list around the element that stands in one place. -/
theorem exists_around {α : Type} {l : List α} {i : ℕ} {a : α} (h : l[i]? = some a) :
    ∃ s t, l = s ++ a :: t ∧ ∀ b, l.set i b = s ++ b :: t := by
  obtain ⟨hi, rfl⟩ := List.getElem?_eq_some_iff.mp h
  exact ⟨l.take i, l.drop (i + 1), by simp, fun b => List.set_eq_take_append_cons_drop ▸ if_pos hi⟩

/-- Replacing the one element that passes a test. -/
theorem filter_set_of_singleton {α : Type} {l : List α} {i : ℕ} {a b c : α} {P : α → Bool}
    (h : l[i]? = some a) (ha : P a) (hb : P b) (hl : l.filter P = [c]) :
    (l.set i b).filter P = [b] := by
  obtain ⟨s, t, rfl, hset⟩ := exists_around h
  rw [hset]
  simp only [List.filter_append, List.filter_cons, ha, hb, if_true] at hl ⊢
  have hlen := congrArg List.length hl
  simp only [List.length_append, List.length_cons, List.length_nil] at hlen
  rw [List.eq_nil_of_length_eq_zero (show (s.filter P).length = 0 by omega),
    List.eq_nil_of_length_eq_zero (show (t.filter P).length = 0 by omega)]
  rfl

/-- Replacing an element that does not pass a test by another one that does not. -/
theorem filter_set_of_not {α : Type} {l : List α} {i : ℕ} {a b : α} {P : α → Bool}
    (h : l[i]? = some a) (ha : ¬ P a) (hb : ¬ P b) : (l.set i b).filter P = l.filter P := by
  obtain ⟨s, t, rfl, hset⟩ := exists_around h
  rw [hset]
  simp [List.filter_append, ha, hb]

variable (q : Quote)

@[simp] theorem close_order (p : PaperPosition) (x : Decimal) (reason : String) :
    (p.close o q x reason).order = p.order := rfl

/-- Once the open position of a group is closed, nothing is left to happen to its legs. -/
theorem legs_done {positions : List PaperPosition} {group : PaperGroup} {p : PaperPosition}
    (hheld : positions.filter (·.order.group = p.order.group) = [p]) (hp : p.state = .closed)
    (hdead : Dead (group.orders p.order.leg.peer)) :
    legs.all (legDone positions p.order.group group) := by
  refine List.all_eq_true.mpr fun l _ => ?_
  rw [legDone, decide_eq_true_eq]
  rcases p.order.leg.eq_or_peer l with rfl | rfl
  · refine .inl (List.all_eq_true.mpr fun p' hp' => ?_)
    obtain ⟨hmem, horder⟩ := List.mem_filter.mp hp'
    have : p' ∈ positions.filter (·.order.group = p.order.group) :=
      List.mem_filter.mpr ⟨hmem, by simp [of_decide_eq_true horder]⟩
    rw [hheld, List.mem_singleton] at this
    simp [this, hp]
  · rcases hdead with h | h | h <;> simp [h]

theorem PaperGroup.marked_state (group : PaperGroup) (l m : Leg) (reason : String) :
    ((group.marked q l reason).orders m).state = (group.orders m).state := by
  rw [marked]
  exact rewrite_keeps (P := fun order => order.state = (group.orders m).state)
    (f := fun order => { order with updatedAt := q.time, reasonCode := some reason })
    (fun _ h => h) l rfl

section closing

variable {i : ℕ} {p : PaperPosition} {group : PaperGroup}

/-- The position `i` and its group once the position has been left. -/
def PaperGateway.leave (g : PaperGateway) (i : ℕ) (p : PaperPosition) (group : PaperGroup)
    (x : Decimal) (reason : String) : PaperGateway :=
  { g with
    groups := g.groups.set p.order.group { group.marked q p.order.leg reason with state := .closed }
    positions := g.positions.set i (p.close o q x reason) }

/-- What the round over an open position does: nothing, or it closes the position and its group. -/
theorem closeRound_eq (h : Sound o g) (hi : g.positions[i]? = some p) (hopen : p.state = .opened)
    (hgroup : g.groups[p.order.group]? = some group) :
    closeRound o q i g = match exitAt q p.side (group.orders p.order.leg).command with
      | .error e => (g, .error e)
      | .ok none => (g, .ok [])
      | .ok (some (x, reason)) => (g.leave (o := o) q i p group x reason,
          .ok [external ((group.marked q p.order.leg reason).orders p.order.leg)]) := by
  simp only [closeRound, hi, hgroup]
  rcases exitAt q p.side (group.orders p.order.leg).command with e | (_ | ⟨x, reason⟩)
  · rfl
  · rfl
  obtain ⟨hheld, -, -, hdead⟩ := (h.stage _ _ hgroup).of_opened
    (List.mem_filter.mpr ⟨List.mem_of_getElem? hi, by simp⟩) hopen
  have hdone := @legs_done _ (group.marked q p.order.leg reason) (p.close o q x reason)
    (filter_set_of_singleton (b := p.close o q x reason) hi (by simp) (by simp) hheld) rfl
    (by rw [Dead, PaperGroup.marked_state]; exact hdead)
  rw [close_order] at hdone
  simp only [hdone, if_true]
  rfl

/-- Leaving an open position finishes its group. -/
theorem Sound.leave (h : Sound o g) (hi : g.positions[i]? = some p) (hopen : p.state = .opened)
    (hgroup : g.groups[p.order.group]? = some group) (x : Decimal) (reason : String) :
    Sound o (g.leave (o := o) q i p group x reason) := by
  obtain ⟨hheld, -, hin, hout⟩ := (h.stage _ _ hgroup).of_opened
    (List.mem_filter.mpr ⟨List.mem_of_getElem? hi, by simp⟩) hopen
  obtain ⟨hk, -⟩ := List.getElem?_eq_some_iff.mp hgroup
  have hheld' := filter_set_of_singleton (b := p.close o q x reason) hi (by simp) (by simp) hheld
  refine h.change hk ?_ (fun j hj => ?_) fun p' hp' hk' => ?_
  · rw [hheld']
    refine .finished _ rfl rfl ?_ ?_
    · rw [Entered, PaperGroup.marked_state]
      exact hin
    · rw [Dead, PaperGroup.marked_state]
      exact hout
  · exact filter_set_of_not hi (by simp [hj.symm]) (by simp [hj.symm])
  · have : p' ∈ (g.positions.set i (p.close o q x reason)).filter
        (·.order.group = p.order.group) := by simp [hp', hk']
    rw [hheld', List.mem_singleton] at this
    subst this
    exact fun _ => ⟨x, rfl, rfl⟩

theorem Sound.after_close (h : Sound o g) (hi : g.positions[i]? = some p)
    (hopen : p.state = .opened) : Sound o (closeRound o q i g).1 := by
  have hk := h.known p (List.mem_of_getElem? hi)
  have hgroup := List.getElem?_eq_getElem hk
  rw [closeRound_eq q h hi hopen hgroup]
  split
  · exact h
  · exact h
  · exact h.leave q hi hopen hgroup _ _

end closing

/-- Every place of the list is that of an open position. -/
def OpenAt (is : List ℕ) (g : PaperGateway) : Prop :=
  is.Nodup ∧ ∀ i ∈ is, ∃ p, g.positions[i]? = some p ∧ p.state = .opened

theorem openAt_openPositions (g : PaperGateway) (symbol : String) :
    OpenAt (openPositions g symbol) g := by
  refine ⟨List.nodup_range.filter _, fun i hi => ?_⟩
  obtain ⟨p, hp, hopen⟩ := (Option.any_eq_true _ _).mp (List.mem_filter.mp hi).2
  exact ⟨p, hp, (of_decide_eq_true hopen).1⟩

/-- A round leaves the positions of the later rounds as they are. -/
theorem OpenAt.after_close (h : Sound o g) {i : ℕ} {is : List ℕ} (ho : OpenAt (i :: is) g) :
    OpenAt is (closeRound o q i g).1 := by
  obtain ⟨hnodup, hopen⟩ := ho
  obtain ⟨hi, hnodup⟩ := List.nodup_cons.mp hnodup
  obtain ⟨p, hp, hpopen⟩ := hopen i List.mem_cons_self
  refine ⟨hnodup, fun j hj => ?_⟩
  have hne : i ≠ j := by
    rintro rfl
    exact hi hj
  obtain ⟨p', hp', hopen'⟩ := hopen j (List.mem_cons_of_mem i hj)
  refine ⟨p', ?_, hopen'⟩
  rw [closeRound_eq q h hp hpopen (List.getElem?_eq_getElem (h.known p (List.mem_of_getElem? hp)))]
  split
  · exact hp'
  · exact hp'
  · rw [← hp']
    exact List.getElem?_set_ne hne

theorem Sound.after_closes (h : Sound o g) (symbol : String) :
    Sound o (Attempt.loop (closeRound o q) (openPositions g symbol) g).1 := by
  refine Attempt.loop_rule (I := fun is g => Sound o g ∧ OpenAt is g) (fun _ _ h => h.1)
    (fun i is g h => ⟨?_, h.2.after_close q h.1⟩) _ _ ⟨h, openAt_openPositions g symbol⟩
  obtain ⟨p, hp, hopen⟩ := h.2.2 i List.mem_cons_self
  exact h.1.after_close q hp hopen

/-! ### Filling orders -/

theorem fill_state (partialVolume : Option Decimal) (order : MutablePaperOrder) :
    isFilled (fill o q partialVolume order) ∨
      (fill o q partialVolume order).state = .rejected := by
  simp only [fill]
  split
  · exact .inr rfl
  · refine .inl ?_
    rw [isFilled, decide_eq_true_eq]
    exact (ite_eq_or_eq _ _ _).symm

theorem Waiting.expire {group : PaperGroup} {l : Leg} (h : Waiting (group.orders l)) :
    Waiting ((expireGroup q group).orders l) := by
  dsimp only [expireGroup]
  split
  · exact .inr (.inr rfl)
  · exact h

theorem Entered.of_isFilled {order : MutablePaperOrder} (h : isFilled order) : Entered order := by
  rw [isFilled, decide_eq_true_eq] at h
  rcases h with h | h
  · exact .inl h
  · exact .inr (.inl h)

/-- An order that a quote did not trigger is withdrawn or was never live. -/
theorem Waiting.dead {order : MutablePaperOrder} (h : Waiting order) (hp : order.state ≠ .pending) :
    Dead order := by
  rcases h with h | h | h
  · exact absurd h hp
  · exact .inl h
  · exact .inr (.inl h)

theorem isFilled_not_pending {order : MutablePaperOrder} (h : isFilled order) :
    order.state ≠ .pending := by
  intro hp
  simp [isFilled, hp] at h

theorem Dead.not_pending {order : MutablePaperOrder} (h : Dead order) : order.state ≠ .pending := by
  intro hp
  simp [Dead, hp] at h

section withdrawing

variable {reason : String} {orders : Leg → MutablePaperOrder} {candidates : List Leg} {l : Leg}

theorem withdrawLeg_of_not_pending (h : (orders l).state ≠ .pending) :
    (withdrawLeg q reason orders candidates).1 l = orders l := by
  rw [withdrawLeg]
  split
  · rfl
  · rename_i m hm
    have hpending := List.find?_some hm
    refine Function.update_of_ne ?_ ..
    rintro rfl
    exact h (of_decide_eq_true hpending)

/-- The only leg that can be pending is dead afterwards. -/
theorem withdrawLeg_dead (hl : l ∈ candidates) (hother : ∀ m ≠ l, (orders m).state ≠ .pending)
    (h : Dead (orders l) ∨ (orders l).state = .pending) :
    Dead ((withdrawLeg q reason orders candidates).1 l) := by
  rcases h with h | h
  · rw [withdrawLeg_of_not_pending q h.not_pending]
    exact h
  · rw [withdrawLeg]
    split
    · rename_i hnone
      exact absurd (decide_eq_true h) (List.find?_eq_none.mp hnone l hl)
    · rename_i m hm
      obtain rfl : m = l := by
        by_contra hne
        have hpending := List.find?_some hm
        exact hother m hne (of_decide_eq_true hpending)
      dsimp only
      rw [Function.update_self]
      exact .inl rfl

end withdrawing

section filling

variable {k : ℕ} {group : PaperGroup} {triggered : List Leg} {partialVolume : Option Decimal}

theorem filledOrders_dead {l : Leg} (hl : l ∈ triggered)
    (h : ¬ isFilled (filledOrders o q group triggered partialVolume l)) :
    Dead (filledOrders o q group triggered partialVolume l) := by
  rw [filledOrders, if_pos hl] at h ⊢
  exact .inr (.inr ((fill_state q _ _).resolve_left h))

/-- A leg that is not filled is dead or still pending. -/
theorem filledOrders_unfilled (hwait : ∀ l, Waiting (group.orders l)) {l : Leg}
    (h : l ∈ triggered → ¬ isFilled (filledOrders o q group triggered partialVolume l)) :
    Dead (filledOrders o q group triggered partialVolume l) ∨
      (filledOrders o q group triggered partialVolume l).state = .pending := by
  by_cases hl : l ∈ triggered
  · exact .inl (filledOrders_dead q hl (h hl))
  · rw [filledOrders, if_neg hl]
    by_cases hp : (group.orders l).state = .pending
    · exact .inr hp
    · exact .inl ((hwait l).dead hp)

/-- Without a fill the group ends. -/
theorem dead_of_unfilled (hwait : ∀ l, Waiting (group.orders l)) (hne : triggered ≠ [])
    (hnone : ∀ l ∈ triggered, ¬ isFilled (filledOrders o q group triggered partialVolume l))
    (l : Leg) : Dead ((withdrawLeg q "PAPER_OCO_PEER_REJECTED"
      (filledOrders o q group triggered partialVolume) legs).1 l) := by
  by_cases hl : l ∈ triggered
  · have hdead := filledOrders_dead q hl (hnone l hl)
    rw [withdrawLeg_of_not_pending q hdead.not_pending]
    exact hdead
  · obtain ⟨m, hm⟩ := List.exists_mem_of_ne_nil _ hne
    have hpeer : m = l.peer := (l.eq_or_peer m).resolve_left (by rintro rfl; exact hl hm)
    refine withdrawLeg_dead q l.mem_legs (fun n hn => ?_)
      (filledOrders_unfilled q hwait fun h => absurd h hl)
    rw [(l.eq_or_peer n).resolve_left hn, ← hpeer]
    exact (filledOrders_dead q hm (hnone m hm)).not_pending

/-- After one fill the other leg ends. -/
theorem dead_of_filled (hwait : ∀ l, Waiting (group.orders l)) {a : Leg}
    (ha : isFilled (filledOrders o q group triggered partialVolume a))
    (hpeer : a.peer ∈ triggered →
      ¬ isFilled (filledOrders o q group triggered partialVolume a.peer)) :
    Dead ((withdrawLeg q "PAPER_OCO_PEER_FILLED"
      (filledOrders o q group triggered partialVolume) [a.peer]).1 a.peer) := by
  refine withdrawLeg_dead q List.mem_cons_self (fun m hm => ?_) (filledOrders_unfilled q hwait hpeer)
  have hma : m = a := by cases a <;> cases m <;> simp_all [Leg.peer]
  rw [hma]
  exact isFilled_not_pending ha

theorem map_doubted_of_not_held (hheld : g.held k = []) (filled : List Leg) :
    g.positions.map (doubted (filled.map (OrderRef.mk k))) = g.positions := by
  refine (List.map_congr_left fun p hp => ?_).trans (List.map_id _)
  refine if_neg fun hmem => ?_
  obtain ⟨l, -, heq⟩ := List.mem_map.mp hmem
  have := List.filter_eq_nil_iff.mp hheld p hp
  simp [← heq] at this

/-- The positions of two fills are all in doubt. -/
theorem mem_doubted {filled : List Leg} {orders : Leg → MutablePaperOrder} {p : PaperPosition}
    (hp : p ∈ (filled.map fun l => openPosition o q ⟨k, l⟩ (orders l)).map
      (doubted (filled.map (OrderRef.mk k)))) :
    ∃ l ∈ filled, p = { openPosition o q ⟨k, l⟩ (orders l) with state := .unknown } := by
  obtain ⟨_, hp', rfl⟩ := List.mem_map.mp hp
  obtain ⟨l, hl, rfl⟩ := List.mem_map.mp hp'
  exact ⟨l, hl, if_pos (List.mem_map_of_mem hl)⟩

variable (partialVolume) in
/-- What a round that fills orders of group `k` does to the gateway. -/
theorem settleFills_spec (hwait : ∀ l, Waiting (group.orders l)) (hheld : g.held k = [])
    (hnodup : triggered.Nodup) (hne : triggered ≠ []) :
    ∃ group' opened, (settleFills o q k group triggered partialVolume g).1 =
        { g with groups := g.groups.set k group', positions := g.positions ++ opened } ∧
      (∀ p ∈ opened, p.order.group = k ∧ p.state ≠ .closed) ∧ Stage group' opened := by
  rw [settleFills]
  set orders := filledOrders o q group triggered partialVolume with horders
  dsimp only
  have hmem {l : Leg} {filled : List Leg} (hf : triggered.filter (fun l => isFilled (orders l)) = filled) :
      l ∈ filled ↔ l ∈ triggered ∧ isFilled (orders l) := by rw [← hf, List.mem_filter]
  rcases hf : triggered.filter (fun l => isFilled (orders l)) with _ | ⟨a, _ | ⟨b, rest⟩⟩
  · refine ⟨_, [], rfl, by simp, .abandoned rfl (dead_of_unfilled q hwait hne fun l hl hfill => ?_)⟩
    exact absurd ((hmem hf).mpr ⟨hl, hfill⟩) (List.not_mem_nil)
  · obtain ⟨-, ha⟩ := (hmem hf).mp List.mem_cons_self
    refine ⟨_, _, rfl, by simp [openPosition], .holding _ rfl rfl ?_ ?_⟩
    · dsimp only [openPosition]
      rw [withdrawLeg_of_not_pending q (isFilled_not_pending ha)]
      exact .of_isFilled ha
    · refine dead_of_filled q hwait ha fun hl hfill => ?_
      have := (hmem hf).mpr ⟨hl, hfill⟩
      simp at this
  · -- both legs are filled
    have hall (l : Leg) : isFilled (orders l) :=
      ((hmem hf).mp (Leg.mem_of_two (hf ▸ hnodup.filter _) l)).2
    refine ⟨{ group with orders := orders, state := .reconciliationRequired },
      ((a :: b :: rest).map fun l => openPosition o q ⟨k, l⟩ (orders l)).map
        (doubted ((a :: b :: rest).map (OrderRef.mk k))), ?_, fun p hp => ?_,
      .doubtful _ rfl (fun p hp => ?_) fun l => .of_isFilled (hall l)⟩
    · rw [List.map_append, map_doubted_of_not_held hheld]
    · obtain ⟨l, -, rfl⟩ := mem_doubted q hp
      exact ⟨rfl, by simp⟩
    · obtain ⟨l, -, rfl⟩ := mem_doubted q hp
      rfl

end filling

/-- A new stage for a group that has opened these positions. -/
theorem Sound.opened (h : Sound o g) {k : ℕ} {group : PaperGroup} (hk : k < g.groups.length)
    (hheld : g.held k = []) {opened : List PaperPosition}
    (hopened : ∀ p ∈ opened, p.order.group = k ∧ p.state ≠ .closed) (hstage : Stage group opened) :
    Sound o { g with groups := g.groups.set k group, positions := g.positions ++ opened } := by
  have hself : opened.filter (·.order.group = k) = opened :=
    List.filter_eq_self.mpr fun p hp => by simp [hopened p hp]
  have hother (j : ℕ) (hj : j ≠ k) : opened.filter (·.order.group = j) = [] :=
    List.filter_eq_nil_iff.mpr fun p hp => by simp [hopened p hp, hj.symm]
  refine h.change hk ?_ (fun j hj => ?_) fun p hp hpk => ?_
  · rw [List.filter_append, hself, show g.positions.filter (·.order.group = k) = [] from hheld]
    exact hstage
  · rw [List.filter_append, hother j hj, List.append_nil]
    rfl
  · rcases List.mem_append.mp hp with hp | hp
    · exact h.booked p hp
    · exact fun hc => absurd hc (hopened p hp).2

/-- What a round over a group does: nothing, or it moves the group on, which held no position and
    may open some. -/
theorem groupRound_cases (h : Sound o g) (k : ℕ) :
    (groupRound o q k g).1 = g ∨ ∃ group opened, k < g.groups.length ∧ g.held k = [] ∧
      (groupRound o q k g).1 =
        { g with groups := g.groups.set k group, positions := g.positions ++ opened } ∧
      (∀ p ∈ opened, p.order.group = k ∧ p.state ≠ .closed) ∧ Stage group opened := by
  rw [groupRound]
  split
  · exact .inl rfl
  rename_i group hgroup
  obtain ⟨hk, -⟩ := List.getElem?_eq_some_iff.mp hgroup
  split
  · exact .inl rfl
  rename_i hskip
  have hactive := not_not.mp (not_or.mp hskip).1
  obtain ⟨hheld, hwait⟩ := (h.stage k group hgroup).of_active hactive
  have hwait' (l : Leg) : Waiting ((expireGroup q group).orders l) := (hwait l).expire q
  have hstill : ∃ group' opened, k < g.groups.length ∧ g.held k = [] ∧
      { g with groups := g.groups.set k (expireGroup q group) } =
        { g with groups := g.groups.set k group', positions := g.positions ++ opened } ∧
      (∀ p ∈ opened, p.order.group = k ∧ p.state ≠ .closed) ∧ Stage group' opened :=
    ⟨expireGroup q group, [], hk, hheld, by rw [List.append_nil], by simp,
      .waiting hactive hwait'⟩
  refine .inr ?_
  dsimp only
  split
  · rename_i hnone
    refine ⟨{ expireGroup q group with state := .closed }, [], hk, hheld,
      by rw [List.append_nil, List.set_set], by simp, .abandoned rfl fun l => (hwait' l).dead fun hp => ?_⟩
    exact List.filter_eq_nil_iff.mp hnone l l.mem_legs (decide_eq_true hp)
  split
  · exact hstill
  split
  · exact hstill
  rename_i htriggered
  split
  · exact hstill
  obtain ⟨group', opened, heq, hopened, hstage⟩ := settleFills_spec (o := o) (k := k)
    (g := { g with groups := g.groups.set k (expireGroup q group) })
    q q.partialVolume hwait' hheld
    (((by decide : legs.Nodup).filter _).filter _) htriggered
  exact ⟨group', opened, hk, hheld, by rw [heq, List.set_set], hopened, hstage⟩

theorem Sound.after_round (h : Sound o g) (k : ℕ) : Sound o (groupRound o q k g).1 := by
  rcases groupRound_cases q h k with heq | ⟨group, opened, hk, hheld, heq, hopened, hstage⟩
  · rw [heq]
    exact h
  · rw [heq]
    exact h.opened hk hheld hopened hstage

theorem Sound.after_rounds (h : Sound o g) (ks : List ℕ) :
    Sound o (Attempt.loop (groupRound o q) ks g).1 :=
  Attempt.Keeps.loop (I := Sound o) (fun k _ _ hg => hg.after_round q k) g h

theorem Sound.after_quote (h : Sound o g) : Sound o (processQuote o q g).1 := by
  rw [processQuote]
  split
  · exact h
  have hmid := h.after_closes q q.symbol
  rw [Attempt.andThen]
  split
  · exact hmid
  · exact hmid.after_rounds q _

theorem Sound.step {t : PaperGateway} {e : Call} (h : Sound o g) (hs : step o g e = some t) :
    Sound o t := by
  cases e <;> obtain rfl := Option.some.inj hs
  · exact h.placeOco ..
  · exact h.cancelStrategyOrder ..
  · exact h.after_quote ..
  · exact h

theorem Sound.run {t : PaperGateway} {es : List Call} (h : Sound o g)
    (hr : Transition.run (Paper.step o) g es = some t) : Sound o t :=
  Transition.invariant (fun _ _ _ hs he => hs.step he) h hr

end ScalpingBot.Paper
