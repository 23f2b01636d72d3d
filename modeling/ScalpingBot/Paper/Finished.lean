import ScalpingBot.Paper.Exposure

/-! Finished groups of the paper gateway: every position closed and the other leg out of the market.
    The reports still count the order of a position that was only partly filled, for closing the
    position does not touch the state of its order. -/

namespace ScalpingBot.Paper

variable {o : PaperGatewayOptions} {g : PaperGateway}

/-- Group `k` had a position, its positions are closed and no other leg is live. -/
def Finished (g : PaperGateway) (k : ℕ) : Prop :=
  ∃ group, g.groups[k]? = some group ∧ g.held k ≠ [] ∧ (∀ p ∈ g.held k, p.state = .closed) ∧
    ∀ l, (∀ p ∈ g.held k, p.order.leg ≠ l) → ¬ Live (group.orders l)

/-- No report counts an order of a finished group as pending or partly filled. -/
def Released (g : PaperGateway) : Prop :=
  ∀ k, Finished g k → ∀ symbol, ∀ entry ∈ g.relevantOrders symbol, entry.1.group = k →
    ¬ Live entry.2

/-- The order was filled in part and the gateway has it in its map. -/
def PartlyFilled (g : PaperGateway) (ref : OrderRef) : Prop :=
  ref ∈ g.orders.map Prod.snd ∧ (g.order ref).map (·.state) = some .partiallyFilled

/-- The order of a closed position is still partly filled. -/
def Blocked (g : PaperGateway) : Prop :=
  ∃ p ∈ g.positions, p.state = .closed ∧ PartlyFilled g p.order

theorem mem_relevantOrders {symbol : String} {entry : OrderRef × MutablePaperOrder} :
    entry ∈ g.relevantOrders symbol ↔ entry.1 ∈ g.orders.map Prod.snd ∧
      g.order entry.1 = some entry.2 ∧ entry.2.command.symbol = symbol := by
  rw [PaperGateway.relevantOrders, List.mem_filterMap]
  constructor
  · rintro ⟨ref, hmem, hmap⟩
    obtain ⟨hreg, hconcerns⟩ := List.mem_filter.mp hmem
    obtain ⟨order, horder, rfl⟩ := Option.map_eq_some_iff.mp hmap
    refine ⟨hreg, horder, ?_⟩
    rw [PaperGateway.concerns, horder] at hconcerns
    simpa using hconcerns
  · rintro ⟨hreg, horder, hsymbol⟩
    refine ⟨entry.1, List.mem_filter.mpr ⟨hreg, ?_⟩, by rw [horder]; rfl⟩
    rw [PaperGateway.concerns, horder]
    simpa using hsymbol

theorem mem_held {p : PaperPosition} (hp : p ∈ g.positions) : p ∈ g.held p.order.group :=
  List.mem_filter.mpr ⟨hp, by simp⟩

/-- A closed position is the only one of its group, whose other leg is dead. -/
theorem Stage.of_closed {group : PaperGroup} {held : List PaperPosition} {p : PaperPosition}
    (h : Stage group held) (hp : p ∈ held) (hclosed : p.state = .closed) :
    held = [p] ∧ Entered (group.orders p.order.leg) ∧ Dead (group.orders p.order.leg.peer) := by
  cases h with
  | waiting | abandoned => cases hp
  | finished p' _ _ he hd | holding p' _ _ he hd =>
    obtain rfl := List.mem_singleton.mp hp
    exact ⟨rfl, he, hd⟩
  | doubtful _ _ hu =>
    have := hu p hp
    rw [hclosed] at this
    cases this

theorem order_eq {ref : OrderRef} {group : PaperGroup} (h : g.groups[ref.group]? = some group) :
    g.order ref = some (group.orders ref.leg) := by
  rw [PaperGateway.order, h]
  rfl

theorem released_iff (h : Sound o g) : Released g ↔ ¬ Blocked g := by
  constructor
  · rintro hr ⟨p, hp, hclosed, hreg, hmap⟩
    obtain ⟨order, horder, hpartly⟩ := Option.map_eq_some_iff.mp hmap
    have hgroup := List.getElem?_eq_getElem (h.known p hp)
    obtain ⟨hheld, -, hdead⟩ := (h.stage _ _ hgroup).of_closed (mem_held hp) hclosed
    refine hr p.order.group ⟨_, hgroup, by simp [hheld], by simp [hheld, hclosed], fun l hl => ?_⟩
      order.command.symbol (p.order, order) (mem_relevantOrders.mpr ⟨hreg, horder, rfl⟩) rfl
      (.inr hpartly)
    have hne : p.order.leg ≠ l := hl p (by simp [hheld])
    rw [(p.order.leg.eq_or_peer l).resolve_left hne.symm]
    exact hdead.not_live
  · rintro hb k ⟨group, hgroup, hne, hclosed, -⟩ symbol entry hentry rfl hlive
    obtain ⟨hreg, horder, -⟩ := mem_relevantOrders.mp hentry
    have heq := horder
    rw [order_eq hgroup, Option.some.injEq] at heq
    rw [← heq] at hlive
    obtain ⟨p, hp⟩ := List.exists_mem_of_ne_nil _ hne
    obtain ⟨-, he, hd⟩ := (h.stage _ _ hgroup).of_closed hp (hclosed p hp)
    obtain ⟨hmem, hpk⟩ := List.mem_filter.mp hp
    have hpk := of_decide_eq_true hpk
    rcases p.order.leg.eq_or_peer entry.1.leg with hleg | hleg <;> rw [hleg] at hlive
    · have href : p.order = entry.1 := by rw [OrderRef.mk.injEq]; exact ⟨hpk, hleg.symm⟩
      refine hb ⟨p, hmem, hclosed p hp, href ▸ hreg, ?_⟩
      rw [href, horder, Option.map_some, ← heq, hleg]
      refine congrArg some ?_
      exact hlive.resolve_left he.not_pending
    · exact hd.not_live hlive

/-! ### The loop that closes positions -/

/-- How the round over the position `i` leaves the market, if it does. -/
def exitOf (q : Quote) (g : PaperGateway) (i : ℕ) : Except String (Option (Decimal × String)) :=
  ((g.positions[i]?).bind fun p =>
    (g.order p.order).map fun order => exitAt q p.side order.command).getD (.ok none)

/-- The round leaves the position at its stop or its target. -/
def exits : Except String (Option (Decimal × String)) → Bool
  | .ok (some _) => true
  | _ => false

/-- Which of the positions a quote closes: those at their stop or target, up to the first whose stop
    or target is no decimal. -/
def closing (q : Quote) (g : PaperGateway) (is : List ℕ) : List ℕ :=
  (is.takeWhile fun i => (exitOf q g i).isOk).filter fun i => exits (exitOf q g i)

/-- The order of the position `i` was only partly filled. -/
def PartlyAt (g : PaperGateway) (i : ℕ) : Prop :=
  ∃ p, g.positions[i]? = some p ∧ PartlyFilled g p.order

theorem closing_cons (q : Quote) (g : PaperGateway) (i : ℕ) (is : List ℕ) :
    closing q g (i :: is) = match exitOf q g i with
      | .error _ => []
      | .ok none => closing q g is
      | .ok (some _) => i :: closing q g is := by
  rcases h : exitOf q g i with e | (_ | out)
  · simp [closing, h, Except.isOk, Except.toBool]
  · simp [closing, h, exits, Except.isOk, Except.toBool]
  · simp [closing, h, exits, Except.isOk, Except.toBool]

section leaving

variable (q : Quote) {i : ℕ} {p : PaperPosition} {group : PaperGroup} {x : Decimal} {reason : String}

/-- Leaving a position changes neither the command nor the state of any order. -/
theorem leave_order (hgroup : g.groups[p.order.group]? = some group) (ref : OrderRef) :
    ((g.leave (o := o) q i p group x reason).order ref).map (fun r => (r.command, r.state)) =
      (g.order ref).map fun r => (r.command, r.state) := by
  obtain ⟨hk, -⟩ := List.getElem?_eq_some_iff.mp hgroup
  simp only [PaperGateway.order, PaperGateway.leave, Option.map_map]
  rcases eq_or_ne ref.group p.order.group with heq | hne
  · rw [heq, List.getElem?_set_self hk, hgroup]
    simp only [Option.map_some, Function.comp_apply, Option.some.injEq, PaperGroup.marked]
    exact PaperGroup.rewrite_keeps
      (P := fun r => (r.command, r.state) =
        ((group.orders ref.leg).command, (group.orders ref.leg).state))
      (f := fun order => { order with updatedAt := q.time, reasonCode := some reason })
      (fun _ h => h) p.order.leg rfl
  · rw [List.getElem?_set_ne hne.symm]

theorem leave_partlyFilled (hgroup : g.groups[p.order.group]? = some group) (ref : OrderRef) :
    PartlyFilled (g.leave (o := o) q i p group x reason) ref ↔ PartlyFilled g ref := by
  have h := congrArg (Option.map Prod.snd)
    (@leave_order o g q i p group x reason hgroup ref)
  simp only [Option.map_map] at h
  exact and_congr Iff.rfl (Eq.congr_left h)

theorem leave_getElem {j : ℕ} (hne : i ≠ j) :
    (g.leave (o := o) q i p group x reason).positions[j]? = g.positions[j]? :=
  List.getElem?_set_ne hne

theorem leave_exitOf (hgroup : g.groups[p.order.group]? = some group) {j : ℕ} (hne : i ≠ j) :
    exitOf q (g.leave (o := o) q i p group x reason) j = exitOf q g j := by
  have h (p' : PaperPosition) := congrArg (Option.map fun r => exitAt q p'.side r.1)
    (@leave_order o g q i p group x reason hgroup p'.order)
  simp only [Option.map_map] at h
  rw [exitOf, exitOf, leave_getElem q hne]
  exact congrArg (fun f => ((g.positions[j]?).bind f).getD (.ok none)) (funext h)

theorem leave_closing (hgroup : g.groups[p.order.group]? = some group) {is : List ℕ} (hi : i ∉ is) :
    closing q (g.leave (o := o) q i p group x reason) is = closing q g is := by
  induction is with
  | nil => rfl
  | cons j is ih =>
    obtain ⟨hne, hi⟩ := not_or.mp (mt List.mem_cons.mpr hi)
    rw [closing_cons, closing_cons, leave_exitOf q hgroup hne, ih hi]

theorem mem_closing {is : List ℕ} {j : ℕ} (h : j ∈ closing q g is) : j ∈ is :=
  (List.takeWhile_subset _) (List.mem_filter.mp h).1

theorem leave_partlyAt (hgroup : g.groups[p.order.group]? = some group) {j : ℕ} (hne : i ≠ j) :
    PartlyAt (g.leave (o := o) q i p group x reason) j ↔ PartlyAt g j := by
  simp only [PartlyAt, leave_getElem q hne, leave_partlyFilled q hgroup]

/-- Leaving a position blocks its group exactly if its order was only partly filled. -/
theorem leave_blocked (hi : g.positions[i]? = some p)
    (hgroup : g.groups[p.order.group]? = some group) (hopen : p.state = .opened) :
    Blocked (g.leave (o := o) q i p group x reason) ↔ Blocked g ∨ PartlyFilled g p.order := by
  obtain ⟨s, t, hl, hset⟩ := exists_around hi
  have hpositions : (g.leave (o := o) q i p group x reason).positions =
      s ++ p.close o q x reason :: t := hset _
  simp only [Blocked, hpositions, hl, leave_partlyFilled q hgroup, List.mem_append, List.mem_cons]
  constructor
  · rintro ⟨p', hp' | rfl | hp', hclosed, hpartly⟩
    · exact .inl ⟨p', .inl hp', hclosed, hpartly⟩
    · exact .inr hpartly
    · exact .inl ⟨p', .inr (.inr hp'), hclosed, hpartly⟩
  · rintro (⟨p', hp' | rfl | hp', hclosed, hpartly⟩ | hpartly)
    · exact ⟨p', .inl hp', hclosed, hpartly⟩
    · rw [hopen] at hclosed
      cases hclosed
    · exact ⟨p', .inr (.inr hp'), hclosed, hpartly⟩
    · exact ⟨_, .inr (.inl rfl), rfl, hpartly⟩

end leaving

variable (q : Quote)

/-- The loop blocks a group exactly by closing a position whose order was only partly filled. -/
theorem closes_blocked {is : List ℕ} (h : Sound o g) (ho : OpenAt is g) :
    Blocked (Attempt.loop (closeRound o q) is g).1 ↔
      Blocked g ∨ ∃ i ∈ closing q g is, PartlyAt g i := by
  induction is generalizing g with
  | nil => simp [Attempt.loop, Attempt.skip, closing]
  | cons i is ih =>
    obtain ⟨p, hi, hopen⟩ := ho.2 i List.mem_cons_self
    obtain ⟨group, hgroup⟩ : ∃ group, g.groups[p.order.group]? = some group :=
      ⟨_, List.getElem?_eq_getElem (h.known p (List.mem_of_getElem? hi))⟩
    have hround := closeRound_eq q h hi hopen hgroup
    have hexit : exitOf q g i = exitAt q p.side (group.orders p.order.leg).command := by
      rw [exitOf, hi, Option.bind_some, order_eq hgroup]
      rfl
    have hnext := ho.after_close q h
    have hsound := h.after_close q hi hopen
    rw [closing_cons, hexit]
    generalize exitAt q p.side (group.orders p.order.leg).command = exit at hround ⊢
    rcases exit with e | (_ | ⟨x, reason⟩)
    · simp [Attempt.loop_cons_error hround]
    · rw [hround] at hnext
      rw [Attempt.loop_cons_ok hround, ih h hnext]
    · rw [hround] at hnext hsound
      have hmem := (List.nodup_cons.mp ho.1).1
      have hpartly : PartlyAt g i ↔ PartlyFilled g p.order := by simp [PartlyAt, hi]
      rw [Attempt.loop_cons_ok hround, ih hsound hnext, leave_blocked q hi hgroup hopen,
        leave_closing q hgroup hmem, or_assoc, ← hpartly]
      refine or_congr_right ?_
      simp only [List.mem_cons, exists_eq_or_imp]
      refine or_congr_right (exists_congr fun j => and_congr_right fun hj => ?_)
      exact leave_partlyAt q hgroup (ne_of_mem_of_not_mem (mem_closing q hj) hmem).symm

/-! ### The calls -/

/-- A change of a group that holds no position, and positions that it opens, block nothing. -/
theorem opened_blocked {k : ℕ} {group : PaperGroup} {opened : List PaperPosition}
    (hheld : g.held k = []) (hopened : ∀ p ∈ opened, p.order.group = k ∧ p.state ≠ .closed) :
    Blocked { g with groups := g.groups.set k group, positions := g.positions ++ opened } ↔
      Blocked g := by
  have hpartly {p : PaperPosition} (hp : p ∈ g.positions) :
      PartlyFilled { g with groups := g.groups.set k group, positions := g.positions ++ opened }
        p.order ↔ PartlyFilled g p.order := by
    have hne : k ≠ p.order.group := by
      rintro rfl
      have := mem_held hp
      rw [hheld] at this
      cases this
    simp only [PartlyFilled, PaperGateway.order, List.getElem?_set_ne hne]
  constructor
  · rintro ⟨p, hp, hclosed, h⟩
    rcases List.mem_append.mp hp with hp | hp
    · exact ⟨p, hp, hclosed, (hpartly hp).mp h⟩
    · exact absurd hclosed (hopened p hp).2
  · rintro ⟨p, hp, hclosed, h⟩
    exact ⟨p, List.mem_append_left _ hp, hclosed, (hpartly hp).mpr h⟩

theorem rounds_blocked (h : Sound o g) (ks : List ℕ) :
    Blocked (Attempt.loop (groupRound o q) ks g).1 ↔ Blocked g := by
  have hkeeps : Attempt.Keeps (fun t => Sound o t ∧ (Blocked t ↔ Blocked g))
      (Attempt.loop (groupRound o q) ks) := by
    refine .loop fun k _ t ht => ⟨ht.1.after_round q k, ?_⟩
    rcases groupRound_cases q ht.1 k with heq | ⟨group, opened, -, hheld, heq, hopened, -⟩
    · rw [heq]
      exact ht.2
    · rw [heq]
      exact (opened_blocked hheld hopened).trans ht.2
  exact (hkeeps g ⟨h, Iff.rfl⟩).2

/-- A quote blocks a group exactly by closing a position whose order was only partly filled. -/
theorem quote_blocked (h : Sound o g) : Blocked (processQuote o q g).1 ↔
    Blocked g ∨ checkQuote q = .ok () ∧
      ∃ i ∈ closing q g (openPositions g q.symbol), PartlyAt g i := by
  rw [processQuote]
  have hcloses := closes_blocked q h (openAt_openPositions g q.symbol)
  have hsound := h.after_closes q q.symbol
  rcases hq : checkQuote q with e | ⟨⟨⟩⟩
  · simp
  · simp only [true_and]
    rw [← hcloses, Attempt.andThen]
    split
    · rfl
    · exact rounds_blocked q hsound _

theorem placeOco_blocked (h : Sound o g) {first second : PendingOrderCommand} {now : ℕ}
    (hb : Blocked (g.placeOco first second now).1) : Blocked g := by
  rw [PaperGateway.placeOco] at hb
  split at hb
  · exact hb
  split at hb
  · exact hb
  split at hb
  · exact hb
  obtain ⟨p, hp, hclosed, hreg, hpartly⟩ := hb
  have hk := h.known p hp
  refine ⟨p, hp, hclosed, ?_, ?_⟩
  · rw [List.map_append] at hreg
    refine (List.mem_append.mp hreg).resolve_right fun hnew => ?_
    rw [newEntries] at hnew
    split at hnew <;> simp at hnew
    · rw [hnew] at hk
      exact absurd hk (lt_irrefl _)
    · rcases hnew with hnew | hnew <;> rw [hnew] at hk <;> exact absurd hk (lt_irrefl _)
  · simp only [PaperGateway.order, List.getElem?_append_left hk] at hpartly
    exact hpartly

theorem cancel_blocked {clientOrderId reason : String} {now : ℕ}
    (hb : Blocked (g.cancelStrategyOrder clientOrderId reason now).1) : Blocked g := by
  rw [PaperGateway.cancelStrategyOrder] at hb
  split at hb
  · exact hb
  split at hb
  · exact hb
  rename_i ref _ _ group hgroup
  obtain ⟨hk, -⟩ := List.getElem?_eq_some_iff.mp hgroup
  obtain ⟨p, hp, hclosed, hreg, hpartly⟩ := hb
  refine ⟨p, hp, hclosed, hreg, ?_⟩
  simp only [PaperGateway.order] at hpartly ⊢
  rcases eq_or_ne p.order.group ref.group with heq | hne
  · rw [heq, List.getElem?_set_self hk] at hpartly
    rw [heq, hgroup]
    rcases eq_or_ne p.order.leg ref.leg with hleg | hleg
    · rw [hleg, Option.map_some, PaperGroup.rewrite_self, PaperGateway.cancelled] at hpartly
      rw [hleg, Option.map_some]
      split at hpartly
      · simp at hpartly
      · exact hpartly
    · simpa only [Option.map_some, PaperGroup.rewrite_of_ne group hleg] using hpartly
  · rwa [List.getElem?_set_ne hne.symm] at hpartly

/-- No call closes a position whose order was only partly filled. -/
def Clean (g : PaperGateway) : Call → Prop
  | .quote q => ¬ (checkQuote q = .ok () ∧
      ∃ i ∈ closing q g (openPositions g q.symbol), PartlyAt g i)
  | _ => True

theorem step_blocked (h : Sound o g) {e : Call} {t : PaperGateway} (hb : ¬ Blocked g)
    (he : Clean g e) (hs : step o g e = some t) : ¬ Blocked t := by
  cases e <;> obtain rfl := Option.some.inj hs
  · exact mt (placeOco_blocked h) hb
  · exact mt cancel_blocked hb
  · rw [quote_blocked _ h]
    exact not_or.mpr ⟨hb, he⟩
  · exact hb

/-- The reports let go of every finished group throughout a run exactly when no quote of the run
    closes a position whose order was only partly filled. -/
theorem released_throughout_iff (es : List Call) :
    Transition.Throughout (step o) Released .empty es ↔
      Transition.Guarded (step o) Clean .empty es := by
  refine Transition.throughout_iff_guarded (I := fun g => Sound o g ∧ ¬ Blocked g)
    (fun g h => (released_iff h.1).mpr h.2)
    (fun g e t h he hs => ⟨h.1.step hs, step_blocked h.1 h.2 he hs⟩) (fun g e h he => ?_)
    ⟨sound_empty o, fun ⟨p, hp, _⟩ => by cases hp⟩
  cases e with
  | quote q =>
    refine ⟨_, rfl, ?_⟩
    rw [released_iff (h.1.after_quote q), not_not, quote_blocked q h.1]
    exact .inr (not_not.mp he)
  | place | cancel | reconcile => exact absurd trivial he

namespace Sample

/-- The buy leg is filled for 50 of its 100 units and its position stopped out. -/
def partlyFilledOut : List Call := [placed, quote (31 / 2) 16 (some 50), quote 13 14 none]

end Sample

/-- The group is closed, its only position too and its sell leg is cancelled, but the mark still counts
    the buy leg as pending and as a partial fill. -/
theorem finished_still_counted :
    let left := Transition.run (step Sample.options) .empty Sample.partlyFilledOut
    left.map (fun g => g.positions.map (·.state)) = some [.closed] ∧
    left.map (fun g => g.groups.map fun group => (group.state, (group.orders .second).state)) =
      some [(.closed, .cancelled)] ∧
    left.bind (fun g => (g.accountMark Sample.options "XAUUSD" 13 14).toOption.map fun mark =>
      (mark.relevantPendingOrderCount, mark.hasPartialFill)) = some (1, true) := by
  decide +kernel

end ScalpingBot.Paper
