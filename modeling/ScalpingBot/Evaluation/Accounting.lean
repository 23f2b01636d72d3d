import ScalpingBot.Evaluation.Engine
import ScalpingBot.Library.Removal

/-! The accounts of a run of `evaluate`: what became of every leg that was submitted, of every position
    and of every result. The cancel timer is not part of what a gap, an expiry or a close clears, so it
    can outlive the orders of the plan whose fill set it. -/

namespace ScalpingBot.Evaluation

open Rounded

/-- A leg of the plan has been filled. -/
def Filled (s : State) (plan : ℕ) : Prop := ∃ order, (order, Fate.filled) ∈ s.fates ∧ order.plan = plan

/-- All pending orders and positions come from one plan. -/
def OnePlan (s : State) : Prop :=
  ∃ plan, (∀ order ∈ s.pending, order.plan = plan) ∧ ∀ p ∈ s.positions, p.plan = plan

/-- A leg is cancelled by its peer only if a leg of its plan was filled. -/
def CancelledByPeer (s : State) : Prop :=
  ∀ order, (order, Fate.ocoCancelled) ∈ s.fates → Filled s order.plan

/-- The accounts of the loop. -/
structure Books (round : ℚ → ℚ) (s : State) : Prop where
  once : s.submitted.Perm (s.fates.map Prod.fst ++ s.pending)
  distinct : s.submitted.Nodup
  old : ∀ order ∈ s.submitted, order.plan < s.index
  counted : ∀ fate, s.counters.of fate = s.fates.countP fun e => e.2 = fate
  submissions : s.counters.submittedOrders = s.submitted.length
  fills : s.counters.fills
    = s.outcomes.length + s.counters.censoredPositions + s.positions.length
  net : s.net = sum round s.outcomes
  plan : OnePlan s

/-- The timer that runs was set by a fill, and a plan that was filled and has pending orders has set it. -/
structure Timed (s : State) : Prop where
  set : ∀ timer ∈ s.cancelAt, Filled s timer.plan
  own : ∀ order ∈ s.pending, Filled s order.plan → ∃ timer ∈ s.cancelAt, timer.plan = order.plan

/-! ### Orders that end together -/

theorem Counters.of_count (c : Counters) (fate other : Fate) (n : ℕ) :
    (c.count fate n).of other = c.of other + if fate = other then n else 0 := by
  cases fate <;> cases other <;> rfl

theorem Counters.count_frame (c : Counters) (fate : Fate) (n : ℕ) :
    (c.count fate n).submittedOrders = c.submittedOrders ∧
      (c.count fate n).censoredPositions = c.censoredPositions := by
  cases fate <;> exact ⟨rfl, rfl⟩

theorem Counters.fills_count {fate : Fate} (c : Counters) (n : ℕ) (h : fate ≠ .filled) :
    (c.count fate n).fills = c.fills := by
  cases fate with
  | filled => exact absurd rfl h
  | expired | ocoCancelled | gapCancelled => rfl

theorem countP_fates (pending : List Order) (fate other : Fate) :
    (pending.map fun order => (order, fate)).countP (fun e => e.2 = other)
      = if fate = other then pending.length else 0 := by
  rw [List.countP_map]
  by_cases h : fate = other
  · rw [if_pos h]
    exact List.countP_eq_length.mpr fun order _ => by simp [h]
  · rw [if_neg h]
    exact List.countP_eq_zero.mpr fun order _ => by simp [h]

theorem Filled.mono {s s' : State} {plan : ℕ} (hsub : ∀ e ∈ s.fates, e ∈ s'.fates)
    (h : Filled s plan) : Filled s' plan := by
  obtain ⟨order, hmem, hplan⟩ := h
  exact ⟨order, hsub _ hmem, hplan⟩

section

variable {round : ℚ → ℚ} {scenario : Scenario} {s : State}

theorem Books.discard {fate : Fate} (hfate : fate ≠ .filled) (h : Books round s) :
    Books round (discard fate s) where
  once := by
    refine h.once.trans ?_
    simp [Evaluation.discard, Function.comp_def]
  distinct := h.distinct
  old := h.old
  counted := by
    intro other
    rw [Evaluation.discard, Counters.of_count, h.counted other, List.countP_append, countP_fates]
  submissions := (s.counters.count_frame fate _).1.trans h.submissions
  fills := by
    simp only [Evaluation.discard, s.counters.fills_count _ hfate,
      (s.counters.count_frame fate _).2]
    exact h.fills
  net := h.net
  plan := by
    obtain ⟨plan, -, hpositions⟩ := h.plan
    exact ⟨plan, by simp [Evaluation.discard], hpositions⟩

theorem mem_discard (fate : Fate) (e : Order × Fate) (h : e ∈ s.fates) :
    e ∈ (discard fate s).fates := by
  simp [discard, h]

theorem filled_discard {fate : Fate} (hfate : fate ≠ .filled) (plan : ℕ) :
    Filled (discard fate s) plan ↔ Filled s plan := by
  constructor
  · rintro ⟨order, hmem, hplan⟩
    simp only [discard, List.mem_append, List.mem_map, Prod.mk.injEq] at hmem
    rcases hmem with hmem | ⟨_, _, _, hfilled⟩
    · exact ⟨order, hmem, hplan⟩
    · exact absurd hfilled hfate
  · exact Filled.mono (mem_discard fate)

theorem Timed.discard (fate : Fate) (h : Timed s) : Timed (discard fate s) where
  set timer htimer := (h.set timer htimer).mono (mem_discard fate)
  own order horder := by simp [Evaluation.discard] at horder

/-- Only the orders that the cancel timer ends can lack a fill of their plan. -/
theorem cancelledByPeer_discard {fate : Fate} (hfilled : fate ≠ .filled)
    (hoco : fate ≠ .ocoCancelled) :
    CancelledByPeer (discard fate s) ↔ CancelledByPeer s := by
  have hmem : ∀ order, (order, Fate.ocoCancelled) ∈ (discard fate s).fates ↔
      (order, Fate.ocoCancelled) ∈ s.fates := by
    intro order
    simp only [discard, List.mem_append, List.mem_map, Prod.mk.injEq]
    constructor
    · rintro (h | ⟨_, _, _, h⟩)
      · exact h
      · exact absurd h hoco
    · exact .inl
  refine forall_congr' fun order => ?_
  rw [hmem, filled_discard hfilled]

theorem cancelledByPeer_discard_oco :
    CancelledByPeer (discard .ocoCancelled s) ↔
      CancelledByPeer s ∧ ∀ order ∈ s.pending, Filled s order.plan := by
  have hne : Fate.ocoCancelled ≠ .filled := by decide
  constructor
  · intro h
    refine ⟨fun order hmem => ?_, fun order hmem => ?_⟩
    · exact (filled_discard hne _).mp (h order (mem_discard _ _ hmem))
    · exact (filled_discard hne _).mp (h order (by simp [discard, hmem]))
  · rintro ⟨hbefore, hpending⟩ order hmem
    refine (filled_discard hne _).mpr ?_
    simp only [discard, List.mem_append, List.mem_map, Prod.mk.injEq] at hmem
    rcases hmem with hmem | ⟨_, hmem, rfl, -⟩
    · exact hbefore order hmem
    · exact hpending _ hmem

/-! ### The gap -/

theorem Books.censor (h : Books round s) : Books round (censor s) where
  once := h.once
  distinct := h.distinct
  old := h.old
  counted := by
    intro fate
    refine Eq.trans ?_ (h.counted fate)
    cases fate <;> rfl
  submissions := h.submissions
  fills := by
    simp only [Evaluation.censor, List.length_nil]
    have := h.fills
    omega
  net := h.net
  plan := by
    obtain ⟨plan, hpending, -⟩ := h.plan
    exact ⟨plan, hpending, by simp [Evaluation.censor]⟩

/-- The orders and the timer are the same. -/
structure SameOrders (s s' : State) : Prop where
  pending : s'.pending = s.pending
  cancelAt : s'.cancelAt = s.cancelAt
  fates : s'.fates = s.fates

/-- All that the accounts are about is the same. -/
structure SameBooks (s s' : State) : Prop where
  pending : s'.pending = s.pending
  fates : s'.fates = s.fates
  positions : s'.positions = s.positions
  index : s.index ≤ s'.index
  counters : ∀ fate, s'.counters.of fate = s.counters.of fate
  submissions : s'.counters.submittedOrders = s.counters.submittedOrders
  censored : s'.counters.censoredPositions = s.counters.censoredPositions
  outcomes : s'.outcomes = s.outcomes
  net : s'.net = s.net
  submitted : s'.submitted = s.submitted

variable {s' : State}

theorem SameBooks.orders (h : SameBooks s s') (hcancel : s'.cancelAt = s.cancelAt) :
    SameOrders s s' :=
  ⟨h.pending, hcancel, h.fates⟩

theorem Books.same (h : Books round s) (hsame : SameBooks s s') : Books round s' where
  once := by
    rw [hsame.submitted, hsame.fates, hsame.pending]
    exact h.once
  distinct := by
    rw [hsame.submitted]
    exact h.distinct
  old := by
    rw [hsame.submitted]
    exact fun order horder => (h.old order horder).trans_le hsame.index
  counted := by
    rw [hsame.fates]
    exact fun fate => (hsame.counters fate).trans (h.counted fate)
  submissions := by
    rw [hsame.submissions, hsame.submitted]
    exact h.submissions
  fills := by
    have hfills := hsame.counters .filled
    simp only [Counters.of] at hfills
    rw [hfills, hsame.outcomes, hsame.censored, hsame.positions]
    exact h.fills
  net := by
    rw [hsame.net, hsame.outcomes]
    exact h.net
  plan := by
    rw [OnePlan, hsame.pending, hsame.positions]
    exact h.plan

theorem filled_same (h : SameOrders s s') (plan : ℕ) : Filled s' plan ↔ Filled s plan := by
  rw [Filled, Filled, h.fates]

theorem Timed.same (h : Timed s) (hsame : SameOrders s s') : Timed s' where
  set := by
    rw [hsame.cancelAt]
    exact fun timer htimer => (filled_same hsame _).mpr (h.set timer htimer)
  own := by
    rw [hsame.cancelAt, hsame.pending]
    exact fun order horder hfilled => h.own order horder ((filled_same hsame _).mp hfilled)

theorem cancelledByPeer_fates (h : s'.fates = s.fates) : CancelledByPeer s' ↔ CancelledByPeer s := by
  simp only [CancelledByPeer, Filled, h]

/-- What the time since the quote before does to the orders. -/
theorem observe_cases (round : ℚ → ℚ) (s : State) (quote : Quote) :
    (gapBefore s quote ∧
      SameBooks (discard .gapCancelled (censor s)) (observe round s quote)) ∨
    (¬ gapBefore s quote ∧ SameBooks s (observe round s quote)) := by
  by_cases hgap : gapBefore s quote
  · refine .inl ⟨hgap, ?_⟩
    rw [observe, if_pos hgap]
    exact ⟨rfl, rfl, rfl, le_rfl, fun _ => rfl, rfl, rfl, rfl, rfl, rfl⟩
  · refine .inr ⟨hgap, ?_⟩
    rw [observe, if_neg hgap]
    cases s.prior <;>
      exact ⟨rfl, rfl, rfl, le_rfl, fun _ => rfl, rfl, rfl, rfl, rfl, rfl⟩

/-! ### The positions -/

theorem Books.closePosition {quote : Quote} {position : Position} (h : Books round s)
    (hmem : position ∈ s.positions) : Books round (closePosition round scenario quote s position) := by
  rw [Evaluation.closePosition]
  split
  · exact {
      once := h.once
      distinct := h.distinct
      old := h.old
      counted := h.counted
      submissions := h.submissions
      fills := by
        have hlength := List.length_erase_of_mem hmem
        have hpos := List.length_pos_of_mem hmem
        have hfills := h.fills
        simp only [List.length_append, List.length_singleton, hlength]
        omega
      net := by
        rw [sum_append_singleton, ← h.net]
      plan := by
        obtain ⟨plan, hpending, hpositions⟩ := h.plan
        exact ⟨plan, hpending, fun p hp => hpositions p (List.mem_of_mem_erase hp)⟩ }
  · exact h

theorem closePosition_orders (quote : Quote) (s : State) (position : Position) :
    SameOrders s (closePosition round scenario quote s position) := by
  rw [closePosition]
  split <;> exact ⟨rfl, rfl, rfl⟩

theorem closePosition_removes (quote : Quote) :
    Removal.Removes State.positions (closePosition round scenario quote) := by
  intro s position
  rw [closePosition]
  split
  · exact .inr rfl
  · exact .inl rfl

theorem SameOrders.trans {a b c : State} (h : SameOrders a b) (h' : SameOrders b c) :
    SameOrders a c :=
  ⟨h'.pending.trans h.pending, h'.cancelAt.trans h.cancelAt, h'.fates.trans h.fates⟩

theorem Books.closePositions {quote : Quote} (h : Books round s) :
    Books round (closePositions round scenario quote s) ∧
      SameOrders s (Evaluation.closePositions round scenario quote s) := by
  refine Removal.foldl_keeps (Q := fun s' => Books round s' ∧ SameOrders s s')
    (closePosition_removes quote) ?_ ⟨h, rfl, rfl, rfl⟩
  rintro s' position hmem ⟨hbooks, hsame⟩
  exact ⟨hbooks.closePosition hmem, hsame.trans (closePosition_orders quote s' position)⟩

/-! ### The fills -/

/-- What the loop over the pending orders has done so far. -/
structure Filling (round : ℚ → ℚ) (s : State) (acc : State × Option ℕ) : Prop where
  books : Books round acc.1
  cancelAt : acc.1.cancelAt = s.cancelAt
  grows : ∀ e ∈ s.fates, e ∈ acc.1.fates
  cancelled : ∀ order, (order, Fate.ocoCancelled) ∈ acc.1.fates →
    (order, Fate.ocoCancelled) ∈ s.fates
  none : acc.2 = none → SameOrders s acc.1
  some : ∀ plan, acc.2 = some plan → Filled acc.1 plan ∧ ∀ o ∈ acc.1.pending, o.plan = plan

theorem fillOrder_removes (quote : Quote) :
    Removal.Removes (fun acc : State × Option ℕ => acc.1.pending)
      (fillOrder round scenario quote) := by
  rintro ⟨s, filled⟩ order
  simp only [fillOrder]
  split
  · split
    · exact .inr rfl
    · exact .inl rfl
  · exact .inl rfl

theorem Books.fill {order : Order} {position : Position} {counters : Counters}
    (h : Books round s) (hmem : order ∈ s.pending) (hplan : position.plan = order.plan)
    (hof : ∀ fate, counters.of fate = (s.counters.count .filled 1).of fate)
    (hother : counters.submittedOrders = s.counters.submittedOrders ∧
      counters.censoredPositions = s.counters.censoredPositions) :
    Books round { s with
      positions := s.positions ++ [position]
      pending := s.pending.erase order
      counters
      fates := s.fates ++ [(order, .filled)] } where
  once := by
    refine h.once.trans ?_
    simp only [List.map_append, List.map_cons, List.map_nil, List.append_assoc,
      List.singleton_append]
    exact (List.perm_cons_erase hmem).append_left _
  distinct := h.distinct
  old := h.old
  counted := by
    intro fate
    rw [hof, Counters.of_count, h.counted fate, List.countP_append, List.countP_singleton]
    simp
  submissions := hother.1.trans h.submissions
  fills := by
    have hfills := hof .filled
    rw [Counters.of_count, if_pos rfl] at hfills
    have hbefore := h.fills
    simp only [Counters.of] at hfills
    simp only [List.length_append, List.length_singleton, hother.2]
    omega
  net := h.net
  plan := by
    obtain ⟨plan, hpending, hpositions⟩ := h.plan
    refine ⟨plan, fun o ho => hpending o (List.mem_of_mem_erase ho), fun p hp => ?_⟩
    rcases List.mem_append.mp hp with hp | hp
    · exact hpositions p hp
    · rw [List.mem_singleton.mp hp, hplan]
      exact hpending order hmem

theorem Filling.fillOrder {quote : Quote} {acc : State × Option ℕ} {order : Order}
    (h : Filling round s acc) (hmem : order ∈ acc.1.pending) :
    Filling round s (fillOrder round scenario quote acc order) := by
  obtain ⟨current, filled⟩ := acc
  simp only [Evaluation.fillOrder]
  split
  · split
    · refine ⟨h.books.fill hmem rfl ?_ ⟨rfl, rfl⟩, h.cancelAt, ?_, ?_, ?_, ?_⟩
      · intro fate
        cases fate <;> rfl
      · exact fun e he => List.mem_append_left _ (h.grows e he)
      · intro o ho
        rcases List.mem_append.mp ho with ho | ho
        · exact h.cancelled o ho
        · simp at ho
      · rintro ⟨⟩
      · rintro plan ⟨⟩
        obtain ⟨plan, hpending, -⟩ := h.books.plan
        refine ⟨⟨order, by simp, rfl⟩, fun o ho => ?_⟩
        rw [hpending o (List.mem_of_mem_erase ho), hpending order hmem]
    · refine ⟨h.books.same (s := current) ⟨rfl, rfl, rfl, le_rfl, ?_, rfl, rfl, rfl, rfl, rfl⟩,
        h.cancelAt, h.grows, h.cancelled, fun hnone => ?_, fun plan hsome => ?_⟩
      · intro fate
        cases fate <;> rfl
      · exact (h.none hnone).trans ⟨rfl, rfl, rfl⟩
      · exact h.some plan hsome
  · exact h

/-- What the fills of a quote do. -/
structure AfterFills (round : ℚ → ℚ) (s s' : State) : Prop where
  books : Books round s'
  timed : Timed s'
  cancelled : CancelledByPeer s → CancelledByPeer s'
  quiet : s.pending = [] → SameOrders s s'

theorem Books.fillOrders {quote : Quote} (h : Books round s) (htimed : Timed s) :
    AfterFills round s (fillOrders round scenario quote s) := by
  have hloop : Filling round s (s.pending.foldl (fillOrder round scenario quote) (s, none)) := by
    refine Removal.foldl_keeps (fillOrder_removes quote) (fun acc order hmem hacc => hacc.fillOrder hmem) (s := (s, none))
      ⟨h, rfl, fun _ he => he, fun _ ho => ho, fun _ => ⟨rfl, rfl, rfl⟩, ?_⟩
    rintro plan ⟨⟩
  have hquiet : s.pending = [] →
      s.pending.foldl (fillOrder round scenario quote) (s, none) = (s, none) := by
    intro hempty
    rw [hempty, List.foldl_nil]
  rw [Evaluation.fillOrders]
  generalize s.pending.foldl (fillOrder round scenario quote) (s, none) = acc at hloop hquiet
  obtain ⟨after, filled⟩ := acc
  cases filled with
  | none =>
    have hsame := hloop.none rfl
    exact ⟨hloop.books, htimed.same hsame, (cancelledByPeer_fates hsame.fates).mpr, fun _ => hsame⟩
  | some plan =>
    obtain ⟨hfilled, hpending⟩ := hloop.some plan rfl
    refine ⟨hloop.books.same ⟨rfl, rfl, rfl, le_rfl, fun _ => rfl, rfl, rfl, rfl, rfl, rfl⟩,
      ⟨?_, ?_⟩, ?_, ?_⟩
    · rintro timer htimer
      cases htimer
      exact hfilled
    · rintro order horder -
      exact ⟨_, rfl, (hpending order horder).symm⟩
    · intro hbefore order hmem
      exact (hbefore order (hloop.cancelled order hmem)).mono hloop.grows
    · intro hempty
      cases hquiet hempty

/-! ### The plans -/

theorem orders_length (plan : ℕ) (legs : List Leg) : (orders plan legs).length = legs.length := by
  rw [orders, List.length_mapIdx]

theorem orders_plan {plan : ℕ} {legs : List Leg} {order : Order} (h : order ∈ orders plan legs) :
    order.plan = plan := by
  obtain ⟨place, -, rfl⟩ := List.mem_mapIdx.mp h
  rfl

theorem orders_nodup (plan : ℕ) (legs : List Leg) : (orders plan legs).Nodup := by
  rw [orders, List.nodup_iff_getElem?_ne_getElem?]
  intro i j hij hj heq
  have hj : j < legs.length := by simpa using hj
  rw [List.getElem?_mapIdx, List.getElem?_mapIdx, List.getElem?_eq_getElem hj,
    List.getElem?_eq_getElem (hij.trans hj)] at heq
  simp only [Option.map_some, Option.some.injEq, Order.mk.injEq] at heq
  omega

theorem decided_same (s : State) : SameBooks s (decided round scenario s) := by
  refine ⟨rfl, rfl, rfl, Nat.le_succ _, ?_, rfl, rfl, rfl, rfl, rfl⟩
  intro fate
  cases fate <;> rfl

/-- A plan that is considered is refused, or its legs become the pending orders. -/
theorem considerPlan_cases (quote : Quote) (s : State) (plan : Plan) :
    (SameBooks s (considerPlan round scenario quote s plan) ∧
      (considerPlan round scenario quote s plan).cancelAt = s.cancelAt) ∨
    (s.pending = [] ∧ s.positions = [] ∧ considerPlan round scenario quote s plan
      = submit quote s.index plan (decided round scenario s)) := by
  simp only [considerPlan]
  split
  · refine .inl ⟨⟨rfl, rfl, rfl, Nat.le_succ _, ?_, rfl, rfl, rfl, rfl, rfl⟩, rfl⟩
    intro fate
    cases fate <;> rfl
  · rename_i hfree
    obtain ⟨hpending, hpositions⟩ := not_or.mp hfree
    split
    · refine .inl ⟨⟨rfl, rfl, rfl, Nat.le_succ _, ?_, rfl, rfl, rfl, rfl, rfl⟩, rfl⟩
      intro fate
      cases fate <;> rfl
    · split
      · refine .inl ⟨⟨rfl, rfl, rfl, Nat.le_succ _, ?_, rfl, rfl, rfl, rfl, rfl⟩, rfl⟩
        intro fate
        cases fate <;> rfl
      · exact .inr ⟨not_not.mp hpending, not_not.mp hpositions, rfl⟩

/-- No leg of a plan that is still to come has been filled. -/
theorem Books.not_filled (h : Books round s) {plan : ℕ} (hplan : s.index ≤ plan) :
    ¬ Filled s plan := by
  rintro ⟨order, hmem, rfl⟩
  have hsubmitted : order ∈ s.submitted := by
    refine h.once.mem_iff.mpr (List.mem_append_left _ ?_)
    exact List.mem_map.mpr ⟨_, hmem, rfl⟩
  exact absurd (h.old order hsubmitted) hplan.not_gt

theorem Books.submit {quote : Quote} {plan : Plan} (h : Books round s) (hpending : s.pending = [])
    (hpositions : s.positions = []) :
    Books round (submit quote s.index plan (decided round scenario s)) where
  once := by
    have honce := h.once
    rw [hpending, List.append_nil] at honce
    exact honce.append_right _
  distinct := by
    refine List.nodup_append.mpr ⟨h.distinct, orders_nodup _ _, ?_⟩
    rintro order hold other hnew rfl
    exact absurd (orders_plan hnew) (h.old order hold).ne
  old := by
    intro order hmem
    rcases List.mem_append.mp hmem with hold | hnew
    · exact (h.old order hold).trans (Nat.lt_succ_self _)
    · rw [orders_plan hnew]
      exact Nat.lt_succ_self _
  counted := by
    intro fate
    refine Eq.trans ?_ (h.counted fate)
    cases fate <;> rfl
  submissions := by
    simp only [Evaluation.submit, decided, List.length_append, orders_length]
    rw [h.submissions]
  fills := h.fills
  net := h.net
  plan := by
    refine ⟨s.index, fun order horder => orders_plan horder, fun p hp => ?_⟩
    simp [Evaluation.submit, decided, hpositions] at hp

theorem considerPlan_keeps {quote : Quote} {plan : Plan} (h : Books round s) (htimed : Timed s) :
    Books round (considerPlan round scenario quote s plan) ∧
      Timed (considerPlan round scenario quote s plan) ∧
      (considerPlan round scenario quote s plan).fates = s.fates := by
  rcases considerPlan_cases quote s plan with ⟨hsame, hcancel⟩ | ⟨hpending, hpositions, heq⟩
  · exact ⟨h.same hsame, htimed.same (hsame.orders hcancel), hsame.fates⟩
  · rw [heq]
    refine ⟨h.submit hpending hpositions, ⟨htimed.set, ?_⟩, rfl⟩
    intro order hnew hfilled
    refine absurd hfilled ?_
    rw [orders_plan hnew]
    exact h.not_filled le_rfl

theorem considerPlans_keeps {quote : Quote} (plans : List Plan) (h : Books round s)
    (htimed : Timed s) :
    Books round (considerPlans round scenario quote plans s) ∧
      Timed (considerPlans round scenario quote plans s) ∧
      (considerPlans round scenario quote plans s).fates = s.fates := by
  induction plans generalizing s with
  | nil => exact ⟨h, htimed, rfl⟩
  | cons plan rest ih =>
    rw [considerPlans]
    split
    · have hkeeps : Books round (considerPlan round scenario quote s plan) ∧ _ ∧ _ :=
        considerPlan_keeps h htimed
      obtain ⟨hbooks, htimer, hfates⟩ := hkeeps
      obtain ⟨hrest, htimed, hsame⟩ := ih hbooks htimer
      exact ⟨hrest, htimed, hsame.trans hfates⟩
    · exact ⟨h, htimed, rfl⟩

/-! ### One quote -/

/-- The orders that neither a gap before a quote nor their expiry ends. -/
def left (s : State) (quote : Quote) : List Order :=
  if gapBefore s quote ∨ s.expiry ≤ quote.time then [] else s.pending

/-- A cancel timer that is due at a quote meets no orders of another plan than the one that set it. -/
def Isolated (s : State) (quote : Quote) : Prop :=
  ∀ timer ∈ s.cancelAt, timer.time ≤ quote.time →
    ∀ order ∈ left s quote, order.plan = timer.plan

instance (s : State) (quote : Quote) : Decidable (Isolated s quote) :=
  inferInstanceAs (Decidable (∀ timer ∈ s.cancelAt, _))

/-- The state in which a quote finds the cancel timer. -/
def beforeCancel (round : ℚ → ℚ) (scenario : Scenario) (s : State) (quote : Quote) : State :=
  expire quote (closePositions round scenario (priced round scenario quote) (observe round s quote))

/-- A part of a pass that leaves the timer alone and cancels no order by its peer. -/
structure Carries (round : ℚ → ℚ) (s s' : State) : Prop where
  books : Books round s → Books round s'
  timed : Timed s → Timed s'
  cancelled : CancelledByPeer s' ↔ CancelledByPeer s
  cancelAt : s'.cancelAt = s.cancelAt

theorem Carries.trans {s'' : State} (h : Carries round s s') (h' : Carries round s' s'') :
    Carries round s s'' :=
  ⟨h'.books ∘ h.books, h'.timed ∘ h.timed, h'.cancelled.trans h.cancelled,
    h'.cancelAt.trans h.cancelAt⟩

theorem carries_same (h : SameBooks s s') (hcancel : s'.cancelAt = s.cancelAt) :
    Carries round s s' where
  books hbooks := hbooks.same h
  timed htimed := htimed.same (h.orders hcancel)
  cancelled := cancelledByPeer_fates h.fates
  cancelAt := hcancel

theorem carries_discard {fate : Fate} (hfilled : fate ≠ .filled) (hoco : fate ≠ .ocoCancelled) :
    Carries round s (discard fate s) where
  books := Books.discard hfilled
  timed := Timed.discard fate
  cancelled := cancelledByPeer_discard hfilled hoco
  cancelAt := rfl

theorem carries_censor : Carries round s (censor s) where
  books := Books.censor
  timed htimed := htimed.same ⟨rfl, rfl, rfl⟩
  cancelled := cancelledByPeer_fates rfl
  cancelAt := rfl

theorem carries_observe (quote : Quote) : Carries round s (observe round s quote) := by
  have hcancel : (observe round s quote).cancelAt = s.cancelAt := by
    rw [observe]
    split
    · rfl
    · cases s.prior <;> rfl
  rcases observe_cases round s quote with ⟨-, hsame⟩ | ⟨-, hsame⟩
  · exact (carries_censor.trans (carries_discard (by decide) (by decide))).trans
      (carries_same hsame hcancel)
  · exact carries_same hsame hcancel

theorem carries_closePositions (quote : Quote) :
    Carries round s (closePositions round scenario quote s) := by
  have horders : SameOrders s (closePositions round scenario quote s) := by
    refine Removal.foldl_keeps (Q := SameOrders s) (closePosition_removes quote) ?_
      ⟨rfl, rfl, rfl⟩
    exact fun s' position _ h => h.trans (closePosition_orders quote s' position)
  exact ⟨fun h => (h.closePositions).1, fun h => h.same horders, cancelledByPeer_fates horders.fates,
    horders.cancelAt⟩

theorem carries_expire (quote : Quote) : Carries round s (expire quote s) := by
  rw [expire]
  split
  · exact carries_discard (by decide) (by decide)
  · exact ⟨id, id, Iff.rfl, rfl⟩

theorem carries_beforeCancel (quote : Quote) :
    Carries round s (beforeCancel round scenario s quote) :=
  ((carries_observe quote).trans (carries_closePositions _)).trans (carries_expire quote)

theorem closePositions_orders (quote : Quote) (s : State) :
    (closePositions round scenario quote s).pending = s.pending ∧
      (closePositions round scenario quote s).expiry = s.expiry := by
  refine Removal.foldl_keeps (Q := fun s' => s'.pending = s.pending ∧ s'.expiry = s.expiry)
    (closePosition_removes quote) ?_ ⟨rfl, rfl⟩
  intro s' position _ h
  rw [closePosition]
  split <;> exact h

/-- The orders that a quote leaves to the cancel timer. -/
theorem beforeCancel_pending (s : State) (quote : Quote) :
    (beforeCancel round scenario s quote).pending = left s quote := by
  have hobserve : (observe round s quote).pending = (if gapBefore s quote then [] else s.pending) ∧
      (observe round s quote).expiry = s.expiry := by
    rw [observe]
    split
    · exact ⟨rfl, rfl⟩
    · cases s.prior <;> exact ⟨rfl, rfl⟩
  have hclosed : (closePositions round scenario (priced round scenario quote)
      (observe round s quote)).pending = _ ∧ _ := closePositions_orders _ _
  obtain ⟨hpending, hexpiry⟩ := hclosed
  rw [hobserve.1] at hpending
  rw [hobserve.2] at hexpiry
  rw [beforeCancel, expire, left, hpending, hexpiry]
  by_cases hgap : gapBefore s quote
  · simp [hgap, hpending]
  · by_cases hlate : s.expiry ≤ quote.time
    · by_cases hempty : s.pending = []
      · simp [hgap, hlate, hempty, hpending]
      · simp [hgap, hlate, hempty, discard]
    · simp [hgap, hlate, hpending]

/-- The cancel timer at a quote. -/
theorem cancel_spec (quote : Quote) (hbooks : Books round s) (htimed : Timed s) :
    Books round (cancel quote s) ∧ Timed (cancel quote s) ∧
      (CancelledByPeer s → (CancelledByPeer (cancel quote s) ↔
        ∀ timer ∈ s.cancelAt, timer.time ≤ quote.time →
          ∀ order ∈ s.pending, order.plan = timer.plan)) ∧
      (cancel quote s = s ∨ (cancel quote s).pending = []) := by
  cases htimer : s.cancelAt with
  | none =>
    have hsame : cancel quote s = s := by
      rw [cancel, htimer]
    rw [hsame]
    refine ⟨hbooks, htimed, fun hcancelled => ⟨?_, fun _ => hcancelled⟩, .inl rfl⟩
    rintro - timer ⟨⟩
  | some timer =>
    by_cases hdue : timer.time ≤ quote.time
    · have hfired : cancel quote s = { discard .ocoCancelled s with cancelAt := none } := by
        simp only [cancel, htimer]
        exact if_pos hdue
      rw [hfired]
      refine ⟨(hbooks.discard (by decide)).same
        ⟨rfl, rfl, rfl, le_rfl, fun _ => rfl, rfl, rfl, rfl, rfl, rfl⟩, ⟨?_, ?_⟩, ?_, .inr rfl⟩
      · rintro other ⟨⟩
      · rintro order ⟨⟩
      · intro hcancelled
        refine (cancelledByPeer_discard_oco (s := s)).trans ?_
        constructor
        · rintro ⟨-, hfilled⟩ other hother - order horder
          obtain ⟨mine, hmine, hplan⟩ := htimed.own order horder (hfilled order horder)
          rw [htimer] at hmine
          cases hmine
          cases hother
          exact hplan.symm
        · intro h
          refine ⟨hcancelled, fun order horder => ?_⟩
          rw [h timer rfl hdue order horder]
          exact htimed.set timer htimer
    · have hsame : cancel quote s = s := by
        simp only [cancel, htimer]
        exact if_neg hdue
      rw [hsame]
      refine ⟨hbooks, htimed, fun hcancelled => ⟨?_, fun _ => hcancelled⟩, .inl rfl⟩
      rintro - other hother hother'
      cases hother
      exact absurd hother' hdue

variable (round scenario)

/-- One pass of the loop over the quotes keeps the accounts, and it cancels only orders whose plan was
    filled exactly if the timer meets no others. -/
theorem step_spec (plans : List Plan) (quote : Quote) (hbooks : Books round s) (htimed : Timed s) :
    Books round (step round scenario plans s quote) ∧ Timed (step round scenario plans s quote) ∧
      (CancelledByPeer s →
        (CancelledByPeer (step round scenario plans s quote) ↔ Isolated s quote)) := by
  have hbefore : Carries round s (beforeCancel round scenario s quote) :=
    carries_beforeCancel quote
  obtain ⟨hbooks', htimed', hcancel, hstate⟩ := cancel_spec quote
    (hbefore.books hbooks) (hbefore.timed htimed)
  rw [hbefore.cancelAt, beforeCancel_pending] at hcancel
  have hfills : AfterFills round (cancel quote (beforeCancel round scenario s quote))
      (fillOrders round scenario (priced round scenario quote)
        (cancel quote (beforeCancel round scenario s quote))) :=
    hbooks'.fillOrders htimed'
  rw [step]
  simp only [← beforeCancel.eq_1]
  generalize fillOrders round scenario (priced round scenario quote)
    (cancel quote (beforeCancel round scenario s quote)) = filled at hfills
  have hplans : Books round (considerPlans round scenario (priced round scenario quote)
      (plans.drop filled.index) filled) ∧ _ ∧ _ :=
    considerPlans_keeps _ hfills.books hfills.timed
  obtain ⟨hbooks'', htimed'', hfates⟩ := hplans
  refine ⟨hbooks''.same ⟨rfl, rfl, rfl, le_rfl, fun _ => rfl, rfl, rfl, rfl, rfl, rfl⟩,
    htimed''.same ⟨rfl, rfl, rfl⟩, fun hcancelled => ?_⟩
  refine (cancelledByPeer_fates (s := filled) hfates).trans ?_
  refine Iff.trans ?_ (hcancel (hbefore.cancelled.mpr hcancelled))
  refine ⟨fun hafter => ?_, hfills.cancelled⟩
  rcases hstate with hsame | hempty
  · rw [hsame]
    exact hbefore.cancelled.mpr hcancelled
  · exact (cancelledByPeer_fates (hfills.quiet hempty).fates).mp hafter

/-! ### The run -/

theorem books_start : Books round {} ∧ Timed {} ∧ CancelledByPeer {} := by
  refine ⟨⟨.refl _, .nil, ?_, ?_, rfl, rfl, rfl, 0, ?_, ?_⟩, ⟨?_, ?_⟩, ?_⟩
  · rintro order ⟨⟩
  · intro fate
    cases fate <;> rfl
  · rintro order ⟨⟩
  · rintro p ⟨⟩
  · rintro timer ⟨⟩
  · rintro order ⟨⟩
  · rintro order ⟨⟩

theorem run_concat (plans : List Plan) (quotes : List Quote) (quote : Quote) :
    run round scenario plans (quotes ++ [quote])
      = step round scenario plans (run round scenario plans quotes) quote := by
  rw [run, List.foldl_append]
  rfl

theorem run_keeps (plans : List Plan) (quotes : List Quote) :
    Books round (run round scenario plans quotes) ∧ Timed (run round scenario plans quotes) := by
  induction quotes using List.reverseRecOn with
  | nil => exact ⟨(books_start round).1, (books_start round).2.1⟩
  | append_singleton quotes quote ih =>
    rw [run_concat]
    obtain ⟨hbooks, htimed, -⟩ := step_spec round scenario plans quote ih.1 ih.2
    exact ⟨hbooks, htimed⟩

/-- In a run all legs are cancelled only by their own peers exactly if the timer is never due while
    orders of a later plan are pending. -/
theorem run_cancelled (plans : List Plan) (quotes : List Quote) :
    (∀ n, CancelledByPeer (run round scenario plans (quotes.take n))) ↔
      ∀ n quote, quotes[n]? = some quote →
        Isolated (run round scenario plans (quotes.take n)) quote := by
  have hstep : ∀ n quote, quotes[n]? = some quote →
      run round scenario plans (quotes.take (n + 1))
        = step round scenario plans (run round scenario plans (quotes.take n)) quote := by
    intro n quote hget
    rw [List.take_add_one, hget, Option.toList_some, run_concat]
  constructor
  · intro h n quote hget
    obtain ⟨hbooks, htimed⟩ := run_keeps round scenario plans (quotes.take n)
    refine ((step_spec round scenario plans quote hbooks htimed).2.2 (h n)).mp ?_
    rw [← hstep n quote hget]
    exact h (n + 1)
  · intro h n
    induction n with
    | zero => exact (books_start round).2.2
    | succ n ih =>
      cases hget : quotes[n]? with
      | none =>
        rw [List.take_add_one, hget, Option.toList_none, List.append_nil]
        exact ih
      | some quote =>
        obtain ⟨hbooks, htimed⟩ := run_keeps round scenario plans (quotes.take n)
        rw [hstep n quote hget]
        exact ((step_spec round scenario plans quote hbooks htimed).2.2 ih).mpr (h n quote hget)

/-- What a report and the history of the run it comes from say about each other. -/
structure Accounted (round : ℚ → ℚ) (report : Report) (last : State) : Prop where
  /-- No leg is submitted twice. -/
  distinct : last.submitted.Nodup
  /-- Each submitted leg has one fate or is still pending. -/
  once : last.submitted.Perm (last.fates.map Prod.fst ++ last.pending)
  submissions : report.counters.submittedOrders = last.submitted.length
  counted : ∀ fate, report.counters.of fate = last.fates.countP fun e => e.2 = fate
  fills : report.counters.fills = report.closedTrades + report.counters.censoredPositions
  trades : report.closedTrades = report.closedPnls.length
  net : report.netPnlBeforeModel = sum round report.closedPnls

variable {round scenario}

theorem Books.accounted (h : Books round s) (bootstrap : List ℚ → ℚ × ℚ) :
    Accounted round (reportOf round bootstrap s) s where
  distinct := h.distinct
  once := h.once
  submissions := h.submissions
  counted := by
    intro fate
    refine Eq.trans ?_ (h.counted fate)
    cases fate <;> rfl
  fills := by
    have := h.fills
    simp only [reportOf, Evaluation.censor]
    omega
  trades := rfl
  net := h.net

end

/-- Every run accounts for each submitted leg once, for each fill, for the net and for one plan at a
    time; and it cancels a leg only after a fill of its own plan exactly if no cancel timer is due while
    orders of a plan are pending that did not set it. -/
theorem evaluate_accounts_iff (round : ℚ → ℚ) (scenario : Scenario) (bootstrap : List ℚ → ℚ × ℚ)
    (quotes : List Quote) (plans : List Plan) {report : Report}
    (h : evaluate round scenario bootstrap quotes plans = .ok report) :
    (Accounted round report (run round scenario plans quotes) ∧
      (∀ n, OnePlan (run round scenario plans (quotes.take n))) ∧
      ∀ n, CancelledByPeer (run round scenario plans (quotes.take n))) ↔
    ∀ n quote, quotes[n]? = some quote →
      Isolated (run round scenario plans (quotes.take n)) quote := by
  have hreport : reportOf round bootstrap (run round scenario plans quotes) = report := by
    simp only [evaluate, bind_ok, pure_ok] at h
    obtain ⟨-, -, -, -, -, -, hreport⟩ := h
    exact hreport
  have haccounted : Accounted round report (run round scenario plans quotes) :=
    hreport ▸ (run_keeps round scenario plans quotes).1.accounted bootstrap
  refine Iff.trans ⟨fun h => h.2.2, fun h => ⟨haccounted, fun n => ?_, h⟩⟩
    (run_cancelled round scenario plans quotes)
  exact (run_keeps round scenario plans (quotes.take n)).1.plan

namespace EngineSample

/-- A plan with one leg, filled at once. -/
def first : Plan := ⟨0, 0, 60000, [⟨.buy, 100, 1, 1⟩]⟩

/-- A plan with two legs, of which the first is filled at once. -/
def pair : Plan := ⟨0, 0, 60000, [⟨.buy, 100, 1, 1⟩, ⟨.sell, 95, 1, 1⟩]⟩

/-- A plan that is due while the timer of the first one runs. -/
def second : Plan := ⟨200, 200, 60200, [⟨.buy, 103, 1, 1⟩, ⟨.sell, 99, 1, 1⟩]⟩

/-- The quotes that submit the first plan, fill it and take its profit, and one more. -/
def quotes (last : ℤ) : List Quote :=
  [⟨500, 500, 998 / 10, 999 / 10⟩, ⟨600, 600, 999 / 10, 100⟩, ⟨700, 700, 1015 / 10, 1016 / 10⟩,
    ⟨last, last, 1015 / 10, 1016 / 10⟩]

def report (last : ℤ) (plans : List Plan) : Report :=
  reportOf id (fun _ => (0, 0)) (run id {} plans (quotes last))

end EngineSample

theorem EngineSample.evaluate_ok {last : ℤ} {plans : List Plan}
    (hordered : (plans.zip plans.tail).any (fun (a, b) => b.created < a.created) = false)
    (hvalid : plans.any (fun p => p.available < p.created ∨ p.expires ≤ p.available) = false) :
    evaluate id {} (fun _ => (0, 0)) (quotes last) plans = .ok (report last plans) := by
  rw [evaluate, require_eq (by decide +kernel), ok_bind,
    require_eq (by rw [hordered]; exact Bool.false_ne_true), ok_bind,
    require_eq (by rw [hvalid]; exact Bool.false_ne_true), ok_bind]
  rfl

open EngineSample in
/-- The timer of a plan whose position is closed cancels both legs of the next plan. -/
theorem old_timer_cancels :
    evaluate id {} (fun _ => (0, 0)) (quotes 1100) [first, second]
        = .ok (report 1100 [first, second]) ∧
      ¬ ∀ n, CancelledByPeer (run id {} [first, second] ((quotes 1100).take n)) := by
  refine ⟨EngineSample.evaluate_ok (by decide) (by decide), fun h => ?_⟩
  have hfates : (run id {} [first, second] ((quotes 1100).take 4)).fates =
      [(⟨0, 0, .buy, 100, 1, 1⟩, .filled), (⟨1, 0, .buy, 103, 1, 1⟩, .ocoCancelled),
        (⟨1, 1, .sell, 99, 1, 1⟩, .ocoCancelled)] := by
    decide +kernel
  have hown := h 4 ⟨1, 0, .buy, 103, 1, 1⟩
  simp [Filled, hfates] at hown

open EngineSample in
/-- A plan whose filled leg cancels the other. -/
theorem evaluate_accounts_iff_pair :
    Accounted id (report 1100 [pair]) (run id {} [pair] (quotes 1100)) :=
  have hisolated : ∀ x ∈ (quotes 1100).zipIdx,
      Isolated (run id {} [pair] ((quotes 1100).take x.2)) x.1 := by
    decide +kernel
  ((evaluate_accounts_iff id {} (fun _ => (0, 0)) (quotes 1100) [pair]
    (EngineSample.evaluate_ok (by decide) (by decide))).mpr fun n quote hget =>
      hisolated (quote, n) (List.mem_zipIdx_iff_getElem?.mpr hget)).1

end ScalpingBot.Evaluation
