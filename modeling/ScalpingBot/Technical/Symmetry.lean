import Mathlib.Algebra.Order.Group.MinMax
import ScalpingBot.Technical.Reflection
import ScalpingBot.Technical.Sides

/-! The loop over reflected candles, next to the loop over the candles themselves: the variables of the
    one are those of the other with highs and lows, and with the directions, changed. -/

namespace ScalpingBot.Technical

open Indicators (sub mul div)

variable {total : ℚ} {c : Candle} {reflect : Candle → Candle} {before : List Candle}

/-! ### Volatility -/

theorem context_neg (q : ℚ) : context (-q) = -context q := HalfEven.keep_neg q

/-- The context keeps as much of a negative number. -/
theorem abs_sub_comm (a b : ℚ) : |sub context a b| = |sub context b a| := by
  rw [sub, sub, ← neg_sub b a, context_neg, abs_neg]

theorem sub_reflect (a b : ℚ) : sub context (total - a) (total - b) = sub context b a := by
  rw [sub, sub, sub_sub_sub_cancel_left]

/-- Ranges do not see the reflection. -/
theorem trueRanges_reflect {candles : List Candle} (h : ∀ d ∈ candles, Reflects total d (reflect d)) :
    Indicators.trueRanges context ((candles.map reflect).map numericBar) =
      Indicators.trueRanges context (candles.map numericBar) := by
  have hrange : ∀ d e, Reflects total d (reflect d) → Reflects total e (reflect e) →
      Indicators.trueRange context (numericBar (reflect d)) (numericBar (reflect e)) =
        Indicators.trueRange context (numericBar d) (numericBar e) := by
    intro d e hd he
    simp only [Indicators.trueRange, numericBar, he.high, he.low, hd.close, sub_reflect]
    rw [abs_sub_comm d.close e.low, abs_sub_comm d.close e.high, max_right_comm]
  have hrest : ∀ (l : List Candle) (d : Candle), Reflects total d (reflect d) →
      (∀ e ∈ l, Reflects total e (reflect e)) →
      Causal.transduce (fun _ bar => bar) (Indicators.trueRange context) (numericBar (reflect d))
        ((l.map reflect).map numericBar) =
      Causal.transduce (fun _ bar => bar) (Indicators.trueRange context) (numericBar d)
        (l.map numericBar) := by
    intro l
    induction l with
    | nil => exact fun _ _ _ => rfl
    | cons e l ih =>
      intro d hd hl
      have he := hl e List.mem_cons_self
      simp only [List.map_cons, Causal.transduce]
      rw [hrange d e hd he, ih e he fun f hf => hl f (List.mem_cons_of_mem e hf)]
  cases candles with
  | nil => rfl
  | cons d l =>
    have hd := h d List.mem_cons_self
    simp only [List.map_cons, Indicators.trueRanges]
    rw [hrest l d hd fun e he => h e (List.mem_cons_of_mem d he)]
    congr 1
    simp only [numericBar, hd.high, hd.low, sub_reflect]

theorem displaced_reflect (prior : Option ℚ) (h : Reflects total c (reflect c)) :
    displaced prior (reflect c) = displaced prior c := by
  simp only [displaced, h.close, h.open', h.high, h.low, sub_reflect]
  rw [abs_sub_comm c.open' c.close]

theorem boundary_reflect {candles : List Candle} (h : ∀ d ∈ candles, Reflects total d (reflect d)) :
    boundary (candles.map reflect) = boundary candles := by
  have hfold : ∀ (l : List Candle) (n last : ℕ), (∀ d ∈ l, Reflects total d (reflect d)) →
      ((l.map reflect).zipIdx n).foldl (fun last p => if flagged p.1 then p.2 else last) last =
        (l.zipIdx n).foldl (fun last p => if flagged p.1 then p.2 else last) last := by
    intro l
    induction l with
    | nil => exact fun _ _ _ => rfl
    | cons d l ih =>
      intro n last hl
      have hd : flagged (reflect d) = flagged d := by
        rw [flagged, flagged, (hl d List.mem_cons_self).flags]
      simp only [List.map_cons, List.zipIdx_cons, List.foldl_cons, hd]
      exact ih _ _ fun e he => hl e (List.mem_cons_of_mem d he)
  exact hfold candles 0 0 h

/-- Reflected candles are displaced where the candles are. -/
theorem inputs_reflect {candles : List Candle} (h : ∀ d ∈ candles, Reflects total d (reflect d))
    (first : ℕ) : inputs (candles.map reflect) first =
      (inputs candles first).map fun input => (reflect input.1, input.2) := by
  rw [inputs, inputs, atr, trueRanges_reflect h, ← atr, ← List.map_drop]
  refine List.ext_getElem? fun i => ?_
  rw [List.getElem?_mapIdx, List.getElem?_map, List.getElem?_map, List.getElem?_mapIdx]
  cases hd : (candles.drop first)[i]? with
  | none => rfl
  | some d =>
    have hmem : d ∈ candles := List.mem_of_mem_drop (List.mem_of_getElem? hd)
    simp only [Option.map_some, displaced_reflect _ (h d hmem)]

/-! ### States -/

/-- All variables but the pivots and the events. -/
structure Mirrored (total : ℚ) (s s' : State) : Prop where
  zones : s'.zones = s.zones.map (Zone.reflect total)
  origins : ∀ direction t, (direction, t) ∈ s'.origins ↔ (direction.other, t) ∈ s.origins
  latest : ∀ side, s'.latest side = (s.latest side.other).map (Pivot.reflect total)
  broken : ∀ side t, (side, t) ∈ s'.broken ↔ (side.other, t) ∈ s.broken
  bias : s'.bias = s.bias.map Direction.other

variable {s s' : State}

theorem Mirrored.withEvents (h : Mirrored total s s') (events events' : List StructureEvent) :
    Mirrored total { s with events } { s' with events := events' } :=
  ⟨h.zones, h.origins, h.latest, h.broken, h.bias⟩

theorem breakKind_reflect (bias : Option Direction) (direction : Direction) :
    breakKind (bias.map Direction.other) direction.other = breakKind bias direction := by
  cases bias with
  | none => rfl
  | some bias => cases bias <;> cases direction <;> rfl

theorem sideEvents_reflect (h : Mirrored total s s') (hc : Reflects total c (reflect c))
    (displacement : Bool) (side : Side) :
    sideEvents displacement (reflect c) s' side.other =
      (sideEvents displacement c s side).map (StructureEvent.reflect total) := by
  rw [sideEvents, sideEvents, h.latest, Side.other_other]
  cases s.latest side with
  | none => rfl
  | some pivot =>
    have hbroken : (side.other, pivot.candleAt) ∈ s'.broken ↔ (side, pivot.candleAt) ∈ s.broken := by
      rw [h.broken, Side.other_other]
    simp only [Option.map_some, Pivot.reflect, hbroken, crosses_reflect hc, sweeps_reflect hc, h.bias,
      breakDirection_other, sweepDirection_other, breakKind_reflect, hc.endTime]
    split
    · rfl
    · split
      · rfl
      · split <;> rfl

theorem crossed_reflect (h : Mirrored total s s') (hc : Reflects total c (reflect c)) (side : Side) :
    crossed (reflect c) s' side.other = crossed c s side := by
  rw [crossed, crossed, h.latest, Side.other_other]
  cases s.latest side with
  | none => rfl
  | some pivot =>
    have hbroken : (side.other, pivot.candleAt) ∈ s'.broken ↔ (side, pivot.candleAt) ∈ s.broken := by
      rw [h.broken, Side.other_other]
    simp only [Option.map_some, Pivot.reflect, hbroken, crosses_reflect hc]

theorem mirrored_addOrderBlock (h : Mirrored total s s') (hc : Reflects total c (reflect c))
    (hbefore : ∀ d ∈ before, Reflects total d (reflect d)) (direction : Direction) :
    Mirrored total (addOrderBlock before c direction s)
      (addOrderBlock (before.map reflect) (reflect c) direction.other s') := by
  rw [addOrderBlock, addOrderBlock, originOf_reflect hbefore]
  cases horigin : originOf before direction with
  | none => exact h
  | some origin =>
    have hmem : origin ∈ before :=
      List.mem_of_mem_drop (List.mem_reverse.mp (List.mem_of_find?_eq_some horigin))
    have ho := hbefore origin hmem
    have hknown : (direction.other, (reflect origin).endTime) ∈ s'.origins ↔
        (direction, origin.endTime) ∈ s.origins := by
      rw [h.origins, Direction.other_other, ho.endTime]
    simp only [Option.map_some]
    by_cases hin : (direction, origin.endTime) ∈ s.origins
    · rw [if_pos hin, if_pos (hknown.mpr hin)]
      exact h
    · rw [if_neg hin, if_neg fun h' => hin (hknown.mp h')]
      refine ⟨?_, fun d t => ?_, h.latest, h.broken, h.bias⟩
      · have hbody := text_body (reflect origin)
        simp only [List.map_append, List.map_singleton, h.zones, Zone.reflect, hbody.1, hbody.2,
          (text_body origin).1, (text_body origin).2, ho.endTime, hc.endTime]
        rw [ho.open', ho.close, min_sub_sub_left, max_sub_sub_left]
      · simp only [List.mem_cons, Prod.mk.injEq, h.origins, ho.endTime]
        cases d <;> cases direction <;> simp [Direction.other]

/-- A side of the one run does what the other side does in the other. -/
theorem mirrored_sideStep (h : Mirrored total s s') (hc : Reflects total c (reflect c))
    (hbefore : ∀ d ∈ before, Reflects total d (reflect d)) (displacement : Bool) (side : Side) :
    Mirrored total (sideStep before displacement c s side)
      (sideStep (before.map reflect) displacement (reflect c) s' side.other) := by
  cases hcross : crossed c s side with
  | false =>
    rw [sideStep_of_not_crossed hcross,
      sideStep_of_not_crossed ((crossed_reflect h hc side).trans hcross)]
    exact h.withEvents _ _
  | true =>
    rw [crossed] at hcross
    rw [sideStep, sideStep, h.latest, Side.other_other]
    cases hlatest : s.latest side with
    | none => exact h
    | some pivot =>
      simp only [hlatest, Bool.decide_and, Bool.and_eq_true, decide_eq_true_eq] at hcross
      obtain ⟨hbroken, hcrosses⟩ := hcross
      have hbroken' : (side.other, pivot.candleAt) ∉ s'.broken := by
        rwa [h.broken, Side.other_other]
      simp only [Option.map_some, Pivot.reflect, if_neg hbroken, if_neg hbroken', crosses_reflect hc,
        hcrosses, if_true, breakDirection_other]
      have hcore : ∀ events events', Mirrored total
          { s with
            events
            broken := (side, pivot.candleAt) :: s.broken
            bias := some (breakDirection side) }
          { s' with
            events := events'
            broken := (side.other, pivot.candleAt) :: s'.broken
            bias := some (breakDirection side).other } := by
        intro events events'
        refine ⟨h.zones, h.origins, h.latest, fun side' t => ?_, rfl⟩
        simp only [List.mem_cons, Prod.mk.injEq, h.broken]
        cases side <;> cases side' <;> simp [Side.other]
      split
      · exact mirrored_addOrderBlock (hcore _ _) hc hbefore _
      · exact hcore _ _

/-! ### Steps -/

theorem mirrored_record (h : Mirrored total s s') (hc : Reflects total c (reflect c))
    (hbefore : ∀ d ∈ before, Reflects total d (reflect d)) :
    Mirrored total ((pivotsAt before c).foldl recordPivot s)
      ((pivotsAt (before.map reflect) (reflect c)).foldl recordPivot s') := by
  have hlatest : ∀ side, ((pivotsAt (before.map reflect) (reflect c)).foldl recordPivot s').latest side =
      (((pivotsAt before c).foldl recordPivot s).latest side.other).map (Pivot.reflect total) := by
    intro side
    have hpivot := pivotAt_reflect hc hbefore side.other
    rw [Side.other_other] at hpivot
    rw [latest_pivotsAt, latest_pivotsAt, hpivot, h.latest]
    cases pivotAt before c side.other <;> rfl
  rw [foldl_recordPivot] at hlatest ⊢
  rw [foldl_recordPivot s'] at hlatest ⊢
  exact ⟨h.zones, h.origins, hlatest, h.broken, h.bias⟩

/-- The other run has added the reflected events. -/
structure Tracks (total : ℚ) (s s' t t' : State) : Prop where
  mirrored : Mirrored total t t'
  events : ∃ more, t.events = s.events ++ more ∧
    t'.events = s'.events ++ more.map (StructureEvent.reflect total)

theorem tracks_sideStep {t t' : State} (h : Tracks total s s' t t') (hc : Reflects total c (reflect c))
    (hbefore : ∀ d ∈ before, Reflects total d (reflect d)) (displacement : Bool) (side : Side) :
    Tracks total s s' (sideStep before displacement c t side)
      (sideStep (before.map reflect) displacement (reflect c) t' side.other) := by
  obtain ⟨more, hmore, hmore'⟩ := h.events
  refine ⟨mirrored_sideStep h.mirrored hc hbefore displacement side,
    more ++ sideEvents displacement c t side, ?_, ?_⟩
  · rw [events_sideStep, hmore, List.append_assoc]
  · rw [events_sideStep, hmore', sideEvents_reflect h.mirrored hc, List.map_append, List.append_assoc]

/-- The sides of the one run in the other order are those of the other run. -/
theorem mirrored_sides (h : Mirrored total s s') (hc : Reflects total c (reflect c))
    (hbefore : ∀ d ∈ before, Reflects total d (reflect d)) (displacement : Bool)
    (hcross : ¬ (crossed c s .high ∧ crossed c s .low)) :
    Mirrored total (sides.foldl (sideStep before displacement c) s)
      (sides.foldl (sideStep (before.map reflect) displacement (reflect c)) s') ∧
    ∃ more more', (sides.foldl (sideStep before displacement c) s).events = s.events ++ more ∧
      (sides.foldl (sideStep (before.map reflect) displacement (reflect c)) s').events =
        s'.events ++ more' ∧
      (more.map (StructureEvent.reflect total)).Perm more' ∧ ∀ e ∈ more, e.availableAt = c.endTime := by
  have hstart : Tracks total s s' s s' := ⟨h, [], (List.append_nil _).symm, (List.append_nil _).symm⟩
  have htracks := tracks_sideStep (tracks_sideStep hstart hc hbefore displacement .low) hc hbefore
    displacement .high
  obtain ⟨core, high, low, hforward, hback, havailable⟩ :=
    sides_comm before displacement hcross
  obtain ⟨hmirrored, more, hmore, hmore'⟩ := htracks
  rw [hback] at hmirrored hmore
  have hswapped : more = low ++ high := (List.append_cancel_left hmore).symm
  simp only [sides, List.foldl_cons, List.foldl_nil]
  rw [hforward]
  refine ⟨hmirrored.withEvents _ _, high ++ low, _, rfl, hmore', ?_, havailable⟩
  rw [hswapped]
  exact (List.perm_append_comm).map _

theorem mirrored_step (h : Mirrored total s s') (hsettled : Settled before s)
    (hc : Reflects total c (reflect c)) (hbefore : ∀ d ∈ before, Reflects total d (reflect d))
    (displacement : Bool) :
    Mirrored total (step before s (c, displacement))
      (step (before.map reflect) s' (reflect c, displacement)) ∧
    ∃ more more', (step before s (c, displacement)).events = s.events ++ more ∧
      (step (before.map reflect) s' (reflect c, displacement)).events = s'.events ++ more' ∧
      (more.map (StructureEvent.reflect total)).Perm more' ∧ ∀ e ∈ more, e.availableAt = c.endTime := by
  have haged : Mirrored total { s with zones := s.zones.map (ageZone c) }
      { s' with zones := s'.zones.map (ageZone (reflect c)) } := by
    refine ⟨?_, h.origins, h.latest, h.broken, h.bias⟩
    rw [h.zones, List.map_map, List.map_map]
    exact List.map_congr_left fun z _ => ageZone_reflect hc z
  have hrecord := mirrored_record haged hc hbefore
  have hsides := mirrored_sides hrecord hc hbefore displacement (not_both_crossed hsettled)
  rw [events_foldl_recordPivot, events_foldl_recordPivot] at hsides
  obtain ⟨hm, hevents⟩ := hsides
  refine ⟨⟨?_, hm.origins, hm.latest, hm.broken, hm.bias⟩, hevents⟩
  simp only [step, gapZone_reflect hc hbefore, List.map_append, hm.zones]
  cases gapZone before c <;> rfl

theorem pivotsAt_reflect (hc : Reflects total c (reflect c))
    (hbefore : ∀ d ∈ before, Reflects total d (reflect d)) :
    ((pivotsAt before c).map (Pivot.reflect total)).Perm
      (pivotsAt (before.map reflect) (reflect c)) := by
  have hhigh : pivotAt (before.map reflect) (reflect c) .low = _ := pivotAt_reflect hc hbefore .high
  have hlow : pivotAt (before.map reflect) (reflect c) .high = _ := pivotAt_reflect hc hbefore .low
  rw [pivotsAt, pivotsAt, sides, List.filterMap_cons, List.filterMap_cons, List.filterMap_cons,
    List.filterMap_cons, hhigh, hlow]
  cases pivotAt before c .high <;> cases pivotAt before c .low <;> simp [List.Perm.swap]

/-- Both runs next to each other. -/
theorem mirrored_loop (h : Mirrored total s s') (hsettled : Settled before s)
    (hbefore : ∀ d ∈ before, Reflects total d (reflect d)) {l : List (Candle × Bool)}
    (hl : ∀ input ∈ l, Reflects total input.1 (reflect input.1))
    (hpivots : SameByTime (Pivot.reflect total) Pivot.availableAt s.pivots s'.pivots)
    (hevents : SameByTime (StructureEvent.reflect total) StructureEvent.availableAt s.events
      s'.events) :
    Mirrored total (loop before s l)
      (loop (before.map reflect) s' (l.map fun input => (reflect input.1, input.2))) ∧
    SameByTime (Pivot.reflect total) Pivot.availableAt (loop before s l).pivots
      (loop (before.map reflect) s' (l.map fun input => (reflect input.1, input.2))).pivots ∧
    SameByTime (StructureEvent.reflect total) StructureEvent.availableAt (loop before s l).events
      (loop (before.map reflect) s' (l.map fun input => (reflect input.1, input.2))).events := by
  induction l generalizing before s s' with
  | nil => exact ⟨h, hpivots, hevents⟩
  | cons input l ih =>
    have hc := hl input List.mem_cons_self
    obtain ⟨hstep, more, more', hmore, hmore', hperm, htime⟩ :=
      mirrored_step h hsettled hc hbefore input.2
    have hnext := ih hstep (settled_step before s input)
      (fun d hd => (List.mem_append.mp hd).elim (hbefore d) fun hd => List.mem_singleton.mp hd ▸ hc)
      (fun other hother => hl other (List.mem_cons_of_mem input hother))
      (by
        rw [pivots_step, pivots_step]
        exact hpivots.append (fun p hp => availableAt_pivotsAt hp) (pivotsAt_reflect hc hbefore))
      (by
        rw [hmore, hmore']
        exact hevents.append htime hperm)
    rw [List.map_append, List.map_singleton] at hnext
    exact hnext

theorem mirrored_start (total : ℚ) : Mirrored total {} {} :=
  ⟨rfl, fun _ _ => iff_of_false List.not_mem_nil List.not_mem_nil, fun _ => rfl,
    fun _ _ => iff_of_false List.not_mem_nil List.not_mem_nil, rfl⟩

/-- The structure of reflected candles. -/
theorem structure_reflect {candles : List Candle} (h : ∀ d ∈ candles, Reflects total d (reflect d)) :
    Mirrored total (structureOf candles) (structureOf (candles.map reflect)) ∧
    SameByTime (Pivot.reflect total) Pivot.availableAt (structureOf candles).pivots
      (structureOf (candles.map reflect)).pivots ∧
    SameByTime (StructureEvent.reflect total) StructureEvent.availableAt (structureOf candles).events
      (structureOf (candles.map reflect)).events := by
  rw [structureOf, structureOf, boundary_reflect h, inputs_reflect h]
  refine mirrored_loop (mirrored_start total) settled_start (fun d hd => absurd hd List.not_mem_nil)
    (fun input hinput => h _ ?_) .nil .nil
  have hmem := List.mem_map_of_mem (f := Prod.fst) hinput
  rw [map_inputs] at hmem
  exact List.mem_of_mem_drop hmem

theorem zonesAt_reflect {candles : List Candle} (h : ∀ d ∈ candles, Reflects total d (reflect d))
    (quoteMid : ℚ) : zonesAt (candles.map reflect) (total - quoteMid) =
      (zonesAt candles quoteMid).map (Zone.reflect total) := by
  rw [zonesAt, zonesAt, (structure_reflect h).1.zones, List.map_map, List.map_map]
  refine List.map_congr_left fun z _ => ?_
  simp only [Function.comp, distance, Zone.reflect, sub_reflect]
  rw [max_comm (sub context quoteMid z.upper)]

/-! ### The structure of a frame -/

/-- What is known when a list of candles ends stays when others follow it, and what these add is not
    known before they end. -/
theorem structure_append (candles : List Candle) {more : List Candle}
    (hmore : ∀ c ∈ more, flagged c = false) :
    (∃ later, (structureOf (candles ++ more)).pivots = (structureOf candles).pivots ++ later ∧
      ∀ p ∈ later, p.availableAt ∈ more.map Candle.endTime) ∧
    ∃ later, (structureOf (candles ++ more)).events = (structureOf candles).events ++ later ∧
      ∀ e ∈ later, e.availableAt ∈ more.map Candle.endTime := by
  obtain ⟨later, hinputs, hlater⟩ := inputs_append candles more (boundary_le candles)
  have hends : later.map (fun input => input.1.endTime) = more.map Candle.endTime := by
    rw [← hlater, List.map_map]
    rfl
  rw [structureOf, boundary_append hmore, hinputs, loop_append, ← structureOf, ← hends]
  exact loop_extends _ _ later

/-- What is known became known at the end of a candle. -/
theorem structure_available (candles : List Candle) :
    (∀ p ∈ (structureOf candles).pivots, p.availableAt ∈ candles.map Candle.endTime) ∧
      ∀ e ∈ (structureOf candles).events, e.availableAt ∈ candles.map Candle.endTime := by
  obtain ⟨⟨pivots, hpivots, hp⟩, ⟨events, hevents, he⟩⟩ :=
    loop_extends [] {} (inputs candles (boundary candles))
  have hends : ∀ t ∈ (inputs candles (boundary candles)).map (fun input => input.1.endTime),
      t ∈ candles.map Candle.endTime := by
    intro t ht
    obtain ⟨input, hinput, rfl⟩ := List.mem_map.mp ht
    have hmem := List.mem_map_of_mem (f := Prod.fst) hinput
    rw [map_inputs] at hmem
    exact List.mem_map_of_mem (List.mem_of_mem_drop hmem)
  rw [structureOf, hpivots, hevents]
  exact ⟨fun p hmem => hends _ (hp p hmem), fun e hmem => hends _ (he e hmem)⟩

/-- Entries up to a list of times, when the later ones have other times. -/
theorem filter_known {α : Type} {time : α → Timestamp} {known later : List α} {times : List Timestamp}
    (hknown : ∀ a ∈ known, time a ∈ times) (hlater : ∀ a ∈ later, time a ∉ times) :
    (known ++ later).filter (fun a => time a ∈ times) = known := by
  rw [List.filter_append, List.filter_eq_self.mpr fun a ha => decide_eq_true (hknown a ha),
    List.filter_eq_nil_iff.mpr fun a ha => by simpa using hlater a ha, List.append_nil]

/-- The structure of a list of candles does not change when others follow within the segment, a pivot
    is broken at most once, and reflected candles have the reflected structure. -/
theorem structure_lawful (candles : List Candle) :
    (∀ more, (∀ c ∈ more, flagged c = false) →
      (structureOf candles).pivots <+: (structureOf (candles ++ more)).pivots ∧
      (structureOf candles).events <+: (structureOf (candles ++ more)).events ∧
      ((∀ c ∈ more, c.endTime ∉ candles.map Candle.endTime) →
        (structureOf (candles ++ more)).pivots.filter (fun p => p.availableAt ∈
          candles.map Candle.endTime) = (structureOf candles).pivots ∧
        (structureOf (candles ++ more)).events.filter (fun e => e.availableAt ∈
          candles.map Candle.endTime) = (structureOf candles).events)) ∧
    (∀ p, (structureOf candles).events.countP (breaks p) ≤ 1) ∧
    ∀ (total : ℚ) (reflect : Candle → Candle), (∀ d ∈ candles, Reflects total d (reflect d)) →
      SameByTime (Pivot.reflect total) Pivot.availableAt (structureOf candles).pivots
        (structureOf (candles.map reflect)).pivots ∧
      SameByTime (StructureEvent.reflect total) StructureEvent.availableAt (structureOf candles).events
        (structureOf (candles.map reflect)).events ∧
      ∀ quoteMid, zonesAt (candles.map reflect) (total - quoteMid) =
        (zonesAt candles quoteMid).map (Zone.reflect total) := by
  refine ⟨fun more hmore => ?_, fun p => ?_, fun total reflect h => ?_⟩
  · obtain ⟨⟨pivots, hpivots, hp⟩, ⟨events, hevents, he⟩⟩ := structure_append candles hmore
    obtain ⟨hknownPivots, hknownEvents⟩ := structure_available candles
    refine ⟨⟨pivots, hpivots.symm⟩, ⟨events, hevents.symm⟩, fun hnew => ?_⟩
    have hother : ∀ t ∈ more.map Candle.endTime, t ∉ candles.map Candle.endTime := by
      intro t ht
      obtain ⟨c, hc, rfl⟩ := List.mem_map.mp ht
      exact hnew c hc
    rw [hpivots, hevents]
    exact ⟨filter_known hknownPivots fun p hmem => hother _ (hp p hmem),
      filter_known hknownEvents fun e hmem => hother _ (he e hmem)⟩
  · refine (brokenOnce_structure candles p).trans ?_
    split <;> decide
  · obtain ⟨-, hpivots, hevents⟩ := structure_reflect h
    exact ⟨hpivots, hevents, zonesAt_reflect h⟩

namespace StructureSample

def minute (n : ℕ) : Timestamp := ⟨n * microseconds 60, 0⟩

/-- A candle that rises. -/
def rising : Candle where
  startTime := minute 0
  endTime := minute 1
  open' := 100
  high := 104
  low := 99
  close := 103
  complete := true
  qualityFlags := []
  follows := by decide
  positive := by decide +kernel
  highest := by decide +kernel
  lowest := by decide +kernel
  flags := no_flags

/-- The same candle reflected about 100. -/
def falling : Candle where
  startTime := minute 0
  endTime := minute 1
  open' := 100
  high := 101
  low := 96
  close := 97
  complete := true
  qualityFlags := []
  follows := by decide
  positive := by decide +kernel
  highest := by decide +kernel
  lowest := by decide +kernel
  flags := no_flags

/-- A candle that follows. -/
def next : Candle := { rising with
  startTime := minute 1
  endTime := minute 2
  follows := by decide }

theorem reflects_rising : Reflects 200 rising falling where
  endTime := rfl
  flags := rfl
  open' := by decide +kernel
  high := by decide +kernel
  low := by decide +kernel
  close := by decide +kernel

end StructureSample

open StructureSample in
theorem structure_lawful_pair :
    ((structureOf ([rising] ++ [next])).events.filter fun e => e.availableAt ∈
        [rising].map Candle.endTime) = (structureOf [rising]).events ∧
    SameByTime (Pivot.reflect 200) Pivot.availableAt (structureOf [rising]).pivots
        (structureOf ([rising].map fun _ => falling)).pivots := by
  obtain ⟨happend, -, hreflect⟩ := structure_lawful [rising]
  refine ⟨((happend [next] ?_).2.2 ?_).2, (hreflect 200 (fun _ => falling) ?_).1⟩
  · decide
  · decide
  · intro d hd
    rw [List.mem_singleton.mp hd]
    exact reflects_rising

end ScalpingBot.Technical
