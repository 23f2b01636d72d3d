import ScalpingBot.Indicators.Causality
import ScalpingBot.Technical.Structure

/-! What one candle adds to the structure of a frame, and from it what the whole loop adds: nothing that
    is known at a candle depends on later ones, and a pivot is broken at most once. -/

namespace ScalpingBot.Technical

/-! ### One candle -/

/-- The ends of a body are written as they are. -/
theorem text_body (c : Candle) : text (min c.open' c.close) = min c.open' c.close ∧
    text (max c.open' c.close) = max c.open' c.close := by
  constructor
  · rcases min_choice c.open' c.close with h | h <;> rw [h]
    · exact c.text_open
    · exact c.text_close
  · rcases max_choice c.open' c.close with h | h <;> rw [h]
    · exact c.text_open
    · exact c.text_close

/-- A side leaves everything alone, breaks its latest pivot, or sweeps it. -/
theorem sideStep_cases (before : List Candle) (displacement : Bool) (c : Candle) (s : State)
    (side : Side) :
    sideStep before displacement c s side = s ∨
    (∃ pivot origins zones, s.latest side = some pivot ∧ (side, pivot.candleAt) ∉ s.broken ∧
      sideStep before displacement c s side =
        { s with
          events := s.events ++ [⟨breakKind s.bias (breakDirection side), breakDirection side,
            pivot.price, pivot.candleAt, c.endTime, displacement⟩]
          broken := (side, pivot.candleAt) :: s.broken
          bias := some (breakDirection side)
          origins
          zones }) ∨
    ∃ pivot : Pivot, sideStep before displacement c s side =
      { s with
        events := s.events ++ [⟨.sweep, sweepDirection side, pivot.price, pivot.candleAt, c.endTime,
          displacement⟩] } := by
  rw [sideStep]
  split
  · exact .inl rfl
  · rename_i pivot hlatest
    split
    · exact .inl rfl
    · rename_i hbroken
      split
      · simp only [addOrderBlock]
        split
        · split
          · exact .inr (.inl ⟨pivot, s.origins, s.zones, hlatest, hbroken, rfl⟩)
          · split
            · exact .inr (.inl ⟨pivot, s.origins, s.zones, hlatest, hbroken, rfl⟩)
            · exact .inr (.inl ⟨pivot, _, _, hlatest, hbroken, rfl⟩)
        · exact .inr (.inl ⟨pivot, s.origins, s.zones, hlatest, hbroken, rfl⟩)
      · split
        · exact .inr (.inr ⟨pivot, rfl⟩)
        · exact .inl rfl

/-- What a state has beyond an earlier one, all of it from one candle. -/
structure Extends (c : Candle) (s s' : State) : Prop where
  pivots : ∃ more, s'.pivots = s.pivots ++ more ∧ ∀ p ∈ more, p.availableAt = c.endTime
  events : ∃ more, s'.events = s.events ++ more ∧ ∀ e ∈ more, e.availableAt = c.endTime

theorem Extends.of_eq {c : Candle} {s s' : State} (hpivots : s'.pivots = s.pivots)
    (hevents : s'.events = s.events) : Extends c s s' :=
  ⟨⟨[], by rw [hpivots, List.append_nil], by simp⟩, ⟨[], by rw [hevents, List.append_nil], by simp⟩⟩

theorem Extends.trans {c : Candle} {s t u : State} (h : Extends c s t) (h' : Extends c t u) :
    Extends c s u := by
  obtain ⟨⟨p, hp, hp'⟩, ⟨e, he, he'⟩⟩ := h
  obtain ⟨⟨q, hq, hq'⟩, ⟨f, hf, hf'⟩⟩ := h'
  exact ⟨⟨p ++ q, by rw [hq, hp, List.append_assoc], List.forall_mem_append.mpr ⟨hp', hq'⟩⟩,
    ⟨e ++ f, by rw [hf, he, List.append_assoc], List.forall_mem_append.mpr ⟨he', hf'⟩⟩⟩

theorem extends_sideStep (before : List Candle) (displacement : Bool) (c : Candle) (s : State)
    (side : Side) : Extends c s (sideStep before displacement c s side) := by
  rcases sideStep_cases before displacement c s side with heq | ⟨pivot, origins, zones, -, -, heq⟩ |
    ⟨pivot, heq⟩
  · rw [heq]
    exact .of_eq rfl rfl
  · rw [heq]
    exact ⟨⟨[], (List.append_nil _).symm, by simp⟩, ⟨[_], rfl, by simp⟩⟩
  · rw [heq]
    exact ⟨⟨[], (List.append_nil _).symm, by simp⟩, ⟨[_], rfl, by simp⟩⟩

/-- A side confirms at most one pivot, available at the end of the candle. -/
theorem pivotAt_spec {before : List Candle} {c : Candle} {side : Side} {p : Pivot}
    (h : pivotAt before c side = some p) : p.side = side ∧ p.availableAt = c.endTime := by
  rw [pivotAt] at h
  split at h
  · cases h
  · simp only at h
    split at h
    · cases h
    · split at h
      · cases h
        exact ⟨rfl, rfl⟩
      · cases h

theorem availableAt_pivotsAt {before : List Candle} {c : Candle} {p : Pivot}
    (h : p ∈ pivotsAt before c) : p.availableAt = c.endTime := by
  obtain ⟨side, -, hside⟩ := List.mem_filterMap.mp h
  exact (pivotAt_spec hside).2

/-- Recording pivots changes nothing but the pivots and the latest ones. -/
theorem foldl_recordPivot (s : State) (l : List Pivot) :
    l.foldl recordPivot s = { s with
      pivots := s.pivots ++ l
      latest := (l.foldl recordPivot s).latest } := by
  induction l generalizing s with
  | nil => rw [List.foldl_nil, List.append_nil]
  | cons p l ih =>
    rw [List.foldl_cons, ih, recordPivot]
    simp only [List.append_assoc, List.singleton_append]

theorem pivots_foldl_recordPivot (s : State) (l : List Pivot) :
    (l.foldl recordPivot s).pivots = s.pivots ++ l := by
  rw [foldl_recordPivot]

theorem events_foldl_recordPivot (s : State) (l : List Pivot) :
    (l.foldl recordPivot s).events = s.events := by
  rw [foldl_recordPivot]

theorem pivots_sideStep (before : List Candle) (displacement : Bool) (c : Candle) (s : State)
    (side : Side) : (sideStep before displacement c s side).pivots = s.pivots := by
  rcases sideStep_cases before displacement c s side with heq | ⟨pivot, origins, zones, -, -, heq⟩ |
    ⟨pivot, heq⟩ <;> rw [heq]

/-- A candle adds the pivots it confirms. -/
theorem pivots_step (before : List Candle) (s : State) (input : Candle × Bool) :
    (step before s input).pivots = s.pivots ++ pivotsAt before input.1 := by
  simp only [step, sides, List.foldl_cons, List.foldl_nil, pivots_sideStep, pivots_foldl_recordPivot]

theorem extends_step (before : List Candle) (s : State) (input : Candle × Bool) :
    Extends input.1 s (step before s input) := by
  have hrecord : Extends input.1 s ((pivotsAt before input.1).foldl recordPivot
      { s with zones := s.zones.map (ageZone input.1) }) :=
    ⟨⟨_, pivots_foldl_recordPivot _ _, fun p hp => availableAt_pivotsAt hp⟩,
      ⟨[], by rw [events_foldl_recordPivot, List.append_nil], by simp⟩⟩
  exact ((hrecord.trans (extends_sideStep before input.2 input.1 _ .high)).trans
    (extends_sideStep before input.2 input.1 _ .low)).trans (.of_eq rfl rfl)

/-! ### The loop -/

theorem loop_append (before : List Candle) (s : State) (a b : List (Candle × Bool)) :
    loop before s (a ++ b) = loop (before ++ a.map Prod.fst) (loop before s a) b := by
  induction a generalizing before s with
  | nil => rw [List.nil_append, List.map_nil, List.append_nil, loop]
  | cons input a ih =>
    rw [List.cons_append, loop, ih, loop, List.map_cons, List.append_assoc, List.singleton_append]

/-- What holds before the loop and after each of its candles holds after it. -/
theorem loop_invariant {P : List Candle → State → Prop}
    (hstep : ∀ before s input, P before s → P (before ++ [input.1]) (step before s input))
    {before : List Candle} {s : State} (h : P before s) (l : List (Candle × Bool)) :
    P (before ++ l.map Prod.fst) (loop before s l) := by
  induction l generalizing before s with
  | nil => rwa [List.map_nil, List.append_nil]
  | cons input l ih =>
    have hrest := ih (hstep before s input h)
    rwa [List.append_assoc, List.singleton_append, ← List.map_cons] at hrest

/-- What the loop adds became available at the end of one of its candles. -/
theorem loop_extends (before : List Candle) (s : State) (l : List (Candle × Bool)) :
    (∃ more, (loop before s l).pivots = s.pivots ++ more ∧
      ∀ p ∈ more, p.availableAt ∈ l.map fun input => input.1.endTime) ∧
    ∃ more, (loop before s l).events = s.events ++ more ∧
      ∀ e ∈ more, e.availableAt ∈ l.map fun input => input.1.endTime := by
  induction l generalizing before s with
  | nil => exact ⟨⟨[], (List.append_nil _).symm, by simp⟩, ⟨[], (List.append_nil _).symm, by simp⟩⟩
  | cons input l ih =>
    obtain ⟨⟨p, hp, hp'⟩, ⟨e, he, he'⟩⟩ := extends_step before s input
    obtain ⟨⟨q, hq, hq'⟩, ⟨f, hf, hf'⟩⟩ := ih (before ++ [input.1]) (step before s input)
    refine ⟨⟨p ++ q, by rw [loop, hq, hp, List.append_assoc], ?_⟩,
      ⟨e ++ f, by rw [loop, hf, he, List.append_assoc], ?_⟩⟩
    · exact List.forall_mem_append.mpr ⟨fun x hx => by simp [hp' x hx],
        fun x hx => List.mem_cons_of_mem _ (hq' x hx)⟩
    · exact List.forall_mem_append.mpr ⟨fun x hx => by simp [he' x hx],
        fun x hx => List.mem_cons_of_mem _ (hf' x hx)⟩

/-! ### Breaks -/

/-- The event is a break of the pivot. -/
def breaks (p : Pivot) (e : StructureEvent) : Bool :=
  e.kind ≠ .sweep ∧ e.direction = breakDirection p.side ∧ e.pivotAt = p.candleAt

/-- A pivot that has been broken is marked, and has been broken once. -/
def BrokenOnce (s : State) : Prop :=
  ∀ p : Pivot, s.events.countP (breaks p) ≤ if (p.side, p.candleAt) ∈ s.broken then 1 else 0

theorem breakDirection_inj {side side' : Side} (h : breakDirection side = breakDirection side') :
    side = side' := by
  cases side <;> cases side' <;> first | rfl | cases h

theorem BrokenOnce.of_eq {s s' : State} (h : BrokenOnce s) (hevents : s'.events = s.events)
    (hbroken : s'.broken = s.broken) : BrokenOnce s' := by
  intro p
  rw [hevents, hbroken]
  exact h p

theorem brokenOnce_sideStep {s : State} (h : BrokenOnce s) (before : List Candle)
    (displacement : Bool) (c : Candle) (side : Side) :
    BrokenOnce (sideStep before displacement c s side) := by
  rcases sideStep_cases before displacement c s side with heq |
    ⟨pivot, origins, zones, hlatest, hbroken, heq⟩ | ⟨pivot, heq⟩
  · rwa [heq]
  · rw [heq]
    intro p
    have hp := h p
    rw [List.countP_append, List.countP_singleton]
    by_cases hsame : (p.side, p.candleAt) = (side, pivot.candleAt)
    · rw [hsame, if_neg hbroken] at hp
      rw [hsame, if_pos List.mem_cons_self]
      split <;> omega
    · have hnot : ¬ breaks p ⟨breakKind s.bias (breakDirection side), breakDirection side, pivot.price,
          pivot.candleAt, c.endTime, displacement⟩ := by
        simp only [breaks, Bool.decide_and, Bool.and_eq_true, decide_eq_true_eq]
        rintro ⟨-, hdirection, hat⟩
        exact hsame (Prod.ext (breakDirection_inj hdirection).symm hat.symm)
      rw [if_neg hnot, Nat.add_zero]
      simpa only [List.mem_cons, hsame, false_or] using hp
  · rw [heq]
    intro p
    rw [List.countP_append, List.countP_singleton, if_neg (by simp [breaks]), Nat.add_zero]
    exact h p

theorem brokenOnce_step {s : State} (h : BrokenOnce s) (before : List Candle)
    (input : Candle × Bool) : BrokenOnce (step before s input) := by
  have hrecord : BrokenOnce ((pivotsAt before input.1).foldl recordPivot
      { s with zones := s.zones.map (ageZone input.1) }) := by
    rw [foldl_recordPivot]
    exact h.of_eq rfl rfl
  exact (brokenOnce_sideStep (brokenOnce_sideStep hrecord before input.2 input.1 .high) before
    input.2 input.1 .low).of_eq rfl rfl

theorem brokenOnce_structure (candles : List Candle) : BrokenOnce (structureOf candles) :=
  loop_invariant (P := fun _ s => BrokenOnce s) (fun before _ input h => brokenOnce_step h before input)
    (fun _ => Nat.zero_le _) (inputs candles (boundary candles))

/-! ### Later candles -/

theorem isCausal_atr : Causal.IsCausal atr :=
  (Indicators.isCausal_wilderValues context (by decide)).comp
    ((Indicators.isCausal_trueRanges context).comp (Indicators.isCausal_map numericBar))

/-- Candles without a gap of the session before them leave the segment where it starts. -/
theorem boundary_append {candles more : List Candle} (hmore : ∀ c ∈ more, flagged c = false) :
    boundary (candles ++ more) = boundary candles := by
  have hfold : ∀ (l : List Candle) (n last : ℕ), (∀ c ∈ l, flagged c = false) →
      (l.zipIdx n).foldl (fun last p => if flagged p.1 then p.2 else last) last = last := by
    intro l
    induction l with
    | nil => exact fun n last _ => rfl
    | cons c l ih =>
      intro n last hl
      rw [List.zipIdx_cons, List.foldl_cons, hl c List.mem_cons_self]
      exact ih (n + 1) last fun d hd => hl d (List.mem_cons_of_mem c hd)
  rw [boundary, List.zipIdx_append, List.foldl_append, hfold more _ _ hmore, boundary]

theorem boundary_le (candles : List Candle) : boundary candles ≤ candles.length := by
  induction candles using List.reverseRecOn with
  | nil => exact Nat.le_refl 0
  | append_singleton candles c ih =>
    rw [boundary, List.zipIdx_append, List.foldl_append, ← boundary, List.length_append]
    simp only [List.zipIdx_cons, List.zipIdx_nil, List.foldl_cons, List.foldl_nil, List.length_singleton]
    split <;> omega

theorem map_fst_mapIdx (flag : ℕ → Candle → Bool) (l : List Candle) :
    (l.mapIdx fun i c => (c, flag i c)).map Prod.fst = l := by
  refine List.ext_getElem? fun i => ?_
  rw [List.getElem?_map, List.getElem?_mapIdx, Option.map_map]
  exact Option.map_id'

/-- The flags of candles do not change when others follow. -/
theorem inputs_append (candles more : List Candle) {first : ℕ} (hfirst : first ≤ candles.length) :
    ∃ later, inputs (candles ++ more) first = inputs candles first ++ later ∧
      later.map Prod.fst = more := by
  refine ⟨more.mapIdx fun i c => (c, displaced (priorAtr (atr (candles ++ more)) first
    (i + (candles.drop first).length)) c), ?_, ?_⟩
  · rw [inputs, List.drop_append_of_le_length hfirst, List.mapIdx_append, inputs]
    congr 1
    refine List.ext_getElem? fun i => ?_
    rw [List.getElem?_mapIdx, List.getElem?_mapIdx]
    by_cases hi : i < (candles.drop first).length
    · have hprior : priorAtr (atr (candles ++ more)) first i = priorAtr (atr candles) first i := by
        rw [List.length_drop] at hi
        rw [priorAtr, priorAtr]
        split
        · rfl
        · rw [isCausal_atr.getElem?_congr (List.take_append_of_le_length (by omega))]
      rw [hprior]
    · rw [List.getElem?_eq_none (by omega)]
      rfl
  · exact map_fst_mapIdx _ more

theorem map_inputs (candles : List Candle) (first : ℕ) :
    (inputs candles first).map Prod.fst = candles.drop first := by
  rw [inputs, map_fst_mapIdx]

end ScalpingBot.Technical
