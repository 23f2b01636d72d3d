import ScalpingBot.Technical.Levels
import ScalpingBot.Technical.StructureLaws

/-! The level map and the structure that it extends: pivots found by index and pivots confirmed in the
    loop, the flags of displacement, and the status of a zone next to how deep later candles went into
    it. -/

namespace ScalpingBot.Technical

open Indicators (sub mul div add)

/-! ### Pivots -/

def SwingPivot.toPivot (p : SwingPivot) : Pivot := ⟨p.side, p.price, p.candleAt, p.availableAt⟩

theorem segmentStart_eq (bars : List Candle) : segmentStart bars = boundary bars := rfl

/-- Later candles do not change what a candle confirms. -/
theorem swingsAt_append {bars : List Candle} {i : ℕ} (hi : i < bars.length) (more : List Candle) :
    swingsAt (bars ++ more) i = swingsAt bars i := by
  rw [swingsAt, swingsAt, List.getElem?_append_left hi, List.getElem?_append_left (by omega),
    List.take_append_of_le_length (by omega)]

/-- What a candle confirms is found at its index. -/
theorem swingsAt_length {before : List Candle} (h : 6 ≤ before.length) (c : Candle) :
    (swingsAt (before ++ [c]) before.length).map SwingPivot.toPivot = pivotsAt before c := by
  have hwindow : ((before ++ [c]).take (before.length + 1)).drop (before.length - 6) =
      (before ++ [c]).drop (before.length - 6) := by
    rw [List.take_of_length_le (by rw [List.length_append, List.length_singleton])]
  have hcenter : (before ++ [c])[before.length - 3]? =
      ((before ++ [c]).drop (before.length - 6))[3]? := by
    rw [List.getElem?_drop, show before.length - 6 + 3 = before.length - 3 by omega]
  rw [swingsAt, hwindow, hcenter, List.getElem?_concat_length, pivotsAt, sides]
  simp only [List.filterMap_cons, List.filterMap_nil, pivotAt, if_neg (not_lt.mpr h)]
  cases hmiddle : ((before ++ [c]).drop (before.length - 6))[3]? with
  | none => rfl
  | some center =>
    generalize ((before ++ [c]).drop (before.length - 6)).eraseIdx 3 = peers
    have hhigh : peers.all (beyond .high center) = peers.all fun b => center.high > b.high := rfl
    have hlow : peers.all (beyond .low center) = peers.all fun b => center.low < b.low := rfl
    simp only [hhigh, hlow, priceOf, center.text_high, center.text_low]
    cases peers.all (fun b => decide (center.high > b.high)) <;>
      cases peers.all (fun b => decide (center.low < b.low)) <;> rfl

theorem swingPivots_concat (before : List Candle) (c : Candle) :
    (swingPivots (before ++ [c])).map SwingPivot.toPivot =
      (swingPivots before).map SwingPivot.toPivot ++ pivotsAt before c := by
  rw [swingPivots, swingPivots, List.length_append, List.length_singleton]
  by_cases h : 6 ≤ before.length
  · have hsplit : before.length + 1 - 6 = before.length - 6 + 1 := by omega
    have hlast : 6 + (before.length - 6) = before.length := by omega
    rw [hsplit, List.range'_1_concat, List.flatMap_append, List.map_append, hlast]
    congr 1
    · congr 1
      refine List.flatMap_congr fun i hi => swingsAt_append ?_ [c]
      have := List.mem_range'_1.mp hi
      omega
    · rw [List.flatMap_singleton, swingsAt_length h]
  · have hnone : pivotsAt before c = [] := by
      simp [pivotsAt, sides, pivotAt, not_le.mp h]
    have hshort : before.length + 1 - 6 = 0 := by omega
    have hshort' : before.length - 6 = 0 := by omega
    rw [hshort, hshort', hnone, List.append_nil]
    rfl

/-- Both searches find the same pivots. -/
theorem pivots_loop (l : List (Candle × Bool)) :
    (loop [] {} l).pivots = (swingPivots (l.map Prod.fst)).map SwingPivot.toPivot := by
  induction l using List.reverseRecOn with
  | nil => rfl
  | append_singleton l input ih =>
    rw [loop_append, List.nil_append, loop, loop, pivots_step, ih, List.map_append,
      List.map_singleton, swingPivots_concat]

/-! ### Displacement -/

theorem displacement_eq {candles : List Candle} {first i : ℕ} {row : AnatomyRow}
    (hi : first ≤ i) (h : anatomyRow (atr candles) candles first i = some row) :
    ∃ c, candles[i]? = some c ∧ row.endAt = c.endTime ∧
      row.displacement = displaced (priorAtr (atr candles) first (i - first)) c := by
  rw [anatomyRow] at h
  obtain ⟨c, hc, h⟩ := Option.bind_eq_some_iff.mp h
  obtain ⟨toAtr, -, h⟩ := Option.bind_eq_some_iff.mp h
  obtain ⟨body, -, h⟩ := Option.bind_eq_some_iff.mp h
  obtain ⟨upper, -, h⟩ := Option.bind_eq_some_iff.mp h
  obtain ⟨lower, -, h⟩ := Option.bind_eq_some_iff.mp h
  obtain ⟨location, -, h⟩ := Option.bind_eq_some_iff.mp h
  have hrow := Option.some.inj h
  subst hrow
  refine ⟨c, hc, rfl, ?_⟩
  have hprior : (if i > first then ((atr candles)[i - 1]?).join else none) =
      priorAtr (atr candles) first (i - first) := by
    rw [priorAtr]
    by_cases hfirst : i > first
    · rw [if_pos hfirst, if_neg (by omega), show first + (i - first) - 1 = i - 1 by omega]
    · rw [if_neg hfirst, if_pos (by omega)]
  simp only [hprior, displaced]
  cases priorAtr (atr candles) first (i - first) <;> rfl

/-- What a search that can fail has found, entry by entry. -/
theorem getElem?_mapM {α β : Type} {f : α → Option β} {l : List α} {rows : List β}
    (h : l.mapM f = some rows) (k : ℕ) : rows[k]? = (l[k]?).bind f ∧
      (k < l.length → (rows[k]?).isSome) := by
  induction l generalizing rows k with
  | nil =>
    rw [List.mapM_nil] at h
    cases h
    exact ⟨rfl, fun hk => absurd hk (Nat.not_lt_zero k)⟩
  | cons a l ih =>
    rw [List.mapM_cons] at h
    obtain ⟨row, hrow, h⟩ := Option.bind_eq_some_iff.mp h
    obtain ⟨rest, hrest, h⟩ := Option.bind_eq_some_iff.mp h
    cases h
    cases k with
    | zero => exact ⟨hrow.symm, fun _ => rfl⟩
    | succ k =>
      rw [List.getElem?_cons_succ, List.getElem?_cons_succ, List.length_cons, Nat.succ_lt_succ_iff]
      exact ih hrest k

/-- The anatomy has the flags of its candles. -/
theorem anatomy_displacement {frame : Timeframe} {candles : List Candle} {first : ℕ}
    {rows : List AnatomyRow} (h : anatomy frame candles first = some rows) :
    rows.map (fun row => (row.endAt, row.displacement)) =
      ((inputs candles first).drop (max first (candles.length - anatomyCount frame) - first)).map
        fun input => (input.1.endTime, input.2) := by
  rw [anatomy] at h
  generalize hstart : max first (candles.length - anatomyCount frame) = start at h ⊢
  have hfirst : first ≤ start := hstart ▸ le_max_left _ _
  refine List.ext_getElem? fun k => ?_
  obtain ⟨hget, hsome⟩ := getElem?_mapM h k
  rw [List.getElem?_map, List.getElem?_map, List.getElem?_drop, inputs, List.getElem?_mapIdx,
    List.getElem?_drop, show first + (start - first + k) = start + k by omega]
  by_cases hk : k < candles.length - start
  · rw [List.length_range'] at hsome
    obtain ⟨row, hrow⟩ := Option.isSome_iff_exists.mp (hsome hk)
    rw [hrow, List.getElem?_range' hk, Option.bind_some, one_mul] at hget
    obtain ⟨c, hc, hend, hdisplacement⟩ := displacement_eq (by omega) hget.symm
    rw [hrow, hc, show start - first + k = start + k - first by omega]
    simp only [Option.map_some, hend, hdisplacement]
  · have hnone : (List.range' start (candles.length - start))[k]? = none := by
      rw [List.getElem?_eq_none]
      rw [List.length_range']
      omega
    rw [hget, hnone, List.getElem?_eq_none (by omega)]
    rfl

/-! ### Zones -/

/-- What the status of a zone says about the candles since it became available. -/
structure ZoneState (later : List Candle) (z : Zone) : Prop where
  ordered : z.lower ≤ z.upper
  untouched : z.status = .fresh → ∀ b ∈ later, touch b z = false ∧ invalid b z = false
  crossed : z.status = .invalidated → ∃ b ∈ later, invalid b z
  reached : z.status = .filled → ∃ b ∈ later, filled b z

/-- A zone as a candle makes it. -/
structure NewZone (c : Candle) (z : Zone) : Prop where
  ordered : z.lower ≤ z.upper
  status : z.status = .fresh
  available : z.availableAt = c.endTime

theorem NewZone.state {c : Candle} {z : Zone} (h : NewZone c z) : ZoneState [] z where
  ordered := h.ordered
  untouched _ b hb := absurd hb List.not_mem_nil
  crossed hz := by
    rw [h.status] at hz
    cases hz
  reached hz := by
    rw [h.status] at hz
    cases hz

theorem resolved_iff (status : ZoneStatus) :
    status.resolved ↔ status = .filled ∨ status = .invalidated := by
  cases status <;> decide

/-- A candle changes neither the bounds of a zone nor its direction. -/
theorem ageZone_same (c b : Candle) (z : Zone) :
    (ageZone c z).lower = z.lower ∧ (ageZone c z).upper = z.upper ∧
      (ageZone c z).availableAt = z.availableAt ∧ touch b (ageZone c z) = touch b z ∧
      invalid b (ageZone c z) = invalid b z ∧ filled b (ageZone c z) = filled b z := by
  rw [ageZone]
  split <;> exact ⟨rfl, rfl, rfl, rfl, rfl, rfl⟩

theorem status_ageZone (c : Candle) (z : Zone) :
    (ageZone c z).status = if z.status.resolved then z.status else statusAfter c z := by
  rw [ageZone]
  split <;> rfl

theorem statusAfter_fresh {c : Candle} {z : Zone} (h : statusAfter c z = .fresh) :
    z.status = .fresh ∧ touch c z = false ∧ invalid c z = false := by
  rw [statusAfter] at h
  split at h
  · cases h
  · rename_i hinvalid
    split at h
    · cases h
    · split at h
      · cases h
      · rename_i htouch
        exact ⟨h, Bool.eq_false_iff.mpr htouch, Bool.eq_false_iff.mpr hinvalid⟩

/-- A zone that is not resolved becomes so by the candle itself. -/
theorem statusAfter_resolved {c : Candle} {z : Zone} (hz : ¬ z.status.resolved) :
    (statusAfter c z = .invalidated → invalid c z) ∧ (statusAfter c z = .filled → filled c z) := by
  rw [statusAfter]
  split
  · rename_i hinvalid
    exact ⟨fun _ => hinvalid, nofun⟩
  · split
    · rename_i hfilled
      exact ⟨nofun, fun _ => hfilled.2⟩
    · split
      · exact ⟨nofun, nofun⟩
      · exact ⟨fun h => absurd ((resolved_iff _).mpr (.inr h)) hz,
          fun h => absurd ((resolved_iff _).mpr (.inl h)) hz⟩

theorem ZoneState.age {later : List Candle} {z : Zone} (h : ZoneState later z) (c : Candle) :
    ZoneState (later ++ [c]) (ageZone c z) := by
  obtain ⟨hlower, hupper, -⟩ := ageZone_same c c z
  have hsame : ∀ b, touch b (ageZone c z) = touch b z ∧ invalid b (ageZone c z) = invalid b z ∧
      filled b (ageZone c z) = filled b z := fun b => (ageZone_same c b z).2.2.2
  have hkeep : ∀ {p : Candle → Prop}, (∃ b ∈ later, p b) → ∃ b ∈ later ++ [c], p b :=
    fun ⟨b, hb, hp⟩ => ⟨b, List.mem_append_left _ hb, hp⟩
  have hlast : c ∈ later ++ [c] := List.mem_append_right _ (List.mem_singleton_self c)
  by_cases hresolved : z.status.resolved
  · have hstatus : (ageZone c z).status = z.status := by rw [status_ageZone, if_pos hresolved]
    refine ⟨by rw [hlower, hupper]; exact h.ordered, fun hz => ?_, fun hz => ?_, fun hz => ?_⟩
    · rw [hstatus] at hz
      rcases (resolved_iff _).mp hresolved with h' | h' <;> rw [h'] at hz <;> cases hz
    · simp only [hsame]
      exact hkeep (h.crossed (hstatus ▸ hz))
    · simp only [hsame]
      exact hkeep (h.reached (hstatus ▸ hz))
  · have hstatus : (ageZone c z).status = statusAfter c z := by rw [status_ageZone, if_neg hresolved]
    obtain ⟨hinvalid, hfilled⟩ := statusAfter_resolved (c := c) hresolved
    refine ⟨by rw [hlower, hupper]; exact h.ordered, fun hz => ?_, fun hz => ?_, fun hz => ?_⟩
    · rw [hstatus] at hz
      obtain ⟨hfresh, htouch, hinv⟩ := statusAfter_fresh hz
      intro b hb
      simp only [hsame]
      rcases List.mem_append.mp hb with hb | hb
      · exact h.untouched hfresh b hb
      · rw [List.mem_singleton.mp hb]
        exact ⟨htouch, hinv⟩
    · simp only [hsame]
      exact ⟨c, hlast, hinvalid (hstatus ▸ hz)⟩
    · simp only [hsame]
      exact ⟨c, hlast, hfilled (hstatus ▸ hz)⟩

/-- The gap that a candle ends with is a new zone. -/
theorem newZone_gapZone {before : List Candle} {c : Candle} {z : Zone}
    (h : gapZone before c = some z) : NewZone c z := by
  rw [gapZone] at h
  split at h
  · cases h
  · split at h
    · cases h
    · rename_i left _
      split at h
      · rename_i hup
        cases h
        refine ⟨?_, rfl, rfl⟩
        simp only [left.text_high, c.text_low]
        exact le_of_lt hup
      · split at h
        · rename_i hdown
          cases h
          refine ⟨?_, rfl, rfl⟩
          simp only [left.text_low, c.text_high]
          exact le_of_lt hdown
        · cases h

theorem newZone_addOrderBlock {before : List Candle} {c : Candle} {direction : Direction} {s : State}
    {z : Zone} (h : z ∈ (addOrderBlock before c direction s).zones) : z ∈ s.zones ∨ NewZone c z := by
  rw [addOrderBlock] at h
  split at h
  · exact .inl h
  · rename_i origin _
    split at h
    · exact .inl h
    · rcases List.mem_append.mp h with h | h
      · exact .inl h
      · rw [List.mem_singleton.mp h]
        refine .inr ⟨?_, rfl, rfl⟩
        rw [(text_body origin).1, (text_body origin).2]
        exact min_le_max

theorem newZone_sideStep {before : List Candle} {displacement : Bool} {c : Candle} {s : State}
    {side : Side} {z : Zone} (h : z ∈ (sideStep before displacement c s side).zones) :
    z ∈ s.zones ∨ NewZone c z := by
  rw [sideStep] at h
  split at h
  · exact .inl h
  · split at h
    · exact .inl h
    · split at h
      · simp only at h
        split at h
        · rcases newZone_addOrderBlock h with h | h
          · exact .inl h
          · exact .inr h
        · exact .inl h
      · split at h
        · exact .inl h
        · exact .inl h

/-- A zone after a candle has aged, or is new. -/
theorem newZone_step {before : List Candle} {s : State} {input : Candle × Bool} {z : Zone}
    (h : z ∈ (step before s input).zones) :
    (∃ z' ∈ s.zones, z = ageZone input.1 z') ∨ NewZone input.1 z := by
  simp only [step, sides, List.foldl_cons, List.foldl_nil] at h
  rcases List.mem_append.mp h with h | h
  · rcases newZone_sideStep h with h | h
    · rcases newZone_sideStep h with h | h
      · rw [foldl_recordPivot] at h
        obtain ⟨z', hz', rfl⟩ := List.mem_map.mp h
        exact .inl ⟨z', hz', rfl⟩
      · exact .inr h
    · exact .inr h
  · exact .inr (newZone_gapZone (Option.mem_toList.mp h))

/-- The status of each zone is that of the candles after the one that made it. -/
def ZonesState (before : List Candle) (s : State) : Prop :=
  ∀ z ∈ s.zones, ∃ earlier made later, before = earlier ++ made :: later ∧
    made.endTime = z.availableAt ∧ ZoneState later z

theorem zonesState_step {before : List Candle} {s : State} (h : ZonesState before s)
    (input : Candle × Bool) : ZonesState (before ++ [input.1]) (step before s input) := by
  intro z hz
  rcases newZone_step hz with ⟨z', hz', rfl⟩ | hnew
  · obtain ⟨earlier, made, later, hbefore, hmade, hstate⟩ := h z' hz'
    refine ⟨earlier, made, later ++ [input.1], ?_, ?_, hstate.age input.1⟩
    · rw [hbefore, List.append_assoc, List.cons_append]
    · rw [hmade, (ageZone_same input.1 input.1 z').2.2.1]
  · exact ⟨before, input.1, [], rfl, hnew.available.symm, hnew.state⟩

theorem zonesState_structure (candles : List Candle) :
    ZonesState (candles.drop (boundary candles)) (structureOf candles) := by
  have hstart : ZonesState [] {} := fun z hz => absurd hz List.not_mem_nil
  have h := loop_invariant (P := ZonesState) (fun _ _ input h => zonesState_step h input) hstart
    (inputs candles (boundary candles))
  rwa [List.nil_append, map_inputs] at h

/-! ### How deep candles went into a zone -/

theorem context_mono {a b : ℚ} (h : a ≤ b) : context a ≤ context b :=
  HalfEven.keep_mono (by decide) h

theorem context_zero : context 0 = 0 := HalfEven.keep_zero

theorem context_one : context 1 = 1 := by decide +kernel

theorem fraction_zero : fraction 0 = some 0 := by decide +kernel

theorem fraction_one : fraction 1 = some 1 := by decide +kernel

/-- A part of at least the width is all of it. -/
theorem share_eq_one {part width : ℚ} (hwidth : 0 ≤ width) (h : width ≤ part) : share part width = 1 := by
  rw [share]
  split
  · rfl
  · rename_i hne
    have hpos : 0 < width := lt_of_le_of_ne hwidth (Ne.symm hne)
    refine min_eq_left ?_
    rw [div, ← context_one]
    exact context_mono ((one_le_div hpos).mpr h)

theorem sub_mono {a b a' b' : ℚ} (ha : a ≤ a') (hb : b' ≤ b) : sub context a b ≤ sub context a' b' :=
  context_mono (sub_le_sub ha hb)

theorem width_nonneg {z : Zone} (h : z.lower ≤ z.upper) : 0 ≤ sub context z.upper z.lower := by
  rw [← context_zero]
  exact context_mono (sub_nonneg.mpr h)

/-- Candles that all stay out of a zone take nothing of it. -/
theorem depth_eq_zero {z : Zone} {later : List Candle}
    (h : ∀ b ∈ later, touch b z = false ∧ invalid b z = false) : depth z later = 0 := by
  have hout : ∀ b ∈ later, (z.direction = .bullish → z.upper < b.low) ∧
      (z.direction = .bearish → b.high < z.lower) := by
    intro b hb
    obtain ⟨htouch, hinvalid⟩ := h b hb
    simp only [touch, decide_eq_false_iff_not, not_and_or, not_le, ge_iff_le] at htouch
    have hlow := b.low_le_close
    have hhigh := b.close_le_high
    -- a candle on the far side would have closed beyond the zone
    constructor
    · intro hd
      simp only [invalid, hd, decide_eq_false_iff_not, not_lt] at hinvalid
      rcases htouch with h' | h'
      · exact h'
      · linarith
    · intro hd
      simp only [invalid, hd, gt_iff_lt, decide_eq_false_iff_not, not_lt] at hinvalid
      rcases htouch with h' | h'
      · linarith
      · exact h'
  rw [depth]
  cases hd : z.direction with
  | bullish =>
    cases hmin : (later.map Candle.low).min? with
    | none => rfl
    | some deepest =>
      obtain ⟨b, hb, rfl⟩ := List.mem_map.mp (List.min?_mem hmin)
      exact if_neg (not_le.mpr ((hout b hb).1 hd))
  | bearish =>
    cases hmax : (later.map Candle.high).max? with
    | none => rfl
    | some highest =>
      obtain ⟨b, hb, rfl⟩ := List.mem_map.mp (List.max?_mem hmax)
      exact if_neg (not_le.mpr ((hout b hb).2 hd))

/-- A candle that reaches the far bound takes the whole zone. -/
theorem depth_eq_one {z : Zone} {later : List Candle} (hordered : z.lower ≤ z.upper)
    (h : ∃ b ∈ later, filled b z) : depth z later = 1 := by
  obtain ⟨b, hb, hfilled⟩ := h
  have hwidth := width_nonneg hordered
  rw [depth]
  cases hd : z.direction with
  | bullish =>
    simp only [filled, hd, decide_eq_true_eq] at hfilled
    have hmem : b.low ∈ later.map Candle.low := List.mem_map_of_mem hb
    cases hmin : (later.map Candle.low).min? with
    | none =>
      rw [List.min?_eq_none_iff.mp hmin] at hmem
      exact absurd hmem List.not_mem_nil
    | some deepest =>
      have hdeepest : deepest ≤ z.lower := ((List.min?_eq_some_iff.mp hmin).2 _ hmem).trans hfilled
      simp only
      rw [if_pos (hdeepest.trans hordered)]
      exact share_eq_one hwidth (sub_mono le_rfl hdeepest)
  | bearish =>
    simp only [filled, hd, ge_iff_le, decide_eq_true_eq] at hfilled
    have hmem : b.high ∈ later.map Candle.high := List.mem_map_of_mem hb
    cases hmax : (later.map Candle.high).max? with
    | none =>
      rw [List.max?_eq_none_iff.mp hmax] at hmem
      exact absurd hmem List.not_mem_nil
    | some highest =>
      have hhighest : z.upper ≤ highest := hfilled.trans ((List.max?_eq_some_iff.mp hmax).2 _ hmem)
      simp only [ge_iff_le]
      rw [if_pos (hordered.trans hhighest)]
      exact share_eq_one hwidth (sub_mono hhighest le_rfl)

/-- A candle that closes beyond the far bound has reached it. -/
theorem filled_of_invalid {b : Candle} {z : Zone} (h : invalid b z) : filled b z := by
  cases hd : z.direction with
  | bullish =>
    simp only [invalid, filled, hd, decide_eq_true_eq] at h ⊢
    exact b.low_le_close.trans h.le
  | bearish =>
    simp only [invalid, filled, hd, decide_eq_true_eq, gt_iff_lt, ge_iff_le] at h ⊢
    exact h.le.trans b.close_le_high

/-- The candles after a zone became available are those that came after the one that made it. -/
theorem filter_later {earlier later : List Candle} {made : Candle}
    (h : Chronological (earlier ++ made :: later)) :
    (earlier ++ made :: later).filter (fun b => b.endTime.instant > made.endTime.instant) = later := by
  obtain ⟨-, hrest, hacross⟩ := List.pairwise_append.mp h.stops
  obtain ⟨hmade, -⟩ := List.pairwise_cons.mp hrest
  rw [List.filter_append, List.filter_eq_nil_iff.mpr, List.nil_append, List.filter_cons_of_neg,
    List.filter_eq_self.mpr]
  · intro b hb
    exact decide_eq_true (hmade b hb)
  · simp
  · intro b hb
    have := hacross b hb made List.mem_cons_self
    simp only [gt_iff_lt, decide_eq_true_eq, not_lt]
    exact this.le

/-- Status and penetration of a zone. -/
def Agrees (z : Zone) (bars : List Candle) (tick : ℚ) : Prop :=
  (z.status = .fresh → (zoneExtension z bars tick).map ZoneExtension.penetrationFraction = some 0) ∧
  (z.status = .invalidated ∨ (z.status = .filled ∧ z.kind = .fvg) →
    (zoneExtension z bars tick).map ZoneExtension.penetrationFraction = some 1)

theorem penetration_eq {z : Zone} {bars later : List Candle} {tick whole : ℚ}
    (hlater : bars.filter (fun b => b.endTime.instant > z.availableAt.instant) = later)
    (hdepth : fraction (depth z later) = some whole) :
    (zoneExtension z bars tick).map ZoneExtension.penetrationFraction = some whole := by
  rw [zoneExtension]
  simp only [hlater, hdepth]
  rfl

theorem agrees_structure {candles : List Candle} (h : Chronological candles) (tick : ℚ) {z : Zone}
    (hz : z ∈ (structureOf candles).zones) : Agrees z (candles.drop (boundary candles)) tick := by
  obtain ⟨earlier, made, later, hbars, hmade, hstate⟩ := zonesState_structure candles z hz
  have hchronological : Chronological (earlier ++ made :: later) :=
    hbars ▸ h.sublist (List.drop_sublist _ _)
  have hlater : (candles.drop (boundary candles)).filter
      (fun b => b.endTime.instant > z.availableAt.instant) = later := by
    rw [hbars, ← hmade]
    exact filter_later hchronological
  constructor
  · intro hfresh
    refine penetration_eq hlater ?_
    rw [depth_eq_zero (hstate.untouched hfresh), fraction_zero]
  · intro hresolved
    refine penetration_eq hlater ?_
    rw [depth_eq_one hstate.ordered ?_, fraction_one]
    rcases hresolved with hinvalidated | ⟨hfilled, -⟩
    · obtain ⟨b, hb, hinvalid⟩ := hstate.crossed hinvalidated
      exact ⟨b, hb, filled_of_invalid hinvalid⟩
    · exact hstate.reached hfilled

/-- Distances and overlaps do not enter. -/
theorem Agrees.of_same {z z' : Zone} {bars : List Candle} {tick : ℚ} (h : Agrees z bars tick)
    (distanceFromQuote : ℚ) (overlapCount : ℕ)
    (hz' : z' = { z with distanceFromQuote, overlapCount }) : Agrees z' bars tick := by
  subst hz'
  exact h

theorem agrees_zonesAt {candles : List Candle} (h : Chronological candles) (quoteMid tick : ℚ)
    {z : Zone} (hz : z ∈ zonesAt candles quoteMid) :
    Agrees z (candles.drop (boundary candles)) tick := by
  obtain ⟨z', hz', rfl⟩ := List.mem_map.mp hz
  exact (agrees_structure h tick hz').of_same _ _ rfl

/-- The zones that a context shows are zones of the structure. -/
theorem agrees_frameContext {series : CandleSeries} (h : Chronological series.candles)
    (quoteMid tick : ℚ) {z : Zone} (hz : z ∈ (frameContext series quoteMid tick).nearestActiveZones ++
      (frameContext series quoteMid tick).recentResolvedZones) :
    Agrees z (series.candles.drop (boundary series.candles)) tick := by
  rcases List.mem_append.mp hz with hz | hz
  · have hranked := List.mem_mergeSort.mp (List.mem_of_mem_take hz)
    obtain ⟨i, hi, rfl⟩ := List.mem_mapIdx.mp hranked
    exact (agrees_zonesAt h quoteMid tick (List.mem_of_mem_filter (List.getElem_mem hi))).of_same _ _ rfl
  · have hresolved := List.mem_mergeSort.mp (List.drop_subset _ _ hz)
    exact agrees_zonesAt h quoteMid tick (List.mem_of_mem_filter hresolved)

/-- The level map agrees with the structure that it extends; of the zones it does for candles in the
    order of time, as accepted series have them. -/
theorem levels_agree (series : CandleSeries) (quoteMid tick : ℚ) :
    (swingPivots (series.candles.drop (segmentStart series.candles))).map SwingPivot.toPivot =
      (structureOf series.candles).pivots ∧
    (∀ rows, anatomy series.timeframe series.candles (segmentStart series.candles) = some rows →
      rows.map (fun row => (row.endAt, row.displacement)) =
        ((inputs series.candles (boundary series.candles)).drop
          (max (boundary series.candles) (series.candles.length - anatomyCount series.timeframe) -
            boundary series.candles)).map fun input => (input.1.endTime, input.2)) ∧
    (Chronological series.candles → ∀ z ∈ zonesAt series.candles quoteMid ++
        ((frameContext series quoteMid tick).nearestActiveZones ++
          (frameContext series quoteMid tick).recentResolvedZones),
      Agrees z (series.candles.drop (segmentStart series.candles)) tick) := by
  refine ⟨?_, fun rows h => anatomy_displacement h, fun h z hz => ?_⟩
  · rw [structureOf, pivots_loop, map_inputs, segmentStart_eq]
  · rcases List.mem_append.mp hz with hz | hz
    · exact agrees_zonesAt h quoteMid tick hz
    · exact agrees_frameContext h quoteMid tick hz

namespace LevelSample

/-- Minute by minute, three candles that leave a gap between the first and the last. -/
def first : Candle where
  startTime := ⟨0, 0⟩
  endTime := ⟨60000000, 0⟩
  open' := 100
  high := 103
  low := 99
  close := 102
  complete := true
  qualityFlags := []
  follows := by decide
  positive := by decide +kernel
  highest := by decide +kernel
  lowest := by decide +kernel
  flags := no_flags

def second : Candle where
  startTime := ⟨60000000, 0⟩
  endTime := ⟨120000000, 0⟩
  open' := 102
  high := 106
  low := 102
  close := 106
  complete := true
  qualityFlags := []
  follows := by decide
  positive := by decide +kernel
  highest := by decide +kernel
  lowest := by decide +kernel
  flags := no_flags

def third : Candle where
  startTime := ⟨120000000, 0⟩
  endTime := ⟨180000000, 0⟩
  open' := 106
  high := 109
  low := 105
  close := 108
  complete := true
  qualityFlags := []
  follows := by decide
  positive := by decide +kernel
  highest := by decide +kernel
  lowest := by decide +kernel
  flags := no_flags

def series : CandleSeries := ⟨.m1, [first, second, third], by decide, by decide⟩

end LevelSample

open LevelSample in
/-- The gap is a fresh zone, and the series is one that is accepted. -/
theorem levels_agree_gap :
    (zonesAt series.candles 108).map Zone.status = [.fresh] ∧
    ∀ z ∈ zonesAt series.candles 108,
      Agrees z (series.candles.drop (segmentStart series.candles)) (1 / 100) := by
  have haccepted : qualityReasons 3 180000000 series = [] := by decide +kernel
  refine ⟨by decide +kernel, fun z hz => ?_⟩
  exact (levels_agree series 108 (1 / 100)).2.2 (chronological_of_accepted haccepted) z
    (List.mem_append_left _ hz)

end ScalpingBot.Technical
