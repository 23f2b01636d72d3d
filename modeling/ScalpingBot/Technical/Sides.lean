import ScalpingBot.Technical.StructureLaws

/-! The two sides of a candle. Of two latest pivots that have not been broken the last close lies
    between, so that a candle breaks at most one, and it does not matter which side is looked at
    first. -/

namespace ScalpingBot.Technical

/-! ### One side -/

/-- The candle breaks the latest pivot of a side. -/
def crossed (c : Candle) (s : State) (side : Side) : Bool :=
  match s.latest side with
  | none => false
  | some pivot => (side, pivot.candleAt) ∉ s.broken ∧ crosses side c pivot.price

/-- What a side adds to the events. -/
def sideEvents (displacement : Bool) (c : Candle) (s : State) (side : Side) : List StructureEvent :=
  match s.latest side with
  | none => []
  | some pivot =>
    if (side, pivot.candleAt) ∈ s.broken then []
    else if crosses side c pivot.price then
      [⟨breakKind s.bias (breakDirection side), breakDirection side, pivot.price, pivot.candleAt,
        c.endTime, displacement⟩]
    else if sweeps side c pivot.price then
      [⟨.sweep, sweepDirection side, pivot.price, pivot.candleAt, c.endTime, displacement⟩]
    else []

variable {before : List Candle} {displacement : Bool} {c : Candle} {s : State} {side : Side}

theorem events_addOrderBlock (before : List Candle) (c : Candle) (direction : Direction) (s : State) :
    (addOrderBlock before c direction s).events = s.events ∧
      (addOrderBlock before c direction s).latest = s.latest ∧
      (addOrderBlock before c direction s).broken = s.broken ∧
      (addOrderBlock before c direction s).pivots = s.pivots := by
  rw [addOrderBlock]
  split
  · exact ⟨rfl, rfl, rfl, rfl⟩
  · split <;> exact ⟨rfl, rfl, rfl, rfl⟩

/-- Zones do not depend on the events. -/
theorem addOrderBlock_withEvents (before : List Candle) (c : Candle) (direction : Direction)
    (s : State) (events : List StructureEvent) :
    addOrderBlock before c direction { s with events } =
      { addOrderBlock before c direction s with events } := by
  rw [addOrderBlock, addOrderBlock]
  split
  · rfl
  · split <;> rfl

/-- A side adds its events whatever came before them. -/
theorem sideStep_withEvents (before : List Candle) (displacement : Bool) (c : Candle) (s : State)
    (side : Side) (events : List StructureEvent) :
    sideStep before displacement c { s with events } side =
      { sideStep before displacement c s side with
        events := events ++ sideEvents displacement c s side } := by
  cases hlatest : s.latest side with
  | none => simp only [sideStep, sideEvents, hlatest, List.append_nil]
  | some pivot =>
    by_cases hbroken : (side, pivot.candleAt) ∈ s.broken
    · simp only [sideStep, sideEvents, hlatest, if_pos hbroken, List.append_nil]
    · cases hcross : crosses side c pivot.price with
      | true =>
        cases displacement with
        | true =>
          simp only [sideStep, sideEvents, hlatest, if_neg hbroken, hcross, if_true]
          rw [addOrderBlock_withEvents before c _ { s with
            events := s.events ++ _
            broken := _
            bias := _ }]
        | false =>
          simp only [sideStep, sideEvents, hlatest, if_neg hbroken, hcross, if_true, Bool.false_eq_true,
            if_false]
      | false =>
        cases hsweep : sweeps side c pivot.price <;>
          simp only [sideStep, sideEvents, hlatest, if_neg hbroken, hcross, hsweep, Bool.false_eq_true,
            if_false, if_true, List.append_nil]

theorem events_sideStep (before : List Candle) (displacement : Bool) (c : Candle) (s : State)
    (side : Side) : (sideStep before displacement c s side).events =
      s.events ++ sideEvents displacement c s side := by
  have h := sideStep_withEvents before displacement c s side s.events
  exact congrArg State.events h

theorem latest_sideStep : (sideStep before displacement c s side).latest = s.latest := by
  rcases sideStep_cases before displacement c s side with heq | ⟨pivot, origins, zones, -, -, heq⟩ |
    ⟨pivot, heq⟩ <;> rw [heq]

/-- A side that is not broken adds its events and nothing else. -/
theorem sideStep_of_not_crossed (h : crossed c s side = false) :
    sideStep before displacement c s side =
      { s with events := s.events ++ sideEvents displacement c s side } := by
  rw [crossed] at h
  cases hlatest : s.latest side with
  | none => simp only [sideStep, sideEvents, hlatest, List.append_nil]
  | some pivot =>
    simp only [hlatest] at h
    by_cases hbroken : (side, pivot.candleAt) ∈ s.broken
    · simp only [sideStep, sideEvents, hlatest, if_pos hbroken, List.append_nil]
    · have hcross : crosses side c pivot.price = false := by simpa [hbroken] using h
      cases hsweep : sweeps side c pivot.price <;>
        simp only [sideStep, sideEvents, hlatest, if_neg hbroken, hcross, hsweep, Bool.false_eq_true,
          if_false, if_true, List.append_nil]

/-- A side marks only its own pivots. -/
theorem mem_broken_sideStep {other : Side} (h : other ≠ side) {t : Timestamp} :
    (other, t) ∈ (sideStep before displacement c s side).broken ↔ (other, t) ∈ s.broken := by
  rcases sideStep_cases before displacement c s side with heq | ⟨pivot, origins, zones, -, -, heq⟩ |
    ⟨pivot, heq⟩
  · rw [heq]
  · rw [heq, List.mem_cons]
    simp [h]
  · rw [heq]

/-- Once a side has been looked at, its latest pivot is broken or stands against the close. -/
theorem not_crossed_self : crossed c (sideStep before displacement c s side) side = false := by
  cases hcross : crossed c s side with
  | false =>
    rw [sideStep_of_not_crossed hcross]
    exact hcross
  | true =>
    rw [crossed] at hcross ⊢
    rw [latest_sideStep]
    cases hlatest : s.latest side with
    | none => rfl
    | some pivot =>
      simp only [hlatest, Bool.decide_and, Bool.and_eq_true, decide_eq_true_eq, decide_not] at hcross
      obtain ⟨hbroken, hcrosses⟩ := hcross
      have hmem : (side, pivot.candleAt) ∈ (sideStep before displacement c s side).broken := by
        cases displacement <;>
          simp only [sideStep, hlatest, if_neg (of_decide_eq_true (by simpa using hbroken) :
            (side, pivot.candleAt) ∉ s.broken), hcrosses, if_true, Bool.false_eq_true, if_false,
            (events_addOrderBlock _ _ _ _).2.2.1, List.mem_cons_self]
      simp [hmem]

theorem crossed_sideStep {other : Side} (h : other ≠ side) (d : Candle) :
    crossed d (sideStep before displacement c s side) other = crossed d s other := by
  rw [crossed, crossed, latest_sideStep]
  cases s.latest other with
  | none => rfl
  | some pivot => simp only [mem_broken_sideStep h]

/-- The events of a side that is not broken are the same after the other side. -/
theorem sideEvents_sideStep {other : Side} (hne : other ≠ side) (h : crossed c s other = false) :
    sideEvents displacement c (sideStep before displacement c s side) other =
      sideEvents displacement c s other := by
  rw [sideEvents, sideEvents, latest_sideStep]
  rw [crossed] at h
  cases hlatest : s.latest other with
  | none => rfl
  | some pivot =>
    simp only [hlatest] at h
    simp only [mem_broken_sideStep hne]
    by_cases hbroken : (other, pivot.candleAt) ∈ s.broken
    · rw [if_pos hbroken, if_pos hbroken]
    · have hcross : crosses other c pivot.price = false := by simpa [hbroken] using h
      simp only [if_neg hbroken, hcross, Bool.false_eq_true, if_false]

/-- A side that is not broken can be looked at before or after the other: only the order of the events
    differs. -/
theorem sideStep_comm (before : List Candle) (displacement : Bool) {other : Side} (hne : other ≠ side)
    (h : crossed c s other = false) :
    sideStep before displacement c (sideStep before displacement c s side) other =
      { sideStep before displacement c s side with
        events := s.events ++ sideEvents displacement c s side ++ sideEvents displacement c s other } ∧
    sideStep before displacement c (sideStep before displacement c s other) side =
      { sideStep before displacement c s side with
        events := s.events ++ sideEvents displacement c s other ++ sideEvents displacement c s side } := by
  constructor
  · rw [sideStep_of_not_crossed ((crossed_sideStep hne c).trans h), sideEvents_sideStep hne h,
      events_sideStep]
  · rw [sideStep_of_not_crossed h, sideStep_withEvents]

theorem availableAt_sideEvents {e : StructureEvent} (h : e ∈ sideEvents displacement c s side) :
    e.availableAt = c.endTime := by
  rw [sideEvents] at h
  split at h
  · cases h
  · split at h
    · cases h
    · split at h
      · rw [List.mem_singleton.mp h]
      · split at h
        · rw [List.mem_singleton.mp h]
        · cases h

/-- When at most one side is broken, both orders lead to the same variables and events. -/
theorem sides_comm (before : List Candle) (displacement : Bool)
    (h : ¬ (crossed c s .high ∧ crossed c s .low)) : ∃ core high low,
    sideStep before displacement c (sideStep before displacement c s .high) .low =
      { (core : State) with events := s.events ++ (high ++ low) } ∧
    sideStep before displacement c (sideStep before displacement c s .low) .high =
      { core with events := s.events ++ (low ++ high) } ∧
    ∀ e ∈ high ++ low, e.availableAt = c.endTime := by
  have havailable : ∀ e ∈ sideEvents displacement c s .high ++ sideEvents displacement c s .low,
      e.availableAt = c.endTime :=
    List.forall_mem_append.mpr ⟨fun e he => availableAt_sideEvents he,
      fun e he => availableAt_sideEvents he⟩
  cases hlow : crossed c s .low with
  | false =>
    obtain ⟨h1, h2⟩ := sideStep_comm before displacement (by decide : Side.low ≠ .high) hlow
    exact ⟨_, _, _, by rw [h1, List.append_assoc], by rw [h2, List.append_assoc], havailable⟩
  | true =>
    have hhigh : crossed c s .high = false := by
      cases hhigh : crossed c s .high with
      | false => rfl
      | true => exact absurd ⟨hhigh, hlow⟩ h
    obtain ⟨h1, h2⟩ := sideStep_comm before displacement (by decide : Side.high ≠ .low) hhigh
    exact ⟨_, _, _, by rw [h2, List.append_assoc], by rw [h1, List.append_assoc], havailable⟩

/-! ### Between the latest pivots -/

/-- The latest pivots that have not been broken stand against the last close. -/
def Settled (before : List Candle) (s : State) : Prop :=
  ∀ side pivot, s.latest side = some pivot → (side, pivot.candleAt) ∉ s.broken →
    ∃ d, before.getLast? = some d ∧ crosses side d pivot.price = false

/-- The price of a pivot that a candle confirms lies beyond its close. -/
theorem not_crosses_pivotAt {p : Pivot} (h : pivotAt before c side = some p) :
    crosses side c p.price = false := by
  rw [pivotAt] at h
  split at h
  · cases h
  · rename_i hlen
    simp only at h
    have hwindow : (before ++ [c]).drop (before.length - 6) = before.drop (before.length - 6) ++ [c] :=
      List.drop_append_of_le_length (by omega)
    rw [hwindow] at h
    have hcount : (before.drop (before.length - 6)).length = 6 := by
      rw [List.length_drop]
      omega
    split at h
    · cases h
    · rename_i center hcenter
      split at h
      · rename_i hall
        cases h
        have hpeer : beyond side center c := by
          refine List.all_eq_true.mp hall c ?_
          rw [List.eraseIdx_append_of_lt_length (by omega)]
          exact List.mem_append_right _ (List.mem_singleton_self c)
        cases side with
        | high =>
          simp only [beyond, decide_eq_true_eq] at hpeer
          simp only [crosses, priceOf, center.text_high, decide_eq_false_iff_not, not_lt]
          exact c.close_le_high.trans hpeer.le
        | low =>
          simp only [beyond, decide_eq_true_eq] at hpeer
          simp only [crosses, priceOf, center.text_low, decide_eq_false_iff_not, not_lt]
          exact hpeer.le.trans c.low_le_close
      · cases h

theorem latest_foldl_recordPivot (s : State) (l : List Pivot) (side : Side) :
    (l.foldl recordPivot s).latest side = ((l.reverse.find? fun p => p.side = side).or
      (s.latest side)) := by
  induction l using List.reverseRecOn with
  | nil => rfl
  | append_singleton l p ih =>
    rw [List.foldl_append, List.foldl_cons, List.foldl_nil, List.reverse_append,
      List.reverse_singleton, List.singleton_append, List.find?_cons]
    by_cases hside : p.side = side
    · subst hside
      simp only [recordPivot, Function.update_self, decide_true, Option.some_or]
    · simp only [recordPivot, Function.update_of_ne (Ne.symm hside), hside, decide_false, ih]

/-- After the pivots of a candle the latest one of a side is the one it confirmed, or the one before. -/
theorem latest_pivotsAt (before : List Candle) (c : Candle) (s : State) (side : Side) :
    ((pivotsAt before c).foldl recordPivot s).latest side =
      (pivotAt before c side).or (s.latest side) := by
  rw [latest_foldl_recordPivot]
  congr 1
  rw [pivotsAt, sides]
  cases hhigh : pivotAt before c .high with
  | none =>
    cases hlow : pivotAt before c .low with
    | none => cases side <;> simp [hhigh, hlow]
    | some p =>
      have hp := (pivotAt_spec hlow).1
      cases side <;> simp [hhigh, hlow, hp]
  | some q =>
    have hq := (pivotAt_spec hhigh).1
    cases hlow : pivotAt before c .low with
    | none => cases side <;> simp [hhigh, hlow, hq]
    | some p =>
      have hp := (pivotAt_spec hlow).1
      cases side <;> simp [hhigh, hlow, hp, hq]

/-- A candle breaks at most one of its sides. -/
theorem not_both_crossed (h : Settled before s) :
    ¬ (crossed c ((pivotsAt before c).foldl recordPivot s) .high ∧
      crossed c ((pivotsAt before c).foldl recordPivot s) .low) := by
  have hold : ∀ side, crossed c ((pivotsAt before c).foldl recordPivot s) side →
      ∃ (pivot : Pivot) (d : Candle), before.getLast? = some d ∧
        crosses side d pivot.price = false ∧ crosses side c pivot.price := by
    intro side hside
    rw [crossed, latest_pivotsAt] at hside
    cases hnew : pivotAt before c side with
    | some p =>
      rw [hnew] at hside
      simp [not_crosses_pivotAt hnew] at hside
    | none =>
      rw [hnew, Option.none_or] at hside
      cases hlatest : s.latest side with
      | none => simp [hlatest] at hside
      | some pivot =>
        rw [foldl_recordPivot] at hside
        simp only [hlatest, Bool.decide_and, Bool.and_eq_true, decide_eq_true_eq] at hside
        obtain ⟨d, hd, hcross⟩ := h side pivot hlatest hside.1
        exact ⟨pivot, d, hd, hcross, hside.2⟩
  rintro ⟨hhigh, hlow⟩
  obtain ⟨p, d, hd, hp, hpc⟩ := hold .high hhigh
  obtain ⟨q, e, he, hq, hqc⟩ := hold .low hlow
  have hde : d = e := Option.some.inj (hd.symm.trans he)
  subst hde
  simp only [crosses, decide_eq_false_iff_not, not_lt, decide_eq_true_eq] at hp hpc hq hqc
  linarith

/-- A candle leaves its latest pivots settled. -/
theorem settled_step (before : List Candle) (s : State) (input : Candle × Bool) :
    Settled (before ++ [input.1]) (step before s input) := by
  have hnot : ∀ side, crossed input.1 (step before s input) side = false := by
    intro side
    simp only [step, sides, List.foldl_cons, List.foldl_nil]
    cases side with
    | low => exact not_crossed_self
    | high => exact (crossed_sideStep (by decide) input.1).trans not_crossed_self
  intro side pivot hlatest hbroken
  refine ⟨input.1, List.getLast?_concat, ?_⟩
  have hside := hnot side
  rw [crossed, hlatest] at hside
  simpa [hbroken] using hside

theorem settled_start : Settled [] {} := by
  intro side pivot h
  cases h

end ScalpingBot.Technical
