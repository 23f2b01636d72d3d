import ScalpingBot.Technical.StructureLaws

/-! The structure of a frame whose prices are reflected: highs and lows change places, and so do the
    directions. A candle looks at its sides one after the other, so its entries may change their order;
    that it never breaks both sides is what keeps the bias out of it. -/

namespace ScalpingBot.Technical

open Indicators (sub mul div)
open Candle (text_high text_low)

/-! ### Reflected entries -/

def Side.other : Side → Side
  | .high => .low
  | .low => .high

def Direction.other : Direction → Direction
  | .bullish => .bearish
  | .bearish => .bullish

@[simp] theorem Side.other_other (side : Side) : side.other.other = side := by cases side <;> rfl

@[simp] theorem Direction.other_other (direction : Direction) : direction.other.other = direction := by
  cases direction <;> rfl

theorem Side.other_ne (side : Side) : side.other ≠ side := by cases side <;> nofun

@[simp] theorem breakDirection_other (side : Side) :
    breakDirection side.other = (breakDirection side).other := by cases side <;> rfl

@[simp] theorem sweepDirection_other (side : Side) :
    sweepDirection side.other = (sweepDirection side).other := by cases side <;> rfl

/-- A candle with the prices of another, each subtracted from a total. -/
structure Reflects (total : ℚ) (c c' : Candle) : Prop where
  endTime : c'.endTime = c.endTime
  flags : c'.qualityFlags = c.qualityFlags
  open' : c'.open' = total - c.open'
  high : c'.high = total - c.low
  low : c'.low = total - c.high
  close : c'.close = total - c.close

def Pivot.reflect (total : ℚ) (p : Pivot) : Pivot :=
  { p with side := p.side.other, price := total - p.price }

def StructureEvent.reflect (total : ℚ) (e : StructureEvent) : StructureEvent :=
  { e with direction := e.direction.other, level := total - e.level }

def Zone.reflect (total : ℚ) (z : Zone) : Zone :=
  { z with direction := z.direction.other, lower := total - z.upper, upper := total - z.lower }

/-- Lists that are images of each other up to the order of the entries of one time. -/
inductive SameByTime {α β τ : Type} (f : α → β) (time : α → τ) : List α → List β → Prop where
  | nil : SameByTime f time [] []
  | append {l g : List α} {l' g' : List β} {t : τ} : SameByTime f time l l' → (∀ a ∈ g, time a = t) →
      (g.map f).Perm g' → SameByTime f time (l ++ g) (l' ++ g')

variable {total : ℚ} {c c' : Candle}

/-! ### One candle -/

theorem crosses_reflect (h : Reflects total c c') (side : Side) (level : ℚ) :
    crosses side.other c' (total - level) = crosses side c level := by
  cases side <;> simp [crosses, Side.other, h.close]

theorem sweeps_reflect (h : Reflects total c c') (side : Side) (level : ℚ) :
    sweeps side.other c' (total - level) = sweeps side c level := by
  cases side <;> simp [sweeps, Side.other, h.close, h.high, h.low]

theorem beyond_reflect {d d' : Candle} (h : Reflects total c c') (h' : Reflects total d d')
    (side : Side) : beyond side.other c' d' = beyond side c d := by
  cases side <;> simp [beyond, Side.other, h.high, h.low, h'.high, h'.low]

theorem opposite_reflect (h : Reflects total c c') (direction : Direction) :
    opposite direction.other c' = opposite direction c := by
  cases direction <;> simp [opposite, Direction.other, h.close, h.open']

theorem text_priceOf_reflect (h : Reflects total c c') (side : Side) :
    text (priceOf side.other c') = total - text (priceOf side c) := by
  cases side
  · rw [Side.other, priceOf, priceOf, c'.text_low, c.text_high, h.low]
  · rw [Side.other, priceOf, priceOf, c'.text_high, c.text_low, h.high]

theorem invalid_reflect (h : Reflects total c c') (z : Zone) :
    invalid c' (z.reflect total) = invalid c z := by
  rcases hd : z.direction <;> simp [invalid, Zone.reflect, Direction.other, hd, h.close]

theorem touch_reflect (h : Reflects total c c') (z : Zone) :
    touch c' (z.reflect total) = touch c z := by
  simp only [touch, Zone.reflect, h.high, h.low, ge_iff_le, sub_le_sub_iff_left, and_comm]

theorem filled_reflect (h : Reflects total c c') (z : Zone) :
    filled c' (z.reflect total) = filled c z := by
  rcases hd : z.direction <;>
    simp only [filled, Zone.reflect, Direction.other, hd, h.high, h.low, ge_iff_le, sub_le_sub_iff_left]

theorem ageZone_reflect (h : Reflects total c c') (z : Zone) :
    ageZone c' (z.reflect total) = (ageZone c z).reflect total := by
  have hstatus : statusAfter c' (z.reflect total) = statusAfter c z := by
    rw [statusAfter, statusAfter, invalid_reflect h, filled_reflect h, touch_reflect h]
    rfl
  rw [ageZone, ageZone, hstatus, touch_reflect h, h.endTime]
  cases hz : z.status.resolved <;> simp [Zone.reflect, hz]

/-! ### The candles before it -/

variable {reflect : Candle → Candle} {before : List Candle}

theorem gapZone_reflect (h : Reflects total c c') (hbefore : ∀ d ∈ before, Reflects total d (reflect d)) :
    gapZone (before.map reflect) c' = (gapZone before c).map (Zone.reflect total) := by
  rw [gapZone, gapZone, List.length_map]
  split
  · rfl
  · rw [List.getElem?_map]
    cases hleft : before[before.length - 2]? with
    | none => rfl
    | some left =>
      have hl := hbefore left (List.mem_of_getElem? hleft)
      have hup : c'.low > (reflect left).high ↔ c.high < left.low := by
        rw [h.low, hl.high]
        exact sub_lt_sub_iff_left total
      have hdown : c'.high < (reflect left).low ↔ c.low > left.high := by
        rw [h.high, hl.low]
        exact sub_lt_sub_iff_left total
      have hnot : ¬ (c.low > left.high ∧ c.high < left.low) := by
        rintro ⟨h1, h2⟩
        have := c.low_le_high
        have := left.low_le_high
        linarith
      simp only [Option.map_some, text_low, text_high]
      by_cases h1 : c.low > left.high
      · rw [if_neg fun h2 => hnot ⟨h1, hup.mp h2⟩, if_pos (hdown.mpr h1), if_pos h1]
        simp only [Option.map_some, Zone.reflect, Direction.other, h.high, hl.low, h.endTime, hl.endTime]
      · rw [if_neg h1]
        by_cases h2 : c.high < left.low
        · rw [if_pos (hup.mpr h2), if_pos h2]
          simp only [Option.map_some, Zone.reflect, Direction.other, h.low, hl.high, h.endTime, hl.endTime]
        · rw [if_neg fun h3 => h2 (hup.mp h3), if_neg fun h3 => h1 (hdown.mp h3), if_neg h2]
          rfl

theorem pivotAt_reflect (h : Reflects total c (reflect c))
    (hbefore : ∀ d ∈ before, Reflects total d (reflect d)) (side : Side) :
    pivotAt (before.map reflect) (reflect c) side.other =
      (pivotAt before c side).map (Pivot.reflect total) := by
  have hwindow : before.map reflect ++ [reflect c] = (before ++ [c]).map reflect := by
    rw [List.map_append, List.map_singleton]
  rw [pivotAt, pivotAt, List.length_map, hwindow, ← List.map_drop]
  split
  · rfl
  · have hall : ∀ d ∈ (before ++ [c]).drop (before.length - 6), Reflects total d (reflect d) := by
      intro d hd
      rcases List.mem_append.mp (List.mem_of_mem_drop hd) with hd | hd
      · exact hbefore d hd
      · exact List.mem_singleton.mp hd ▸ h
    generalize (before ++ [c]).drop (before.length - 6) = window at hall ⊢
    simp only [List.getElem?_map, List.eraseIdx_map]
    cases hcenter : window[3]? with
    | none => rfl
    | some center =>
      have hc := hall center (List.mem_of_getElem? hcenter)
      have hpeers : ((window.eraseIdx 3).map reflect).all (beyond side.other (reflect center)) =
          (window.eraseIdx 3).all (beyond side center) := by
        rw [List.all_map, Bool.eq_iff_iff, List.all_eq_true, List.all_eq_true]
        refine forall₂_congr fun d hd => ?_
        rw [Function.comp, beyond_reflect hc (hall d (List.mem_of_mem_eraseIdx hd))]
      simp only [Option.map_some, hpeers, text_priceOf_reflect hc, hc.endTime, h.endTime]
      split <;> rfl

theorem originOf_reflect (hbefore : ∀ d ∈ before, Reflects total d (reflect d))
    (direction : Direction) :
    originOf (before.map reflect) direction.other = (originOf before direction).map reflect := by
  rw [originOf, originOf, List.length_map, ← List.map_drop, ← List.map_reverse, List.find?_map]
  congr 1
  have hcongr : ∀ l : List Candle, (∀ d ∈ l, Reflects total d (reflect d)) →
      l.find? (opposite direction.other ∘ reflect) = l.find? (opposite direction) := by
    intro l
    induction l with
    | nil => exact fun _ => rfl
    | cons d l ih =>
      intro hl
      rw [List.find?_cons, List.find?_cons, Function.comp, opposite_reflect (hl d List.mem_cons_self),
        ih fun e he => hl e (List.mem_cons_of_mem d he)]
  exact hcongr _ fun d hd => hbefore d (List.mem_of_mem_drop (List.mem_reverse.mp hd))

end ScalpingBot.Technical
