import Mathlib.Algebra.BigOperators.Group.List.Basic
import Mathlib.Tactic.FieldSimp
import Mathlib.Tactic.Linarith
import Mathlib.Tactic.Positivity
import Mathlib.Tactic.Ring
import ScalpingBot.Indicators.Core

/-! Which indicators look ahead. All but `adx` are put together from machines that read the bars in
    order; `adx` starts with the first values that are available, wherever they are. -/

namespace ScalpingBot.Indicators

open Causal

section

variable (round : ℚ → ℚ)

/-! ### The indicators that read in order -/

theorem isCausal_emaValues (period : ℕ) : IsCausal (emaValues round period) :=
  isCausal_started _ _ rfl fun _ _ => rfl

theorem isCausal_trueRanges : IsCausal (trueRanges round) :=
  isCausal_started _ _ rfl fun _ _ => rfl

theorem isCausal_directionalMovements : IsCausal (directionalMovements round) :=
  isCausal_started _ _ rfl fun _ _ => rfl

theorem wilderSeed_take (period : ℕ) (values : List ℚ) :
    wilderSeed round period (values.take period) = wilderSeed round period values := by
  rw [wilderSeed, wilderSeed, List.take_take, Nat.min_self]

theorem isCausal_wilderValues {period : ℕ} (hperiod : 1 ≤ period) :
    IsCausal (wilderValues round period) := by
  obtain ⟨k, rfl⟩ := Nat.exists_eq_add_of_le' hperiod
  refine isCausal_delayed (wilderStep round (k + 1))
    (fun current value => some (wilderStep round (k + 1) current value))
    (fun seen => some (wilderSeed round (k + 1) seen)) (wilderSeed round (k + 1)) (k := k) ?_ ?_
  · intro l hl
    rw [wilderValues, if_pos (by omega)]
  · intro l hl
    rw [wilderValues, if_neg (by omega), wilderSeed_take]
    rfl

/-- The averages of the moves, as `rsi_wilder` turns them into its values. -/
def rsiOfMoves (period : ℕ) (moves : List (ℚ × ℚ)) : List (Option ℚ) :=
  if moves.length < period then List.replicate moves.length none
  else
    let average := (wilderSeed round period (moves.map Prod.fst),
      wilderSeed round period (moves.map Prod.snd))
    List.replicate (period - 1) none ++ rsiOut round average ::
      transduce (rsiStep round period) (fun average move => rsiOut round (rsiStep round period average
        move)) average (moves.drop period)

theorem rsiValues_cons {period : ℕ} (hperiod : 1 ≤ period) (first : ℚ) (rest : List ℚ) :
    rsiValues round period (first :: rest)
      = none :: rsiOfMoves round period (moves round (first :: rest)) := by
  obtain ⟨k, rfl⟩ := Nat.exists_eq_add_of_le' hperiod
  rw [rsiValues, rsiOfMoves]
  have hlen : (moves round (first :: rest)).length = rest.length := length_transduce _ _ _ _
  rw [hlen, List.length_cons]
  by_cases hshort : rest.length < k + 1
  · rw [if_pos hshort, if_pos (by omega)]
    rfl
  · rw [if_neg hshort, if_neg (by omega)]
    rfl

theorem isCausal_rsiOfMoves {period : ℕ} (hperiod : 1 ≤ period) :
    IsCausal (rsiOfMoves round period) := by
  obtain ⟨k, rfl⟩ := Nat.exists_eq_add_of_le' hperiod
  have hseed : ∀ (f : ℚ × ℚ → ℚ) (l : List (ℚ × ℚ)),
      wilderSeed round (k + 1) ((l.take (k + 1)).map f) = wilderSeed round (k + 1) (l.map f) := by
    intro f l
    rw [List.map_take, wilderSeed_take]
  refine isCausal_delayed (rsiStep round (k + 1))
    (fun average move => rsiOut round (rsiStep round (k + 1) average move)) (k := k)
    (fun seen => rsiOut round (wilderSeed round (k + 1) (seen.map Prod.fst),
      wilderSeed round (k + 1) (seen.map Prod.snd)))
    (fun seen => (wilderSeed round (k + 1) (seen.map Prod.fst),
      wilderSeed round (k + 1) (seen.map Prod.snd))) ?_ ?_
  · intro l hl
    rw [rsiOfMoves, if_pos (by omega)]
  · intro l hl
    rw [rsiOfMoves, if_neg (by omega), hseed, hseed]
    rfl

theorem isCausal_rsiValues {period : ℕ} (hperiod : 1 ≤ period) :
    IsCausal (rsiValues round period) := by
  refine isCausal_shifted (b := none)
    (g := fun first rest => rsiOfMoves round period (moves round (first :: rest))) rfl
    (rsiValues_cons round hperiod) fun first => ?_
  exact (isCausal_rsiOfMoves round hperiod).comp (isCausal_transduce _ _ first)

theorem isCausal_map {α β : Type} (f : α → β) : IsCausal (List.map f) := fun _ _ => List.map_take

theorem isCausal_dxValues {period : ℕ} (hperiod : 1 ≤ period) :
    IsCausal (dxValues round period) := by
  have hwilder := isCausal_wilderValues round hperiod
  have hmovements := isCausal_directionalMovements round
  have hplus := hwilder.comp ((isCausal_map Prod.fst).comp hmovements)
  have hminus := hwilder.comp ((isCausal_map Prod.snd).comp hmovements)
  exact (hwilder.comp (isCausal_trueRanges round)).zipWith (dxEntry round)
    (hplus.zipWith Prod.mk hminus)

/-! ### The average of `dx` -/

theorem available_append {period : ℕ} {a : List (Option ℚ)} (b : List (Option ℚ))
    (h : period - 1 ≤ a.length) :
    available period (a ++ b) = available period a ++ b.filterMap id := by
  rw [available, List.drop_append_of_le_length h, List.filterMap_append]
  rfl

theorem averageDx_long {period : ℕ} {dx : List (Option ℚ)}
    (h : period ≤ (available period dx).length) :
    averageDx round period dx = List.replicate (2 * period - 2) none ++
      some (wilderSeed round period (available period dx)) ::
        transduce (adxNext round period) (adxOut round period)
          (wilderSeed round period (available period dx)) (dx.drop (2 * period - 1)) := by
  rw [averageDx, if_neg (not_lt.mpr h)]

/-- Its start depends on the values seen so far once a whole period of them is available. -/
theorem averageDx_take {period n : ℕ} {dx : List (Option ℚ)} (hperiod : 1 ≤ period)
    (hn : 2 * period ≤ n + 1) (hlen : n ≤ dx.length)
    (h : period ≤ (available period (dx.take n)).length) :
    (averageDx round period dx).take n = averageDx round period (dx.take n) := by
  have hdx : available period dx
      = available period (dx.take n) ++ (dx.drop n).filterMap id := by
    rw [← available_append _ (by rw [List.length_take]; omega), List.take_append_drop]
  have hseed : wilderSeed round period (available period dx)
      = wilderSeed round period (available period (dx.take n)) := by
    rw [wilderSeed, hdx, List.take_append_of_le_length h, wilderSeed]
  have hlong : period ≤ (available period dx).length := by
    rw [hdx, List.length_append]
    omega
  obtain ⟨m, hm⟩ := Nat.exists_eq_add_of_le hn
  have hdrop : (dx.take n).drop (2 * period - 1) = (dx.drop (2 * period - 1)).take m := by
    rw [List.drop_take]
    congr 1
    omega
  rw [averageDx_long round hlong, averageDx_long round h, hseed, hdrop, isCausal_transduce,
    show n = (2 * period - 2) + (m + 1) by omega, List.take_append, List.length_replicate,
    Nat.add_sub_cancel_left, List.take_of_length_le (by rw [List.length_replicate]; omega),
    List.take_succ_cons]

theorem averageDx_before {period i : ℕ} {dx : List (Option ℚ)} (hi : i < 2 * period - 2)
    (hlen : i < dx.length) : (averageDx round period dx)[i]? = some none := by
  rw [averageDx]
  split
  · rw [List.getElem?_replicate, if_pos hlen]
  · rw [List.getElem?_append_left (by rwa [List.length_replicate]), List.getElem?_replicate,
      if_pos hi]

theorem averageDx_start {period : ℕ} {dx : List (Option ℚ)}
    (h : period ≤ (available period dx).length) :
    (averageDx round period dx)[2 * period - 2]?
      = some (some (wilderSeed round period (available period dx))) := by
  rw [averageDx_long round h, List.getElem?_append_right (by rw [List.length_replicate]),
    List.length_replicate, Nat.sub_self]
  rfl

/-- After its start it has a value where `dx` has one. -/
theorem averageDx_later {period i : ℕ} {dx : List (Option ℚ)} (hperiod : 1 ≤ period)
    (hi : 2 * period ≤ i + 1) (h : period ≤ (available period dx).length) :
    ∃ current, (averageDx round period dx)[i]? = (dx[i]?).map (adxOut round period current) := by
  obtain ⟨m, rfl⟩ := Nat.exists_eq_add_of_le (show 2 * period - 1 ≤ i by omega)
  rw [averageDx_long round h, List.getElem?_append_right (by rw [List.length_replicate]; omega),
    List.length_replicate, show 2 * period - 1 + m - (2 * period - 2) = m + 1 by omega,
    List.getElem?_cons_succ, getElem?_transduce, List.getElem?_drop]
  exact ⟨_, rfl⟩

theorem averageDx_skipped {period i : ℕ} {dx : List (Option ℚ)} (hperiod : 1 ≤ period)
    (hi : 2 * period ≤ i + 1) (h : dx[i]? = some none) :
    (averageDx round period dx)[i]? = some none := by
  by_cases hshort : (available period dx).length < period
  · have hlen := (List.getElem?_eq_some_iff.mp h).1
    rw [averageDx, if_pos hshort, List.getElem?_replicate, if_pos hlen]
  · obtain ⟨current, hcurrent⟩ := averageDx_later round hperiod hi (not_lt.mp hshort)
    rw [hcurrent, h]
    rfl

/-! ### The values of `dx` and the true ranges -/

/-- The average true ranges that are not zero. -/
def ranged (period : ℕ) (bars : List PriceBar) : List ℚ :=
  ((wilderValues round period (trueRanges round bars)).filterMap id).filter fun atr => atr ≠ 0

theorem wilderValues_pattern (period : ℕ) {a b : List ℚ} (h : a.length = b.length) :
    (wilderValues round period a).map Option.isSome
      = (wilderValues round period b).map Option.isSome := by
  have htrue : ∀ (s : ℚ) (l : List ℚ), (transduce (wilderStep round period) (fun current value =>
      some (wilderStep round period current value)) s l).map Option.isSome
        = List.replicate l.length true := by
    intro s l
    induction l generalizing s with
    | nil => rfl
    | cons x l ih =>
      rw [transduce, List.map_cons, ih, List.length_cons, List.replicate_succ]
      rfl
  rw [wilderValues, wilderValues, h]
  split
  · rfl
  · rw [List.map_append, List.map_append, List.map_cons, List.map_cons, htrue, htrue,
      List.length_drop, List.length_drop, h]
    rfl

/-- An entry is left out just where the average true range is zero. -/
theorem dxEntries_pattern {tr plus minus : List (Option ℚ)}
    (hplus : tr.map Option.isSome = plus.map Option.isSome)
    (hminus : tr.map Option.isSome = minus.map Option.isSome) :
    (List.zipWith (dxEntry round) tr (plus.zip minus)).map Option.isSome
      = tr.map fun atr => atr.any (· ≠ 0) := by
  induction tr generalizing plus minus with
  | nil => rfl
  | cons t tr ih =>
    cases plus with
    | nil => cases hplus
    | cons p plus =>
      cases minus with
      | nil => cases hminus
      | cons m minus =>
        rw [List.map_cons, List.map_cons, List.cons.injEq] at hplus hminus
        rw [List.zip_cons_cons, List.zipWith_cons_cons, List.map_cons, List.map_cons,
          ih hplus.2 hminus.2]
        congr 1
        cases t with
        | none => rfl
        | some t =>
          obtain ⟨p, rfl⟩ := Option.isSome_iff_exists.mp hplus.1.symm
          obtain ⟨m, rfl⟩ := Option.isSome_iff_exists.mp hminus.1.symm
          by_cases ht : t = 0 <;> simp [dxEntry, ht]

theorem length_trueRanges (bars : List PriceBar) :
    (trueRanges round bars).length = bars.length := by
  cases bars with
  | nil => rfl
  | cons first rest => rw [trueRanges, List.length_cons, length_transduce, List.length_cons]

theorem length_directionalMovements (bars : List PriceBar) :
    (directionalMovements round bars).length = bars.length := by
  cases bars with
  | nil => rfl
  | cons first rest => rw [directionalMovements, List.length_cons, length_transduce, List.length_cons]

theorem dxValues_pattern (period : ℕ) (bars : List PriceBar) :
    (dxValues round period bars).map Option.isSome
      = (wilderValues round period (trueRanges round bars)).map fun atr => atr.any (· ≠ 0) := by
  refine dxEntries_pattern round (wilderValues_pattern round period ?_)
    (wilderValues_pattern round period ?_)
  all_goals rw [length_trueRanges, List.length_map, length_directionalMovements]

theorem length_wilderValues {period : ℕ} (hperiod : 1 ≤ period) (values : List ℚ) :
    (wilderValues round period values).length = values.length := by
  rw [wilderValues]
  split
  · rw [List.length_replicate]
  · rw [List.length_append, List.length_cons, length_transduce, List.length_replicate,
      List.length_drop]
    omega

theorem length_dxValues {period : ℕ} (hperiod : 1 ≤ period) (bars : List PriceBar) :
    (dxValues round period bars).length = bars.length := by
  rw [← List.length_map (f := Option.isSome), dxValues_pattern, List.length_map,
    length_wilderValues round hperiod, length_trueRanges]

theorem length_filterMap_id (l : List (Option ℚ)) :
    (l.filterMap id).length = (l.map Option.isSome).count true := by
  induction l with
  | nil => rfl
  | cons a l ih =>
    cases a with
    | none => rw [List.filterMap_cons_none rfl, ih, List.map_cons, List.count_cons]; rfl
    | some t =>
      rw [List.filterMap_cons_some (f := id) (a := some t) rfl, List.length_cons, ih, List.map_cons,
        List.count_cons]
      rfl

theorem length_nonzero (l : List (Option ℚ)) :
    ((l.filterMap id).filter fun atr => atr ≠ 0).length
      = (l.map fun atr => atr.any (· ≠ 0)).count true := by
  induction l with
  | nil => rfl
  | cons a l ih =>
    cases a with
    | none => rw [List.filterMap_cons_none rfl, ih, List.map_cons, List.count_cons]; rfl
    | some t =>
      rw [List.filterMap_cons_some (f := id) (a := some t) rfl, List.filter_cons, List.map_cons,
        List.count_cons, ← ih]
      by_cases ht : t = 0 <;> simp [ht]

/-- As many values are available as average true ranges are not zero. -/
theorem length_available {period : ℕ} (hperiod : 1 ≤ period) (bars : List PriceBar) :
    (available period (dxValues round period bars)).length = (ranged round period bars).length := by
  have hearly : ((dxValues round period bars).take (period - 1)).filterMap id = [] := by
    rw [← List.length_eq_zero_iff, length_filterMap_id, ← isCausal_dxValues round hperiod,
      dxValues_pattern, wilderValues, if_pos (by
        rw [length_trueRanges, List.length_take]
        omega), List.map_replicate]
    rw [List.count_replicate]
    rfl
  have hsplit : (dxValues round period bars).filterMap id
      = available period (dxValues round period bars) := by
    conv_lhs => rw [← List.take_append_drop (period - 1) (dxValues round period bars)]
    rw [List.filterMap_append, hearly]
    rfl
  rw [← hsplit, length_filterMap_id, dxValues_pattern, ranged, length_nonzero]

/-- The value at the last bar seen is open: the average is at its start or has a value to add there,
    and less than a period of average true ranges was not zero so far. -/
def Unsettled (period : ℕ) (seen : List PriceBar) : Prop :=
  2 * period ≤ seen.length + 1 ∧ (ranged round period seen).length < period ∧
    (seen.length + 1 = 2 * period ∨
      (wilderValues round period (trueRanges round seen)).getLast? ≠ some (some 0))

/-- `dx` has no value where the average true range is zero. -/
theorem dxValues_eq_none {period i : ℕ} {bars : List PriceBar}
    (h : (wilderValues round period (trueRanges round bars))[i]? = some (some 0)) :
    (dxValues round period bars)[i]? = some none := by
  have hpattern := congrArg (fun l => l[i]?) (dxValues_pattern round period bars)
  simp only [List.getElem?_map, h, Option.map_some] at hpattern
  cases hdx : (dxValues round period bars)[i]? with
  | none =>
    rw [hdx] at hpattern
    cases hpattern
  | some entry =>
    rw [hdx, Option.map_some] at hpattern
    cases entry with
    | none => rfl
    | some value => simp at hpattern

theorem dxValues_eq_some {period i : ℕ} {bars : List PriceBar} {atr : ℚ}
    (h : (wilderValues round period (trueRanges round bars))[i]? = some (some atr)) (hne : atr ≠ 0) :
    ∃ v, (dxValues round period bars)[i]? = some (some v) := by
  have hpattern := congrArg (fun l => l[i]?) (dxValues_pattern round period bars)
  simp only [List.getElem?_map, h, Option.map_some] at hpattern
  cases hdx : (dxValues round period bars)[i]? with
  | none =>
    rw [hdx] at hpattern
    cases hpattern
  | some entry =>
    rw [hdx, Option.map_some] at hpattern
    cases entry with
    | none => simp [hne] at hpattern
    | some value => exact ⟨value, rfl⟩

/-- A settled value does not depend on the bars to come. -/
theorem adxValues_settled {period i : ℕ} (hperiod : 1 ≤ period) {bars bars' : List PriceBar}
    (hlen : 2 * period ≤ bars.length) (hlen' : 2 * period ≤ bars'.length)
    (h : bars.take (i + 1) = bars'.take (i + 1))
    (hsettled : ¬ Unsettled round period (bars.take (i + 1))) :
    (adxValues round period bars)[i]? = (adxValues round period bars')[i]? := by
  have hlengths := congrArg List.length h
  rw [List.length_take, List.length_take] at hlengths
  by_cases hi : bars.length ≤ i
  · rw [List.take_of_length_le (by omega), List.take_of_length_le (by omega)] at h
    rw [h]
  have hdx := (isCausal_dxValues round hperiod).take_congr h
  have hseen : (bars.take (i + 1)).length = i + 1 := by
    rw [List.length_take]
    omega
  rw [adxValues, if_neg (by omega), adxValues, if_neg (by omega)]
  by_cases hearly : i < 2 * period - 2
  · rw [averageDx_before round hearly (by rw [length_dxValues round hperiod]; omega),
      averageDx_before round hearly (by rw [length_dxValues round hperiod]; omega)]
  by_cases hmany : period ≤ (ranged round period (bars.take (i + 1))).length
  · rw [← length_available round hperiod, isCausal_dxValues round hperiod] at hmany
    have htake := averageDx_take round hperiod (by omega)
      (by rw [length_dxValues round hperiod]; omega) hmany
    have htake' := averageDx_take round hperiod (by omega)
      (by rw [length_dxValues round hperiod]; omega) (hdx ▸ hmany)
    have hat : ∀ l : List (Option ℚ), (l.take (i + 1))[i]? = l[i]? := fun l =>
      List.getElem?_take_of_lt (Nat.lt_succ_self i)
    rw [← hat, htake, hdx, ← htake', hat]
  · have hlast : (wilderValues round period (trueRanges round (bars.take (i + 1)))).getLast?
        = some (some 0) := by
      by_contra hlast
      exact hsettled ⟨by omega, not_le.mp hmany, .inr hlast⟩
    have hlater : i + 2 ≠ 2 * period := by
      intro heq
      exact hsettled ⟨by omega, not_le.mp hmany, .inl (by omega)⟩
    have hnone : ∀ {l : List PriceBar}, l.take (i + 1) = bars.take (i + 1) →
        (dxValues round period l)[i]? = some none := by
      intro l hl
      refine (isCausal_dxValues round hperiod).getElem?_congr (hl.trans (List.take_take.trans
        (by rw [Nat.min_self])).symm) |>.trans (dxValues_eq_none round ?_)
      rw [List.getLast?_eq_getElem?, length_wilderValues round hperiod, length_trueRanges,
        hseen] at hlast
      exact hlast
    rw [averageDx_skipped round hperiod (by omega) (hnone rfl),
      averageDx_skipped round hperiod (by omega) (hnone h.symm)]

end

/-! ### What later bars can do

    In exact arithmetic. -/

/-- The last of Wilder's averages. -/
def wilderLast (period : ℕ) (values : List ℚ) : ℚ :=
  (values.drop period).foldl (wilderStep id period) (wilderSeed id period values)

theorem wilderStep_id (period : ℕ) (current value : ℚ) :
    wilderStep id period current value = (current * (period - 1 : ℕ) + value) / period := rfl

/-- Wilder's averages of later values. -/
def wilderMore (period : ℕ) (current : ℚ) (more : List ℚ) : List (Option ℚ) :=
  transduce (wilderStep id period) (fun current value => some (wilderStep id period current value))
    current more

theorem wilderValues_long {period : ℕ} {values : List ℚ} (hlen : period ≤ values.length) :
    wilderValues id period values = List.replicate (period - 1) none ++
      some (wilderSeed id period values) ::
        wilderMore period (wilderSeed id period values) (values.drop period) := by
  rw [wilderValues, if_neg (not_lt.mpr hlen)]
  rfl

theorem wilderValues_append {period : ℕ} {values : List ℚ} (more : List ℚ)
    (hlen : period ≤ values.length) : wilderValues id period (values ++ more)
      = wilderValues id period values ++ wilderMore period (wilderLast period values) more := by
  have hseed : wilderSeed id period (values ++ more) = wilderSeed id period values := by
    rw [wilderSeed, wilderSeed, List.take_append_of_le_length hlen]
  rw [wilderValues_long (by rw [List.length_append]; omega), wilderValues_long hlen, hseed,
    List.drop_append_of_le_length hlen, wilderMore, transduce_append, List.append_assoc,
    List.cons_append]
  rfl

theorem wilderLast_nonneg {period : ℕ} {values : List ℚ} (h : ∀ v ∈ values, 0 ≤ v) :
    0 ≤ wilderLast period values := by
  have hsum : ∀ l : List ℚ, (∀ v ∈ l, 0 ≤ v) → ∀ start, 0 ≤ start → 0 ≤ l.foldl (add id) start := by
    intro l hl
    induction l with
    | nil => exact fun _ => id
    | cons v l ih =>
      intro start hstart
      exact ih (fun w hw => hl w (by simp [hw])) _ (add_nonneg hstart (hl v (by simp)))
  have hseed : 0 ≤ wilderSeed id period values :=
    div_nonneg (hsum _ (fun v hv => h v (List.mem_of_mem_take hv)) 0 le_rfl) (Nat.cast_nonneg _)
  have hsteps : ∀ l : List ℚ, (∀ v ∈ l, 0 ≤ v) → ∀ start, 0 ≤ start →
      0 ≤ l.foldl (wilderStep id period) start := by
    intro l hl
    induction l with
    | nil => exact fun _ => id
    | cons v l ih =>
      intro start hstart
      refine ih (fun w hw => hl w (by simp [hw])) _ ?_
      rw [wilderStep_id]
      have hv := hl v (by simp)
      positivity
  exact hsteps _ (fun v hv => h v (List.mem_of_mem_drop hv)) _ hseed

theorem wilderMore_of_nonneg {period : ℕ} (hperiod : 1 ≤ period) {current : ℚ} {more : List ℚ}
    (hcurrent : 0 ≤ current) (h : ∀ v ∈ more, 0 < v) :
    ∀ entry ∈ wilderMore period current more, ∃ v, entry = some v ∧ 0 < v := by
  induction more generalizing current with
  | nil => simp [wilderMore, transduce]
  | cons x more ih =>
    have hx := h x (by simp)
    have hpos : 0 < wilderStep id period current x := by
      have hcast : (0 : ℚ) < period := by exact_mod_cast hperiod
      rw [wilderStep_id]
      positivity
    intro entry hentry
    rcases List.mem_cons.mp hentry with rfl | hentry
    · exact ⟨_, rfl, hpos⟩
    · exact ih hpos.le (fun v hv => h v (by simp [hv])) entry hentry

/-- Large values make the averages positive. -/
theorem wilderStep_pos {period : ℕ} (hperiod : 1 ≤ period) {current x : ℚ}
    (h : |current| * period < x) : 0 < wilderStep id period current x := by
  have hcast : (0 : ℚ) < period := by exact_mod_cast hperiod
  have hle : ((period - 1 : ℕ) : ℚ) ≤ period := by exact_mod_cast Nat.sub_le _ _
  have hneg : -(|current| * period) ≤ current * (period - 1 : ℕ) := by
    have hprod : |current * ((period - 1 : ℕ) : ℚ)| ≤ |current| * period := by
      rw [abs_mul, abs_of_nonneg (Nat.cast_nonneg (period - 1) : (0 : ℚ) ≤ _)]
      exact mul_le_mul_of_nonneg_left hle (abs_nonneg _)
    have := neg_abs_le (current * ((period - 1 : ℕ) : ℚ))
    linarith
  rw [wilderStep_id]
  exact div_pos (by linarith) hcast

theorem wilderMore_pos {period : ℕ} (hperiod : 1 ≤ period) {current : ℚ} {more : List ℚ}
    (h : ∀ v ∈ more, |current| * period < v) :
    ∀ entry ∈ wilderMore period current more, ∃ v, entry = some v ∧ 0 < v := by
  cases more with
  | nil => simp [wilderMore, transduce]
  | cons x more =>
    have hpos := wilderStep_pos hperiod (h x (by simp))
    intro entry hentry
    rcases List.mem_cons.mp hentry with rfl | hentry
    · exact ⟨_, rfl, hpos⟩
    · refine wilderMore_of_nonneg hperiod hpos.le (fun v hv => ?_) entry hentry
      exact lt_of_le_of_lt (by positivity) (h v (by simp [hv]))

/-- The last bar, wider by `up` above and by `down` below. -/
def PriceBar.widen (bar : PriceBar) (up down : ℚ) : PriceBar :=
  ⟨bar.high + up, bar.low - down, bar.close⟩

theorem foldl_last {init : List PriceBar} (bar start : PriceBar) :
    (init ++ [bar]).foldl (fun _ bar => bar) start = bar := by
  rw [List.foldl_concat]

/-- The true ranges of later bars. -/
theorem trueRanges_append (init more : List PriceBar) (bar : PriceBar) :
    trueRanges id (init ++ [bar] ++ more) = trueRanges id (init ++ [bar]) ++
      transduce (fun _ bar => bar) (trueRange id) bar more := by
  cases init with
  | nil => rfl
  | cons first init =>
    rw [List.cons_append, List.cons_append, trueRanges, trueRanges, transduce_append, foldl_last,
      List.cons_append]

theorem directionalMovements_append (init more : List PriceBar) (bar : PriceBar) :
    directionalMovements id (init ++ [bar] ++ more) = directionalMovements id (init ++ [bar]) ++
      transduce (fun _ bar => bar) (directionalMovement id) bar more := by
  cases init with
  | nil => rfl
  | cons first init =>
    rw [List.cons_append, List.cons_append, directionalMovements, directionalMovements,
      transduce_append, foldl_last, List.cons_append]

/-- The averages after the bars seen: of the true ranges and of the movements up and down. -/
def lastRange (period : ℕ) (seen : List PriceBar) : ℚ := wilderLast period (trueRanges id seen)

def lastMovement (period : ℕ) (seen : List PriceBar) (side : ℚ × ℚ → ℚ) : ℚ :=
  wilderLast period ((directionalMovements id seen).map side)

theorem dxValues_append {period : ℕ} (hperiod : 1 ≤ period) {init : List PriceBar} {bar : PriceBar}
    (more : List PriceBar) (hlen : period ≤ init.length + 1) :
    dxValues id period (init ++ [bar] ++ more) = dxValues id period (init ++ [bar]) ++
      List.zipWith (dxEntry id)
        (wilderMore period (lastRange period (init ++ [bar]))
          (transduce (fun _ bar => bar) (trueRange id) bar more))
        ((wilderMore period (lastMovement period (init ++ [bar]) Prod.fst)
          ((transduce (fun _ bar => bar) (directionalMovement id) bar more).map Prod.fst)).zip
        (wilderMore period (lastMovement period (init ++ [bar]) Prod.snd)
          ((transduce (fun _ bar => bar) (directionalMovement id) bar more).map Prod.snd))) := by
  have hlen' : period ≤ (init ++ [bar]).length := by
    rw [List.length_append]
    exact hlen
  have hside : ∀ side : ℚ × ℚ → ℚ, wilderValues id period ((directionalMovements id (init ++ [bar]
      ++ more)).map side) = wilderValues id period ((directionalMovements id (init ++ [bar])).map side)
        ++ wilderMore period (lastMovement period (init ++ [bar]) side)
          ((transduce (fun _ bar => bar) (directionalMovement id) bar more).map side) := by
    intro side
    rw [directionalMovements_append, List.map_append, wilderValues_append _
      (by rwa [List.length_map, length_directionalMovements])]
    rfl
  simp only [dxValues]
  rw [hside, hside, trueRanges_append, wilderValues_append _ (by rwa [length_trueRanges]),
    List.zip_append, List.zipWith_append]
  · rfl
  · rw [List.length_zip]
    simp only [length_wilderValues id hperiod, length_trueRanges, List.length_map,
      length_directionalMovements, Nat.min_self]
  · simp only [length_wilderValues id hperiod, List.length_map]

theorem wilderMore_isSome (period : ℕ) (current : ℚ) (more : List ℚ) :
    (wilderMore period current more).map Option.isSome = List.replicate more.length true := by
  induction more generalizing current with
  | nil => rfl
  | cons x more ih =>
    rw [wilderMore, transduce, List.map_cons, List.length_cons, List.replicate_succ, ← ih]
    rfl

theorem le_trueRanges {more : List PriceBar} (bar : PriceBar) {bound : ℚ}
    (h : ∀ b ∈ more, bound < b.high - b.low) :
    ∀ v ∈ transduce (fun _ bar => bar) (trueRange id) bar more, bound < v := by
  induction more generalizing bar with
  | nil => simp [transduce]
  | cons b more ih =>
    intro v hv
    rcases List.mem_cons.mp hv with rfl | hv
    · exact (h b (by simp)).trans_le ((le_max_left _ _).trans (le_max_left _ _))
    · exact ih b (fun x hx => h x (by simp [hx])) v hv

/-- Wide bars make all their values available. -/
theorem available_wide {period : ℕ} (hperiod : 1 ≤ period) {init : List PriceBar} {bar : PriceBar}
    {more : List PriceBar} (hlen : period ≤ init.length + 1)
    (h : ∀ b ∈ more, |lastRange period (init ++ [bar])| * period < b.high - b.low) :
    (available period (dxValues id period (init ++ [bar] ++ more))).length
      = (available period (dxValues id period (init ++ [bar]))).length + more.length := by
  have hpos := wilderMore_pos hperiod (le_trueRanges bar h)
  have hrange : (wilderMore period (lastRange period (init ++ [bar]))
      (transduce (fun _ bar => bar) (trueRange id) bar more)).map (fun atr => atr.any (· ≠ 0))
        = List.replicate more.length true := by
    rw [List.eq_replicate_iff]
    refine ⟨by rw [List.length_map, wilderMore, length_transduce, length_transduce], ?_⟩
    intro entry hentry
    obtain ⟨atr, hatr, rfl⟩ := List.mem_map.mp hentry
    obtain ⟨v, rfl, hv⟩ := hpos atr hatr
    simp [hv.ne']
  have hside : ∀ side : ℚ × ℚ → ℚ, (wilderMore period (lastRange period (init ++ [bar]))
      (transduce (fun _ bar => bar) (trueRange id) bar more)).map Option.isSome
        = (wilderMore period (lastMovement period (init ++ [bar]) side)
          ((transduce (fun _ bar => bar) (directionalMovement id) bar more).map side)).map
            Option.isSome := by
    intro side
    rw [wilderMore_isSome, wilderMore_isSome, List.length_map, length_transduce, length_transduce]
  rw [dxValues_append hperiod more hlen, available_append _ (by
    rw [length_dxValues id hperiod, List.length_append, List.length_singleton]
    omega), List.length_append, length_filterMap_id,
    dxEntries_pattern id (hside Prod.fst) (hside Prod.snd), hrange, List.count_replicate_self]

/-- `dx` after sums of movements up and down. -/
def spread (plus minus : ℚ) : ℚ := 100 * |plus - minus| / (plus + minus)

theorem dxValue_id {tr plus minus : ℚ} (htr : 0 < tr) (hplus : 0 ≤ plus) (hminus : 0 ≤ minus) :
    dxValue id tr plus minus = spread plus minus := by
  have hdi : ∀ x : ℚ, div id (mul id 100 x) tr = 100 * x / tr := fun _ => rfl
  rw [dxValue, spread]
  simp only [hdi]
  have hsum : add id (100 * plus / tr) (100 * minus / tr) = 100 / tr * (plus + minus) := by
    rw [add, id]
    ring
  have hdiff : |sub id (100 * plus / tr) (100 * minus / tr)| = 100 / tr * |plus - minus| := by
    rw [sub, id, show 100 * plus / tr - 100 * minus / tr = 100 / tr * (plus - minus) by ring,
      abs_mul, abs_of_pos (by positivity)]
  rw [hsum, hdiff]
  by_cases hzero : plus + minus = 0
  · rw [hzero, mul_zero, if_pos rfl, div_zero]
  · rw [if_neg (by positivity)]
    simp only [div, mul, id]
    field_simp

/-- The movements of a bar that widens the last one. -/
theorem directionalMovement_widen (bar : PriceBar) (up down : ℚ) :
    directionalMovement id bar (bar.widen up down)
      = (if up > down ∧ up > 0 then up else 0, if down > up ∧ down > 0 then down else 0) := by
  have hup : sub id (bar.widen up down).high bar.high = up := by
    rw [sub, id, PriceBar.widen, add_sub_cancel_left]
  have hdown : sub id bar.low (bar.widen up down).low = down := by
    rw [sub, id, PriceBar.widen, sub_sub_cancel]
  rw [directionalMovement]
  simp only [hup, hdown]

theorem spread_comm (plus minus : ℚ) : spread plus minus = spread minus plus := by
  rw [spread, spread, abs_sub_comm, add_comm]

/-- A larger movement on the larger side shows. -/
theorem spread_ne {x y z : ℚ} (hx : 0 < x) (hxy : x < y) (hyz : y < z) : spread x y ≠ spread x z := by
  rw [spread, spread, abs_sub_comm, abs_of_pos (sub_pos.mpr hxy), abs_sub_comm x z,
    abs_of_pos (by linarith : 0 < z - x)]
  intro heq
  rw [div_eq_div_iff (by linarith) (by linarith)] at heq
  have hzero : x * (z - y) = 0 := by linarith
  rcases mul_eq_zero.mp hzero with h | h <;> linarith

/-- Two next bars give the average different values. -/
theorem exists_spread_ne {a c : ℚ} (ha : 0 ≤ a) (hc : 0 ≤ c) (bound : ℚ) :
    ∃ up down up' down' : ℚ, 0 ≤ up ∧ 0 ≤ down ∧ 0 ≤ up' ∧ 0 ≤ down' ∧ bound < up + down ∧
      bound < up' + down' ∧
      spread (a + if up > down ∧ up > 0 then up else 0)
        (c + if down > up ∧ down > 0 then down else 0)
      ≠ spread (a + if up' > down' ∧ up' > 0 then up' else 0)
        (c + if down' > up' ∧ down' > 0 then down' else 0) := by
  obtain ⟨k, hk, hbound, hak, hck⟩ : ∃ k : ℚ, 0 < k ∧ bound < k ∧ a < k ∧ c < k :=
    ⟨|bound| + a + c + 1, by positivity, by linarith [le_abs_self bound], by
      linarith [abs_nonneg bound], by linarith [abs_nonneg bound]⟩
  rcases eq_or_lt_of_le hc with hc0 | hcpos
  · rcases eq_or_lt_of_le ha with ha0 | hapos
    · -- without a movement so far: one up, against one both ways, which counts as none
      refine ⟨k, 0, k, k, hk.le, le_rfl, hk.le, hk.le, by linarith, by linarith, ?_⟩
      rw [← ha0, ← hc0, if_pos ⟨hk, hk⟩, if_neg (by simp), if_neg (by simp)]
      simp [spread, hk.ne']
    · refine ⟨0, k, 0, 2 * k, le_rfl, hk.le, le_rfl, by linarith, by linarith, by linarith, ?_⟩
      rw [if_neg (by simp), if_pos ⟨hk, hk⟩, if_neg (by simp), if_pos ⟨by linarith, by linarith⟩,
        add_zero]
      exact spread_ne hapos (by linarith) (by linarith)
  · refine ⟨k, 0, 2 * k, 0, hk.le, le_rfl, by linarith, le_rfl, by linarith, by linarith, ?_⟩
    rw [if_pos ⟨hk, hk⟩, if_neg (by simp), if_pos ⟨by linarith, by linarith⟩, if_neg (by simp),
      add_zero, spread_comm, spread_comm (a + 2 * k)]
    exact spread_ne hcpos (by linarith) (by linarith)

theorem wilderStep_scaled (period : ℕ) (plus minus : ℚ) (x y : ℚ) (hperiod : 1 ≤ period) :
    spread (wilderStep id period plus x) (wilderStep id period minus y)
      = spread (plus * (period - 1 : ℕ) + x) (minus * (period - 1 : ℕ) + y) := by
  have hcast : (0 : ℚ) < period := by exact_mod_cast hperiod
  rw [wilderStep_id, wilderStep_id, spread, spread, ← sub_div, ← add_div, abs_div,
    abs_of_pos hcast, mul_div_assoc', div_div_div_cancel_right₀ hcast.ne']

theorem lastMovement_nonneg (period : ℕ) (seen : List PriceBar) :
    0 ≤ lastMovement period seen Prod.fst ∧ 0 ≤ lastMovement period seen Prod.snd := by
  have hmove : ∀ move ∈ directionalMovements id seen, 0 ≤ move.1 ∧ 0 ≤ move.2 := by
    have hsteps : ∀ (l : List PriceBar) (bar : PriceBar),
        ∀ move ∈ transduce (fun _ bar => bar) (directionalMovement id) bar l,
          0 ≤ move.1 ∧ 0 ≤ move.2 := by
      intro l
      induction l with
      | nil => simp [transduce]
      | cons b l ih =>
        intro bar move hmove
        rcases List.mem_cons.mp hmove with rfl | hmove
        · rw [directionalMovement]
          refine ⟨?_, ?_⟩ <;> (dsimp only; split)
          · next h => exact h.2.le
          · exact le_rfl
          · next h => exact h.2.le
          · exact le_rfl
        · exact ih b move hmove
    cases seen with
    | nil => simp [directionalMovements]
    | cons first rest =>
      intro move hmem
      rcases List.mem_cons.mp hmem with rfl | hmem
      · exact ⟨le_rfl, le_rfl⟩
      · exact hsteps rest first move hmem
  constructor
  · refine wilderLast_nonneg fun v hv => ?_
    obtain ⟨move, hmem, rfl⟩ := List.mem_map.mp hv
    exact (hmove move hmem).1
  · refine wilderLast_nonneg fun v hv => ?_
    obtain ⟨move, hmem, rfl⟩ := List.mem_map.mp hv
    exact (hmove move hmem).2

/-- The value of `dx` at a wide next bar. -/
theorem dxValues_next {period : ℕ} (hperiod : 1 ≤ period) {init : List PriceBar} {bar : PriceBar}
    {up down : ℚ} (hlen : period ≤ init.length + 1)
    (h : |lastRange period (init ++ [bar])| * period < bar.high - bar.low + (up + down)) :
    dxValues id period (init ++ [bar] ++ [bar.widen up down])
      = dxValues id period (init ++ [bar]) ++ [some (spread
        (lastMovement period (init ++ [bar]) Prod.fst * (period - 1 : ℕ)
          + if up > down ∧ up > 0 then up else 0)
        (lastMovement period (init ++ [bar]) Prod.snd * (period - 1 : ℕ)
          + if down > up ∧ down > 0 then down else 0))] := by
  obtain ⟨hplus, hminus⟩ := lastMovement_nonneg period (init ++ [bar])
  rw [dxValues_append hperiod _ hlen]
  congr 1
  have hstep : 0 < wilderStep id period (lastRange period (init ++ [bar]))
      (trueRange id bar (bar.widen up down)) := wilderStep_pos hperiod (by
      refine lt_of_lt_of_le ?_ ((le_max_left _ _).trans (le_max_left _ _))
      rw [sub, id, PriceBar.widen]
      linarith)
  rw [← wilderStep_scaled period _ _ _ _ hperiod]
  have hnonneg : ∀ {current x : ℚ}, 0 ≤ current → 0 ≤ x → 0 ≤ wilderStep id period current x := by
    intro current x hcurrent hx
    rw [wilderStep_id]
    positivity
  have hmoves : ∀ p : Prop, ∀ [Decidable p], ∀ x : ℚ, (p → 0 ≤ x) → 0 ≤ if p then x else 0 := by
    intro p _ x hx
    split
    · next hp => exact hx hp
    · exact le_rfl
  simp only [transduce, wilderMore, List.map_cons, List.map_nil, List.zip_cons_cons, List.zip_nil_left,
    List.zipWith_cons_cons, List.zipWith_nil_left, directionalMovement_widen]
  rw [dxEntry, if_neg hstep.ne', dxValue_id hstep
    (hnonneg hplus (hmoves _ _ fun h => h.2.le)) (hnonneg hminus (hmoves _ _ fun h => h.2.le))]

theorem wilderValues_last {period : ℕ} {values : List ℚ} (hlen : period ≤ values.length) :
    ∃ v, (wilderValues id period values).getLast? = some (some v) := by
  have hsome : ∀ entry ∈ some (wilderSeed id period values) ::
      wilderMore period (wilderSeed id period values) (values.drop period), entry.isSome := by
    intro entry hentry
    rcases List.mem_cons.mp hentry with rfl | hentry
    · rfl
    · have hmem := List.mem_map_of_mem (f := Option.isSome) hentry
      rw [wilderMore_isSome] at hmem
      exact List.eq_of_mem_replicate hmem
  rw [wilderValues_long hlen, List.getLast?_append_cons]
  obtain ⟨v, hv⟩ := Option.isSome_iff_exists.mp (hsome _ (List.getLast_mem (by simp)))
  exact ⟨v, by rw [List.getLast?_eq_some_getLast (by simp), hv]⟩

/-- The average is at its start or later, and it was started. -/
theorem averageDx_isSome {period i : ℕ} {dx : List (Option ℚ)} (hperiod : 1 ≤ period)
    (h : period ≤ (available period dx).length)
    (hi : i + 2 = 2 * period ∨ 2 * period ≤ i + 1 ∧ ∃ v, dx[i]? = some (some v)) :
    ∃ v, (averageDx id period dx)[i]? = some (some v) := by
  rcases hi with hi | ⟨hi, v, hv⟩
  · rw [show i = 2 * period - 2 by omega, averageDx_start id h]
    exact ⟨_, rfl⟩
  · obtain ⟨current, hcurrent⟩ := averageDx_later id hperiod hi h
    rw [hcurrent, hv]
    exact ⟨_, rfl⟩

theorem averageDx_short {period i : ℕ} {dx : List (Option ℚ)}
    (h : (available period dx).length < period) (hi : i < dx.length) :
    (averageDx id period dx)[i]? = some none := by
  rw [averageDx, if_pos h, List.getElem?_replicate, if_pos hi]

theorem averageDx_start_ne {period i : ℕ} {dx : List (Option ℚ)} {v w : ℚ} (hperiod : 1 ≤ period)
    (hlen : period - 1 ≤ dx.length) (hone : (available period dx).length + 1 = period)
    (hi : i + 2 = 2 * period) (hne : v ≠ w) :
    (averageDx id period (dx ++ [some v]))[i]? ≠ (averageDx id period (dx ++ [some w]))[i]? := by
  have hsome : ∀ x : ℚ, available period (dx ++ [some x]) = available period dx ++ [x] := fun x =>
    available_append _ hlen
  have hseed : ∀ x : ℚ, wilderSeed id period (available period dx ++ [x])
      = (sum id (available period dx) + x) / period := by
    intro x
    rw [wilderSeed, List.take_of_length_le (by rw [List.length_append, List.length_singleton]; omega),
      sum, List.foldl_concat]
    rfl
  have hlong : ∀ x : ℚ, period ≤ (available period (dx ++ [some x])).length := by
    intro x
    rw [hsome, List.length_append, List.length_singleton]
    omega
  rw [show i = 2 * period - 2 by omega, averageDx_start id (hlong v), averageDx_start id (hlong w),
    hsome, hsome, hseed, hseed]
  intro heq
  have hcast : (period : ℚ) ≠ 0 := by
    have : (0 : ℚ) < period := by exact_mod_cast hperiod
    exact this.ne'
  have heq := (div_left_inj' hcast).mp (Option.some.inj (Option.some.inj heq))
  exact hne (add_left_cancel heq)

/-- An open value differs for two continuations by bars that widen the last one. -/
theorem adxValues_open {period : ℕ} (hperiod : 1 ≤ period) {init : List PriceBar} {bar : PriceBar}
    (h : Unsettled id period (init ++ [bar])) :
    ∃ more more' : List PriceBar,
      (∀ b ∈ more ++ more', ∃ up down, 0 ≤ up ∧ 0 ≤ down ∧ b = bar.widen up down) ∧
      2 * period ≤ (init ++ [bar] ++ more).length ∧ 2 * period ≤ (init ++ [bar] ++ more').length ∧
      (adxValues id period (init ++ [bar] ++ more))[init.length]?
        ≠ (adxValues id period (init ++ [bar] ++ more'))[init.length]? := by
  obtain ⟨hstart, hfew, hlast⟩ := h
  rw [List.length_append, List.length_singleton] at hstart hlast
  rw [← length_available id hperiod] at hfew
  have hlen : period ≤ init.length + 1 := by omega
  obtain ⟨k, hk, hwide⟩ : ∃ k : ℚ, 0 ≤ k ∧ |lastRange period (init ++ [bar])| * period
      < (bar.widen k k).high - (bar.widen k k).low := by
    refine ⟨|lastRange period (init ++ [bar])| * period + |bar.high - bar.low| + 1, by positivity, ?_⟩
    have habs := neg_abs_le (bar.high - bar.low)
    have hsize := abs_nonneg (bar.high - bar.low)
    have hnonneg : 0 ≤ |lastRange period (init ++ [bar])| * period := by positivity
    simp only [PriceBar.widen]
    linarith
  have hadx : ∀ {more : List PriceBar}, 2 * period ≤ (init ++ [bar] ++ more).length →
      adxValues id period (init ++ [bar] ++ more)
        = averageDx id period (dxValues id period (init ++ [bar] ++ more)) := by
    intro more hmore
    rw [adxValues, if_neg (by omega)]
  have hlong : 2 * period ≤ (init ++ [bar] ++ List.replicate period (bar.widen k k)).length := by
    simp only [List.length_append, List.length_singleton, List.length_replicate]
    omega
  have hmany : period ≤ (available period (dxValues id period (init ++ [bar]
      ++ List.replicate period (bar.widen k k)))).length := by
    rw [available_wide hperiod hlen fun b hb => (List.eq_of_mem_replicate hb) ▸ hwide,
      List.length_replicate]
    omega
  have hwidened : ∀ n, ∀ b ∈ List.replicate n (bar.widen k k),
      ∃ up down, 0 ≤ up ∧ 0 ≤ down ∧ b = bar.widen up down := fun _ b hb =>
    ⟨k, k, hk, hk, List.eq_of_mem_replicate hb⟩
  by_cases hnow : init.length + 2 = 2 * period
  · by_cases hone : (available period (dxValues id period (init ++ [bar]))).length + 1 = period
    · -- one more value starts the average, and it can be chosen
      obtain ⟨hplus, hminus⟩ := lastMovement_nonneg period (init ++ [bar])
      obtain ⟨up, down, up', down', hup, hdown, hup', hdown', hbound, hbound', hne⟩ :=
        exists_spread_ne (mul_nonneg hplus (Nat.cast_nonneg (period - 1)))
          (mul_nonneg hminus (Nat.cast_nonneg (period - 1)))
          (|lastRange period (init ++ [bar])| * period - (bar.high - bar.low))
      have hone' : ∀ {u d : ℚ}, 2 * period ≤ (init ++ [bar] ++ [bar.widen u d]).length := by
        intro u d
        simp only [List.length_append, List.length_singleton]
        omega
      refine ⟨[bar.widen up down], [bar.widen up' down'], ?_, hone', hone', ?_⟩
      · intro b hb
        rcases List.mem_cons.mp hb with rfl | hb
        · exact ⟨up, down, hup, hdown, rfl⟩
        · exact ⟨up', down', hup', hdown', List.mem_singleton.mp hb⟩
      · rw [hadx hone', hadx hone', dxValues_next hperiod hlen (by linarith),
          dxValues_next hperiod hlen (by linarith)]
        exact averageDx_start_ne hperiod (by
          rw [length_dxValues id hperiod, List.length_append, List.length_singleton]
          omega) hone (by omega) hne
    · refine ⟨List.replicate 1 (bar.widen k k), List.replicate period (bar.widen k k), ?_, ?_, hlong,
        ?_⟩
      · intro b hb
        rcases List.mem_append.mp hb with hb | hb
        · exact hwidened 1 b hb
        · exact hwidened period b hb
      · simp only [List.length_append, List.length_singleton, List.length_replicate]
        omega
      · obtain ⟨v, hv⟩ := averageDx_isSome hperiod hmany (.inl hnow)
        rw [hadx hlong, hv, hadx (by
          simp only [List.length_append, List.length_singleton, List.length_replicate]
          omega), averageDx_short]
        · simp
        · rw [available_wide hperiod hlen fun b hb => (List.eq_of_mem_replicate hb) ▸ hwide,
            List.length_replicate]
          omega
        · rw [length_dxValues id hperiod]
          simp only [List.length_append, List.length_singleton]
          omega
  · refine ⟨[], List.replicate period (bar.widen k k), by simpa using hwidened period, ?_, hlong, ?_⟩
    · simp only [List.length_append, List.length_singleton, List.length_nil]
      omega
    · have hvalue : ∃ v, (dxValues id period (init ++ [bar]
          ++ List.replicate period (bar.widen k k)))[init.length]? = some (some v) := by
        have hseen : (init ++ [bar] ++ List.replicate period (bar.widen k k)).take (init.length + 1)
            = (init ++ [bar]).take (init.length + 1) := by
          rw [List.take_append_of_le_length (by rw [List.length_append, List.length_singleton])]
        rw [(isCausal_dxValues id hperiod).getElem?_congr hseen]
        have hfull : period ≤ (trueRanges id (init ++ [bar])).length := by
          rw [length_trueRanges, List.length_append, List.length_singleton]
          exact hlen
        obtain ⟨atr, hatr⟩ := wilderValues_last hfull
        have hne : atr ≠ 0 := by
          rintro rfl
          exact (hlast.resolve_left (by omega)) hatr
        rw [List.getLast?_eq_getElem?, length_wilderValues id hperiod, length_trueRanges,
          List.length_append] at hatr
        exact dxValues_eq_some id hatr hne
      obtain ⟨v, hv⟩ := averageDx_isSome hperiod hmany
        (.inr ⟨by omega, hvalue⟩)
      rw [hadx hlong, hv, hadx (by
        simp only [List.length_append, List.length_singleton, List.length_nil]
        omega), List.append_nil, averageDx_short hfew]
      · simp
      · rw [length_dxValues id hperiod, List.length_append, List.length_singleton]
        omega

/-! ### Which outputs look ahead -/

/-- The output at a position. -/
def valueAt {β : Type} (outputs : Except String (List β)) (i : ℕ) : Except String (Option β) :=
  (fun values => values[i]?) <$> outputs

theorem requirePeriod_cases (period : ℤ) :
    (period < 1 ∧ requirePeriod period = .error "period must be positive") ∨
      (1 ≤ period.toNat ∧ requirePeriod period = .ok period.toNat ∧ (period.toNat : ℤ) = period) := by
  rw [requirePeriod]
  by_cases h : period < 1
  · exact .inl ⟨h, if_pos h⟩
  · exact .inr ⟨by omega, if_neg h, by omega⟩

/-- What an indicator that reads in order gives at a position, seen from the first values alone. -/
theorem valueAt_congr {α β : Type} {f : ℕ → List α → List β} (period : ℤ)
    (hf : ∀ n, 1 ≤ n → IsCausal (f n)) {s t : List α} {i : ℕ}
    (h : s.take (i + 1) = t.take (i + 1)) :
    valueAt (do return f (← requirePeriod period) s) i
      = valueAt (do return f (← requirePeriod period) t) i := by
  rcases requirePeriod_cases period with ⟨-, herror⟩ | ⟨hperiod, hok, -⟩
  · rw [herror]
    rfl
  · rw [hok]
    exact congrArg Except.ok ((hf _ hperiod).getElem?_congr h)

/-- No indicator but `adx` looks ahead, and a value of `adx` does not once it is settled. In exact
    arithmetic an open value of `adx` always depends on the bars to come, also where these are bars
    of the same kind, such as bars with `low ≤ close ≤ high`. -/
theorem looks_ahead_iff (period : ℤ) :
    (∀ (round : ℚ → ℚ) (i : ℕ) (values values' : List ℚ),
      values.take (i + 1) = values'.take (i + 1) →
        valueAt (ema round values period) i = valueAt (ema round values' period) i ∧
        valueAt (wilderSmoothing round values period) i
          = valueAt (wilderSmoothing round values' period) i ∧
        valueAt (rsiWilder round values period) i = valueAt (rsiWilder round values' period) i) ∧
    (∀ (round : ℚ → ℚ) (i : ℕ) (bars bars' : List PriceBar),
      bars.take (i + 1) = bars'.take (i + 1) →
        valueAt (atrWilder round bars period) i = valueAt (atrWilder round bars' period) i) ∧
    (∀ (round : ℚ → ℚ) (i : ℕ) (bars bars' : List PriceBar),
      2 * period ≤ bars.length → 2 * period ≤ bars'.length →
      bars.take (i + 1) = bars'.take (i + 1) →
      ¬ Unsettled round period.toNat (bars.take (i + 1)) →
        valueAt (adx round bars period) i = valueAt (adx round bars' period) i) ∧
    (∀ kind : PriceBar → Prop,
      (∀ bar up down, 0 ≤ up → 0 ≤ down → kind bar → kind (bar.widen up down)) →
      ∀ seen : List PriceBar, seen ≠ [] → (∀ bar ∈ seen, kind bar) →
        ((∀ more more' : List PriceBar, (∀ bar ∈ more ++ more', kind bar) →
          2 * period ≤ (seen ++ more).length → 2 * period ≤ (seen ++ more').length →
            valueAt (adx id (seen ++ more) period) (seen.length - 1)
              = valueAt (adx id (seen ++ more') period) (seen.length - 1)) ↔
          ¬ Unsettled id period.toNat seen)) := by
  have hsettled : ∀ (round : ℚ → ℚ) (i : ℕ) (bars bars' : List PriceBar),
      2 * period ≤ bars.length → 2 * period ≤ bars'.length →
      bars.take (i + 1) = bars'.take (i + 1) →
      ¬ Unsettled round period.toNat (bars.take (i + 1)) →
        valueAt (adx round bars period) i = valueAt (adx round bars' period) i := by
    intro round i bars bars' hlen hlen' h hopen
    rcases requirePeriod_cases period with ⟨-, herror⟩ | ⟨hperiod, hok, hcast⟩
    · rw [adx, adx, herror]
      rfl
    · rw [adx, adx, hok]
      exact congrArg Except.ok (adxValues_settled round hperiod (by omega) (by omega) h hopen)
  refine ⟨?_, ?_, hsettled, ?_⟩
  · intro round i values values' h
    exact ⟨valueAt_congr period (fun n _ => isCausal_emaValues round n) h,
      valueAt_congr period (fun n hn => isCausal_wilderValues round hn) h,
      valueAt_congr period (fun n hn => isCausal_rsiValues round hn) h⟩
  · intro round i bars bars' h
    exact valueAt_congr period (f := fun n bars => wilderValues round n (trueRanges round bars))
      (fun n hn => (isCausal_wilderValues round hn).comp (isCausal_trueRanges round)) h
  · intro kind hkind seen hseen hall
    constructor
    · intro hequal hopen
      rcases requirePeriod_cases period with ⟨hperiod, -⟩ | ⟨hperiod, hok, hcast⟩
      · have hfew := hopen.2.1
        rw [show period.toNat = 0 by omega] at hfew
        exact Nat.not_lt_zero _ hfew
      · obtain ⟨init, bar, rfl⟩ := (List.eq_nil_or_concat' seen).resolve_left hseen
        obtain ⟨more, more', hwiden, hlen, hlen', hne⟩ := adxValues_open hperiod hopen
        have hmore : ∀ b ∈ more ++ more', kind b := by
          intro b hb
          obtain ⟨up, down, hup, hdown, rfl⟩ := hwiden b hb
          exact hkind bar up down hup hdown (hall bar (by simp))
        have heq := hequal more more' hmore (by omega) (by omega)
        rw [adx, adx, hok, List.length_append, List.length_singleton, Nat.add_sub_cancel] at heq
        exact hne (Except.ok.inj heq)
    · intro hopen more more' _ hlen hlen'
      have hpos := List.length_pos_of_ne_nil hseen
      have htake : ∀ l : List PriceBar, (seen ++ l).take (seen.length - 1 + 1) = seen := by
        intro l
        rw [Nat.sub_add_cancel hpos, List.take_left]
      exact hsettled id (seen.length - 1) (seen ++ more) (seen ++ more') hlen hlen'
        ((htake more).trans (htake more').symm) (by rwa [htake])

/-- Three bars without a range. -/
def flatStart : List PriceBar := List.replicate 3 ⟨100, 100, 100⟩

/-- After three flat bars the second period of `adx` is complete, but its value there is that of the
    two bars that follow, or none where they are flat too. -/
theorem flat_start_looks_ahead : ¬ ∀ (period : ℤ) (i : ℕ) (bars bars' : List PriceBar),
    2 * period ≤ bars.length → 2 * period ≤ bars'.length →
    bars.take (i + 1) = bars'.take (i + 1) →
      valueAt (adx id bars period) i = valueAt (adx id bars' period) i := by
  intro h
  have heq := h 2 2 (flatStart ++ [⟨100, 100, 100⟩, ⟨100, 100, 100⟩])
    (flatStart ++ [⟨101, 100, 101⟩, ⟨102, 101, 102⟩]) (by decide) (by decide) rfl
  have hnone : valueAt (adx id (flatStart ++ [⟨100, 100, 100⟩, ⟨100, 100, 100⟩]) 2) 2
      = .ok (some none) := by
    decide +kernel
  have hsome : valueAt (adx id (flatStart ++ [⟨101, 100, 101⟩, ⟨102, 101, 102⟩]) 2) 2
      = .ok (some (some 100)) := by
    decide +kernel
  rw [hnone, hsome] at heq
  cases Except.ok.inj heq

end ScalpingBot.Indicators
