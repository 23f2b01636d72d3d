import Mathlib.Tactic.NormNum
import ScalpingBot.Backtest.Variants

/-! How long a position whose stop-limit exit is armed stays open. The loop of `_resolve_exit` looks at
    the time since the arming only at a bar that triggers the stop again. -/

namespace ScalpingBot.Backtest

open Rounded

section

variable (round : ℚ → ℚ) (side : OrderSide) (fillPrice targetPrice cap : ℚ) (spec : VariantSpec)
  (costs : CostModel)

/-- The variables before the bar at a position of the path, if the position is open there. -/
def stateBefore (s : ExitState) (offset : ℕ) : List Bar → ℕ → Option ExitState
  | _, 0 => some s
  | [], _ + 1 => none
  | bar :: rest, k + 1 =>
    match resolveBar round side fillPrice targetPrice cap spec costs s offset bar with
    | .close _ => none
    | .next s => stateBefore s (offset + 1) rest k

/-- Whether the resting limit of the stop trades in a bar. -/
def limitFills (limitPrice : ℚ) (bar : Bar) : Bool :=
  match side with
  | .buy => if bar.open < limitPrice then bar.high ≥ limitPrice else bar.low ≤ limitPrice
  | .sell => if bar.open > limitPrice then bar.low ≤ limitPrice else bar.high ≥ limitPrice

/-- A bar that closes the armed position: it triggers the stop, and its limit trades or the window of
    the escalation is over. -/
def Closes (first : ℕ) (stopPrice : ℚ) (offset : ℕ) (bar : Bar) : Prop :=
  stopTriggered side stopPrice bar ∧
    (limitFills side (behind round side stopPrice cap) bar ∨
      first + spec.stopLimitEscalationBars ≤ offset)

theorem stopLimitExit_cases (stopPrice : ℚ) (bar : Bar) :
    (limitFills side (behind round side stopPrice cap) bar ∧
      ∃ price reason, stopLimitExit round side stopPrice bar cap = .filled price reason) ∨
    (¬ limitFills side (behind round side stopPrice cap) bar ∧
      ∃ reason, stopLimitExit round side stopPrice bar cap = .triggeredUnfilled reason) := by
  cases side <;> simp only [limitFills, stopLimitExit] <;> split <;> split <;> simp_all

theorem stopExitPrice_triggered (hstyle : spec.exit = .stopLimit) {stopPrice : ℚ} {bar : Bar}
    (htriggered : stopTriggered side stopPrice bar) :
    stopExitPrice round side stopPrice bar costs spec.exit cap
      = stopLimitExit round side stopPrice bar cap := by
  simp only [stopExitPrice, htriggered, hstyle, if_true]

theorem stopExitPrice_quiet {stopPrice : ℚ} {bar : Bar}
    (hquiet : ¬ stopTriggered side stopPrice bar) :
    stopExitPrice round side stopPrice bar costs spec.exit cap = .notTriggered := by
  simp only [stopExitPrice, hquiet, if_false, Bool.false_eq_true]

/-- What an armed position does at a bar. -/
theorem resolveBar_armed (hstyle : spec.exit = .stopLimit)
    (hwindow : 0 < spec.stopLimitEscalationBars) {s : ExitState} {first : ℕ}
    (harmed : s.armedOffset = some first) (offset : ℕ) (bar : Bar) :
    (Closes round side cap spec first s.stopPrice offset bar ∧
      ∃ c, resolveBar round side fillPrice targetPrice cap spec costs s offset bar = .close c ∧
        c.offset = offset) ∨
    (¬ Closes round side cap spec first s.stopPrice offset bar ∧
      resolveBar round side fillPrice targetPrice cap spec costs s offset bar = .next s) := by
  have hsame : ({ s with armedOffset := some first } : ExitState) = s := by
    rw [← harmed]
  by_cases htriggered : stopTriggered side s.stopPrice bar
  · have hstop := stopExitPrice_triggered round side cap spec costs hstyle htriggered
    rcases stopLimitExit_cases round side cap s.stopPrice bar with
      ⟨hfills, price, reason, hexit⟩ | ⟨hfills, reason, hexit⟩
    · refine .inl ⟨⟨htriggered, .inl hfills⟩, ⟨price, offset, reason⟩, ?_, rfl⟩
      simp only [resolveBar, hstop, hexit]
    · by_cases hlate : first + spec.stopLimitEscalationBars ≤ offset
      · refine .inl ⟨⟨htriggered, .inr hlate⟩,
          ⟨bar.close, offset, "STOP_LIMIT_ESCALATED_CLOSE"⟩, ?_, rfl⟩
        simp only [resolveBar, hstop, hexit, harmed, Option.getD_some]
        exact if_pos ⟨hwindow, hlate⟩
      · refine .inr ⟨?_, ?_⟩
        · rintro ⟨-, h | h⟩
          · exact hfills h
          · exact hlate h
        · simp only [resolveBar, hstop, hexit, harmed, Option.getD_some]
          refine (if_neg fun h => hlate h.2).trans ?_
          rw [hsame]
  · refine .inr ⟨fun h => htriggered h.1, ?_⟩
    simp only [resolveBar, stopExitPrice_quiet round side cap spec costs htriggered, harmed,
      Option.isSome_some, if_true]

theorem resolveBar_offset {s : ExitState} {offset : ℕ} {bar : Bar} {c : Close}
    (h : resolveBar round side fillPrice targetPrice cap spec costs s offset bar = .close c) :
    c.offset = offset := by
  simp only [resolveBar] at h
  split at h
  · cases h
    rfl
  · split at h
    · cases h
      rfl
    · cases h
  · split at h
    · cases h
    · split at h
      · cases h
        rfl
      · cases h

/-- The offset of the bar at which the loop closes is one it has reached. -/
theorem resolveLoop_offset {s : ExitState} {offset : ℕ} {path : List Bar} {c : Close}
    (h : resolveLoop round side fillPrice targetPrice cap spec costs s offset path = .close c) :
    offset ≤ c.offset := by
  induction path generalizing s offset with
  | nil => cases h
  | cons bar rest ih =>
    rw [resolveLoop] at h
    cases hbar : resolveBar round side fillPrice targetPrice cap spec costs s offset bar with
    | close c' =>
      rw [hbar] at h
      cases h
      exact (resolveBar_offset round side fillPrice targetPrice cap spec costs hbar).ge
    | next s' =>
      rw [hbar] at h
      exact Nat.le_of_succ_le (ih h)

/-- The loop closes an armed position by an offset exactly if a bar up to it can. -/
theorem resolveLoop_armed (hstyle : spec.exit = .stopLimit)
    (hwindow : 0 < spec.stopLimitEscalationBars) {s : ExitState} {first : ℕ}
    (harmed : s.armedOffset = some first) (offset last : ℕ) (path : List Bar) :
    (∃ c, resolveLoop round side fillPrice targetPrice cap spec costs s offset path = .close c ∧
      c.offset ≤ last) ↔
    ∃ j bar, offset + j ≤ last ∧ path[j]? = some bar ∧
      Closes round side cap spec first s.stopPrice (offset + j) bar := by
  induction path generalizing offset with
  | nil => simp [resolveLoop]
  | cons bar rest ih =>
    rcases resolveBar_armed round side fillPrice targetPrice cap spec costs hstyle hwindow harmed
      offset bar with ⟨hcloses, c, hbar, hoffset⟩ | ⟨hopen, hbar⟩
    · rw [resolveLoop, hbar]
      constructor
      · rintro ⟨c', h, hlast⟩
        cases h
        exact ⟨0, bar, by omega, rfl, hcloses⟩
      · rintro ⟨j, -, hlast, -⟩
        exact ⟨c, rfl, by omega⟩
    · rw [resolveLoop, hbar]
      refine (ih (offset + 1)).trans ⟨?_, ?_⟩
      · rintro ⟨j, b, hlast, hget, hcloses⟩
        refine ⟨j + 1, b, by omega, hget, ?_⟩
        rwa [show offset + (j + 1) = offset + 1 + j by omega]
      · rintro ⟨j, b, hlast, hget, hcloses⟩
        cases j with
        | zero =>
          cases hget
          exact absurd hcloses hopen
        | succ j =>
          refine ⟨j, b, by omega, hget, ?_⟩
          rwa [show offset + 1 + j = offset + (j + 1) by omega]

/-- A bar that triggers the stop of a position and leaves it open finds the loop as if the position
    had been armed before it. -/
theorem resolveLoop_arms {s : ExitState} {offset : ℕ} {bar : Bar} {rest : List Bar}
    {reason : String}
    (hexit : stopExitPrice round side s.stopPrice bar costs spec.exit cap
      = .triggeredUnfilled reason) :
    resolveLoop round side fillPrice targetPrice cap spec costs s offset (bar :: rest)
      = resolveLoop round side fillPrice targetPrice cap spec costs
        { s with armedOffset := some (s.armedOffset.getD offset) } offset (bar :: rest) := by
  simp only [resolveLoop, resolveBar, hexit, Option.getD_some]

/-- The loop goes through the variables it has at the bars. -/
theorem resolveLoop_stateBefore {s s' : ExitState} {offset k : ℕ} {path : List Bar}
    (h : stateBefore round side fillPrice targetPrice cap spec costs s offset path k = some s') :
    resolveLoop round side fillPrice targetPrice cap spec costs s offset path
      = resolveLoop round side fillPrice targetPrice cap spec costs s' (offset + k)
        (path.drop k) := by
  induction k generalizing s offset path with
  | zero =>
    cases path <;> (cases h; rfl)
  | succ k ih =>
    cases path with
    | nil => cases h
    | cons bar rest =>
      rw [stateBefore] at h
      rw [resolveLoop]
      cases hbar : resolveBar round side fillPrice targetPrice cap spec costs s offset bar with
      | close c =>
        rw [hbar] at h
        cases h
      | next next =>
        rw [hbar] at h
        rw [List.drop_succ_cons, show offset + (k + 1) = offset + 1 + k by omega]
        exact ih h

/-- Whether `_resolve_exit` closes the position at a bar up to an index. -/
def ClosedBy (exit : Option Exit) (index : ℕ) : Prop :=
  ∃ e, exit = some e ∧ e.status ≠ .open ∧ e.index ≤ index

instance (exit : Option Exit) (index : ℕ) : Decidable (ClosedBy exit index) :=
  match exit with
  | none => isFalse fun ⟨_, h, _⟩ => by cases h
  | some e => decidable_of_iff (e.status ≠ .open ∧ e.index ≤ index)
      ⟨fun h => ⟨e, rfl, h⟩, fun ⟨_, h, hclosed⟩ => by cases h; exact hclosed⟩

/-- The loop of `_resolve_exit` closes the position exactly if `_resolve_exit` does. -/
theorem closedBy_iff (tpDistance slDistance : ℚ) (bars : List Bar) (entryIndex last : ℕ) :
    ClosedBy (resolveExit round side fillPrice tpDistance slDistance bars entryIndex spec costs)
        (entryIndex + last) ↔
      ∃ c, resolveLoop round side fillPrice (ahead round side fillPrice tpDistance)
        (mul round spec.stopLimitCapTicks spec.tickSize) spec costs
        (exitStart round side fillPrice tpDistance slDistance spec) 0 (bars.drop entryIndex)
          = .close c ∧ c.offset ≤ last := by
  rw [resolveExit]
  cases resolveLoop round side fillPrice (ahead round side fillPrice tpDistance)
    (mul round spec.stopLimitCapTicks spec.tickSize) spec costs
    (exitStart round side fillPrice tpDistance slDistance spec) 0 (bars.drop entryIndex) with
  | close c =>
    refine ⟨?_, ?_⟩
    · rintro ⟨e, h, -, hindex⟩
      cases h
      exact ⟨c, rfl, by simpa using hindex⟩
    · rintro ⟨c', h, hlast⟩
      cases h
      refine ⟨_, rfl, ?_, Nat.add_le_add_left hlast _⟩
      dsimp only
      split <;> simp
  | next s =>
    refine ⟨?_, ?_⟩
    · rintro ⟨e, h, hstatus, -⟩
      obtain ⟨last, -, rfl⟩ := Option.map_eq_some_iff.mp h
      exact absurd rfl hstatus
    · rintro ⟨c, h, -⟩
      cases h

/-- A position whose stop child a bar arms is closed within the window of the escalation exactly if a
    bar of the window triggers the stop again and its limit trades there, or the window of the first
    arming is over at it. A bar that is back above the stop escalates nothing. -/
theorem escalates_iff (round : ℚ → ℚ) (side : OrderSide) (fillPrice tpDistance slDistance : ℚ)
    (bars : List Bar) (entryIndex : ℕ) (spec : VariantSpec) (costs : CostModel)
    (hstyle : spec.exit = .stopLimit) (hwindow : 0 < spec.stopLimitEscalationBars)
    {k : ℕ} {s : ExitState} {bar : Bar} {reason : String}
    (hstate : stateBefore round side fillPrice (ahead round side fillPrice tpDistance)
      (mul round spec.stopLimitCapTicks spec.tickSize) spec costs
      (exitStart round side fillPrice tpDistance slDistance spec) 0 (bars.drop entryIndex) k
        = some s)
    (hbar : bars[entryIndex + k]? = some bar)
    (harms : stopExitPrice round side s.stopPrice bar costs spec.exit
      (mul round spec.stopLimitCapTicks spec.tickSize) = .triggeredUnfilled reason) :
    ClosedBy (resolveExit round side fillPrice tpDistance slDistance bars entryIndex spec costs)
        (entryIndex + (k + spec.stopLimitEscalationBars)) ↔
      ∃ j b, k ≤ j ∧ j ≤ k + spec.stopLimitEscalationBars ∧ bars[entryIndex + j]? = some b ∧
        Closes round side (mul round spec.stopLimitCapTicks spec.tickSize) spec
          (s.armedOffset.getD k) s.stopPrice j b := by
  have hpath : (bars.drop entryIndex).drop k = bar :: bars.drop (entryIndex + k + 1) := by
    obtain ⟨hlt, hget⟩ := List.getElem?_eq_some_iff.mp hbar
    rw [List.drop_drop, List.drop_eq_getElem_cons hlt, hget]
  rw [closedBy_iff, resolveLoop_stateBefore round side fillPrice _ _ spec costs hstate, hpath,
    resolveLoop_arms round side fillPrice _ _ spec costs harms,
    resolveLoop_armed round side fillPrice _ _ spec costs hstyle hwindow rfl, ← hpath,
    List.drop_drop]
  constructor
  · rintro ⟨j, b, hlast, hget, hcloses⟩
    rw [Nat.zero_add] at hlast hcloses
    refine ⟨k + j, b, by omega, hlast, ?_, hcloses⟩
    rwa [List.getElem?_drop, Nat.add_assoc] at hget
  · rintro ⟨j, b, hle, hlast, hget, hcloses⟩
    obtain ⟨i, rfl⟩ := Nat.exists_eq_add_of_le hle
    rw [Nat.zero_add]
    refine ⟨i, b, hlast, ?_, hcloses⟩
    rwa [List.getElem?_drop, Nat.add_assoc]

end

namespace EscalationSample

def spec : VariantSpec where
  entry := .stopBreakout
  exit := .stopLimit
  geometry := { geometry := .fixed 5 1 }
  tick_pos := by norm_num
  window_pos := by decide
  sweep_pos := by decide
  breakeven_pos := by rintro f ⟨⟩

def costs : CostModel := ⟨0, 0, 0, by norm_num⟩

/-- The bar that arms the stop at 99: its low lies between the stop and the limit at 98.70. -/
def arming : Bar := ⟨0, 100, 100, 989 / 10, 995 / 10⟩

/-- A bar back above the stop. -/
def recovered (start : ℤ) : Bar := ⟨start, 995 / 10, 100, 992 / 10, 996 / 10⟩

/-- A bar that triggers the stop at 99 again and stays above the limit. -/
def again (start : ℤ) : Bar := ⟨start, 995 / 10, 100, 989 / 10, 99⟩

end EscalationSample

open EscalationSample in
/-- A stop that is armed in the bar of the entry and not triggered again: the position is open past the
    window of three bars. -/
theorem recovered_stays_open :
    stateBefore id .buy 100 (ahead id .buy 100 5) (mul id 30 (1 / 100)) spec costs
        (exitStart id .buy 100 5 1 spec) 0
        [arming, recovered 1, recovered 2, recovered 3, recovered 4] 0
      = some (exitStart id .buy 100 5 1 spec) ∧
    stopExitPrice id .buy (exitStart id .buy 100 5 1 spec).stopPrice arming costs spec.exit
        (mul id 30 (1 / 100)) = .triggeredUnfilled "STOP_LIMIT_ARMED" ∧
    ¬ ClosedBy (resolveExit id .buy 100 5 1
        [arming, recovered 1, recovered 2, recovered 3, recovered 4] 0 spec costs)
        (0 + (0 + spec.stopLimitEscalationBars)) := by
  refine ⟨rfl, ?_, ?_⟩
  · decide +kernel
  · decide +kernel

open EscalationSample in
theorem escalates_iff_again :
    ClosedBy (resolveExit id .buy 100 5 1 [arming, recovered 1, recovered 2, again 3] 0 spec costs)
      (0 + (0 + spec.stopLimitEscalationBars)) :=
  have harms : stopExitPrice id .buy (exitStart id .buy 100 5 1 spec).stopPrice arming costs
      spec.exit (mul id 30 (1 / 100)) = .triggeredUnfilled "STOP_LIMIT_ARMED" := by
    decide +kernel
  (escalates_iff id .buy 100 5 1 [arming, recovered 1, recovered 2, again 3] 0 spec costs rfl
    (by decide) rfl rfl harms).mpr
    ⟨3, again 3, by decide, by decide, rfl, by decide +kernel, .inr (by decide)⟩

end ScalpingBot.Backtest
