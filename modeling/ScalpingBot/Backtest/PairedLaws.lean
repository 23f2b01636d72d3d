import ScalpingBot.Backtest.Paired
import ScalpingBot.Library.HalfEven
import ScalpingBot.Library.Sorted

/-! What a target or a stop that `replay` reports says about the tape, and how the outcomes of two
    targets compare. -/

namespace ScalpingBot.Backtest

open Evaluation (Quote sign)
open Rounded

/-! ### Breaks -/

theorem broken_iff {tape : Tape} {after through maxGap : ℤ} :
    tape.broken after through maxGap ↔
      maxGap < through - after ∨ ∃ i ∈ tape.invalid, after < i ∧ i ≤ through := by
  have hdrop : tape.invalid.drop (bisectRight tape.invalid after) =
      tape.invalid.filter (after < ·) := Sorted.drop_countP_le id tape.sorted after
  have hhead : tape.invalid[bisectRight tape.invalid after]? =
      (tape.invalid.filter (after < ·)).head? := by
    rw [← hdrop, List.head?_drop]
  have hfirst : ((tape.invalid.filter (after < ·)).head?).any (· ≤ through) ↔
      ∃ i ∈ tape.invalid, after < i ∧ i ≤ through :=
    Sorted.head?_filter_any id tape.sorted after through
  rw [Tape.broken, hhead, decide_eq_true_eq, hfirst]

theorem drop_bisectRight (tape : Tape) (start : ℤ) :
    tape.quotes.drop (bisectRight tape.times start) = tape.quotes.filter (start < ·.time) := by
  rw [← Sorted.drop_countP_le Quote.time (tape.ordered.imp le_of_lt) start, bisectRight, Tape.times,
    List.countP_map]
  rfl

section

variable {context : Context} {setup : Setup} {tape : Tape} {stop : ℤ} {a : Assumptions}
  {legs : List Leg} {tpFactor : ℚ} {anchor : Option Leg}

/-! ### The path -/

/-- The quotes that the loop has seen since its start. -/
structure Path (tape : Tape) (maxGap start : ℤ) (seen : List Quote) (previous : ℤ) : Prop where
  mem : ∀ q ∈ seen, q ∈ tape.quotes ∧ start < q.time ∧ q.time ≤ previous
  complete : ∀ q ∈ tape.quotes, start < q.time → q.time ≤ previous → q ∈ seen
  start_le : start ≤ previous
  /-- After the start and after every quote there is another in time. -/
  close : ∀ x, (x = start ∨ ∃ q ∈ seen, q.time = x) → x < previous →
    ∃ q ∈ seen, x < q.time ∧ q.time ≤ x + maxGap
  valid : ∀ i ∈ tape.invalid, start < i → previous < i

theorem path_nil (tape : Tape) (maxGap start : ℤ) : Path tape maxGap start [] start where
  mem := by simp
  complete q _ h h' := absurd h h'.not_gt
  start_le := le_rfl
  close x h h' := by
    rcases h with rfl | ⟨q, hq, -⟩
    · exact absurd h' (lt_irrefl _)
    · cases hq
  valid _ _ h := h

/-- The next quote, if the path to it is not broken. -/
theorem Path.next {maxGap start previous : ℤ} {seen rest : List Quote} {quote : Quote}
    (h : Path tape maxGap start seen previous)
    (hlast : previous = start ∨ ∃ q ∈ seen, q.time = previous)
    (hrest : tape.quotes.filter (previous < ·.time) = quote :: rest)
    (hwhole : ¬ tape.broken previous quote.time maxGap) :
    Path tape maxGap start (seen ++ [quote]) quote.time ∧
      tape.quotes.filter (quote.time < ·.time) = rest := by
  have hquote : quote ∈ tape.quotes ∧ previous < quote.time := by
    have : quote ∈ tape.quotes.filter (previous < ·.time) := by
      rw [hrest]
      exact List.mem_cons_self
    simpa using this
  have hsorted : (quote :: rest).Pairwise fun a b => a.time < b.time := by
    rw [← hrest]
    exact tape.ordered.filter _
  obtain ⟨hfirst, -⟩ := List.pairwise_cons.mp hsorted
  rw [broken_iff, not_or] at hwhole
  obtain ⟨hgap, hvalid⟩ := hwhole
  refine ⟨⟨?_, ?_, h.start_le.trans hquote.2.le, ?_, ?_⟩, ?_⟩
  · intro q hq
    rcases List.mem_append.mp hq with hq | hq
    · obtain ⟨hmem, hlt, hle⟩ := h.mem q hq
      exact ⟨hmem, hlt, hle.trans hquote.2.le⟩
    · rw [List.mem_singleton.mp hq]
      exact ⟨hquote.1, h.start_le.trans_lt hquote.2, le_rfl⟩
  · intro q hq hlt hle
    by_cases hold : q.time ≤ previous
    · exact List.mem_append_left _ (h.complete q hq hlt hold)
    · have hmem : q ∈ quote :: rest := by
        rw [← hrest]
        exact List.mem_filter.mpr ⟨hq, by simpa using hold⟩
      rcases List.mem_cons.mp hmem with rfl | hmem
      · exact List.mem_append_right _ List.mem_cons_self
      · exact absurd hle (hfirst q hmem).not_ge
  · intro x hx hlt
    by_cases hold : x < previous
    · have hx : x = start ∨ ∃ q ∈ seen, q.time = x := by
        rcases hx with hx | ⟨q, hq, rfl⟩
        · exact .inl hx
        · rcases List.mem_append.mp hq with hq | hq
          · exact .inr ⟨q, hq, rfl⟩
          · rw [List.mem_singleton.mp hq] at hlt
            exact absurd hlt (lt_irrefl _)
      obtain ⟨q, hq, hnext⟩ := h.close x hx hold
      exact ⟨q, List.mem_append_left _ hq, hnext⟩
    · have hx : x = previous := by
        rcases hx with rfl | ⟨q, hq, rfl⟩
        · exact le_antisymm h.start_le (not_lt.mp hold)
        · rcases List.mem_append.mp hq with hq | hq
          · exact le_antisymm (h.mem q hq).2.2 (not_lt.mp hold)
          · rw [List.mem_singleton.mp hq] at hlt
            exact absurd hlt (lt_irrefl _)
      exact ⟨quote, by simp, hlt, by omega⟩
  · intro i hi hlt
    by_contra hle
    exact hvalid ⟨i, hi, h.valid i hi hlt, not_lt.mp hle⟩
  · have hmore : tape.quotes.filter (quote.time < ·.time)
        = (tape.quotes.filter (previous < ·.time)).filter (quote.time < ·.time) := by
      rw [List.filter_filter]
      refine List.filter_congr fun q _ => ?_
      by_cases hlt : quote.time < q.time
      · simp [hlt, hquote.2.trans hlt]
      · simp [hlt]
    rw [hmore, hrest, List.filter_cons_of_neg (by simp), List.filter_eq_self]
    intro q hq
    simpa using hfirst q hq

/-! ### The legs -/

/-- A target or a stop. -/
def Closed (o : Outcome) : Prop := o.status = .sl ∨ o.status = .tp

/-- What the loop over the legs does with a leg that is in the race. -/
theorem fillLeg_position {quote : Quote} {s s' : ReplayState} {leg position : Leg}
    (hposition : s.position = some position)
    (h : fillLeg context setup a legs quote s leg = .ok s') :
    s' = s ∧ (leg.side ≠ position.side → quote.time ≤ s.fillAt.getD 0 + a.cancelMs →
      ¬ hits context setup a quote leg) := by
  rw [fillLeg] at h
  split at h
  · rename_i hsettled
    cases h
    refine ⟨rfl, fun hside hrace => ?_⟩
    simp only [settled, hposition, decide_eq_true_eq] at hsettled
    rcases hsettled with hsame | hlate
    · exact absurd hsame hside
    · exact absurd hrace hlate.not_ge
  · split at h
    · rename_i hquiet
      cases h
      exact ⟨rfl, fun _ _ => hquiet⟩
    · rw [hposition] at h
      cases h

theorem fillLeg_free {quote : Quote} {s s' : ReplayState} {leg : Leg} (hfree : s.position = none)
    (h : fillLeg context setup a legs quote s leg = .ok s') :
    s' = s ∨ (hits context setup a quote leg ∧ (∀ x ∈ legs, x.accepted + a.latencyMs ≤ quote.time) ∧
      s' = { s with
        position := some leg
        fillAt := some quote.time
        fillPrice := some leg.entry }) := by
  rw [fillLeg] at h
  split at h
  · cases h
    exact .inl rfl
  · split at h
    · cases h
      exact .inl rfl
    · rename_i hhits
      simp only [hfree] at h
      split at h
      · cases h
      · rename_i hactive
        cases h
        refine .inr ⟨by simpa using hhits, ?_, rfl⟩
        simpa using hactive

theorem fillLeg_error {quote : Quote} {s : ReplayState} {leg : Leg} {o : Outcome}
    (h : fillLeg context setup a legs quote s leg = .error (.outcome o)) : ¬ Closed o := by
  rw [fillLeg] at h
  split at h
  · cases h
  · split at h
    · cases h
    · split at h
      · cases h
        rintro (h | h) <;> cases h
      · split at h
        · cases h
          rintro (h | h) <;> cases h
        · cases h

theorem activate_ok {quote : Quote} {s s' : ReplayState} {leg : Leg}
    (h : activate context tape a quote s leg = .ok s') :
    ∃ sides, s' = { s with activated := sides } := by
  rw [activate] at h
  split at h
  · cases h
    exact ⟨_, rfl⟩
  · split at h
    · cases h
    · split at h
      · cases h
      · split at h
        · cases h
        · cases h
          exact ⟨_, rfl⟩

theorem activate_error {quote : Quote} {s : ReplayState} {leg : Leg} {o : Outcome}
    (h : activate context tape a quote s leg = .error (.outcome o)) : ¬ Closed o := by
  rw [activate] at h
  split at h
  · cases h
  · split at h
    · cases h
      rintro (h | h) <;> cases h
    · split at h
      · cases h
        rintro (h | h) <;> cases h
      · split at h
        · cases h
          rintro (h | h) <;> cases h
        · cases h

theorem passLeg_error {quote : Quote} {s : ReplayState} {leg : Leg} {o : Outcome}
    (h : passLeg context setup tape a legs quote s leg = .error (.outcome o)) : ¬ Closed o := by
  rw [passLeg] at h
  split at h
  · cases h
  · rcases bind_error.mp h with h | ⟨s', -, h⟩
    · exact activate_error h
    · exact fillLeg_error h

/-- The position and what belongs to it are the same. -/
structure SamePosition (s s' : ReplayState) : Prop where
  position : s'.position = s.position
  fillAt : s'.fillAt = s.fillAt
  fillPrice : s'.fillPrice = s.fillPrice
  previous : s'.previous = s.previous
  deferredClose : s'.deferredClose = s.deferredClose

theorem SamePosition.trans {s s' s'' : ReplayState} (h : SamePosition s s')
    (h' : SamePosition s' s'') : SamePosition s s'' :=
  ⟨h'.position.trans h.position, h'.fillAt.trans h.fillAt, h'.fillPrice.trans h.fillPrice,
    h'.previous.trans h.previous, h'.deferredClose.trans h.deferredClose⟩

/-- A quote fills a leg of the race, with all legs active. -/
structure Fills (context : Context) (setup : Setup) (a : Assumptions) (legs : List Leg)
    (quote : Quote) (s s' : ReplayState) (leg : Leg) : Prop where
  mem : leg ∈ legs
  hit : hits context setup a quote leg
  active : ∀ x ∈ legs, x.accepted + a.latencyMs ≤ quote.time
  position : s'.position = some leg
  fillAt : s'.fillAt = some quote.time
  fillPrice : s'.fillPrice = some leg.entry
  previous : s'.previous = s.previous
  deferredClose : s'.deferredClose = s.deferredClose

/-- A position that is there before a leg's pass is there after it, and the leg has not been hit in
    the race. -/
theorem passLeg_position {quote : Quote} {s s' : ReplayState} {leg position : Leg}
    (hposition : s.position = some position)
    (h : passLeg context setup tape a legs quote s leg = .ok s') :
    SamePosition s s' ∧ (leg.accepted + a.latencyMs ≤ quote.time → leg.side ≠ position.side →
      quote.time ≤ s.fillAt.getD 0 + a.cancelMs → ¬ hits context setup a quote leg) := by
  rw [passLeg] at h
  split at h
  · rename_i hinactive
    cases h
    exact ⟨⟨rfl, rfl, rfl, rfl, rfl⟩, fun hactive => absurd hactive hinactive.not_ge⟩
  · obtain ⟨next, hnext, h⟩ := bind_ok.mp h
    obtain ⟨sides, rfl⟩ := activate_ok hnext
    obtain ⟨rfl, hquiet⟩ := fillLeg_position (by exact hposition) h
    exact ⟨⟨rfl, rfl, rfl, rfl, rfl⟩, fun _ => hquiet⟩

theorem passLeg_free {quote : Quote} {s s' : ReplayState} {leg : Leg} (hleg : leg ∈ legs)
    (hfree : s.position = none) (h : passLeg context setup tape a legs quote s leg = .ok s') :
    SamePosition s s' ∨ Fills context setup a legs quote s s' leg := by
  rw [passLeg] at h
  split at h
  · cases h
    exact .inl ⟨rfl, rfl, rfl, rfl, rfl⟩
  · obtain ⟨next, hnext, h⟩ := bind_ok.mp h
    obtain ⟨sides, rfl⟩ := activate_ok hnext
    rcases fillLeg_free (by exact hfree) h with rfl | ⟨hhits, hactive, rfl⟩
    · exact .inl ⟨rfl, rfl, rfl, rfl, rfl⟩
    · exact .inr ⟨hleg, hhits, hactive, rfl, rfl, rfl, rfl, rfl⟩

/-- The pass of the legs over a position that is there before it. -/
theorem passLegs_position {quote : Quote} {racing : List Leg} {s s' : ReplayState} {position : Leg}
    (hposition : s.position = some position)
    (h : racing.foldlM (passLeg context setup tape a legs quote) s = .ok s') :
    SamePosition s s' ∧ ∀ leg ∈ racing, leg.accepted + a.latencyMs ≤ quote.time →
      leg.side ≠ position.side → quote.time ≤ s.fillAt.getD 0 + a.cancelMs →
        ¬ hits context setup a quote leg := by
  induction racing generalizing s with
  | nil =>
    cases h
    exact ⟨⟨rfl, rfl, rfl, rfl, rfl⟩, by simp⟩
  | cons leg rest ih =>
    obtain ⟨next, hnext, hrest⟩ := bind_ok.mp h
    obtain ⟨hsame, hquiet⟩ := passLeg_position hposition hnext
    obtain ⟨hsame', hquiet'⟩ := ih (hsame.position.trans hposition) hrest
    rw [hsame.fillAt] at hquiet'
    exact ⟨hsame.trans hsame', List.forall_mem_cons.mpr ⟨hquiet, hquiet'⟩⟩

/-- The pass of the legs where there is no position. -/
theorem passLegs_free {quote : Quote} {racing : List Leg} {s s' : ReplayState}
    (hracing : ∀ leg ∈ racing, leg ∈ legs) (hfree : s.position = none)
    (h : racing.foldlM (passLeg context setup tape a legs quote) s = .ok s') :
    SamePosition s s' ∨ ∃ leg, Fills context setup a legs quote s s' leg := by
  induction racing generalizing s with
  | nil =>
    cases h
    exact .inl ⟨rfl, rfl, rfl, rfl, rfl⟩
  | cons leg rest ih =>
    obtain ⟨next, hnext, hrest⟩ := bind_ok.mp h
    obtain ⟨hleg, hracing⟩ := List.forall_mem_cons.mp hracing
    rcases passLeg_free hleg hfree hnext with hsame | hfills
    · rcases ih hracing (hsame.position.trans hfree) hrest with hsame' | ⟨other, hfills⟩
      · exact .inl (hsame.trans hsame')
      · exact .inr ⟨other, { hfills with
          previous := hfills.previous.trans hsame.previous
          deferredClose := hfills.deferredClose.trans hsame.deferredClose }⟩
    · obtain ⟨hsame, -⟩ := passLegs_position hfills.position hrest
      exact .inr ⟨leg, { hfills with
        position := hsame.position.trans hfills.position
        fillAt := hsame.fillAt.trans hfills.fillAt
        fillPrice := hsame.fillPrice.trans hfills.fillPrice
        previous := hsame.previous.trans hfills.previous
        deferredClose := hsame.deferredClose.trans hfills.deferredClose }⟩

theorem passLegs_error {quote : Quote} {racing : List Leg} {s : ReplayState} {o : Outcome}
    (h : racing.foldlM (passLeg context setup tape a legs quote) s = .error (.outcome o)) :
    ¬ Closed o := by
  induction racing generalizing s with
  | nil => cases h
  | cons leg rest ih =>
    rcases bind_error.mp h with h | ⟨next, -, h⟩
    · exact passLeg_error h
    · exact ih h

/-! ### A position -/

/-- What the position is, when it was filled and at which price. -/
def Opened (context : Context) (setup : Setup) (tape : Tape) (a : Assumptions) (legs : List Leg)
    (start : ℤ) (leg : Leg) (fillAt : ℤ) (fillPrice : ℚ) : Option Leg → Prop
  | some anchor => leg = anchor ∧ anchor.fillTime = some fillAt ∧ anchor.fillPrice = some fillPrice ∧
      fillAt = start
  | none => leg ∈ legs ∧ fillPrice = leg.entry ∧ start < fillAt ∧
      (∀ x ∈ legs, x.accepted + a.latencyMs ≤ fillAt) ∧
      ∃ q ∈ tape.quotes, q.time = fillAt ∧ hits context setup a q leg

/-- No quote of the race after the fill hits the other leg. -/
def RaceWon (context : Context) (setup : Setup) (a : Assumptions) (legs : List Leg) (leg : Leg)
    (fillAt : ℤ) (seen : List Quote) : Prop :=
  ∀ q ∈ seen, fillAt < q.time → q.time ≤ fillAt + a.cancelMs →
    ∀ x ∈ legs, x.side ≠ leg.side → ¬ hits context setup a q x

/-- The quote at which an outcome was reached: the first since the fill that reaches the target or the
    stop. -/
def FirstExit (context : Context) (setup : Setup) (a : Assumptions) (tpFactor : ℚ) (leg : Leg)
    (fillAt : ℤ) (fillPrice : ℚ) (seen : List Quote) (o : Outcome) : Prop :=
  o.side = some leg.side ∧ o.filledAt = some fillAt ∧ fillAt ≤ o.time ∧
    (∃ q ∈ seen, q.time = o.time ∧
      exitStatus context a leg fillPrice (targetOf context setup leg tpFactor) q = some o.status) ∧
    ∀ q ∈ seen, fillAt ≤ q.time → q.time < o.time →
      exitStatus context a leg fillPrice (targetOf context setup leg tpFactor) q = none

/-- What is known of the position in the loop. -/
structure Watched (context : Context) (setup : Setup) (tape : Tape) (a : Assumptions)
    (legs : List Leg) (tpFactor : ℚ) (anchor : Option Leg) (start : ℤ) (seen : List Quote)
    (s : ReplayState) (leg : Leg) (fillAt : ℤ) (fillPrice : ℚ) : Prop where
  opened : Opened context setup tape a legs start leg fillAt fillPrice anchor
  filled : fillAt ≤ s.previous
  race : anchor = none → RaceWon context setup a legs leg fillAt seen
  quiet : s.deferredClose = none → ∀ q ∈ seen, fillAt ≤ q.time →
    exitStatus context a leg fillPrice (targetOf context setup leg tpFactor) q = none
  exit : ∀ o, s.deferredClose = some o →
    FirstExit context setup a tpFactor leg fillAt fillPrice seen o

/-- The invariant of the loop over the quotes. -/
structure Replaying (context : Context) (setup : Setup) (tape : Tape) (a : Assumptions)
    (legs : List Leg) (tpFactor : ℚ) (anchor : Option Leg) (start : ℤ) (seen : List Quote)
    (s : ReplayState) : Prop where
  path : Path tape a.maxGapMs start seen s.previous
  last : s.previous = start ∨ ∃ q ∈ seen, q.time = s.previous
  free : s.position = none → anchor = none ∧ s.fillAt = none ∧ s.deferredClose = none
  position : ∀ leg fillAt fillPrice, s.position = some leg → s.fillAt = some fillAt →
    s.fillPrice = some fillPrice →
    Watched context setup tape a legs tpFactor anchor start seen s leg fillAt fillPrice
  priced : ∀ leg, anchor = none → s.position = some leg →
    ∃ fillAt, s.fillAt = some fillAt ∧ s.fillPrice = some leg.entry

/-- What a reported target or stop says. -/
def Justified (context : Context) (setup : Setup) (tape : Tape) (a : Assumptions) (legs : List Leg)
    (tpFactor : ℚ) (anchor : Option Leg) (start : ℤ) (seen : List Quote) (last : ℤ)
    (o : Outcome) : Prop :=
  ∃ leg fillAt fillPrice, Path tape a.maxGapMs start seen last ∧
    Opened context setup tape a legs start leg fillAt fillPrice anchor ∧
    FirstExit context setup a tpFactor leg fillAt fillPrice seen o ∧
    (anchor = none → RaceWon context setup a legs leg fillAt seen ∧ fillAt + a.cancelMs < last)

theorem exitStatus_cases {leg : Leg} {fillPrice target : ℚ} {q : Quote} :
    exitStatus context a leg fillPrice target q = none ∨
      exitStatus context a leg fillPrice target q = some .sl ∨
      exitStatus context a leg fillPrice target q = some .tp := by
  simp only [exitStatus]
  split
  · exact .inr (.inl rfl)
  · split
    · exact .inr (.inr rfl)
    · exact .inl rfl

theorem FirstExit.mono {leg : Leg} {fillAt : ℤ} {fillPrice : ℚ} {seen : List Quote} {quote : Quote}
    {o : Outcome} (h : FirstExit context setup a tpFactor leg fillAt fillPrice seen o)
    (hlate : ∀ q ∈ seen, q.time < quote.time) :
    FirstExit context setup a tpFactor leg fillAt fillPrice (seen ++ [quote]) o := by
  obtain ⟨hside, hfilled, hle, ⟨q, hq, htime, hstatus⟩, hbefore⟩ := h
  refine ⟨hside, hfilled, hle, ⟨q, List.mem_append_left _ hq, htime, hstatus⟩, ?_⟩
  intro r hr hrfill hrtime
  rcases List.mem_append.mp hr with hr | hr
  · exact hbefore r hr hrfill hrtime
  · rw [List.mem_singleton.mp hr, ← htime] at hrtime
    exact absurd hrtime (hlate q hq).not_gt

/-- What a quote does to a position, after the legs of the race. -/
theorem closePosition_spec (anchor : Option Leg) {quote : Quote} {s : ReplayState} {leg : Leg} {fillAt : ℤ}
    {fillPrice : ℚ} {seen : List Quote} (hlate : ∀ q ∈ seen, q.time < quote.time)
    (hfill : fillAt ≤ quote.time)
    (hquiet : s.deferredClose = none → ∀ q ∈ seen, fillAt ≤ q.time →
      exitStatus context a leg fillPrice (targetOf context setup leg tpFactor) q = none)
    (hexit : ∀ o, s.deferredClose = some o →
      FirstExit context setup a tpFactor leg fillAt fillPrice seen o) :
    (∀ s', closePosition context setup a tpFactor anchor quote s leg fillAt fillPrice = .ok s' →
      s' = { s with deferredClose := s'.deferredClose } ∧
      (s'.deferredClose = none → ∀ q ∈ seen ++ [quote], fillAt ≤ q.time →
        exitStatus context a leg fillPrice (targetOf context setup leg tpFactor) q = none) ∧
      ∀ o, s'.deferredClose = some o →
        FirstExit context setup a tpFactor leg fillAt fillPrice (seen ++ [quote]) o) ∧
    (∀ o, closePosition context setup a tpFactor anchor quote s leg fillAt fillPrice
        = .error (.outcome o) →
      FirstExit context setup a tpFactor leg fillAt fillPrice (seen ++ [quote]) o ∧
        (anchor = none → fillAt + a.cancelMs < quote.time)) := by
  have hproven : (anchor.isSome ∨ quote.time > fillAt + a.cancelMs) → anchor = none →
      fillAt + a.cancelMs < quote.time := by
    rintro (h | h) rfl
    · cases h
    · exact h
  cases hdeferred : s.deferredClose with
  | some result =>
    have hresult := (hexit result hdeferred).mono hlate
    simp only [closePosition, hdeferred, decide_eq_true_eq]
    refine ⟨fun s' h => ?_, fun o h => ?_⟩
    · split at h
      · cases h
      · cases h
        refine ⟨rfl, fun hnone => ?_, fun o ho => ?_⟩
        · rw [hdeferred] at hnone
          cases hnone
        · rw [hdeferred] at ho
          cases ho
          exact hresult
    · split at h
      · rename_i hcancel
        cases h
        exact ⟨hresult, hproven hcancel⟩
      · cases h
  | none =>
    have hbefore := hquiet hdeferred
    have hresult : ∀ status gross,
        exitStatus context a leg fillPrice (targetOf context setup leg tpFactor) quote
          = some status →
        FirstExit context setup a tpFactor leg fillAt fillPrice (seen ++ [quote])
          ⟨status, quote.time, some leg.side, some fillAt, some gross⟩ := by
      intro status gross hstatus
      refine ⟨rfl, rfl, hfill, ⟨quote, by simp, rfl, hstatus⟩, fun q hq hqfill hqtime => ?_⟩
      rcases List.mem_append.mp hq with hq | hq
      · exact hbefore q hq hqfill
      · rw [List.mem_singleton.mp hq] at hqtime
        exact absurd hqtime (lt_irrefl _)
    simp only [closePosition, hdeferred, decide_eq_true_eq]
    by_cases htarget : targetOf context setup leg tpFactor ≤ 0
    · simp only [htarget, if_true]
      exact ⟨fun s' h => (by cases h), fun o h => (by cases h)⟩
    · simp only [htarget, if_false]
      cases hstatus : exitStatus context a leg fillPrice (targetOf context setup leg tpFactor)
          quote with
      | none =>
        refine ⟨fun s' h => ?_, fun o h => (by cases h)⟩
        cases h
        refine ⟨rfl, fun _ q hq hqfill => ?_, fun o ho => ?_⟩
        · rcases List.mem_append.mp hq with hq | hq
          · exact hbefore q hq hqfill
          · rw [List.mem_singleton.mp hq]
            exact hstatus
        · rw [hdeferred] at ho
          cases ho
      | some status =>
        refine ⟨fun s' h => ?_, fun o h => ?_⟩
        · dsimp only at h
          split at h
          · cases h
          · cases h
            refine ⟨rfl, fun hnone => (by cases hnone), fun o ho => ?_⟩
            cases ho
            exact hresult status _ hstatus
        · dsimp only at h
          split at h
          · rename_i hcancel
            cases h
            exact ⟨hresult status _ hstatus, hproven hcancel⟩
          · cases h

/-- What is known of a position between the legs of the race and its exit. -/
structure Raced (context : Context) (setup : Setup) (tape : Tape) (a : Assumptions)
    (legs : List Leg) (tpFactor : ℚ) (anchor : Option Leg) (start : ℤ) (seen : List Quote)
    (quote : Quote) (s : ReplayState) (leg : Leg) (fillAt : ℤ) (fillPrice : ℚ) : Prop where
  opened : Opened context setup tape a legs start leg fillAt fillPrice anchor
  filled : fillAt ≤ quote.time
  race : anchor = none → RaceWon context setup a legs leg fillAt (seen ++ [quote])
  quiet : s.deferredClose = none → ∀ q ∈ seen, fillAt ≤ q.time →
    exitStatus context a leg fillPrice (targetOf context setup leg tpFactor) q = none
  exit : ∀ o, s.deferredClose = some o →
    FirstExit context setup a tpFactor leg fillAt fillPrice seen o

/-- The legs of the race at one quote. -/
theorem racing_spec {quote : Quote} {s s' : ReplayState} {start : ℤ} {seen : List Quote}
    (h : Replaying context setup tape a legs tpFactor anchor start seen s)
    (hquote : quote ∈ tape.quotes) (hlate : s.previous < quote.time)
    (hrace : (racing legs anchor).foldlM (passLeg context setup tape a legs quote)
      { s with previous := quote.time } = .ok s') :
    s'.previous = quote.time ∧
    (s'.position = none → anchor = none ∧ s'.fillAt = none ∧ s'.deferredClose = none) ∧
    (∀ leg, anchor = none → s'.position = some leg →
      ∃ fillAt, s'.fillAt = some fillAt ∧ s'.fillPrice = some leg.entry) ∧
    ∀ leg fillAt fillPrice, s'.position = some leg → s'.fillAt = some fillAt →
      s'.fillPrice = some fillPrice →
      Raced context setup tape a legs tpFactor anchor start seen quote s' leg fillAt fillPrice := by
  have hseen : ∀ q ∈ seen, q.time < quote.time := fun q hq => (h.path.mem q hq).2.2.trans_lt hlate
  have hbefore : ∀ leg fillAt fillPrice, s.position = some leg → s.fillAt = some fillAt →
      s.fillPrice = some fillPrice → SamePosition { s with previous := quote.time } s' →
      (anchor = none → ∀ x ∈ legs, x.accepted + a.latencyMs ≤ quote.time → x.side ≠ leg.side →
        quote.time ≤ fillAt + a.cancelMs → ¬ hits context setup a quote x) →
      Raced context setup tape a legs tpFactor anchor start seen quote s' leg fillAt fillPrice := by
    intro leg fillAt fillPrice hposition hfillAt hfillPrice hsame hquiet
    have hwatched := h.position leg fillAt fillPrice hposition hfillAt hfillPrice
    have hfilled : fillAt ≤ quote.time := hwatched.filled.trans hlate.le
    refine ⟨hwatched.opened, hfilled, fun hanchor => ?_, ?_, ?_⟩
    · intro q hq hqfill hqrace x hx hside
      rcases List.mem_append.mp hq with hq | hq
      · exact hwatched.race hanchor q hq hqfill hqrace x hx hside
      · rw [List.mem_singleton.mp hq] at hqrace ⊢
        have hopened := hwatched.opened
        rw [hanchor] at hopened
        exact hquiet hanchor x hx ((hopened.2.2.2.1 x hx).trans hfilled) hside hqrace
    · rw [hsame.deferredClose]
      exact hwatched.quiet
    · rw [hsame.deferredClose]
      exact hwatched.exit
  by_cases hanchor : anchor = none
  · rw [racing, if_neg (by simp [hanchor])] at hrace
    cases hposition : s.position with
    | some position =>
      obtain ⟨hsame, hquiet⟩ := passLegs_position (by exact hposition) hrace
      refine ⟨hsame.previous, fun hfree => ?_, fun leg _ hleg => ?_, ?_⟩
      · rw [hsame.position, hposition] at hfree
        cases hfree
      · rw [hsame.position] at hleg
        rw [hsame.fillAt, hsame.fillPrice]
        exact h.priced leg hanchor hleg
      · intro leg fillAt fillPrice hleg hfillAt hfillPrice
        rw [hsame.position] at hleg
        rw [hsame.fillAt] at hfillAt
        rw [hsame.fillPrice] at hfillPrice
        refine hbefore leg fillAt fillPrice hleg hfillAt hfillPrice hsame fun _ x hx hactive hside => ?_
        have heq : position = leg := Option.some.inj (hposition.symm.trans hleg)
        have := hquiet x hx hactive (heq ▸ hside)
        rw [hfillAt] at this
        exact this
    | none =>
      obtain ⟨-, hfillAt, hdeferred⟩ := h.free hposition
      rcases passLegs_free (fun leg hleg => hleg) (by exact hposition) hrace with
        hsame | ⟨leg, hfills⟩
      · refine ⟨hsame.previous, fun _ => ⟨hanchor, ?_, ?_⟩, fun leg _ hleg => ?_, ?_⟩
        · rw [hsame.fillAt]
          exact hfillAt
        · rw [hsame.deferredClose]
          exact hdeferred
        · rw [hsame.position, hposition] at hleg
          cases hleg
        · intro leg fillAt fillPrice hleg
          rw [hsame.position, hposition] at hleg
          cases hleg
      · refine ⟨hfills.previous, fun hfree => ?_, fun other _ hother => ?_, ?_⟩
        · rw [hfills.position] at hfree
          cases hfree
        · rw [hfills.position] at hother
          cases hother
          exact ⟨_, hfills.fillAt, hfills.fillPrice⟩
        · intro other fillAt fillPrice hother hat hprice
          rw [hfills.position] at hother
          rw [hfills.fillAt] at hat
          rw [hfills.fillPrice] at hprice
          cases hother
          cases hat
          cases hprice
          refine ⟨?_, le_rfl, fun _ q hq hlt => ?_, fun _ q hq hle => ?_, fun o ho => ?_⟩
          · rw [hanchor]
            exact ⟨hfills.mem, rfl, h.path.start_le.trans_lt hlate, hfills.active, quote, hquote,
              rfl, hfills.hit⟩
          · rcases List.mem_append.mp hq with hq | hq
            · exact absurd hlt (hseen q hq).not_gt
            · rw [List.mem_singleton.mp hq] at hlt
              exact absurd hlt (lt_irrefl _)
          · exact absurd hle (hseen q hq).not_ge
          · rw [hfills.deferredClose] at ho
            exact absurd (hdeferred.symm.trans ho) (by simp)
  · rw [racing, if_pos (Option.isSome_iff_ne_none.mpr hanchor)] at hrace
    cases hrace
    refine ⟨rfl, fun hfree => h.free hfree, fun leg hnone => absurd hnone hanchor, ?_⟩
    intro leg fillAt fillPrice hposition hfillAt hfillPrice
    exact hbefore leg fillAt fillPrice hposition hfillAt hfillPrice ⟨rfl, rfl, rfl, rfl, rfl⟩
      fun hnone => absurd hnone hanchor

theorem settle_cases (quote : Quote) (s : ReplayState) :
    (∃ leg fillAt fillPrice, s.position = some leg ∧ s.fillAt = some fillAt ∧
      s.fillPrice = some fillPrice ∧ settle context setup a tpFactor anchor quote s
        = closePosition context setup a tpFactor anchor quote s leg fillAt fillPrice) ∨
    ((s.position = none ∨ s.fillAt = none ∨ s.fillPrice = none) ∧
      settle context setup a tpFactor anchor quote s = .ok s) := by
  rw [settle]
  split
  · rename_i leg fillAt fillPrice hposition hfillAt hfillPrice
    exact .inl ⟨leg, fillAt, fillPrice, hposition, hfillAt, hfillPrice, rfl⟩
  · rename_i hnot
    refine .inr ⟨?_, rfl⟩
    cases hposition : s.position with
    | none => exact .inl rfl
    | some leg =>
      cases hfillAt : s.fillAt with
      | none => exact .inr (.inl rfl)
      | some fillAt =>
        cases hfillPrice : s.fillPrice with
        | none => exact .inr (.inr rfl)
        | some fillPrice => exact absurd hfillPrice (hnot leg fillAt fillPrice hposition hfillAt)

/-- One pass of the loop over the quotes. -/
theorem passQuote_spec {quote : Quote} {s : ReplayState} {start : ℤ} {seen rest : List Quote}
    (h : Replaying context setup tape a legs tpFactor anchor start seen s)
    (hrest : tape.quotes.filter (s.previous < ·.time) = quote :: rest) :
    (∀ s', passQuote context setup tape a legs tpFactor anchor s quote = .ok s' →
      Replaying context setup tape a legs tpFactor anchor start (seen ++ [quote]) s' ∧
        tape.quotes.filter (s'.previous < ·.time) = rest) ∧
    ∀ o, passQuote context setup tape a legs tpFactor anchor s quote = .error (.outcome o) →
      Closed o → Justified context setup tape a legs tpFactor anchor start (seen ++ [quote])
        quote.time o := by
  have hquote : quote ∈ tape.quotes ∧ s.previous < quote.time := by
    have : quote ∈ tape.quotes.filter (s.previous < ·.time) := by
      rw [hrest]
      exact List.mem_cons_self
    simpa using this
  rw [passQuote]
  by_cases hbroken : tape.broken s.previous quote.time a.maxGapMs
  · rw [if_pos hbroken]
    refine ⟨fun s' h => (by cases h), fun o h => ?_⟩
    cases h
    rintro (h | h) <;> cases h
  · rw [if_neg hbroken]
    obtain ⟨hpath, hfilter⟩ := h.path.next h.last hrest hbroken
    cases hrace : (racing legs anchor).foldlM (passLeg context setup tape a legs quote)
        { s with previous := quote.time } with
    | error stopped =>
      refine ⟨fun s' h => ?_, fun o h hclosed => ?_⟩
      · obtain ⟨next, hnext, -⟩ := bind_ok.mp h
        cases hnext
      · rcases bind_error.mp h with h | ⟨next, hnext, -⟩
        · exact absurd hclosed (passLegs_error (hrace.trans h))
        · cases hnext
    | ok next =>
      obtain ⟨hprevious, hfree, hpriced, hraced⟩ := racing_spec h hquote.1 hquote.2 hrace
      have hseen : ∀ q ∈ seen, q.time < quote.time :=
        fun q hq => (h.path.mem q hq).2.2.trans_lt hquote.2
      have hlast : quote.time = start ∨ ∃ q ∈ seen ++ [quote], q.time = quote.time :=
        .inr ⟨quote, by simp, rfl⟩
      simp only [ok_bind]
      rcases settle_cases quote next with
        ⟨leg, fillAt, fillPrice, hposition, hfillAt, hfillPrice, hsettle⟩ | ⟨hmissing, hsettle⟩
      · have hheld := hraced leg fillAt fillPrice hposition hfillAt hfillPrice
        obtain ⟨hok, herror⟩ := closePosition_spec anchor hseen hheld.filled hheld.quiet hheld.exit
        rw [hsettle]
        refine ⟨fun s' hs' => ?_, fun o ho _ => ?_⟩
        · obtain ⟨hsame, hquiet, hexit⟩ := hok s' hs'
          have hposition' : s'.position = some leg := by
            rw [hsame]
            exact hposition
          have hfillAt' : s'.fillAt = some fillAt := by
            rw [hsame]
            exact hfillAt
          have hfillPrice' : s'.fillPrice = some fillPrice := by
            rw [hsame]
            exact hfillPrice
          have hprevious' : s'.previous = quote.time := by
            rw [hsame]
            exact hprevious
          refine ⟨⟨?_, ?_, fun hnone => ?_, ?_, ?_⟩, ?_⟩
          · rw [hprevious']
            exact hpath
          · rw [hprevious']
            exact hlast
          · exact absurd (hposition'.symm.trans hnone) (by simp)
          · intro other at_ price hother hat hprice
            cases hposition'.symm.trans hother
            cases hfillAt'.symm.trans hat
            cases hfillPrice'.symm.trans hprice
            refine ⟨hheld.opened, ?_, hheld.race, hquiet, hexit⟩
            rw [hprevious']
            exact hheld.filled
          · intro other hanchor hother
            rw [hfillAt', hfillPrice', ← hfillAt, ← hfillPrice]
            cases hposition'.symm.trans hother
            exact hpriced leg hanchor hposition
          · rw [hprevious']
            exact hfilter
        · obtain ⟨hexit, hcancel⟩ := herror o ho
          exact ⟨leg, fillAt, fillPrice, hpath, hheld.opened, hexit,
            fun hanchor => ⟨hheld.race hanchor, hcancel hanchor⟩⟩
      · rw [hsettle]
        refine ⟨fun s' hs' => ?_, fun o ho => (by cases ho)⟩
        cases hs'
        refine ⟨⟨?_, ?_, hfree, ?_, hpriced⟩, ?_⟩
        · rw [hprevious]
          exact hpath
        · rw [hprevious]
          exact hlast
        · intro leg fillAt fillPrice hposition hfillAt hfillPrice
          rcases hmissing with hnone | hnone | hnone
          · exact absurd (hposition.symm.trans hnone) (by simp)
          · exact absurd (hfillAt.symm.trans hnone) (by simp)
          · exact absurd (hfillPrice.symm.trans hnone) (by simp)
        · rw [hprevious]
          exact hfilter

/-- A target or a stop with which the loop ends is one that its quotes justify. -/
theorem replayLoop_spec (seen : List Quote) {quotes : List Quote} {s : ReplayState} {start : ℤ}
    (h : Replaying context setup tape a legs tpFactor anchor start seen s)
    (hrest : tape.quotes.filter (s.previous < ·.time) = quotes) {o : Outcome}
    (hend : replayLoop context setup tape stop a legs tpFactor anchor quotes s
      = .error (.outcome o)) (hclosed : Closed o) :
    ∃ seen' last, last < stop ∧
      Justified context setup tape a legs tpFactor anchor start seen' last o := by
  induction quotes generalizing s seen with
  | nil => cases hend
  | cons quote rest ih =>
    rw [replayLoop] at hend
    split at hend
    · cases hend
    · rename_i hcutoff
      obtain ⟨hok, herror⟩ := passQuote_spec h hrest
      rcases bind_error.mp hend with hend | ⟨next, hnext, hend⟩
      · exact ⟨_, _, not_le.mp hcutoff, herror o hend hclosed⟩
      · obtain ⟨hreplaying, hfilter⟩ := hok next hnext
        exact ih _ hreplaying hfilter hend

theorem conclude_not_closed (s : ReplayState) : ¬ Closed (conclude tape stop a s) := by
  rw [Closed, conclude]
  dsimp only
  split
  · rintro (h | h) <;> cases h
  · split
    · rintro (h | h) <;> cases h
    · rintro (h | h) <;> cases h

theorem replayFrom_spec {start : ℤ} (hstart : startOf legs anchor = some start) {o : Outcome}
    (hreplay : replayFrom context setup tape stop a legs tpFactor anchor start = .ok o)
    (hclosed : Closed o) :
    start ∉ tape.invalid ∧ ∃ seen last, last < stop ∧
      Justified context setup tape a legs tpFactor anchor start seen last o := by
  have hno : ¬ Closed ({ status := .noStartEvidence, time := start } : Outcome) := by
    rintro (h | h) <;> cases h
  simp only [replayFrom] at hreplay
  split at hreplay
  · cases hreplay
    exact absurd hclosed hno
  · split at hreplay
    · cases hreplay
      exact absurd hclosed hno
    · rename_i hevidence
      refine ⟨fun hinvalid => hevidence (.inr (.inr hinvalid)), ?_⟩
      split at hreplay
      · rename_i hloop
        cases hreplay
        refine replayLoop_spec [] ?_ (drop_bisectRight tape start).symm hloop hclosed
        refine ⟨path_nil tape a.maxGapMs start, .inl rfl, fun hfree => ?_, ?_, ?_⟩
        · cases anchor with
          | none => exact ⟨rfl, rfl, rfl⟩
          | some leg => cases hfree
        · intro leg fillAt fillPrice hposition hfillAt hfillPrice
          cases anchor with
          | none => cases hposition
          | some l =>
            cases hposition
            rw [startOf] at hstart
            have heq : fillAt = start := Option.some.inj (hfillAt.symm.trans hstart)
            exact ⟨⟨rfl, hfillAt, hfillPrice, heq⟩, heq.le, fun hnone => (by cases hnone),
              by simp, fun o ho => (by cases ho)⟩
        · intro leg hnone hposition
          subst hnone
          cases hposition
      · cases hreplay
      · cases hreplay
        exact absurd hclosed (conclude_not_closed _)

/-- No gap longer than the maximum and no invalid sample from one time to another. -/
def Unbroken (tape : Tape) (maxGap start last : ℤ) : Prop :=
  (∀ i ∈ tape.invalid, ¬ (start ≤ i ∧ i ≤ last)) ∧
    ∀ x, (x = start ∨ ∃ q ∈ tape.quotes, q.time = x) → start ≤ x → x < last →
      ∃ q ∈ tape.quotes, x < q.time ∧ q.time ≤ last ∧ q.time ≤ x + maxGap

/-- What the tape shows of a target or a stop that is reported. -/
def Shown (context : Context) (setup : Setup) (tape : Tape) (stop : ℤ) (a : Assumptions)
    (legs : List Leg) (tpFactor : ℚ) (anchor : Option Leg) (o : Outcome) : Prop :=
  ∃ start leg fillAt fillPrice, startOf legs anchor = some start ∧
    Opened context setup tape a legs start leg fillAt fillPrice anchor ∧
    Unbroken tape a.maxGapMs start o.time ∧ o.time < stop ∧
    FirstExit context setup a tpFactor leg fillAt fillPrice
      (tape.quotes.filter (start < ·.time)) o ∧
    (anchor = none → RaceWon context setup a legs leg fillAt tape.quotes)

theorem Path.unbroken {maxGap start last t : ℤ} {seen : List Quote}
    (h : Path tape maxGap start seen last) (hstart : start ∉ tape.invalid)
    (ht : ∃ q ∈ seen, q.time = t) : Unbroken tape maxGap start t := by
  obtain ⟨reached, hreached, rfl⟩ := ht
  obtain ⟨hmem, -, hle⟩ := h.mem reached hreached
  refine ⟨fun i hi hin => ?_, fun x hx hlow hlt => ?_⟩
  · have hne : i ≠ start := fun heq => hstart (heq ▸ hi)
    have := h.valid i hi (lt_of_le_of_ne hin.1 hne.symm)
    omega
  · have hx : x = start ∨ ∃ q ∈ seen, q.time = x := by
      rcases hx with hx | ⟨q, hq, rfl⟩
      · exact .inl hx
      · rcases hlow.eq_or_lt with heq | hlow
        · exact .inl heq.symm
        · exact .inr ⟨q, h.complete q hq hlow (hlt.le.trans hle), rfl⟩
    obtain ⟨q, hq, hxq, hnear⟩ := h.close x hx (hlt.trans_le hle)
    by_cases hbefore : q.time ≤ reached.time
    · exact ⟨q, (h.mem q hq).1, hxq, hbefore, hnear⟩
    · exact ⟨reached, hmem, hlt, le_rfl, (not_le.mp hbefore).le.trans hnear⟩

theorem Justified.shown {start last : ℤ} {seen : List Quote} {o : Outcome}
    (h : Justified context setup tape a legs tpFactor anchor start seen last o)
    (hfirst : startOf legs anchor = some start) (hstart : start ∉ tape.invalid) (hlast : last < stop) :
    Shown context setup tape stop a legs tpFactor anchor o := by
  obtain ⟨leg, fillAt, fillPrice, hpath, hopened, hexit, hrace⟩ := h
  obtain ⟨hside, hfilled, hle, ⟨q, hq, htime, hstatus⟩, hbefore⟩ := hexit
  obtain ⟨hmem, hlow, hhigh⟩ := hpath.mem q hq
  rw [htime] at hhigh
  refine ⟨start, leg, fillAt, fillPrice, hfirst, hopened, hpath.unbroken hstart ⟨q, hq, htime⟩,
    hhigh.trans_lt hlast, ⟨hside, hfilled, hle, ⟨q, ?_, htime, hstatus⟩, ?_⟩, ?_⟩
  · exact List.mem_filter.mpr ⟨hmem, by simpa using hlow⟩
  · intro r hr hrfill hrtime
    obtain ⟨hr, hrlow⟩ := List.mem_filter.mp hr
    exact hbefore r (hpath.complete r hr (by simpa using hrlow) (hrtime.le.trans hhigh)) hrfill
      hrtime
  · rintro rfl
    obtain ⟨hwon, hcancel⟩ := hrace rfl
    intro r hr hrfill hrrace
    have hafter : start < r.time := hopened.2.2.1.trans hrfill
    exact hwon r (hpath.complete r hr hafter (hrrace.trans hcancel.le)) hrfill hrrace

end

/-! ### Two targets -/

section

variable {context : Context} {setup : Setup} {tape : Tape} {stop : ℤ} {a : Assumptions}
  {legs : List Leg} {anchor : Leg} {factor factor' : ℚ}

theorem targetOf_mono (setup : Setup) (leg : Leg) (h : factor' ≤ factor) :
    targetOf context setup leg factor' ≤ targetOf context setup leg factor := by
  have htick := setup.positive.1
  refine context.monotone (mul_le_mul_of_nonneg_right ?_ htick.le)
  refine Int.cast_le.mpr (Int.floor_le_floor (context.monotone ?_))
  refine div_le_div_of_nonneg_right (context.monotone ?_) htick.le
  exact mul_le_mul_of_nonneg_left h leg.positive.2.2.le

/-- A lower target changes what a quote does at most to a target. -/
theorem exitStatus_lower {leg : Leg} {fillPrice target target' : ℚ} (h : target' ≤ target)
    (q : Quote) :
    exitStatus context a leg fillPrice target' q = some .tp ∨
      exitStatus context a leg fillPrice target' q = exitStatus context a leg fillPrice target q ∧
        exitStatus context a leg fillPrice target q ≠ some .tp := by
  simp only [exitStatus]
  by_cases hsl : moveOf context a leg fillPrice q ≤ context.round (-leg.sl)
  · simp [hsl]
  · by_cases htp : moveOf context a leg fillPrice q ≥ target'
    · simp [hsl, htp]
    · have htp' : ¬ moveOf context a leg fillPrice q ≥ target := fun hle => htp (h.trans hle)
      simp [hsl, htp, htp']

/-- A run ends with a target by a time. -/
def TargetBy (r : Except Stop ReplayState) (t : ℤ) : Prop :=
  ∃ o, r = .error (.outcome o) ∧ o.status = .tp ∧ o.time ≤ t

/-- How a pass with a lower target compares: the same, or a target at its time. -/
structure Earlier (r r' : Except Stop ReplayState) (t : ℤ) : Prop where
  same : TargetBy r' t ∨ (r' = r ∧ ∀ o, r = .error (.outcome o) → o.status ≠ .tp)
  time : ∀ o, r = .error (.outcome o) → o.time = t
  fine : ∀ e, r ≠ .error (.raised e)

theorem closePosition_lower {quote : Quote} {s : ReplayState} {leg : Leg} {fillAt : ℤ}
    {fillPrice : ℚ} (hfactor : factor' ≤ factor) (htarget : 0 < targetOf context setup leg factor')
    (hopen : s.deferredClose = none) :
    Earlier (closePosition context setup a factor (some anchor) quote s leg fillAt fillPrice)
      (closePosition context setup a factor' (some anchor) quote s leg fillAt fillPrice)
      quote.time := by
  have hlower : targetOf context setup leg factor' ≤ targetOf context setup leg factor :=
    targetOf_mono setup leg hfactor
  have hexit : exitStatus context a leg fillPrice (targetOf context setup leg factor') quote
      = some .tp ∨ _ ∧ _ := exitStatus_lower hlower quote
  have hpositive : ¬ targetOf context setup leg factor' ≤ 0 := htarget.not_ge
  have hpositive' : ¬ targetOf context setup leg factor ≤ 0 := (htarget.trans_le hlower).not_ge
  simp only [closePosition, hopen, hpositive, hpositive', if_false, Option.isSome_some, true_or,
    decide_true, if_true]
  rcases hexit with htp | ⟨hsame, hnot⟩
  · rw [htp]
    refine ⟨.inl ⟨_, rfl, rfl, le_rfl⟩, fun o h => ?_, fun e h => ?_⟩
    · split at h
      · cases h
      · cases h
        rfl
    · split at h <;> cases h
  · rw [hsame]
    cases hstatus : exitStatus context a leg fillPrice (targetOf context setup leg factor) quote with
    | none =>
      exact ⟨.inr ⟨rfl, fun o h => (by cases h)⟩, fun o h => (by cases h), fun e h => (by cases h)⟩
    | some status =>
      have hstop : status = .sl := by
        have hcases : some status = none ∨ some status = some .sl ∨ some status = some .tp := by
          rw [← hstatus]
          exact exitStatus_cases
        rcases hcases with h | h | h
        · cases h
        · exact Option.some.inj h
        · exact absurd (hstatus.trans h) hnot
      subst hstop
      refine ⟨.inr ⟨rfl, fun o h => ?_⟩, fun o h => ?_, fun e h => (by cases h)⟩
      · cases h
        intro htp
        cases htp
      · cases h
        rfl

theorem closePosition_ok {quote : Quote} {s s' : ReplayState} {leg : Leg} {fillAt : ℤ}
    {fillPrice : ℚ} (hopen : s.deferredClose = none)
    (h : closePosition context setup a factor (some anchor) quote s leg fillAt fillPrice = .ok s') :
    s' = s := by
  simp only [closePosition, hopen, Option.isSome_some, true_or, decide_true, if_true] at h
  split at h
  · cases h
  · split at h
    · cases h
      rfl
    · cases h

theorem earlier_refl (s : ReplayState) (t : ℤ) : Earlier (.ok s) (.ok s) t :=
  ⟨.inr ⟨rfl, fun o h => (by cases h)⟩, fun o h => (by cases h), fun e h => (by cases h)⟩

/-- A position whose fill is given, and that is not closed. -/
def AnchoredOpen (anchor : Leg) (s : ReplayState) : Prop :=
  s.position = some anchor ∧ s.deferredClose = none

theorem settle_lower (quote : Quote) {s : ReplayState} (hfactor : factor' ≤ factor)
    (htarget : 0 < targetOf context setup anchor factor') (hopen : AnchoredOpen anchor s) :
    Earlier (settle context setup a factor (some anchor) quote s)
      (settle context setup a factor' (some anchor) quote s) quote.time ∧
    ∀ s', settle context setup a factor (some anchor) quote s = .ok s' → s' = s := by
  simp only [settle, hopen.1]
  cases s.fillAt with
  | none => exact ⟨earlier_refl s _, fun s' h => (by cases h; rfl)⟩
  | some fillAt =>
    cases s.fillPrice with
    | none => exact ⟨earlier_refl s _, fun s' h => (by cases h; rfl)⟩
    | some fillPrice =>
      exact ⟨closePosition_lower hfactor htarget hopen.2, fun s' => closePosition_ok hopen.2⟩

theorem passQuote_lower {quote : Quote} {s : ReplayState} (hfactor : factor' ≤ factor)
    (htarget : 0 < targetOf context setup anchor factor') (hopen : AnchoredOpen anchor s) :
    Earlier (passQuote context setup tape a legs factor (some anchor) s quote)
      (passQuote context setup tape a legs factor' (some anchor) s quote) quote.time ∧
    ∀ s', passQuote context setup tape a legs factor (some anchor) s quote = .ok s' →
      AnchoredOpen anchor s' := by
  rw [passQuote, passQuote]
  by_cases hbroken : tape.broken s.previous quote.time a.maxGapMs
  · rw [if_pos hbroken, if_pos hbroken]
    refine ⟨⟨.inr ⟨rfl, fun o h => ?_⟩, fun o h => ?_, fun e h => (by cases h)⟩,
      fun s' h => (by cases h)⟩
    · cases h
      intro htp
      cases htp
    · cases h
      rfl
  · rw [if_neg hbroken, if_neg hbroken]
    have hracing : (racing legs (some anchor)).foldlM (passLeg context setup tape a legs quote)
        { s with previous := quote.time } = .ok { s with previous := quote.time } := rfl
    rw [hracing, ok_bind, ok_bind]
    have hopen' : AnchoredOpen anchor { s with previous := quote.time } := hopen
    obtain ⟨hearlier, hok⟩ := settle_lower (a := a) quote hfactor htarget hopen'
    refine ⟨hearlier, fun s' h => ?_⟩
    rw [hok s' h]
    exact hopen'

/-- The loop with a lower target ends as with the higher one, or with a target no later. -/
theorem replayLoop_lower (stop : ℤ) (a : Assumptions) (legs : List Leg) {quotes : List Quote} {s : ReplayState}
    (hsorted : quotes.Pairwise fun a b => a.time < b.time) (hfactor : factor' ≤ factor)
    (htarget : 0 < targetOf context setup anchor factor') (hopen : AnchoredOpen anchor s) :
    (∀ s', replayLoop context setup tape stop a legs factor (some anchor) quotes s = .ok s' →
      s'.position = some anchor ∧
      (replayLoop context setup tape stop a legs factor' (some anchor) quotes s = .ok s' ∨
        TargetBy (replayLoop context setup tape stop a legs factor' (some anchor) quotes s) stop)) ∧
    (∀ o, replayLoop context setup tape stop a legs factor (some anchor) quotes s
        = .error (.outcome o) → (∃ q ∈ quotes, q.time = o.time) ∧
      (TargetBy (replayLoop context setup tape stop a legs factor' (some anchor) quotes s) o.time ∨
        o.status ≠ .tp ∧ replayLoop context setup tape stop a legs factor' (some anchor) quotes s
          = .error (.outcome o))) ∧
    ∀ e, replayLoop context setup tape stop a legs factor (some anchor) quotes s
      ≠ .error (.raised e) := by
  induction quotes generalizing s with
  | nil =>
    refine ⟨fun s' h => ?_, fun o h => (by cases h), fun e h => (by cases h)⟩
    cases h
    exact ⟨hopen.1, .inl rfl⟩
  | cons quote rest ih =>
    obtain ⟨hfirst, hrest⟩ := List.pairwise_cons.mp hsorted
    rw [replayLoop, replayLoop]
    by_cases hcutoff : quote.time ≥ stop
    · rw [if_pos hcutoff, if_pos hcutoff]
      refine ⟨fun s' h => ?_, fun o h => (by cases h), fun e h => (by cases h)⟩
      cases h
      exact ⟨hopen.1, .inl rfl⟩
    · rw [if_neg hcutoff, if_neg hcutoff]
      have hpass : Earlier (passQuote context setup tape a legs factor (some anchor) s quote)
          (passQuote context setup tape a legs factor' (some anchor) s quote) quote.time ∧ _ :=
        passQuote_lower hfactor htarget hopen
      obtain ⟨⟨hsame, htime, hfine⟩, hok⟩ := hpass
      cases hr : passQuote context setup tape a legs factor (some anchor) s quote with
      | error stopped =>
        cases stopped with
        | raised e => exact absurd hr (hfine e)
        | outcome o =>
          refine ⟨fun s' h => (by cases h), fun o' h => ?_, fun e h => (by cases h)⟩
          cases h
          refine ⟨⟨quote, List.mem_cons_self, (htime o hr).symm⟩, ?_⟩
          rcases hsame with ⟨t, ht, htp, hle⟩ | ⟨heq, hnot⟩
          · rw [ht]
            exact .inl ⟨t, rfl, htp, hle.trans (htime o hr).ge⟩
          · rw [heq, hr]
            exact .inr ⟨hnot o hr, rfl⟩
      | ok next =>
        obtain ⟨hend, hstop, hraise⟩ := ih hrest (hok next hr)
        refine ⟨fun s' h => ?_, fun o h => ?_, fun e h => hraise e h⟩
        · obtain ⟨hposition, hcompare⟩ := hend s' h
          refine ⟨hposition, ?_⟩
          rcases hsame with ⟨t, ht, htp, hle⟩ | ⟨heq, -⟩
          · rw [ht]
            exact .inr ⟨t, rfl, htp, hle.trans (not_le.mp hcutoff).le⟩
          · rw [heq, hr]
            exact hcompare
        · obtain ⟨⟨q, hq, hqtime⟩, hcompare⟩ := hstop o h
          refine ⟨⟨q, List.mem_cons_of_mem _ hq, hqtime⟩, ?_⟩
          rcases hsame with ⟨t, ht, htp, hle⟩ | ⟨heq, -⟩
          · rw [ht]
            exact .inl ⟨t, rfl, htp, hle.trans (hqtime ▸ (hfirst q hq).le)⟩
          · rw [heq, hr]
            exact hcompare

theorem replayFrom_lower {start : ℤ} {o : Outcome} (hfactor : factor' ≤ factor)
    (htarget : 0 < targetOf context setup anchor factor')
    (h : replayFrom context setup tape stop a legs factor (some anchor) start = .ok o) :
    ∃ o', replayFrom context setup tape stop a legs factor' (some anchor) start = .ok o' ∧
      (o.status = .tp → o'.status = .tp ∧ o'.time ≤ o.time) ∧
      (o' = o ∨ o'.status = .tp ∧ o'.time ≤ o.time) := by
  simp only [replayFrom] at h ⊢
  cases hprior : tape.quotes[bisectRight tape.times start - 1]? with
  | none =>
    rw [hprior] at h
    cases h
    exact ⟨_, rfl, fun htp => (by cases htp), .inl rfl⟩
  | some prior =>
    rw [hprior] at h
    dsimp only at h ⊢
    split at h
    · rename_i hno
      cases h
      rw [if_pos hno]
      exact ⟨_, rfl, fun htp => (by cases htp), .inl rfl⟩
    · rename_i hevidence
      rw [if_neg hevidence]
      have hsorted : (tape.quotes.drop (bisectRight tape.times start)).Pairwise
          fun a b => a.time < b.time := tape.ordered.sublist (List.drop_sublist _ _)
      have hopen : AnchoredOpen anchor
          { position := some anchor
            fillAt := (some anchor).bind Leg.fillTime
            fillPrice := (some anchor).bind Leg.fillPrice
            previous := start } := ⟨rfl, rfl⟩
      obtain ⟨hend, hstop, hraise⟩ := replayLoop_lower stop a legs hsorted hfactor htarget hopen
      split at h
      · rename_i o₁ hloop
        cases h
        obtain ⟨-, hcompare⟩ := hstop _ hloop
        rcases hcompare with ⟨t, ht, htp, hle⟩ | ⟨hnot, hsame⟩
        · rw [ht]
          exact ⟨t, rfl, fun _ => ⟨htp, hle⟩, .inr ⟨htp, hle⟩⟩
        · rw [hsame]
          exact ⟨_, rfl, fun htp => absurd htp hnot, .inl rfl⟩
      · rename_i e hloop
        exact absurd hloop (hraise e)
      · rename_i s' hloop
        cases h
        have hopen' : (conclude tape stop a s').status ≠ .tp :=
          fun htp => conclude_not_closed s' (.inr htp)
        obtain ⟨-, hsame | ⟨t, ht, htp, hle⟩⟩ := hend s' hloop
        · rw [hsame]
          exact ⟨_, rfl, fun htp => absurd htp hopen', .inl rfl⟩
        · rw [ht]
          exact ⟨t, rfl, fun _ => ⟨htp, hle⟩, .inr ⟨htp, hle⟩⟩

end

/-- A target or a stop that is reported was reached first at its quote, on an unbroken path and with
    the race of the legs won; and with a lower target a fill that is given ends as with the higher one,
    or with a target no later. -/
theorem replay_sound (context : Context) (setup : Setup) (tape : Tape) (stop : ℤ) (a : Assumptions)
    (preserveEntries : Bool) :
    (∀ tpFactor anchor o,
      replay context setup tape stop a preserveEntries tpFactor anchor = .ok o →
      o.status = .sl ∨ o.status = .tp →
        Shown context setup tape stop a (legsOf setup preserveEntries) tpFactor anchor o) ∧
    ∀ anchor factor factor' o, factor' ≤ factor → a.valid factor' →
      0 < targetOf context setup anchor factor' →
      replay context setup tape stop a preserveEntries factor (some anchor) = .ok o →
      ∃ o', replay context setup tape stop a preserveEntries factor' (some anchor) = .ok o' ∧
        (o.status = .tp → o'.status = .tp ∧ o'.time ≤ o.time) ∧
        (o' = o ∨ o'.status = .tp ∧ o'.time ≤ o.time) := by
  have hno : ¬ Closed ({ status := .noStartEvidence, time := stop } : Outcome) := by
    rintro (h | h) <;> cases h
  constructor
  · intro tpFactor anchor o h hclosed
    simp only [replay, bind_ok, require_ok] at h
    obtain ⟨-, -, h⟩ := h
    split at h
    · cases h
      exact absurd hclosed hno
    · rename_i start hstart
      split at h
      · cases h
        exact absurd hclosed hno
      · obtain ⟨hvalid, seen, last, hlast, hjustified⟩ := replayFrom_spec hstart h hclosed
        exact hjustified.shown hstart hvalid hlast
  · intro anchor factor factor' o hfactor hvalid htarget h
    simp only [replay, bind_ok, require_ok] at h
    obtain ⟨-, -, h⟩ := h
    rw [replay, require_eq hvalid, ok_bind]
    dsimp only
    split at h
    · cases h
      exact ⟨_, rfl, fun htp => (by cases htp), .inl rfl⟩
    · split at h
      · rename_i hlate
        cases h
        rw [if_pos hlate]
        exact ⟨_, rfl, fun htp => (by cases htp), .inl rfl⟩
      · rename_i hlate
        rw [if_neg hlate]
        exact replayFrom_lower hfactor htarget h

namespace PairedSample

def python : Context := HalfEven.context 28 (by decide)

def buy : Leg := ⟨.buy, 0, 100, 1, 1, none, none, by norm_num⟩

def sell : Leg := ⟨.sell, 0, 110, 1, 1, none, none, by norm_num⟩

def setup : Setup := ⟨1 / 100, 100, 110, [buy, sell], by norm_num⟩

/-- A quote between the entries, one through the limit and the stop of the buy leg, and one after the
    cancellation of the other. -/
def tape : Tape where
  quotes := [⟨0, 0, 105, 106⟩, ⟨1000, 1000, 98, 99⟩, ⟨2000, 2000, 98, 99⟩]
  invalid := []
  segments := []
  rejected := []
  ordered := by decide
  sorted := by decide

def stopped : Outcome := ⟨.sl, 1000, some .buy, some 1000, some (-265 / 100)⟩

end PairedSample

theorem PairedSample.replay_stopped : replay python setup tape 5000 {} false 1 none = .ok stopped := by
  decide +kernel

open PairedSample in
/-- A stop can be reported at the quote of the fill itself. -/
theorem stop_at_fill :
    replay python setup tape 5000 {} false 1 none = .ok stopped ∧ stopped.status = .sl ∧
      ¬ ∃ fillAt, stopped.filledAt = some fillAt ∧ fillAt < stopped.time :=
  ⟨replay_stopped, rfl, by simp [stopped]⟩

open PairedSample in
theorem replay_sound_stopped :
    Shown python setup tape 5000 {} (legsOf setup false) 1 none stopped :=
  (replay_sound python setup tape 5000 {} false).1 1 none stopped replay_stopped (.inl rfl)

end ScalpingBot.Backtest
