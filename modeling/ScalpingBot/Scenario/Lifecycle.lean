import ScalpingBot.Scenario.Replay

/-! The phases of a replay: it seeks an entry, has one pending, holds its position or has closed
    it. -/

namespace ScalpingBot.Scenario.ScenarioReplay

variable {D R : Type}

/-- How often a lifecycle says that the entry was filled. -/
def fillCount (lifecycle : List LifecycleEvent) : ℕ :=
  (lifecycle.filter (·.outcome = .filled)).length

@[simp] theorem fillCount_append (lifecycle : List LifecycleEvent) (event : LifecycleEvent) :
    fillCount (lifecycle ++ [event]) =
      fillCount lifecycle + if event.outcome = .filled then 1 else 0 := by
  by_cases h : event.outcome = .filled <;> simp [fillCount, List.filter_append, h]

/-- What the phases are about. -/
structure Core where
  pending : Option Pending
  position : Option Position
  consumed : Bool
  trades : List ClosedTrade
  equityAdjustment : Decimal
  fills : ℕ
  halted : Bool
  candidate : Option Candidate

def core (s : ScenarioReplay D R) : Core where
  pending := s.pending
  position := s.position
  consumed := s.consumed
  trades := s.trades
  equityAdjustment := s.equityAdjustment
  fills := fillCount s.lifecycle
  halted := s.halted
  candidate := s.candidate

/-- How far a replay has come, with what belongs to it. -/
inductive Phase (c : Core) : Prop
  | seeking (hpending : c.pending = none) (hposition : c.position = none)
      (hconsumed : c.consumed = false) (htrades : c.trades = []) (hequity : c.equityAdjustment = 0)
      (hfills : c.fills = 0) (hidle : c.halted = true → c.candidate = none)
  | pending (p : Pending) (hpending : c.pending = some p) (hposition : c.position = none)
      (hconsumed : c.consumed = false) (htrades : c.trades = []) (hequity : c.equityAdjustment = 0)
      (hfills : c.fills = 0) (hhalted : c.halted = false) (hcandidate : c.candidate = none)
  | holding (p : Position) (hpending : c.pending = none) (hposition : c.position = some p)
      (hconsumed : c.consumed = true) (htrades : c.trades = []) (hequity : c.equityAdjustment = 0)
      (hfills : c.fills = 1) (hcandidate : c.candidate = none)
  | closed (t : ClosedTrade) (hpending : c.pending = none) (hposition : c.position = none)
      (hconsumed : c.consumed = true) (htrades : c.trades = [t])
      (hequity : c.equityAdjustment = t.net) (hfills : c.fills = 1)
      (hcandidate : c.candidate = none)

theorem phase_fresh (config : Config) : Phase (fresh config : ScenarioReplay D R).core :=
  .seeking rfl rfl rfl rfl rfl rfl fun _ => rfl

/-! ### What each piece of code does to the phase -/

section pieces

variable {s : ScenarioReplay D R} (h : Phase s.core)
include h

theorem phase_breakChain (bar : Bar) : Phase (breakChain bar s).core := by
  rw [breakChain]
  split <;> exact h

theorem phase_invalidateActive (now : ℕ) (bar : Bar) : Phase (invalidateActive now bar s).core := by
  have hphase := h
  rw [invalidateActive, active]
  cases h with
  | seeking hpending hposition | closed t hpending hposition =>
    dsimp only [core] at hpending hposition
    simpa [hpending, hposition] using hphase
  | pending p hpending hposition hconsumed htrades hequity hfills hhalted hcandidate =>
    dsimp only [core] at *
    simp only [hpending, hposition, Option.map_none, Option.map_some, Option.none_or]
    split
    · refine .seeking ?_ ?_ ?_ ?_ ?_ ?_ ?_ <;> simp [scheduleExit, cancelPending, note, *]
    · exact hphase
  | holding p hpending hposition hconsumed htrades hequity hfills hcandidate =>
    dsimp only [core] at *
    simp only [hpending, hposition, Option.map_some, Option.some_or]
    split
    · refine .holding _ ?_ (by simp [scheduleExit, cancelPending, hpending, hposition]; rfl) ?_ ?_ ?_ ?_ ?_ <;>
        simp [scheduleExit, cancelPending, *]
    · exact hphase

/-- Only a replay that seeks an entry is in its first phase and not halted. -/
theorem phase_of_seeking (hs : s.seeking = true) : s.pending = none ∧ s.position = none ∧
    s.consumed = false ∧ s.trades = [] ∧ s.equityAdjustment = 0 ∧ fillCount s.lifecycle = 0 ∧
    s.halted = false := by
  simp only [seeking, Bool.not_eq_true', decide_eq_true_eq, Option.isNone_iff_eq_none] at hs
  obtain ⟨hhalted, hconsumed, hpending, hposition⟩ := hs
  cases h with
  | seeking _ _ _ htrades hequity hfills =>
    exact ⟨hpending, hposition, hconsumed, htrades, hequity, hfills, hhalted⟩
  | pending p hp =>
    dsimp only [core] at hp
    simp [hp] at hpending
  | holding p _ _ hc | closed t _ _ hc =>
    dsimp only [core] at hc
    simp [hc] at hconsumed

theorem phase_seekEntry (now : ℕ) (bar : Bar) : Phase (seekEntry now bar s).core := by
  rw [seekEntry]
  split
  · exact h
  split
  · rename_i hs
    obtain ⟨hpending, hposition, hconsumed, htrades, hequity, hfills, hhalted⟩ :=
      phase_of_seeking h hs
    split <;> refine .seeking ?_ ?_ ?_ ?_ ?_ ?_ ?_ <;> simp [core, note, *]
  · exact h

theorem phase_noteGap (now : ℕ) : Phase (noteGap now s).core := by
  rw [noteGap]
  split
  · cases h with
    | seeking hpending hposition hconsumed htrades hequity hfills =>
      dsimp only [core] at *
      refine .seeking ?_ ?_ ?_ ?_ ?_ ?_ ?_ <;> simp [note, *]
    | pending p hpending hposition hconsumed htrades hequity hfills =>
      dsimp only [core] at *
      refine .seeking ?_ ?_ ?_ ?_ ?_ ?_ ?_ <;> simp [note, *]
    | holding p hpending hposition hconsumed htrades hequity hfills =>
      dsimp only [core] at *
      refine .holding p ?_ ?_ ?_ ?_ ?_ ?_ ?_ <;> simp [note, *]
    | closed t hpending hposition hconsumed htrades hequity hfills =>
      dsimp only [core] at *
      refine .closed t ?_ ?_ ?_ ?_ ?_ ?_ ?_ <;> simp [note, *]
  · exact h

omit h in
/-- The net of a trade is added to nothing without loss. -/
theorem closedTrade_net {p : Position} {q : Quote} {now : ℕ} {reason : ExitReason} {t : ClosedTrade}
    (ht : s.closedTrade p q now reason = .ok t) : Decimal.plus 0 t.net = t.net := by
  simp only [closedTrade, bind_ok, pure_ok] at ht
  obtain ⟨-, -, -, -, -, -, -, -, rfl⟩ := ht
  exact Decimal.zero_plus_minus _ _

theorem phase_close {p : Position} (hp : s.position = some p) (q : Quote) (now : ℕ)
    (reason : ExitReason) (p' : Position) : Phase (close p' q now reason s).1.core := by
  have hphase := h
  rw [close]
  split
  · exact h
  · cases h with
    | seeking _ hposition | pending _ _ hposition | closed _ _ hposition =>
      dsimp only [core] at hposition
      simp [hp] at hposition
    | holding p hpending hposition hconsumed htrades hequity hfills hcandidate =>
      dsimp only [core] at *
      have hnet := closedTrade_net ‹_›
      refine .closed _ ?_ ?_ ?_ (by simp [note, htrades]; rfl) ?_ ?_ ?_ <;> simp [note, *]

theorem phase_managePosition (q : Quote) (now : ℕ) : Phase (managePosition q now s).1.core := by
  rw [managePosition]
  split
  · exact h
  rename_i p hp
  split
  · exact phase_close h hp q now _ p
  · let held := some (holdLimit now s.config.execution.latencyMs p)
    have hheld : Phase { s with position := held }.core := by
      cases h with
      | seeking _ hposition | pending _ _ hposition | closed _ _ hposition =>
        dsimp only [core] at hposition
        simp [hp] at hposition
      | holding p hpending hposition hconsumed htrades hequity hfills hcandidate =>
        exact .holding _ hpending rfl hconsumed htrades hequity hfills hcandidate
    dsimp only
    split
    · exact phase_close hheld rfl q now _ _
    · exact hheld

theorem phase_expirePending (now : ℕ) : Phase (expirePending now s).core := by
  rw [expirePending]
  split
  · exact h
  rename_i p hp
  split
  · cases h with
    | seeking hpending | holding _ hpending | closed _ hpending =>
      dsimp only [core] at hpending
      simp [hp] at hpending
    | pending p hpending hposition hconsumed htrades hequity hfills hhalted hcandidate =>
      dsimp only [core] at *
      refine .seeking ?_ ?_ ?_ ?_ ?_ ?_ ?_ <;> simp [note, *]
  · exact h

theorem phase_fillPending (q : Quote) (now : ℕ) : Phase (fillPending q now s).1.core := by
  rw [fillPending]
  split
  · exact h
  rename_i p hp
  split
  case isFalse => exact h
  split
  · exact h
  cases h with
  | seeking hpending | holding _ hpending | closed _ hpending =>
    dsimp only [core] at hpending
    simp [hp] at hpending
  | pending p' hpending hposition hconsumed htrades hequity hfills hhalted hcandidate =>
    dsimp only [core] at *
    split
    · refine .seeking ?_ ?_ ?_ ?_ ?_ ?_ ?_ <;> simp [note, *]
    · refine phase_managePosition (.holding _ ?_ rfl ?_ ?_ ?_ ?_ ?_) q now <;> simp [core, note, *]

theorem phase_admitCandidate [DecidableEq D] (x : External D R) (q : Quote) (now : ℕ)
    (risk : Option R) : Phase (admitCandidate x q now risk s).core := by
  rw [admitCandidate]
  split
  · exact h
  split
  · rename_i hs
    obtain ⟨hpending, hposition, hconsumed, htrades, hequity, hfills, hhalted⟩ :=
      phase_of_seeking h hs.1
    have hidle : Phase { s with candidate := none }.core :=
      .seeking hpending hposition hconsumed htrades hequity hfills fun _ => rfl
    have hnote (outcome : Outcome) (reasons : List String) (entry : Option ScenarioEntry)
        (hne : outcome ≠ .filled) :
        Phase ({ s with candidate := none }.note now outcome reasons entry).core := by
      refine .seeking ?_ ?_ ?_ ?_ ?_ ?_ ?_ <;> simp [core, note, *]
    dsimp only
    split
    · exact hnote _ _ _ (by simp)
    split
    · exact hnote _ _ _ (by simp)
    split
    · exact hnote _ _ _ (by simp)
    split
    · exact hnote _ _ _ (by simp)
    · refine .pending _ rfl ?_ ?_ ?_ ?_ ?_ ?_ ?_ <;> simp [core, note, *]
  · exact h

theorem phase_latch : Phase s.latch.core := by
  cases h with
  | seeking hpending hposition hconsumed htrades hequity hfills
  | pending p hpending hposition hconsumed htrades hequity hfills =>
    exact .seeking rfl hposition hconsumed htrades hequity hfills fun _ => rfl
  | holding p hpending hposition hconsumed htrades hequity hfills =>
    exact .holding p rfl hposition hconsumed htrades hequity hfills rfl
  | closed t hpending hposition hconsumed htrades hequity hfills =>
    exact .closed t rfl hposition hconsumed htrades hequity hfills rfl

end pieces

/-! ### Events -/

section events

variable [DecidableEq D] (x : External D R)

omit [DecidableEq D] in
theorem phase_writes {f : ScenarioReplay D R → ScenarioReplay D R}
    (hf : ∀ s, Phase s.core → Phase (f s).core) :
    Attempt.Keeps (fun s : ScenarioReplay D R => Phase s.core) (writes f) := hf

theorem phase_apply (checked : Checked D R) :
    Attempt.Keeps (fun s : ScenarioReplay D R => Phase s.core) (apply x checked) := by
  cases checked with
  | candle now bar =>
    exact phase_writes fun s h =>
      phase_seekEntry (phase_invalidateActive (phase_breakChain h bar) now bar) now bar
  | quote now q source fingerprint risk =>
    have hgap : Attempt.Keeps (fun s : ScenarioReplay D R => Phase s.core)
        (writes fun s => recordQuote now source fingerprint (noteGap now s)) :=
      fun s h => phase_noteGap h now
    exact hgap.andThen (.andThen (fun s h => phase_managePosition h q now)
      ((phase_writes fun s h => phase_expirePending h now).andThen
        (.andThen (fun s h => phase_fillPending h q now)
          (phase_writes fun s h => phase_admitCandidate h x q now risk))))

theorem phase_accept {s : ScenarioReplay D R} (h : Phase s.core) (event : ReplayEvent R) :
    Phase (s.accept x event).1.core := by
  have hprocess : Phase (process x event s).1.core := by
    rw [process]
    split
    · exact h
    · exact h
    · rename_i checked _
      have hkeep : Attempt.Keeps (fun s : ScenarioReplay D R => Phase s.core)
        (writes (keep x event checked.now)) := fun s h => h
      exact (phase_apply x checked).andThen hkeep s h
  rw [accept]
  split <;> rename_i heq <;> rw [heq] at hprocess
  · exact phase_latch hprocess
  · exact hprocess

theorem phase_offer {s : ScenarioReplay D R} (h : Phase s.core) (events : List (ReplayEvent R)) :
    Phase (s.offer x events).1.core := by
  induction events generalizing s with
  | nil => exact h
  | cons event events ih => exact ih (phase_accept x h event)

end events

end ScalpingBot.Scenario.ScenarioReplay
