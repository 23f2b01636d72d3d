import ScalpingBot.Scenario.ReplayLaws

/-! Restoring a checkpoint accepts the events of the journal again, without the events that were
    refused in between and without the halt that they caused. -/

namespace ScalpingBot.Scenario.ScenarioReplay

variable {D R : Type}

/-! ### A halted replay and its reconstruction -/

/-- The state with other flags. -/
def flagged (halted censored : Bool) (s : ScenarioReplay D R) : ScenarioReplay D R :=
  { s with halted := halted, censored := censored }

section flags

variable (halted censored : Bool) (s : ScenarioReplay D R)

theorem breakChain_flagged (bar : Bar) :
    breakChain bar (flagged halted censored s) = flagged halted censored (breakChain bar s) := by
  have hprevious : (flagged halted censored s).previous = s.previous := rfl
  rw [breakChain, breakChain, hprevious]
  split <;> rfl

theorem cancelPending_flagged (now : ℕ) (entry : ScenarioEntry) :
    cancelPending now entry (flagged halted censored s) =
      flagged halted censored (cancelPending now entry s) := by
  have hpending : (flagged halted censored s).pending = s.pending := rfl
  rw [cancelPending, cancelPending, hpending]
  split <;> rfl

theorem invalidateActive_flagged (now : ℕ) (bar : Bar) :
    invalidateActive now bar (flagged halted censored s) =
      flagged halted censored (invalidateActive now bar s) := by
  have hactive : (flagged halted censored s).active = s.active := rfl
  rw [invalidateActive, invalidateActive, hactive]
  split
  · rfl
  split
  · rw [cancelPending_flagged]
    rfl
  · rfl

theorem close_flagged (p : Position) (q : Quote) (now : ℕ) (reason : ExitReason) :
    close p q now reason (flagged halted censored s) =
      (flagged halted censored (close p q now reason s).1, (close p q now reason s).2) := by
  have htrade : (flagged halted censored s).closedTrade p q now reason =
    s.closedTrade p q now reason := rfl
  rw [close, close, htrade]
  split <;> rfl

theorem managePosition_flagged (q : Quote) (now : ℕ) :
    managePosition q now (flagged halted censored s) =
      (flagged halted censored (managePosition q now s).1, (managePosition q now s).2) := by
  have hposition : (flagged halted censored s).position = s.position := rfl
  rw [managePosition, managePosition, hposition]
  split
  · rfl
  rename_i p _
  split
  · exact close_flagged halted censored s p q now _
  let held := holdLimit now s.config.execution.latencyMs p
  let t := { s with position := some held }
  have hclose := close_flagged halted censored t held q now (held.exitReason.getD .exit)
  show (if held.exitAt.any (· ≤ now) then
      close held q now (held.exitReason.getD .exit) (flagged halted censored t)
    else (flagged halted censored t, .ok [])) =
    (flagged halted censored (if held.exitAt.any (· ≤ now) then
      close held q now (held.exitReason.getD .exit) t else (t, .ok [])).1,
      (if held.exitAt.any (· ≤ now) then
        close held q now (held.exitReason.getD .exit) t else (t, .ok [])).2)
  split
  · exact hclose
  · rfl

end flags

/-- What decides whether a replay may still seek an entry is the same. -/
structure Steady (s t : ScenarioReplay D R) : Prop where
  halted : t.halted = s.halted
  censored : t.censored = s.censored
  consumed : t.consumed = s.consumed
  pending : t.pending = s.pending
  candidate : t.candidate = s.candidate

section steady

variable (s : ScenarioReplay D R)

theorem Steady.refl : Steady s s := ⟨rfl, rfl, rfl, rfl, rfl⟩

theorem steady_breakChain (bar : Bar) : Steady s (breakChain bar s) := by
  rw [breakChain]
  split
  · exact ⟨rfl, rfl, rfl, rfl, rfl⟩
  · exact .refl s

variable {s} in
theorem steady_invalidateActive (hpending : s.pending = none) (now : ℕ) (bar : Bar) :
    Steady s (invalidateActive now bar s) := by
  rw [invalidateActive]
  split
  · exact .refl s
  split
  · rw [cancelPending, hpending]
    exact ⟨rfl, rfl, rfl, rfl, rfl⟩
  · exact .refl s

theorem steady_close (p : Position) (q : Quote) (now : ℕ) (reason : ExitReason) :
    Steady s (close p q now reason s).1 := by
  rw [close]
  split
  · exact .refl s
  · exact ⟨rfl, rfl, rfl, rfl, rfl⟩

theorem steady_managePosition (q : Quote) (now : ℕ) : Steady s (managePosition q now s).1 := by
  rw [managePosition]
  split
  · exact .refl s
  rename_i p _
  split
  · exact steady_close s p q now _
  dsimp only
  split
  · let held := holdLimit now s.config.execution.latencyMs p
    obtain ⟨hhalted, hcensored, hconsumed, hpending, hcandidate⟩ :=
      steady_close { s with position := some held } held q now (held.exitReason.getD .exit)
    exact ⟨hhalted, hcensored, hconsumed, hpending, hcandidate⟩
  · exact ⟨rfl, rfl, rfl, rfl, rfl⟩

end steady

/-- `r` differs from the halted `s` in its flags only, and seeks no entry either. -/
structure Lockstep (s r : ScenarioReplay D R) : Prop where
  flags : ∃ halted censored, r = flagged halted censored s ∧ (halted = true ∨ s.consumed = true) ∧
    (censored = true → s.censored = true)
  halted : s.halted = true
  pending : s.pending = none
  candidate : s.candidate = none

/-- Code that does not look at the flags. -/
theorem Lockstep.map {s r : ScenarioReplay D R} (h : Lockstep s r)
    {f : ScenarioReplay D R → ScenarioReplay D R}
    (hf : ∀ halted censored, f (flagged halted censored s) = flagged halted censored (f s))
    (hsteady : Steady s (f s)) : Lockstep (f s) (f r) := by
  obtain ⟨⟨halted, censored, rfl, hover, hcensored⟩, hhalted, hpending, hcandidate⟩ := h
  refine ⟨⟨halted, censored, hf halted censored, ?_, ?_⟩, hsteady.halted.trans hhalted,
    hsteady.pending.trans hpending, hsteady.candidate.trans hcandidate⟩
  · rw [hsteady.consumed]
    exact hover
  · rw [hsteady.censored]
    exact hcensored

/-- Another refused event changes nothing. -/
theorem Lockstep.latch {s r : ScenarioReplay D R} (h : Lockstep s r) : Lockstep s.latch r := by
  obtain ⟨⟨halted, censored, rfl, hover, hcensored⟩, hhalted, hpending, hcandidate⟩ := h
  refine ⟨⟨halted, censored, ?_, hover, fun h => ?_⟩, rfl, rfl, rfl⟩
  · simp only [flagged, ScenarioReplay.latch, ← hpending, ← hcandidate]
  · simp [ScenarioReplay.latch, hcensored h]

/-- A replay that does not seek an entry makes nothing of a candle. -/
theorem seekEntry_of_not_seeking {s : ScenarioReplay D R} (h : s.seeking = false) (now : ℕ)
    (bar : Bar) : seekEntry now bar s = s := by
  rw [seekEntry]
  split
  · rfl
  · rw [if_neg (by simp [h])]

theorem Lockstep.not_seeking {s r : ScenarioReplay D R} (h : Lockstep s r) :
    s.seeking = false ∧ r.seeking = false := by
  obtain ⟨⟨halted, censored, rfl, hover, -⟩, hhalted, -⟩ := h
  refine ⟨by simp [seeking, hhalted], ?_⟩
  rcases hover with rfl | hconsumed
  · simp [seeking, flagged]
  · simp [seeking, flagged, hconsumed]

theorem lockstep_candle (now : ℕ) (bar : Bar) :
    Attempt.Relates (Lockstep (D := D) (R := R)) (applyCandle now bar) := by
  intro s r h
  refine ⟨?_, rfl⟩
  have hbreak := h.map (breakChain_flagged · · s bar) (steady_breakChain s bar)
  have hinvalid := hbreak.map (invalidateActive_flagged · · _ now bar)
    (steady_invalidateActive hbreak.pending now bar)
  obtain ⟨hs, hr⟩ := hinvalid.not_seeking
  show Lockstep { seekEntry now bar _ with previous := some bar }
    { seekEntry now bar _ with previous := some bar }
  rw [seekEntry_of_not_seeking hs, seekEntry_of_not_seeking hr]
  exact hinvalid.map (f := fun s => { s with previous := some bar }) (fun _ _ => rfl)
    ⟨rfl, rfl, rfl, rfl, rfl⟩

theorem expirePending_none {s : ScenarioReplay D R} (h : s.pending = none) (now : ℕ) :
    expirePending now s = s := by
  rw [expirePending, h]

theorem fillPending_none {s : ScenarioReplay D R} (h : s.pending = none) (q : Quote) (now : ℕ) :
    fillPending q now s = (s, .ok []) := by
  rw [fillPending, h]

variable [DecidableEq D] (x : External D R)

theorem admitCandidate_none {s : ScenarioReplay D R} (h : s.candidate = none) (q : Quote) (now : ℕ)
    (risk : Option R) : admitCandidate x q now risk s = s := by
  rw [admitCandidate, h]

omit [DecidableEq D] in
theorem lockstep_noteGap {s r : ScenarioReplay D R} (h : Lockstep s r) (now : ℕ) :
    Lockstep (noteGap now s) (noteGap now r) := by
  obtain ⟨⟨halted, censored, rfl, hover, hcensored⟩, hhalted, hpending, hcandidate⟩ := h
  by_cases hgap : s.lastQuoteAt.any (· + 3000 < now) ∧ (s.pending.isSome ∨ s.position.isSome)
  · have hgap' : (flagged halted censored s).lastQuoteAt.any (· + 3000 < now) ∧
      ((flagged halted censored s).pending.isSome ∨ (flagged halted censored s).position.isSome) :=
        hgap
    rw [noteGap, noteGap, if_pos hgap, if_pos hgap']
    exact ⟨⟨true, true, rfl, .inl rfl, fun _ => rfl⟩, rfl, rfl, rfl⟩
  · have hgap' : ¬ ((flagged halted censored s).lastQuoteAt.any (· + 3000 < now) ∧
      ((flagged halted censored s).pending.isSome ∨ (flagged halted censored s).position.isSome)) :=
        hgap
    rw [noteGap, noteGap, if_neg hgap, if_neg hgap']
    exact ⟨⟨halted, censored, rfl, hover, hcensored⟩, hhalted, hpending, hcandidate⟩

theorem lockstep_quote (now : ℕ) (q : Quote) (source : ℕ) (fingerprint : D) (risk : Option R) :
    Attempt.Relates (Lockstep (D := D) (R := R)) (applyQuote x now q source fingerprint risk) := by
  have hrecord : Attempt.Relates (Lockstep (D := D) (R := R))
      (writes fun s => recordQuote now source fingerprint (noteGap now s)) := by
    intro s r h
    have hgap := lockstep_noteGap h now
    exact ⟨hgap.map (f := recordQuote now source fingerprint) (fun _ _ => rfl)
      ⟨rfl, rfl, rfl, rfl, rfl⟩, rfl⟩
  have hmanage : Attempt.Relates (Lockstep (D := D) (R := R)) (managePosition q now) := by
    intro s r h
    have hmap := h.map (f := fun s => (managePosition q now s).1)
      (fun _ _ => congrArg Prod.fst (managePosition_flagged _ _ s q now))
      (steady_managePosition s q now)
    obtain ⟨⟨halted, censored, rfl, -, -⟩, -⟩ := h
    exact ⟨hmap, (congrArg Prod.snd (managePosition_flagged halted censored s q now)).symm⟩
  have hidle : Attempt.Relates (Lockstep (D := D) (R := R)) ((writes (expirePending now)).andThen
      ((fillPending q now).andThen (writes (admitCandidate x q now risk)))) := by
    intro s r h
    have hpending : r.pending = none := by
      obtain ⟨⟨_, _, rfl, -, -⟩, -, hpending, -⟩ := h
      exact hpending
    have hcandidate : r.candidate = none := by
      obtain ⟨⟨_, _, rfl, -, -⟩, -, -, hcandidate⟩ := h
      exact hcandidate
    simp only [Attempt.andThen, writes, expirePending_none h.pending, expirePending_none hpending,
      fillPending_none h.pending, fillPending_none hpending, admitCandidate_none x h.candidate,
      admitCandidate_none x hcandidate]
    exact ⟨h, trivial⟩
  exact hrecord.andThen (hmanage.andThen hidle)

theorem lockstep_apply (checked : Checked D R) :
    Attempt.Relates (Lockstep (D := D) (R := R)) (apply x checked) := by
  cases checked with
  | candle now bar => exact lockstep_candle now bar
  | quote now q source fingerprint risk => exact lockstep_quote x now q source fingerprint risk

/-! ### A replay that has lost its entry, and its reconstruction that has not -/

/-- Only the time passes: what an event brings a replay that makes nothing of it. -/
def pass : Checked D R → ScenarioReplay D R → ScenarioReplay D R
  | .candle _ bar, s => { s with previous := some bar }
  | .quote now _ source fingerprint _, s => recordQuote now source fingerprint s

/-- Does a replay without a position make something of the event? -/
def stirs (s : ScenarioReplay D R) : Checked D R → Bool
  | .candle _ bar =>
    s.pending.any (fun p => invalidated p.entry bar.close) ∨
      s.seeking ∧ s.previous.any (·.endTime = bar.startTime)
  | .quote now q _ _ _ =>
    s.pending.any (fun p => s.lastQuoteAt.any (· + 3000 < now) ∨ p.expires ≤ now ∨
      triggered p.entry q) ∨
      s.seeking ∧ s.candidate.any (·.ready ≤ now)

/-- An event that stirs nothing. -/
theorem apply_still {s : ScenarioReplay D R} (hposition : s.position = none) {checked : Checked D R}
    (h : s.stirs checked = false) : apply x checked s = (pass checked s, .ok []) := by
  cases checked with
  | candle now bar =>
    simp only [stirs, decide_eq_false_iff_not, not_or, Bool.not_eq_true] at h
    obtain ⟨hvalid, hquiet⟩ := h
    have hinvalid : invalidateActive now bar (breakChain bar s) = breakChain bar s := by
      have hactive : (breakChain bar s).active = s.pending.map (·.entry) := by
        rw [breakChain, active]
        split <;> simp [hposition]
      rw [invalidateActive, hactive]
      split
      · rfl
      · rename_i entry hentry
        obtain ⟨p, hp, rfl⟩ := Option.map_eq_some_iff.mp hentry
        rw [hp] at hvalid
        exact if_neg (by simpa using hvalid)
    have hseek : seekEntry now bar (breakChain bar s) = breakChain bar s := by
      by_cases hseeking : s.seeking = true
      · have hprevious : (breakChain bar s).previous = none := by
          have hbroken : s.previous.any (·.endTime = bar.startTime) = false := by
            simpa [hseeking] using hquiet
          rw [breakChain]
          cases hp : s.previous with
          | none => simp [hp]
          | some previous =>
            rw [hp] at hbroken
            rw [if_pos (by simpa using hbroken)]
        rw [seekEntry, hprevious]
      · refine seekEntry_of_not_seeking ?_ now bar
        rw [breakChain]
        split <;> simpa [seeking] using hseeking
    show ({ seekEntry now bar _ with previous := some bar }, _) = _
    rw [hinvalid, hseek, breakChain]
    split <;> rfl
  | quote now q source fingerprint risk =>
    simp only [stirs, decide_eq_false_iff_not, not_or] at h
    obtain ⟨hwaits, hunready⟩ := h
    have hwaits (p : Pending) (hp : s.pending = some p) :
        ¬ (s.lastQuoteAt.any (· + 3000 < now) ∨ p.expires ≤ now ∨ triggered p.entry q) := by
      simpa only [hp, Option.any_some, decide_eq_true_eq] using hwaits
    have hgap : noteGap now s = s := by
      refine if_neg ?_
      rintro ⟨hlate, hpending | hopen⟩
      · obtain ⟨p, hp⟩ := Option.isSome_iff_exists.mp hpending
        exact hwaits p hp (.inl hlate)
      · rw [hposition] at hopen
        cases hopen
    let t := recordQuote now source fingerprint s
    have hexpire : expirePending now t = t := by
      rw [expirePending, show t.pending = s.pending from rfl]
      split
      · rfl
      · rename_i p hp
        exact if_neg fun hexpired => hwaits p hp (.inr (.inl hexpired))
    have hfill : fillPending q now t = (t, .ok []) := by
      rw [fillPending, show t.pending = s.pending from rfl]
      split
      · rfl
      · rename_i p hp
        exact if_neg fun htriggered => hwaits p hp (.inr (.inr htriggered))
    have hadmit : admitCandidate x q now risk t = t := by
      rw [admitCandidate, show t.candidate = s.candidate from rfl]
      split
      · rfl
      · rename_i candidate hcandidate
        refine if_neg ?_
        rintro ⟨hseeking, hready⟩
        exact hunready ⟨hseeking, by simpa [hcandidate] using hready⟩
    have hmanage : managePosition q now t = (t, .ok []) := by
      rw [managePosition, show t.position = none from hposition]
    simp only [apply, applyQuote, Attempt.andThen, writes, hgap]
    show _ = (t, _)
    simp only [t] at hexpire hfill hadmit hmanage ⊢
    simp [hexpire, hfill, hadmit, hmanage, Except.map]

/-! ### A lifecycle only grows -/

omit [DecidableEq D] in
/-- Code that only writes, before other code. -/
theorem writes_andThen (f : ScenarioReplay D R → ScenarioReplay D R) (g : Piece D R)
    (s : ScenarioReplay D R) : (writes f).andThen g s = g (f s) :=
  Attempt.andThen_silent rfl

section growth

variable {n : ℕ} {s : ScenarioReplay D R} (h : n ≤ s.lifecycle.length)
include h

omit [DecidableEq D] in
/-- Something is noted. -/
theorem grown_note (now : ℕ) (outcome : Outcome) (reasons : List String)
    (entry : Option ScenarioEntry) : n < (s.note now outcome reasons entry).lifecycle.length := by
  rw [note, List.length_append, List.length_singleton]
  omega

omit [DecidableEq D] in
theorem grown_breakChain (bar : Bar) : n ≤ (breakChain bar s).lifecycle.length := by
  rw [breakChain]
  split <;> exact h

omit [DecidableEq D] in
theorem grown_cancelPending (now : ℕ) (entry : ScenarioEntry) :
    n ≤ (cancelPending now entry s).lifecycle.length := by
  rw [cancelPending]
  split
  · exact (grown_note h now _ _ _).le
  · exact h

omit [DecidableEq D] in
theorem grown_invalidateActive (now : ℕ) (bar : Bar) :
    n ≤ (invalidateActive now bar s).lifecycle.length := by
  rw [invalidateActive]
  split
  · exact h
  split
  · exact grown_cancelPending h now _
  · exact h

omit [DecidableEq D] in
theorem grown_seekEntry (now : ℕ) (bar : Bar) : n ≤ (seekEntry now bar s).lifecycle.length := by
  rw [seekEntry]
  split
  · exact h
  split
  · split <;> exact (grown_note h now _ _ _).le
  · exact h

omit [DecidableEq D] in
theorem grown_noteGap (now : ℕ) : n ≤ (noteGap now s).lifecycle.length := by
  rw [noteGap]
  split
  · exact (grown_note h now _ _ _).le
  · exact h

omit [DecidableEq D] in
theorem grown_close (p : Position) (q : Quote) (now : ℕ) (reason : ExitReason) :
    n ≤ (close p q now reason s).1.lifecycle.length := by
  rw [close]
  split
  · exact h
  · exact (grown_note h now _ _ _).le

omit [DecidableEq D] in
theorem grown_managePosition (q : Quote) (now : ℕ) :
    n ≤ (managePosition q now s).1.lifecycle.length := by
  rw [managePosition]
  split
  · exact h
  split
  · exact grown_close h _ q now _
  dsimp only
  split
  · refine grown_close ?_ _ q now _
    exact h
  · exact h

omit [DecidableEq D] in
theorem grown_expirePending (now : ℕ) : n ≤ (expirePending now s).lifecycle.length := by
  rw [expirePending]
  split
  · exact h
  split
  · exact (grown_note h now _ _ _).le
  · exact h

omit [DecidableEq D] in
theorem grown_fillPending (q : Quote) (now : ℕ) :
    n ≤ (fillPending q now s).1.lifecycle.length := by
  rw [fillPending]
  split
  · exact h
  split
  case isFalse => exact h
  split
  · exact h
  split
  · exact (grown_note h now _ _ _).le
  · refine grown_managePosition ?_ q now
    exact (grown_note h now _ _ _).le

theorem grown_admitCandidate (q : Quote) (now : ℕ) (risk : Option R) :
    n ≤ (admitCandidate x q now risk s).lifecycle.length := by
  rw [admitCandidate]
  split
  · exact h
  split
  case isFalse => exact h
  dsimp only
  split
  · exact (grown_note h now _ _ _).le
  split
  · exact (grown_note h now _ _ _).le
  split
  · exact (grown_note h now _ _ _).le
  split <;> exact (grown_note h now _ _ _).le

end growth

/-- The pieces of a quote's code that run once the quote is recorded. -/
theorem grown_rest (n : ℕ) (q : Quote) (now : ℕ) (risk : Option R) :
    Attempt.Keeps (fun s : ScenarioReplay D R => n ≤ s.lifecycle.length)
      ((fillPending q now).andThen (writes (admitCandidate x q now risk))) :=
  .andThen (fun _ h => grown_fillPending h q now) fun _ h => grown_admitCandidate x h q now risk

theorem grown_apply (n : ℕ) (checked : Checked D R) :
    Attempt.Keeps (fun s : ScenarioReplay D R => n ≤ s.lifecycle.length) (apply x checked) := by
  cases checked with
  | candle now bar =>
    exact fun s h => grown_seekEntry (grown_invalidateActive (grown_breakChain h bar) now bar) now bar
  | quote now q source fingerprint risk =>
    have hgap : Attempt.Keeps (fun s : ScenarioReplay D R => n ≤ s.lifecycle.length)
        (writes fun s => recordQuote now source fingerprint (noteGap now s)) :=
      fun s h => grown_noteGap h now
    have hexpire : Attempt.Keeps (fun s : ScenarioReplay D R => n ≤ s.lifecycle.length)
        (writes (expirePending now)) := fun s h => grown_expirePending h now
    exact hgap.andThen (.andThen (fun s h => grown_managePosition h q now)
      (hexpire.andThen (grown_rest x n q now risk)))

omit [DecidableEq D] in
/-- A candle that stirs something is noted. -/
theorem candle_stirs {s : ScenarioReplay D R} (hposition : s.position = none) {now : ℕ} {bar : Bar}
    (h : s.stirs (.candle now bar) = true) :
    s.lifecycle.length < (applyCandle now bar s).1.lifecycle.length := by
  show s.lifecycle.length < (seekEntry now bar (invalidateActive now bar
    (breakChain bar s))).lifecycle.length
  have hbreak := grown_breakChain (le_refl s.lifecycle.length) bar
  simp only [stirs, decide_eq_true_eq] at h
  rcases h with hinvalid | ⟨hseeking, hnext⟩
  · obtain ⟨p, hp, hinvalid⟩ := (Option.any_eq_true _ _).mp hinvalid
    have hpending : (breakChain bar s).pending = some p := by
      rw [breakChain]
      split <;> exact hp
    have hactive : (breakChain bar s).active = some p.entry := by
      have hnone : (breakChain bar s).position = none := by
        rw [breakChain]
        split <;> exact hposition
      rw [active, hnone, hpending]
      rfl
    refine grown_seekEntry ?_ now bar
    simp only [invalidateActive, hactive, hinvalid, if_true, scheduleExit, cancelPending, hpending,
      Option.isSome_some]
    exact grown_note hbreak now _ _ _
  · obtain ⟨previous, hprevious, hcontinues⟩ := (Option.any_eq_true _ _).mp hnext
    have hkept : breakChain bar s = s := by
      rw [breakChain, hprevious]
      exact if_neg (by simpa using hcontinues)
    have hpending : s.pending = none := by
      have hs := hseeking
      simp only [seeking, decide_eq_true_eq, Option.isNone_iff_eq_none] at hs
      exact hs.2.2.1
    have hidle : invalidateActive now bar s = s := by
      rw [invalidateActive, active, hposition, hpending]
      rfl
    rw [hkept, hidle, seekEntry, hprevious]
    dsimp only
    rw [if_pos hseeking]
    split <;> exact grown_note le_rfl now _ _ _

omit [DecidableEq D] in
/-- A triggered entry is noted, unless its processing throws. -/
theorem fill_stirs {s : ScenarioReplay D R} {p : Pending} (hp : s.pending = some p) {q : Quote}
    (htriggered : triggered p.entry q = true) {now : ℕ}
    (hok : (fillPending q now s).2.isOk = true) :
    s.lifecycle.length + 1 ≤ (fillPending q now s).1.lifecycle.length := by
  simp only [fillPending, hp, htriggered, if_true] at hok ⊢
  split at hok
  · cases hok
  split
  · exact grown_note le_rfl now _ _ _
  · refine grown_managePosition ?_ q now
    exact grown_note le_rfl now _ _ _

/-- A candidate that is ready is noted. -/
theorem admit_stirs {s : ScenarioReplay D R} (hseeking : s.seeking = true) {candidate : Candidate}
    (hcandidate : s.candidate = some candidate) {now : ℕ} (hready : candidate.ready ≤ now)
    (q : Quote) (risk : Option R) :
    s.lifecycle.length < (admitCandidate x q now risk s).lifecycle.length := by
  simp only [admitCandidate, hcandidate, hseeking, hready, and_self, if_true]
  split
  · exact grown_note le_rfl now _ _ _
  split
  · exact grown_note le_rfl now _ _ _
  split
  · exact grown_note le_rfl now _ _ _
  split <;> exact grown_note le_rfl now _ _ _

/-- A quote that stirs something is noted, unless its processing throws. -/
theorem quote_stirs {s : ScenarioReplay D R} (hposition : s.position = none) {now source : ℕ}
    {q : Quote} {fingerprint : D} {risk : Option R}
    (h : s.stirs (.quote now q source fingerprint risk) = true)
    (hok : (applyQuote x now q source fingerprint risk s).2.isOk = true) :
    s.lifecycle.length < (applyQuote x now q source fingerprint risk s).1.lifecycle.length := by
  have hexpire : Attempt.Keeps (fun t : ScenarioReplay D R => s.lifecycle.length + 1 ≤
      t.lifecycle.length) (writes (expirePending now)) := fun t h => grown_expirePending h now
  have hrest := grown_rest x (s.lifecycle.length + 1) q now risk
  rw [applyQuote, writes_andThen] at hok ⊢
  by_cases hgap : s.lastQuoteAt.any (· + 3000 < now) ∧ s.pending.isSome
  · have hnoted : s.lifecycle.length + 1 ≤ (noteGap now s).lifecycle.length := by
      rw [noteGap, if_pos ⟨hgap.1, .inl hgap.2⟩]
      exact grown_note le_rfl now _ _ _
    exact Attempt.Keeps.andThen (fun t h => grown_managePosition h q now) (hexpire.andThen hrest) _
      hnoted
  have hkept : noteGap now s = s := by
    refine if_neg ?_
    rw [hposition]
    simpa using hgap
  let t := recordQuote now source fingerprint s
  have hmanage : managePosition q now t = (t, .ok []) := by
    rw [managePosition, show t.position = none from hposition]
  rw [hkept, Attempt.andThen_silent hmanage, writes_andThen] at hok ⊢
  simp only [stirs, decide_eq_true_eq] at h
  rcases h with hwaits | ⟨hseeking, hready⟩
  · obtain ⟨p, hp, hdue⟩ := (Option.any_eq_true _ _).mp hwaits
    have hdue := (decide_eq_true_eq.mp hdue).resolve_left fun hlate => hgap ⟨hlate, by simp [hp]⟩
    by_cases hexpired : p.expires ≤ now
    · refine hrest _ ?_
      rw [expirePending, show t.pending = some p from hp]
      dsimp only
      rw [if_pos hexpired]
      exact grown_note le_rfl now _ _ _
    · have hwaiting : expirePending now t = t := by
        rw [expirePending, show t.pending = some p from hp]
        exact if_neg hexpired
      rw [hwaiting] at hok ⊢
      have hnoted : s.lifecycle.length + 1 ≤ (fillPending q now t).1.lifecycle.length :=
        fill_stirs (s := t) hp (hdue.resolve_left hexpired) (Attempt.isOk_left hok)
      rw [Attempt.andThen]
      split
      · exact hnoted
      · exact grown_admitCandidate x hnoted q now risk
  · obtain ⟨candidate, hcandidate, hready⟩ := (Option.any_eq_true _ _).mp hready
    have hpending : t.pending = none := by
      have hs := hseeking
      simp only [seeking, decide_eq_true_eq, Option.isNone_iff_eq_none] at hs
      exact hs.2.2.1
    rw [expirePending_none hpending, Attempt.andThen_silent (fillPending_none hpending q now)]
    exact admit_stirs x (s := t) hseeking hcandidate (decide_eq_true_eq.mp hready) q risk

theorem apply_stirs {s : ScenarioReplay D R} (hposition : s.position = none) {checked : Checked D R}
    (h : s.stirs checked = true) (hok : (apply x checked s).2.isOk = true) :
    s.lifecycle.length < (apply x checked s).1.lifecycle.length := by
  cases checked with
  | candle now bar => exact candle_stirs hposition h
  | quote now q source fingerprint risk => exact quote_stirs x hposition h hok

/-! ### Runs -/

/-- No event is refused after something has been written. -/
def Untorn (s : ScenarioReplay D R) : List (ReplayEvent R) → Prop
  | [] => True
  | e :: es => (∀ checked, s.check x e = .ok (some checked) → (apply x checked s).2.isOk = true) ∧
      Untorn (s.accept x e).1 es

/-- The replay as it would be had it not given up this candidate or pending entry and halted. -/
def unhalted (candidate : Option Candidate) (pending : Option Pending) (censored : Bool)
    (s : ScenarioReplay D R) : ScenarioReplay D R :=
  { s with
    candidate := candidate
    pending := pending
    halted := false
    censored := censored }

/-- No further event would have stirred what was given up. -/
def Undisturbed (candidate : Option Candidate) (pending : Option Pending)
    (s : ScenarioReplay D R) : List (ReplayEvent R) → Prop
  | [] => True
  | e :: es =>
    (∀ checked, s.check x e = .ok (some checked) →
      (unhalted candidate pending s.censored s).stirs checked = false) ∧
    Undisturbed candidate pending (s.accept x e).1 es

/-- Where the first refused event halts a replay without a position, no further event would have
    stirred what that replay gives up. -/
def Quiet (s : ScenarioReplay D R) : List (ReplayEvent R) → Prop
  | [] => True
  | e :: es =>
    if (s.accept x e).2 then Quiet (s.accept x e).1 es
    else s.halted = false → s.position = none →
      Undisturbed x s.candidate s.pending (s.accept x e).1 es

theorem accept_ok {s : ScenarioReplay D R} {e : ReplayEvent R} {checked : Checked D R}
    (hcheck : s.check x e = .ok (some checked)) (hok : (apply x checked s).2.isOk = true) :
    s.accept x e = (keep x e checked.now (apply x checked s).1, true) := by
  rcases accept_cases x s e with ⟨hknown, -⟩ | ⟨⟨_, herror⟩, -⟩ | ⟨c, t, hcheck', ht, heq⟩
  · rw [hcheck] at hknown
    cases hknown
  · rw [hcheck] at herror
    cases herror
  · rw [hcheck] at hcheck'
    obtain rfl := Option.some.inj (Except.ok.inj hcheck')
    rcases heq with ⟨-, heq⟩ | ⟨hthrown, -⟩
    · rw [heq, ht]
    · exact absurd hok hthrown

theorem keep_journal {s : ScenarioReplay D R} {e : ReplayEvent R} {checked : Checked D R} :
    (keep x e checked.now (apply x checked s).1).journal = s.journal ++ [e] := by
  rw [keep, (frame_apply x s checked s (.refl s)).journal]

theorem acceptAll_cons {s t : ScenarioReplay D R} {e : ReplayEvent R}
    (h : s.accept x e = (t, true)) (es : List (ReplayEvent R)) :
    acceptAll x s (e :: es) = acceptAll x t es := by
  rw [acceptAll, h, if_pos rfl]

theorem lockstep_offer {s r : ScenarioReplay D R} (h : Lockstep s r) (es : List (ReplayEvent R))
    (huntorn : Untorn x s es) :
    ∃ new r', (s.offer x es).1.journal = s.journal ++ new ∧ acceptAll x r new = .ok r' ∧
      Lockstep (s.offer x es).1 r' := by
  induction es generalizing s r with
  | nil => exact ⟨[], r, by simp [offer], rfl, h⟩
  | cons e es ih =>
    obtain ⟨hwhole, huntorn⟩ := huntorn
    simp only [offer]
    rcases accept_cases x s e with ⟨-, heq⟩ | ⟨-, heq⟩ | ⟨checked, t, hcheck, ht, -⟩
    · rw [heq] at huntorn ⊢
      exact ih h huntorn
    · rw [heq] at huntorn ⊢
      exact ih h.latch huntorn
    · have hok := hwhole checked hcheck
      obtain ⟨hstate, hout⟩ := lockstep_apply x checked s r h
      have hcheck' : r.check x e = .ok (some checked) := by
        obtain ⟨⟨_, _, rfl, -, -⟩, -⟩ := h
        exact hcheck
      have hs := accept_ok x hcheck hok
      have hr := accept_ok x hcheck' (hout ▸ hok)
      rw [hs] at huntorn ⊢
      obtain ⟨new, r', hjournal, hall, hlast⟩ := ih (hstate.map (f := keep x e checked.now)
        (fun _ _ => rfl) ⟨rfl, rfl, rfl, rfl, rfl⟩) huntorn
      refine ⟨e :: new, r', ?_, (acceptAll_cons x hr new).trans hall, hlast⟩
      rw [hjournal, keep_journal, List.append_assoc]
      rfl

/-- A halted replay with nothing at stake. -/
structure Bereft (s : ScenarioReplay D R) : Prop where
  halted : s.halted = true
  position : s.position = none
  pending : s.pending = none
  candidate : s.candidate = none

omit [DecidableEq D] in
theorem Bereft.not_stirs {s : ScenarioReplay D R} (h : Bereft s) (checked : Checked D R) :
    s.stirs checked = false := by
  cases checked <;> simp [stirs, h.pending, seeking, h.halted]

omit [DecidableEq D] in
theorem Bereft.latch {s : ScenarioReplay D R} (h : Bereft s) : s.latch = s := by
  obtain ⟨hhalted, hposition, hpending, hcandidate⟩ := h
  cases s
  dsimp only at hhalted hposition hpending hcandidate
  subst hhalted hposition hpending hcandidate
  simp [ScenarioReplay.latch]

theorem Bereft.accept {s : ScenarioReplay D R} (h : Bereft s) (e : ReplayEvent R) :
    (s.accept x e).1 = s ∧ (∀ checked, s.check x e ≠ .ok (some checked)) ∨
      ∃ checked, s.check x e = .ok (some checked) ∧
        s.accept x e = (keep x e checked.now (pass checked s), true) := by
  rcases accept_cases x s e with ⟨hcheck, heq⟩ | ⟨⟨_, hcheck⟩, heq⟩ | ⟨checked, t, hcheck, -⟩
  · exact .inl ⟨by rw [heq], by simp [hcheck]⟩
  · exact .inl ⟨by rw [heq, h.latch], by simp [hcheck]⟩
  · refine .inr ⟨checked, hcheck, ?_⟩
    have hpass := apply_still x h.position (h.not_stirs checked)
    rw [accept_ok x hcheck (by rw [hpass]; rfl), hpass]

omit [DecidableEq D] in
theorem Bereft.kept {s : ScenarioReplay D R} (h : Bereft s) (e : ReplayEvent R)
    (checked : Checked D R) : Bereft (keep x e checked.now (pass checked s)) ∧
      (keep x e checked.now (pass checked s)).journal = s.journal ++ [e] ∧
      (keep x e checked.now (pass checked s)).lifecycle = s.lifecycle ∧
      (keep x e checked.now (pass checked s)).censored = s.censored := by
  cases checked <;> exact ⟨⟨h.halted, h.position, h.pending, h.candidate⟩, rfl, rfl, rfl⟩

/-- What has been noted stays noted. -/
theorem grown_acceptAll {n : ℕ} {r r' : ScenarioReplay D R} (h : n ≤ r.lifecycle.length)
    {es : List (ReplayEvent R)} (hall : acceptAll x r es = .ok r') : n ≤ r'.lifecycle.length := by
  induction es generalizing r with
  | nil =>
    obtain rfl := Except.ok.inj hall
    exact h
  | cons e es ih =>
    rw [acceptAll] at hall
    split at hall
    · refine ih ?_ hall
      rcases accept_cases x r e with ⟨-, heq⟩ | ⟨-, heq⟩ | ⟨checked, t, -, ht, heq⟩
      · rw [heq]
        exact h
      · rw [heq]
        exact h
      · have hgrown : n ≤ t.lifecycle.length := ht ▸ grown_apply x n checked r h
        rcases heq with ⟨-, heq⟩ | ⟨-, heq⟩ <;> rw [heq] <;> exact hgrown
    · cases hall

/-- A bereft replay notes nothing any more; its reconstruction follows it as long as nothing stirs
    what it still holds, and afterwards has noted more. -/
theorem bereft_offer {s : ScenarioReplay D R} (h : Bereft s) (candidate : Option Candidate)
    (pending : Option Pending) (censored : Bool) (es : List (ReplayEvent R)) :
    ∃ new, (s.offer x es).1.journal = s.journal ++ new ∧ (s.offer x es).1.lifecycle = s.lifecycle ∧
      (s.offer x es).1.censored = s.censored ∧ Bereft (s.offer x es).1 ∧
      (Undisturbed x candidate pending s es →
        acceptAll x (unhalted candidate pending censored s) new =
          .ok (unhalted candidate pending censored (s.offer x es).1)) ∧
      (¬ Undisturbed x candidate pending s es →
        ∀ r', acceptAll x (unhalted candidate pending censored s) new = .ok r' →
          s.lifecycle.length < r'.lifecycle.length) := by
  induction es generalizing s with
  | nil =>
    exact ⟨[], by simp [offer], rfl, rfl, h, fun _ => rfl, fun hdisturbed => absurd trivial hdisturbed⟩
  | cons e es ih =>
    rw [offer, Undisturbed]
    rcases h.accept x e with ⟨heq, hnone⟩ | ⟨checked, hcheck, heq⟩
    · obtain ⟨new, hjournal, hlifecycle, hcensored, hbereft, hstill, hstirs⟩ := ih h
      rw [heq]
      exact ⟨new, hjournal, hlifecycle, hcensored, hbereft, fun hquiet => hstill hquiet.2,
        fun hdisturbed => hstirs fun hquiet =>
          hdisturbed ⟨fun checked hcheck => absurd hcheck (hnone checked), hquiet⟩⟩
    obtain ⟨hkept, hjournal₁, hlifecycle₁, hcensored₁⟩ := h.kept x e checked
    obtain ⟨new, hjournal, hlifecycle, hcensored, hbereft, hstill, hstirs⟩ := ih hkept
    rw [hcensored₁] at hcensored
    rw [heq]
    set r := unhalted candidate pending censored s with hr
    have hcheck' : r.check x e = .ok (some checked) := hcheck
    have hposition : r.position = none := h.position
    refine ⟨e :: new, ?_, hlifecycle.trans hlifecycle₁, hcensored, hbereft, fun hquiet => ?_,
      fun hdisturbed r' hall => ?_⟩
    · rw [hjournal, hjournal₁, List.append_assoc]
      rfl
    · have hstir : r.stirs checked = false := by
        rw [← hquiet.1 checked hcheck]
        cases checked <;> rfl
      have hpass := apply_still x hposition hstir
      have haccept := accept_ok x hcheck' (by rw [hpass]; rfl)
      rw [acceptAll_cons x haccept, hpass, ← hstill hquiet.2]
      cases checked <;> rfl
    · cases hstir : r.stirs checked with
      | false =>
        have hpass := apply_still x hposition hstir
        have haccept := accept_ok x hcheck' (by rw [hpass]; rfl)
        rw [acceptAll_cons x haccept, hpass] at hall
        rw [← hlifecycle₁]
        refine hstirs (fun hquiet => hdisturbed ⟨fun c hc => ?_, hquiet⟩) r' ?_
        · rw [hcheck] at hc
          obtain rfl := Option.some.inj (Except.ok.inj hc)
          rw [← hstir]
          cases checked <;> rfl
        · rw [← hall]
          cases checked <;> rfl
      | true =>
        rw [acceptAll] at hall
        split at hall
        · refine grown_acceptAll x (n := s.lifecycle.length + 1) ?_ hall
          rename_i haccepted
          rcases accept_cases x r e with ⟨hc, -⟩ | ⟨⟨_, hc⟩, -⟩ | ⟨c, t, hc, ht, heq⟩
          · rw [hcheck'] at hc
            cases hc
          · rw [hcheck'] at hc
            cases hc
          · rw [hcheck'] at hc
            obtain rfl := Option.some.inj (Except.ok.inj hc)
            rcases heq with ⟨hok, heq⟩ | ⟨-, heq⟩
            · rw [heq, ← ht]
              exact apply_stirs x hposition hstir hok
            · rw [heq] at haccepted
              cases haccepted
        · cases hall

omit [DecidableEq D] in
theorem Phase.idle_of_halted {s : ScenarioReplay D R} (h : Phase s.core) (hhalted : s.halted = true) :
    s.pending = none ∧ s.candidate = none := by
  cases h with
  | seeking hpending _ _ _ _ _ hidle => exact ⟨hpending, hidle hhalted⟩
  | pending _ _ _ _ _ _ _ hrunning =>
    dsimp only [core] at hrunning
    simp [hrunning] at hhalted
  | holding _ hpending _ _ _ _ _ hcandidate | closed _ hpending _ _ _ _ _ hcandidate =>
    exact ⟨hpending, hcandidate⟩

omit [DecidableEq D] in
theorem Phase.of_position {s : ScenarioReplay D R} (h : Phase s.core) (hposition : s.position ≠ none) :
    s.pending = none ∧ s.candidate = none ∧ s.consumed = true := by
  cases h with
  | seeking _ hnone | pending _ _ hnone | closed _ _ hnone => exact absurd hnone hposition
  | holding _ hpending _ hconsumed _ _ _ hcandidate => exact ⟨hpending, hcandidate, hconsumed⟩

omit [DecidableEq D] in
theorem reinstate_self {s : ScenarioReplay D R} (h : Phase s.core) :
    reinstate s.halted s.censored s = s := by
  simp only [reinstate, Bool.or_self]
  split
  · rename_i hhalted
    obtain ⟨hpending, hcandidate⟩ := h.idle_of_halted hhalted
    simp only [← hpending, ← hcandidate]
  · rfl

omit [DecidableEq D] in
theorem reinstate_lifecycle (halted censored : Bool) (s : ScenarioReplay D R) :
    (reinstate halted censored s).lifecycle = s.lifecycle := by
  rw [reinstate]
  dsimp only
  split <;> rfl

omit [DecidableEq D] in
theorem reinstate_lockstep {s r : ScenarioReplay D R} (h : Lockstep s r) :
    reinstate s.halted s.censored r = s := by
  obtain ⟨⟨halted, censored, rfl, -, hcensored⟩, hhalted, hpending, hcandidate⟩ := h
  have hflag : (censored || s.censored) = s.censored := by
    cases censored
    · rfl
    · rw [hcensored rfl]
      rfl
  simp only [reinstate, flagged, hhalted, Bool.or_true, if_true, hflag]
  rw [← hhalted, ← hpending, ← hcandidate]

omit [DecidableEq D] in
theorem reinstate_unhalted {s : ScenarioReplay D R} (h : Bereft s) (candidate : Option Candidate)
    (pending : Option Pending) {censored : Bool} (hcensored : censored = true → s.censored = true) :
    reinstate s.halted s.censored (unhalted candidate pending censored s) = s := by
  have hflag : (censored || s.censored) = s.censored := by
    cases censored
    · rfl
    · rw [hcensored rfl]
      rfl
  simp only [reinstate, unhalted, h.halted, Bool.or_true, if_true, hflag]
  rw [← h.halted, ← h.pending, ← h.candidate]

omit [DecidableEq D] in
/-- A refused event costs a replay nothing that has halted already or holds a position. -/
theorem lockstep_latch {s : ScenarioReplay D R} (h : Phase s.core)
    (hstuck : ¬ (s.halted = false ∧ s.position = none)) : Lockstep s.latch s := by
  have hidle : s.pending = none ∧ s.candidate = none ∧ (s.halted = true ∨ s.consumed = true) := by
    cases hhalted : s.halted with
    | true =>
      obtain ⟨hpending, hcandidate⟩ := h.idle_of_halted hhalted
      exact ⟨hpending, hcandidate, .inl rfl⟩
    | false =>
      obtain ⟨hpending, hcandidate, hconsumed⟩ :=
        h.of_position fun hnone => hstuck ⟨hhalted, hnone⟩
      exact ⟨hpending, hcandidate, .inr hconsumed⟩
  obtain ⟨hpending, hcandidate, hover⟩ := hidle
  refine ⟨⟨s.halted, s.censored, ?_, hover, fun hcensored => ?_⟩, rfl, rfl, rfl⟩
  · simp only [flagged, ScenarioReplay.latch, ← hpending, ← hcandidate]
  · simp [ScenarioReplay.latch, hcensored]

/-- What accepting the events of the journal again leads to. -/
theorem reinstate_offer {s : ScenarioReplay D R} (h : Phase s.core) (es : List (ReplayEvent R))
    (huntorn : Untorn x s es) :
    ∃ new, (s.offer x es).1.journal = s.journal ++ new ∧
      (Quiet x s es → ∃ r', acceptAll x s new = .ok r' ∧
        reinstate (s.offer x es).1.halted (s.offer x es).1.censored r' = (s.offer x es).1) ∧
      (¬ Quiet x s es → ∀ r', acceptAll x s new = .ok r' →
        (s.offer x es).1.lifecycle.length < r'.lifecycle.length) := by
  induction es generalizing s with
  | nil =>
    refine ⟨[], by simp [offer], fun _ => ⟨s, rfl, ?_⟩, fun hloud => absurd trivial hloud⟩
    exact reinstate_self h
  | cons e es ih =>
    obtain ⟨hwhole, huntorn⟩ := huntorn
    simp only [offer, Quiet]
    rcases accept_cases x s e with ⟨-, heq⟩ | ⟨-, heq⟩ | ⟨checked, t, hcheck, ht, -⟩
    · rw [heq] at huntorn ⊢
      exact ih h huntorn
    · rw [heq] at huntorn ⊢
      simp only [Bool.false_eq_true, if_false]
      by_cases hfree : s.halted = false ∧ s.position = none
      · have hbereft : Bereft s.latch := ⟨rfl, hfree.2, rfl, rfl⟩
        obtain ⟨new, hjournal, hlifecycle, hcensored, hlast, hstill, hstirs⟩ :=
          bereft_offer x hbereft s.candidate s.pending s.censored es
        have hself : unhalted s.candidate s.pending s.censored s.latch = s := by
          simp only [unhalted, ScenarioReplay.latch, ← hfree.1]
        rw [hself] at hstill hstirs
        refine ⟨new, hjournal, fun hquiet => ⟨_, hstill (hquiet hfree.1 hfree.2), ?_⟩,
          fun hloud r' hall => ?_⟩
        · refine reinstate_unhalted hlast _ _ fun h => ?_
          rw [hcensored, ScenarioReplay.latch]
          simp [h]
        · rw [hlifecycle]
          exact hstirs (fun hquiet => hloud fun _ _ => hquiet) r' hall
      · obtain ⟨new, r', hjournal, hall, hlast⟩ :=
          lockstep_offer x (lockstep_latch h hfree) es huntorn
        exact ⟨new, hjournal, fun _ => ⟨r', hall, reinstate_lockstep hlast⟩,
          fun hloud => absurd (fun hrunning hnone => absurd ⟨hrunning, hnone⟩ hfree) hloud⟩
    · have hok := hwhole checked hcheck
      have hs := accept_ok x hcheck hok
      have hphase := phase_accept x h e
      rw [hs] at huntorn hphase ⊢
      obtain ⟨new, hjournal, hquiet, hloud⟩ := ih hphase huntorn
      refine ⟨e :: new, ?_, ?_, ?_⟩
      · rw [hjournal, keep_journal, List.append_assoc]
        rfl
      · rw [acceptAll_cons x hs]
        exact hquiet
      · rw [acceptAll_cons x hs]
        exact hloud

/-! ### Checkpoint and restore -/

/-- The two replays answer alike, whatever they are offered. -/
def Indistinguishable (s r : ScenarioReplay D R) : Prop :=
  ∀ es, (s.offer x es).2 = (r.offer x es).2 ∧ (s.offer x es).1.report = (r.offer x es).1.report

/-- The checkpoint of a replay restores it. -/
def Restorable (s : ScenarioReplay D R) : Prop :=
  ∃ r, restore x (s.checkpoint x) = .ok r ∧ Indistinguishable x s r

theorem config_offer (s : ScenarioReplay D R) (es : List (ReplayEvent R)) :
    (s.offer x es).1.config = s.config := by
  induction es generalizing s with
  | nil => rfl
  | cons e es ih =>
    rw [offer, ih]
    rcases accept_cases x s e with ⟨-, heq⟩ | ⟨-, heq⟩ | ⟨checked, t, -, ht, heq⟩
    · rw [heq]
    · rw [heq]
      rfl
    · have hconfig : t.config = s.config := ht ▸ (frame_apply x s checked s (.refl s)).config
      rcases heq with ⟨-, heq⟩ | ⟨-, heq⟩ <;> rw [heq] <;> exact hconfig

/-- A candle is refused before anything is written or not at all. -/
theorem candle_whole {s : ScenarioReplay D R} {e : ReplayEvent R} {candle : Candle}
    (hbody : e.body = .candle candle) {checked : Checked D R}
    (h : s.check x e = .ok (some checked)) : (apply x checked s).2.isOk = true := by
  rw [check] at h
  split at h
  · cases h
  split at h
  · split at h <;> cases h
  simp only [hbody, checkBody, bind_ok, pure_ok] at h
  obtain ⟨_, _, _, _, checked', ⟨_, _, _, _, _, _, rfl⟩, hchecked⟩ := h
  obtain rfl := Option.some.inj hchecked
  rfl

section restore

variable {x} {input : ReplayInput} {execution : ExecutionAssumptions} {s₀ : ScenarioReplay D R}

omit [DecidableEq D] in
theorem configure_input_eq {config : Config} (h : configure x input execution = .ok config) :
    config.input = input ∧ config.execution = execution := by
  simp only [configure, bind_ok, pure_ok] at h
  obtain ⟨_, _, _, _, _, _, _, _, _, _, rfl⟩ := h
  exact ⟨rfl, rfl⟩

/-- What restoring comes to. -/
theorem restore_checkpoint (h₀ : construct x input execution = .ok s₀) (es : List (ReplayEvent R)) :
    let s := (s₀.offer x es).1
    restore x (s.checkpoint x) = if x.byteLength s.data ≤ 64000000 then
      (acceptAll x s₀ s.journal).map (reinstate s.halted s.censored)
    else .error "SCENARIO_CHECKPOINT_OVERSIZED" := by
  dsimp only
  obtain ⟨config, hconfig, rfl⟩ := construct_eq h₀
  have hkept := config_offer x (fresh config) es
  set s := ((fresh config : ScenarioReplay D R).offer x es).1
  have hinput : s.data.input = input ∧ s.data.execution = execution := by
    have h : s.config = config := hkept
    rw [data, h]
    exact configure_input_eq hconfig
  split <;> rename_i hfits
  · rw [restore]
    simp only [checkpoint, require, hfits, if_true, hinput, h₀, ok_bind]
    show acceptAll x (fresh config) s.journal >>= (fun r => pure (reinstate s.halted s.censored r)) = _
    cases acceptAll x (fresh config) s.journal <;> rfl
  · rw [restore]
    simp only [checkpoint, require, hfits, if_false]
    rfl

/-- A replay whose reconstruction has noted more is told from it by its report. -/
theorem not_restorable (h₀ : construct x input execution = .ok s₀) {es : List (ReplayEvent R)}
    (hnoted : ∀ r', acceptAll x s₀ (s₀.offer x es).1.journal = .ok r' →
      (s₀.offer x es).1.lifecycle.length < r'.lifecycle.length) :
    ¬ Restorable x (s₀.offer x es).1 := by
  rintro ⟨r, hr, halike⟩
  have hrestore := restore_checkpoint h₀ es
  dsimp only at hrestore
  rw [hr] at hrestore
  split at hrestore
  · obtain ⟨r', hall, rfl⟩ := map_ok.mp hrestore.symm
    have hgrown := hnoted r' hall
    have hsame : (s₀.offer x es).1.lifecycle = (reinstate _ _ r').lifecycle :=
      congrArg Report.lifecycle (halike []).2
    rw [hsame, reinstate_lifecycle] at hgrown
    exact lt_irrefl _ hgrown
  · cases hrestore

/-- The checkpoint of a replay that refused no event after having written something restores it if
    and only if it is not too large and nothing stirred what the first refused event made the
    replay give up. -/
theorem restorable_iff (h₀ : construct x input execution = .ok s₀) (es : List (ReplayEvent R)) :
    let s := (s₀.offer x es).1
    Untorn x s₀ es → (Restorable x s ↔ x.byteLength s.data ≤ 64000000 ∧ Quiet x s₀ es) := by
  intro s huntorn
  have hrestore := restore_checkpoint h₀ es
  have hphase : Phase s₀.core := by
    obtain ⟨config, -, rfl⟩ := construct_eq h₀
    exact phase_fresh config
  have hempty : s₀.journal = [] := by
    obtain ⟨config, -, rfl⟩ := construct_eq h₀
    rfl
  obtain ⟨new, hjournal, hquiet, hloud⟩ := reinstate_offer x hphase es huntorn
  rw [hempty, List.nil_append] at hjournal
  dsimp only at hrestore
  rw [hjournal] at hrestore
  constructor
  · intro hrestorable
    constructor
    · obtain ⟨r, hr, -⟩ := hrestorable
      by_contra hlarge
      rw [if_neg hlarge, hr] at hrestore
      cases hrestore
    · by_contra hq
      refine not_restorable h₀ (fun r' hall => hloud hq r' ?_) hrestorable
      rwa [hjournal] at hall
  · rintro ⟨hfits, hq⟩
    obtain ⟨r', hall, hself⟩ := hquiet hq
    rw [if_pos hfits, hall] at hrestore
    exact ⟨s, hrestore.trans (congrArg _ hself), fun _ => ⟨rfl, rfl⟩⟩

end restore

namespace Sample

def bar (start : ℕ) : ReplayEvent Unit where
  id := (start + 60000).repr
  instant := some (start + 60000)
  body := .candle ⟨some start, some (start + 60000), 4405, 4406, 4404, 4405, true, []⟩

/-- Another event under a known identifier. -/
def conflicting : ReplayEvent Unit := { bar 120000 with id := (bar 60000).id }

/-- The candle that follows the refused event confirms nothing; only the restored replay says so. -/
theorem halt_forgotten :
    construct (external metadata) input baseExecution = .ok (fresh config) ∧
    ¬ Restorable (external metadata)
      ((fresh config).offer (external metadata) [bar 60000, conflicting, bar 120000]).1 := by
  refine ⟨construct_input, ?_⟩
  refine not_restorable construct_input fun r' hall => ?_
  have hquiet : ((fresh config).offer (external metadata)
      [bar 60000, conflicting, bar 120000]).1.lifecycle.length = 0 := by
    decide +kernel
  have hnoted : (acceptAll (external metadata) (fresh config) ((fresh config).offer
      (external metadata) [bar 60000, conflicting, bar 120000]).1.journal).toOption.map
        (·.lifecycle.length) = some 1 := by
    decide +kernel
  rw [hall] at hnoted
  have hone : r'.lifecycle.length = 1 := Option.some.inj hnoted
  rw [hquiet, hone]
  exact Nat.zero_lt_one

/-- A candle that does not continue the one before it would have confirmed nothing anyway. -/
theorem restorable_after_gap :
    Restorable (external metadata)
      ((fresh config).offer (external metadata) [bar 60000, conflicting, bar 180000]).1 ∧
    ((fresh config).offer (external metadata) [bar 60000, conflicting, bar 180000]).2 =
      [true, false, true] := by
  refine ⟨(@restorable_iff Json Unit _ (external metadata) input baseExecution (fresh config)
    construct_input [bar 60000, conflicting, bar 180000] ⟨fun _ h => candle_whole _ rfl h,
      fun _ h => candle_whole _ rfl h, fun _ h => candle_whole _ rfl h, trivial⟩).mpr ⟨?_, ?_⟩, ?_⟩
  · decide +kernel
  · rw [Quiet, if_pos (by decide +kernel), Quiet, if_neg (by decide +kernel)]
    intro _ _
    refine ⟨fun checked hchecked => ?_, trivial⟩
    have hstill : ((check (external metadata) (accept (external metadata)
        (accept (external metadata) (fresh config) (bar 60000)).1 conflicting).1
        (bar 180000)).toOption.join.any (stirs (unhalted
          (accept (external metadata) (fresh config) (bar 60000)).1.candidate
          (accept (external metadata) (fresh config) (bar 60000)).1.pending
          (accept (external metadata) (accept (external metadata) (fresh config)
            (bar 60000)).1 conflicting).1.censored
          (accept (external metadata) (accept (external metadata) (fresh config)
            (bar 60000)).1 conflicting).1))) = false := by
      decide +kernel
    rw [hchecked] at hstill
    exact hstill
  · decide +kernel

end Sample

end ScalpingBot.Scenario.ScenarioReplay
