import ScalpingBot.Scenario.Lifecycle

/-! What a replay keeps of its past: the events it has accepted, and where its trade comes from. -/

namespace ScalpingBot.Scenario.ScenarioReplay

variable {D R : Type}

/-! ### What the pieces of code leave alone -/

/-- Only `keep` writes what is compared here. -/
structure Frame (s t : ScenarioReplay D R) : Prop where
  config : t.config = s.config
  seen : t.seen = s.seen
  journal : t.journal = s.journal
  lastAt : t.lastAt = s.lastAt

theorem Frame.refl (s : ScenarioReplay D R) : Frame s s := ⟨rfl, rfl, rfl, rfl⟩

section frames

variable {s₀ s : ScenarioReplay D R} (h : Frame s₀ s)
include h

/-- A state that differs elsewhere only. -/
theorem Frame.of_eq {t : ScenarioReplay D R} (hconfig : t.config = s.config)
    (hseen : t.seen = s.seen) (hjournal : t.journal = s.journal) (hlastAt : t.lastAt = s.lastAt) :
    Frame s₀ t :=
  ⟨hconfig.trans h.config, hseen.trans h.seen, hjournal.trans h.journal, hlastAt.trans h.lastAt⟩

theorem frame_breakChain (bar : Bar) : Frame s₀ (breakChain bar s) := by
  rw [breakChain]
  split
  · exact h.of_eq rfl rfl rfl rfl
  · exact h

theorem frame_cancelPending (now : ℕ) (entry : ScenarioEntry) :
    Frame s₀ (cancelPending now entry s) := by
  rw [cancelPending]
  split
  · exact h.of_eq rfl rfl rfl rfl
  · exact h

theorem frame_invalidateActive (now : ℕ) (bar : Bar) : Frame s₀ (invalidateActive now bar s) := by
  rw [invalidateActive]
  split
  · exact h
  split
  · exact (frame_cancelPending h now _).of_eq rfl rfl rfl rfl
  · exact h

theorem frame_seekEntry (now : ℕ) (bar : Bar) : Frame s₀ (seekEntry now bar s) := by
  rw [seekEntry]
  split
  · exact h
  split
  · split <;> exact h.of_eq rfl rfl rfl rfl
  · exact h

theorem frame_noteGap (now : ℕ) : Frame s₀ (noteGap now s) := by
  rw [noteGap]
  split
  · exact h.of_eq rfl rfl rfl rfl
  · exact h

theorem frame_close (p : Position) (q : Quote) (now : ℕ) (reason : ExitReason) :
    Frame s₀ (close p q now reason s).1 := by
  rw [close]
  split
  · exact h
  · exact h.of_eq rfl rfl rfl rfl

theorem frame_managePosition (q : Quote) (now : ℕ) : Frame s₀ (managePosition q now s).1 := by
  rw [managePosition]
  split
  · exact h
  split
  · exact frame_close h _ q now _
  dsimp only
  split
  · refine frame_close ?_ _ q now _
    exact h.of_eq rfl rfl rfl rfl
  · exact h.of_eq rfl rfl rfl rfl

theorem frame_expirePending (now : ℕ) : Frame s₀ (expirePending now s) := by
  rw [expirePending]
  split
  · exact h
  split
  · exact h.of_eq rfl rfl rfl rfl
  · exact h

theorem frame_fillPending (q : Quote) (now : ℕ) : Frame s₀ (fillPending q now s).1 := by
  rw [fillPending]
  split
  · exact h
  split
  case isFalse => exact h
  split
  · exact h
  split
  · exact h.of_eq rfl rfl rfl rfl
  · refine frame_managePosition ?_ q now
    exact h.of_eq rfl rfl rfl rfl

theorem frame_admitCandidate [DecidableEq D] (x : External D R) (q : Quote) (now : ℕ)
    (risk : Option R) : Frame s₀ (admitCandidate x q now risk s) := by
  rw [admitCandidate]
  split
  · exact h
  split
  case isFalse => exact h
  dsimp only
  split
  · exact h.of_eq rfl rfl rfl rfl
  split
  · exact h.of_eq rfl rfl rfl rfl
  split
  · exact h.of_eq rfl rfl rfl rfl
  split <;> exact h.of_eq rfl rfl rfl rfl

end frames

variable [DecidableEq D] (x : External D R)

theorem frame_apply (s₀ : ScenarioReplay D R) (checked : Checked D R) :
    Attempt.Keeps (Frame s₀) (apply x checked) := by
  cases checked with
  | candle now bar =>
    intro s h
    exact (frame_seekEntry (frame_invalidateActive (frame_breakChain h bar) now bar) now bar).of_eq
      rfl rfl rfl rfl
  | quote now q source fingerprint risk =>
    have hgap : Attempt.Keeps (Frame s₀)
        (writes fun s => recordQuote now source fingerprint (noteGap now s)) :=
      fun s h => (frame_noteGap h now).of_eq rfl rfl rfl rfl
    have hexpire : Attempt.Keeps (Frame s₀) (writes (expirePending now)) :=
      fun s h => frame_expirePending h now
    have hadmit : Attempt.Keeps (Frame s₀) (writes (admitCandidate x q now risk)) :=
      fun s h => frame_admitCandidate h x q now risk
    exact hgap.andThen (.andThen (fun s h => frame_managePosition h q now)
      (hexpire.andThen (.andThen (fun s h => frame_fillPending h q now) hadmit)))

/-- What `accept` does to an event: it knows it already, refuses it before or while writing, or
    writes and keeps it. -/
theorem accept_cases (s : ScenarioReplay D R) (event : ReplayEvent R) :
    (s.check x event = .ok none ∧ s.accept x event = (s, true)) ∨
    ((∃ e, s.check x event = .error e) ∧ s.accept x event = (s.latch, false)) ∨
    ∃ checked t, s.check x event = .ok (some checked) ∧ (apply x checked s).1 = t ∧
      ((apply x checked s).2.isOk ∧ s.accept x event = (keep x event checked.now t, true) ∨
        ¬ (apply x checked s).2.isOk ∧ s.accept x event = (t.latch, false)) := by
  rw [accept, process]
  rcases hc : s.check x event with e | (_ | checked)
  · exact .inr (.inl ⟨⟨e, rfl⟩, rfl⟩)
  · exact .inl ⟨rfl, rfl⟩
  · refine .inr (.inr ⟨checked, _, rfl, rfl, ?_⟩)
    rcases ha : apply x checked s with ⟨t, e | out⟩
    · exact .inr ⟨Bool.false_ne_true, by simp only [Attempt.andThen, ha]⟩
    · exact .inl ⟨rfl, by simp only [Attempt.andThen, ha]; rfl⟩

theorem offer_append (s : ScenarioReplay D R) (es fs : List (ReplayEvent R)) :
    (s.offer x (es ++ fs)).1 = ((s.offer x es).1.offer x fs).1 := by
  induction es generalizing s with
  | nil => rfl
  | cons e es ih => exact ih _

/-- Which events are accepted, one run after the other. -/
theorem offer_append_snd (s : ScenarioReplay D R) (es fs : List (ReplayEvent R)) :
    (s.offer x (es ++ fs)).2 = (s.offer x es).2 ++ ((s.offer x es).1.offer x fs).2 := by
  induction es generalizing s with
  | nil => rfl
  | cons e es ih => exact congrArg ((s.accept x e).2 :: ·) (ih _)

/-! ### Accepted events -/

/-- The replay knows every event of its journal. -/
def Remembers (s : ScenarioReplay D R) : Prop :=
  ∀ event ∈ s.journal, isEventId event.id ∧ s.seen.lookup event.id = some (x.digestEvent event)

theorem lookup_append_of_some {α β : Type} [BEq α] {l m : List (α × β)} {k : α} {v : β}
    (h : l.lookup k = some v) : (l ++ m).lookup k = some v := by
  rw [List.lookup_append, h]
  rfl

/-- An event that is checked in full is new. -/
theorem check_fresh {s : ScenarioReplay D R} {event : ReplayEvent R} {checked : Checked D R}
    (h : s.check x event = .ok (some checked)) :
    isEventId event.id ∧ s.seen.lookup event.id = none := by
  rw [check] at h
  split at h
  · cases h
  rename_i hid
  split at h
  · split at h <;> cases h
  · rename_i hnew
    exact ⟨(not_not.mp hid).1, hnew⟩

theorem remembers_accept {s : ScenarioReplay D R} (h : Remembers x s) (event : ReplayEvent R) :
    Remembers x (s.accept x event).1 := by
  rcases accept_cases x s event with ⟨-, heq⟩ | ⟨-, heq⟩ | ⟨checked, t, hcheck, ht, heq⟩
  · rw [heq]
    exact h
  · rw [heq]
    exact h
  have hframe := ht ▸ frame_apply x s checked s (.refl s)
  have hkept : Remembers x t := by
    intro e he
    rw [hframe.journal] at he
    rw [hframe.seen]
    exact h e he
  rcases heq with ⟨-, heq⟩ | ⟨-, heq⟩
  · rw [heq]
    obtain ⟨hid, hnew⟩ := check_fresh x hcheck
    intro e he
    rcases List.mem_append.mp he with he | he
    · obtain ⟨hid, hseen⟩ := hkept e he
      exact ⟨hid, lookup_append_of_some hseen⟩
    · rw [List.mem_singleton] at he
      subst he
      refine ⟨hid, ?_⟩
      rw [keep, hframe.seen, List.lookup_append, hnew]
      simp
  · rw [heq]
    exact hkept

theorem remembers_offer {s : ScenarioReplay D R} (h : Remembers x s) (es : List (ReplayEvent R)) :
    Remembers x (s.offer x es).1 := by
  induction es generalizing s with
  | nil => exact h
  | cons e es ih => exact ih (remembers_accept x h e)

/-- An event of the journal is accepted again without effect while the journal may still grow. -/
theorem accept_again {s : ScenarioReplay D R} (h : Remembers x s) {event : ReplayEvent R}
    (he : event ∈ s.journal) (hroom : s.journal.length < 200000) :
    s.accept x event = (s, true) := by
  obtain ⟨hid, hseen⟩ := h event he
  have hcheck : s.check x event = .ok none := by
    rw [check, if_neg (not_not.mpr ⟨hid, hroom⟩), hseen]
    exact if_pos rfl
  rw [accept, process, hcheck]

/-! ### Where the trade comes from -/

/-- The same position, whatever is planned for its exit. -/
def SameTrade (p₀ p : Position) : Prop :=
  p.entry = p₀.entry ∧ p.volume = p₀.volume ∧ p.fill = p₀.fill ∧ p.opened = p₀.opened

theorem SameTrade.trans {p₀ p₁ p₂ : Position} (h : SameTrade p₀ p₁) (h' : SameTrade p₁ p₂) :
    SameTrade p₀ p₂ :=
  ⟨h'.1.trans h.1, h'.2.1.trans h.2.1, h'.2.2.1.trans h.2.2.1, h'.2.2.2.trans h.2.2.2⟩

/-- The trade is that of the position. -/
def Closes (t : ClosedTrade) (p : Position) : Prop :=
  t.side = p.entry.side ∧ t.entry = p.fill ∧ t.volume = p.volume ∧ t.openedAt = p.opened

theorem Closes.of_same {t : ClosedTrade} {p₀ p : Position} (h : Closes t p) (hs : SameTrade p₀ p) :
    Closes t p₀ :=
  ⟨hs.1 ▸ h.1, hs.2.2.1 ▸ h.2.1, hs.2.1 ▸ h.2.2.1, hs.2.2.2 ▸ h.2.2.2⟩

/-- The position is what the quote makes of the pending entry. -/
def Opens (s : ScenarioReplay D R) (checked : Checked D R) (p : Position) : Prop :=
  match checked with
  | .candle .. => False
  | .quote now q .. => ∃ w, s.pending = some w ∧ p = s.openedAs w q now

/-- The position was open before the event or is opened by it. -/
def Rooted (s₀ : ScenarioReplay D R) (checked : Checked D R) (p : Position) : Prop :=
  ∃ p₀, SameTrade p₀ p ∧ (s₀.position = some p₀ ∨ Opens s₀ checked p₀)

/-- What the writing of an event has made of the state before it. -/
structure Lineage (s₀ : ScenarioReplay D R) (checked : Checked D R) (t : ScenarioReplay D R) :
    Prop where
  config : t.config = s₀.config
  position : ∀ p, t.position = some p → Rooted s₀ checked p
  trade : ∀ tr ∈ t.trades, tr ∈ s₀.trades ∨ ∃ p, Rooted s₀ checked p ∧ Closes tr p

/-- Until a candidate is admitted the pending entry is the one before the event. -/
structure EarlyLineage (s₀ : ScenarioReplay D R) (checked : Checked D R) (t : ScenarioReplay D R) :
    Prop extends Lineage s₀ checked t where
  pending : ∀ w, t.pending = some w → s₀.pending = some w

omit [DecidableEq D] in
theorem EarlyLineage.refl (s : ScenarioReplay D R) (checked : Checked D R) :
    EarlyLineage s checked s where
  config := rfl
  position p hp := ⟨p, ⟨rfl, rfl, rfl, rfl⟩, .inl hp⟩
  trade _ ht := .inl ht
  pending _ hw := hw

section lineage

variable {s₀ s : ScenarioReplay D R} {checked : Checked D R}

omit [DecidableEq D] in
/-- A state with the same positions and trades, and no other pending entry. -/
theorem EarlyLineage.of_eq {t : ScenarioReplay D R} (h : EarlyLineage s₀ checked s)
    (hconfig : t.config = s.config) (hposition : t.position = s.position)
    (htrades : t.trades = s.trades) (hpending : t.pending = s.pending ∨ t.pending = none) :
    EarlyLineage s₀ checked t where
  config := hconfig.trans h.config
  position p hp := h.position p (hposition ▸ hp)
  trade tr ht := h.trade tr (htrades ▸ ht)
  pending w hw := by
    rcases hpending with heq | heq <;> rw [heq] at hw
    · exact h.pending w hw
    · cases hw

omit [DecidableEq D] in
theorem lineage_invalidateActive (h : EarlyLineage s₀ checked s) (now : ℕ) (bar : Bar) :
    EarlyLineage s₀ checked (invalidateActive now bar s) := by
  have hcancel (entry : ScenarioEntry) : EarlyLineage s₀ checked (cancelPending now entry s) := by
    rw [cancelPending]
    split
    · exact h.of_eq rfl rfl rfl (.inr rfl)
    · exact h
  rw [invalidateActive]
  split
  · exact h
  split
  · rename_i entry _ _
    refine ⟨⟨(hcancel entry).config, fun p hp => ?_, (hcancel entry).trade⟩, (hcancel entry).pending⟩
    obtain ⟨p₁, hp₁, rfl⟩ := Option.map_eq_some_iff.mp hp
    obtain ⟨p₀, hsame, hroot⟩ := (hcancel entry).position p₁ hp₁
    refine ⟨p₀, ?_, hroot⟩
    split <;> exact hsame
  · exact h

omit [DecidableEq D] in
theorem lineage_close (h : EarlyLineage s₀ checked s) {p : Position} (hp : Rooted s₀ checked p)
    (q : Quote) (now : ℕ) (reason : ExitReason) :
    EarlyLineage s₀ checked (close p q now reason s).1 := by
  rw [close]
  split
  · exact h
  · rename_i trade htrade
    refine ⟨⟨h.config, ?_, fun tr ht => ?_⟩, h.pending⟩
    · intro _ hp
      cases hp
    rcases List.mem_append.mp ht with ht | ht
    · exact h.trade tr ht
    · obtain rfl := List.mem_singleton.mp ht
      simp only [closedTrade, bind_ok, pure_ok] at htrade
      obtain ⟨-, -, -, -, -, -, -, -, rfl⟩ := htrade
      exact .inr ⟨p, hp, rfl, rfl, rfl, rfl⟩

omit [DecidableEq D] in
theorem lineage_managePosition (h : EarlyLineage s₀ checked s) (q : Quote) (now : ℕ) :
    EarlyLineage s₀ checked (managePosition q now s).1 := by
  rw [managePosition]
  split
  · exact h
  rename_i p hp
  have hroot := h.position p hp
  split
  · exact lineage_close h hroot q now _
  have hheld : Rooted s₀ checked (holdLimit now s.config.execution.latencyMs p) := by
    obtain ⟨p₀, hsame, hp₀⟩ := hroot
    refine ⟨p₀, ?_, hp₀⟩
    rw [holdLimit]
    split <;> exact hsame
  let held := some (holdLimit now s.config.execution.latencyMs p)
  have hnext : EarlyLineage s₀ checked { s with position := held } :=
    ⟨⟨h.config, fun p' hp' => Option.some.inj hp' ▸ hheld, h.trade⟩, h.pending⟩
  dsimp only
  split
  · exact lineage_close hnext hheld q now _
  · exact hnext

omit [DecidableEq D] in
theorem lineage_fillPending {q : Quote} {now source : ℕ} {fingerprint : D} {risk : Option R}
    (h : EarlyLineage s₀ (.quote now q source fingerprint risk) s) :
    EarlyLineage s₀ (.quote now q source fingerprint risk) (fillPending q now s).1 := by
  rw [fillPending]
  split
  · exact h
  rename_i w hw
  split
  case isFalse => exact h
  split
  · exact h
  split
  · exact h.of_eq rfl rfl rfl (.inr rfl)
  · refine lineage_managePosition (s := { s with
      position := some (s.openedAs w q now), pending := none, consumed := true }.note now .filled []
        (some w.entry)) ⟨⟨h.config, fun p hp => ?_, h.trade⟩, fun _ hw => by cases hw⟩ q now
    obtain rfl := Option.some.inj hp
    refine ⟨_, ⟨rfl, rfl, rfl, rfl⟩, .inr ⟨w, h.pending w hw, ?_⟩⟩
    rw [openedAs, openedAs, slippedFill, slippedFill, h.config]

theorem lineage_admitCandidate (h : EarlyLineage s₀ checked s) (q : Quote) (now : ℕ)
    (risk : Option R) : Lineage s₀ checked (admitCandidate x q now risk s) := by
  rw [admitCandidate]
  split
  · exact h.toLineage
  split
  case isFalse => exact h.toLineage
  dsimp only
  split
  · exact ⟨h.config, h.position, h.trade⟩
  split
  · exact ⟨h.config, h.position, h.trade⟩
  split
  · exact ⟨h.config, h.position, h.trade⟩
  split <;> exact ⟨h.config, h.position, h.trade⟩

end lineage

theorem lineage_apply (s : ScenarioReplay D R) (checked : Checked D R) :
    Lineage s checked (apply x checked s).1 := by
  have h := EarlyLineage.refl s checked
  cases checked with
  | candle now bar =>
    have hbreak : EarlyLineage s (.candle now bar) (breakChain bar s) := by
      rw [breakChain]
      split
      · exact h.of_eq rfl rfl rfl (.inl rfl)
      · exact h
    have hinvalid := lineage_invalidateActive hbreak now bar
    have hseek : EarlyLineage s (.candle now bar)
        (seekEntry now bar (invalidateActive now bar (breakChain bar s))) := by
      rw [seekEntry]
      split
      · exact hinvalid
      split
      · split <;> exact hinvalid.of_eq rfl rfl rfl (.inl rfl)
      · exact hinvalid
    exact ⟨hseek.config, hseek.position, hseek.trade⟩
  | quote now q source fingerprint risk =>
    have hgap : Attempt.Keeps (EarlyLineage s (.quote now q source fingerprint risk))
        (writes fun s => recordQuote now source fingerprint (noteGap now s)) := by
      intro t ht
      have hnote : EarlyLineage s (.quote now q source fingerprint risk) (noteGap now t) := by
        rw [noteGap]
        split
        · exact ht.of_eq rfl rfl rfl (.inr rfl)
        · exact ht
      exact hnote.of_eq rfl rfl rfl (.inl rfl)
    have hexpire : Attempt.Keeps (EarlyLineage s (.quote now q source fingerprint risk))
        (writes (expirePending now)) := by
      intro t ht
      show EarlyLineage s _ (expirePending now t)
      rw [expirePending]
      split
      · exact ht
      split
      · exact ht.of_eq rfl rfl rfl (.inr rfl)
      · exact ht
    exact Attempt.andThen_leads (fun _ ht => ht.toLineage) hgap
      (Attempt.andThen_leads (fun _ ht => ht.toLineage) (fun t ht => lineage_managePosition ht q now)
        (Attempt.andThen_leads (fun _ ht => ht.toLineage) hexpire
          (Attempt.andThen_leads (fun _ ht => ht.toLineage) (fun t ht => lineage_fillPending ht)
            fun t ht => lineage_admitCandidate x ht q now risk))) s h

/-- The position was opened by a quote of the run from the entry that was pending then. -/
def FromPlan (s : ScenarioReplay D R) (es : List (ReplayEvent R)) (p : Position) : Prop :=
  ∃ before event after, es = before ++ event :: after ∧ ∃ w q bidText askText risk now,
    event.body = .quote q bidText askText risk ∧ event.instant = some now ∧
    (s.offer x before).1.pending = some w ∧
    SameTrade ((s.offer x before).1.openedAs w q now) p

theorem FromPlan.append {s : ScenarioReplay D R} {es : List (ReplayEvent R)} {p : Position}
    (h : FromPlan x s es p) (fs : List (ReplayEvent R)) : FromPlan x s (es ++ fs) p := by
  obtain ⟨before, event, after, rfl, h⟩ := h
  exact ⟨before, event, after ++ fs, by simp, h⟩

theorem FromPlan.same {s : ScenarioReplay D R} {es : List (ReplayEvent R)} {p₀ p : Position}
    (h : FromPlan x s es p₀) (hs : SameTrade p₀ p) : FromPlan x s es p := by
  obtain ⟨before, event, after, hes, w, q, bidText, askText, risk, now, hbody, hnow, hw, hsame⟩ := h
  exact ⟨before, event, after, hes, w, q, bidText, askText, risk, now, hbody, hnow, hw,
    hsame.trans hs⟩

/-- What the check of a quote has read. -/
theorem check_quote {s : ScenarioReplay D R} {event : ReplayEvent R} {now source : ℕ} {q : Quote}
    {fingerprint : D} {risk : Option R}
    (h : s.check x event = .ok (some (.quote now q source fingerprint risk))) :
    event.instant = some now ∧ ∃ bidText askText, event.body = .quote q bidText askText risk := by
  rw [check] at h
  split at h
  · cases h
  split at h
  · split at h <;> cases h
  simp only [bind_ok, pure_ok, require_ok, time_ok] at h
  obtain ⟨now', hnow, -, -, checked, hbody, hchecked⟩ := h
  obtain rfl := Option.some.inj hchecked
  cases hb : event.body with
  | candle c =>
    simp only [hb, checkBody, bind_ok, pure_ok] at hbody
    obtain ⟨_, _, _, _, _, _, hbody⟩ := hbody
    cases hbody
  | quote q' bidText askText risk' =>
    simp only [hb, checkBody, bind_ok, pure_ok] at hbody
    obtain ⟨_, _, _, _, _, _, _, _, _, _, hbody⟩ := hbody
    cases hbody
    exact ⟨hnow, bidText, askText, rfl⟩

/-- The trades and the position of a replay come from plans of its run. -/
theorem fromPlan_offer {s₀ : ScenarioReplay D R} (hposition : s₀.position = none)
    (htrades : s₀.trades = []) (es : List (ReplayEvent R)) :
    (∀ p, (s₀.offer x es).1.position = some p → FromPlan x s₀ es p) ∧
      ∀ t ∈ (s₀.offer x es).1.trades, ∃ p, FromPlan x s₀ es p ∧ Closes t p := by
  induction es using List.reverseRecOn with
  | nil =>
    refine ⟨fun p hp => ?_, fun t ht => ?_⟩
    · rw [show (s₀.offer x []).1.position = s₀.position from rfl, hposition] at hp
      cases hp
    · rw [show (s₀.offer x []).1.trades = s₀.trades from rfl, htrades] at ht
      cases ht
  | append_singleton es e ih =>
    obtain ⟨ihp, iht⟩ := ih
    set s := (s₀.offer x es).1 with hs
    have hlast : (s₀.offer x (es ++ [e])).1 = (s.accept x e).1 := offer_append x s₀ es [e]
    rw [hlast]
    have hkept : (∀ p, s.position = some p → FromPlan x s₀ (es ++ [e]) p) ∧
        ∀ t ∈ s.trades, ∃ p, FromPlan x s₀ (es ++ [e]) p ∧ Closes t p := by
      refine ⟨fun p hp => (ihp p hp).append x [e], fun t ht => ?_⟩
      obtain ⟨p, hp, hcloses⟩ := iht t ht
      exact ⟨p, hp.append x [e], hcloses⟩
    rcases accept_cases x s e with ⟨-, heq⟩ | ⟨-, heq⟩ | ⟨checked, t, hcheck, ht, heq⟩
    · rw [heq]
      exact hkept
    · rw [heq]
      exact hkept
    have hlineage : Lineage s checked t := ht ▸ lineage_apply x s checked
    have hroot {p : Position} (hp : Rooted s checked p) :
        ∃ p₀, FromPlan x s₀ (es ++ [e]) p₀ ∧ SameTrade p₀ p := by
      obtain ⟨p₀, hsame, hp₀ | hopens⟩ := hp
      · exact ⟨p₀, hkept.1 p₀ hp₀, hsame⟩
      · cases checked with
        | candle => exact hopens.elim
        | quote now q source fingerprint risk =>
          obtain ⟨w, hw, rfl⟩ := hopens
          obtain ⟨hnow, bidText, askText, hbody⟩ := check_quote x hcheck
          exact ⟨_, ⟨es, e, [], rfl, w, q, bidText, askText, risk, now, hbody, hnow, hw,
            rfl, rfl, rfl, rfl⟩, hsame⟩
    have hnext : (∀ p, t.position = some p → FromPlan x s₀ (es ++ [e]) p) ∧
        ∀ tr ∈ t.trades, ∃ p, FromPlan x s₀ (es ++ [e]) p ∧ Closes tr p := by
      refine ⟨fun p hp => ?_, fun tr htr => ?_⟩
      · obtain ⟨p₀, hp₀, hsame⟩ := hroot (hlineage.position p hp)
        exact hp₀.same x hsame
      · rcases hlineage.trade tr htr with hold | ⟨p, hp, hcloses⟩
        · exact hkept.2 tr hold
        · obtain ⟨p₀, hp₀, hsame⟩ := hroot hp
          exact ⟨p₀, hp₀, hcloses.of_same hsame⟩
    rcases heq with ⟨-, heq⟩ | ⟨-, heq⟩ <;> rw [heq] <;> exact hnext

end ScalpingBot.Scenario.ScenarioReplay
