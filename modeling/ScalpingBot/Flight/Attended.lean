import Mathlib.Data.List.Nodup
import ScalpingBot.Flight.Continuity

/-! The steps of the recorder that keep every recording continuous, and the runs of such steps. A
    stream start, an overflow of the ring or a storage error is noted in the active recording only,
    so these steps must not meet a recording in its post window that has quotes since its last
    gap. -/

namespace ScalpingBot.FlightRecorder

variable {s t : State} {r : ℕ} {e : QuoteEvent} {v : List Entry} {p : ℕ}

/-- No recording in its post window has a quote since its last gap. -/
def State.Quiet (s : State) : Prop := ∀ r ∈ s.posts, s.live r → ¬ s.exposed r

/-- The condition on a step: what is noted only in the active recording concerns no other one, the
    gap of the `except` is stored when the active recording missed an event, and no error interrupts
    the hand-over from a setup that has ended. -/
def State.Attended (s : State) : Event → Prop
  | .poll _ => s.stream ≠ some s.buffer.streamId ∨ (s.buffer.read s.cursor).gap → s.Quiet
  | .takeUp _ stop => ∀ r, s.active = some r → (s.flights r).setup.terminal → stop = none
  | .store append _ raised => append ≠ .stored ∨ raised → ∀ d ∈ s.due.drop
      (if append = .refused then 0 else 1), s.live d.1 → s.flight = some d.1 ∨ ¬ s.exposed d.1
  | .handle append => ∀ r, s.active = some r → s.Missed r → append ≠ none ∧ append ≠ some .refused
  | _ => True

/-! ### The producer -/

theorem virtual_behind (hs : s.Sound) (hr : s.live r) :
    Behind s.history s.stream s.cursor (s.virtual r) := by
  rw [State.virtual]
  cases hdue : s.dueOf r using List.reverseRecOn with
  | nil => exact hs.behind r hr
  | append_singleton rest e =>
    intro a ha
    rw [List.map_append, List.reverse_append] at ha
    obtain rfl : e = a := by simpa using ha
    have he : e ∈ s.dueOf r := by
      rw [hdue]
      exact List.mem_append_right _ List.mem_cons_self
    obtain ⟨d, hd, rfl⟩ := List.mem_map.mp he
    exact hs.dueMem d (List.mem_of_mem_filter hd)

/-- An event with the next number of the producer's stream. -/
def State.append (s : State) (e : QuoteEvent) (buffer : FlightQuoteBuffer) : State :=
  { s with buffer, history := e :: s.history }

section Append

variable {buffer : FlightQuoteBuffer} (hs : s.Sound) (hstream : e.stream = s.buffer.streamId)
  (hseq : e.sequence = s.buffer.sequence + 1)
include hs hstream hseq

theorem joined_append {f : Flight} {x y : Entry} (h : Joined s.history f x y) :
    Joined (e :: s.history) f x y := by
  cases x with
  | gap => trivial
  | quote b =>
    cases y with
    | gap => trivial
    | quote a =>
      obtain ⟨hmem, hab, hlt, hbetween⟩ := h
      refine ⟨List.mem_cons_of_mem _ hmem, hab, hlt, fun x hx hxa hax hxb => ?_⟩
      rcases List.mem_cons.mp hx with rfl | hx
      · have hle := (hs.counted.numbered b hmem).2.2 (hab.symm.trans (hxa.symm.trans hstream))
        omega
      · exact hbetween x hx hxa hax hxb

theorem counted_append (hbuffer : buffer.streamId = s.buffer.streamId)
    (hsequence : buffer.sequence = s.buffer.sequence + 1) (hring : buffer.Ring)
    (hmem : ∀ x ∈ buffer.events, x = e ∨ x ∈ s.buffer.events) : (s.append e buffer).Counted := by
  have hc := hs.counted
  refine ⟨fun x hx => ?_, fun x hx y hy hxy hseqs => ?_, hring, fun x hx => ?_, fun σ hσ => ?_,
    hc.noStream, fun x hx => List.mem_cons_of_mem e (hc.recentMem x hx), hc.nodup, hc.created⟩
  · simp only [State.append, hbuffer, hsequence]
    rcases List.mem_cons.mp hx with rfl | hx
    · exact ⟨hstream.le, by omega, fun _ => hseq.le⟩
    · obtain ⟨hle, hone, hle'⟩ := hc.numbered x hx
      exact ⟨hle, hone, fun h => (hle' h).trans (Nat.le_succ _)⟩
  · have hnew : ∀ z ∈ s.history, z.stream = e.stream → z.sequence ≠ e.sequence := by
      intro z hz hze heq
      have hle := (hc.numbered z hz).2.2 (hze.trans hstream)
      omega
    rcases List.mem_cons.mp hx with rfl | hxmem
    · rcases List.mem_cons.mp hy with rfl | hymem
      · rfl
      · exact absurd hseqs.symm (hnew y hymem hxy.symm)
    · rcases List.mem_cons.mp hy with rfl | hymem
      · exact absurd hseqs (hnew x hxmem hxy)
      · exact hc.distinct x hxmem y hymem hxy hseqs
  · rcases hmem x hx with rfl | hx
    · exact List.mem_cons_self
    · exact List.mem_cons_of_mem e (hc.ringMem x hx)
  · simp only [State.append, hbuffer, hsequence]
    obtain ⟨hle, hcursor, hrecent⟩ := hc.stream σ hσ
    exact ⟨hle, fun h => (hcursor h).trans (Nat.le_succ _), hrecent⟩

/-- An event that the producer numbers after everything else leaves the recordings as they are. -/
theorem append_sound (hcounted : (s.append e buffer).Counted) : (s.append e buffer).Sound := by
  have hc := hs.counted
  refine ⟨hcounted, fun r => ?_, fun r hr a ha => ?_, fun d hd => ?_, hs.single,
    fun r hr hfailed a ha x hx hxa hax hxp => ?_, ?_⟩
  · exact (hs.chain r).imp fun _ _ h => joined_append hs hstream hseq h
  · obtain ⟨hmem, hbehind⟩ := hs.behind r hr a ha
    exact ⟨List.mem_cons_of_mem e hmem, hbehind⟩
  · obtain ⟨hmem, hdue⟩ := hs.dueMem d hd
    exact ⟨List.mem_cons_of_mem e hmem, hdue⟩
  · rcases List.mem_cons.mp hx with rfl | hx
    · have ha' := (virtual_behind hs hr a ha).2.1
      have hle := (hc.stream a.stream ha'.symm).2.1 (hxa.symm.trans hstream)
      have hxp' : x.sequence ≤ s.cursor := hxp
      omega
    · exact hs.covers r hr hfailed a ha x hx hxa hax hxp
  · have hrest := hs.rest
    simp only [State.append]
    cases hphase : s.phase with
    | idle => trivial
    | failed => trivial
    | events rest =>
      rw [hphase] at hrest
      intro hne
      obtain ⟨σ, p, hσ, hnumbered, hmem, hp⟩ := hrest hne
      exact ⟨σ, p, hσ, hnumbered, fun x hx => List.mem_cons_of_mem e (hmem x hx), hp⟩
    | recording due rest =>
      rw [hphase] at hrest
      intro hne
      obtain ⟨σ, hσ, hnumbered, hmem⟩ := hrest hne
      exact ⟨σ, hσ, hnumbered, fun x hx => List.mem_cons_of_mem e (hmem x hx)⟩

end Append

theorem observe_sound (hs : s.Sound) (o : Observation) :
    State.Sound { s with
      buffer := s.buffer.observe o
      history := if s.buffer.takes o then s.buffer.nextEvent o :: s.history else s.history } := by
  by_cases ho : s.buffer.takes o
  swap
  · simpa only [FlightQuoteBuffer.observe, ho, Bool.false_eq_true, if_false] using hs
  have hring := ring_observe hs.counted.ring o
  rw [if_pos ho]
  refine append_sound hs (e := s.buffer.nextEvent o) rfl rfl ?_
  refine counted_append hs rfl rfl ?_ ?_ hring fun x hx => ?_
  · rw [FlightQuoteBuffer.observe, if_pos ho]
  · rw [FlightQuoteBuffer.observe, if_pos ho]
  · rw [FlightQuoteBuffer.observe, if_pos ho] at hx
    rcases List.mem_append.mp (List.mem_of_mem_drop hx) with hx | hx
    · exact .inr hx
    · exact .inl (List.mem_singleton.mp hx)

/-- A producer that starts anew numbers a new stream. -/
theorem restart_sound (hs : s.Sound) : State.Sound { s with buffer := s.buffer.restart } := by
  have hc := hs.counted
  refine ⟨⟨fun e he => ?_, hc.distinct, ⟨0, trivial, rfl⟩, fun e he => ?_, fun σ hσ => ?_,
    hc.noStream, hc.recentMem, hc.nodup, hc.created⟩, hs.chain, hs.behind, hs.dueMem, hs.single,
    hs.covers, hs.rest⟩
  · obtain ⟨hle, hone, -⟩ := hc.numbered e he
    have hlt : e.stream < s.buffer.streamId + 1 := Nat.lt_succ_of_le hle
    exact ⟨hlt.le, hone, fun heq => absurd heq hlt.ne⟩
  · exact absurd he List.not_mem_nil
  · obtain ⟨hle, -, hrecent⟩ := hc.stream σ hσ
    have hlt : σ < s.buffer.streamId + 1 := Nat.lt_succ_of_le hle
    exact ⟨hlt.le, fun heq => absurd heq hlt.ne, hrecent⟩

/-! ### The loop between its parts -/

theorem records_chain (hs : s.Sound) (r : ℕ) :
    (s.flights r).records.IsChain (Joined s.history (s.flights r)) :=
  (hs.chain r).right_of_append

theorem due_of_phase (h : s.phase = .idle ∨ s.phase = .failed) : s.due = [] := by
  rw [State.due]
  rcases h with h | h <;> rw [h]

/-- A recorder that starts anew writes to no recording of before. -/
theorem reboot_sound (hs : s.Sound) : State.Sound { s with
    stream := none
    cursor := 0
    recent := []
    flight := none
    posts := []
    seen := []
    phase := .idle } := by
  have hc := hs.counted
  refine ⟨⟨hc.numbered, hc.distinct, hc.ring, hc.ringMem, nofun, fun _ => rfl, nofun, List.nodup_nil,
    nofun⟩, fun r => ?_, fun r hr => ?_, nofun, fun r _ => Nat.zero_le 1, fun r hr => ?_, trivial⟩
  · exact records_chain hs r
  all_goals
    simp only [State.live, List.not_mem_nil, decide_eq_true_eq] at hr
    rcases hr.1 with h | h <;> cases h

theorem update_written {s : State} {r : ℕ} {updatedAt : ℤ} {terminal raised : Bool} {gaps : ℕ} :
    Written s (s.update r updatedAt terminal gaps raised) := by
  have h := written_setFlight (s := s) (r := r) (n := gaps)
    (g := { (s.flights r).writeGaps gaps with
      setup := { (s.flights r).setup with updatedAt, terminal } }) rfl rfl id
  exact ⟨h.buffer, h.history, h.flight, h.posts, h.created, h.records, h.createdAt, h.final⟩

theorem final_written (r : ℕ) (ended : Bool) :
    Written s (s.setFlight r { s.flights r with final := (s.flights r).final || ended }) := by
  refine written_setFlight (n := 0) rfl rfl fun h => ?_
  dsimp only
  rw [h]
  rfl

/-- A gap of the active recording, with what a step makes of the rest. -/
theorem gap_written (append : Append) (phase : Phase) (stream : Option ℕ) (cursor : ℕ)
    (recent : List QuoteEvent) :
    Written s { s.gapActive append with phase, stream, cursor, recent } := by
  have hw := gapActive_written (s := s) append
  exact ⟨hw.buffer, hw.history, hw.flight, hw.posts, hw.created, hw.records, hw.createdAt, hw.final⟩

theorem live_iff : s.live r ↔ (s.flight = some r ∨ r ∈ s.posts) ∧ (s.flights r).final = false :=
  decide_eq_true_iff

theorem live_final (hr : s.live r) : (s.flights r).final = false :=
  (live_iff.mp hr).2

theorem covers_unexposed {history : List QuoteEvent} {f : Flight} (h : ¬ s.exposed r) :
    Covers history f p (s.flights r).records :=
  covers_of_gap fun a ha => h ⟨a, ha⟩

theorem behind_unexposed {history : List QuoteEvent} {stream : Option ℕ} (h : ¬ s.exposed r) :
    Behind history stream p (s.flights r).records :=
  behind_of_gap fun a ha => h ⟨a, ha⟩

/-- After the `except` of the loop the active recording has a gap or has missed nothing. -/
theorem handle_sound (hs : s.Sound) (hphase : s.phase = .failed) {append : Option Append}
    (hok : s.Attended (.handle append)) :
    State.Sound { s.gapActive (append.getD .refused) with phase := .idle } := by
  have hdue := due_of_phase (.inr hphase)
  have hw := gap_written (s := s) (append.getD .refused) .idle s.stream s.cursor s.recent
  rw [gapActive_eq] at hw ⊢
  refine hw.sound hs hdue rfl (hw.counted hs.counted rfl rfl rfl) (fun r hr => ?_) (fun r hr _ => ?_)
    trivial
  · exact hw.behind (hs.behind r (hw.live hr))
  by_cases hflight : s.flight = some r
  swap
  · have hcovers := hs.covers r (hw.live hr) fun _ => hflight
    rw [virtual_of_due hdue] at hcovers
    exact hw.covers hcovers
  have hfinal := live_final (hw.live hr)
  have hactive : s.active = some r := by
    rw [State.active, hflight, Option.filter_some, hfinal]
    rfl
  by_cases hmissed : s.Missed r
  · obtain ⟨hnone, hrefused⟩ := hok r hactive hmissed
    cases append with
    | none => exact absurd rfl hnone
    | some append =>
      have hne : append ≠ .refused := fun h => hrefused (congrArg some h)
      exact covers_unexposed (s := s.gapActive append) (gapActive_gap hne hflight hfinal)
  · refine hw.covers fun a ha e he hstream hlt hle => ?_
    by_contra hsince
    exact hmissed ⟨a, ha, e, he, hstream, hlt, hle, by simpa using hsince⟩

/-! ### Reading the stream -/

/-- With the gap of the active recording no recording has a quote since its last gap. -/
theorem gapActive_quiet {append : Append} (hquiet : s.Quiet) (hok : s.activeRaises append = false)
    (hr : s.live r) : ¬ (s.gapActive append).exposed r := by
  by_cases hflight : s.flight = some r
  · exact gapActive_exposed hok hflight (live_final hr)
  · intro hexposed
    have hpost : r ∈ s.posts := by
      simp only [State.live, hflight, false_or, decide_eq_true_eq] at hr
      exact hr.1
    exact hquiet r hpost hr ((gapActive_written append).exposed hexposed)

/-- The counts, where the recorder forgets the events of its stream. -/
theorem Written.counted_anew (h : Written s t) (hs : s.Counted) (hrecent : t.recent = [])
    (hstream : ∀ σ, t.stream = some σ → σ ≤ s.buffer.streamId ∧
      (σ = s.buffer.streamId → t.cursor ≤ s.buffer.sequence)) : t.Counted := by
  refine ⟨?_, ?_, ?_, ?_, fun σ hσ => ?_, fun _ => hrecent, ?_, h.nodup hs.nodup, fun r hr => ?_⟩
  · rw [h.history, h.buffer]
    exact hs.numbered
  · rw [h.history]
    exact hs.distinct
  · rw [h.buffer]
    exact hs.ring
  · rw [h.buffer, h.history]
    exact hs.ringMem
  · rw [h.buffer, hrecent]
    exact ⟨(hstream σ hσ).1, (hstream σ hσ).2, t.cursor, trivial, rfl⟩
  · rw [hrecent]
    exact nofun
  · rw [h.created]
    exact hs.created r (h.mem hr)

/-- The read that starts a stream. -/
theorem start_sound (hs : s.Sound) (hphase : s.phase = .idle) {append : Append} (hquiet : s.Quiet)
    (hok : s.activeRaises append = false) :
    State.Sound { s.gapActive append with
      stream := some s.buffer.streamId
      cursor := 0
      recent := [] } := by
  have hdue := due_of_phase (.inl hphase)
  have hw := gap_written (s := s) append .idle (some s.buffer.streamId) 0 []
  have hunexposed : ∀ r, s.live r → ¬ (s.gapActive append).exposed r :=
    fun r => gapActive_quiet hquiet hok
  rw [gapActive_eq] at hw hunexposed ⊢
  simp only [hphase]
  refine hw.sound hs hdue rfl (hw.counted_anew hs.counted rfl fun σ hσ => ?_) (fun r hr => ?_)
    (fun r hr _ => ?_) trivial
  · obtain rfl : s.buffer.streamId = σ := Option.some.inj hσ
    exact ⟨le_rfl, fun _ => Nat.zero_le _⟩
  · exact behind_unexposed (hunexposed r (hw.live hr))
  · exact covers_unexposed (hunexposed r (hw.live hr))

/-- Without a gap the events of a read follow the cursor. -/
theorem read_sound (hs : s.Sound) (hphase : s.phase = .idle)
    (hstream : s.stream = some s.buffer.streamId) (hgap : (s.buffer.read s.cursor).gap = false) :
    State.Sound { s with phase := .events (s.buffer.read s.cursor).events } := by
  have hdue := due_of_phase (.inl hphase)
  have hc := hs.counted
  refine (written_phase _).sound_same hs hdue rfl (by rw [hphase]; nofun) rfl rfl rfl ?_
  obtain ⟨p, hnumbered, hp⟩ := ring_read hc.ring s.cursor
  refine fun _ => ⟨_, p, hstream, hnumbered, fun e he => hc.ringMem e (mem_read he), ?_⟩
  rcases Nat.eq_zero_or_pos s.cursor with hzero | hpos
  · refine .inr ⟨?_, fun r hr => ?_⟩
    · obtain ⟨-, -, q, -, hlength⟩ := hc.stream _ hstream
      have hnil : s.recent.length = 0 := by omega
      exact List.length_eq_zero_iff.mp hnil
    · rintro ⟨a, ha⟩
      obtain ⟨hmem, -, hle⟩ := hs.behind r hr a ha
      have hone := (hc.numbered a hmem).2.1
      omega
  · exact .inl (hp hgap hpos.ne')

theorem poll_sound (hs : s.Sound) (hphase : s.phase = .idle) {append : Append}
    (hok : s.Attended (.poll append)) : (s.poll append).Sound := by
  have hdue := due_of_phase (.inl hphase)
  have hidle : s.phase ≠ .failed := by rw [hphase]; nofun
  have hc := hs.counted
  rw [State.poll]
  dsimp only
  split
  · next hstream =>
    split
    · have hw := gap_written (s := s) append .failed s.stream s.cursor s.recent
      rw [gapActive_eq] at hw ⊢
      exact hw.sound_same hs hdue rfl hidle rfl rfl rfl trivial
    · next hraises =>
      exact start_sound hs hphase (hok (.inl hstream)) (by simpa using hraises)
  · next hstream =>
    have hstream : s.stream = some s.buffer.streamId := of_not_not hstream
    split
    · next hgap =>
      split
      · have hw := gap_written (s := s) append .failed s.stream s.cursor []
        rw [gapActive_eq] at hw ⊢
        refine hw.sound hs hdue rfl (hw.counted_anew hs.counted rfl fun σ hσ => ?_)
          (fun r hr => hw.behind (hs.behind r (hw.live hr))) (fun r hr hfailed => ?_) trivial
        · obtain ⟨hle, hcursor, -⟩ := hc.stream σ hσ
          exact ⟨hle, hcursor⟩
        · have hcovers := hs.covers r (hw.live hr) fun h => absurd h hidle
          rw [virtual_of_due hdue] at hcovers
          exact hw.covers hcovers
      · next hraises =>
        have hunexposed : ∀ r, s.live r → ¬ (s.gapActive append).exposed r :=
          fun r => gapActive_quiet (hok (.inr hgap)) (by simpa using hraises)
        have hw := gap_written (s := s) append (.events (s.buffer.read s.cursor).events) s.stream
          s.cursor []
        have hle : ¬ (s.buffer.read s.cursor).latestSequence < s.cursor :=
          not_lt.mpr ((hc.stream _ hstream).2.1 rfl)
        rw [if_neg hle]
        rw [gapActive_eq] at hw hunexposed ⊢
        refine hw.sound hs hdue rfl (hw.counted_anew hs.counted rfl fun σ hσ => ?_)
          (fun r hr => hw.behind (hs.behind r (hw.live hr))) (fun r hr _ => ?_) fun _ => ?_
        · obtain ⟨hle, hcursor, -⟩ := hc.stream σ hσ
          exact ⟨hle, hcursor⟩
        · exact covers_unexposed (hunexposed r (hw.live hr))
        · obtain ⟨p, hnumbered, -⟩ := ring_read hc.ring s.cursor
          exact ⟨_, p, hstream, hnumbered, fun e he => hc.ringMem e (mem_read he),
            .inr ⟨rfl, fun r hr => hunexposed r (hw.live hr)⟩⟩
    · next hgap =>
      exact read_sound hs hphase hstream (by simpa using hgap)

/-! ### The events of a batch -/

/-- One event for every recording of a list. -/
theorem filter_pairs {l : List ℕ} (hl : l.Nodup) (e : QuoteEvent) (r : ℕ) :
    ((l.map (·, e)).filter (·.1 = r)).map (·.2) = if r ∈ l then [e] else [] := by
  induction l with
  | nil => rfl
  | cons x rest ih =>
    obtain ⟨hx, hrest⟩ := List.nodup_cons.mp hl
    rw [List.map_cons, List.filter_cons]
    by_cases hr : x = r
    · subst hr
      simp [ih hrest, hx]
    · simp [ih hrest, hr, Ne.symm hr]

theorem recipients_nodup (hs : s.Sound) (e : QuoteEvent) : (s.recipients e).Nodup :=
  hs.counted.nodup.filter _

theorem mem_recipients : r ∈ s.recipients e ↔ s.live r ∧ (s.flights r).since e := by
  simp only [State.recipients, State.live, List.mem_filter, List.mem_append, Option.mem_toList,
    decide_eq_true_eq, and_assoc]

theorem remember_suffix (now : ℤ) : s.remember now e <:+ s.recent ++ [e] :=
  (List.dropWhile_suffix _).trans (List.drop_suffix _ _)

/-- The event is passed on: the cursor is at it, and it is due to the recordings it counts for. -/
def State.pass (u s : State) (e : QuoteEvent) (now : ℤ) (rest : List QuoteEvent) : State :=
  { u with
    cursor := e.sequence
    recent := s.remember now e
    phase := .recording ((s.recipients e).map (·, e)) rest }

section Pass

variable {u : State} {now : ℤ} {rest : List QuoteEvent}

/-- The records that a recording has once it got the event. -/
theorem pass_virtual (hs : s.Sound) (hw : Written s u) (r : ℕ) : (u.pass s e now rest).virtual r =
    if s.live r then (u.flights r).taken e (u.flights r).records else (u.flights r).records := by
  have hsince : (u.flights r).since e = (s.flights r).since e := by
    rw [Flight.since, Flight.since, hw.createdAt]
  rw [State.virtual, State.dueOf, State.due, State.pass, filter_pairs (recipients_nodup hs e)]
  simp only [mem_recipients, Flight.taken, hsince]
  by_cases hlive : s.live r <;> by_cases h : (s.flights r).since e <;> simp [hlive, h]

theorem pass_counted (hs : s.Sound) (hw : Written s u) (hstream : u.stream = s.stream)
    (he : e ∈ s.history) (hes : s.stream = some e.stream) {q : ℕ}
    (hrecent : Numbered e.stream q s.recent) (hq : e.sequence = q + s.recent.length + 1) :
    (u.pass s e now rest).Counted := by
  have hc := hs.counted
  have hsuffix : s.remember now e <:+ s.recent ++ [e] := remember_suffix now
  refine ⟨?_, ?_, ?_, ?_, fun σ hσ => ?_, fun hnone => ?_, fun x hx => ?_, hw.nodup hc.nodup,
    fun r hr => ?_⟩
  all_goals simp only [State.pass, hw.history, hw.buffer, hw.created]
  · exact hc.numbered
  · exact hc.distinct
  · exact hc.ring
  · exact hc.ringMem
  · simp only [State.pass, hstream] at hσ
    obtain rfl : e.stream = σ := Option.some.inj (hes.symm.trans hσ)
    have hkept : Numbered e.stream q (s.recent ++ [e]) := numbered_append hrecent rfl hq
    have hlast := numbered_suffix hkept hsuffix
    rw [List.length_append, List.length_singleton, ← Nat.add_assoc, ← hq] at hlast
    exact ⟨(hc.stream _ hes).1, (hc.numbered e he).2.2, hlast⟩
  · simp only [State.pass, hstream, hes] at hnone
    cases hnone
  · simp only [State.pass] at hx
    rcases List.mem_append.mp (hsuffix.subset hx) with hx | hx
    · exact hc.recentMem x hx
    · rwa [List.mem_singleton.mp hx]
  · exact hc.created r (hw.mem hr)

/-- The next event is passed on where no recording misses anything before it. -/
theorem pass_sound (hs : s.Sound) (hw : Written s u)
    (hcounted : (u.pass s e now rest).Counted) (hstream : u.stream = some e.stream)
    (he : e ∈ s.history) (hseq : e.sequence = p + 1)
    (hbehind : ∀ r, s.live r → Behind u.history (some e.stream) p (u.flights r).records)
    (hcovers : ∀ r, s.live r → Covers u.history (u.flights r) p (u.flights r).records)
    (hrest : Numbered e.stream (p + 1) rest) (hmem : ∀ x ∈ rest, x ∈ s.history) :
    (u.pass s e now rest).Sound := by
  have hchain : ∀ r, (u.flights r).records.IsChain (Joined u.history (u.flights r)) :=
    fun r => hw.chain (records_chain hs r)
  have hdistinct : Distinct u.history := by
    rw [hw.history]
    exact hs.counted.distinct
  have heu : e ∈ u.history := by rwa [hw.history]
  have hadvance := fun r hr => advance hdistinct heu hseq (hchain r) (hbehind r hr) (hcovers r hr)
  refine ⟨hcounted, fun r => ?_, fun r hr a ha => ?_, fun d hd => ?_, fun r _ => ?_,
    fun r hr _ => ?_, fun _ => ⟨e.stream, hstream, ?_, ?_⟩⟩
  · rw [pass_virtual hs hw]
    split
    · next hlive => exact (hadvance r hlive).1
    · exact hchain r
  · obtain ⟨hmem', hstream', hle⟩ := hbehind r (hw.live hr) a ha
    refine ⟨hmem', hstream'.trans hstream.symm, ?_⟩
    rw [State.pass, hseq]
    exact hle.trans (Nat.le_succ p)
  · obtain ⟨x, -, rfl⟩ := List.mem_map.mp hd
    exact ⟨heu, hstream.symm, le_rfl⟩
  · rw [State.dueOf, State.due, State.pass, filter_pairs (recipients_nodup hs e)]
    split
    · exact le_rfl
    · exact Nat.zero_le 1
  · have hlive := hw.live (t := u) hr
    rw [pass_virtual hs hw, if_pos hlive]
    rw [State.pass, hseq]
    exact (hadvance r hlive).2.2
  · rw [State.pass, hseq]
    exact hrest
  · rw [State.pass, hw.history]
    exact hmem

end Pass

/-- The next event of the batch. -/
theorem next_sound (hs : s.Sound) {rest : List QuoteEvent} (hphase : s.phase = .events (e :: rest))
    (now : ℤ) (append : Append) : (s.next e rest now append).Sound := by
  have hidle : s.phase ≠ .failed := by rw [hphase]; nofun
  have hdue : s.due = [] := by rw [State.due, hphase]
  have hc := hs.counted
  have hof := hs.rest
  rw [hphase] at hof
  obtain ⟨σ, p, hσ, ⟨rfl, hseq, hrest⟩, hmem, hp⟩ := hof (List.cons_ne_nil e rest)
  have he := hmem e List.mem_cons_self
  have hmem' : ∀ x ∈ rest, x ∈ s.history := fun x hx => hmem x (List.mem_cons_of_mem e hx)
  have hcovers := fun r hr => hs.covers r hr fun h => absurd h hidle
  have hrecent : ∃ q, Numbered e.stream q s.recent ∧ e.sequence = q + s.recent.length + 1 := by
    rcases hp with rfl | ⟨hnil, -⟩
    · obtain ⟨-, -, q, hnumbered, hlength⟩ := hc.stream _ hσ
      exact ⟨q, hnumbered, by omega⟩
    · rw [hnil]
      exact ⟨p, trivial, hseq⟩
  obtain ⟨q, hnumbered, hq⟩ := hrecent
  rw [State.next]
  split
  · exact (written_phase .failed).sound_same hs hdue rfl hidle rfl rfl rfl trivial
  dsimp only
  split
  · have hw := gap_written (s := s) append .failed s.stream s.cursor s.recent
    rw [gapActive_eq] at hw ⊢
    exact hw.sound_same hs hdue rfl hidle rfl rfl rfl trivial
  have hjump : ∀ jump : Prop, [Decidable jump] → Written s (if jump then s.gapActive append else s) ∧
      (if jump then s.gapActive append else s).stream = s.stream := by
    intro jump _
    split
    · refine ⟨gapActive_written append, ?_⟩
      rw [gapActive_eq]
    · exact ⟨written_refl, rfl⟩
  obtain ⟨hw, hstream⟩ := hjump (decide (s.cursor ≠ 0 ∧ e.sequence ≠ s.cursor + 1) = true)
  refine pass_sound hs hw (pass_counted hs hw hstream he hσ hnumbered hq) (hstream.trans hσ) he hseq
    (fun r hr => ?_) (fun r hr => ?_) hrest hmem'
  all_goals rcases hp with rfl | ⟨-, hunexposed⟩
  · rw [← hσ]
    exact hw.behind (hs.behind r hr)
  · exact behind_unexposed fun h => hunexposed r hr (hw.exposed h)
  · have hcovers := hcovers r hr
    rw [virtual_of_due hdue] at hcovers
    exact hw.covers hcovers
  · exact covers_unexposed fun h => hunexposed r hr (hw.exposed h)

/-! ### Storing what is due -/

section Gaps

variable {history : List QuoteEvent} {f : Flight} {l l' : List Entry}

theorem chain_insert (h : (l ++ l').IsChain (Joined history f)) (n : ℕ) :
    (l ++ (List.replicate n Entry.gap ++ l')).IsChain (Joined history f) := by
  cases n with
  | zero => exact h
  | succ n =>
    refine List.isChain_append.mpr ⟨h.left_of_append, chain_gaps h.right_of_append _, ?_⟩
    rintro x - y ⟨⟩
    cases x <;> trivial

theorem head_insert {n : ℕ} {a : QuoteEvent}
    (h : (l ++ (List.replicate n Entry.gap ++ l')).head? = some (.quote a)) :
    (l ++ l').head? = some (.quote a) := by
  cases l with
  | nil => exact head_gaps h
  | cons x rest => exact h

end Gaps

/-- A record that is written is followed by the gaps of the checks. -/
theorem quote_records (f : Flight) (e : QuoteEvent) {append : Append} (gaps : ℕ)
    (h : append ≠ .refused) :
    ∃ n, (f.quote e append gaps).records = List.replicate n .gap ++ .quote e :: f.records := by
  cases append with
  | stored => exact ⟨gaps, rfl⟩
  | torn => exact ⟨0, rfl⟩
  | refused => exact absurd rfl h

theorem quote_setup (f : Flight) (e : QuoteEvent) (append : Append) (gaps : ℕ) :
    (f.quote e append gaps).setup = f.setup ∧ (f.quote e append gaps).final = f.final := by
  cases append <;> exact ⟨rfl, rfl⟩

section Store

variable {due : List (ℕ × QuoteEvent)} {rest : List QuoteEvent} {append : Append} {gaps : ℕ}
  {raised : Bool}

theorem store_final (x : ℕ) : ((s.store r e due rest append gaps raised).flights x).final =
    (s.flights x).final := by
  simp only [State.store, State.setFlight]
  by_cases hx : x = r
  · subst hx
    rw [Function.update_self, (quote_setup _ _ _ _).2]
  · rw [Function.update_of_ne hx]

theorem store_live {x : ℕ} (h : (s.store r e due rest append gaps raised).live x) : s.live x := by
  rw [live_iff, store_final] at h
  exact live_iff.mpr h

theorem store_created (x : ℕ) :
    ((s.store r e due rest append gaps raised).flights x).setup.createdAt =
      (s.flights x).setup.createdAt := by
  simp only [State.store, State.setFlight]
  by_cases hx : x = r
  · subst hx
    rw [Function.update_self, (quote_setup _ _ _ _).1]
  · rw [Function.update_of_ne hx]

theorem store_records_self (h : append ≠ .refused) :
    ∃ n, ((s.store r e due rest append gaps raised).flights r).records =
      List.replicate n .gap ++ .quote e :: (s.flights r).records := by
  simp only [State.store, State.setFlight, Function.update_self]
  exact quote_records _ _ _ h

theorem store_records {x : ℕ} (h : x ≠ r ∨ append = .refused) :
    ((s.store r e due rest append gaps raised).flights x).records = (s.flights x).records := by
  simp only [State.store, State.setFlight]
  by_cases hx : x = r
  · subst hx
    obtain rfl := h.resolve_left (not_not_intro rfl)
    rw [Function.update_self]
    rfl
  · rw [Function.update_of_ne hx]

/-- The events due to a recording, without the first one of all. -/
theorem dueOf_cons (hphase : s.phase = .recording ((r, e) :: due) rest) (x : ℕ) :
    s.dueOf x = (if r = x then [e] else []) ++ (due.filter (·.1 = x)).map (·.2) := by
  rw [State.dueOf, State.due, hphase, List.filter_cons]
  by_cases hx : r = x <;> simp [hx]

theorem store_counted (hs : s.Sound) : (s.store r e due rest append gaps raised).Counted := by
  have hc := hs.counted
  exact ⟨hc.numbered, hc.distinct, hc.ring, hc.ringMem, hc.stream, hc.noStream, hc.recentMem,
    hc.nodup, hc.created⟩

theorem store_behind (hs : s.Sound) (hphase : s.phase = .recording ((r, e) :: due) rest) {x : ℕ}
    (hx : s.live x) : Behind s.history s.stream s.cursor
      ((s.store r e due rest append gaps raised).flights x).records := by
  by_cases h : x ≠ r ∨ append = .refused
  · rw [store_records h]
    exact hs.behind x hx
  obtain ⟨rfl, hne⟩ : x = r ∧ append ≠ .refused := by simpa using h
  obtain ⟨n, hn⟩ := store_records_self (s := s) (r := x) (e := e) hne
  rw [hn]
  intro a ha
  obtain rfl : e = a := by simpa using head_gaps ha
  have hmem : (x, e) ∈ s.due := by
    rw [State.due, hphase]
    exact List.mem_cons_self
  exact hs.dueMem _ hmem

/-- Where all goes well the event is stored, and what else is due stays due. -/
theorem stored_sound (hs : s.Sound) (hphase : s.phase = .recording ((r, e) :: due) rest)
    (hstored : append = .stored) (hraised : raised = false) :
    (s.store r e due rest append gaps raised).Sound := by
  have hdue' : (s.store r e due rest append gaps raised).due = due := by
    simp [State.store, State.due, hstored, hraised]
  have hphase' : (s.store r e due rest append gaps raised).phase = .recording due rest := by
    simp [State.store, hstored, hraised]
  -- the records to come are those of before, with the new gaps among them
  have hvirtual : ∀ x, ∃ l l' n, s.virtual x = l ++ l' ∧
      (s.store r e due rest append gaps raised).virtual x =
        l ++ (List.replicate n .gap ++ l') := by
    intro x
    rw [State.virtual, State.virtual, dueOf_cons hphase x, State.dueOf, hdue']
    by_cases hx : r = x
    · subst hx
      have hne : append ≠ .refused := by
        rw [hstored]
        intro hrefused
        cases hrefused
      have hrecords : ∃ n, ((s.store r e due rest append gaps raised).flights r).records =
        List.replicate n .gap ++ .quote e :: (s.flights r).records := store_records_self hne
      obtain ⟨n, hn⟩ := hrecords
      refine ⟨((due.filter (·.1 = r)).map (·.2)).map Entry.quote |>.reverse,
        .quote e :: (s.flights r).records, n, by simp, ?_⟩
      rw [hn]
    · refine ⟨_, _, 0, ?_, by rw [store_records (.inl (Ne.symm hx))]; rfl⟩
      rw [if_neg hx]
      rfl
  refine ⟨store_counted hs, fun x => ?_, fun x hx => store_behind hs hphase (store_live hx),
    fun d hd => ?_, fun x hx => ?_, fun x hx _ => ?_, ?_⟩
  · obtain ⟨l, l', n, hl, hl'⟩ := hvirtual x
    rw [hl', joined_congr (store_created x)]
    have hchain := hs.chain x
    rw [hl] at hchain
    exact chain_insert hchain n
  · rw [hdue'] at hd
    refine hs.dueMem d ?_
    rw [State.due, hphase]
    exact List.mem_cons_of_mem _ hd
  · have hsingle := hs.single x hx
    rw [dueOf_cons hphase, List.length_append] at hsingle
    rw [State.dueOf, hdue']
    omega
  · obtain ⟨l, l', n, hl, hl'⟩ := hvirtual x
    have hcovers := hs.covers x (store_live hx) fun h => by rw [hphase] at h; cases h
    rw [hl', covers_congr (store_created x)]
    rw [hl] at hcovers
    exact fun a ha => hcovers a (head_insert ha)
  · have hrest := hs.rest
    rw [hphase] at hrest
    rw [hphase']
    exact hrest

theorem virtual_cons (hphase : s.phase = .recording ((r, e) :: due) rest) : s.virtual r =
    (((due.filter (·.1 = r)).map (·.2)).map Entry.quote).reverse ++
      .quote e :: (s.flights r).records := by
  rw [State.virtual, dueOf_cons hphase, if_pos rfl]
  simp

/-- What is still due after an error to a recording other than the active one. -/
theorem due_of_failed (hphase : s.phase = .recording ((r, e) :: due) rest) {x : ℕ}
    (hx : x ≠ r ∨ append = .refused) (hdue : s.dueOf x ≠ []) :
    ∃ d ∈ s.due.drop (if append = .refused then 0 else 1), d.1 = x := by
  obtain ⟨y, hy⟩ := List.exists_mem_of_ne_nil _ hdue
  obtain ⟨d, hd, -⟩ := List.mem_map.mp hy
  obtain ⟨hd, hdx⟩ := List.mem_filter.mp hd
  have hdx : d.1 = x := by simpa using hdx
  refine ⟨d, ?_, hdx⟩
  split
  · exact hd
  · next hne =>
    rw [State.due, hphase] at hd ⊢
    refine (List.mem_cons.mp hd).resolve_left fun heq => ?_
    rw [heq] at hdx
    exact hx.resolve_right hne hdx.symm

/-- After an error nothing is missing in a recording in its post window that has no quote since its
    last gap, or to which nothing else was due. -/
theorem failed_sound (hs : s.Sound) (hphase : s.phase = .recording ((r, e) :: due) rest)
    (hfailed : append ≠ .stored ∨ raised) (hok : s.Attended (.store append gaps raised)) :
    (s.store r e due rest append gaps raised).Sound := by
  have hphase' : (s.store r e due rest append gaps raised).phase = .failed := by
    rw [State.store, if_pos hfailed]
  have hdue' := due_of_phase (.inr hphase')
  refine ⟨store_counted hs, fun x => ?_, fun x hx => store_behind hs hphase (store_live hx),
    ?_, fun x hx => ?_, fun x hx hflight => ?_, ?_⟩
  · rw [virtual_of_due hdue', joined_congr (store_created x)]
    by_cases hsame : x ≠ r ∨ append = .refused
    · rw [store_records hsame]
      exact records_chain hs x
    · obtain ⟨rfl, hne⟩ : x = r ∧ append ≠ .refused := by simpa using hsame
      obtain ⟨n, hn⟩ := store_records_self (s := s) (r := x) (e := e) hne
      have hchain := hs.chain x
      rw [virtual_cons hphase] at hchain
      rw [hn]
      exact chain_gaps hchain.right_of_append n
  · rw [hdue']
    exact nofun
  · rw [State.dueOf, hdue']
    exact Nat.zero_le 1
  · have hother : s.flight ≠ some x := hflight hphase'
    have hcovers := hs.covers x (store_live hx) fun h => by rw [hphase] at h; cases h
    rw [virtual_of_due hdue', covers_congr (store_created x)]
    by_cases hsame : x ≠ r ∨ append = .refused
    · rw [store_records hsame]
      by_cases hnone : s.dueOf x = []
      · rwa [State.virtual, hnone] at hcovers
      · obtain ⟨d, hd, rfl⟩ := due_of_failed hphase hsame hnone
        exact covers_unexposed ((hok hfailed d hd (store_live hx)).resolve_left hother)
    · obtain ⟨rfl, hne⟩ : x = r ∧ append ≠ .refused := by simpa using hsame
      obtain ⟨n, hn⟩ := store_records_self (s := s) (r := x) (e := e) hne
      -- the event was the only one due to it
      have hsingle := hs.single x hother
      rw [dueOf_cons hphase, if_pos rfl, List.length_append, List.length_singleton] at hsingle
      have hlength : ((due.filter (·.1 = x)).map (·.2)).length = 0 := by omega
      rw [virtual_cons hphase, List.length_eq_zero_iff.mp hlength] at hcovers
      rw [hn]
      exact fun a ha => hcovers a (head_gaps ha)
  · rw [hphase']
    trivial

theorem store_sound (hs : s.Sound) (hphase : s.phase = .recording ((r, e) :: due) rest)
    (hok : s.Attended (.store append gaps raised)) :
    (s.store r e due rest append gaps raised).Sound := by
  by_cases hfailed : append ≠ .stored ∨ raised
  · exact failed_sound hs hphase hfailed hok
  · rw [not_or, not_not] at hfailed
    exact stored_sound hs hphase hfailed.1 (by simpa using hfailed.2)

end Store

/-! ### A new setup -/

/-- Which recordings are written to may change, if none of them is new. -/
theorem regroup_sound (hs : s.Sound) (hphase : s.phase = .idle) {posts : List ℕ}
    (hnodup : posts.Nodup) (hposts : ∀ r ∈ posts, r ∈ s.flight.toList ++ s.posts) :
    State.Sound { s with flight := none, posts } := by
  have hc := hs.counted
  have hdue := due_of_phase (.inl hphase)
  have hlive : ∀ r, State.live { s with flight := none, posts } r → s.live r := by
    intro r hr
    obtain ⟨hrole, hfinal⟩ := live_iff.mp hr
    refine live_iff.mpr ⟨?_, hfinal⟩
    have hmem := hposts r (hrole.resolve_left nofun)
    simpa using hmem
  refine ⟨⟨hc.numbered, hc.distinct, hc.ring, hc.ringMem, hc.stream, hc.noStream, hc.recentMem,
    hnodup, fun r hr => hc.created r (hposts r hr)⟩, hs.chain, fun r hr => hs.behind r (hlive r hr),
    hs.dueMem, fun r _ => ?_, fun r hr _ => hs.covers r (hlive r hr) fun h => ?_, ?_⟩
  · have hdue' : State.due { s with flight := none, posts } = [] := hdue
    rw [State.dueOf, hdue']
    exact Nat.zero_le 1
  · rw [hphase] at h
    cases h
  · simp only [hphase]
    trivial

/-- The active recording makes way: it is closed, or enters its post window, where the oldest may
    be closed. -/
theorem makeWay_written (hs : s.Sound) (stop : Stop) : ∃ posts : List ℕ, posts.Nodup ∧
    (∀ r ∈ posts, r ∈ s.flight.toList ++ s.posts) ∧
    Written { s with flight := none, posts } { s.makeWay stop with flight := none } ∧
    s.makeWay stop = { s with posts, flights := (s.makeWay stop).flights } := by
  have hnodup := hs.counted.nodup
  have hposts : s.posts.Nodup := (List.nodup_append.mp hnodup).2.1
  have hmem : ∀ r ∈ s.posts, r ∈ s.flight.toList ++ s.posts :=
    fun r hr => List.mem_append_right _ hr
  rw [State.makeWay]
  cases hactive : s.active with
  | none => exact ⟨s.posts, hposts, hmem, written_refl, rfl⟩
  | some r =>
    have hflight : s.flight = some r := by
      rw [State.active] at hactive
      exact (Option.filter_eq_some_iff.mp hactive).1
    have hwindow : (s.posts ++ [r]).Nodup := by
      rw [hflight] at hnodup
      exact List.nodup_append_comm.mp hnodup
    have hwindow' : ∀ x ∈ s.posts ++ [r], x ∈ s.flight.toList ++ s.posts := by
      intro x hx
      rw [hflight]
      exact List.mem_append.mpr ((List.mem_append.mp hx).symm)
    dsimp only
    split
    · cases hsplit : s.posts ++ [r] with
      | nil => exact ⟨s.posts, hposts, hmem, written_refl, rfl⟩
      | cons oldest posts =>
        rw [hsplit] at hwindow hwindow'
        dsimp only
        split
        · refine ⟨posts, (List.nodup_cons.mp hwindow).2,
            fun x hx => hwindow' x (List.mem_cons_of_mem _ hx), ?_, rfl⟩
          exact close_written (s := { s with flight := none, posts }) oldest stop
        · exact ⟨oldest :: posts, hwindow, hwindow', written_refl, rfl⟩
    · exact ⟨s.posts, hposts, hmem, close_written (s := { s with flight := none }) r stop, rfl⟩

/-- What the recorder remembers ends at the cursor. -/
theorem recent_numbered (hs : s.Sound) : ∃ σ p, Numbered σ p s.recent ∧
    p + s.recent.length = s.cursor ∧ ∀ e ∈ s.recent, some e.stream = s.stream := by
  cases hstream : s.stream with
  | none =>
    rw [hs.counted.noStream hstream]
    exact ⟨0, s.cursor, trivial, rfl, nofun⟩
  | some σ =>
    obtain ⟨-, -, p, hnumbered, hlength⟩ := hs.counted.stream σ hstream
    exact ⟨σ, p, hnumbered, hlength, fun e he => congrArg some (numbered_lt hnumbered he).1⟩

section Begin

variable (setup : Setup)

theorem begin_fresh : ∃ n, (s.begin setup).flights s.created =
    ⟨setup, false, List.replicate n .gap⟩ := by
  simp only [State.begin, Function.update_self]
  split
  · exact ⟨0, rfl⟩
  · exact ⟨1, rfl⟩

theorem begin_old (hr : r ≠ s.created) : (s.begin setup).flights r = s.flights r := by
  simp only [State.begin]
  exact Function.update_of_ne hr _ _

theorem begin_dueOf (r : ℕ) : (s.begin setup).dueOf r =
    if r = s.created then s.recent.filter (((s.begin setup).flights s.created).since ·)
    else [] := by
  simp only [State.dueOf, State.due, State.begin, Function.update_self, List.filter_map,
    List.map_map]
  by_cases hr : r = s.created
  · subst hr
    simp [Function.comp_def]
  · simp [Function.comp_def, hr, Ne.symm hr]

theorem begin_live (hr : (s.begin setup).live r) (hne : r ≠ s.created) : s.live r := by
  rw [live_iff, begin_old setup hne] at hr
  obtain ⟨hrole, hfinal⟩ := hr
  refine live_iff.mpr ⟨.inr (hrole.resolve_left fun h => ?_), hfinal⟩
  exact hne (Option.some.inj h).symm

/-- The recording of a new setup starts with the events that the recorder remembers. -/
theorem begin_sound (hs : s.Sound) (hphase : s.phase = .idle) : (s.begin setup).Sound := by
  have hc := hs.counted
  have hdue := due_of_phase (.inl hphase)
  obtain ⟨σ, p, hnumbered, hlength, hstream⟩ := recent_numbered hs
  obtain ⟨n, hfresh⟩ := begin_fresh (s := s) setup
  have hgap : ∀ a, (List.replicate n Entry.gap).head? ≠ some (.quote a) := by
    intro a ha
    rw [← List.append_nil (List.replicate n _)] at ha
    cases head_gaps ha
  have hchain : (List.replicate n Entry.gap).IsChain
      (Joined s.history ((s.begin setup).flights s.created)) := by
    rw [← List.append_nil (List.replicate n _)]
    exact chain_gaps List.isChain_nil n
  obtain ⟨hnew, -, hcovers⟩ := replay (f := (s.begin setup).flights s.created) hc.distinct hnumbered
    hc.recentMem hchain (behind_of_gap hgap) (covers_of_gap hgap)
  have hvirtual : (s.begin setup).virtual s.created = ((s.recent.filter
      (((s.begin setup).flights s.created).since ·)).map Entry.quote).reverse ++
        List.replicate n .gap := by
    rw [State.virtual, begin_dueOf, if_pos rfl, hfresh]
  have hold : ∀ r, r ≠ s.created → (s.begin setup).virtual r = s.virtual r := by
    intro r hr
    rw [State.virtual, begin_dueOf, if_neg hr, begin_old setup hr, virtual_of_due hdue]
    rfl
  refine ⟨⟨hc.numbered, hc.distinct, hc.ring, hc.ringMem, hc.stream, hc.noStream, hc.recentMem, ?_,
    fun r hr => ?_⟩, fun r => ?_, fun r hr => ?_, fun d hd => ?_, fun r hr => ?_, fun r hr _ => ?_,
    fun hpending => absurd rfl hpending⟩
  · refine List.nodup_cons.mpr ⟨fun hmem => ?_, (List.nodup_append.mp hc.nodup).2.1⟩
    exact lt_irrefl _ (hc.created s.created (List.mem_append_right _ hmem))
  · rcases List.mem_cons.mp hr with rfl | hr
    · exact Nat.lt_succ_self _
    · exact (hc.created r (List.mem_append_right _ hr)).trans (Nat.lt_succ_self _)
  · by_cases hr : r = s.created
    · rw [hr, hvirtual]
      exact hnew
    · rw [hold r hr, begin_old setup hr]
      exact hs.chain r
  · by_cases hne : r = s.created
    · rw [hne, hfresh]
      exact behind_of_gap hgap
    · rw [begin_old setup hne]
      exact hs.behind r (begin_live setup hr hne)
  · obtain ⟨x, hx, rfl⟩ := List.mem_map.mp hd
    have hmem := List.mem_of_mem_filter hx
    refine ⟨hc.recentMem x hmem, hstream x hmem, ?_⟩
    exact (numbered_lt hnumbered hmem).2.2.trans hlength.le
  · have hne : r ≠ s.created := fun h => hr (congrArg some h.symm)
    rw [begin_dueOf, if_neg hne]
    exact Nat.zero_le 1
  · by_cases hne : r = s.created
    · rw [hne, hvirtual]
      rw [hlength] at hcovers
      exact hcovers
    · rw [hold r hne, begin_old setup hne]
      exact hs.covers r (begin_live setup hr hne) fun h => by rw [hphase] at h; cases h

end Begin

/-- A new setup is taken up, or an error leaves the recording of the old one closed or in place. -/
theorem takeUp_sound (hs : s.Sound) (hphase : s.phase = .idle) {setup : Setup} {stop : Option Stop}
    (hok : s.Attended (.takeUp setup stop)) (h : s.takeUp setup stop = some t) : t.Sound := by
  have hdue := due_of_phase (.inl hphase)
  have hidle : s.phase ≠ .failed := by rw [hphase]; nofun
  simp only [State.takeUp, Option.ite_none_right_eq_some] at h
  obtain ⟨-, h⟩ := h
  cases stop with
  | none =>
    cases h
    obtain ⟨posts, hnodup, hmem, hw, hway⟩ := makeWay_written hs ⟨true, true⟩
    have hsound := regroup_sound hs hphase hnodup hmem
    have hclosed : State.Sound { s.makeWay ⟨true, true⟩ with flight := none } := by
      rw [hway] at hw ⊢
      refine hw.sound_same hsound hdue hdue hidle rfl rfl rfl ?_
      simp only [hphase]
      trivial
    have hbegin : (s.makeWay ⟨true, true⟩).begin setup =
        State.begin { s.makeWay ⟨true, true⟩ with flight := none } setup := rfl
    rw [hbegin]
    refine begin_sound setup hclosed ?_
    rw [hway]
    exact hphase
  | some stop =>
    cases h
    rw [State.makeWay]
    split
    · exact (written_phase .failed).sound_same hs hdue rfl hidle rfl rfl rfl trivial
    · next r hactive =>
      split
      · next hterminal => exact nomatch hok r hactive hterminal
      · have hw := close_written (s := s) r stop
        have hw' : Written s { s.close r stop with phase := .failed } :=
          hw.trans (written_phase .failed)
        exact hw'.sound_same hs hdue rfl hidle rfl rfl rfl trivial

/-- The end of a recording's post window. -/
theorem finish_sound (hs : s.Sound) (hphase : s.phase = .idle) {ended raised : Bool}
    (h : s.finish r ended raised = some t) : t.Sound := by
  have hdue := due_of_phase (.inl hphase)
  have hidle : s.phase ≠ .failed := by rw [hphase]; nofun
  have hw := final_written (s := s) r ended
  simp only [State.finish] at h
  split at h
  · cases h
    have hw' := hw.trans (written_phase .failed)
    exact hw'.sound_same hs hdue rfl hidle rfl rfl rfl trivial
  · rw [Option.ite_none_right_eq_some] at h
    obtain ⟨-, h⟩ := h
    cases h
    refine Written.sound_same ⟨hw.buffer, hw.history, hw.flight, List.erase_sublist, hw.created,
      hw.records, hw.createdAt, hw.final⟩ hs hdue hdue hidle rfl rfl rfl ?_
    simp only [State.setFlight, hphase]
    trivial

/-! ### Runs -/

theorem step_sound (hs : s.Sound) {event : Event} (hok : s.Attended event)
    (h : s.step event = some t) : t.Sound := by
  cases event with
  | observe o =>
    cases h
    exact observe_sound hs o
  | restart =>
    cases h
    exact restart_sound hs
  | reboot =>
    cases h
    exact reboot_sound hs
  | update r updatedAt terminal gaps raised =>
    simp only [State.step, Option.ite_none_right_eq_some] at h
    obtain ⟨⟨hphase, -⟩, h⟩ := h
    cases h
    have hdue := due_of_phase (.inl hphase)
    refine update_written.sound_same hs hdue ?_ (by rw [hphase]; nofun) rfl rfl rfl ?_
    all_goals cases raised <;> simp only [State.update, State.due, hphase] <;> trivial
  | takeUp setup stop =>
    simp only [State.step, Option.ite_none_right_eq_some] at h
    exact takeUp_sound hs h.1 hok h.2
  | poll append =>
    simp only [State.step, Option.ite_none_right_eq_some] at h
    obtain ⟨hphase, h⟩ := h
    cases h
    exact poll_sound hs hphase hok
  | next now append =>
    simp only [State.step] at h
    split at h
    · next e rest hphase =>
      cases h
      exact next_sound hs hphase now append
    · next hphase =>
      cases h
      have hdue : s.due = [] := by rw [State.due, hphase]
      exact (written_phase .idle).sound_same hs hdue rfl (by rw [hphase]; nofun) rfl rfl rfl
        trivial
    · cases h
  | store append gaps raised =>
    simp only [State.step] at h
    split at h
    · next hphase =>
      cases h
      exact store_sound hs hphase hok
    · next rest hphase =>
      cases h
      have hdue : s.due = [] := by rw [State.due, hphase]
      have hrest := hs.rest
      rw [hphase] at hrest
      refine (written_phase (.events rest)).sound_same hs hdue rfl (by rw [hphase]; nofun) rfl rfl
        rfl fun hne => ?_
      obtain ⟨σ, hσ, hnumbered, hmem⟩ := hrest hne
      exact ⟨σ, s.cursor, hσ, hnumbered, hmem, .inl rfl⟩
    · cases h
  | quiet append =>
    simp only [State.step, Option.ite_none_right_eq_some] at h
    obtain ⟨hphase, h⟩ := h
    cases h
    have hdue := due_of_phase (.inl hphase)
    have hw := gap_written (s := s) append (if s.activeRaises append then .failed else .idle)
      s.stream s.cursor s.recent
    rw [gapActive_eq] at hw ⊢
    refine hw.sound_same hs hdue ?_ (by rw [hphase]; nofun) rfl rfl rfl ?_
    all_goals cases s.activeRaises append <;> trivial
  | finish r now ended raised =>
    simp only [State.step, Option.ite_none_right_eq_some] at h
    obtain ⟨⟨hphase, -⟩, h⟩ := h
    exact finish_sound hs hphase h
  | fail =>
    simp only [State.step, Option.ite_none_right_eq_some] at h
    obtain ⟨hphase, h⟩ := h
    cases h
    have hdue := due_of_phase (.inl hphase)
    exact (written_phase .failed).sound_same hs hdue rfl (by rw [hphase]; nofun) rfl rfl rfl trivial
  | handle append =>
    simp only [State.step, Option.ite_none_right_eq_some] at h
    obtain ⟨hphase, h⟩ := h
    cases h
    exact handle_sound hs hphase hok

/-- A producer and a recorder that have just started. -/
def State.start (symbol : String) (capacity : ℕ) : State :=
  { buffer := ⟨symbol, capacity, 0, 0, []⟩ }

theorem start_state_sound (symbol : String) (capacity : ℕ) :
    (State.start symbol capacity).Sound where
  counted := ⟨nofun, nofun, ⟨0, trivial, rfl⟩, nofun, nofun, fun _ => rfl, nofun, List.nodup_nil,
    nofun⟩
  chain _ := List.isChain_nil
  behind _ _ := nofun
  dueMem := nofun
  single _ _ := Nat.zero_le 1
  covers _ _ _ := nofun
  rest := trivial

/-- In a run of attended steps every two consecutive quotes of a recording are adjacent. -/
theorem unbroken_of_run (symbol : String) (capacity : ℕ) {events : List Event}
    (hattended : Transition.Guarded State.step State.Attended (.start symbol capacity) events) :
    Transition.Throughout State.step State.Unbroken (.start symbol capacity) events :=
  Transition.throughout_of_guarded (fun _ hs => records_chain hs)
    (fun _ _ _ hs hok h => step_sound hs hok h) (start_state_sound symbol capacity) hattended

/-- A setup that ends and goes into its post window while another one is active. -/
def handOver : List Event :=
  [.poll .stored, .takeUp ⟨1, 0, 0, false⟩ none, .store .stored 0 false, .next 0 .stored,
    .update 0 0 true 0 false, .takeUp ⟨2, 0, 0, false⟩ none, .store .stored 0 false,
    .next 0 .stored, .observe ⟨some "XAUUSD", 10⟩, .poll .stored, .next 10 .stored, .store .stored 0 false,
    .store .stored 0 false, .store .stored 0 false, .next 10 .stored]

/-- A test of the condition: nothing fails, and no stream starts in a post window. -/
def State.calm (s : State) : Event → Bool
  | .poll _ =>
    s.posts = [] ∨ s.stream = some s.buffer.streamId ∧ (s.buffer.read s.cursor).gap = false
  | .takeUp _ stop => stop = none
  | .store append _ raised => append = .stored ∧ raised = false
  | .handle _ => false
  | _ => true

theorem attended_of_calm (s : State) (event : Event) (h : s.calm event = true) :
    s.Attended event := by
  cases event with
  | poll append =>
    rcases of_decide_eq_true h with hposts | ⟨hstream, hgap⟩
    · intro _ r hr
      rw [hposts] at hr
      cases hr
    · rintro (hne | htrue)
      · exact absurd hstream hne
      · rw [hgap] at htrue
        cases htrue
  | takeUp setup stop => exact fun _ _ _ => of_decide_eq_true h
  | store append gaps raised =>
    obtain ⟨hstored, hraised⟩ := of_decide_eq_true h
    rintro (hne | htrue)
    · exact absurd hstored hne
    · rw [hraised] at htrue
      cases htrue
  | handle append => cases h
  | _ => trivial

theorem unbroken_of_run_handOver :
    Transition.Throughout State.step State.Unbroken (.start "XAUUSD" 8192) handOver :=
  unbroken_of_run "XAUUSD" 8192 (Transition.guarded_of_checkRun attended_of_calm (by decide +kernel))

/-- A producer restarts in the post window of a setup: its recording has the quote of before next to
    the one of after, and neither the quote between them nor a gap. -/
theorem restart_unnoticed : ∃ s, Transition.run State.step (.start "XAUUSD" 8192) (handOver ++
    [.observe ⟨some "XAUUSD", 20⟩, .restart, .observe ⟨some "XAUUSD", 30⟩, .poll .stored,
      .poll .stored, .next 30 .stored, .store .stored 0 false, .store .stored 0 false]) = some s ∧
    ⟨0, 2, 20⟩ ∈ s.history ∧ ¬ s.Unbroken := by
  have hrun : (Transition.run State.step (.start "XAUUSD" 8192) (handOver ++
      [.observe ⟨some "XAUUSD", 20⟩, .restart, .observe ⟨some "XAUUSD", 30⟩, .poll .stored,
        .poll .stored, .next 30 .stored, .store .stored 0 false, .store .stored 0 false])).map
      (fun s => ((s.flights 0).records, decide (⟨0, 2, 20⟩ ∈ s.history))) =
      some ([.quote ⟨1, 1, 30⟩, .quote ⟨0, 1, 10⟩, .gap], true) := by
    decide +kernel
  obtain ⟨s, hs, hmap⟩ := Option.map_eq_some_iff.mp hrun
  rw [Prod.mk.injEq] at hmap
  refine ⟨s, hs, of_decide_eq_true hmap.2, fun hunbroken => ?_⟩
  have hchain := hunbroken 0
  rw [hmap.1, List.isChain_cons] at hchain
  cases (hchain.1 _ rfl).stream

end ScalpingBot.FlightRecorder
