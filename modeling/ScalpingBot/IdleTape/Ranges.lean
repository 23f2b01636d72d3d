import ScalpingBot.IdleTape.Accounting
import ScalpingBot.Library.Increasing

/-! What the counters and the segments of the recorder say whenever its queue is drained. -/

namespace ScalpingBot.IdleTape

variable {platform : Platform} {symbol : String}

/-! ### Runs -/

theorem invariant_new : Invariant [] .new where
  books :=
    { counts := ⟨rfl, rfl⟩
      ids := List.Perm.refl _
      order := List.Pairwise.nil
      numbered := fun n hn => absurd hn List.not_mem_nil
      kept := rfl
      persisted := rfl
      described := fun segment hsegment => absurd hsegment List.not_mem_nil }
  ready running hrunning := by cases hrunning

variable (platform symbol) in
/-- The books of a run: an event has been counted twice exactly if the seal of a full buffer failed. -/
theorem invariant_run {twice : List ℕ} {r : Recorder} (h : Invariant twice r) (events : List Event) :
    ∃ counted, Invariant counted (events.foldl (next platform symbol) r) ∧
      (counted = [] ↔ twice = [] ∧ ∀ step ∈ Journal.steps (next platform symbol) r events,
        fullSealFails platform step.before step.call = none) := by
  induction events generalizing twice r with
  | nil => exact ⟨twice, h, by simp [Journal.steps]⟩
  | cons event events ih =>
    obtain ⟨counted, hinvariant, hiff⟩ := ih (invariant_next platform symbol event h)
    refine ⟨counted, hinvariant, hiff.trans ?_⟩
    rw [Journal.steps, List.forall_mem_cons, List.append_eq_nil_iff, Option.toList_eq_nil_iff]
    constructor
    · rintro ⟨⟨hfirst, hnil⟩, hrest⟩
      exact ⟨hnil, hfirst, hrest⟩
    · rintro ⟨hnil, hfirst, hrest⟩
      exact ⟨⟨hfirst, hnil⟩, hrest⟩

/-- How many events have been offered. -/
def offeredIn (symbol : String) (events : List Event) : ℕ :=
  events.countP fun
    | .observe event => offered symbol event
    | _ => false

/-- Neither the number of the last event nor what is published changes. -/
def Unmoved (r' r : Recorder) : Prop := r'.sequence = r.sequence ∧ r'.published = r.published

theorem unmoved_resume (r : Recorder) (job : Job) (buffered : Bool) :
    Unmoved (resume platform r job buffered) r := by
  rw [resume.eq_def]
  split <;> exact ⟨rfl, rfl⟩

theorem unmoved_sealBuffer (r : Recorder) (job : Job) : Unmoved (sealBuffer platform r job) r := by
  rw [sealBuffer]
  split
  · exact unmoved_resume r job false
  · exact ⟨rfl, rfl⟩

theorem unmoved_begin (r : Recorder) (job : Job) : Unmoved (begin platform r job) r := by
  cases hrejected : r.rejected with
  | some reason =>
    simp only [begin, hrejected]
    exact ⟨rfl, rfl⟩
  | none =>
    cases job with
    | flush =>
      simp only [begin, hrejected]
      exact unmoved_sealBuffer r .flush
    | observe row =>
      simp only [begin, hrejected]
      split
      · exact ⟨rfl, rfl⟩
      · split
        · exact ⟨rfl, rfl⟩
        · split
          · exact ⟨rfl, rfl⟩
          · split
            · exact ⟨rfl, rfl⟩
            · split
              · exact unmoved_sealBuffer r (.observe row)
              · exact ⟨rfl, rfl⟩

theorem unmoved_prepared (r : Recorder) (job : Job) (buffered : Bool) (listing : Option (ℕ × ℕ))
    (used : Option ℕ) : Unmoved (prepared platform r job buffered listing used) r := by
  rw [prepared]
  split <;> exact ⟨rfl, rfl⟩

theorem unmoved_stored (r : Recorder) (job : Job) (buffered : Bool) (readBack : Option Bool) :
    Unmoved (stored platform r job buffered readBack) r := by
  rw [stored.eq_def]
  split <;> exact ⟨rfl, rfl⟩

theorem unmoved_caught (r : Recorder) (job : Job) (buffered : Bool) (error : Option Reason) :
    Unmoved (caught r job buffered error) r := by
  rw [caught.eq_def]
  split <;> exact ⟨rfl, rfl⟩

/-- What a step publishes. -/
def publishes (r : Recorder) : Event → List Segment
  | .published true =>
    match r.running with
    | some ⟨_, _, .publishing manifest⟩ => [⟨manifest, r.rows⟩]
    | _ => []
  | _ => []

theorem moved_next (r : Recorder) (event : Event) :
    (next platform symbol r event).sequence = r.sequence + offeredIn symbol [event] ∧
      (next platform symbol r event).published = r.published ++ publishes r event := by
  have hunmoved : ∀ r', Unmoved r' r → r'.sequence = r.sequence + 0 ∧ r'.published = r.published ++ [] :=
    fun r' h => ⟨h.1, h.2.trans (List.append_nil _).symm⟩
  cases event with
  | observe event =>
    simp only [next, observe, offeredIn, List.countP_cons, List.countP_nil, publishes, List.append_nil]
    split
    · split <;> exact ⟨rfl, rfl⟩
    · exact ⟨rfl, rfl⟩
  | flush => exact hunmoved _ ⟨rfl, rfl⟩
  | stop => exact hunmoved _ ⟨rfl, rfl⟩
  | start =>
    refine hunmoved _ ?_
    simp only [next]
    split
    · exact unmoved_begin _ _
    · exact ⟨rfl, rfl⟩
  | prepared listing used =>
    refine hunmoved _ ?_
    simp only [next]
    split
    · exact unmoved_prepared r _ _ listing used
    · exact ⟨rfl, rfl⟩
  | stored readBack =>
    refine hunmoved _ ?_
    simp only [next]
    split
    · exact unmoved_stored r _ _ readBack
    · exact ⟨rfl, rfl⟩
  | published renamed =>
    cases renamed with
    | false =>
      refine hunmoved _ ?_
      simp only [next]
      split <;> exact ⟨rfl, rfl⟩
    | true =>
      rcases hrunning : r.running with _ | ⟨job, buffered, phase⟩
      · simp only [next, publishes, hrunning]
        exact hunmoved _ ⟨rfl, rfl⟩
      · cases phase with
        | publishing manifest =>
          simp only [next, publishes, hrunning]
          exact unmoved_resume (publish r manifest) job buffered
        | _ =>
          simp only [next, publishes, hrunning]
          exact hunmoved _ ⟨rfl, rfl⟩
  | settle =>
    refine hunmoved _ ?_
    simp only [next]
    split
    · exact unmoved_caught r _ _ _
    · exact ⟨rfl, rfl⟩
    · exact ⟨rfl, rfl⟩

variable (platform symbol) in
theorem sequence_run (r : Recorder) (events : List Event) :
    (events.foldl (next platform symbol) r).sequence = r.sequence + offeredIn symbol events := by
  induction events generalizing r with
  | nil => rfl
  | cons event events ih =>
    rw [List.foldl_cons, ih, (moved_next r event).1, offeredIn, offeredIn, offeredIn,
      List.countP_cons (l := events), List.countP_cons, List.countP_nil]
    omega

/-! ### Gaps -/

def Segment.sequences (segment : Segment) : List ℕ := segment.rows.map Row.sequence

/-- A step publishes a segment between whose events another one was refused. -/
def publishesGap (r : Recorder) (event : Event) : Prop :=
  ∃ segment ∈ publishes r event, ¬ Increasing.Gapless segment.sequences

variable (platform symbol) in
theorem gapless_run (r : Recorder) (events : List Event) :
    (∀ segment ∈ (events.foldl (next platform symbol) r).published,
        Increasing.Gapless segment.sequences) ↔
      (∀ segment ∈ r.published, Increasing.Gapless segment.sequences) ∧
        ∀ step ∈ Journal.steps (next platform symbol) r events, ¬ publishesGap step.before step.call := by
  induction events generalizing r with
  | nil => simp [Journal.steps]
  | cons event events ih =>
    rw [List.foldl_cons, ih, (moved_next r event).2, List.forall_mem_append, Journal.steps,
      List.forall_mem_cons, and_assoc]
    simp only [publishesGap, not_exists, not_and, not_not]

/-! ### What a drained recorder says -/

def Drained (r : Recorder) : Prop := r.queue = [] ∧ r.running = none

/-- Every event offered is counted once; the manifests account for the updates that are persisted, and
    their segments hold observed events, in ranges that lie one after the other. -/
structure Accounted (symbol : String) (events : List Event) (r : Recorder) : Prop where
  total : r.written + r.dropped = offeredIn symbol events
  once : ∀ n, 1 ≤ n → n ≤ offeredIn symbol events → r.observed.count n + r.refused.count n = 1
  counts : r.written = r.observed.length ∧ r.dropped = r.refused.length
  persisted : r.persisted = (r.published.map fun segment => segment.manifest.updates).sum
  bounded : r.persisted ≤ r.written
  apart : r.published.Pairwise fun a b => a.manifest.lastSequence < b.manifest.firstSequence
  inside : ∀ segment ∈ r.published, segment.manifest.updates = segment.rows.length ∧
    ∀ n ∈ segment.sequences, n ∈ r.observed ∧
      segment.manifest.firstSequence ≤ n ∧ n ≤ segment.manifest.lastSequence

/-- Every event in the range of a segment has been observed. -/
def Unbroken (r : Recorder) : Prop :=
  ∀ segment ∈ r.published, ∀ n, segment.manifest.firstSequence ≤ n →
    n ≤ segment.manifest.lastSequence → n ∈ r.observed

section Segments

variable {twice owed awaited : List ℕ} {r : Recorder}

/-- Where the events of a segment stand among those observed. -/
theorem Books.segment (h : Books twice owed awaited r) {segment : Segment}
    (hsegment : segment ∈ r.published) :
    ∃ before after, r.observed = before ++ segment.sequences ++ after ∧
      segment.sequences.head? = some segment.manifest.firstSequence ∧
      segment.sequences.getLast? = some segment.manifest.lastSequence := by
  obtain ⟨earlier, later, hpublished⟩ := List.append_of_mem hsegment
  obtain ⟨-, ⟨first, hfirst, hfirst'⟩, ⟨last, hlast, hlast'⟩⟩ := h.described segment hsegment
  refine ⟨earlier.flatMap Segment.sequences,
    later.flatMap Segment.sequences ++ r.rows.map Row.sequence, ?_, ?_, ?_⟩
  · rw [h.kept, hpublished, List.flatMap_append, List.flatMap_cons]
    simp only [List.append_assoc]
    rfl
  · rw [Segment.sequences, List.head?_map, hfirst, hfirst']
    rfl
  · rw [Segment.sequences, List.getLast?_map, hlast, hlast']
    rfl

theorem Books.sorted (h : Books twice owed awaited r) : r.observed.Pairwise (· < ·) :=
  (List.pairwise_append.mp h.order).1

theorem Books.apart (h : Books twice owed awaited r) :
    r.published.Pairwise fun a b => a.manifest.lastSequence < b.manifest.firstSequence := by
  have hsorted := h.sorted
  rw [h.kept, List.pairwise_append] at hsorted
  refine (List.pairwise_flatMap.mp hsorted.1).2.imp_of_mem fun {a b} ha hb hab => ?_
  obtain ⟨-, -, -, -, hlast⟩ := h.segment ha
  obtain ⟨-, -, -, hfirst, -⟩ := h.segment hb
  exact hab _ (List.mem_of_getLast? hlast) _ (List.mem_of_head? hfirst)

theorem Books.inside (h : Books twice owed awaited r) {segment : Segment}
    (hsegment : segment ∈ r.published) : ∀ n ∈ segment.sequences, n ∈ r.observed ∧
      segment.manifest.firstSequence ≤ n ∧ n ≤ segment.manifest.lastSequence := by
  obtain ⟨before, after, hobserved, hfirst, hlast⟩ := h.segment hsegment
  have hsorted := h.sorted
  rw [hobserved, List.pairwise_append] at hsorted
  intro n hn
  refine ⟨?_, Increasing.head_le_last (List.pairwise_append.mp hsorted.1).2.1 hfirst hlast n hn⟩
  rw [hobserved]
  exact List.mem_append_left _ (List.mem_append_right _ hn)

/-- A segment covers observed events only exactly when it has no gap. -/
theorem Books.unbroken_iff (h : Books twice owed awaited r) :
    Unbroken r ↔ ∀ segment ∈ r.published, Increasing.Gapless segment.sequences := by
  refine forall₂_congr fun segment hsegment => ?_
  obtain ⟨before, after, hobserved, hfirst, hlast⟩ := h.segment hsegment
  have hsorted := h.sorted
  rw [hobserved] at hsorted ⊢
  have hinner := (List.pairwise_append.mp (List.pairwise_append.mp hsorted).1).2.1
  rw [Increasing.gapless_iff hinner hfirst hlast]
  constructor
  · intro hall n hn hn'
    exact Increasing.mem_of_between hsorted hfirst hlast (hall n hn hn') hn hn'
  · intro hall n hn hn'
    exact List.mem_append_left _ (List.mem_append_right _ (hall n hn hn'))

theorem Books.bounded (h : Books twice owed awaited r) : r.persisted ≤ r.written := by
  rw [h.counts.1, h.kept, h.persisted, List.length_append, List.length_flatMap]
  refine Nat.le_add_right_of_le (Nat.le_of_eq ?_)
  congr 1
  refine List.map_congr_left fun segment hsegment => ?_
  rw [(h.described segment hsegment).updates, List.length_map]

end Segments

/-- The counters of a drained recorder say that each event was counted once exactly when none was
    counted twice. -/
theorem accounted_iff {events : List Event} {twice : List ℕ} {r : Recorder} (h : Invariant twice r)
    (hdrained : Drained r) (hsequence : r.sequence = offeredIn symbol events) :
    Accounted symbol events r ↔ twice = [] := by
  have hbooks := h.books
  have howed : r.owed = [] := by rw [Recorder.owed, Recorder.waiting, hdrained.1, hdrained.2]; rfl
  rw [howed] at hbooks
  have hids := hbooks.ids
  rw [List.append_nil] at hids
  have hlength := hids.length_eq
  rw [List.length_append, List.length_append, List.length_range', ← hbooks.counts.1,
    ← hbooks.counts.2, hsequence] at hlength
  constructor
  · intro haccounted
    rw [← List.length_eq_zero_iff]
    have := haccounted.total
    omega
  · rintro rfl
    rw [List.append_nil, hsequence] at hids
    refine ⟨by simpa using hlength, fun n hn hn' => ?_, hbooks.counts, hbooks.persisted, hbooks.bounded,
      hbooks.apart, fun segment hsegment =>
        ⟨(hbooks.described segment hsegment).updates, hbooks.inside hsegment⟩⟩
    rw [← List.count_append, hids.count_eq]
    rw [List.Nodup.count List.nodup_range', if_pos]
    rw [List.mem_range'_1]
    omega

/-- In every run that leaves the queue drained, each event was counted once and the segments account for
    what is persisted, exactly if the seal of a full buffer never failed; and their ranges hold observed
    events only, exactly if besides no segment was published from which an event had been refused. -/
theorem tape_accounts_iff (platform : Platform) (symbol : String) (events : List Event)
    (hdrained : Drained (run platform symbol events)) :
    (Accounted symbol events (run platform symbol events) ↔
        ∀ step ∈ Journal.steps (next platform symbol) .new events,
          fullSealFails platform step.before step.call = none) ∧
      (Accounted symbol events (run platform symbol events) ∧
          Unbroken (run platform symbol events) ↔
        (∀ step ∈ Journal.steps (next platform symbol) .new events,
            fullSealFails platform step.before step.call = none) ∧
          ∀ step ∈ Journal.steps (next platform symbol) .new events,
            ¬ publishesGap step.before step.call) := by
  obtain ⟨twice, hinvariant, htwice⟩ :=
    invariant_run platform symbol invariant_new events
  rw [eq_self, true_and] at htwice
  have hsequence := sequence_run platform symbol .new events
  rw [Recorder.new, Nat.zero_add, ← Recorder.new] at hsequence
  have haccounted := (accounted_iff hinvariant hdrained hsequence).trans htwice
  have hgap := gapless_run platform symbol .new events
  refine ⟨haccounted, and_congr haccounted (hinvariant.books.unbroken_iff.trans (hgap.trans ?_))⟩
  exact and_iff_right fun segment hsegment => absurd hsegment List.not_mem_nil

/-! ### An event that is counted twice -/

namespace TapeRecorderSample

/-- Rows of the quote below have half a megabyte, so that two of them fill the buffer. -/
def halves : Platform where
  parseDate text := if text = "2026-11-03T00:00:00.000Z" then some 1793664000000 else none
  rowBytes _ := 524288
  compressedBytes _ := 65536

/-- A quote with a bid of so many digits that the text of its row has 524288 bytes. -/
def quote : FlightQuoteObservation :=
  { kind := .quote, symbolName := some "XAUUSD"
    bid := some (String.ofList (List.replicate 523809 '4')), ask := some "4000.2"
    sourceTime := some "2026-11-03T00:00:00.000Z", receivedAt := "2026-11-03T00:00:00.000Z"
    bidUpdated := true, askUpdated := true }

/-- The disk is full when the second row has filled the buffer. -/
def fullDisk : List Event :=
  [.observe quote, .observe quote, .start, .settle, .settle, .start, .prepared (some (3, 1024)) none,
    .settle, .settle]

/-- The same, with room on the disk. -/
def roomyDisk : List Event :=
  [.observe quote, .observe quote, .start, .settle, .settle, .start,
    .prepared (some (3, 8589934592)) (some 0), .stored (some true), .published true, .settle, .settle]

end TapeRecorderSample

open TapeRecorderSample in
/-- Two events were offered, two observed and one of them dropped. -/
theorem full_disk_counts_twice : Drained (run halves "XAUUSD" fullDisk) ∧
    (run halves "XAUUSD" fullDisk).written = 2 ∧ (run halves "XAUUSD" fullDisk).dropped = 1 ∧
    ¬ Accounted "XAUUSD" fullDisk (run halves "XAUUSD" fullDisk) := by
  have hdrained : Drained (run halves "XAUUSD" fullDisk) := ⟨by decide +kernel, by decide +kernel⟩
  refine ⟨hdrained, by decide +kernel, by decide +kernel, fun h => ?_⟩
  have htotal := h.total
  revert htotal
  decide +kernel

open TapeRecorderSample in
theorem tape_accounts_iff_roomyDisk :
    (Accounted "XAUUSD" roomyDisk (run halves "XAUUSD" roomyDisk) ↔
        ∀ step ∈ Journal.steps (next halves "XAUUSD") .new roomyDisk,
          fullSealFails halves step.before step.call = none) ∧
      (Accounted "XAUUSD" roomyDisk (run halves "XAUUSD" roomyDisk) ∧
          Unbroken (run halves "XAUUSD" roomyDisk) ↔
        (∀ step ∈ Journal.steps (next halves "XAUUSD") .new roomyDisk,
            fullSealFails halves step.before step.call = none) ∧
          ∀ step ∈ Journal.steps (next halves "XAUUSD") .new roomyDisk,
            ¬ publishesGap step.before step.call) :=
  tape_accounts_iff halves "XAUUSD" roomyDisk ⟨by decide +kernel, by decide +kernel⟩

end ScalpingBot.IdleTape
