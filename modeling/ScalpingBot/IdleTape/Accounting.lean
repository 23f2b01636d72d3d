import Mathlib.Algebra.BigOperators.Group.List.Basic
import Mathlib.Data.List.Perm.Basic
import Mathlib.Data.List.Pairwise
import ScalpingBot.IdleTape.Recorder

/-! What the counters and the segments of the recorder say over every run: each event offered is counted
    once, except that one whose row fills the buffer is counted twice when the seal of the full buffer
    fails; and segments lie one after the other. -/

namespace ScalpingBot.IdleTape

variable {platform : Platform} {symbol : String}

/-! ### What is still to be counted -/

def Job.sequence? : Job → Option ℕ
  | .observe row => some row.sequence
  | .flush => none

/-- The event of a job that seals the buffer, unless its row is in the buffer already. -/
def Job.uncounted : Job → Bool → List ℕ
  | .observe row, false => [row.sequence]
  | _, _ => []

/-- The event that the job will count, as observed or as dropped. -/
def Running.owed (running : Running) : List ℕ :=
  match running.phase with
  | .preparing | .storing | .publishing _ => running.job.uncounted running.buffered
  | .ended (some _) => running.job.sequence?.toList
  | _ => []

/-- The event that the job may still observe. -/
def Running.awaited (running : Running) : List ℕ :=
  match running.phase with
  | .preparing | .storing | .publishing _ => running.job.uncounted running.buffered
  | _ => []

def Recorder.waiting (r : Recorder) : List ℕ := r.queue.filterMap Job.sequence?

def Recorder.owed (r : Recorder) : List ℕ := (r.running.map Running.owed).getD [] ++ r.waiting

def Recorder.awaited (r : Recorder) : List ℕ := (r.running.map Running.awaited).getD [] ++ r.waiting

/-! ### The invariant -/

/-- A manifest says what rows are in its segment. -/
structure Manifest.Describes (manifest : Manifest) (rows : List Row) : Prop where
  updates : manifest.updates = rows.length
  first : ∃ row, rows.head? = some row ∧ manifest.firstSequence = row.sequence
  last : ∃ row, rows.getLast? = some row ∧ manifest.lastSequence = row.sequence

/-- The books of a recorder that still owes some events and may observe some of them, when some have
    been counted twice. -/
structure Books (twice owed awaited : List ℕ) (r : Recorder) : Prop where
  counts : r.written = r.observed.length ∧ r.dropped = r.refused.length
  ids : (r.observed ++ r.refused ++ owed).Perm (List.range' 1 r.sequence ++ twice)
  order : (r.observed ++ awaited).Pairwise (· < ·)
  numbered : ∀ n ∈ r.observed ++ awaited, n ≤ r.sequence
  kept : r.observed = r.published.flatMap (fun segment => segment.rows.map Row.sequence) ++
    r.rows.map Row.sequence
  persisted : r.persisted = (r.published.map fun segment => segment.manifest.updates).sum
  described : ∀ segment ∈ r.published, segment.manifest.Describes segment.rows

/-- What a job in a seal relies on. -/
def SealReady (rows : List Row) : Phase → Prop
  | .preparing => rows ≠ []
  | .storing => rows ≠ []
  | .publishing manifest => manifest.Describes rows
  | _ => True

structure Invariant (twice : List ℕ) (r : Recorder) : Prop where
  books : Books twice r.owed r.awaited r
  ready : ∀ running, r.running = some running → SealReady r.rows running.phase

/-! ### The books, entry by entry -/

section Entries

variable {twice owed awaited : List ℕ} {r : Recorder}

theorem Books.drop {n : ℕ} (h : Books twice (n :: owed) awaited r) :
    Books twice owed awaited (drop r n) where
  counts := ⟨h.counts.1, by rw [IdleTape.drop, List.length_append, ← h.counts.2]; rfl⟩
  ids := by
    refine List.Perm.trans ?_ h.ids
    simp only [IdleTape.drop, List.append_assoc, List.singleton_append]
    exact List.Perm.refl _
  order := h.order
  numbered := h.numbered
  kept := h.kept
  persisted := h.persisted
  described := h.described

theorem Books.push {row : Row} (h : Books twice (row.sequence :: owed) (row.sequence :: awaited) r) :
    Books twice owed awaited (push platform r row) where
  counts := ⟨by simp [IdleTape.push, h.counts.1], h.counts.2⟩
  ids := by
    refine List.Perm.trans ?_ h.ids
    simp only [IdleTape.push, List.append_assoc, List.singleton_append]
    exact List.Perm.append_left _ (List.perm_middle.symm)
  order := by
    have horder := h.order
    rwa [List.append_cons] at horder
  numbered := by
    have hnumbered := h.numbered
    rwa [List.append_cons] at hnumbered
  kept := by
    simp only [IdleTape.push, List.map_append, List.map_singleton, ← List.append_assoc]
    rw [h.kept]
  persisted := h.persisted
  described := h.described

/-- An event that will not be observed any more. -/
theorem Books.forget {n : ℕ} (h : Books twice owed (n :: awaited) r) : Books twice owed awaited r where
  counts := h.counts
  ids := h.ids
  order := h.order.sublist (List.Sublist.append_left (List.sublist_cons_self _ _) _)
  numbered m hm := by
    refine h.numbered m ?_
    rcases List.mem_append.mp hm with hm | hm
    · exact List.mem_append_left _ hm
    · exact List.mem_append_right _ (List.mem_cons_of_mem _ hm)
  kept := h.kept
  persisted := h.persisted
  described := h.described

/-- An event that will be counted once more. -/
theorem Books.double {n : ℕ} (h : Books twice owed awaited r) :
    Books (n :: twice) (n :: owed) awaited r where
  counts := h.counts
  ids := List.perm_middle.trans ((h.ids.cons n).trans List.perm_middle.symm)
  order := h.order
  numbered := h.numbered
  kept := h.kept
  persisted := h.persisted
  described := h.described

theorem Books.publish {manifest : Manifest} (h : Books twice owed awaited r)
    (hmanifest : manifest.Describes r.rows) : Books twice owed awaited (publish r manifest) where
  counts := h.counts
  ids := h.ids
  order := h.order
  numbered := h.numbered
  kept := by
    simp only [IdleTape.publish, List.flatMap_append, List.flatMap_singleton, List.map_nil,
      List.append_nil]
    exact h.kept
  persisted := by
    simp only [IdleTape.publish, List.map_append, List.map_singleton, List.sum_append,
      List.sum_singleton, hmanifest.updates, h.persisted]
  described segment hsegment := by
    rcases List.mem_append.mp hsegment with hsegment | hsegment
    · exact h.described segment hsegment
    · rw [List.mem_singleton.mp hsegment]
      exact hmanifest

/-- The next event is offered. -/
theorem Books.offer (h : Books twice owed awaited r) :
    Books twice (owed ++ [r.sequence + 1]) (awaited ++ [r.sequence + 1])
      { r with sequence := r.sequence + 1 } where
  counts := h.counts
  ids := by
    rw [List.range'_1_concat, Nat.add_comm 1, ← List.append_assoc]
    refine (h.ids.append_right _).trans ?_
    rw [List.append_assoc, List.append_assoc]
    exact List.Perm.append_left _ List.perm_append_comm
  order := by
    rw [← List.append_assoc, List.pairwise_append]
    refine ⟨h.order, List.pairwise_singleton _ _, fun n hn m hm => ?_⟩
    rw [List.mem_singleton.mp hm]
    exact Nat.lt_succ_of_le (h.numbered n hn)
  numbered n hn := by
    rw [← List.append_assoc, List.mem_append, List.mem_singleton] at hn
    rcases hn with hn | rfl
    · exact Nat.le_succ_of_le (h.numbered n hn)
    · exact Nat.le_refl _
  kept := h.kept
  persisted := h.persisted
  described := h.described

/-- An event is offered and refused at once. -/
theorem Books.refuse (h : Books twice owed awaited r) :
    Books twice owed awaited
      (IdleTape.drop { r with sequence := r.sequence + 1 } (r.sequence + 1)) := by
  refine Books.drop (r := { r with sequence := r.sequence + 1 }) ?_
  have hoffer := h.offer
  refine ⟨h.counts, ?_, ?_, ?_, h.kept, h.persisted, h.described⟩
  · exact (List.Perm.append_left _ (List.perm_append_singleton _ _).symm).trans hoffer.ids
  · exact h.order
  · exact fun n hn => Nat.le_succ_of_le (h.numbered n hn)

/-- What the books are about. -/
def Recorder.entries (r : Recorder) : ℕ × ℕ × ℕ × ℕ × List ℕ × List ℕ × List Row × List Segment :=
  (r.written, r.dropped, r.sequence, r.persisted, r.observed, r.refused, r.rows, r.published)

theorem Books.of_entries {r' : Recorder} (h : Books twice owed awaited r) (heq : r'.entries = r.entries) :
    Books twice owed awaited r' := by
  simp only [Recorder.entries, Prod.mk.injEq] at heq
  obtain ⟨hwritten, hdropped, hsequence, hpersisted, hobserved, hrefused, hrows, hpublished⟩ := heq
  constructor
  · rw [hwritten, hdropped, hobserved, hrefused]
    exact h.counts
  · rw [hobserved, hrefused, hsequence]
    exact h.ids
  · rw [hobserved]
    exact h.order
  · rw [hobserved, hsequence]
    exact h.numbered
  · rw [hobserved, hpublished, hrows]
    exact h.kept
  · rw [hpersisted, hpublished]
    exact h.persisted
  · rw [hpublished]
    exact h.described

end Entries

/-! ### The invariant, step by step -/

section Steps

variable {twice : List ℕ} {r : Recorder} {job : Job} {buffered : Bool}

/-- A job that ends well owes nothing. -/
theorem invariant_finish (h : Books twice r.waiting r.waiting r) :
    Invariant twice (finish r job buffered none) := by
  refine ⟨h.of_entries rfl, fun running hrunning => ?_⟩
  cases hrunning
  trivial

/-- A job that ends with an error will count its event as dropped. -/
theorem invariant_finish_error {reason : Reason}
    (h : Books twice (job.sequence?.toList ++ r.waiting) r.waiting r) :
    Invariant twice (finish r job buffered (some reason)) := by
  refine ⟨h.of_entries rfl, fun running hrunning => ?_⟩
  cases hrunning
  trivial

theorem invariant_push {row : Row}
    (h : Books twice (row.sequence :: r.waiting) (row.sequence :: r.waiting) r) :
    Invariant twice (push platform r row) := by
  have hbooks : Books twice r.waiting r.waiting (push platform r row) := h.push
  have howed : (push platform r row).owed = r.waiting ∧ (push platform r row).awaited = r.waiting := by
    by_cases hfull : r.bytes + platform.rowBytes row + 1 ≥ segmentBytes <;>
      simp [Recorder.owed, Recorder.awaited, push, Running.owed, Running.awaited, Recorder.waiting,
        Job.uncounted, hfull]
  refine ⟨by rw [howed.1, howed.2]; exact hbooks, fun running hrunning => ?_⟩
  rw [push, Option.some.injEq] at hrunning
  subst hrunning
  simp only
  split
  · exact List.append_ne_nil_of_right_ne_nil _ (List.cons_ne_nil _ _)
  · trivial

theorem invariant_resume
    (h : Books twice (job.uncounted buffered ++ r.waiting) (job.uncounted buffered ++ r.waiting) r) :
    Invariant twice (resume platform r job buffered) := by
  cases job with
  | flush => exact invariant_finish h
  | observe row =>
    cases buffered with
    | true => exact invariant_finish h
    | false => exact invariant_push h

theorem invariant_sealBuffer
    (h : Books twice (job.uncounted false ++ r.waiting) (job.uncounted false ++ r.waiting) r) :
    Invariant twice (sealBuffer platform r job) := by
  rw [sealBuffer]
  split
  · exact invariant_resume h
  · rename_i hrows
    refine ⟨h.of_entries rfl, fun running hrunning => ?_⟩
    cases hrunning
    exact fun hnil => hrows (congrArg List.length hnil)

theorem uncounted_eq (job : Job) : job.uncounted false = job.sequence?.toList := by
  cases job <;> rfl

/-- The event of a job is not awaited any more. -/
theorem Books.forget_job {owed awaited : List ℕ}
    (h : Books twice owed (job.sequence?.toList ++ awaited) r) : Books twice owed awaited r := by
  cases job with
  | flush => exact h
  | observe row => exact h.forget

theorem invariant_begin
    (h : Books twice (job.sequence?.toList ++ r.waiting) (job.sequence?.toList ++ r.waiting) r) :
    Invariant twice (begin platform r job) := by
  have hseal : Books twice (job.uncounted false ++ r.waiting) (job.uncounted false ++ r.waiting) r := by
    rw [uncounted_eq]
    exact h
  cases hrejected : r.rejected with
  | some reason =>
    simp only [begin, hrejected]
    exact invariant_finish_error h.forget_job
  | none =>
    cases job with
    | flush =>
      simp only [begin, hrejected]
      exact invariant_sealBuffer hseal
    | observe row =>
      simp only [begin, hrejected]
      split
      · exact invariant_finish h.forget_job.drop
      · split
        · exact invariant_finish_error h.forget_job
        · split
          · exact invariant_push h
          · split
            · exact invariant_finish_error h.forget_job
            · split
              · exact invariant_sealBuffer hseal
              · exact invariant_push h

end Steps

/-! ### Seals that fail -/

variable (platform) in
/-- What the file system answers makes the seal at work fail. -/
def sealFails (r : Recorder) : Event → Bool
  | .prepared listing used =>
    match r.running with
    | some ⟨_, _, .preparing⟩ => !(room platform r.rows listing used).isOk
    | _ => false
  | .stored readBack =>
    match r.running with
    | some ⟨_, _, .storing⟩ => readBack ≠ some true
    | _ => false
  | .published renamed =>
    match r.running with
    | some ⟨_, _, .publishing _⟩ => !renamed
    | _ => false
  | _ => false

variable (platform) in
/-- The event whose row filled the buffer, in a step in which the seal of the full buffer fails. -/
def fullSealFails (r : Recorder) (event : Event) : Option ℕ :=
  match r.running with
  | some ⟨.observe row, true, _⟩ => if sealFails platform r event then some row.sequence else none
  | _ => none

theorem fullSealFails_of_succeeds {r : Recorder} {event : Event} (h : sealFails platform r event = false) :
    fullSealFails platform r event = none := by
  rw [fullSealFails]
  split
  · rw [h]
    rfl
  · rfl

/-- A seal that fails leaves its event to be dropped; if its row was in the buffer, it was observed. -/
theorem invariant_fail {twice : List ℕ} {r r' : Recorder} {job : Job} {buffered : Bool} {phase : Phase}
    {event : Event} {reason : Reason} (hrunning : r.running = some ⟨job, buffered, phase⟩)
    (hfails : sealFails platform r event = true) (hentries : r'.entries = r.entries)
    (hqueue : r'.queue = r.queue)
    (h : Books twice (job.uncounted buffered ++ r.waiting) (job.uncounted buffered ++ r.waiting) r) :
    Invariant ((fullSealFails platform r event).toList ++ twice)
      (finish r' job buffered (some reason)) := by
  have hwaiting : r'.waiting = r.waiting := by rw [Recorder.waiting, hqueue]; rfl
  have h' := h.of_entries hentries
  rw [fullSealFails, hrunning]
  cases job with
  | flush =>
    refine invariant_finish_error ?_
    rw [hwaiting]
    exact h'
  | observe row =>
    cases buffered with
    | false =>
      refine invariant_finish_error ?_
      rw [hwaiting]
      exact h'.forget
    | true =>
      simp only [hfails, if_true]
      refine invariant_finish_error ?_
      rw [hwaiting]
      exact h'.double

/-- What the books are while a job seals the buffer. -/
theorem Invariant.sealing {twice : List ℕ} {r : Recorder} {job : Job} {buffered : Bool} {phase : Phase}
    (h : Invariant twice r) (hrunning : r.running = some ⟨job, buffered, phase⟩)
    (hphase : phase = .preparing ∨ phase = .storing ∨ ∃ manifest, phase = .publishing manifest) :
    Books twice (job.uncounted buffered ++ r.waiting) (job.uncounted buffered ++ r.waiting) r := by
  have hbooks := h.books
  rw [Recorder.owed, Recorder.awaited, hrunning] at hbooks
  rcases hphase with rfl | rfl | ⟨manifest, rfl⟩ <;> exact hbooks

theorem describes_manifestOf {r : Recorder} (h : r.rows ≠ []) :
    (manifestOf platform r).Describes r.rows := by
  obtain ⟨first, hfirst⟩ := Option.isSome_iff_exists.mp (List.isSome_head?.mpr h)
  obtain ⟨last, hlast⟩ := Option.isSome_iff_exists.mp (List.getLast?_isSome.mpr h)
  exact ⟨rfl, ⟨first, hfirst, by simp [manifestOf, hfirst]⟩, ⟨last, hlast, by simp [manifestOf, hlast]⟩⟩

theorem invariant_observe {twice : List ℕ} {r : Recorder} {event : FlightQuoteObservation}
    (h : Invariant twice r) : Invariant twice (observe symbol r event) := by
  rw [observe]
  split
  · simp only
    split
    · exact ⟨h.books.refuse.of_entries rfl, h.ready⟩
    · refine ⟨?_, h.ready⟩
      have hoffer := h.books.offer
      rw [Recorder.owed, Recorder.awaited, List.append_assoc, List.append_assoc] at hoffer
      simp only [Recorder.owed, Recorder.awaited, Recorder.waiting, List.filterMap_append]
      exact hoffer.of_entries rfl
  · exact h

theorem invariant_flush {twice : List ℕ} {r : Recorder} (h : Invariant twice r) :
    Invariant twice (flush r) := by
  refine ⟨?_, h.ready⟩
  have hwaiting : (flush r).waiting = r.waiting := by
    simp [Recorder.waiting, flush, List.filterMap_append, Job.sequence?]
  rw [Recorder.owed, Recorder.awaited, hwaiting]
  exact h.books.of_entries rfl

theorem invariant_caught {twice : List ℕ} {r : Recorder} {job : Job} {buffered : Bool}
    {error : Option Reason} (h : Invariant twice r) (hrunning : r.running = some ⟨job, buffered, .ended error⟩) :
    Invariant twice (caught r job buffered error) := by
  have hbooks := h.books
  rw [Recorder.owed, Recorder.awaited, hrunning] at hbooks
  cases job with
  | flush =>
    cases error with
    | none => exact ⟨hbooks.of_entries rfl, fun running hrunning => by cases hrunning⟩
    | some reason => exact ⟨hbooks.of_entries rfl, fun running hrunning => by cases hrunning⟩
  | observe row =>
    cases error with
    | none =>
      refine ⟨hbooks.of_entries rfl, fun running hrunning => ?_⟩
      cases hrunning
      trivial
    | some reason =>
      refine ⟨(Books.drop hbooks).of_entries rfl, fun running hrunning => ?_⟩
      cases hrunning
      trivial

variable (platform symbol) in
/-- A step keeps the books, with one more event counted twice when the seal of a full buffer fails. -/
theorem invariant_next {twice : List ℕ} {r : Recorder} (event : Event) (h : Invariant twice r) :
    Invariant ((fullSealFails platform r event).toList ++ twice) (next platform symbol r event) := by
  cases event with
  | observe event =>
    rw [fullSealFails_of_succeeds rfl]
    exact invariant_observe h
  | flush =>
    rw [fullSealFails_of_succeeds rfl]
    exact invariant_flush h
  | stop =>
    rw [fullSealFails_of_succeeds rfl]
    exact invariant_flush (r := { r with stopped := true }) ⟨h.books.of_entries rfl, h.ready⟩
  | start =>
    rw [fullSealFails_of_succeeds rfl]
    simp only [next]
    split
    · rename_i job rest hrunning hqueue
      refine invariant_begin ?_
      have hbooks := h.books
      have hwaiting : r.waiting = job.sequence?.toList ++ rest.filterMap Job.sequence? := by
        rw [Recorder.waiting, hqueue]
        cases job <;> rfl
      rw [Recorder.owed, Recorder.awaited, hrunning, hwaiting] at hbooks
      exact hbooks.of_entries rfl
    · exact h
  | prepared listing used =>
    simp only [next]
    split
    · rename_i job buffered hrunning
      have hbooks := h.sealing hrunning (.inl rfl)
      cases hroom : room platform r.rows listing used with
      | ok u =>
        rw [fullSealFails_of_succeeds (by simp [sealFails, hrunning, hroom, Except.isOk, Except.toBool]),
          prepared, hroom]
        have hrows : r.rows ≠ [] := h.ready _ hrunning
        refine ⟨hbooks.of_entries rfl, fun running hnext => ?_⟩
        cases hnext
        exact hrows
      | error reason =>
        have hfails : sealFails platform r (.prepared listing used) = true := by
          simp [sealFails, hrunning, hroom, Except.isOk, Except.toBool]
        rw [prepared, hroom]
        cases reason <;> exact invariant_fail hrunning hfails rfl rfl hbooks
    · rename_i hrunning
      rw [fullSealFails_of_succeeds]
      · exact h
      · rw [sealFails]
        split
        · rename_i heq
          exact absurd heq (hrunning _ _)
        · rfl
  | stored readBack =>
    simp only [next]
    split
    · rename_i job buffered hrunning
      have hbooks := h.sealing hrunning (.inr (.inl rfl))
      cases readBack with
      | none => exact invariant_fail hrunning (by simp [sealFails, hrunning]) rfl rfl hbooks
      | some same =>
        cases same with
        | false => exact invariant_fail hrunning (by simp [sealFails, hrunning]) rfl rfl hbooks
        | true =>
          rw [fullSealFails_of_succeeds (by simp [sealFails, hrunning])]
          refine ⟨hbooks.of_entries rfl, fun running hnext => ?_⟩
          cases hnext
          exact describes_manifestOf (h.ready _ hrunning)
    · rename_i hrunning
      rw [fullSealFails_of_succeeds]
      · exact h
      · rw [sealFails]
        split
        · rename_i heq
          exact absurd heq (hrunning _ _)
        · rfl
  | published renamed =>
    simp only [next]
    split
    · rename_i job buffered manifest hrunning
      have hbooks := h.sealing hrunning (.inr (.inr ⟨manifest, rfl⟩))
      cases renamed with
      | false => exact invariant_fail hrunning (by simp [sealFails, hrunning]) rfl rfl hbooks
      | true =>
        rw [fullSealFails_of_succeeds (by simp [sealFails, hrunning])]
        exact invariant_resume (hbooks.publish (h.ready _ hrunning))
    · rename_i hrunning
      rw [fullSealFails_of_succeeds]
      · exact h
      · rw [sealFails]
        split
        · rename_i heq
          exact absurd heq (hrunning _ _ _)
        · rfl
  | settle =>
    rw [fullSealFails_of_succeeds rfl]
    simp only [next]
    split
    · rename_i job buffered error hrunning
      exact invariant_caught h hrunning
    · rename_i job buffered hrunning
      have hbooks := h.books
      rw [Recorder.owed, Recorder.awaited, hrunning] at hbooks
      exact ⟨hbooks.of_entries rfl, fun running hnext => by cases hnext⟩
    · exact h

end ScalpingBot.IdleTape
