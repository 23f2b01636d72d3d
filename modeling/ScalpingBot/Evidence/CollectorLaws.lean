import ScalpingBot.Evidence.Collector

/-! What is on disk in every run of collectors: whole lines that the next process can read, and at most
    one torn line after them. -/

namespace ScalpingBot.Evidence

open Json (Text units byteLength)
open HashChain (Link Chain)

variable {P : Platform} {C : Clock P} {header : Registration} {samples : List EvidenceSample}
  {records : List EvidenceRecord}

/-! ### What a collector records -/

/-- Samples in order, whether or not they are before the deadline. -/
structure InOrder (P : Platform) (header : Registration) (samples : List EvidenceSample) : Prop where
  window : isWindow P header = true
  times : (P.parseDate header.startedAt :: samples.map (time P)).Pairwise (· ≤ ·)
  counters : (samples.filterMap EvidenceSample.closedTrades).Pairwise (· ≤ ·)

theorem chronological_iff_inOrder : Chronological P header samples ↔
    InOrder P header samples ∧ ∀ s ∈ samples, time P s < P.parseDate header.deadline := by
  constructor
  · intro h
    exact ⟨⟨h.window, h.times, h.counters⟩, h.deadline⟩
  · rintro ⟨h, hdeadline⟩
    exact ⟨h.window, h.times, hdeadline, h.counters⟩

/-- The records of a collector. -/
structure Collected (P : Platform) (header : Registration) (records : List EvidenceRecord) :
    Prop where
  chain : Chain (digest P) records
  valid : ∀ r ∈ records, validRecord P r = true
  payloads : records.map Link.payload =
    .registration header :: (records.filterMap sampleOf).map .sample
  order : InOrder P header (records.filterMap sampleOf)

theorem Collected.ne_nil (h : Collected P header records) : records ≠ [] := by
  rintro rfl
  cases h.payloads

theorem Collected.head (h : Collected P header records) :
    records.head?.map Link.payload = some (.registration header) := by
  rw [← List.head?_map, h.payloads]
  rfl

theorem sampleOf_eq_some {r : EvidenceRecord} {s : EvidenceSample} :
    sampleOf r = some s ↔ r.payload = .sample s := by
  unfold sampleOf
  cases r.payload <;> simp

/-- The records that a collector may have written are a journal up to the deadline. -/
theorem Collected.journal_iff (h : Collected P header records) : Journal P records ↔
    ∀ s ∈ records.filterMap sampleOf, time P s < P.parseDate header.deadline := by
  constructor
  · intro hjournal
    obtain ⟨header', samples, hpayloads, hchronological⟩ := hjournal.payloads
    rw [h.payloads] at hpayloads
    obtain ⟨hheader, hsamples⟩ := List.cons.inj hpayloads
    cases hheader
    rw [List.map_injective_iff.mpr (fun a b heq => Payload.sample.inj heq) hsamples]
    exact hchronological.deadline
  · intro hdeadline
    exact ⟨h.chain, h.valid, header, _, h.payloads,
      chronological_iff_inOrder.mpr ⟨h.order, hdeadline⟩⟩

/-- The registration of a new journal. -/
theorem registration_ok {version startedAt : Text} {hours : ℤ}
    (h : registration P C version hours startedAt = .ok header) : isWindow P header = true := by
  unfold registration at h
  split at h
  · next hhours =>
    rw [decodeRegistration_encode] at h
    split at h
    · next header' hsome =>
      cases h
      split at hsome
      · next hvalid =>
        cases hsome
        rw [validRegistration, Bool.and_eq_true] at hvalid
        simp only [isWindow, C.parse_iso _ hvalid.2, decide_eq_true_eq]
        omega
      · cases hsome
    · cases h
  · cases h

theorem collected_first {first : EvidenceRecord} (hwindow : isWindow P header = true)
    (hfirst : chainRecord P (.registration header) none = .ok first) :
    Collected P header [first] := by
  obtain ⟨rfl, hvalid⟩ := chainRecord_ok.mp hfirst
  have hsamples : [HashChain.next (digest P) none (.registration header)].filterMap sampleOf = [] :=
    rfl
  refine ⟨.snoc .nil, by simpa using hvalid, rfl, hwindow, ?_, ?_⟩
  · simp [hsamples]
  · simp [hsamples]

/-- The last record of a collector, as a sample, is its last sample. -/
theorem Collected.getLast_sample (h : Collected P header records) :
    records.getLast?.bind sampleOf = (records.filterMap sampleOf).getLast? := by
  rcases List.eq_nil_or_concat records with rfl | ⟨front, last, rfl⟩
  · rfl
  rw [List.concat_eq_append] at *
  rw [List.getLast?_concat, Option.bind_some, List.filterMap_append]
  cases hlast : sampleOf last with
  | some s => simp [hlast]
  | none =>
    have hpayloads := h.payloads
    cases front with
    | nil => simp [hlast]
    | cons first front =>
      rw [List.cons_append, List.map_cons, List.map_append] at hpayloads
      have hmem : last.payload ∈ ((first :: (front ++ [last])).filterMap sampleOf).map .sample := by
        rw [← (List.cons.inj hpayloads).2]
        simp
      obtain ⟨s, -, hs⟩ := List.mem_map.mp hmem
      rw [sampleOf_eq_some.mpr hs.symm] at hlast
      cases hlast

theorem pairwise_concat {α : Type} [Preorder α] {a b : α} {l : List α}
    (h : (a :: l).Pairwise (· ≤ ·)) (hb : (a :: l).getLast (by simp) ≤ b) :
    (a :: (l ++ [b])).Pairwise (· ≤ ·) := by
  rw [← List.cons_append, ← List.isChain_iff_pairwise, List.isChain_append]
  refine ⟨List.isChain_iff_pairwise.mpr h, by simp, ?_⟩
  intro x hx y hy
  rw [List.getLast?_eq_some_getLast (by simp), Option.mem_some_iff] at hx
  rw [List.head?_cons, Option.mem_some_iff] at hy
  rw [← hx, ← hy]
  exact hb

/-- A record that the loop writes continues the journal. -/
theorem nextRecord_ok {size : ℕ} {input : Json} {now : ℤ} {record : EvidenceRecord}
    (h : nextRecord P C header records size input now = .ok record)
    (hcollected : Collected P header records) : Collected P header (records ++ [record]) ∧
      size + byteLength (line record ++ [10]) ≤ maxJournalBytes := by
  unfold nextRecord at h
  simp only [bind_ok, require_ok, pure_ok] at h
  obtain ⟨_, -, s, -, r, hrecord, _, htime, _, hcount, _, hsize, rfl⟩ := h
  obtain ⟨hnext, hvalid⟩ := chainRecord_ok.mp hrecord
  have hsample : sampleOf r = some s := by
    rw [hnext]
    rfl
  have hsamples : (records ++ [r]).filterMap sampleOf = records.filterMap sampleOf ++ [s] := by
    rw [List.filterMap_append, List.filterMap_cons_some hsample, List.filterMap_nil]
  refine ⟨⟨?_, ?_, ?_, ?_⟩, hsize⟩
  · rw [hnext]
    exact .snoc hcollected.chain
  · rw [List.forall_mem_append, List.forall_mem_singleton]
    exact ⟨hcollected.valid, hvalid⟩
  · rw [hsamples, List.map_append, hcollected.payloads, List.map_append]
    rw [List.map_singleton, sampleOf_eq_some.mp hsample]
    rfl
  · rw [hsamples]
    refine ⟨hcollected.order.window, ?_, ?_⟩
    · rw [List.map_append, List.map_singleton]
      refine pairwise_concat hcollected.order.times ?_
      rw [hcollected.getLast_sample] at htime
      rcases List.eq_nil_or_concat (records.filterMap sampleOf) with hnil | ⟨front, last, hconcat⟩
      · simpa [hnil] using htime
      · simpa [hconcat, time] using htime
    · rw [List.filterMap_append]
      cases hclosed : s.closedTrades with
      | none => simpa [hclosed] using hcollected.order.counters
      | some closed =>
        rw [List.filterMap_cons_some hclosed, List.filterMap_nil]
        rw [hclosed] at hcount
        have hcounters := hcollected.order.counters
        cases hmost : (records.filterMap sampleOf).filterMap EvidenceSample.closedTrades with
        | nil => simp
        | cons first rest =>
          rw [hmost] at hcounters
          refine pairwise_concat hcounters ?_
          rw [hmost, List.getLast?_eq_some_getLast (by simp)] at hcount
          simpa [countable] using hcount

/-! ### The files -/

/-- The files that an ended process may leave: lines of whole records, and then a part of a line. -/
inductive Found (P : Platform) : Disk → Prop where
  | nothing : Found P ⟨none, none⟩
  | anchor (t : Text) : Found P ⟨some t, none⟩
  | part (anchor : Option Text) (t : Text) : 10 ∉ t → Found P ⟨anchor, some t⟩
  | lines (header : Registration) (records : List EvidenceRecord) (part : Text) :
      Collected P header records → 10 ∉ part →
      Found P ⟨some (serialize (records.take 1)), some (serialize records ++ part)⟩

/-- The files under a process in its loop. -/
structure Held (P : Platform) (d : Disk) (header : Registration) (records : List EvidenceRecord) :
    Prop where
  files : d = ⟨some (serialize (records.take 1)), some (serialize records)⟩
  collected : Collected P header records
  size : byteLength (serialize records) ≤ maxJournalBytes

/-- Where the files stand while a process is at work. -/
def Inv (P : Platform) (c : Collector) : Prop :=
  match c.stage with
  | .idle => Found P c.disk
  | .anchoring header first => c.disk = ⟨none, none⟩ ∧ Collected P header [first]
  | .creating header first => c.disk = ⟨some (serialize [first]), none⟩ ∧ Collected P header [first]
  | .opening header first =>
    c.disk = ⟨some (serialize [first]), some []⟩ ∧ Collected P header [first]
  | .waiting header records => Held P c.disk header records
  | .polled header records => Held P c.disk header records
  | .appending header records record => Held P c.disk header records ∧
      Collected P header (records ++ [record]) ∧
      byteLength (serialize records) + byteLength (line record ++ [10]) ≤ maxJournalBytes

theorem Held.found {d : Disk} (h : Held P d header records) : Found P d := by
  have hlines := Found.lines header records [] h.collected (by simp)
  rw [List.append_nil] at hlines
  rw [h.files]
  exact hlines

theorem serialize_append (records more : List EvidenceRecord) :
    serialize (records ++ more) = serialize records ++ serialize more := List.flatMap_append

theorem serialize_singleton (r : EvidenceRecord) : serialize [r] = line r ++ [10] := by
  simp [serialize]

/-- A part of a line is the line or has no line end. -/
theorem take_line (r : EvidenceRecord) (n : ℕ) :
    10 ∉ (line r ++ [10]).take n ∨ (line r ++ [10]).take n = line r ++ [10] := by
  rcases Nat.lt_or_ge (line r).length n with hlt | hle
  · right
    exact List.take_of_length_le (by simpa using hlt)
  · left
    rw [List.take_append_of_le_length hle]
    exact fun hmem => newline_not_mem_line r (List.mem_of_mem_take hmem)

/-- A line that was written in part leaves what may be found. -/
theorem found_torn {record : EvidenceRecord} (h : Collected P header records)
    (hnext : Collected P header (records ++ [record])) (n : ℕ) :
    Found P ⟨some (serialize (records.take 1)),
      some (serialize records ++ (line record ++ [10]).take n)⟩ := by
  rcases take_line record n with hpart | hall
  · exact .lines header records _ h hpart
  · have hlines := Found.lines header (records ++ [record]) [] hnext (by simp)
    rw [hall]
    rw [List.append_nil, serialize_append, serialize_singleton,
      List.take_append_of_le_length (List.length_pos_iff.mpr h.ne_nil)] at hlines
    exact hlines

/-- Only whole lines are accepted, as the records that they were written for, and only before the
    deadline. -/
theorem verifyJournal_lines {part : Text} {read : List EvidenceRecord}
    (h : Collected P header records) (hpart : 10 ∉ part) :
    verifyJournal P (serialize records ++ part) = .ok read ↔ read = records ∧ part = [] ∧
      byteLength (serialize records) ≤ maxJournalBytes ∧
      ∀ s ∈ records.filterMap sampleOf, time P s < P.parseDate header.deadline := by
  constructor
  · intro hverified
    obtain ⟨hsize, hend, -, hread, hjournal⟩ := verifyJournal_ok.mp hverified
    have hnil : part = [] := by
      rcases List.eq_nil_or_concat part with rfl | ⟨front, last, rfl⟩
      · rfl
      · rw [List.concat_eq_append] at hend hpart
        rw [← List.append_assoc, List.getLast?_concat, Option.some_inj] at hend
        simp [hend] at hpart
    subst hnil
    rw [List.append_nil] at hsize hread
    rw [splitOn_serialize h.ne_nil, mapM_line h.valid] at hread
    cases hread
    exact ⟨rfl, rfl, hsize, h.journal_iff.mp hjournal⟩
  · rintro ⟨rfl, rfl, hsize, hdeadline⟩
    rw [List.append_nil]
    exact verifyJournal_serialize ⟨hsize, h.journal_iff.mpr hdeadline⟩

theorem verifyJournal_part {part : Text} {read : List EvidenceRecord} (hpart : 10 ∉ part) :
    verifyJournal P part ≠ .ok read := by
  intro hverified
  obtain ⟨-, hend, -⟩ := verifyJournal_ok.mp hverified
  exact hpart (List.mem_of_getLast? hend)

/-! ### Steps -/

/-- A process finds the files of an ended one. -/
theorem begin_inv {d : Disk} {version : Text} {hours now : ℤ} {stage : Stage} (h : Found P d)
    (hbegin : begin P C d version hours now = .ok stage) : Inv P ⟨d, stage⟩ := by
  unfold begin at hbegin
  rw [bind_ok] at hbegin
  obtain ⟨initial, hinitial, hbegin⟩ := hbegin
  cases hjournal : d.journal with
  | none =>
    simp only [hjournal, bind_ok, require_ok, pure_ok] at hbegin
    obtain ⟨_, hanchor, first, hfirst, rfl⟩ := hbegin
    refine ⟨?_, collected_first (registration_ok hinitial) hfirst⟩
    cases d
    subst hjournal hanchor
    rfl
  | some content =>
    simp only [hjournal, bind_ok] at hbegin
    obtain ⟨read, hread, hbegin⟩ := hbegin
    cases h with
    | nothing => cases hjournal
    | anchor t => cases hjournal
    | part anchor t hpart =>
      cases hjournal
      exact absurd hread (verifyJournal_part hpart)
    | lines header records part hcollected hpart =>
      cases hjournal
      obtain ⟨rfl, rfl, hsize, -⟩ := (verifyJournal_lines hcollected hpart).mp hread
      rw [hcollected.head] at hbegin
      simp only [bind_ok, require_ok, pure_ok] at hbegin
      obtain ⟨_, -, _, -, rfl⟩ := hbegin
      exact ⟨by rw [List.append_nil], hcollected, hsize⟩

theorem write_inv {d : Disk} {stage : Stage} {c : Collector} (h : Inv P ⟨d, stage⟩)
    (hwrite : write P d stage = some c) : Inv P c := by
  cases stage with
  | idle => cases hwrite
  | waiting => cases hwrite
  | polled => cases hwrite
  | anchoring header first =>
    cases hwrite
    obtain ⟨hdisk, hcollected⟩ := h
    cases hdisk
    exact ⟨by rw [serialize_singleton], hcollected⟩
  | creating header first =>
    cases hwrite
    obtain ⟨hdisk, hcollected⟩ := h
    cases hdisk
    exact ⟨rfl, hcollected⟩
  | opening header first =>
    cases hwrite
    obtain ⟨hdisk, hcollected⟩ := h
    cases hdisk
    have hfiles : Disk.append ⟨some (serialize [first]), some []⟩ (line first ++ [10]) =
        ⟨some (serialize ([first].take 1)), some (serialize [first])⟩ := by
      simp [Disk.append, serialize_singleton]
    rw [hfiles]
    cases hverify : verifyRegistrationFile P (some (serialize [first])) [first] with
    | ok u =>
      simp only [verifyRegistrationFile, bind_ok, require_ok] at hverify
      obtain ⟨_, hsize, -⟩ := hverify
      exact ⟨rfl, hcollected, hsize.trans (by decide)⟩
    | error e =>
      have hlines := Found.lines header [first] [] hcollected (by simp)
      rw [List.append_nil] at hlines
      exact hlines
  | appending header records record =>
    cases hwrite
    obtain ⟨hheld, hnext, hsize⟩ := h
    obtain ⟨hfiles, hcollected, -⟩ := hheld
    cases hfiles
    refine ⟨?_, hnext, ?_⟩
    · rw [serialize_append, serialize_singleton,
        List.take_append_of_le_length (List.length_pos_iff.mpr hcollected.ne_nil)]
      rfl
    · rw [serialize_append, serialize_singleton]
      exact (Json.byteLength_append _ _).trans hsize

theorem torn_found {d : Disk} {stage : Stage} (h : Inv P ⟨d, stage⟩) (n : ℕ) :
    Found P (torn d n stage) := by
  cases stage with
  | idle => exact h
  | waiting => exact Held.found h
  | polled => exact Held.found h
  | anchoring header first =>
    obtain ⟨hdisk, -⟩ := h
    cases hdisk
    cases n with
    | zero => exact .nothing
    | succ n => exact .anchor _
  | creating header first =>
    obtain ⟨hdisk, -⟩ := h
    cases hdisk
    cases n with
    | zero => exact .anchor _
    | succ n => exact .part _ _ (by simp)
  | opening header first =>
    obtain ⟨hdisk, hcollected⟩ := h
    cases hdisk
    rcases take_line first n with hpart | hall
    · exact .part _ _ (by simpa using hpart)
    · have hlines := Found.lines header [first] [] hcollected (by simp)
      rw [List.append_nil, List.take_of_length_le (by simp), serialize_singleton] at hlines
      simp only [torn, Disk.append, hall, Option.map_some, List.nil_append]
      rw [serialize_singleton]
      exact hlines
  | appending header records record =>
    obtain ⟨⟨hfiles, hcollected, -⟩, hnext, -⟩ := h
    cases hfiles
    exact found_torn hcollected hnext n

theorem step_inv {c d : Collector} {e : Event} (h : Inv P c) (hstep : step P C c e = some d) :
    Inv P d := by
  obtain ⟨disk, stage⟩ := c
  cases e with
  | start version hours now =>
    cases stage with
    | idle =>
      simp only [step, isIdle, if_true] at hstep
      split at hstep
      · next stage hbegin =>
        cases hstep
        exact begin_inv h hbegin
      · cases hstep
        exact h
    | _ => cases hstep
  | poll before after =>
    cases stage with
    | waiting header records =>
      simp only [step] at hstep
      split at hstep
      · cases hstep
        exact h
      · cases hstep
        exact Held.found h
    | _ => cases hstep
  | stop =>
    cases stage with
    | waiting header records =>
      cases hstep
      exact Held.found h
    | _ => cases hstep
  | sample input now =>
    cases stage with
    | polled header records =>
      simp only [step] at hstep
      split at hstep
      · next record hrecord =>
        cases hstep
        have hheld : Held P disk header records := h
        obtain ⟨hnext, hsize⟩ := nextRecord_ok hrecord hheld.collected
        rw [hheld.files] at hsize
        exact ⟨hheld, hnext, hsize⟩
      · cases hstep
        exact Held.found h
    | _ => cases hstep
  | write => exact write_inv h hstep
  | crash n =>
    simp only [step] at hstep
    split at hstep
    · cases hstep
    · cases hstep
      exact torn_found h n

/-! ### Runs -/

/-- The records that a process in its loop holds. -/
def held : Stage → Option (List EvidenceRecord)
  | .waiting _ records => some records
  | .polled _ records => some records
  | .appending _ records _ => some records
  | _ => none

theorem inv_nothing : Inv P nothing := Found.nothing

theorem inv_run {es : List Event} {c d : Collector} (h : Inv P c)
    (hrun : Transition.run (step P C) c es = some d) : Inv P d :=
  Transition.invariant (fun _ _ _ h hstep => step_inv h hstep) h hrun

/-- What there is on disk at any time. -/
theorem Inv.lines {c : Collector} {content : Text} (h : Inv P c)
    (hjournal : c.disk.journal = some content) : ∃ records part,
      content = serialize records ++ part ∧ 10 ∉ part ∧
      (∀ rs, held c.stage = some rs → rs = records ∧ part = []) ∧
      (records = [] ∨ ∃ header, Collected P header records ∧
        c.disk.anchor = some (serialize (records.take 1))) := by
  have hheld : ∀ {header : Registration} {records : List EvidenceRecord}, Held P c.disk header records →
      held c.stage = some records → ∃ records part, content = serialize records ++ part ∧ 10 ∉ part ∧
        (∀ rs, held c.stage = some rs → rs = records ∧ part = []) ∧
        (records = [] ∨ ∃ header, Collected P header records ∧
          c.disk.anchor = some (serialize (records.take 1))) := by
    intro header records hfiles hstage
    rw [hfiles.files] at hjournal ⊢
    cases hjournal
    refine ⟨records, [], by simp, by simp, ?_, .inr ⟨header, hfiles.collected, rfl⟩⟩
    intro rs hrs
    rw [hstage] at hrs
    cases hrs
    exact ⟨rfl, rfl⟩
  obtain ⟨disk, stage⟩ := c
  cases stage with
  | idle =>
    have hfound : Found P disk := h
    cases hfound with
    | nothing => cases hjournal
    | anchor t => cases hjournal
    | part anchor t hpart =>
      cases hjournal
      exact ⟨[], _, rfl, hpart, by simp [held], .inl rfl⟩
    | lines header records part hcollected hpart =>
      cases hjournal
      exact ⟨records, part, rfl, hpart, by simp [held], .inr ⟨header, hcollected, rfl⟩⟩
  | anchoring header first =>
    obtain ⟨hdisk, -⟩ := h
    cases hdisk
    cases hjournal
  | creating header first =>
    obtain ⟨hdisk, -⟩ := h
    cases hdisk
    cases hjournal
  | opening header first =>
    obtain ⟨hdisk, -⟩ := h
    cases hdisk
    cases hjournal
    exact ⟨[], [], rfl, by simp, by simp [held], .inl rfl⟩
  | waiting header records => exact hheld h rfl
  | polled header records => exact hheld h rfl
  | appending header records record => exact hheld h.1 rfl

/-- In every run of collectors, whatever the statuses and the clocks say and wherever processes die,
    the journal is whole lines and then a part of a line. The lines hold a chain of records in order.
    A process in its loop holds these records, and there is no part. The journal is accepted exactly
    when there is no part, it is not too large and no sample was dated at the deadline or later. -/
theorem collected_journal (P : Platform) (C : Clock P) (es : List Event) (c : Collector)
    (content : Text) (hrun : Transition.run (step P C) nothing es = some c)
    (hjournal : c.disk.journal = some content) :
    ∃ records part, content = serialize records ++ part ∧ 10 ∉ part ∧
      (∀ rs, held c.stage = some rs → rs = records ∧ part = []) ∧
      (records = [] → ∀ read, verifyJournal P content ≠ .ok read) ∧
      (records ≠ [] → ∃ header, Collected P header records ∧
        c.disk.anchor = some (serialize (records.take 1)) ∧
        ∀ read, verifyJournal P content = .ok read ↔ read = records ∧ part = [] ∧
          byteLength (serialize records) ≤ maxJournalBytes ∧
          ∀ s ∈ records.filterMap sampleOf, time P s < P.parseDate header.deadline) := by
  obtain ⟨records, part, rfl, hpart, hheld, hrecords⟩ := (inv_run inv_nothing hrun).lines hjournal
  refine ⟨records, part, rfl, hpart, hheld, ?_, ?_⟩
  · rintro rfl read
    exact verifyJournal_part hpart
  · intro hne
    rcases hrecords with hnil | ⟨header, hcollected, hanchor⟩
    · exact absurd hnil hne
    · exact ⟨header, hcollected, hanchor, fun read => verifyJournal_lines hcollected hpart⟩

namespace Sample

def clock : Clock platform where
  iso t := if t = 1_791_504_000_000 then start else if t = 1_791_507_600_000 then deadline else []
  parse_iso t h := by
    split_ifs at h ⊢ with hstart hdeadline
    · rw [hstart]
      decide +kernel
    · rw [hdeadline]
      decide +kernel
    · exact absurd h (by decide +kernel)

/-- A process that dies in the first line. -/
def events : List Event := [.start (units release) 1 1_791_504_000_000, .write, .write, .crash 40]

theorem journal_left : (Transition.run (step platform clock) nothing events).map (·.disk.journal) =
    some (some ((line first).take 40)) := by decide +kernel

end Sample

theorem collected_journal_sample : ∃ c : Collector,
    c.disk.journal = some ((line Sample.first).take 40) ∧
    ∃ records part, (line Sample.first).take 40 = serialize records ++ part ∧ 10 ∉ part ∧
      (∀ rs, held c.stage = some rs → rs = records ∧ part = []) ∧
      (records = [] → ∀ read, verifyJournal Sample.platform ((line Sample.first).take 40) ≠ .ok read) ∧
      (records ≠ [] → ∃ header, Collected Sample.platform header records ∧
        c.disk.anchor = some (serialize (records.take 1)) ∧
        ∀ read, verifyJournal Sample.platform ((line Sample.first).take 40) = .ok read ↔
          read = records ∧ part = [] ∧ byteLength (serialize records) ≤ maxJournalBytes ∧
          ∀ s ∈ records.filterMap sampleOf,
            time Sample.platform s < Sample.platform.parseDate header.deadline) := by
  obtain ⟨c, hrun, hjournal⟩ := Option.map_eq_some_iff.mp Sample.journal_left
  exact ⟨c, hjournal, collected_journal _ _ _ c _ hrun hjournal⟩

/-- A process that finds a journal that is not accepted leaves it. -/
theorem idle_fixed {c d : Collector} {e : Event} {content : Text} (hidle : c.stage = .idle)
    (hjournal : c.disk.journal = some content) (hrefused : ∀ read, verifyJournal P content ≠ .ok read)
    (hstep : step P C c e = some d) : d = c := by
  obtain ⟨disk, stage⟩ := c
  cases hidle
  cases e with
  | start version hours now =>
    simp only [step, isIdle, if_true] at hstep
    split at hstep
    · next stage hbegin =>
      unfold begin at hbegin
      rw [bind_ok] at hbegin
      obtain ⟨initial, -, hbegin⟩ := hbegin
      have hcontent : disk.journal = some content := hjournal
      simp only [hcontent, bind_ok] at hbegin
      obtain ⟨read, hread, -⟩ := hbegin
      exact absurd hread (hrefused read)
    · cases hstep
      rfl
  | _ => cases hstep

theorem Disk.append_journal {d : Disk} {content t : Text} (h : d.journal = some content) :
    (d.append t).journal = some (content ++ t) := by
  rw [Disk.append, h]
  rfl

/-- A step keeps what the journal has. -/
theorem step_grows {c d : Collector} {e : Event} {content : Text} (h : Inv P c)
    (hjournal : c.disk.journal = some content) (hstep : step P C c e = some d) :
    ∃ more, d.disk.journal = some (content ++ more) := by
  have hsame : ∀ {stage : Stage}, d = ⟨c.disk, stage⟩ →
      ∃ more, d.disk.journal = some (content ++ more) := by
    rintro stage rfl
    exact ⟨[], by rw [List.append_nil]; exact hjournal⟩
  obtain ⟨disk, stage⟩ := c
  cases e with
  | start version hours now =>
    simp only [step] at hstep
    split_ifs at hstep
    split at hstep <;> cases hstep <;> exact hsame rfl
  | poll before after =>
    simp only [step] at hstep
    split at hstep
    · split_ifs at hstep <;> cases hstep <;> exact hsame rfl
    · cases hstep
  | stop =>
    simp only [step] at hstep
    split at hstep
    · cases hstep
      exact hsame rfl
    · cases hstep
  | sample input now =>
    simp only [step] at hstep
    split at hstep
    · split at hstep <;> cases hstep <;> exact hsame rfl
    · cases hstep
  | write =>
    cases stage with
    | idle => cases hstep
    | waiting => cases hstep
    | polled => cases hstep
    | anchoring header first =>
      cases hstep
      exact ⟨[], by rw [List.append_nil]; exact hjournal⟩
    | creating header first =>
      obtain ⟨hdisk, -⟩ := h
      cases hdisk
      cases hjournal
    | opening header first =>
      cases hstep
      exact ⟨_, Disk.append_journal hjournal⟩
    | appending header records record =>
      cases hstep
      exact ⟨_, Disk.append_journal hjournal⟩
  | crash n =>
    simp only [step] at hstep
    split_ifs at hstep
    cases hstep
    cases stage with
    | idle => exact hsame rfl
    | waiting => exact hsame rfl
    | polled => exact hsame rfl
    | anchoring header first =>
      cases n with
      | zero => exact hsame rfl
      | succ n => exact ⟨[], by rw [List.append_nil]; exact hjournal⟩
    | creating header first =>
      obtain ⟨hdisk, -⟩ := h
      cases hdisk
      cases hjournal
    | opening header first => exact ⟨_, Disk.append_journal hjournal⟩
    | appending header records record => exact ⟨_, Disk.append_journal hjournal⟩

/-- What has been written is never changed or removed by a later process, and once a process ends with
    a journal that is not accepted, every later process leaves both files as they are. -/
theorem journal_only_grows (P : Platform) (C : Clock P) (es fs : List Event) (c d : Collector)
    (content : Text) (hrun : Transition.run (step P C) nothing es = some c)
    (hmore : Transition.run (step P C) c fs = some d) (hjournal : c.disk.journal = some content) :
    (∃ more, d.disk.journal = some (content ++ more)) ∧
      (c.stage = .idle → (∀ read, verifyJournal P content ≠ .ok read) → d = c) := by
  have hinv : Inv P c := inv_run inv_nothing hrun
  clear hrun
  constructor
  · induction fs generalizing c content with
    | nil =>
      cases hmore
      exact ⟨[], by rw [List.append_nil]; exact hjournal⟩
    | cons e fs ih =>
      obtain ⟨u, hstep, hrest⟩ := Transition.run_cons.mp hmore
      obtain ⟨more, hu⟩ := step_grows hinv hjournal hstep
      obtain ⟨rest, hd⟩ := ih u _ hrest hu (step_inv hinv hstep)
      exact ⟨more ++ rest, by rw [hd, List.append_assoc]⟩
  · intro hidle hrefused
    induction fs with
    | nil =>
      cases hmore
      rfl
    | cons e fs ih =>
      obtain ⟨u, hstep, hrest⟩ := Transition.run_cons.mp hmore
      cases idle_fixed hidle hjournal hrefused hstep
      exact ih hrest

theorem journal_only_grows_sample : ∃ c d : Collector,
    Transition.run (step Sample.platform Sample.clock) c [.start (units release) 1 0] = some d ∧
      (∃ more, d.disk.journal = some ((line Sample.first).take 40 ++ more)) ∧
      (c.stage = .idle → (∀ read, verifyJournal Sample.platform ((line Sample.first).take 40) ≠
        .ok read) → d = c) := by
  obtain ⟨c, hrun, hjournal⟩ := Option.map_eq_some_iff.mp Sample.journal_left
  have hidle : c.stage = .idle := by
    have hstage : (Transition.run (step Sample.platform Sample.clock) nothing Sample.events).map
        (isIdle ·.stage) = some true := by decide +kernel
    rw [hrun, Option.map_some, Option.some_inj] at hstage
    cases hc : c.stage <;> simp_all [isIdle]
  obtain ⟨d, hd⟩ : ∃ d, step Sample.platform Sample.clock c (.start (units release) 1 0) = some d := by
    rw [step, hidle, isIdle, if_pos rfl]
    split <;> exact ⟨_, rfl⟩
  have hmore : Transition.run (step Sample.platform Sample.clock) c [.start (units release) 1 0] =
      some d := Transition.run_cons.mpr ⟨d, hd, rfl⟩
  exact ⟨c, d, hmore, journal_only_grows _ _ _ _ c d _ hrun hmore hjournal⟩

end ScalpingBot.Evidence
