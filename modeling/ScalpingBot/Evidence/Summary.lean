import ScalpingBot.Evidence.JournalLaws

/-! The summary of a journal (`summarizeOperational`): how much of the sampled time the session was
    open, and how much of that the service was ready. -/

namespace ScalpingBot.Evidence

open Json (Text)
open HashChain (Link)

structure OperationalSummary where
  startedAt : Text
  deadline : Text
  asOf : Text
  lastSampleAt : Option Text
  samples : ℕ
  unavailableSamples : ℕ
  notReadySamples : ℕ
  gapIntervals : ℕ
  sampledOpenMs : ℤ
  sampledReadyOpenMs : ℤ
  journalSha256 : Text
  collectionWindowElapsed : Bool

/-- `validOpen`. -/
def validOpen (P : Platform) (s : EvidenceSample) : Bool :=
  match s.sessionCheckedAt, s.scheduleFetchedAt with
  | some checked, some fetched =>
    s.available && s.session = .opened && P.parseDate checked ≤ time P s &&
      time P s - P.parseDate checked ≤ 10_000 && P.parseDate fetched ≤ P.parseDate checked &&
      time P s - P.parseDate fetched < 30_000
  | _, _ => false

/-- `startupReady && operationalReady`. -/
def isReady (s : EvidenceSample) : Bool := s.startupReady = some true && s.operationalReady = some true

/-- What the loop counts. -/
structure Sampled where
  openMs : ℤ := 0
  readyOpenMs : ℤ := 0
  gaps : ℕ := 0

/-- One turn of the loop over adjacent samples. -/
def Sampled.step (P : Platform) (n : Sampled) (a b : EvidenceSample) : Sampled :=
  let delta := time P b - time P a
  if 45_000 < delta then { n with gaps := n.gaps + 1 }
  else if validOpen P a && validOpen P b then
    { n with
      openMs := n.openMs + delta
      readyOpenMs := if isReady a && isReady b then n.readyOpenMs + delta else n.readyOpenMs }
  else n

def sampled (P : Platform) (samples : List EvidenceSample) : Sampled :=
  (samples.zip samples.tail).foldl (fun n p => n.step P p.1 p.2) {}

/-- The payload of a record after the first. -/
def sampleOf (r : EvidenceRecord) : Option EvidenceSample :=
  match r.payload with
  | .sample s => some s
  | .registration _ => none

/-- `records.map((r) => JSON.stringify(r)).join("\\n") + "\\n"`. -/
def journalText (records : List EvidenceRecord) : Text :=
  [10].intercalate (records.map line) ++ [10]

/-- `summarizeOperational`. -/
def summarizeOperational (P : Platform) (records : List EvidenceRecord) (asOf : Text) :
    Except String OperationalSummary := do
  let checked ← verifyJournal P (journalText records)
  match checked.head?.map Link.payload, checked.getLast? with
  | some (.registration header), some last => do
    let samples := checked.tail.filterMap sampleOf
    require (P.isDatetime asOf) "ZodError"
    let now := P.parseDate asOf
    let lastAt := (samples.getLast?.map EvidenceSample.sampledAt).getD header.startedAt
    require (P.parseDate lastAt ≤ now) "OPERATIONAL_AS_OF_INVALID"
    let n := sampled P samples
    require (samples.length ≤ maxSamples ∧ 0 ≤ n.openMs ∧ n.openMs ≤ maxSafe ∧ 0 ≤ n.readyOpenMs ∧
      n.readyOpenMs ≤ maxSafe) "ZodError"
    return {
      startedAt := header.startedAt
      deadline := header.deadline
      asOf := asOf
      lastSampleAt := samples.getLast?.map EvidenceSample.sampledAt
      samples := samples.length
      unavailableSamples := samples.countP (!EvidenceSample.available ·)
      notReadySamples := samples.countP fun s => !(s.available && isReady s)
      gapIntervals := n.gaps
      sampledOpenMs := n.openMs
      sampledReadyOpenMs := n.readyOpenMs
      journalSha256 := last.digest
      collectionWindowElapsed := P.parseDate header.deadline ≤ now }
  | _, _ => .error "TypeError"

variable {P : Platform} {records : List EvidenceRecord} {samples : List EvidenceSample}

theorem journalText_eq (h : records ≠ []) : journalText records = serialize records := by
  unfold journalText
  induction records with
  | nil => exact absurd rfl h
  | cons r rest ih =>
    cases rest with
    | nil => simp [serialize, List.intercalate_singleton]
    | cons r' rest =>
      rw [List.map_cons, List.map_cons, List.intercalate_cons_cons, List.append_assoc,
        List.append_assoc, ← List.map_cons, ih (by simp)]
      simp [serialize]

theorem samples_of_payloads {rest : List EvidenceRecord}
    (h : rest.map Link.payload = samples.map .sample) : rest.filterMap sampleOf = samples := by
  induction rest generalizing samples with
  | nil =>
    rw [List.map_nil, eq_comm, List.map_eq_nil_iff] at h
    rw [h]
    rfl
  | cons r rest ih =>
    cases samples with
    | nil => cases h
    | cons s samples =>
      obtain ⟨hpayload, hrest⟩ := List.cons.inj h
      have hsample : sampleOf r = some s := by
        unfold sampleOf
        rw [hpayload]
      rw [List.filterMap_cons_some hsample, ih hrest]

/-! ### The sampled time -/

/-- One interval. -/
theorem Sampled.step_bounds {n : Sampled} {a b : EvidenceSample} (hle : time P a ≤ time P b)
    (hopen : 0 ≤ n.readyOpenMs ∧ n.readyOpenMs ≤ n.openMs) :
    (0 ≤ (n.step P a b).readyOpenMs ∧ (n.step P a b).readyOpenMs ≤ (n.step P a b).openMs) ∧
      (n.step P a b).openMs + 45_000 * (n.step P a b).gaps ≤
        n.openMs + 45_000 * n.gaps + (time P b - time P a) := by
  unfold Sampled.step
  by_cases hgap : 45_000 < time P b - time P a
  · simp only [hgap, if_true]
    push_cast
    omega
  · simp only [hgap, if_false]
    by_cases hvalid : (validOpen P a && validOpen P b) = true
    · by_cases hready : (isReady a && isReady b) = true
      · simp only [hvalid, hready, if_true]
        omega
      · simp only [hvalid, hready, if_true]
        simp only [Bool.false_eq_true, if_false]
        omega
    · rw [if_neg hvalid]
      omega

/-- The intervals of a list of samples in order add up to no more than the time between its ends. -/
theorem fold_bounds {a : EvidenceSample} {n : Sampled}
    (htimes : ((a :: samples).map (time P)).Pairwise (· ≤ ·))
    (hopen : 0 ≤ n.readyOpenMs ∧ n.readyOpenMs ≤ n.openMs) {m : Sampled}
    (hm : ((a :: samples).zip samples).foldl (fun n p => n.step P p.1 p.2) n = m) :
    (0 ≤ m.readyOpenMs ∧ m.readyOpenMs ≤ m.openMs) ∧
      m.openMs + 45_000 * m.gaps ≤
        n.openMs + 45_000 * n.gaps + (time P ((a :: samples).getLast (by simp)) - time P a) := by
  induction samples generalizing a n with
  | nil =>
    subst hm
    simpa using hopen
  | cons b samples ih =>
    rw [List.map_cons, List.map_cons, pairwise_cons_cons] at htimes
    obtain ⟨hopen', hstep⟩ := Sampled.step_bounds htimes.1 hopen
    obtain ⟨hready, hsum⟩ := ih htimes.2 hopen' hm
    refine ⟨hready, hsum.trans ?_⟩
    rw [List.getLast_cons_cons]
    omega

/-- The instant that `summarizeOperational` compares with `asOf`. -/
def lastInstant (P : Platform) (header : Registration) (samples : List EvidenceSample) : ℤ :=
  P.parseDate ((samples.getLast?.map EvidenceSample.sampledAt).getD header.startedAt)

theorem lastInstant_mem {header : Registration} :
    lastInstant P header samples ∈ P.parseDate header.startedAt :: samples.map (time P) := by
  unfold lastInstant
  rcases List.eq_nil_or_concat samples with rfl | ⟨front, last, rfl⟩
  · simp
  · simp [time]

theorem sampled_bounds {header : Registration} (h : Chronological P header samples) :
    (0 ≤ (sampled P samples).readyOpenMs ∧
      (sampled P samples).readyOpenMs ≤ (sampled P samples).openMs) ∧
      (sampled P samples).openMs + 45_000 * (sampled P samples).gaps ≤
        lastInstant P header samples - P.parseDate header.startedAt := by
  cases samples with
  | nil => simp [sampled, lastInstant]
  | cons s rest =>
    have htimes := h.times
    rw [List.map_cons, pairwise_cons_cons] at htimes
    obtain ⟨hready, hsum⟩ := fold_bounds (n := {}) htimes.2 ⟨le_rfl, le_rfl⟩ rfl
    refine ⟨hready, hsum.trans ?_⟩
    have hlast : lastInstant P header (s :: rest) = time P ((s :: rest).getLast (by simp)) := by
      simp [lastInstant, List.getLast?_eq_some_getLast, time]
    rw [hlast]
    simp only [Nat.cast_zero, mul_zero, add_zero]
    omega

/-- The window is a week at most. -/
theorem Chronological.lastInstant_le {header : Registration} (h : Chronological P header samples) :
    lastInstant P header samples ≤ P.parseDate header.deadline ∧
      P.parseDate header.deadline ≤ P.parseDate header.startedAt + 168 * 3_600_000 := by
  have hwindow := h.window
  simp only [isWindow, decide_eq_true_eq] at hwindow
  refine ⟨?_, by omega⟩
  have hlast : lastInstant P header samples ∈
      P.parseDate header.startedAt :: samples.map (time P) := lastInstant_mem
  rcases List.mem_cons.mp hlast with heq | hmem
  · omega
  · obtain ⟨s, hs, htime⟩ := List.mem_map.mp hmem
    rw [← htime]
    exact (h.deadline s hs).le

/-- What a summary of a journal of this registration and these samples says. -/
structure Accounts (P : Platform) (header : Registration) (samples : List EvidenceSample) (now : ℤ)
    (s : OperationalSummary) : Prop where
  count : s.samples = samples.length
  unavailable : s.unavailableSamples ≤ s.notReadySamples ∧ s.notReadySamples ≤ s.samples
  ready : 0 ≤ s.sampledReadyOpenMs ∧ s.sampledReadyOpenMs ≤ s.sampledOpenMs
  sum : s.sampledOpenMs + 45_000 * s.gapIntervals ≤
    lastInstant P header samples - P.parseDate header.startedAt
  elapsed : s.collectionWindowElapsed = true ↔ P.parseDate header.deadline ≤ now

/-- A journal that is accepted is summarised at every later instant, and its summary never counts
    more than there was: the ready time is part of the open time, and the open time and 45 seconds
    for every gap fit between the registration and the last sample. -/
theorem journal_is_summarised (P : Platform) (header : Registration) (samples : List EvidenceSample)
    (records : List EvidenceRecord) (asOf : Text)
    (hverified : verifyJournal P (serialize records) = .ok records)
    (hpayloads : records.map Link.payload = .registration header :: samples.map .sample)
    (hdate : P.isDatetime asOf = true) (hnow : lastInstant P header samples ≤ P.parseDate asOf) :
    ∃ s, summarizeOperational P records asOf = .ok s ∧
      Accounts P header samples (P.parseDate asOf) s := by
  obtain ⟨-, -, -, -, hjournal⟩ := verifyJournal_ok.mp hverified
  obtain ⟨header', samples', hpayloads', hchronological⟩ := hjournal.payloads
  rw [hpayloads] at hpayloads'
  obtain ⟨hheader, hsamples⟩ := List.cons.inj hpayloads'
  cases hheader
  have hsame : samples = samples' := List.map_injective_iff.mpr
    (fun a b h => Payload.sample.inj h) hsamples
  subst hsame
  cases records with
  | nil => cases hpayloads
  | cons first rest =>
    obtain ⟨hfirst, hrest⟩ := List.cons.inj hpayloads
    obtain ⟨last, hlast⟩ : ∃ last, (first :: rest).getLast? = some last :=
      Option.isSome_iff_exists.mp (by simp)
    obtain ⟨hready, hsum⟩ := sampled_bounds hchronological
    obtain ⟨hdeadline, hweek⟩ := hchronological.lastInstant_le
    have hlength : samples.length ≤ maxSamples := by
      have hcount := congrArg List.length hrest
      have hall := hjournal.length
      simp only [List.length_map, List.length_cons] at hcount hall
      omega
    have hsafe : (maxSafe : ℤ) = 9_007_199_254_740_991 := rfl
    unfold summarizeOperational
    rw [journalText_eq (by simp), hverified, ok_bind, List.head?_cons, Option.map_some, hfirst, hlast]
    dsimp only
    rw [List.tail_cons, samples_of_payloads hrest]
    simp only [hdate, require, if_true, ok_bind]
    unfold lastInstant at hnow
    rw [if_pos hnow, ok_bind, if_pos (by omega), ok_bind]
    refine ⟨_, rfl, ?_⟩
    constructor
    · rfl
    · exact ⟨List.countP_mono_left fun s _ hs => by simpa using Or.inl (by simpa using hs),
        List.countP_le_length⟩
    · exact hready
    · exact hsum
    · exact decide_eq_true_iff

theorem journal_is_summarised_sample :
    ∃ s, summarizeOperational Sample.platform [Sample.first, Sample.second] Sample.deadline = .ok s ∧
      Accounts Sample.platform Sample.header [Sample.missing]
        (Sample.platform.parseDate Sample.deadline) s :=
  journal_is_summarised _ _ _ _ _ Sample.verified rfl (by decide +kernel) (by decide +kernel)

end ScalpingBot.Evidence
