import ScalpingBot.Flight.Recorder

/-! When a recording has a gap wherever it lacks an event: every step that passes an event on leaves
    each recording either with the event or with a gap. -/

namespace ScalpingBot.FlightRecorder

variable {history : List QuoteEvent} {σ : ℕ} {e : QuoteEvent} {f : Flight}

/-- The second event follows the first one in its stream, as far as it counts for the recording. -/
structure Adjacent (history : List QuoteEvent) (f : Flight) (a b : QuoteEvent) : Prop where
  mem : b ∈ history
  stream : a.stream = b.stream
  lt : a.sequence < b.sequence
  between : ∀ e ∈ history, e.stream = a.stream → a.sequence < e.sequence →
    e.sequence < b.sequence → f.since e = false

/-- Two quotes next to each other are adjacent; the newer record comes first. -/
def Joined (history : List QuoteEvent) (f : Flight) : Entry → Entry → Prop
  | .quote b, .quote a => Adjacent history f a b
  | _, _ => True

/-- No recording has two consecutive quotes that are not adjacent. -/
def State.Unbroken (s : State) : Prop :=
  ∀ r, (s.flights r).records.IsChain (Joined s.history (s.flights r))

/-- Whether the newest record is a quote, so that a missing event would go unnoticed. -/
def State.exposed (s : State) (r : ℕ) : Prop := ∃ a, (s.flights r).records.head? = some (.quote a)

/-- The recorder has passed an event that follows the newest quote of the recording. -/
def State.Missed (s : State) (r : ℕ) : Prop :=
  ∃ a, (s.flights r).records.head? = some (.quote a) ∧ ∃ e ∈ s.history, e.stream = a.stream ∧
    a.sequence < e.sequence ∧ e.sequence ≤ s.cursor ∧ (s.flights r).since e

/-- Events numbered one after the other from a position on. -/
def Numbered (σ : ℕ) : ℕ → List QuoteEvent → Prop
  | _, [] => True
  | p, e :: rest => e.stream = σ ∧ e.sequence = p + 1 ∧ Numbered σ (p + 1) rest

theorem numbered_append {l : List QuoteEvent} {p : ℕ} (h : Numbered σ p l) (he : e.stream = σ)
    (hseq : e.sequence = p + l.length + 1) : Numbered σ p (l ++ [e]) := by
  induction l generalizing p with
  | nil => exact ⟨he, hseq, trivial⟩
  | cons x rest ih =>
    refine ⟨h.1, h.2.1, ih h.2.2 ?_⟩
    rw [hseq, List.length_cons]
    omega

theorem numbered_drop {l : List QuoteEvent} {p : ℕ} (h : Numbered σ p l) {n : ℕ}
    (hn : n ≤ l.length) : Numbered σ (p + n) (l.drop n) := by
  induction n generalizing l p with
  | zero => exact h
  | succ n ih =>
    cases l with
    | nil => exact absurd hn (by simp)
    | cons x rest =>
      have hrest := ih h.2.2 (by simpa using hn)
      rwa [show p + (n + 1) = p + 1 + n by omega]

theorem numbered_take {l : List QuoteEvent} {p : ℕ} (h : Numbered σ p l) (n : ℕ) :
    Numbered σ p (l.take n) := by
  induction n generalizing l p with
  | zero => trivial
  | succ n ih =>
    cases l with
    | nil => trivial
    | cons x rest => exact ⟨h.1, h.2.1, ih h.2.2⟩

theorem numbered_lt {l : List QuoteEvent} {p : ℕ} (h : Numbered σ p l) (he : e ∈ l) :
    e.stream = σ ∧ p < e.sequence ∧ e.sequence ≤ p + l.length := by
  induction l generalizing p with
  | nil => cases he
  | cons x rest ih =>
    rcases List.mem_cons.mp he with rfl | he
    · rw [List.length_cons, h.2.1]
      exact ⟨h.1, by omega, by omega⟩
    · obtain ⟨hstream, hlt, hle⟩ := ih h.2.2 he
      rw [List.length_cons]
      exact ⟨hstream, by omega, by omega⟩

/-- The end of a list has the numbers before its last one. -/
theorem numbered_suffix {l l' : List QuoteEvent} {p : ℕ} (h : Numbered σ p l) (hl : l' <:+ l) :
    ∃ q, Numbered σ q l' ∧ q + l'.length = p + l.length := by
  obtain ⟨l₀, rfl⟩ := hl
  have hle : l₀.length ≤ (l₀ ++ l').length := by
    rw [List.length_append]
    omega
  have hdrop := numbered_drop h hle
  rw [List.drop_left] at hdrop
  refine ⟨_, hdrop, ?_⟩
  rw [List.length_append]
  omega

/-- What is numbered above a position, from the greater of the two starts. -/
theorem numbered_filter {l : List QuoteEvent} {p : ℕ} (h : Numbered σ p l) (after : ℕ) :
    Numbered σ (max p (min after (p + l.length))) (l.filter (after < ·.sequence)) := by
  induction l generalizing p with
  | nil => trivial
  | cons x rest ih =>
    have hrest := ih h.2.2
    rw [List.filter_cons]
    by_cases hx : after < x.sequence
    · rw [if_pos (by simpa using hx)]
      have hle : after ≤ p := by
        have hseq := h.2.1
        omega
      rw [max_eq_left ((min_le_left _ _).trans hle)]
      rw [max_eq_left (((min_le_left _ _).trans hle).trans (Nat.le_succ p))] at hrest
      exact ⟨h.1, h.2.1, hrest⟩
    · rw [if_neg (by simpa using hx)]
      have hlt : p + 1 ≤ after := by
        have hseq := h.2.1
        omega
      rw [List.length_cons]
      convert hrest using 1
      omega

/-! ### The ring -/

/-- The ring holds the latest events of its stream. -/
def FlightQuoteBuffer.Ring (b : FlightQuoteBuffer) : Prop :=
  ∃ p, Numbered b.streamId p b.events ∧ p + b.events.length = b.sequence

variable {b : FlightQuoteBuffer}

theorem ring_observe (h : b.Ring) (o : Observation) : (b.observe o).Ring := by
  rw [FlightQuoteBuffer.observe]
  split
  · obtain ⟨p, hnumbered, hlength⟩ := h
    have hnew := numbered_append hnumbered (e := b.nextEvent o) rfl
      (by rw [hlength, FlightQuoteBuffer.nextEvent])
    have hle : (b.events ++ [b.nextEvent o]).length - b.capacity ≤
        (b.events ++ [b.nextEvent o]).length := Nat.sub_le _ _
    refine ⟨_, numbered_drop hnew hle, ?_⟩
    simp only [List.length_drop, List.length_append, List.length_cons, List.length_nil]
    omega
  · exact h

/-- The events of a read follow each other, and follow the cursor unless there is a gap. -/
theorem ring_read (h : b.Ring) (after : ℕ) : ∃ p, Numbered b.streamId p (b.read after).events ∧
    ((b.read after).gap = false → after ≠ 0 → p = after) := by
  obtain ⟨p, hnumbered, hlength⟩ := h
  refine ⟨_, numbered_take (numbered_filter hnumbered after) 2048, fun hgap hafter => ?_⟩
  have hfirst : (b.events.head?.map (·.sequence)).getD (b.sequence + 1) = p + 1 := by
    cases hevents : b.events with
    | nil =>
      rw [hevents, List.length_nil] at hlength
      rw [← hlength]
      rfl
    | cons x rest =>
      rw [hevents] at hnumbered
      exact hnumbered.2.1
  simp only [FlightQuoteBuffer.read, decide_eq_false_iff_not, not_or, not_and, hfirst] at hgap
  have hle := hgap.2 hafter
  omega

theorem mem_read {after : ℕ} (he : e ∈ (b.read after).events) : e ∈ b.events :=
  List.mem_of_mem_filter (List.mem_of_mem_take he)

/-! ### A recording and a position of the stream -/

/-- The newest quote is an event of the stream up to the position. -/
def Behind (history : List QuoteEvent) (stream : Option ℕ) (p : ℕ) (v : List Entry) : Prop :=
  ∀ a, v.head? = some (.quote a) → a ∈ history ∧ some a.stream = stream ∧ a.sequence ≤ p

/-- No event that counts follows the newest quote up to the position. -/
def Covers (history : List QuoteEvent) (f : Flight) (p : ℕ) (v : List Entry) : Prop :=
  ∀ a, v.head? = some (.quote a) → ∀ e ∈ history, e.stream = a.stream → a.sequence < e.sequence →
    e.sequence ≤ p → f.since e = false

/-- Events of one stream have different numbers. -/
def Distinct (history : List QuoteEvent) : Prop :=
  ∀ e ∈ history, ∀ e' ∈ history, e.stream = e'.stream → e.sequence = e'.sequence → e = e'

/-- The records once the event is stored, if it counts. -/
def Flight.taken (f : Flight) (e : QuoteEvent) (v : List Entry) : List Entry :=
  if f.since e then .quote e :: v else v

variable {v : List Entry} {p : ℕ}

/-- Nothing is missing after a gap. -/
theorem behind_of_gap {stream : Option ℕ} (h : ∀ a, v.head? ≠ some (.quote a)) :
    Behind history stream p v := fun a ha => absurd ha (h a)

theorem covers_of_gap (h : ∀ a, v.head? ≠ some (.quote a)) : Covers history f p v :=
  fun a ha => absurd ha (h a)

/-- The next event of the stream is taken. -/
theorem advance (hdistinct : Distinct history) (he : e ∈ history) (hseq : e.sequence = p + 1)
    (hchain : v.IsChain (Joined history f)) (hbehind : Behind history (some e.stream) p v)
    (hcovers : Covers history f p v) :
    (f.taken e v).IsChain (Joined history f) ∧
      Behind history (some e.stream) (p + 1) (f.taken e v) ∧
      Covers history f (p + 1) (f.taken e v) := by
  rw [Flight.taken]
  split
  · next hsince =>
    refine ⟨List.isChain_cons.mpr ⟨fun y hy => ?_, hchain⟩, ?_, ?_⟩
    · cases y with
      | gap => trivial
      | quote a =>
        obtain ⟨-, hstream, hle⟩ := hbehind a hy
        have hstream' : a.stream = e.stream := Option.some.inj hstream
        refine ⟨he, hstream', by omega, fun x hx hxstream hxlt hxlt' => ?_⟩
        exact hcovers a hy x hx hxstream hxlt (by omega)
    · rintro a ⟨⟩
      exact ⟨he, rfl, hseq.le⟩
    · rintro a ⟨⟩ x - - hlt hle
      omega
  · next hsince =>
    refine ⟨hchain, fun a ha => ?_, fun a ha x hx hxstream hxlt hxle => ?_⟩
    · obtain ⟨hmem, hstream, hle⟩ := hbehind a ha
      exact ⟨hmem, hstream, by omega⟩
    · rcases Nat.lt_or_ge p x.sequence with hnew | hold
      · have hstream := (hbehind a ha).2.1
        obtain rfl : x = e := hdistinct x hx e he
          (hxstream.trans (Option.some.inj hstream)) (by omega)
        simpa using hsince
      · exact hcovers a ha x hx hxstream hxlt hold

/-- The events of a list that count, taken one after the other. -/
theorem replay (hdistinct : Distinct history) {l : List QuoteEvent} (hnumbered : Numbered σ p l)
    (hmem : ∀ e ∈ l, e ∈ history) (hchain : v.IsChain (Joined history f))
    (hbehind : Behind history (some σ) p v) (hcovers : Covers history f p v) :
    (((l.filter (f.since ·)).map Entry.quote).reverse ++ v).IsChain (Joined history f) ∧
      Behind history (some σ) (p + l.length)
        (((l.filter (f.since ·)).map Entry.quote).reverse ++ v) ∧
      Covers history f (p + l.length) (((l.filter (f.since ·)).map Entry.quote).reverse ++ v) := by
  induction l generalizing p v with
  | nil => exact ⟨hchain, hbehind, hcovers⟩
  | cons x rest ih =>
    obtain ⟨rfl, hseq, hrest⟩ := hnumbered
    obtain ⟨hchain', hbehind', hcovers'⟩ :=
      advance hdistinct (hmem x List.mem_cons_self) hseq hchain hbehind hcovers
    have hspec := ih hrest (fun e he => hmem e (List.mem_cons_of_mem x he)) hchain' hbehind'
      hcovers'
    have hlist : ((rest.filter (f.since ·)).map Entry.quote).reverse ++ f.taken x v =
        (((x :: rest).filter (f.since ·)).map Entry.quote).reverse ++ v := by
      rw [Flight.taken, List.filter_cons]
      split <;> simp
    rw [hlist] at hspec
    rwa [List.length_cons, show p + (rest.length + 1) = p + 1 + rest.length by omega]

/-! ### What every step keeps -/

namespace State

variable (s : State)

/-- The events that recordings are about to get. -/
def due : List (ℕ × QuoteEvent) :=
  match s.phase with
  | .recording due _ => due
  | _ => []

def dueOf (r : ℕ) : List QuoteEvent := (s.due.filter (·.1 = r)).map (·.2)

/-- The records once the events that are due are stored. -/
def virtual (r : ℕ) : List Entry := ((s.dueOf r).map Entry.quote).reverse ++ (s.flights r).records

/-- The numbers of the streams, the ring, and what the recorder remembers of its stream. -/
structure Counted : Prop where
  numbered : ∀ e ∈ s.history, e.stream ≤ s.buffer.streamId ∧ 1 ≤ e.sequence ∧
    (e.stream = s.buffer.streamId → e.sequence ≤ s.buffer.sequence)
  distinct : Distinct s.history
  ring : s.buffer.Ring
  ringMem : ∀ e ∈ s.buffer.events, e ∈ s.history
  stream : ∀ σ, s.stream = some σ → σ ≤ s.buffer.streamId ∧
    (σ = s.buffer.streamId → s.cursor ≤ s.buffer.sequence) ∧
    ∃ p, Numbered σ p s.recent ∧ p + s.recent.length = s.cursor
  noStream : s.stream = none → s.recent = []
  recentMem : ∀ e ∈ s.recent, e ∈ s.history
  nodup : (s.flight.toList ++ s.posts).Nodup
  created : ∀ r ∈ s.flight.toList ++ s.posts, r < s.created

/-- What is still to be read of the batch follows the cursor, or nothing would go unnoticed. -/
def RestOf : Phase → Prop
  | .events rest => rest ≠ [] → ∃ σ p, s.stream = some σ ∧ Numbered σ p rest ∧
      (∀ e ∈ rest, e ∈ s.history) ∧
      (p = s.cursor ∨ s.recent = [] ∧ ∀ r, s.live r → ¬ s.exposed r)
  | .recording _ rest => rest ≠ [] → ∃ σ, s.stream = some σ ∧ Numbered σ s.cursor rest ∧
      ∀ e ∈ rest, e ∈ s.history
  | _ => True

/-- The invariant: nothing is missing in a recording once it has what is due to it, but for the
    active one after an error. -/
structure Sound : Prop where
  counted : s.Counted
  chain : ∀ r, (s.virtual r).IsChain (Joined s.history (s.flights r))
  behind : ∀ r, s.live r → Behind s.history s.stream s.cursor (s.flights r).records
  dueMem : ∀ d ∈ s.due, d.2 ∈ s.history ∧ some d.2.stream = s.stream ∧ d.2.sequence ≤ s.cursor
  single : ∀ r, s.flight ≠ some r → (s.dueOf r).length ≤ 1
  covers : ∀ r, s.live r → (s.phase = .failed → s.flight ≠ some r) →
    Covers s.history (s.flights r) s.cursor (s.virtual r)
  rest : s.RestOf s.phase

end State

variable {s t : State} {r : ℕ}

theorem virtual_of_due (h : s.due = []) : s.virtual r = (s.flights r).records := by
  rw [State.virtual, State.dueOf, h]
  rfl

theorem joined_congr {g : Flight} (h : g.setup.createdAt = f.setup.createdAt) :
    Joined history g = Joined history f := by
  have hsince : g.since = f.since := by
    funext e
    rw [Flight.since, Flight.since, h]
  funext x y
  cases x <;> cases y <;> simp only [Joined]
  refine propext ⟨fun hadj => ?_, fun hadj => ?_⟩
  · exact ⟨hadj.mem, hadj.stream, hadj.lt, hsince ▸ hadj.between⟩
  · exact ⟨hadj.mem, hadj.stream, hadj.lt, hsince ▸ hadj.between⟩

theorem covers_congr {g : Flight} (h : g.setup.createdAt = f.setup.createdAt) :
    Covers history g p v ↔ Covers history f p v := by
  have hsince : g.since = f.since := by
    funext e
    rw [Flight.since, Flight.since, h]
  rw [Covers, Covers, hsince]

theorem chain_gaps (h : v.IsChain (Joined history f)) (n : ℕ) :
    (List.replicate n Entry.gap ++ v).IsChain (Joined history f) := by
  induction n with
  | zero => exact h
  | succ n ih =>
    rw [List.replicate_succ, List.cons_append, List.isChain_cons]
    exact ⟨fun _ _ => trivial, ih⟩

theorem head_gaps {n : ℕ} {a : QuoteEvent}
    (h : (List.replicate n Entry.gap ++ v).head? = some (.quote a)) :
    v.head? = some (.quote a) := by
  cases n with
  | zero => exact h
  | succ n =>
    rw [List.replicate_succ, List.cons_append] at h
    cases h

/-- Gaps are written and recordings end; nothing else happens to the recordings. -/
structure Written (s t : State) : Prop where
  buffer : t.buffer = s.buffer
  history : t.history = s.history
  flight : t.flight = s.flight
  posts : t.posts.Sublist s.posts
  created : t.created = s.created
  records : ∀ r, ∃ n, (t.flights r).records = List.replicate n .gap ++ (s.flights r).records
  createdAt : ∀ r, (t.flights r).setup.createdAt = (s.flights r).setup.createdAt
  final : ∀ r, (s.flights r).final = true → (t.flights r).final = true

namespace Written

theorem live (h : Written s t) (hlive : t.live r) : s.live r := by
  simp only [State.live, decide_eq_true_eq] at hlive ⊢
  obtain ⟨hrole, hfinal⟩ := hlive
  refine ⟨?_, ?_⟩
  · rw [h.flight] at hrole
    exact hrole.imp_right fun hr => h.posts.subset hr
  · by_contra hne
    have htrue := h.final r (by simpa using hne)
    rw [hfinal] at htrue
    cases htrue

theorem exposed (h : Written s t) (hexposed : t.exposed r) : s.exposed r := by
  obtain ⟨a, ha⟩ := hexposed
  obtain ⟨n, hn⟩ := h.records r
  rw [hn] at ha
  exact ⟨a, head_gaps ha⟩

theorem nodup (h : Written s t) (hs : (s.flight.toList ++ s.posts).Nodup) :
    (t.flight.toList ++ t.posts).Nodup := by
  rw [h.flight]
  exact hs.sublist (h.posts.append_left _)

theorem mem (h : Written s t) (hr : r ∈ t.flight.toList ++ t.posts) :
    r ∈ s.flight.toList ++ s.posts := by
  rw [h.flight] at hr
  exact (h.posts.append_left _).subset hr

theorem chain (h : Written s t)
    (hs : (s.flights r).records.IsChain (Joined s.history (s.flights r))) :
    (t.flights r).records.IsChain (Joined t.history (t.flights r)) := by
  obtain ⟨n, hn⟩ := h.records r
  rw [hn, joined_congr (h.createdAt r), h.history]
  exact chain_gaps hs n

theorem behind (h : Written s t) {stream : Option ℕ}
    (hs : Behind s.history stream p (s.flights r).records) :
    Behind t.history stream p (t.flights r).records := by
  obtain ⟨n, hn⟩ := h.records r
  rw [hn, h.history]
  exact fun a ha => hs a (head_gaps ha)

theorem covers (h : Written s t) (hs : Covers s.history (s.flights r) p (s.flights r).records) :
    Covers t.history (t.flights r) p (t.flights r).records := by
  obtain ⟨n, hn⟩ := h.records r
  rw [hn, covers_congr (h.createdAt r), h.history]
  exact fun a ha => hs a (head_gaps ha)

/-- The counts, where the recorder remembers the same of its stream. -/
theorem counted (h : Written s t) (hs : s.Counted) (hstream : t.stream = s.stream)
    (hcursor : t.cursor = s.cursor) (hrecent : t.recent = s.recent) : t.Counted := by
  refine ⟨?_, ?_, ?_, ?_, ?_, ?_, ?_, h.nodup hs.nodup, fun r hr => ?_⟩
  · rw [h.history, h.buffer]
    exact hs.numbered
  · rw [h.history]
    exact hs.distinct
  · rw [h.buffer]
    exact hs.ring
  · rw [h.buffer, h.history]
    exact hs.ringMem
  · rw [h.buffer, hstream, hcursor, hrecent]
    exact hs.stream
  · rw [hstream, hrecent]
    exact hs.noStream
  · rw [hrecent, h.history]
    exact hs.recentMem
  · rw [h.created]
    exact hs.created r (h.mem hr)

theorem trans {u : State} (h : Written s t) (h' : Written t u) : Written s u := by
  refine ⟨h'.buffer.trans h.buffer, h'.history.trans h.history, h'.flight.trans h.flight,
    h'.posts.trans h.posts, h'.created.trans h.created, fun r => ?_,
    fun r => (h'.createdAt r).trans (h.createdAt r), fun r hr => h'.final r (h.final r hr)⟩
  obtain ⟨n, hn⟩ := h.records r
  obtain ⟨m, hm⟩ := h'.records r
  refine ⟨m + n, ?_⟩
  rw [hm, hn, List.replicate_add, List.append_assoc]

end Written

theorem written_refl : Written s s :=
  ⟨rfl, rfl, rfl, List.Sublist.refl _, rfl, fun _ => ⟨0, rfl⟩, fun _ => rfl, fun _ h => h⟩

theorem written_phase (phase : Phase) : Written s { s with phase } :=
  ⟨rfl, rfl, rfl, List.Sublist.refl _, rfl, fun _ => ⟨0, rfl⟩, fun _ => rfl, fun _ h => h⟩

theorem written_setFlight {g : Flight} {n : ℕ}
    (hrecords : g.records = List.replicate n .gap ++ (s.flights r).records)
    (hcreated : g.setup.createdAt = (s.flights r).setup.createdAt)
    (hfinal : (s.flights r).final = true → g.final = true) : Written s (s.setFlight r g) := by
  refine ⟨rfl, rfl, rfl, List.Sublist.refl _, rfl, fun x => ?_, fun x => ?_, fun x => ?_⟩
  all_goals by_cases hx : x = r
  all_goals simp only [State.setFlight]
  · subst hx
    exact ⟨n, by rw [Function.update_self, hrecords]⟩
  · exact ⟨0, by rw [Function.update_of_ne hx]; rfl⟩
  · subst hx
    rw [Function.update_self, hcreated]
  · rw [Function.update_of_ne hx]
  · subst hx
    rw [Function.update_self]
    exact hfinal
  · rw [Function.update_of_ne hx]
    exact id

/-- A gap is written, unless the write fails first or the recording is final. -/
theorem gap_records (f : Flight) (append : Append) :
    ∃ n, (f.gap append).records = List.replicate n .gap ++ f.records ∧
      (f.gap append).setup = f.setup ∧ (f.gap append).final = f.final := by
  rw [Flight.gap]
  split
  · exact ⟨0, rfl, rfl, rfl⟩
  · exact ⟨1, rfl, rfl, rfl⟩

theorem gapActive_written (append : Append) : Written s (s.gapActive append) := by
  rw [State.gapActive]
  cases s.flight with
  | none => exact written_refl
  | some r =>
    obtain ⟨n, hrecords, hsetup, hfinal⟩ := gap_records (s.flights r) append
    exact written_setFlight hrecords (by rw [hsetup]) fun h => hfinal.trans h

/-- Only recordings change. -/
theorem gapActive_eq (append : Append) :
    s.gapActive append = { s with flights := (s.gapActive append).flights } := by
  rw [State.gapActive]
  split <;> rfl

theorem close_written (r : ℕ) (stop : Stop) : Written s (s.close r stop) := by
  obtain ⟨n, hrecords, hsetup, hfinal⟩ := gap_records (s.flights r) .stored
  rw [State.close]
  split
  · refine written_setFlight (n := n) hrecords (by dsimp only; rw [hsetup]) fun h => ?_
    dsimp only
    rw [h]
    rfl
  · refine written_setFlight (n := 0) rfl rfl fun h => ?_
    dsimp only
    rw [h]
    rfl

/-- Once a gap is written the newest record of the active recording is one. -/
theorem gapActive_gap {append : Append} (hok : append ≠ .refused) (hr : s.flight = some r)
    (hlive : (s.flights r).final = false) : ¬ (s.gapActive append).exposed r := by
  rintro ⟨a, ha⟩
  simp [State.gapActive, hr, State.setFlight, hok, Flight.gap, hlive, Flight.writeGaps] at ha

theorem gapActive_exposed {append : Append} (hok : s.activeRaises append = false)
    (hr : s.flight = some r) (hlive : (s.flights r).final = false) :
    ¬ (s.gapActive append).exposed r := by
  have hstored : append = .stored := by
    simpa [State.activeRaises, hr, Flight.gapRaises, hlive] using hok
  exact gapActive_gap (by rw [hstored]; nofun) hr hlive

/-- A step that writes gaps, ends recordings and moves between the parts of the loop. -/
theorem Written.sound (h : Written s t) (hs : s.Sound) (hdue : s.due = []) (hdue' : t.due = [])
    (hcounted : t.Counted)
    (hbehind : ∀ r, t.live r → Behind t.history t.stream t.cursor (t.flights r).records)
    (hcovers : ∀ r, t.live r → (t.phase = .failed → t.flight ≠ some r) →
      Covers t.history (t.flights r) t.cursor (t.flights r).records)
    (hrest : t.RestOf t.phase) : t.Sound := by
  refine ⟨hcounted, fun r => ?_, hbehind, ?_, fun r _ => ?_, fun r hr hfailed => ?_, hrest⟩
  · have hchain := hs.chain r
    rw [virtual_of_due hdue] at hchain
    rw [virtual_of_due hdue']
    exact h.chain hchain
  · rw [hdue']
    exact fun d hd => absurd hd List.not_mem_nil
  · rw [State.dueOf, hdue']
    exact Nat.zero_le 1
  · rw [virtual_of_due hdue']
    exact hcovers r hr hfailed

/-- Such a step at the same place of the stream, where nothing was missing. -/
theorem Written.sound_same (h : Written s t) (hs : s.Sound) (hdue : s.due = []) (hdue' : t.due = [])
    (hphase : s.phase ≠ .failed) (hstream : t.stream = s.stream) (hcursor : t.cursor = s.cursor)
    (hrecent : t.recent = s.recent) (hrest : t.RestOf t.phase) : t.Sound := by
  refine h.sound hs hdue hdue' (h.counted hs.counted hstream hcursor hrecent) (fun r hr => ?_)
    (fun r hr _ => ?_) hrest
  · rw [hstream, hcursor]
    exact h.behind (hs.behind r (h.live hr))
  · have hcovers := hs.covers r (h.live hr) fun hfailed => absurd hfailed hphase
    rw [virtual_of_due hdue] at hcovers
    rw [hcursor]
    exact h.covers hcovers

end ScalpingBot.FlightRecorder
