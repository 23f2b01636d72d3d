import Mathlib.Data.List.Count
import ScalpingBot.Backtest.Tape

/-! Whether the evidence of a recording depends on where it is cut into segments. Inside a segment a
    sample must not be behind the source clock of any sample before it, rejected or not; across segments
    only behind those of the quotes. -/

namespace ScalpingBot.Backtest

open Evaluation (Quote)

/-- A sample of the window with the time of its capture. -/
abbrev Timed := ℤ × Sample

def Timed.quote (x : Timed) : Quote := ⟨x.1, x.2.sourceTime, x.2.bid, x.2.ask⟩

/-- The checks of a sample that do not look at other samples. -/
def Timed.clean (x : Timed) : Bool := x.2.timely x.1 && x.2.whole

/-- The sample of a line, if it is in the window. -/
def Row.windowed (start stop : ℤ) (row : Row) : Option Timed :=
  if start - 3000 ≤ row.capturedAt ∧ row.capturedAt < stop then
    row.sample.toOption.map (row.capturedAt, ·)
  else none

/-- The samples of the window among the lines of a segment. -/
def inWindow (start stop : ℤ) (rows : List Row) : List Timed := rows.filterMap (Row.windowed start stop)

/-- The samples of a segment, each with whether it is clean and not behind the source clock of the
    segment. -/
def flag (previousSource : ℤ) : List Timed → List (Bool × Timed)
  | [] => []
  | x :: rest =>
    (decide (previousSource ≤ x.2.sourceTime) && x.clean, x)
      :: flag (max previousSource x.2.sourceTime) rest

/-- The number of samples at a time. -/
def tied (samples : List Timed) (t : ℤ) : ℕ := samples.countP fun x => x.1 = t

/-! ### The evidence of samples -/

/-- The evidence is that of the samples: the flagged ones that are alone at their times are quotes, the
    times of all others are discontinuities. -/
structure Describes (e : Evidence) (samples : List (Bool × Timed)) : Prop where
  quotes : ∀ q, q ∈ e.quotes ↔
    ∃ x, (true, x) ∈ samples ∧ x.quote = q ∧ tied (samples.map Prod.snd) q.time = 1
  invalid : ∀ t, t ∈ e.invalid ↔
    t ∈ samples.map (fun x => x.2.1) ∧ t ∉ e.quotes.map Quote.time
  nodup : e.invalid.Nodup

theorem describes_nil : Describes {} [] := by
  constructor <;> simp

theorem Describes.known {e : Evidence} {samples : List (Bool × Timed)} (h : Describes e samples)
    (t : ℤ) : (t ∈ e.quotes.map Quote.time ∨ t ∈ e.invalid) ↔ t ∈ samples.map (fun x => x.2.1) := by
  rw [h.invalid]
  by_cases hquote : t ∈ e.quotes.map Quote.time
  · refine ⟨fun _ => ?_, fun _ => .inl hquote⟩
    obtain ⟨q, hq, rfl⟩ := List.mem_map.mp hquote
    obtain ⟨x, hx, rfl, -⟩ := (h.quotes q).mp hq
    exact List.mem_map.mpr ⟨_, hx, rfl⟩
  · simp [hquote]

theorem tied_eq_zero {samples : List Timed} {t : ℤ} :
    tied samples t = 0 ↔ t ∉ samples.map Prod.fst := by
  rw [tied, List.countP_eq_zero]
  constructor
  · intro h hmem
    obtain ⟨x, hx, rfl⟩ := List.mem_map.mp hmem
    exact h x hx (by simp)
  · intro h x hx heq
    exact h (List.mem_map.mpr ⟨x, hx, by simpa using heq⟩)

theorem tied_append (a b : List Timed) (t : ℤ) : tied (a ++ b) t = tied a t + tied b t :=
  List.countP_append

theorem tied_singleton (x : Timed) (t : ℤ) : tied [x] t = if x.1 = t then 1 else 0 := by
  simp [tied, List.countP_cons]

/-- A sample is accepted exactly if it is clean, not behind the clock and the first at its time. -/
theorem rejection_eq_none {previousSource : ℤ} {e : Evidence} {x : Timed} :
    rejection previousSource e x.1 x.2 = none ↔
      (decide (previousSource ≤ x.2.sourceTime) && x.clean) = true ∧
        ¬ (x.1 ∈ e.quotes.map Quote.time ∨ x.1 ∈ e.invalid) := by
  rw [rejection, Timed.clean, Bool.and_eq_true, Bool.and_eq_true, decide_eq_true_eq]
  by_cases hbehind : x.2.sourceTime < previousSource
  · rw [if_pos (.inl hbehind)]
    simp [hbehind.not_ge]
  · have hclock : previousSource ≤ x.2.sourceTime := not_lt.mp hbehind
    by_cases htimely : x.2.timely x.1
    · rw [if_neg (by simp [hbehind, htimely])]
      by_cases hwhole : x.2.whole
      · rw [if_neg (by simp [hwhole])]
        by_cases hknown : x.1 ∈ e.quotes.map Quote.time ∨ x.1 ∈ e.invalid
        · rw [if_pos hknown]
          exact iff_of_false (by simp) fun h => h.2 hknown
        · rw [if_neg hknown]
          exact iff_of_true rfl ⟨⟨hclock, htimely, hwhole⟩, hknown⟩
      · rw [if_pos (by simp [hwhole])]
        exact iff_of_false (by simp) fun h => hwhole h.1.2.2
    · rw [if_pos (by simp [htimely])]
      exact iff_of_false (by simp) fun h => htimely h.1.2.1

/-- Samples with one more, that is flagged or not. -/
theorem tied_concat (samples : List (Bool × Timed)) (flagged : Bool) (x : Timed) (t : ℤ) :
    tied ((samples ++ [(flagged, x)]).map Prod.snd) t
      = tied (samples.map Prod.snd) t + if x.1 = t then 1 else 0 := by
  rw [List.map_append, tied_append, List.map_cons, List.map_nil, tied_singleton]

theorem time_mem_concat (samples : List (Bool × Timed)) (flagged : Bool) (x : Timed) (t : ℤ) :
    t ∈ (samples ++ [(flagged, x)]).map (fun y => y.2.1) ↔
      t ∈ samples.map (fun y => y.2.1) ∨ t = x.1 := by
  rw [List.map_append, List.mem_append, List.map_cons, List.map_nil, List.mem_singleton]

theorem Describes.accept {e : Evidence} {samples : List (Bool × Timed)} (h : Describes e samples)
    {x : Timed} (hnew : ¬ (x.1 ∈ e.quotes.map Quote.time ∨ x.1 ∈ e.invalid)) :
    Describes (e.accept x.quote) (samples ++ [(true, x)]) := by
  have hfirst : x.1 ∉ samples.map (fun y => y.2.1) := fun hmem => hnew ((h.known x.1).mpr hmem)
  have halone : tied (samples.map Prod.snd) x.1 = 0 := by
    rw [tied_eq_zero, List.map_map]
    exact hfirst
  have hquotes : ∀ q, q ∈ (e.accept x.quote).quotes ↔ q ∈ e.quotes ∨ q = x.quote := by
    intro q
    simp only [Evidence.accept, List.mem_append, List.mem_filter, List.mem_singleton,
      decide_eq_true_eq]
    constructor
    · rintro (⟨hq, -⟩ | rfl)
      · exact .inl hq
      · exact .inr rfl
    · rintro (hq | rfl)
      · exact .inl ⟨hq, fun heq => hnew (.inl (List.mem_map.mpr ⟨q, hq, heq⟩))⟩
      · exact .inr rfl
  refine ⟨fun q => ?_, fun t => ?_, h.nodup⟩
  · rw [hquotes, tied_concat, h.quotes]
    constructor
    · rintro (⟨y, hy, rfl, hone⟩ | rfl)
      · have hne : x.1 ≠ y.quote.time := by
          rintro heq
          rw [← heq, halone] at hone
          cases hone
        exact ⟨y, List.mem_append_left _ hy, rfl, by rw [hone, if_neg hne]⟩
      · refine ⟨x, by simp, rfl, ?_⟩
        have hself : x.1 = x.quote.time := rfl
        rw [if_pos hself, ← hself, halone]
    · rintro ⟨y, hy, rfl, hone⟩
      rcases List.mem_append.mp hy with hy | hy
      · have hne : x.1 ≠ y.quote.time := by
          rintro heq
          exact hfirst (List.mem_map.mpr ⟨_, hy, heq.symm⟩)
        rw [if_neg hne, Nat.add_zero] at hone
        exact .inl ⟨y, hy, rfl, hone⟩
      · simp only [List.mem_singleton, Prod.mk.injEq, true_and] at hy
        rw [hy]
        exact .inr rfl
  · have htimes : t ∈ (e.accept x.quote).quotes.map Quote.time ↔
        t ∈ e.quotes.map Quote.time ∨ t = x.1 := by
      simp only [List.mem_map, hquotes]
      constructor
      · rintro ⟨q, hq | rfl, rfl⟩
        · exact .inl ⟨q, hq, rfl⟩
        · exact .inr rfl
      · rintro (⟨q, hq, rfl⟩ | rfl)
        · exact ⟨q, .inl hq, rfl⟩
        · exact ⟨x.quote, .inr rfl, rfl⟩
    rw [htimes, time_mem_concat]
    refine (h.invalid t).trans ?_
    constructor
    · rintro ⟨hmem, hquote⟩
      refine ⟨.inl hmem, ?_⟩
      rintro (hmem' | rfl)
      · exact hquote hmem'
      · exact hfirst hmem
    · rintro ⟨hmem | rfl, hquote⟩
      · exact ⟨hmem, fun h => hquote (.inl h)⟩
      · exact absurd (.inr rfl) hquote

theorem Describes.reject {e : Evidence} {samples : List (Bool × Timed)} (h : Describes e samples)
    {x : Timed} {flagged : Bool} (reason : String)
    (hknown : flagged = true → x.1 ∈ e.quotes.map Quote.time ∨ x.1 ∈ e.invalid) :
    Describes (e.reject x.1 reason) (samples ++ [(flagged, x)]) := by
  have hquotes : ∀ q, q ∈ (e.reject x.1 reason).quotes ↔ q ∈ e.quotes ∧ q.time ≠ x.1 := by
    intro q
    simp only [Evidence.reject, List.mem_filter, decide_eq_true_eq]
  refine ⟨fun q => ?_, fun t => ?_, h.nodup.insert⟩
  · rw [hquotes, tied_concat, h.quotes]
    constructor
    · rintro ⟨⟨y, hy, rfl, hone⟩, hne⟩
      exact ⟨y, List.mem_append_left _ hy, rfl, by rw [hone, if_neg hne.symm]⟩
    · rintro ⟨y, hy, rfl, hone⟩
      have hmem : flagged = true ∧ x = y ∨ (true, y) ∈ samples := by
        rcases List.mem_append.mp hy with hy | hy
        · exact .inr hy
        · simp only [List.mem_singleton, Prod.mk.injEq] at hy
          exact .inl ⟨hy.1.symm, hy.2.symm⟩
      by_cases heq : x.1 = y.quote.time
      · rw [if_pos heq] at hone
        have hnone : tied (samples.map Prod.snd) y.quote.time = 0 := by omega
        rw [tied_eq_zero, List.map_map] at hnone
        refine absurd ?_ hnone
        rcases hmem with ⟨hflagged, rfl⟩ | hy
        · exact (h.known _).mp (hknown hflagged)
        · exact List.mem_map.mpr ⟨_, hy, rfl⟩
      · rw [if_neg heq, Nat.add_zero] at hone
        rcases hmem with ⟨-, rfl⟩ | hy
        · exact absurd rfl heq
        · exact ⟨⟨y, hy, rfl, hone⟩, fun h => heq h.symm⟩
  · have htimes : t ∈ (e.reject x.1 reason).quotes.map Quote.time ↔
        t ∈ e.quotes.map Quote.time ∧ t ≠ x.1 := by
      simp only [List.mem_map, hquotes]
      constructor
      · rintro ⟨q, ⟨hq, hne⟩, rfl⟩
        exact ⟨⟨q, hq, rfl⟩, hne⟩
      · rintro ⟨⟨q, hq, rfl⟩, hne⟩
        exact ⟨q, ⟨hq, hne⟩, rfl⟩
    rw [htimes, time_mem_concat]
    have hinsert : t ∈ (e.reject x.1 reason).invalid ↔ t = x.1 ∨ t ∈ e.invalid :=
      List.mem_insert_iff
    rw [hinsert, h.invalid]
    by_cases heq : t = x.1
    · simp [heq]
    · simp [heq]

/-- One sample more. -/
theorem Describes.takeSample {e : Evidence} {samples : List (Bool × Timed)}
    (h : Describes e samples) (previousSource : ℤ) (x : Timed) :
    Describes (takeSample previousSource e x.1 x.2)
      (samples ++ [(decide (previousSource ≤ x.2.sourceTime) && x.clean, x)]) := by
  rw [Backtest.takeSample]
  cases hreason : rejection previousSource e x.1 x.2 with
  | none =>
    obtain ⟨hflag, hnew⟩ := rejection_eq_none.mp hreason
    rw [hflag]
    exact h.accept hnew
  | some reason =>
    refine h.reject reason fun hflag => ?_
    by_contra hnew
    rw [rejection_eq_none.mpr ⟨hflag, hnew⟩] at hreason
    cases hreason

/-! ### The evidence of segments -/

section

variable {start stop : ℤ}

theorem inWindow_cons (row : Row) (rows : List Row) :
    inWindow start stop (row :: rows) = inWindow start stop [row] ++ inWindow start stop rows := by
  rw [inWindow, ← List.singleton_append, List.filterMap_append]
  rfl

/-- What one line of a segment adds to the evidence. -/
theorem readRow_describes {segmentStart segmentEnd : ℤ} {r r' : Reading} {row : Row}
    {samples : List (Bool × Timed)} (h : Describes r.evidence samples)
    (hread : readRow start stop segmentStart segmentEnd r row = .ok r') :
    Describes r'.evidence (samples ++ flag r.previousSource (inWindow start stop [row])) ∧
      ∀ rest, flag r.previousSource (inWindow start stop [row] ++ rest)
        = flag r.previousSource (inWindow start stop [row]) ++ flag r'.previousSource rest := by
  simp only [readRow, bind_ok, require_ok] at hread
  obtain ⟨-, -, -, -, hread⟩ := hread
  split at hread
  · rename_i houtside
    rw [pure_ok] at hread
    subst hread
    have hnone : inWindow start stop [row] = [] := by
      rw [inWindow, List.filterMap_cons, Row.windowed, if_neg (by simpa using houtside)]
      rfl
    rw [hnone]
    exact ⟨by simpa [flag] using h, fun rest => rfl⟩
  · rename_i hinside
    simp only [bind_ok, require_ok, pure_ok] at hread
    obtain ⟨-, -, s, hs, -, -, rfl⟩ := hread
    have hone : inWindow start stop [row] = [(row.capturedAt, s)] := by
      rw [inWindow, List.filterMap_cons, Row.windowed, if_pos (by simpa using hinside), hs]
      rfl
    rw [hone]
    exact ⟨h.takeSample r.previousSource (row.capturedAt, s), fun rest => rfl⟩

theorem readRows_describes {segmentStart segmentEnd : ℤ} {r r' : Reading} {rows : List Row}
    {samples : List (Bool × Timed)} (h : Describes r.evidence samples)
    (hread : rows.foldlM (readRow start stop segmentStart segmentEnd) r = .ok r') :
    Describes r'.evidence (samples ++ flag r.previousSource (inWindow start stop rows)) := by
  induction rows generalizing r samples with
  | nil =>
    cases hread
    simpa [inWindow, flag] using h
  | cons row rest ih =>
    rw [List.foldlM_cons, bind_ok] at hread
    obtain ⟨next, hnext, hrest⟩ := hread
    obtain ⟨hdescribes, hflag⟩ := readRow_describes h hnext
    rw [inWindow_cons, hflag, ← List.append_assoc]
    exact ih hdescribes hrest

/-- The lines of a sealed segment were captured in the time of its manifest. -/
def Ranged (file : SegmentFile) : Prop :=
  ∃ m, file.manifest = some m ∧
    ∀ row ∈ file.rows, m.startedAt ≤ row.capturedAt ∧ row.capturedAt ≤ m.completedAt

/-- The samples that a segment adds. -/
def flagged (start stop : ℤ) (file : SegmentFile) : List (Bool × Timed) :=
  flag (-1) (inWindow start stop file.rows)

theorem inWindow_eq_nil {rows : List Row}
    (h : ∀ row ∈ rows, ¬ (start - 3000 ≤ row.capturedAt ∧ row.capturedAt < stop)) :
    inWindow start stop rows = [] := by
  refine List.filterMap_eq_nil_iff.mpr fun row hrow => ?_
  rw [Row.windowed, if_neg (h row hrow)]

/-- What one segment adds to the evidence, where its bytes are new. -/
theorem readFile_describes {l l' : Loading} {file : SegmentFile} {samples : List (Bool × Timed)}
    (h : Describes l.evidence samples) (hranged : Ranged file)
    (hnew : l.identities.lookup file.digest = none)
    (hread : readFile start stop l file = .ok l') :
    Describes l'.evidence (samples ++ flagged start stop file) ∧
      ∀ digest, digest ≠ file.digest → l.identities.lookup digest = none →
        l'.identities.lookup digest = none := by
  obtain ⟨m, hm, hrows⟩ := hranged
  simp only [readFile, hm] at hread
  split at hread
  · cases hread
  · split at hread
    · rename_i houtside
      cases hread
      rw [flagged, inWindow_eq_nil]
      · exact ⟨by simpa [flag] using h, fun _ _ h => h⟩
      · rintro row hrow ⟨hlow, hhigh⟩
        obtain ⟨hfirst, hlast⟩ := hrows row hrow
        omega
    · simp only [openSegment, bind_ok, require_ok, hnew] at hread
      obtain ⟨-, -, -, -, -, -, hread⟩ := hread
      simp only [readSegment, bind_ok, require_ok, pure_ok] at hread
      obtain ⟨-, -, r, hr, -, -, rfl⟩ := hread
      refine ⟨readRows_describes h hr, fun digest hne hnone => ?_⟩
      rw [List.lookup_cons, beq_eq_false_iff_ne.mpr hne]
      exact hnone

theorem readFiles_describes {l l' : Loading} {files : List SegmentFile}
    {samples : List (Bool × Timed)} (h : Describes l.evidence samples)
    (hranged : ∀ f ∈ files, Ranged f) (hdistinct : (files.map SegmentFile.digest).Nodup)
    (hnew : ∀ f ∈ files, l.identities.lookup f.digest = none)
    (hread : files.foldlM (readFile start stop) l = .ok l') :
    Describes l'.evidence (samples ++ files.flatMap (flagged start stop)) := by
  induction files generalizing l samples with
  | nil =>
    cases hread
    simpa using h
  | cons file rest ih =>
    rw [List.foldlM_cons, bind_ok] at hread
    obtain ⟨next, hnext, hrest⟩ := hread
    rw [List.map_cons, List.nodup_cons] at hdistinct
    obtain ⟨hdescribes, hidentities⟩ := readFile_describes h (hranged file (by simp))
      (hnew file (by simp)) hnext
    rw [List.flatMap_cons, ← List.append_assoc]
    refine ih hdescribes (fun f hf => hranged f (by simp [hf])) hdistinct.2 (fun f hf => ?_) hrest
    refine hidentities f.digest ?_ (hnew f (by simp [hf]))
    rintro heq
    exact hdistinct.1 (List.mem_map.mpr ⟨f, hf, heq⟩)

end

/-! ### The tape of the evidence -/

theorem splitRegressions_perm (previousSource : ℤ) (quotes : List Quote) :
    ((splitRegressions previousSource quotes).1 ++ (splitRegressions previousSource quotes).2).Perm
      quotes := by
  induction quotes generalizing previousSource with
  | nil => exact .refl _
  | cons first rest ih =>
    simp only [splitRegressions]
    split
    · exact List.perm_middle.trans ((ih _).cons first)
    · exact (ih _).cons first

/-- A quote is kept if none before it has a later source clock. -/
theorem mem_splitRegressions {quotes : List Quote} {previousSource : ℤ}
    (hsorted : quotes.Pairwise fun a b => a.time < b.time) (q : Quote) :
    q ∈ (splitRegressions previousSource quotes).1 ↔
      q ∈ quotes ∧ previousSource ≤ q.sourceTime ∧
        ∀ r ∈ quotes, r.time < q.time → r.sourceTime ≤ q.sourceTime := by
  induction quotes generalizing previousSource with
  | nil => simp [splitRegressions]
  | cons first rest ih =>
    rw [List.pairwise_cons] at hsorted
    obtain ⟨hfirst, hrest⟩ := hsorted
    have hkept : q ∈ rest → (max previousSource first.sourceTime ≤ q.sourceTime ↔
        previousSource ≤ q.sourceTime ∧ (first.time < q.time → first.sourceTime ≤ q.sourceTime)) := by
      intro hq
      rw [max_le_iff]
      simp [hfirst q hq]
    simp only [splitRegressions]
    split
    · rename_i hbehind
      rw [ih hrest]
      constructor
      · rintro ⟨hq, hclock, hbefore⟩
        obtain ⟨hclock, hhead⟩ := (hkept hq).mp hclock
        exact ⟨List.mem_cons_of_mem _ hq, hclock, List.forall_mem_cons.mpr ⟨hhead, hbefore⟩⟩
      · rintro ⟨hq, hclock, hbefore⟩
        obtain ⟨hhead, hbefore⟩ := List.forall_mem_cons.mp hbefore
        rcases List.mem_cons.mp hq with rfl | hq
        · omega
        · exact ⟨hq, (hkept hq).mpr ⟨hclock, hhead⟩, hbefore⟩
    · rename_i hclock
      rw [List.mem_cons, ih hrest]
      constructor
      · rintro (rfl | ⟨hq, hclock, hbefore⟩)
        · refine ⟨List.mem_cons_self, not_lt.mp hclock, List.forall_mem_cons.mpr ⟨fun h => ?_, ?_⟩⟩
          · exact absurd h (lt_irrefl _)
          · intro r hr hlt
            exact absurd hlt (hfirst r hr).not_gt
        · obtain ⟨hclock, hhead⟩ := (hkept hq).mp hclock
          exact ⟨List.mem_cons_of_mem _ hq, hclock, List.forall_mem_cons.mpr ⟨hhead, hbefore⟩⟩
      · rintro ⟨hq, hclock, hbefore⟩
        obtain ⟨hhead, hbefore⟩ := List.forall_mem_cons.mp hbefore
        rcases List.mem_cons.mp hq with rfl | hq
        · exact .inl rfl
        · exact .inr ⟨hq, (hkept hq).mpr ⟨hclock, hhead⟩, hbefore⟩

theorem mem_ordered {e : Evidence} {q : Quote} : q ∈ e.ordered ↔ q ∈ e.quotes :=
  (List.perm_insertionSort _ _).mem_iff

theorem mem_tape_quotes (l : Loading) (q : Quote) :
    q ∈ l.tape.quotes ↔ q ∈ l.evidence.quotes ∧ -1 ≤ q.sourceTime ∧
      ∀ r ∈ l.evidence.quotes, r.time < q.time → r.sourceTime ≤ q.sourceTime := by
  rw [Loading.tape, mem_splitRegressions l.evidence.ordered_pairwise]
  simp only [mem_ordered]

theorem mem_foldl_insert (quotes : List Quote) (invalid : List ℤ) (t : ℤ) :
    t ∈ quotes.foldl (fun invalid q => invalid.insert q.time) invalid ↔
      t ∈ invalid ∨ t ∈ quotes.map Quote.time := by
  induction quotes generalizing invalid with
  | nil => simp
  | cons q rest ih =>
    rw [List.foldl_cons, ih, List.mem_insert_iff, List.map_cons, List.mem_cons]
    tauto

theorem nodup_foldl_insert (quotes : List Quote) {invalid : List ℤ} (h : invalid.Nodup) :
    (quotes.foldl (fun invalid q => invalid.insert q.time) invalid).Nodup := by
  induction quotes generalizing invalid with
  | nil => exact h
  | cons q rest ih => exact ih h.insert

/-- The discontinuities of a tape are the times of all samples that are no quotes of it. -/
theorem mem_tape_invalid {l : Loading} {samples : List (Bool × Timed)}
    (h : Describes l.evidence samples) (t : ℤ) :
    t ∈ l.tape.invalid ↔
      t ∈ samples.map (fun x => x.2.1) ∧ t ∉ l.tape.quotes.map Quote.time := by
  have hperm := splitRegressions_perm (-1) l.evidence.ordered
  have hinvalid : t ∈ l.tape.invalid ↔ t ∈ l.evidence.invalid ∨
      t ∈ (splitRegressions (-1) l.evidence.ordered).2.map Quote.time :=
    (List.perm_insertionSort _ _).mem_iff.trans (mem_foldl_insert _ _ t)
  have hnodup : (((splitRegressions (-1) l.evidence.ordered).1
      ++ (splitRegressions (-1) l.evidence.ordered).2).map Quote.time).Nodup := by
    refine ((hperm.map Quote.time).trans ?_).nodup_iff.mpr l.evidence.distinct
    exact (List.perm_insertionSort _ _).map Quote.time
  have hmem : t ∈ l.evidence.quotes.map Quote.time ↔
      t ∈ l.tape.quotes.map Quote.time ∨
        t ∈ (splitRegressions (-1) l.evidence.ordered).2.map Quote.time := by
    rw [← List.mem_append, Loading.tape, ← List.map_append]
    refine (((hperm.map Quote.time).trans ?_).mem_iff).symm
    exact (List.perm_insertionSort _ _).map Quote.time
  rw [List.map_append, List.nodup_append] at hnodup
  have hdisjoint : t ∈ l.tape.quotes.map Quote.time →
      t ∉ (splitRegressions (-1) l.evidence.ordered).2.map Quote.time :=
    fun hvalid hregressed => hnodup.2.2 t hvalid t hregressed rfl
  have hknown := h.known t
  have hsplit := h.invalid t
  rw [hinvalid]
  tauto

theorem tape_invalid_pairwise {l : Loading} {samples : List (Bool × Timed)}
    (h : Describes l.evidence samples) : l.tape.invalid.Pairwise (· < ·) := by
  have hnodup : l.tape.invalid.Nodup :=
    (List.perm_insertionSort _ _).nodup_iff.mpr (nodup_foldl_insert _ h.nodup)
  exact (l.tape.sorted.and hnodup).imp fun h => lt_of_le_of_ne h.1 h.2

/-! ### Cuts -/

/-- Files that cut a sequence of lines into consecutive sealed segments with distinct bytes and times
    that do not overlap. -/
structure IsCut (files : List SegmentFile) (rows : List Row) : Prop where
  ranged : ∀ f ∈ files, Ranged f
  distinct : (files.map SegmentFile.digest).Nodup
  consecutive : ∃ ordered : List SegmentFile, ordered.Perm files ∧
    (ordered.map SegmentFile.rows).flatten = rows ∧
    ordered.Pairwise fun a b =>
      ∀ m ∈ a.manifest, ∀ m' ∈ b.manifest, m.completedAt ≤ m'.startedAt

/-- A sample that only other samples' clocks can keep from being evidence. -/
def Good (samples : List Timed) (x : Timed) : Prop :=
  x ∈ samples ∧ x.clean ∧ -1 ≤ x.2.sourceTime ∧ tied samples x.1 = 1

/-- No sample before has a later source clock. -/
def Record (samples : List Timed) (x : Timed) : Prop :=
  ∀ y ∈ samples, y.1 < x.1 → y.2.sourceTime ≤ x.2.sourceTime

/-- Every good sample is a record or lies below a good record before it. -/
def Steady (samples : List Timed) : Prop :=
  ∀ x, Good samples x → Record samples x ∨
    ∃ r, Good samples r ∧ Record samples r ∧ r.1 < x.1 ∧ x.2.sourceTime < r.2.sourceTime

/-- A good sample that is a record of its segment. -/
def Kept (start stop : ℤ) (files : List SegmentFile) (samples : List Timed) (x : Timed) : Prop :=
  Good samples x ∧
    ∃ f ∈ files, x ∈ inWindow start stop f.rows ∧ Record (inWindow start stop f.rows) x

theorem flag_map_snd (previousSource : ℤ) (samples : List Timed) :
    (flag previousSource samples).map Prod.snd = samples := by
  induction samples generalizing previousSource with
  | nil => rfl
  | cons x rest ih => rw [flag, List.map_cons, ih]

theorem tied_cons (x : Timed) (samples : List Timed) (t : ℤ) :
    tied (x :: samples) t = (if x.1 = t then 1 else 0) + tied samples t := by
  rw [← List.singleton_append, tied_append, tied_singleton]

theorem tied_pos {samples : List Timed} {x : Timed} (h : x ∈ samples) : 0 < tied samples x.1 :=
  List.countP_pos_iff.mpr ⟨x, h, by simp⟩

/-- A sample that is alone at its time is flagged if it is clean and no sample before it in the segment
    has a later clock. -/
theorem mem_flag {samples : List Timed} {previousSource : ℤ} {x : Timed}
    (hsorted : samples.Pairwise fun a b => a.1 ≤ b.1) (halone : tied samples x.1 = 1) :
    (true, x) ∈ flag previousSource samples ↔
      x ∈ samples ∧ x.clean ∧ previousSource ≤ x.2.sourceTime ∧ Record samples x := by
  induction samples generalizing previousSource with
  | nil => simp [flag]
  | cons first rest ih =>
    rw [List.pairwise_cons] at hsorted
    obtain ⟨hfirst, hrest⟩ := hsorted
    rw [tied_cons] at halone
    rw [flag, List.mem_cons]
    by_cases htime : first.1 = x.1
    · rw [if_pos htime] at halone
      have hnone : tied rest x.1 = 0 := by omega
      have hrest' : x ∉ rest := fun hmem => by
        have := tied_pos hmem
        omega
      have hflag : (true, x) ∉ flag (max previousSource first.2.sourceTime) rest := by
        intro hmem
        refine hrest' ?_
        rw [← flag_map_snd (max previousSource first.2.sourceTime) rest]
        exact List.mem_map.mpr ⟨_, hmem, rfl⟩
      simp only [hflag, or_false, Prod.mk.injEq, List.mem_cons, hrest']
      constructor
      · rintro ⟨hclean, rfl⟩
        rw [eq_comm, Bool.and_eq_true, decide_eq_true_eq] at hclean
        refine ⟨rfl, hclean.2, hclean.1, List.forall_mem_cons.mpr ⟨fun h => ?_, ?_⟩⟩
        · exact absurd h (lt_irrefl _)
        · intro y hy hlt
          exact absurd hlt (hfirst y hy).not_gt
      · rintro ⟨rfl, hclean, hclock, -⟩
        simp [hclean, hclock]
    · rw [if_neg htime, Nat.zero_add] at halone
      have hne : x ≠ first := fun h => htime (h ▸ rfl)
      have hhead : ¬ (true, x)
          = (decide (previousSource ≤ first.2.sourceTime) && first.clean, first) := by
        simp [hne]
      simp only [hhead, false_or, ih hrest halone, List.mem_cons, hne, max_le_iff]
      constructor
      · rintro ⟨hmem, hclean, ⟨hclock, hfirst'⟩, hrecord⟩
        exact ⟨hmem, hclean, hclock, List.forall_mem_cons.mpr ⟨fun _ => hfirst', hrecord⟩⟩
      · rintro ⟨hmem, hclean, hclock, hrecord⟩
        obtain ⟨hhead, hrecord⟩ := List.forall_mem_cons.mp hrecord
        exact ⟨hmem, hclean, ⟨hclock, hhead (lt_of_le_of_ne (hfirst x hmem) htime)⟩, hrecord⟩

section

variable {start stop : ℤ} {files : List SegmentFile} {rows : List Row}

theorem inWindow_flatten (lists : List (List Row)) :
    inWindow start stop lists.flatten = (lists.map (inWindow start stop)).flatten := by
  rw [inWindow, List.filterMap_flatten]
  rfl

theorem IsCut.samples (h : IsCut files rows) :
    ((files.flatMap (flagged start stop)).map Prod.snd).Perm (inWindow start stop rows) := by
  obtain ⟨ordered, hperm, rfl, -⟩ := h.consecutive
  have hflagged : (files.flatMap (flagged start stop)).map Prod.snd
      = (files.map fun f => inWindow start stop f.rows).flatten := by
    rw [List.flatMap_def, List.map_flatten, List.map_map]
    congr 1
    refine List.map_congr_left fun f _ => ?_
    exact flag_map_snd _ _
  rw [hflagged, inWindow_flatten, List.map_map]
  exact (hperm.symm.map _).flatten

theorem IsCut.sublist (h : IsCut files rows) {f : SegmentFile} (hf : f ∈ files) :
    f.rows.Sublist rows := by
  obtain ⟨ordered, hperm, rfl, -⟩ := h.consecutive
  exact List.sublist_flatten_of_mem (List.mem_map.mpr ⟨f, hperm.mem_iff.mpr hf, rfl⟩)

theorem windowed_time {row : Row} {x : Timed} (h : row.windowed start stop = some x) :
    x.1 = row.capturedAt := by
  rw [Row.windowed] at h
  split at h
  · obtain ⟨s, -, rfl⟩ := Option.map_eq_some_iff.mp h
    rfl
  · cases h

theorem inWindow_pairwise (hsorted : rows.Pairwise fun a b => a.capturedAt ≤ b.capturedAt) :
    (inWindow start stop rows).Pairwise fun a b => a.1 ≤ b.1 := by
  refine hsorted.filterMap _ fun a b hle x hx y hy => ?_
  rw [windowed_time hx, windowed_time hy]
  exact hle

/-- A file's samples are samples of the whole. -/
theorem IsCut.window_sublist (h : IsCut files rows) {f : SegmentFile} (hf : f ∈ files) :
    (inWindow start stop f.rows).Sublist (inWindow start stop rows) :=
  (h.sublist hf).filterMap _

theorem tied_le {a b : List Timed} (h : a.Sublist b) (t : ℤ) : tied a t ≤ tied b t :=
  h.countP_le

/-- The quotes that the segments of a cut give evidence of. -/
theorem IsCut.mem_quotes (h : IsCut files rows)
    (hsorted : rows.Pairwise fun a b => a.capturedAt ≤ b.capturedAt) {e : Evidence}
    (he : Describes e (files.flatMap (flagged start stop))) (q : Quote) :
    q ∈ e.quotes ↔ ∃ x, Kept start stop files (inWindow start stop rows) x ∧ x.quote = q := by
  have htied : ∀ t, tied ((files.flatMap (flagged start stop)).map Prod.snd) t
      = tied (inWindow start stop rows) t := fun t => h.samples.countP_eq _
  rw [he.quotes]
  refine exists_congr fun x => ?_
  rw [htied]
  have hflag : ∀ f ∈ files, tied (inWindow start stop rows) x.1 = 1 →
      ((true, x) ∈ flagged start stop f ↔ x ∈ inWindow start stop f.rows ∧ x.clean ∧
        -1 ≤ x.2.sourceTime ∧ Record (inWindow start stop f.rows) x) := by
    intro f hf hone
    by_cases hmem : x ∈ inWindow start stop f.rows
    · have halone : tied (inWindow start stop f.rows) x.1 = 1 := by
        have hpos := tied_pos hmem
        have hle : tied _ x.1 ≤ tied (inWindow start stop rows) x.1 :=
          tied_le (h.window_sublist hf) x.1
        omega
      exact mem_flag (inWindow_pairwise (hsorted.sublist (h.sublist hf))) halone
    · refine iff_of_false (fun hflag => hmem ?_) fun h => hmem h.1
      rw [← flag_map_snd (-1) (inWindow start stop f.rows)]
      exact List.mem_map.mpr ⟨_, hflag, rfl⟩
  constructor
  · rintro ⟨hmem, rfl, hone⟩
    obtain ⟨f, hf, hmem⟩ := List.mem_flatMap.mp hmem
    obtain ⟨hwindow, hclean, hclock, hrecord⟩ := (hflag f hf hone).mp hmem
    exact ⟨⟨⟨(h.window_sublist hf).subset hwindow, hclean, hclock, hone⟩, f, hf, hwindow, hrecord⟩,
      rfl⟩
  · rintro ⟨⟨⟨-, hclean, hclock, hone⟩, f, hf, hwindow, hrecord⟩, rfl⟩
    refine ⟨List.mem_flatMap.mpr ⟨f, hf, ?_⟩, rfl, hone⟩
    exact (hflag f hf hone).mpr ⟨hwindow, hclean, hclock, hrecord⟩

/-- A sample that becomes a quote of the tape. -/
def Final (start stop : ℤ) (files : List SegmentFile) (samples : List Timed) (x : Timed) : Prop :=
  Kept start stop files samples x ∧
    ∀ y, Kept start stop files samples y → y.1 < x.1 → y.2.sourceTime ≤ x.2.sourceTime

/-- What `load_tape` makes of the segments of a cut. -/
theorem loadTape_spec (h : IsCut files rows)
    (hsorted : rows.Pairwise fun a b => a.capturedAt ≤ b.capturedAt) {tape : Tape}
    (hload : loadTape start stop files = .ok tape) :
    (∀ q, q ∈ tape.quotes ↔ ∃ x, Final start stop files (inWindow start stop rows) x ∧ x.quote = q) ∧
    (∀ t, t ∈ tape.invalid ↔
      t ∈ (inWindow start stop rows).map Prod.fst ∧ t ∉ tape.quotes.map Quote.time) ∧
    tape.invalid.Pairwise (· < ·) := by
  simp only [loadTape, bind_ok, pure_ok] at hload
  obtain ⟨l, hl, rfl⟩ := hload
  have hdescribes : Describes l.evidence (files.flatMap (flagged start stop)) := by
    have := readFiles_describes (l := {}) describes_nil h.ranged h.distinct (fun _ _ => rfl) hl
    simpa using this
  refine ⟨fun q => ?_, fun t => ?_, tape_invalid_pairwise hdescribes⟩
  · rw [mem_tape_quotes]
    simp only [h.mem_quotes hsorted hdescribes]
    constructor
    · rintro ⟨⟨x, hkept, rfl⟩, -, hbefore⟩
      exact ⟨x, ⟨hkept, fun y hy hlt => hbefore y.quote ⟨y, hy, rfl⟩ hlt⟩, rfl⟩
    · rintro ⟨x, ⟨hkept, hbefore⟩, rfl⟩
      refine ⟨⟨x, hkept, rfl⟩, hkept.1.2.2.1, ?_⟩
      rintro r ⟨y, hy, rfl⟩ hlt
      exact hbefore y hy hlt
  · rw [mem_tape_invalid hdescribes]
    have htimes : (files.flatMap (flagged start stop)).map (fun x => x.2.1)
        = ((files.flatMap (flagged start stop)).map Prod.snd).map Prod.fst := by
      rw [List.map_map]
      rfl
    rw [htimes, (h.samples.map Prod.fst).mem_iff]

/-! ### Which recordings do not depend on their cut -/

/-- A good record is kept by every cut. -/
theorem IsCut.kept (h : IsCut files rows) {x : Timed} (hgood : Good (inWindow start stop rows) x)
    (hrecord : Record (inWindow start stop rows) x) :
    Kept start stop files (inWindow start stop rows) x := by
  refine ⟨hgood, ?_⟩
  obtain ⟨ordered, hperm, hrows, -⟩ := h.consecutive
  have hmem := hgood.1
  rw [← hrows, inWindow_flatten, List.mem_flatten] at hmem
  obtain ⟨window, hwindow, hx⟩ := hmem
  rw [List.map_map] at hwindow
  obtain ⟨f, hf, rfl⟩ := List.mem_map.mp hwindow
  have hf := hperm.mem_iff.mp hf
  exact ⟨f, hf, hx, fun y hy hlt => hrecord y ((h.window_sublist hf).subset hy) hlt⟩

theorem final_iff (h : IsCut files rows) (hsteady : Steady (inWindow start stop rows)) (x : Timed) :
    Final start stop files (inWindow start stop rows) x ↔
      Good (inWindow start stop rows) x ∧ Record (inWindow start stop rows) x := by
  constructor
  · rintro ⟨⟨hgood, -⟩, hbefore⟩
    refine ⟨hgood, ?_⟩
    rcases hsteady x hgood with hrecord | ⟨r, hr, hrecord, hlt, hbehind⟩
    · exact hrecord
    · exact absurd hbehind (hbefore r (h.kept hr hrecord) hlt).not_gt
  · rintro ⟨hgood, hrecord⟩
    exact ⟨h.kept hgood hrecord, fun y hy hlt => hrecord y hy.1.1 hlt⟩

/-- Both cuts of the lines give the same quotes and discontinuities, where both can be loaded. -/
def SameTape (start stop : ℤ) (files files' : List SegmentFile) : Prop :=
  ∀ tape tape', loadTape start stop files = .ok tape → loadTape start stop files' = .ok tape' →
    tape.quotes = tape'.quotes ∧ tape.invalid = tape'.invalid

theorem sameTape {files' : List SegmentFile} (h : IsCut files rows) (h' : IsCut files' rows)
    (hsorted : rows.Pairwise fun a b => a.capturedAt ≤ b.capturedAt)
    (hsteady : Steady (inWindow start stop rows)) : SameTape start stop files files' := by
  intro tape tape' hload hload'
  obtain ⟨hquotes, hinvalid, hstrict⟩ := loadTape_spec h hsorted hload
  obtain ⟨hquotes', hinvalid', hstrict'⟩ := loadTape_spec h' hsorted hload'
  have hsame : tape.quotes = tape'.quotes := by
    have : Std.Irrefl fun a b : Quote => a.time < b.time := ⟨fun a => lt_irrefl a.time⟩
    have : Std.Antisymm fun a b : Quote => a.time < b.time := ⟨fun a b h h' => absurd h h'.not_gt⟩
    refine tape.ordered.eq_of_mem_iff tape'.ordered fun q => ?_
    rw [hquotes, hquotes']
    simp only [final_iff h hsteady, final_iff h' hsteady]
  refine ⟨hsame, hstrict.eq_of_mem_iff hstrict' fun t => ?_⟩
  rw [hinvalid, hinvalid', hsame]

/-! ### Which recordings do -/

variable (start stop)

/-- Lines of which `load_tape` accepts a segment. -/
structure Loadable (rows : List Row) : Prop where
  count : rows.length ≤ 100000
  row : ∀ row ∈ rows, row.length ≤ 100000 ∧ -1 ≤ row.capturedAt ∧ row.contract ∧
    ∃ s, row.sample = .ok s

theorem Loadable.sublist {rows' : List Row} (h : Loadable rows) (hsub : rows'.Sublist rows) :
    Loadable rows' :=
  ⟨hsub.length_le.trans h.count, fun row hrow => h.row row (hsub.subset hrow)⟩

def Evidence.size (e : Evidence) : ℕ := e.quotes.length + e.invalid.length

theorem takeSample_size (previousSource : ℤ) (e : Evidence) (x : Timed) :
    (takeSample previousSource e x.1 x.2).size ≤ e.size + 1 := by
  have hfilter : ∀ t, (e.quotes.filter (·.time ≠ t)).length ≤ e.quotes.length :=
    fun t => List.length_filter_le _ _
  rw [takeSample]
  cases rejection previousSource e x.1 x.2 with
  | none =>
    simp only [Evidence.accept, Evidence.size, List.length_append, List.length_singleton]
    have := hfilter x.1
    omega
  | some reason =>
    simp only [Evidence.reject, Evidence.size]
    have hinsert : (e.invalid.insert x.1).length ≤ e.invalid.length + 1 := by
      by_cases hmem : x.1 ∈ e.invalid
      · rw [List.insert_of_mem hmem]
        exact Nat.le_succ _
      · rw [List.insert_of_not_mem hmem, List.length_cons]
    have := hfilter x.1
    omega

theorem readRow_ok {segmentStart segmentEnd : ℤ} {r : Reading} {row : Row}
    (hprevious : r.previous ≤ row.capturedAt)
    (hrange : segmentStart ≤ row.capturedAt ∧ row.capturedAt ≤ segmentEnd)
    (hrow : row.length ≤ 100000 ∧ -1 ≤ row.capturedAt ∧ row.contract ∧ ∃ s, row.sample = .ok s)
    (hcount : r.count + 1 ≤ 100000) (hsize : r.evidence.size + 1 ≤ 3000000) :
    ∃ r', readRow start stop segmentStart segmentEnd r row = .ok r' ∧ r'.count = r.count + 1 ∧
      r'.previous = row.capturedAt ∧ r'.evidence.size ≤ r.evidence.size + 1 := by
  obtain ⟨hlength, -, hcontract, s, hs⟩ := hrow
  have hlimit : ¬ (r.count + 1 > 100000 ∨ row.length > 100000) := by omega
  have htime : ¬ (row.capturedAt < r.previous ∨
      ¬ (segmentStart ≤ row.capturedAt ∧ row.capturedAt ≤ segmentEnd)) := by omega
  simp only [readRow, require_eq hlimit, require_eq htime, ok_bind]
  split
  · exact ⟨_, rfl, rfl, rfl, Nat.le_succ _⟩
  · have hgrow := takeSample_size r.previousSource r.evidence (row.capturedAt, s)
    have htape : ¬ (takeSample r.previousSource r.evidence row.capturedAt s).quotes.length
        + (takeSample r.previousSource r.evidence row.capturedAt s).invalid.length > 3000000 :=
      not_lt.mpr (hgrow.trans hsize)
    simp only [require_eq hcontract, hs, ok_bind]
    rw [require_eq htape, ok_bind]
    exact ⟨_, rfl, rfl, rfl, hgrow⟩

theorem readRows_ok {segmentStart segmentEnd : ℤ} {r : Reading} (hload : Loadable rows)
    (hsorted : rows.Pairwise fun a b => a.capturedAt ≤ b.capturedAt)
    (hprevious : ∀ row ∈ rows, r.previous ≤ row.capturedAt)
    (hrange : ∀ row ∈ rows, segmentStart ≤ row.capturedAt ∧ row.capturedAt ≤ segmentEnd)
    (hcount : r.count + rows.length ≤ 100000)
    (hsize : r.evidence.size + rows.length ≤ 3000000) :
    ∃ r', rows.foldlM (readRow start stop segmentStart segmentEnd) r = .ok r' ∧
      r'.count = r.count + rows.length ∧ r'.evidence.size ≤ r.evidence.size + rows.length := by
  induction rows generalizing r with
  | nil => exact ⟨r, rfl, rfl, le_rfl⟩
  | cons row rest ih =>
    rw [List.length_cons] at hcount hsize
    rw [List.pairwise_cons] at hsorted
    obtain ⟨next, hnext, hnextCount, hnextPrevious, hnextSize⟩ :=
      readRow_ok start stop (hprevious row (by simp)) (hrange row (by simp))
        (hload.row row (by simp)) (by omega) (by omega)
    obtain ⟨r', hr', hcount', hsize'⟩ := ih (r := next)
      (hload.sublist (List.sublist_cons_self _ _)) hsorted.2
      (fun row' hrow' => hnextPrevious ▸ hsorted.1 row' hrow')
      (fun row' hrow' => hrange row' (by simp [hrow'])) (by omega) (by omega)
    refine ⟨r', ?_, ?_, ?_⟩
    · rw [List.foldlM_cons, hnext]
      exact hr'
    · rw [List.length_cons]
      omega
    · rw [List.length_cons]
      omega

/-- A sealed segment of some lines. -/
def sealedFile (name : String) (rows : List Row) (first last : ℤ) : SegmentFile where
  name
  manifest := some ⟨0, first, last, rows.length, name⟩
  size := 0
  digest := name
  rows

theorem readFile_ok (name : String) {l : Loading} {first last : ℤ} (hload : Loadable rows)
    (hsorted : rows.Pairwise fun a b => a.capturedAt ≤ b.capturedAt)
    (hrange : ∀ row ∈ rows, first ≤ row.capturedAt ∧ row.capturedAt ≤ last)
    (hnames : l.names.lookup name = none) (hidentities : l.identities.lookup name = none)
    (hhashes : l.hashes.length < 10000) (hsize : l.evidence.size ≤ 100000) :
    ∃ l', readFile start stop l (sealedFile name rows first last) = .ok l' ∧
      (∀ other, other ≠ name → l.names.lookup other = none → l'.names.lookup other = none) ∧
      (∀ other, other ≠ name → l.identities.lookup other = none →
        l'.identities.lookup other = none) ∧
      l'.hashes.length ≤ l.hashes.length + 1 ∧
      l'.evidence.size ≤ l.evidence.size + rows.length := by
  simp only [readFile, sealedFile]
  rw [if_neg (by decide)]
  split
  · exact ⟨l, rfl, fun _ _ h => h, fun _ _ h => h, Nat.le_succ _, Nat.le_add_right _ _⟩
  · have hcount := hload.count
    have hroom : ({ evidence := l.evidence } : Reading).evidence.size + rows.length ≤ 3000000 :=
      (Nat.add_le_add hsize hcount).trans (by decide)
    obtain ⟨r, hr, hrcount, hrsize⟩ := readRows_ok start stop (r := { evidence := l.evidence })
      hload hsorted (fun row hrow => (hload.row row hrow).2.1) hrange (by simpa using hcount) hroom
    rw [openSegment, require_eq (Nat.not_lt_zero _), ok_bind, require_eq (by simp), ok_bind, hnames,
      require_eq (by simp), ok_bind, hidentities]
    simp only [readSegment]
    rw [require_eq (by simpa using Nat.succ_le_of_lt hhashes), ok_bind, hr, ok_bind,
      require_eq (by simpa using hrcount), ok_bind]
    refine ⟨_, rfl, fun other hne h => ?_, fun other hne h => ?_, by simp, hrsize⟩
    · rw [List.lookup_cons, beq_eq_false_iff_ne.mpr hne]
      exact h
    · rw [List.lookup_cons, beq_eq_false_iff_ne.mpr hne]
      exact h

theorem sealedFile_ranged {name : String} {first last : ℤ}
    (hrange : ∀ row ∈ rows, first ≤ row.capturedAt ∧ row.capturedAt ≤ last) :
    Ranged (sealedFile name rows first last) :=
  ⟨_, rfl, hrange⟩

theorem exists_last (rows : List Row) : ∃ last, ∀ row ∈ rows, row.capturedAt ≤ last := by
  induction rows with
  | nil => exact ⟨0, by simp⟩
  | cons row rest ih =>
    obtain ⟨last, hlast⟩ := ih
    refine ⟨max row.capturedAt last, List.forall_mem_cons.mpr ⟨le_max_left _ _, fun r hr => ?_⟩⟩
    exact (hlast r hr).trans (le_max_right _ _)

/-- All lines can be one segment. -/
theorem exists_single_cut (hload : Loadable rows)
    (hsorted : rows.Pairwise fun a b => a.capturedAt ≤ b.capturedAt) :
    ∃ file : SegmentFile, file.rows = rows ∧ IsCut [file] rows ∧
      ∃ tape, loadTape start stop [file] = .ok tape := by
  obtain ⟨last, hlast⟩ := exists_last rows
  have hrange : ∀ row ∈ rows, (-1 : ℤ) ≤ row.capturedAt ∧ row.capturedAt ≤ last :=
    fun row hrow => ⟨(hload.row row hrow).2.1, hlast row hrow⟩
  refine ⟨sealedFile "0" rows (-1) last, rfl, ⟨?_, by simp, [_], .refl _, ?_, ?_⟩, ?_⟩
  · simpa using sealedFile_ranged hrange
  · simp [sealedFile]
  · exact List.pairwise_singleton _ _
  · obtain ⟨l, hl, -⟩ := readFile_ok start stop "0" (l := {}) hload hsorted hrange rfl rfl
      (by decide) (by decide)
    refine ⟨l.tape, ?_⟩
    rw [loadTape, List.foldlM_cons, hl]
    rfl

/-- The lines can be cut before any of them. -/
theorem exists_double_cut {before after : List Row} {row : Row}
    (hload : Loadable (before ++ row :: after))
    (hsorted : (before ++ row :: after).Pairwise fun a b => a.capturedAt ≤ b.capturedAt) :
    ∃ first second : SegmentFile, first.rows = before ∧ second.rows = row :: after ∧
      IsCut [first, second] (before ++ row :: after) ∧
      ∃ tape, loadTape start stop [first, second] = .ok tape := by
  obtain ⟨last, hlast⟩ := exists_last (row :: after)
  obtain ⟨hbefore, hafter, hcross⟩ := List.pairwise_append.mp hsorted
  have hfirst : ∀ r ∈ before, (-1 : ℤ) ≤ r.capturedAt ∧ r.capturedAt ≤ row.capturedAt :=
    fun r hr => ⟨(hload.row r (by simp [hr])).2.1, hcross r hr row (by simp)⟩
  have hsecond : ∀ r ∈ row :: after, row.capturedAt ≤ r.capturedAt ∧ r.capturedAt ≤ last := by
    intro r hr
    refine ⟨?_, hlast r hr⟩
    rcases List.mem_cons.mp hr with rfl | hr
    · exact le_rfl
    · exact (List.pairwise_cons.mp hafter).1 r hr
  have hload' := hload.sublist (List.sublist_append_left before (row :: after))
  refine ⟨sealedFile "0" before (-1) row.capturedAt, sealedFile "1" (row :: after) row.capturedAt last,
    rfl, rfl, ⟨?_, by simp [sealedFile], [_, _], .refl _, ?_, ?_⟩, ?_⟩
  · simpa using ⟨sealedFile_ranged hfirst, sealedFile_ranged hsecond⟩
  · simp [sealedFile]
  · refine List.pairwise_pair.mpr ?_
    rintro m ⟨⟩ m' ⟨⟩
    exact le_rfl
  · obtain ⟨l, hl, hnames, hidentities, hhashes, hsize⟩ := readFile_ok start stop "0"
      (l := {}) hload' hbefore hfirst rfl rfl (by decide) (by decide)
    have hcount := hload'.count
    obtain ⟨l', hl', -⟩ := readFile_ok start stop "1" (l := l)
      (hload.sublist (List.sublist_append_right _ _)) hafter hsecond
      (hnames "1" (by decide) rfl) (hidentities "1" (by decide) rfl)
      (hhashes.trans_lt (by decide)) (hsize.trans (by simpa [Evidence.size] using hcount))
    refine ⟨l'.tape, ?_⟩
    rw [loadTape, List.foldlM_cons, hl, ok_bind, List.foldlM_cons, hl']
    rfl

theorem eq_of_tied {samples : List Timed} {x y : Timed} (hx : x ∈ samples) (hy : y ∈ samples)
    (htime : y.1 = x.1) (halone : tied samples x.1 = 1) : y = x := by
  rw [tied, List.countP_eq_length_filter, List.length_eq_one_iff] at halone
  obtain ⟨z, hz⟩ := halone
  have hmem : ∀ w ∈ samples, w.1 = x.1 → w = z := by
    intro w hw heq
    rw [← List.mem_singleton, ← hz]
    exact List.mem_filter.mpr ⟨hw, by simpa using heq⟩
  rw [hmem x hx rfl, hmem y hy htime]

/-- Where all cuts give the same tape, the single segment and the cut before a sample do. -/
theorem steady_of_sameTape (hload : Loadable rows)
    (hsorted : rows.Pairwise fun a b => a.capturedAt ≤ b.capturedAt)
    (hsame : ∀ files files', IsCut files rows → IsCut files' rows →
      SameTape start stop files files') :
    Steady (inWindow start stop rows) := by
  intro x hgood
  by_contra hnot
  obtain ⟨hrecord, hbelow⟩ := not_or.mp hnot
  obtain ⟨row, hrow, hx⟩ := List.mem_filterMap.mp hgood.1
  obtain ⟨before, after, rfl⟩ := List.append_of_mem hrow
  have hpairwise : (inWindow start stop (before ++ row :: after)).Pairwise _ :=
    inWindow_pairwise hsorted
  have hwindow : inWindow start stop (row :: after) = x :: inWindow start stop after := by
    rw [inWindow, List.filterMap_cons_some hx]
    rfl
  have hwhole : inWindow start stop (before ++ row :: after)
      = inWindow start stop before ++ x :: inWindow start stop after := by
    rw [← hwindow, inWindow, List.filterMap_append]
    rfl
  have hlater : ∀ y ∈ x :: inWindow start stop after, x.1 ≤ y.1 := by
    rw [hwhole] at hpairwise
    have hafter := List.pairwise_cons.mp (List.pairwise_append.mp hpairwise).2.1
    exact List.forall_mem_cons.mpr ⟨le_rfl, hafter.1⟩
  obtain ⟨file, hfile, hcut, tape, htape⟩ := exists_single_cut start stop hload hsorted
  obtain ⟨first, second, hfirst, hsecond, hcut', tape', htape'⟩ :=
    exists_double_cut start stop hload hsorted
  have hquotes := (hsame _ _ hcut hcut' tape tape' htape htape').1
  have hfinal : Final start stop [first, second] (inWindow start stop (before ++ row :: after)) x := by
    refine ⟨⟨hgood, second, by simp, ?_, ?_⟩, fun y hy hlt => ?_⟩
    · rw [hsecond, hwindow]
      exact List.mem_cons_self
    · rw [hsecond, hwindow]
      exact fun y hy hlt => absurd hlt (hlater y hy).not_gt
    · obtain ⟨hy, f, hf, hyf, hyrecord⟩ := hy
      by_contra hbehind
      refine hbelow ⟨y, hy, fun z hz hzy => ?_, hlt, not_le.mp hbehind⟩
      rcases List.mem_pair.mp hf with rfl | rfl
      · rw [hwhole] at hz
        rcases List.mem_append.mp hz with hz | hz
        · exact hyrecord z (hfirst ▸ hz) hzy
        · exact absurd (hzy.trans hlt) (hlater z hz).not_gt
      · rw [hsecond, hwindow] at hyf
        exact absurd hlt (hlater y hyf).not_gt
  have hmem : x.quote ∈ tape.quotes := by
    rw [hquotes]
    exact ((loadTape_spec hcut' hsorted htape').1 _).mpr ⟨x, hfinal, rfl⟩
  obtain ⟨y, ⟨⟨hy, f, hf, -, hyrecord⟩, -⟩, hquote⟩ :=
    ((loadTape_spec hcut hsorted htape).1 _).mp hmem
  have htime : y.1 = x.1 := congrArg Quote.time hquote
  have heq : y = x := eq_of_tied hgood.1 hy.1 htime hgood.2.2.2
  rw [List.mem_singleton.mp hf, hfile, heq] at hyrecord
  exact hrecord hyrecord

end

/-- All cuts of a recording that can be loaded give the same quotes and discontinuities if every good
    sample is a record of the source clock or lies below a good record before it; and only then, where
    the lines fit in one segment. -/
theorem cuts_agree_iff (start stop : ℤ) (rows : List Row)
    (hsorted : rows.Pairwise fun a b => a.capturedAt ≤ b.capturedAt) :
    (Steady (inWindow start stop rows) → ∀ files files', IsCut files rows → IsCut files' rows →
      SameTape start stop files files') ∧
    (Loadable rows → (∀ files files', IsCut files rows → IsCut files' rows →
      SameTape start stop files files') → Steady (inWindow start stop rows)) :=
  ⟨fun hsteady _ _ h h' => sameTape h h' hsorted hsteady,
    fun hload hsame => steady_of_sameTape start stop hload hsorted hsame⟩

namespace TapeSample

/-- A sample of a second whose book is not complete, with the source clock of its capture. -/
def partialBook : Row := ⟨10, 1000, true, .ok ⟨1000, 1000, 100, 101, false, false⟩⟩

/-- A whole sample of the next second, with a source clock behind that. -/
def behind : Row := ⟨10, 2000, true, .ok ⟨900, 2000, 100, 101, true, false⟩⟩

/-- A whole sample of the next second. -/
def ahead : Row := ⟨10, 2000, true, .ok ⟨1900, 2000, 100, 101, true, false⟩⟩

def times (tape : Except String Tape) : Except String (List ℤ × List ℤ) :=
  tape.map fun tape => (tape.times, tape.invalid)

/-- Two lines in one segment, and in two. -/
def single (second : Row) : List SegmentFile := [sealedFile "0" [partialBook, second] 1000 2000]

def double (second : Row) : List SegmentFile :=
  [sealedFile "0" [partialBook] 1000 1000, sealedFile "1" [second] 2000 2000]

theorem single_cut {second : Row} (h : second.capturedAt = 2000) :
    IsCut (single second) [partialBook, second] := by
  refine ⟨?_, by simp [single], single second, .refl _, rfl, List.pairwise_singleton _ _⟩
  simp only [single, List.mem_singleton, forall_eq]
  exact sealedFile_ranged (by simp [partialBook, h])

theorem double_cut {second : Row} (h : second.capturedAt = 2000) :
    IsCut (double second) [partialBook, second] := by
  refine ⟨?_, by simp [double, sealedFile], double second, .refl _, rfl, List.pairwise_pair.mpr ?_⟩
  · simp only [double, List.mem_cons, List.not_mem_nil, or_false, forall_eq_or_imp, forall_eq]
    exact ⟨sealedFile_ranged (by simp [partialBook]), sealedFile_ranged (by simp [h])⟩
  · rintro m ⟨⟩ m' ⟨⟩
    exact (by decide : (1000 : ℤ) ≤ 2000)

end TapeSample

open TapeSample in
/-- A rejected sample's clock rejects the next sample in its own segment, not in the next one. -/
theorem rejected_clock_counts_inside :
    IsCut (single TapeSample.behind) [partialBook, TapeSample.behind] ∧
      IsCut (double TapeSample.behind) [partialBook, TapeSample.behind] ∧
      times (loadTape 0 10000 (single TapeSample.behind)) = .ok ([], [1000, 2000]) ∧
      times (loadTape 0 10000 (double TapeSample.behind)) = .ok ([2000], [1000]) :=
  ⟨single_cut rfl, double_cut rfl, by decide +kernel, by decide +kernel⟩

open TapeSample in
theorem cuts_agree_iff_ahead : SameTape 0 10000 (single TapeSample.ahead) (double TapeSample.ahead) :=
  have hsteady : Steady (inWindow 0 10000 [partialBook, TapeSample.ahead]) := by
    have hwindow : inWindow 0 10000 [partialBook, TapeSample.ahead]
        = [(1000, ⟨1000, 1000, 100, 101, false, false⟩),
          (2000, ⟨1900, 2000, 100, 101, true, false⟩)] := rfl
    rw [hwindow]
    rintro x ⟨hx, -⟩
    refine .inl fun y hy hlt => ?_
    simp only [List.mem_cons, List.not_mem_nil, or_false] at hx hy
    rcases hx with rfl | rfl <;> rcases hy with rfl | rfl <;> simp_all
  (cuts_agree_iff 0 10000 [partialBook, TapeSample.ahead] (by decide)).1 hsteady _ _ (single_cut rfl)
    (double_cut rfl)

end ScalpingBot.Backtest
