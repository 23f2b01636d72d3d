import Mathlib.Data.List.Sort
import Mathlib.Order.Lattice
import Mathlib.Tactic.Common
import ScalpingBot.Evaluation.Engine

/-! `load_tape` of python/backtest/paired.py: the quotes and the discontinuities that recorded segments
    give evidence of, read one segment after another in the order of their names. -/

namespace ScalpingBot.Backtest

open Evaluation (Quote)

/-- What is read of a sample in the window. -/
structure Sample where
  sourceTime : ℤ
  receivedAt : ℤ
  bid : ℚ
  ask : ℚ
  complete : Bool
  discontinuity : Bool

/-- A line of a segment; `contract` is that its schema version and its symbol are the known ones, and
    `sample` fails where a time or a price of it cannot be read. -/
structure Row where
  length : ℕ
  capturedAt : ℤ
  contract : Bool
  sample : Except String Sample

structure Manifest where
  size : ℕ
  startedAt : ℤ
  completedAt : ℤ
  sampleCount : ℕ
  sha256 : String

/-- A segment's file with its manifest, if it is sealed. -/
structure SegmentFile where
  name : String
  manifest : Option Manifest
  size : ℕ
  digest : String
  rows : List Row

/-- The `quotes`, `invalid` and `rejected` of `load_tape`. -/
structure Evidence where
  quotes : List Quote := []
  invalid : List ℤ := []
  rejected : List String := []
  distinct : (quotes.map Quote.time).Nodup := by simp

/-- `quotes[at] = quote`. -/
def Evidence.accept (e : Evidence) (quote : Quote) : Evidence where
  quotes := e.quotes.filter (·.time ≠ quote.time) ++ [quote]
  invalid := e.invalid
  rejected := e.rejected
  distinct := by
    rw [List.map_append, List.nodup_append]
    refine ⟨e.distinct.sublist (List.filter_sublist.map _), List.nodup_singleton _, ?_⟩
    rintro t ht t' ht' rfl
    obtain ⟨q, hq, rfl⟩ := List.mem_map.mp ht
    simp_all

/-- A sample is rejected, and what its time had is no evidence any more. -/
def Evidence.reject (e : Evidence) (at_ : ℤ) (reason : String) : Evidence where
  quotes := e.quotes.filter (·.time ≠ at_)
  invalid := e.invalid.insert at_
  rejected := e.rejected ++ [reason]
  distinct := e.distinct.sublist (List.filter_sublist.map _)

/-- Whether the times and the book of a sample are as they must be, whatever came before it. -/
def Sample.timely (at_ : ℤ) (s : Sample) : Bool :=
  (s.sourceTime ≤ s.receivedAt ∧ s.receivedAt ≤ at_) ∧
    0 ≤ at_ - s.sourceTime ∧ at_ - s.sourceTime ≤ 3000

def Sample.whole (s : Sample) : Bool := s.bid < s.ask ∧ s.complete ∧ ¬ s.discontinuity

/-- The reason for which a sample is rejected. -/
def rejection (previousSource : ℤ) (e : Evidence) (at_ : ℤ) (s : Sample) : Option String :=
  if s.sourceTime < previousSource ∨ ¬ s.timely at_ then some "QUOTE_TIME_INVALID"
  else if ¬ s.whole then some "QUOTE_OR_BOOK_INVALID"
  else if at_ ∈ e.quotes.map Quote.time ∨ at_ ∈ e.invalid then some "AMBIGUOUS_CAPTURE"
  else none

def takeSample (previousSource : ℤ) (e : Evidence) (at_ : ℤ) (s : Sample) : Evidence :=
  match rejection previousSource e at_ s with
  | some reason => e.reject at_ reason
  | none => e.accept ⟨at_, s.sourceTime, s.bid, s.ask⟩

/-- The variables of the loop over the lines of a segment. -/
structure Reading where
  evidence : Evidence
  count : ℕ := 0
  previous : ℤ := -1
  previousSource : ℤ := -1

section

variable (start stop : ℤ)

/-- One pass of the loop over the lines of a segment. -/
def readRow (segmentStart segmentEnd : ℤ) (r : Reading) (row : Row) : Except String Reading := do
  let count := r.count + 1
  require (¬ (count > 100000 ∨ row.length > 100000)) "SEGMENT_EXPANSION_LIMIT"
  let at_ := row.capturedAt
  require (¬ (at_ < r.previous ∨ ¬ (segmentStart ≤ at_ ∧ at_ ≤ segmentEnd))) "SEGMENT_TIME_INVALID"
  if ¬ (start - 3000 ≤ at_ ∧ at_ < stop) then return { r with count, previous := at_ }
  else
    require row.contract "QUOTE_CONTRACT_INVALID"
    let s ← row.sample
    let evidence := takeSample r.previousSource r.evidence at_ s
    require (¬ evidence.quotes.length + evidence.invalid.length > 3000000) "TAPE_TOO_LARGE"
    return ⟨evidence, count, at_, max r.previousSource s.sourceTime⟩

/-- The variables of the loop over the segments. -/
structure Loading where
  evidence : Evidence := {}
  hashes : List String := []
  names : List (String × String) := []
  identities : List (String × ℤ × ℤ × ℕ) := []

/-- What is done with a segment whose bytes are new. -/
def readSegment (l : Loading) (file : SegmentFile) (manifest : Manifest) :
    Except String Loading := do
  let hashes := l.hashes ++ [file.digest]
  require (¬ hashes.length > 10000) "TOO_MANY_SEGMENTS"
  let r ← file.rows.foldlM (readRow start stop manifest.startedAt manifest.completedAt)
    { evidence := l.evidence }
  require (¬ r.count ≠ manifest.sampleCount) "SEGMENT_COUNT_MISMATCH"
  return {
    evidence := r.evidence
    hashes
    names := (file.name, file.digest) :: l.names
    identities :=
      (file.digest, manifest.startedAt, manifest.completedAt, manifest.sampleCount) :: l.identities }

/-- What is done with a segment that can have samples in the window. -/
def openSegment (l : Loading) (file : SegmentFile) (manifest : Manifest) :
    Except String Loading := do
  require (¬ file.size > 8000000) "SEGMENT_TOO_LARGE"
  require (¬ file.digest ≠ manifest.sha256) "SEGMENT_CHECKSUM_MISMATCH"
  require (¬ (l.names.lookup file.name).any (· ≠ file.digest)) "SEGMENT_IDENTITY_CONFLICT"
  match l.identities.lookup file.digest with
  | some identity =>
    require (¬ identity ≠ (manifest.startedAt, manifest.completedAt, manifest.sampleCount))
      "SEGMENT_MANIFEST_CONFLICT"
    return { l with names := (file.name, file.digest) :: l.names }
  | none => readSegment start stop l file manifest

/-- One pass of the loop over the segments. -/
def readFile (l : Loading) (file : SegmentFile) : Except String Loading :=
  match file.manifest with
  | none => .ok { l with evidence :=
      { l.evidence with rejected := l.evidence.rejected ++ ["UNSEALED_SEGMENT"] } }
  | some manifest =>
    if manifest.size > 16384 then .error "MANIFEST_TOO_LARGE"
    else if manifest.completedAt < start - 3000 ∨ manifest.startedAt ≥ stop then .ok l
    else openSegment start stop l file manifest

end

/-- The loop over the ordered quotes: those that are valid, and those whose source clock is behind. -/
def splitRegressions (previousSource : ℤ) : List Quote → List Quote × List Quote
  | [] => ([], [])
  | quote :: rest =>
    let (valid, regressed) := splitRegressions (max previousSource quote.sourceTime) rest
    if quote.sourceTime < previousSource then (valid, quote :: regressed)
    else (quote :: valid, regressed)

structure Tape where
  quotes : List Quote
  invalid : List ℤ
  segments : List String
  rejected : List String
  ordered : quotes.Pairwise fun a b => a.time < b.time
  sorted : invalid.Pairwise (· ≤ ·)

def Evidence.ordered (e : Evidence) : List Quote := e.quotes.insertionSort (·.time ≤ ·.time)

theorem Evidence.ordered_pairwise (e : Evidence) :
    e.ordered.Pairwise fun a b => a.time < b.time := by
  have hle : e.ordered.Pairwise fun a b => a.time ≤ b.time :=
    List.pairwise_insertionSort _ _
  have hne : e.ordered.Pairwise fun a b => a.time ≠ b.time := by
    have hnodup : (e.ordered.map Quote.time).Nodup :=
      ((List.perm_insertionSort _ _).map Quote.time).nodup_iff.mpr e.distinct
    exact List.pairwise_map.mp hnodup
  exact (hle.and hne).imp fun h => lt_of_le_of_ne h.1 h.2

theorem splitRegressions_sublist (previousSource : ℤ) (quotes : List Quote) :
    (splitRegressions previousSource quotes).1.Sublist quotes := by
  induction quotes generalizing previousSource with
  | nil => exact .slnil
  | cons quote rest ih =>
    simp only [splitRegressions]
    split
    · exact (ih _).cons _
    · exact (ih _).cons_cons _

/-- The tape of the evidence of all segments. -/
def Loading.tape (l : Loading) : Tape where
  quotes := (splitRegressions (-1) l.evidence.ordered).1
  invalid :=
    ((splitRegressions (-1) l.evidence.ordered).2.foldl (fun invalid q => invalid.insert q.time)
      l.evidence.invalid).insertionSort (· ≤ ·)
  segments := l.hashes
  rejected := l.evidence.rejected ++
    (splitRegressions (-1) l.evidence.ordered).2.map fun _ => "SOURCE_REGRESSION"
  ordered := l.evidence.ordered_pairwise.sublist (splitRegressions_sublist _ _)
  sorted := List.pairwise_insertionSort _ _

/-- `load_tape`, of the files in the order of their names. -/
def loadTape (start stop : ℤ) (files : List SegmentFile) : Except String Tape := do
  let l ← files.foldlM (readFile start stop) {}
  return l.tape

/-! ### Breaks of the path -/

/-- `bisect_right`, on a sorted list. -/
def bisectRight (values : List ℤ) (x : ℤ) : ℕ := values.countP (· ≤ x)

/-- `Tape.times`. -/
def Tape.times (tape : Tape) : List ℤ := tape.quotes.map Quote.time

/-- `Tape.broken`. -/
def Tape.broken (tape : Tape) (after through maxGap : ℤ) : Bool :=
  through - after > maxGap ∨
    (tape.invalid[bisectRight tape.invalid after]?).any (· ≤ through)

end ScalpingBot.Backtest
