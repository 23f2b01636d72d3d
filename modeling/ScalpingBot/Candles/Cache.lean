import ScalpingBot.Candles.Sessions
import ScalpingBot.Library.Transition
import ScalpingBot.Library.Window

/-! `CandidateHistoryCache` (packages/market-data-client/src/candidate-history.ts): reads wait for
    each other in a queue, and a read waits for each page it fetches. Resets fall anywhere between. -/

namespace ScalpingBot.Candles

inductive Timeframe where | m1 | m5 | m15
  deriving DecidableEq

structure CandleSeries where
  timeframe : Timeframe
  candles : List Candle
  deriving DecidableEq

/-- `PERIOD`. -/
def period : Timeframe → ℤ
  | .m1 => 60000
  | .m5 => 300000
  | .m15 => 900000

def technicalHistoryCounts : Timeframe → ℕ
  | .m1 => 720
  | .m5 => 576
  | .m15 => 480

/-- The order in which a read goes through them. -/
def timeframes : List Timeframe := [.m15, .m5, .m1]

/-! ### The pages of a timeframe -/

section

variable (platform : Platform)

/-- The loop over the candles of a page, which ends no later than `until`. -/
def checkChunk (timeframe : Timeframe) (until' : ℤ) : Option ℤ → List Candle → Bool
  | _, [] => true
  | previous, c :: rest =>
    match platform.parse c.startTime, platform.parse c.endTime with
    | some start, some stop =>
      c.complete && previous.all (· < start) && decide (stop - start = period timeframe) &&
        decide (stop ≤ until') && c.qualityFlags.all (· = brokerSessionGapBefore) &&
        checkChunk timeframe until' (some start) rest
    | _, _ => false

/-- `byTime.set`, on the values of the map. -/
def setByTime : List Candle → Candle → List Candle := Window.put (·.startTime)

/-- Whether one of the compared fields differs. -/
def conflicts (old c : Candle) : Bool :=
  old.openPrice ≠ c.openPrice ∨ old.high ≠ c.high ∨ old.low ≠ c.low ∨ old.close ≠ c.close ∨
    old.volume ≠ c.volume

/-- The loop that merges the fetched candles. -/
def merge : List Candle → List Candle → Except String (List Candle)
  | values, [] => .ok values
  | values, c :: rest =>
    if (values.find? (·.startTime = c.startTime)).any (conflicts · c) then
      .error "CANDIDATE_HISTORY_CONFLICT"
    else merge (setByTime values c) rest

/-- When a candle starts. -/
def startOf (c : Candle) : ℤ := (platform.parse c.startTime).getD 0

/-- The map's values in the order of time, the last ones of them, without flags. -/
def rawWindow (timeframe : Timeframe) (values : List Candle) : List Candle :=
  ((values.mergeSort fun a b => startOf platform a ≤ startOf platform b).rtake
    (technicalHistoryCounts timeframe)).map (·.plain)

/-- Whether each candle begins where the one before ended, or after a gap of the session. -/
def verified : List Candle → Bool
  | previous :: current :: rest =>
    (decide (current.startTime = previous.endTime) ||
      current.qualityFlags.contains brokerSessionGapBefore) && verified (current :: rest)
  | _ => true

/-- What is made of the candles of a timeframe. -/
def finish (schedule : WeeklyTradingSchedule) (timeframe : Timeframe) (boundary : ℤ)
    (raw : List Candle) : Except String (List Candle) := do
  let candles ← platform.markBrokerSessionGaps raw (period timeframe) schedule
  require (candles.length = technicalHistoryCounts timeframe ∧
    (candles.getLast?.bind fun c => platform.parse c.endTime) = some boundary)
    "CANDIDATE_HISTORY_INSUFFICIENT"
  require (verified candles) "CANDIDATE_HISTORY_UNVERIFIED_GAP"
  return candles

/-- `Math.floor(server / period) * period`. -/
def boundaryOf (server : ℤ) (timeframe : Timeframe) : ℤ :=
  server / period timeframe * period timeframe

end

/-! ### The cache -/

/-- A call of `read`, with the generation it finds. -/
structure Call where
  generation : ℕ
  serverTime : String
  schedule : WeeklyTradingSchedule
  deriving DecidableEq

/-- The variables of a read that waits for a page, with the generation in which it asked for it. -/
structure Fetching where
  call : Call
  server : ℤ
  result : List CandleSeries
  timeframe : Timeframe
  rest : List Timeframe
  prior : List Candle
  needed : ℕ
  collected : List Candle
  until' : ℤ
  page : ℕ
  asked : ℕ
  deriving DecidableEq

/-- How many candles the read asks for. -/
def Fetching.count (f : Fetching) : ℕ := min 180 (f.needed - f.collected.length)

/-- A page that was received, with the generation in which it was asked for. -/
structure Page where
  asked : ℕ
  timeframe : Timeframe
  candles : List Candle
  deriving DecidableEq

/-- A read that has ended, with the generation it ended in. -/
structure Ended where
  call : Call
  generation : ℕ
  outcome : Except String (List CandleSeries)
  deriving DecidableEq

/-- The cache, its queue, and two histories that no code reads: the pages received and the reads that
    have ended. -/
structure CandidateHistoryCache where
  cache : Timeframe → Option (List Candle)
  generation : ℕ
  scheduleKey : Option WeeklyTradingSchedule
  queue : List Call
  running : Option Fetching
  pages : List Page
  ended : List Ended

namespace CandidateHistoryCache

def initial : CandidateHistoryCache := ⟨fun _ => none, 0, none, [], none, [], []⟩

variable (platform : Platform) (s : CandidateHistoryCache)

def clear : CandidateHistoryCache := { s with cache := fun _ => none }

def reset : CandidateHistoryCache := { s.clear with generation := s.generation + 1 }

def set (timeframe : Timeframe) (candles : List Candle) : CandidateHistoryCache :=
  { s with cache := fun t => if t = timeframe then some candles else s.cache t }

/-- `read` takes its place in the queue. -/
def read (serverTime : String) (schedule : WeeklyTradingSchedule) : CandidateHistoryCache :=
  { s with queue := s.queue ++ [⟨s.generation, serverTime, schedule⟩] }

/-- A read ends. -/
def finishRead (call : Call) (outcome : Except String (List CandleSeries)) : CandidateHistoryCache :=
  { s with running := none, ended := s.ended ++ [⟨call, s.generation, outcome⟩] }

/-- What is caught clears the cache. -/
def caught (call : Call) (reason : String) : CandidateHistoryCache :=
  s.clear.finishRead call (.error reason)

/-- The loop over the timeframes, up to the next page. -/
def advance (call : Call) (server : ℤ) :
    List CandleSeries → List Timeframe → CandidateHistoryCache
  | result, [] => s.finishRead call (.ok result)
  | result, timeframe :: rest =>
    let boundary := boundaryOf server timeframe
    let target := technicalHistoryCounts timeframe
    let prior := (s.cache timeframe).getD []
    let fetch (needed : ℕ) : CandidateHistoryCache :=
      { s with running := some {
          call, server, result, timeframe, rest, prior, needed
          collected := []
          until' := boundary
          page := 0
          asked := s.generation } }
    match prior.getLast? with
    | none => fetch target
    | some last =>
      match platform.parse last.endTime with
      -- A comparison with NaN is false, and so is the condition of the loop over the pages.
      | none => s.caught call "CANDIDATE_HISTORY_PAGE_LIMIT"
      | some lastEnd =>
        if boundary < lastEnd then s.caught call "CANDIDATE_HISTORY_CLOCK_REGRESSION"
        else if lastEnd = boundary then advance call server (result ++ [⟨timeframe, prior⟩]) rest
        else fetch (min target ((boundary - lastEnd + period timeframe - 1) / period timeframe
          + 1).toNat)

/-- Another schedule clears the cache. -/
def keyed (call : Call) : CandidateHistoryCache :=
  if s.scheduleKey = some call.schedule then s
  else { s.clear with scheduleKey := some call.schedule }

/-- A read begins once those before it have ended. -/
def begin (call : Call) : CandidateHistoryCache :=
  if call.generation ≠ s.generation then
    s.finishRead call (.error "CANDIDATE_HISTORY_GENERATION_CHANGED")
  else
    match platform.parse call.serverTime with
    | none => (s.keyed call).caught call "CANDIDATE_HISTORY_TIME_INVALID"
    | some server => (s.keyed call).advance platform call server [] timeframes

/-- The candles of a timeframe that has been fetched. -/
def candlesOf (f : Fetching) : Except String (List Candle) := do
  require (f.collected.length = f.needed) "CANDIDATE_HISTORY_PAGE_LIMIT"
  let values ← merge (f.prior.foldl setByTime []) f.collected
  finish platform f.call.schedule f.timeframe (boundaryOf f.server f.timeframe)
    (rawWindow platform f.timeframe values)

/-- What follows the pages of a timeframe. -/
def completed (f : Fetching) : CandidateHistoryCache :=
  match candlesOf platform f with
  | .error reason => s.caught f.call reason
  | .ok candles =>
    (s.set f.timeframe candles).advance platform f.call f.server
      (f.result ++ [⟨f.timeframe, candles⟩]) f.rest

/-- The checks of a page; the instant from which the next one is asked for. -/
def checkPage (f : Fetching) (chunk : List Candle) : Except String ℤ := do
  require (f.call.generation = s.generation) "CANDIDATE_HISTORY_GENERATION_CHANGED"
  require (chunk.length = f.count) "CANDIDATE_HISTORY_INSUFFICIENT"
  require (checkChunk platform f.timeframe f.until' none chunk) "CANDIDATE_HISTORY_PAGE_INVALID"
  match chunk.head?.bind fun oldest => platform.parse oldest.startTime with
  | some start =>
    require (start < f.until') "CANDIDATE_HISTORY_NO_PROGRESS"
    return start
  | none => .error "CANDIDATE_HISTORY_NO_PROGRESS"

/-- A read goes on with the answer of `fetchPage`. -/
def answer (f : Fetching) (page : Except String (List Candle)) : CandidateHistoryCache :=
  match page with
  | .error reason => s.caught f.call reason
  | .ok chunk =>
    let s : CandidateHistoryCache :=
      { s with pages := s.pages ++ [⟨f.asked, f.timeframe, chunk⟩] }
    match s.checkPage platform f chunk with
    | .error reason => s.caught f.call reason
    | .ok start =>
      let f := { f with
        collected := chunk ++ f.collected
        until' := start
        page := f.page + 1
        asked := s.generation }
      if f.collected.length < f.needed ∧ f.page < 8 then { s with running := some f }
      else s.completed platform f

end CandidateHistoryCache

/-- What happens next. -/
inductive Action where
  | reset
  | read (serverTime : String) (schedule : WeeklyTradingSchedule)
  | begin
  | answer (page : Except String (List Candle))

/-- A step of the cache. -/
def CandidateHistoryCache.step (platform : Platform) (s : CandidateHistoryCache) :
    Action → Option CandidateHistoryCache
  | .reset => some s.reset
  | .read serverTime schedule => some (s.read serverTime schedule)
  | .begin =>
    match s.running, s.queue with
    | none, call :: queue => some ({ s with queue := queue }.begin platform call)
    | _, _ => none
  | .answer page => s.running.map fun f => s.answer platform f page

/-! ### The history of the broker -/

/-- The candles of each timeframe in the order of time, none overlapping another. -/
structure BrokerHistory (platform : Platform) where
  candles : Timeframe → List Candle
  plain : ∀ timeframe, ∀ c ∈ candles timeframe, c.qualityFlags = []
  timed : ∀ timeframe, ∀ c ∈ candles timeframe, ∃ start stop,
    platform.parse c.startTime = some start ∧ platform.parse c.endTime = some stop ∧ start < stop
  ordered : ∀ timeframe, (candles timeframe).Pairwise fun a b => ∃ stop start,
    platform.parse a.endTime = some stop ∧ platform.parse b.startTime = some start ∧ stop ≤ start

namespace BrokerHistory

variable {platform : Platform} (history : BrokerHistory platform)

/-- The complete candles that end no later than an instant. -/
def upTo (timeframe : Timeframe) (until' : ℤ) : List Candle :=
  (history.candles timeframe).filter fun c =>
    c.complete && (platform.parse c.endTime).any (· ≤ until')

/-- The latest of them. -/
def page (timeframe : Timeframe) (count : ℕ) (until' : ℤ) : List Candle :=
  (history.upTo timeframe until').rtake count

/-- What is assumed of `fetchPage`: unless it fails, it returns the latest complete candles; whether
    it flags them is left open. -/
def Answers (s : CandidateHistoryCache) : Action → Prop
  | .answer (.ok chunk) => ∀ f, s.running = some f →
    chunk.map (·.plain) = history.page f.timeframe f.count f.until'
  | _ => True

/-- A read whose pages come from the history, up to its end. -/
def drive : ℕ → CandidateHistoryCache → CandidateHistoryCache
  | 0, s => s
  | n + 1, s =>
    match s.running with
    | none => s
    | some f =>
      drive n (s.answer platform f (.ok (history.page f.timeframe f.count f.until')))

/-- What a fresh cache returns, if the read ends within the pages that it may fetch. -/
def freshRead (serverTime : String) (schedule : WeeklyTradingSchedule) :
    Option (Except String (List CandleSeries)) :=
  let begun := CandidateHistoryCache.initial.begin platform ⟨0, serverTime, schedule⟩
  (history.drive 24 begun).ended.head?.map (·.outcome)

end BrokerHistory

end ScalpingBot.Candles
