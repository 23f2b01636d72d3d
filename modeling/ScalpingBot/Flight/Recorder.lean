import Mathlib.Data.List.Chain
import ScalpingBot.Library.Transition

/-! The quotes of the setup flight recorder: `FlightQuoteBuffer`
    (apps/market-data-service/src/flight-quote-buffer.ts), which serves a bounded ring, and the main
    loop of python/operations/setup_flight_recorder.py, which reads it and writes a recording for
    the active setup and for each setup in its post window. The loop goes in steps, one for every
    record that may fail to be stored; the producer runs between any two of them. -/

namespace ScalpingBot.FlightRecorder

/-- An event with the stream that numbers it. -/
structure QuoteEvent where
  stream : ℕ
  sequence : ℕ
  receivedAt : ℤ
  deriving DecidableEq

/-- A quote of a symbol, or a reconnect. -/
structure Observation where
  symbolName : Option String
  receivedAt : ℤ
  deriving DecidableEq

structure FlightQuoteBuffer where
  symbol : String
  capacity : ℕ
  streamId : ℕ
  sequence : ℕ
  events : List QuoteEvent
  deriving DecidableEq

structure FlightQuoteBatch where
  streamId : ℕ
  firstSequence : ℕ
  latestSequence : ℕ
  gap : Bool
  events : List QuoteEvent
  deriving DecidableEq

namespace FlightQuoteBuffer

variable (b : FlightQuoteBuffer)

/-- Whether the buffer takes the observation. -/
def takes (o : Observation) : Bool := o.symbolName = none ∨ o.symbolName = some b.symbol

/-- The event of the next observation. -/
def nextEvent (o : Observation) : QuoteEvent := ⟨b.streamId, b.sequence + 1, o.receivedAt⟩

def observe (o : Observation) : FlightQuoteBuffer :=
  if b.takes o then
    let events := b.events ++ [b.nextEvent o]
    { b with sequence := b.sequence + 1, events := events.drop (events.length - b.capacity) }
  else b

def read (after : ℕ) : FlightQuoteBatch :=
  let first := (b.events.head?.map (·.sequence)).getD (b.sequence + 1)
  { streamId := b.streamId
    firstSequence := first
    latestSequence := b.sequence
    gap := b.sequence < after ∨ after ≠ 0 ∧ after < first - 1
    events := (b.events.filter (after < ·.sequence)).take 2048 }

/-- The buffer of a restarted producer. -/
def restart : FlightQuoteBuffer := { b with streamId := b.streamId + 1, sequence := 0, events := [] }

end FlightQuoteBuffer

/-- A setup as the database gives it; `terminal` is a state of `TERMINAL`. -/
structure Setup where
  key : ℕ
  createdAt : ℤ
  updatedAt : ℤ
  terminal : Bool
  deriving DecidableEq

/-- A record of a recording: a broker quote, or a gap. -/
inductive Entry where
  | quote (event : QuoteEvent)
  | gap
  deriving DecidableEq

/-- A recording, its records newest first. -/
structure Flight where
  setup : Setup
  final : Bool := false
  records : List Entry := []
  deriving DecidableEq

/-- How `append` ends: it stores the record, or fails before or after that. -/
inductive Append where | stored | torn | refused
  deriving DecidableEq

/-- How far the hand-over to a new setup comes before an error: whether the gap and the end of the
    recording that is closed for it were written. -/
structure Stop where
  gapped : Bool
  ended : Bool
  deriving DecidableEq

/-- Where the loop is: between its parts, in the events of a batch, giving events to recordings, or
    in the `except` of the loop. -/
inductive Phase where
  | idle
  | events (rest : List QuoteEvent)
  | recording (due : List (ℕ × QuoteEvent)) (rest : List QuoteEvent)
  | failed
  deriving DecidableEq

structure State where
  buffer : FlightQuoteBuffer
  /-- every event that a producer has observed -/
  history : List QuoteEvent := []
  flights : ℕ → Flight := fun _ => ⟨⟨0, 0, 0, false⟩, false, []⟩
  /-- how many recordings were created -/
  created : ℕ := 0
  stream : Option ℕ := none
  cursor : ℕ := 0
  recent : List QuoteEvent := []
  flight : Option ℕ := none
  posts : List ℕ := []
  seen : List ℕ := []
  phase : Phase := .idle

/-- The steps of the producer, of the environment and of the loop. A step that writes a record comes
    with the way the write ends. -/
inductive Event where
  | observe (o : Observation)
  | restart
  /-- The recorder's process ends and starts anew. -/
  | reboot
  /-- `Flight.update` with what the database says now, or the gap of a setup that it lacks. -/
  | update (r : ℕ) (updatedAt : ℤ) (terminal : Bool) (gaps : ℕ) (raised : Bool)
  /-- A new setup; `stop` is an error on the way. -/
  | takeUp (setup : Setup) (stop : Option Stop)
  | poll (append : Append)
  /-- The next event of the batch. -/
  | next (now : ℤ) (append : Append)
  /-- `Flight.quote`, with the gaps that its checks write. -/
  | store (append : Append) (gaps : ℕ) (raised : Bool)
  /-- The gap of `Flight.publish`. -/
  | quiet (append : Append)
  /-- `Flight.finish` after the post window. -/
  | finish (r : ℕ) (now : ℤ) (ended raised : Bool)
  /-- Any other error of the loop. -/
  | fail
  /-- The `except` of the loop; without `append` when the budget is used up. -/
  | handle (append : Option Append)
  deriving DecidableEq

namespace Flight

variable (f : Flight)

/-- Whether the event counts from the creation of the setup. -/
def since (e : QuoteEvent) : Bool := f.setup.createdAt ≤ e.receivedAt

def writeGaps (n : ℕ) : Flight := { f with records := List.replicate n .gap ++ f.records }

/-- `Flight.gap`. -/
def gap (append : Append) : Flight :=
  if f.final ∨ append = .refused then f else f.writeGaps 1

/-- Whether `Flight.gap` throws. -/
def gapRaises (append : Append) : Bool := f.final = false ∧ append ≠ .stored

/-- `Flight.quote` of a recording that is not final. -/
def quote (e : QuoteEvent) (append : Append) (gaps : ℕ) : Flight :=
  match append with
  | .refused => f
  | .torn => { f with records := .quote e :: f.records }
  | .stored => { f with records := List.replicate gaps .gap ++ .quote e :: f.records }

end Flight

namespace State

variable (s : State)

def setFlight (r : ℕ) (f : Flight) : State := { s with flights := Function.update s.flights r f }

/-- The recordings that are written to. -/
def live (r : ℕ) : Bool := (s.flight = some r ∨ r ∈ s.posts) ∧ (s.flights r).final = false

/-- The active recording, unless it is final. -/
def active : Option ℕ := s.flight.filter fun r => (s.flights r).final = false

/-- `flight.gap` of the active recording. -/
def gapActive (append : Append) : State :=
  match s.flight with
  | some r => s.setFlight r ((s.flights r).gap append)
  | none => s

def activeRaises (append : Append) : Bool := s.flight.any fun r => (s.flights r).gapRaises append

/-- The recordings that get the event: the active one, then those in their post window. -/
def recipients (e : QuoteEvent) : List ℕ :=
  (s.flight.toList ++ s.posts).filter fun r => (s.flights r).final = false ∧ (s.flights r).since e

/-- `recent`, with what is older than ten seconds dropped. -/
def remember (now : ℤ) (e : QuoteEvent) : List QuoteEvent :=
  let kept := s.recent ++ [e]
  (kept.drop (kept.length - 8192)).dropWhile fun old => 10000 < now - old.receivedAt

/-- The recording closed for a new setup: the gap, then the end. -/
def close (r : ℕ) (stop : Stop) : State :=
  let f := s.flights r
  let gapped := if stop.gapped then f.gap .stored else f
  s.setFlight r { gapped with final := f.final || stop.ended }

/-- The active recording makes way for a new setup: it enters its post window, where the oldest of
    more than eight is closed, or is closed itself. -/
def makeWay (stop : Stop) : State :=
  match s.active with
  | none => s
  | some r =>
    if (s.flights r).setup.terminal then
      match s.posts ++ [r] with
      | oldest :: posts =>
        if 8 < (oldest :: posts).length then { s with posts }.close oldest stop
        else { s with posts := oldest :: posts }
      | [] => s
    else s.close r stop

/-- The recording of a new setup, and the events of `recent` that count for it. -/
def begin (setup : Setup) : State :=
  let covered := s.recent.head?.any (·.receivedAt ≤ setup.createdAt)
  let f : Flight := ⟨setup, false, if covered then [] else [.gap]⟩
  { s with
    flights := Function.update s.flights s.created f
    created := s.created + 1
    flight := some s.created
    phase := .recording ((s.recent.filter (f.since ·)).map (s.created, ·)) [] }

/-- A setup is taken up if it is another one than the active one and was not seen to its end. -/
def takeUp (setup : Setup) (stop : Option Stop) : Option State :=
  if (∀ r ∈ s.flight, (s.flights r).setup.key ≠ setup.key) ∧ setup.key ∉ s.seen then
    match stop with
    | none => some ((s.makeWay ⟨true, true⟩).begin setup)
    | some stop => some { s.makeWay stop with phase := .failed }
  else none

/-- The answer to a read. -/
def poll (append : Append) : State :=
  let batch := s.buffer.read s.cursor
  if s.stream ≠ some batch.streamId then
    if s.activeRaises append then { s.gapActive append with phase := .failed }
    else { s.gapActive append with stream := some batch.streamId, cursor := 0, recent := [] }
  else if batch.gap then
    if s.activeRaises append then { s.gapActive append with recent := [], phase := .failed }
    else if batch.latestSequence < s.cursor then
      { s.gapActive append with recent := [], cursor := 0 }
    else { s.gapActive append with recent := [], phase := .events batch.events }
  else { s with phase := .events batch.events }

/-- An event of the batch: the cursor moves before the event is stored. -/
def next (e : QuoteEvent) (rest : List QuoteEvent) (now : ℤ) (append : Append) : State :=
  if e.sequence ≤ s.cursor then { s with phase := .failed }
  else
    let jump : Bool := s.cursor ≠ 0 ∧ e.sequence ≠ s.cursor + 1
    if jump ∧ s.activeRaises append then { s.gapActive append with phase := .failed }
    else
      let t := if jump then s.gapActive append else s
      { t with
        cursor := e.sequence
        recent := s.remember now e
        phase := .recording ((s.recipients e).map (·, e)) rest }

/-- The next record of the events that are due. -/
def store (r : ℕ) (e : QuoteEvent) (due : List (ℕ × QuoteEvent)) (rest : List QuoteEvent)
    (append : Append) (gaps : ℕ) (raised : Bool) : State :=
  { s.setFlight r ((s.flights r).quote e append gaps) with
    phase := if append ≠ .stored ∨ raised then .failed else .recording due rest }

/-- The end of the post window. -/
def windowOver (r : ℕ) (now : ℤ) : Bool :=
  (r ∈ s.posts ∨ s.active = some r ∧ (s.flights r).setup.terminal) ∧
    (s.flights r).setup.updatedAt + 30000 ≤ now

def remembered (key : ℕ) : List ℕ :=
  if 8192 < (key :: s.seen).length then (s.flight.map fun r => (s.flights r).setup.key).toList
  else key :: s.seen

def finish (r : ℕ) (ended raised : Bool) : Option State :=
  let f := s.flights r
  let t := s.setFlight r { f with final := f.final || ended }
  if raised then some { t with phase := .failed }
  else if f.final || ended then
    some { t with posts := s.posts.erase r, seen := s.remembered f.setup.key }
  else none

def update (r : ℕ) (updatedAt : ℤ) (terminal : Bool) (gaps : ℕ) (raised : Bool) : State :=
  let f := (s.flights r).writeGaps gaps
  { s.setFlight r { f with setup := { f.setup with updatedAt, terminal } } with
    phase := if raised then .failed else s.phase }

def step : Event → Option State
  | .observe o =>
    some { s with
      buffer := s.buffer.observe o
      history := if s.buffer.takes o then s.buffer.nextEvent o :: s.history else s.history }
  | .restart => some { s with buffer := s.buffer.restart }
  | .reboot =>
    some { s with
      stream := none
      cursor := 0
      recent := []
      flight := none
      posts := []
      seen := []
      phase := .idle }
  | .update r updatedAt terminal gaps raised =>
    if s.phase = .idle ∧ s.live r then some (s.update r updatedAt terminal gaps raised) else none
  | .takeUp setup stop => if s.phase = .idle then s.takeUp setup stop else none
  | .poll append => if s.phase = .idle then some (s.poll append) else none
  | .next now append =>
    match s.phase with
    | .events (e :: rest) => some (s.next e rest now append)
    | .events [] => some { s with phase := .idle }
    | _ => none
  | .store append gaps raised =>
    match s.phase with
    | .recording ((r, e) :: due) rest => some (s.store r e due rest append gaps raised)
    | .recording [] rest => some { s with phase := .events rest }
    | _ => none
  | .quiet append =>
    if s.phase = .idle then
      some { s.gapActive append with
        phase := if s.activeRaises append then .failed else .idle }
    else none
  | .finish r now ended raised =>
    if s.phase = .idle ∧ s.windowOver r now then s.finish r ended raised else none
  | .fail => if s.phase = .idle then some { s with phase := .failed } else none
  | .handle append =>
    if s.phase = .failed then some { s.gapActive (append.getD .refused) with phase := .idle }
    else none

end State

end ScalpingBot.FlightRecorder
