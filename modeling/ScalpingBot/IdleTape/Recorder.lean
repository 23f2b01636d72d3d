import ScalpingBot.Library.Journal

/-! The recorder of idle quotes: events are numbered as they are offered, wait in a bounded queue, are
    counted when their turn comes and leave in segments. One job runs at a time; between its waits for
    the file system other calls come in. -/

namespace ScalpingBot.IdleTape

/-! ### Events and rows -/

inductive Kind where
  | quote
  | reconnect
  deriving DecidableEq

structure FlightQuoteObservation where
  kind : Kind
  symbolName : Option String
  bid : Option String
  ask : Option String
  sourceTime : Option String
  receivedAt : String
  bidUpdated : Bool
  askUpdated : Bool
  deriving DecidableEq

structure Clocks where
  bidSourceTime : Option String
  askSourceTime : Option String
  bidReceivedAt : Option String
  askReceivedAt : Option String
  deriving DecidableEq

structure Row where
  sequence : ℕ
  value : FlightQuoteObservation
  clocks : Clocks
  deriving DecidableEq

/-- The messages of the recorder; every other error is an I/O failure. -/
inductive Reason where
  | queueOrStopped
  | receiveOrder
  | capacity
  | writeVerify
  | ioFailure
  deriving DecidableEq

/-- The manifest of the file with this number. -/
structure Manifest where
  file : ℕ
  compressedBytes : ℕ
  updates : ℕ
  firstSequence : ℕ
  lastSequence : ℕ
  firstReceivedAt : String
  lastReceivedAt : String
  droppedUpdates : ℕ
  lastError : Option Reason
  deriving DecidableEq

/-- A published segment: its manifest and the rows in its file. -/
structure Segment where
  manifest : Manifest
  rows : List Row
  deriving DecidableEq

/-- What the recorder takes from elsewhere: dates, the bytes of a row, the bytes of compressed rows. -/
structure Platform where
  parseDate : String → Option ℤ
  rowBytes : Row → ℕ
  compressedBytes : List Row → ℕ

def maxBytes : ℕ := 256 * 1024 * 1024

def segmentBytes : ℕ := 1024 * 1024

def freeReserve : ℕ := 2 * 1024 * 1024 * 1024

/-! ### The recorder -/

/-- What waits in the chain of promises. -/
inductive Job where
  | observe (row : Row)
  | flush
  deriving DecidableEq

/-- Where a job is: in the three parts of a seal, at its end before its error is caught, or before the
    last line of an observation. -/
inductive Phase where
  | preparing
  | storing
  | publishing (manifest : Manifest)
  | ended (error : Option Reason)
  | caught
  deriving DecidableEq

/-- The job at work, and whether its row is already in the buffer. -/
structure Running where
  job : Job
  buffered : Bool
  phase : Phase
  deriving DecidableEq

/-- `rejected` is the error of the chain of promises, if its last job left one. No step reads which
    events have been `observed` and `refused`, nor what has been `published`. -/
structure Recorder where
  sequence : ℕ
  segment : ℕ
  rows : List Row
  bytes : ℕ
  clocks : Clocks
  persisted : ℕ
  failed : Bool
  lastAt : Option ℤ
  written : ℕ
  dropped : ℕ
  error : Option Reason
  stopped : Bool
  pending : ℕ
  queue : List Job
  running : Option Running
  rejected : Option Reason
  observed : List ℕ
  refused : List ℕ
  published : List Segment
  deriving DecidableEq

def Recorder.new : Recorder where
  sequence := 0
  segment := 0
  rows := []
  bytes := 0
  clocks := ⟨none, none, none, none⟩
  persisted := 0
  failed := false
  lastAt := none
  written := 0
  dropped := 0
  error := none
  stopped := false
  pending := 0
  queue := []
  running := none
  rejected := none
  observed := []
  refused := []
  published := []

/-- The calls of the adapters, and what the file system answers to the job at work: the number of
    names, the free bytes and the sizes of the files; whether the file reads back as it was written;
    whether the manifest could be put in its place. -/
inductive Event where
  | observe (event : FlightQuoteObservation)
  | flush
  | stop
  | start
  | prepared (listing : Option (ℕ × ℕ)) (used : Option ℕ)
  | stored (readBack : Option Bool)
  | published (renamed : Bool)
  | settle

variable (platform : Platform)

/-! ### Calls -/

/-- Events of other symbols are not offered; a reconnect concerns every symbol. -/
def offered (symbol : String) (event : FlightQuoteObservation) : Bool :=
  event.kind = .reconnect || event.symbolName = some symbol

def Clocks.after (clocks : Clocks) (event : FlightQuoteObservation) : Clocks :=
  match event.kind with
  | .reconnect => ⟨none, none, none, none⟩
  | .quote =>
    { bidSourceTime := if event.bidUpdated then event.sourceTime else clocks.bidSourceTime
      bidReceivedAt := if event.bidUpdated then some event.receivedAt else clocks.bidReceivedAt
      askSourceTime := if event.askUpdated then event.sourceTime else clocks.askSourceTime
      askReceivedAt := if event.askUpdated then some event.receivedAt else clocks.askReceivedAt }

/-- An event counts as dropped. -/
def drop (r : Recorder) (sequence : ℕ) : Recorder :=
  { r with dropped := r.dropped + 1, refused := r.refused ++ [sequence] }

def observe (symbol : String) (r : Recorder) (event : FlightQuoteObservation) : Recorder :=
  if offered symbol event then
    let sequence := r.sequence + 1
    let clocks := r.clocks.after event
    if r.stopped || r.failed || r.pending ≥ 2048 then
      drop { r with sequence, clocks, error := r.error.or (some .queueOrStopped) } sequence
    else
      { r with
        sequence
        clocks
        pending := r.pending + 1
        queue := r.queue ++ [.observe { sequence, value := event, clocks }] }
  else r

def flush (r : Recorder) : Recorder := { r with queue := r.queue ++ [.flush] }

def stop (r : Recorder) : Recorder := flush { r with stopped := true }

/-! ### A job -/

/-- The job has come to its end. -/
def finish (r : Recorder) (job : Job) (buffered : Bool) (error : Option Reason) : Recorder :=
  { r with running := some ⟨job, buffered, .ended error⟩ }

/-- A row joins the buffer; a full buffer is sealed. -/
def push (r : Recorder) (row : Row) : Recorder :=
  let bytes := r.bytes + platform.rowBytes row + 1
  { r with
    rows := r.rows ++ [row]
    bytes
    lastAt := platform.parseDate row.value.receivedAt
    written := r.written + 1
    observed := r.observed ++ [row.sequence]
    running := some ⟨.observe row, true, if bytes ≥ segmentBytes then .preparing else .ended none⟩ }

/-- What follows a seal. -/
def resume (r : Recorder) (job : Job) (buffered : Bool) : Recorder :=
  match job, buffered with
  | .observe row, false => push platform r row
  | _, _ => finish r job buffered none

/-- A seal of a buffer that is not full; there is nothing to do for an empty one. -/
def sealBuffer (r : Recorder) (job : Job) : Recorder :=
  if r.rows.length = 0 then resume platform r job false
  else { r with running := some ⟨job, false, .preparing⟩ }

/-- The job at the head of the chain begins; on a rejected chain it does not. -/
def begin (r : Recorder) (job : Job) : Recorder :=
  match r.rejected, job with
  | some reason, job => finish r job false (some reason)
  | none, .flush => sealBuffer platform r .flush
  | none, .observe row =>
    if r.failed then finish (drop r row.sequence) (.observe row) false none
    else
      match platform.parseDate row.value.receivedAt with
      | none => finish r (.observe row) false (some .receiveOrder)
      | some at' =>
        match r.lastAt with
        | none => push platform r row
        | some lastAt =>
          if at' < lastAt then finish r (.observe row) false (some .receiveOrder)
          else if at'.fdiv 300000 ≠ lastAt.fdiv 300000 then sealBuffer platform r (.observe row)
          else push platform r row

/-- Whether the directory has room for the rows; the sizes are only asked for when it may have. -/
def room (rows : List Row) (listing : Option (ℕ × ℕ)) (used : Option ℕ) : Except Reason Unit :=
  match listing with
  | none => .error .ioFailure
  | some (names, free) =>
    if names > 10000 ∨ free < freeReserve + 2 * segmentBytes then .error .capacity
    else
      match used with
      | none => .error .ioFailure
      | some used =>
        if used + platform.compressedBytes rows + 4096 > maxBytes then .error .capacity else .ok ()

/-- A full directory is recorded where it is found, before the error is caught. -/
def prepared (r : Recorder) (job : Job) (buffered : Bool) (listing : Option (ℕ × ℕ))
    (used : Option ℕ) : Recorder :=
  match room platform r.rows listing used with
  | .error .capacity =>
    finish { r with failed := true, error := some .capacity } job buffered (some .capacity)
  | .error reason => finish r job buffered (some reason)
  | .ok () =>
    { r with segment := r.segment + 1, running := some ⟨job, buffered, .storing⟩ }

def manifestOf (r : Recorder) : Manifest where
  file := r.segment
  compressedBytes := platform.compressedBytes r.rows
  updates := r.rows.length
  firstSequence := (r.rows.head?.map Row.sequence).getD 0
  lastSequence := (r.rows.getLast?.map Row.sequence).getD 0
  firstReceivedAt := (r.rows.head?.map fun row => row.value.receivedAt).getD ""
  lastReceivedAt := (r.rows.getLast?.map fun row => row.value.receivedAt).getD ""
  droppedUpdates := r.dropped
  lastError := r.error

def stored (r : Recorder) (job : Job) (buffered : Bool) (readBack : Option Bool) : Recorder :=
  match readBack with
  | none => finish r job buffered (some .ioFailure)
  | some false => finish r job buffered (some .writeVerify)
  | some true => { r with running := some ⟨job, buffered, .publishing (manifestOf platform r)⟩ }

/-- The manifest is in its place, and the buffer is empty again. -/
def publish (r : Recorder) (manifest : Manifest) : Recorder :=
  { r with
    persisted := r.persisted + r.rows.length
    rows := []
    bytes := 0
    published := r.published ++ [⟨manifest, r.rows⟩] }

def published (r : Recorder) (job : Job) (buffered : Bool) (manifest : Manifest) (renamed : Bool) :
    Recorder :=
  if renamed then resume platform (publish r manifest) job buffered
  else finish r job buffered (some .ioFailure)

/-- The error of an observation is counted and forgotten by the chain, that of a flush is not. -/
def caught (r : Recorder) (job : Job) (buffered : Bool) (error : Option Reason) : Recorder :=
  match job, error with
  | .observe _, none => { r with rejected := none, running := some ⟨job, buffered, .caught⟩ }
  | .observe row, some reason =>
    { drop r row.sequence with
      failed := true
      error := some reason
      rejected := none
      running := some ⟨job, buffered, .caught⟩ }
  | .flush, none => { r with rejected := none, running := none }
  | .flush, some reason =>
    { r with failed := true, error := some reason, rejected := some reason, running := none }

/-- A step; answers that nobody waits for change nothing. -/
def next (symbol : String) (r : Recorder) (event : Event) : Recorder :=
  match event with
  | .observe event => observe symbol r event
  | .flush => flush r
  | .stop => stop r
  | .start =>
    match r.running, r.queue with
    | none, job :: rest => begin platform { r with queue := rest } job
    | _, _ => r
  | .prepared listing used =>
    match r.running with
    | some ⟨job, buffered, .preparing⟩ => prepared platform r job buffered listing used
    | _ => r
  | .stored readBack =>
    match r.running with
    | some ⟨job, buffered, .storing⟩ => stored platform r job buffered readBack
    | _ => r
  | .published renamed =>
    match r.running with
    | some ⟨job, buffered, .publishing manifest⟩ => published platform r job buffered manifest renamed
    | _ => r
  | .settle =>
    match r.running with
    | some ⟨job, buffered, .ended error⟩ => caught r job buffered error
    | some ⟨_, _, .caught⟩ => { r with pending := r.pending - 1, running := none }
    | _ => r

abbrev Step := Journal.Step Recorder Event

def run (symbol : String) (events : List Event) : Recorder :=
  events.foldl (next platform symbol) .new

end ScalpingBot.IdleTape
