import Mathlib.Algebra.GroupWithZero.Nat
import Mathlib.Data.List.Sort
import ScalpingBot.Library.Dictionary
import ScalpingBot.Library.Interrupted

/-! The book of depth quotes that a connection keeps up to date: messages delete and put quotes one by
    one, each message leaves a sample of the depths, and a reconnect empties the book. -/

namespace ScalpingBot.Depth

/-- Milliseconds. -/
abbrev Instant := ℤ

/-! ### Messages -/

/-- A value of a message, a number by its printed text and whether it is a safe integer. -/
inductive Value where
  | null
  | boolean (value : Bool)
  | number (text : String) (safeInteger : Bool)
  | string (text : String)
  | array (items : List Value)
  | object (fields : List (String × Value))

abbrev Record := List (String × Value)

inductive Reason where
  | timestampInvalid
  | repeatedFieldInvalid
  | objectInvalid
  | fieldInvalid (key : String)
  | decimalInvalid (text : String)
  | notPrimitive
  deriving DecidableEq

mutual

/-- `String(value)`: an object with a `toString` of its own has no text. -/
def toText : Value → Except Reason String
  | .null => .ok "null"
  | .boolean value => .ok (if value then "true" else "false")
  | .number text _ => .ok text
  | .string text => .ok text
  | .array items => (itemTexts items).map (",".intercalate ·)
  | .object fields =>
    if (fields.lookup "toString").isSome then .error .notPrimitive else .ok "[object Object]"

/-- The texts of the items of an array, where `null` has none. -/
def itemTexts : List Value → Except Reason (List String)
  | [] => .ok []
  | .null :: items => (itemTexts items).map ("" :: ·)
  | item :: items => do
    let text ← toText item
    let texts ← itemTexts items
    return text :: texts

end

def record : Value → Except Reason Record
  | .object fields => .ok fields
  | _ => .error .objectInvalid

def recordsField (object : Record) (key : String) : Except Reason (List Record) :=
  match object.lookup key with
  | none | some .null => .ok []
  | some (.array items) => items.mapM record
  | some _ => .error .repeatedFieldInvalid

def stringField (object : Record) (key : String) : Except Reason String :=
  match object.lookup key with
  | some (.string text) => if text.length > 0 then .ok text else .error (.fieldInvalid key)
  | some (.number text true) => .ok text
  | _ => .error (.fieldInvalid key)

def optionalStringField (object : Record) (key : String) : Except Reason (Option String) :=
  match object.lookup key with
  | none | some .null => .ok none
  | some _ => (stringField object key).map some

/-! ### Quotes -/

/-- Decimals: `parse` is the constructor, which throws on other texts, `comparedTo` counts a comparison
    without an outcome as 0, as a sort does, and `canonical` is the text of a decimal. -/
structure Arithmetic (D : Type) where
  parse : String → Option D
  div : D → ℕ → D
  plus : D → D → D
  minus : D → D → D
  zero : D
  comparedTo : D → D → ℤ
  canonical : D → String

inductive Side where
  | bid
  | ask
  deriving DecidableEq

structure DepthQuote (D : Type) where
  id : String
  side : Side
  price : D
  size : D
  deriving DecidableEq

/-- The quotes in the order in which their ids came in, each id once. -/
structure Quotes (D : Type) where
  rows : List (DepthQuote D)
  nodup : (rows.map DepthQuote.id).Nodup

namespace Quotes

variable {D : Type} (quotes : Quotes D)

def empty : Quotes D := ⟨[], List.nodup_nil⟩

def get (id : String) : Option (DepthQuote D) := Dictionary.lookup DepthQuote.id id quotes.rows

def has (id : String) : Bool := (quotes.get id).isSome

def delete (id : String) : Quotes D :=
  ⟨quotes.rows.filter fun quote => quote.id ≠ id, (List.filter_sublist.map _).nodup quotes.nodup⟩

def set (quote : DepthQuote D) : Quotes D :=
  ⟨Dictionary.put DepthQuote.id quote quotes.rows, Dictionary.nodup_put quotes.nodup⟩

/-- How many quotes there are. -/
def size : ℕ := quotes.rows.length

theorem has_iff {id : String} : quotes.has id ↔ id ∈ quotes.rows.map DepthQuote.id :=
  Dictionary.lookup_isSome

theorem get_delete {id other : String} :
    (quotes.delete other).get id = if other = id then none else quotes.get id := by
  split
  · rename_i h
    subst h
    exact Dictionary.lookup_filter_self
  · rename_i h
    exact Dictionary.lookup_filter_of_ne h

theorem get_set {quote : DepthQuote D} {id : String} :
    (quotes.set quote).get id = if quote.id = id then some quote else quotes.get id := by
  split
  · rename_i h
    subst h
    exact Dictionary.lookup_put_self
  · rename_i h
    exact Dictionary.lookup_put_of_ne h

theorem size_delete (id : String) :
    (quotes.delete id).size + (if quotes.has id then 1 else 0) = quotes.size := by
  simp only [has_iff]
  exact Dictionary.length_filter_ne quotes.nodup

theorem size_set (quote : DepthQuote D) :
    (quotes.set quote).size = quotes.size + (if quotes.has quote.id then 0 else 1) := by
  simp only [has_iff]
  split
  · rename_i h
    exact Dictionary.length_put_of_mem h
  · rename_i h
    exact Dictionary.length_put_of_not_mem h

end Quotes

/-! ### The book -/

structure BookSample (D : Type) where
  timestamp : Instant
  bidDepth : D
  askDepth : D
  additions : ℕ
  removals : ℕ
  deriving DecidableEq

structure Book (D : Type) where
  quotes : Quotes D
  samples : List (BookSample D)
  updatedAt : Option Instant
  receivedAt : Option Instant
  reconnectSequence : ℕ
  discontinuity : Bool

/-- A book that no message has reached. -/
def Book.new {D : Type} : Book D where
  quotes := .empty
  samples := []
  updatedAt := none
  receivedAt := none
  reconnectSequence := 0
  discontinuity := true

variable {D : Type} (A : Arithmetic D)

def bids (quotes : Quotes D) : List (DepthQuote D) :=
  (quotes.rows.filter fun quote => quote.side = .bid).insertionSort fun left right =>
    A.comparedTo right.price left.price ≤ 0

def asks (quotes : Quotes D) : List (DepthQuote D) :=
  (quotes.rows.filter fun quote => quote.side = .ask).insertionSort fun left right =>
    A.comparedTo left.price right.price ≤ 0

/-- The sizes of some quotes, added up in their order. -/
def depth (quotes : List (DepthQuote D)) : D :=
  quotes.foldl (fun total quote => A.plus total quote.size) A.zero

def markReconnect (book : Book D) : Book D :=
  { book with
    quotes := .empty
    reconnectSequence := book.reconnectSequence + 1
    discontinuity := true
    updatedAt := none
    receivedAt := none }

/-! ### A message -/

/-- The quotes while a message is applied, with what it has added and removed. -/
structure Progress (D : Type) where
  quotes : Quotes D
  additions : ℕ
  removals : ℕ

def Progress.delete (progress : Progress D) (id : String) : Progress D :=
  { progress with
    quotes := progress.quotes.delete id
    removals := progress.removals + (if progress.quotes.has id then 1 else 0) }

/-- A record with both a bid and an ask, or neither, is passed over. -/
def Progress.put (progress : Progress D) : Option (DepthQuote D) → Progress D
  | none => progress
  | some quote =>
    { progress with
      quotes := progress.quotes.set quote
      additions := progress.additions + (if progress.quotes.has quote.id then 0 else 1) }

def parseDecimal (text : String) : Except Reason D :=
  match A.parse text with
  | none => .error (.decimalInvalid text)
  | some value => .ok value

def readQuote (raw : Record) (id : String) (side : Side) (text : String) :
    Except Reason (Option (DepthQuote D)) := do
  let relative ← parseDecimal A text
  let sizeText ← stringField raw "size"
  let size ← parseDecimal A sizeText
  return some { id, side, price := A.div relative 100000, size := A.div size 100 }

def readRecord (raw : Record) : Except Reason (Option (DepthQuote D)) := do
  let id ← stringField raw "id"
  let bid ← optionalStringField raw "bid"
  let ask ← optionalStringField raw "ask"
  match bid, ask with
  | some text, none => readQuote A raw id .bid text
  | none, some text => readQuote A raw id .ask text
  | _, _ => return none

def deletedQuotes (payload : Record) : List Value :=
  match payload.lookup "deletedQuotes" with
  | some (.array items) => items
  | _ => []

/-- The deletions and then the new quotes, each taking effect before the next one is read. -/
def change (quotes : Quotes D) (payload : Record) : Progress D × Except Reason Unit :=
  let deleted := Interrupted.sweep toText Progress.delete ⟨quotes, 0, 0⟩ (deletedQuotes payload)
  match deleted.2 with
  | .error reason => (deleted.1, .error reason)
  | .ok () =>
    match recordsField payload "newQuotes" with
    | .error reason => (deleted.1, .error reason)
    | .ok records => Interrupted.sweep (readRecord A) Progress.put deleted.1 records

def sampleOf (progress : Progress D) (receivedAt : Instant) : BookSample D where
  timestamp := receivedAt
  bidDepth := depth A (bids A progress.quotes)
  askDepth := depth A (asks A progress.quotes)
  additions := progress.additions
  removals := progress.removals

/-- The sample joins the others, and those of more than fifteen minutes before it leave. -/
def pushSample (samples : List (BookSample D)) (sample : BookSample D) : List (BookSample D) :=
  (samples ++ [sample]).dropWhile fun other => other.timestamp < sample.timestamp - 15 * 60000

def apply (book : Book D) (payload : Record) (sourceAt receivedAt : Option Instant) :
    Book D × Except Reason Unit :=
  match sourceAt, receivedAt with
  | some source, some received =>
    let changed := change A book.quotes payload
    let quotes := changed.1.quotes
    match changed.2 with
    | .error reason => ({ book with quotes }, .error reason)
    | .ok () =>
      ({ book with
        quotes
        updatedAt := some source
        receivedAt := some received
        discontinuity :=
          if (bids A quotes).length > 0 ∧ (asks A quotes).length > 0 then false
          else book.discontinuity
        samples := pushSample book.samples (sampleOf A changed.1 received) }, .ok ())
  | _, _ => (book, .error .timestampInvalid)

/-! ### What a window of the samples reports -/

inductive Window where
  | oneMinute
  | fiveMinutes
  | fifteenMinutes

def Window.ms : Window → Instant
  | .oneMinute => 60000
  | .fiveMinutes => 300000
  | .fifteenMinutes => 900000

structure DepthAggregate where
  windowMs : Window
  sampleCount : ℕ
  bidLiquidityChange : String
  askLiquidityChange : String
  additions : ℕ
  removals : ℕ

def liquidityChange (depthOf : BookSample D → D) (samples : List (BookSample D)) : String :=
  match samples.head?, samples.getLast? with
  | some first, some last => A.canonical (A.minus (depthOf last) (depthOf first))
  | _, _ => "0"

def aggregate (book : Book D) (windowMs : Window) (now : Instant) : DepthAggregate :=
  let samples := book.samples.filter fun sample => sample.timestamp ≥ now - windowMs.ms
  { windowMs
    sampleCount := samples.length
    bidLiquidityChange := liquidityChange A BookSample.bidDepth samples
    askLiquidityChange := liquidityChange A BookSample.askDepth samples
    additions := (samples.map BookSample.additions).sum
    removals := (samples.map BookSample.removals).sum }

/-! ### What a message does to the quotes -/

variable {A}

/-- The ids that leave the book before the message fails, if it does. -/
def reachedIds (payload : Record) : List String :=
  Interrupted.passed toText (deletedQuotes payload)

variable (A) in
/-- The quotes that enter the book before the message fails, if it does. -/
def reachedQuotes (payload : Record) : List (DepthQuote D) :=
  match Interrupted.failure toText (deletedQuotes payload), recordsField payload "newQuotes" with
  | none, .ok records => (Interrupted.passed (readRecord A) records).reduceOption
  | _, _ => []

variable (A) in
/-- The first reason for which a message is not well formed. -/
def malformed (payload : Record) : Option Reason :=
  match Interrupted.failure toText (deletedQuotes payload), recordsField payload "newQuotes" with
  | some reason, _ => some reason
  | none, .error reason => some reason
  | none, .ok records => Interrupted.failure (readRecord A) records

theorem foldl_put (progress : Progress D) (quotes : List (Option (DepthQuote D))) :
    quotes.foldl Progress.put progress =
      quotes.reduceOption.foldl (fun progress quote => progress.put (some quote)) progress := by
  induction quotes generalizing progress with
  | nil => rfl
  | cons quote quotes ih =>
    cases quote with
    | none => exact ih progress
    | some quote => exact ih (progress.put (some quote))

/-- A message fails for the first reason why it is not well formed, and leaves what it has reached. -/
theorem change_eq (quotes : Quotes D) (payload : Record) : change A quotes payload =
    ((reachedQuotes A payload).foldl (fun progress quote => progress.put (some quote))
      ((reachedIds payload).foldl Progress.delete ⟨quotes, 0, 0⟩),
      Interrupted.ending (malformed A payload)) := by
  rw [change, Interrupted.sweep_eq, reachedQuotes, malformed, reachedIds]
  cases Interrupted.failure toText (deletedQuotes payload) with
  | some reason => rfl
  | none =>
    cases recordsField payload "newQuotes" with
    | error reason => rfl
    | ok records =>
      rw [← foldl_put]
      exact Interrupted.sweep_eq _

end ScalpingBot.Depth
