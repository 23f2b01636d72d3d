import ScalpingBot.Contracts

/-! The fields of a broker message, as the accessors of packages/ctrader-client/src/protocol.ts read
    them. -/

namespace ScalpingBot.Execution

/-- A value of a broker message. -/
inductive Raw where
  | null
  | boolean (value : Bool)
  | number (value : Decimal)
  | text (value : String)
  | record (fields : List (String × Raw))
  | array

abbrev RawRecord := List (String × Raw)

/-- `Number.isSafeInteger`. -/
def isSafe (n : Decimal) : Bool := n.den = 1 ∧ |n| ≤ 9007199254740991

/-- The parsers of number and decimal texts (`none` where they reject a text), and the hash of a
    payload. -/
structure Platform (Payload : Type) where
  number : String → Option Decimal
  decimal : String → Option Decimal
  hash : Payload → String

def fieldInvalid (key : String) : String := "CTRADER_FIELD_INVALID:" ++ key

def record (value : Option Raw) (reason : String) : Except String RawRecord :=
  match value with
  | some (.record fields) => .ok fields
  | _ => .error reason

def stringField (object : RawRecord) (key : String) : Except String String :=
  match object.lookup key with
  | some (.text value) => if value = "" then .error (fieldInvalid key) else .ok value
  | some (.number n) => if isSafe n then .ok (toString n.num) else .error (fieldInvalid key)
  | _ => .error (fieldInvalid key)

/-- The field is missing or `null`. -/
def isAbsent (object : RawRecord) (key : String) : Bool :=
  match object.lookup key with
  | none | some .null => true
  | _ => false

def optionalStringField (object : RawRecord) (key : String) : Except String (Option String) :=
  if isAbsent object key then .ok none else some <$> stringField object key

section

variable {Payload : Type} (P : Platform Payload)

def numberField (object : RawRecord) (key : String) : Except String Decimal :=
  match object.lookup key with
  | some (.number n) => .ok n
  | some (.text value) =>
    match P.number value with
    | some n => .ok n
    | none => .error (fieldInvalid key)
  | _ => .error (fieldInvalid key)

def optionalNumberField (object : RawRecord) (key : String) : Except String (Option Decimal) :=
  if isAbsent object key then .ok none else some <$> numberField P object key

end

end ScalpingBot.Execution
