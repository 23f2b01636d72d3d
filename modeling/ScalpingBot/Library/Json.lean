import Mathlib.Data.List.Infix
import Mathlib.Tactic.Common

/-! JSON texts: the trees that a text denotes, the grammar, and a reader that decides it. A text is
    the list of its UTF-16 code units; an object keeps every member of the text, equal keys
    included. -/

namespace ScalpingBot

namespace Json

abbrev Text := List ℕ

/-- The code units of a text. -/
def units (s : String) : Text := s.toList.map Char.toNat

/-- The white space between tokens. -/
def isSpace (c : ℕ) : Bool := c == 32 || c == 9 || c == 10 || c == 13

def skip (s : Text) : Text := s.dropWhile isSpace

def isDigit (c : ℕ) : Bool := 48 ≤ c && c ≤ 57

/-- The characters of the literals and of the numbers. -/
def isWord (c : ℕ) : Bool :=
  isDigit c || (97 ≤ c && c ≤ 122) || c == 69 || c == 43 || c == 45 || c == 46

/-! ### Numbers -/

/-- How far a number literal has been read. -/
inductive Reading where
  | start | minus | zero | whole | point | fraction | exponent | sign | power
  deriving DecidableEq

namespace Reading

/-- A number may end here. -/
def ends : Reading → Bool
  | zero | whole | fraction | power => true
  | _ => false

def isExponent (c : ℕ) : Bool := c == 101 || c == 69

def next (q : Reading) (c : ℕ) : Option Reading :=
  match q with
  | start => if c = 45 then some minus else if c = 48 then some zero
      else if isDigit c then some whole else none
  | minus => if c = 48 then some zero else if isDigit c then some whole else none
  | zero => if c = 46 then some point else if isExponent c then some exponent else none
  | whole => if isDigit c then some whole else if c = 46 then some point
      else if isExponent c then some exponent else none
  | point => if isDigit c then some fraction else none
  | fraction => if isDigit c then some fraction else if isExponent c then some exponent else none
  | exponent => if isDigit c then some power else if c = 43 ∨ c = 45 then some sign else none
  | sign => if isDigit c then some power else none
  | power => if isDigit c then some power else none

/-- The longest run of the number automaton: where it ends, what it took and what it left. -/
def run (q : Reading) : Text → Reading × Text × Text
  | [] => (q, [], [])
  | c :: s =>
    match q.next c with
    | none => (q, [], c :: s)
    | some q' => ((q'.run s).1, c :: (q'.run s).2.1, (q'.run s).2.2)

variable {q : Reading} {c : ℕ} {s r : Text}

theorem isWord_of_next {q' : Reading} (h : q.next c = some q') : isWord c = true := by
  unfold next at h
  unfold isWord
  split at h <;> grind [isExponent, isDigit]

theorem run_stop (h : q.next c = none) : q.run (c :: s) = (q, [], c :: s) := by
  simp [run, h]

theorem run_go {q' : Reading} (h : q.next c = some q') :
    q.run (c :: s) = ((q'.run s).1, c :: (q'.run s).2.1, (q'.run s).2.2) := by
  simp [run, h]

theorem append_run (q : Reading) (s : Text) : (q.run s).2.1 ++ (q.run s).2.2 = s := by
  induction s generalizing q with
  | nil => rfl
  | cons c s ih =>
    cases hq : q.next c with
    | none => simp [run_stop hq]
    | some q' => simp [run_go hq, ih q']

theorem isWord_run (q : Reading) (s : Text) : ∀ c ∈ (q.run s).2.1, isWord c = true := by
  induction s generalizing q with
  | nil => simp [run]
  | cons c s ih =>
    cases hq : q.next c with
    | none => simp [run_stop hq]
    | some q' =>
      intro x hx
      rw [run_go hq] at hx
      rcases List.mem_cons.mp hx with rfl | hx
      · exact isWord_of_next hq
      · exact ih q' x hx

/-- What a run took is taken again, before anything that cannot continue it. -/
theorem run_append (q : Reading) (s : Text) (h : ∀ c ∈ r.head?, (q.run s).1.next c = none) :
    q.run ((q.run s).2.1 ++ r) = ((q.run s).1, (q.run s).2.1, r) := by
  have hstop : ∀ q' : Reading, (∀ c ∈ r.head?, q'.next c = none) → q'.run r = (q', [], r) := by
    intro q' hr
    cases r with
    | nil => rfl
    | cons c r => exact run_stop (hr c rfl)
  induction s generalizing q with
  | nil => exact hstop q h
  | cons c s ih =>
    cases hq : q.next c with
    | none =>
      rw [run_stop hq] at h ⊢
      exact hstop q h
    | some q' =>
      rw [run_go hq] at h ⊢
      rw [List.cons_append, run_go hq, ih q' h]

end Reading

/-- The literal of a number. -/
structure Number where
  literal : Text
  ends : (Reading.start.run literal).1.ends = true
  whole : (Reading.start.run literal).2.1 = literal

theorem Number.ext {m n : Number} (h : m.literal = n.literal) : m = n := by
  cases m
  cases n
  cases h
  rfl

/-- The longest number at the start of a text. -/
def readNumber (s : Text) : Option (Number × Text) :=
  if h : (Reading.start.run s).1.ends = true then
    some (⟨(Reading.start.run s).2.1,
      by
        have hself := Reading.run_append (r := []) Reading.start s (by simp)
        rw [List.append_nil] at hself
        rw [hself]
        exact h,
      by
        have hself := Reading.run_append (r := []) Reading.start s (by simp)
        rw [List.append_nil] at hself
        rw [hself]⟩, (Reading.start.run s).2.2)
  else none

end Json

/-- The tree of a text. -/
inductive Json where
  | null
  | bool (b : Bool)
  | number (n : Json.Number)
  | string (t : Json.Text)
  | array (items : List Json)
  | object (members : List (Json.Text × Json))

namespace Json

/-! ### Strings -/

def hex (c : ℕ) : Option ℕ :=
  if isDigit c then some (c - 48)
  else if 97 ≤ c ∧ c ≤ 102 then some (c - 87)
  else if 65 ≤ c ∧ c ≤ 70 then some (c - 55)
  else none

/-- The code unit of a one-character escape. -/
def unescape (c : ℕ) : Option ℕ :=
  if c = 34 ∨ c = 92 ∨ c = 47 then some c
  else if c = 98 then some 8
  else if c = 102 then some 12
  else if c = 110 then some 10
  else if c = 114 then some 13
  else if c = 116 then some 9
  else none

def hex4 (a b d e : ℕ) : Option ℕ :=
  match hex a, hex b, hex d, hex e with
  | some a, some b, some d, some e => some (((a * 16 + b) * 16 + d) * 16 + e)
  | _, _, _, _ => none

/-- A string after its opening quote: its code units and what follows the closing quote. -/
def content : Text → Option (Text × Text)
  | [] => none
  | c :: s =>
    if c = 34 then some ([], s)
    else if c = 92 then
      match s with
      | [] => none
      | 117 :: a :: b :: d :: e :: s =>
        match hex4 a b d e, content s with
        | some u, some (t, r) => some (u :: t, r)
        | _, _ => none
      | e :: s =>
        match unescape e, content s with
        | some u, some (t, r) => some (u :: t, r)
        | _, _ => none
    else if c < 32 then none
    else
      match content s with
      | some (t, r) => some (c :: t, r)
      | none => none

/-! ### Trees -/

/-- A literal name. -/
def keyword (w : Text) (v : Json) (s : Text) : Option (Json × Text) :=
  if w <+: s then some (v, s.drop w.length) else none

/-- A literal name or a number. -/
def plain (s : Text) : Option (Json × Text) :=
  keyword (units "true") (.bool true) s <|> keyword (units "false") (.bool false) s <|>
    keyword (units "null") .null s <|> (readNumber s).map fun p => (.number p.1, p.2)

mutual

/-- A value and what follows it; the number bounds the recursion. -/
def value : ℕ → Text → Option (Json × Text)
  | 0, _ => none
  | n + 1, s =>
    match skip s with
    | [] => none
    | c :: r =>
      if c = 123 then
        if (skip r).head? = some 125 then some (.object [], (skip r).tail)
        else (members n (skip r)).map fun p => (.object p.1, p.2)
      else if c = 91 then
        if (skip r).head? = some 93 then some (.array [], (skip r).tail)
        else (elements n (skip r)).map fun p => (.array p.1, p.2)
      else if c = 34 then (content r).map fun p => (.string p.1, p.2)
      else plain (c :: r)

/-- The members of an object from a key on, with the closing brace. -/
def members : ℕ → Text → Option (List (Text × Json) × Text)
  | n + 1, 34 :: s =>
    match content s with
    | none => none
    | some (k, s) =>
      match skip s with
      | 58 :: s =>
        match value n s with
        | none => none
        | some (v, s) =>
          match skip s with
          | 44 :: s => (members n (skip s)).map fun p => ((k, v) :: p.1, p.2)
          | 125 :: s => some ([(k, v)], s)
          | _ => none
      | _ => none
  | _, _ => none

/-- The items of an array from a value on, with the closing bracket. -/
def elements : ℕ → Text → Option (List Json × Text)
  | 0, _ => none
  | n + 1, s =>
    match value n s with
    | none => none
    | some (v, s) =>
      match skip s with
      | 44 :: s => (elements n (skip s)).map fun p => (v :: p.1, p.2)
      | 93 :: s => some ([v], s)
      | _ => none

end

/-- `JSON.parse`, without the folding of equal keys. -/
def parse (s : Text) : Option Json :=
  match value (2 * s.length + 1) s with
  | some (v, r) => if skip r = [] then some v else none
  | none => none

end Json

end ScalpingBot
