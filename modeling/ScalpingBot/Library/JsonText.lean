import Mathlib.Data.Nat.Digits.Lemmas
import ScalpingBot.Library.JsonKeys

/-! How a tree is written as a text, and that reading gives the tree back. -/

namespace ScalpingBot.Json

/-! ### Writing -/

/-- A lower-case hexadecimal digit. -/
def hexDigit (n : ℕ) : ℕ := if n < 10 then 48 + n else 87 + n

/-- The four digits of a code unit. -/
def escaped (u : ℕ) : Text :=
  [92, 117, hexDigit (u / 4096 % 16), hexDigit (u / 256 % 16), hexDigit (u / 16 % 16),
    hexDigit (u % 16)]

/-- A code unit that is no surrogate, in a string. -/
def writeUnit (u : ℕ) : Text :=
  if u = 34 ∨ u = 92 then [92, u]
  else if u = 8 then [92, 98]
  else if u = 12 then [92, 102]
  else if u = 10 then [92, 110]
  else if u = 13 then [92, 114]
  else if u = 9 then [92, 116]
  else if u < 32 then escaped u
  else [u]

/-- A string after its opening quote; a surrogate without its partner is escaped. The flag says that
    the next code unit is the second of a pair. -/
def writeFrom : Bool → Text → Text
  | _, [] => [34]
  | true, u :: s => u :: writeFrom false s
  | false, u :: s =>
    if isLead u && s.head?.any isTrail then u :: writeFrom true s
    else if isLead u || isTrail u then escaped u ++ writeFrom false s
    else writeUnit u ++ writeFrom false s

def writeContent (t : Text) : Text := writeFrom false t

mutual

/-- `JSON.stringify` of a tree without white space. -/
def write : Json → Text
  | .null => units "null"
  | .bool true => units "true"
  | .bool false => units "false"
  | .number n => n.literal
  | .string t => 34 :: writeContent t
  | .array vs => 91 :: (writeElements vs ++ [93])
  | .object ms => 123 :: (writeMembers ms ++ [125])

def writeElements : List Json → Text
  | [] => []
  | [v] => write v
  | v :: w :: vs => write v ++ 44 :: writeElements (w :: vs)

def writeMembers : List (Text × Json) → Text
  | [] => []
  | [(k, v)] => 34 :: (writeContent k ++ 58 :: write v)
  | (k, v) :: m :: ms => 34 :: (writeContent k ++ 58 :: (write v ++ 44 :: writeMembers (m :: ms)))

end

/-! ### Strings are read back -/

variable {s r t : Text} {u : ℕ}

theorem hex_hexDigit {n : ℕ} (h : n < 16) : hex (hexDigit n) = some n := by
  have hall : ∀ n < 16, hex (hexDigit n) = some n := by decide
  exact hall n h

theorem content_escaped (hu : u < 65536) (h : Content s t r) :
    Content (escaped u ++ s) (u :: t) r := by
  refine .unit ?_ h
  simp only [hex4, hex_hexDigit (Nat.mod_lt _ (by decide : 0 < 16)), Option.some.injEq]
  omega

theorem content_writeUnit (h : Content s t r) : Content (writeUnit u ++ s) (u :: t) r := by
  unfold writeUnit
  split_ifs with hquote h8 h12 h10 h13 h9 h32
  · refine .escape ?_ h
    rcases hquote with rfl | rfl <;> rfl
  · exact h8 ▸ .escape rfl h
  · exact h12 ▸ .escape rfl h
  · exact h10 ▸ .escape rfl h
  · exact h13 ▸ .escape rfl h
  · exact h9 ▸ .escape rfl h
  · exact content_escaped (by omega) h
  · rw [not_or] at hquote
    exact .plain hquote.1 hquote.2 (Nat.le_of_not_lt h32) h

theorem content_writeFrom {paired : Bool} (h : paired = true → ∀ u ∈ t.head?, isTrail u = true) :
    Content (writeFrom paired t ++ r) t r := by
  induction t generalizing paired with
  | nil =>
    rw [writeFrom]
    exact .close
  | cons u s ih =>
    cases paired with
    | true =>
      have htrail := h rfl u rfl
      simp only [isTrail, Bool.and_eq_true, decide_eq_true_eq] at htrail
      exact .plain (by omega) (by omega) (by omega) (ih (by simp))
    | false =>
      rw [writeFrom]
      split_ifs with hpair hlone
      · rw [Bool.and_eq_true] at hpair
        have hlead := hpair.1
        simp only [isLead, Bool.and_eq_true, decide_eq_true_eq] at hlead
        refine .plain (by omega) (by omega) (by omega) (ih fun _ d hd => ?_)
        have hnext := hpair.2
        rw [Option.mem_def.mp hd] at hnext
        exact hnext
      · simp only [isLead, isTrail, Bool.or_eq_true, Bool.and_eq_true, decide_eq_true_eq] at hlone
        rw [List.append_assoc]
        exact content_escaped (by omega) (ih (by simp))
      · rw [List.append_assoc]
        exact content_writeUnit (ih (by simp))

theorem content_write (t r : Text) : Content (writeContent t ++ r) t r :=
  content_writeFrom (by simp)

/-! ### Trees are read back -/

/-- Nothing that could continue a number or a name. -/
def Follows (r : Text) : Prop := ∀ c ∈ r.head?, isWord c = false

theorem isSpace_of_isWord {c : ℕ} (h : isWord c = true) : isSpace c = false := by
  cases hspace : isSpace c with
  | false => rfl
  | true =>
    simp only [isSpace, Bool.or_eq_true, beq_iff_eq] at hspace
    rcases hspace with ((rfl | rfl) | rfl) | rfl <;> cases h

/-- A written tree starts with a token. -/
theorem write_head (v : Json) : ∃ c t, write v = c :: t ∧ isSpace c = false := by
  cases v with
  | null => exact ⟨_, _, rfl, rfl⟩
  | bool b => cases b <;> exact ⟨_, _, rfl, rfl⟩
  | number n =>
    obtain ⟨c, t, ht⟩ := List.exists_cons_of_ne_nil n.literal_ne_nil
    exact ⟨c, t, ht, isSpace_of_isWord (n.words c (ht ▸ List.mem_cons_self))⟩
  | string t => exact ⟨_, _, rfl, rfl⟩
  | array vs => exact ⟨_, _, rfl, rfl⟩
  | object ms => exact ⟨_, _, rfl, rfl⟩

theorem skip_write (v : Json) (r : Text) : skip (write v ++ r) = write v ++ r := by
  obtain ⟨c, t, ht, hc⟩ := write_head v
  rw [ht]
  exact skip_cons hc

theorem skip_writeElements {vs : List Json} (h : vs ≠ []) (r : Text) :
    skip (writeElements vs ++ r) = writeElements vs ++ r := by
  match vs with
  | [v] => exact skip_write v r
  | v :: w :: vs =>
    rw [writeElements, List.append_assoc]
    exact skip_write v _

theorem skip_writeMembers {ms : List (Text × Json)} (h : ms ≠ []) (r : Text) :
    skip (writeMembers ms ++ r) = writeMembers ms ++ r := by
  match ms with
  | [(k, v)] => exact skip_cons rfl
  | (k, v) :: m :: ms => exact skip_cons rfl

theorem reads_plain {v w : Json} (h : plain (write w ++ r) = some (v, r)) :
    Reads (write w ++ r) (.value v) r := by
  refine .plain ?_
  rw [skip_write]
  exact h

/-- A number starts with its sign or a digit. -/
theorem Number.head (n : Number) : ∃ c t, n.literal = c :: t ∧ c ≤ 57 := by
  obtain ⟨c, t, ht⟩ := List.exists_cons_of_ne_nil n.literal_ne_nil
  refine ⟨c, t, ht, ?_⟩
  have hends := n.ends
  rw [ht] at hends
  cases hnext : Reading.start.next c with
  | none =>
    rw [Reading.run_stop hnext] at hends
    cases hends
  | some q =>
    simp only [Reading.next, isDigit, Bool.and_eq_true, decide_eq_true_eq] at hnext
    split_ifs at hnext with h45 h48 hdigit
    · omega
    · omega
    · exact hdigit.2

theorem keyword_of_head {w : Text} {c d : ℕ} {v : Json} (h : c ≠ d) :
    keyword (c :: w) v (d :: s) = none := by
  rw [keyword, if_neg]
  rintro ⟨x, hx⟩
  exact h (List.cons.inj hx).1

theorem plain_number (n : Number) (h : Follows r) :
    plain (n.literal ++ r) = some (.number n, r) := by
  obtain ⟨c, t, ht, hc⟩ := n.head
  have hread := readNumber_self n h
  rw [ht, List.cons_append] at hread ⊢
  have htrue : units "true" = 116 :: units "rue" := by decide
  have hfalse : units "false" = 102 :: units "alse" := by decide
  have hnull : units "null" = 110 :: units "ull" := by decide
  rw [plain, htrue, hfalse, hnull, keyword_of_head (by omega), keyword_of_head (by omega),
    keyword_of_head (by omega), hread]
  rfl

mutual

theorem reads_write : ∀ (v : Json) (r : Text), Follows r → Reads (write v ++ r) (.value v) r
  | .null, r, _ => reads_plain (by simp [write, plain, keyword, units])
  | .bool true, r, _ => reads_plain (by simp [write, plain, keyword, units])
  | .bool false, r, _ => reads_plain (by simp [write, plain, keyword, units])
  | .number n, r, h => reads_plain (plain_number n h)
  | .string t, r, _ => .string (skip_cons rfl) (content_write t r)
  | .array [], r, _ => .emptyArray (skip_cons rfl) (skip_cons rfl)
  | .array (v :: vs), r, _ => by
    have hread := reads_writeElements (v :: vs) (by simp) r
    rw [write, List.cons_append, List.append_assoc]
    refine .array (skip_cons rfl) ?_
    rw [skip_writeElements (by simp)]
    exact hread
  | .object [], r, _ => .emptyObject (skip_cons rfl) (skip_cons rfl)
  | .object (m :: ms), r, _ => by
    have hread := reads_writeMembers (m :: ms) (by simp) r
    rw [write, List.cons_append, List.append_assoc]
    refine .object (skip_cons rfl) ?_
    rw [skip_writeMembers (by simp)]
    exact hread

theorem reads_writeElements : ∀ vs : List Json, vs ≠ [] → ∀ r : Text,
    Reads (writeElements vs ++ 93 :: r) (.elements vs) r
  | [], h, _ => absurd rfl h
  | [v], _, r => .lastElement (reads_write v _ (by simp [Follows, isWord, isDigit])) (skip_cons rfl)
  | v :: w :: vs, _, r => by
    have hrest := reads_writeElements (w :: vs) (by simp) r
    rw [writeElements, List.append_assoc, List.cons_append]
    refine .element (reads_write v _ (by simp [Follows, isWord, isDigit])) (skip_cons rfl) ?_
    rw [skip_writeElements (by simp)]
    exact hrest

theorem reads_writeMembers : ∀ ms : List (Text × Json), ms ≠ [] → ∀ r : Text,
    Reads (writeMembers ms ++ 125 :: r) (.members ms) r
  | [], h, _ => absurd rfl h
  | [(k, v)], _, r => by
    rw [writeMembers, List.cons_append, List.append_assoc, List.cons_append]
    exact .lastMember (content_write k _) (skip_cons rfl)
      (reads_write v _ (by simp [Follows, isWord, isDigit])) (skip_cons rfl)
  | (k, v) :: m :: ms, _, r => by
    have hrest := reads_writeMembers (m :: ms) (by simp) r
    rw [writeMembers, List.cons_append, List.append_assoc, List.cons_append, List.append_assoc,
      List.cons_append]
    refine .member (content_write k _) (skip_cons rfl)
      (reads_write v _ (by simp [Follows, isWord, isDigit])) (skip_cons rfl) ?_
    rw [skip_writeMembers (by simp)]
    exact hrest

end

/-- Reading what was written gives the tree back. -/
theorem parse_write (v : Json) : parse (write v) = some v := by
  have hread := reads_write v [] (by simp [Follows])
  rw [List.append_nil] at hread
  exact parse_eq_some.mpr ⟨[], hread, rfl⟩

theorem write_injective : Function.Injective write := by
  intro v w h
  have hv := parse_write v
  rw [h, parse_write w] at hv
  exact (Option.some.inj hv).symm

/-! ### No control characters -/

theorem le_hexDigit (n : ℕ) : 32 ≤ hexDigit n := by
  unfold hexDigit
  split <;> omega

theorem le_escaped : ∀ c ∈ escaped u, 32 ≤ c := by
  simp [escaped, le_hexDigit]

theorem le_writeUnit : ∀ c ∈ writeUnit u, 32 ≤ c := by
  unfold writeUnit
  split_ifs with hquote h8 h12 h10 h13 h9 h32
  · rcases hquote with rfl | rfl <;> decide
  · decide
  · decide
  · decide
  · decide
  · decide
  · exact le_escaped
  · simpa using h32

theorem le_writeFrom {paired : Bool} (h : paired = true → ∀ u ∈ t.head?, isTrail u = true) :
    ∀ c ∈ writeFrom paired t, 32 ≤ c := by
  induction t generalizing paired with
  | nil => simp [writeFrom]
  | cons u s ih =>
    cases paired with
    | true =>
      have htrail := h rfl u rfl
      simp only [isTrail, Bool.and_eq_true, decide_eq_true_eq] at htrail
      rw [writeFrom, List.forall_mem_cons]
      exact ⟨by omega, ih (by simp)⟩
    | false =>
      rw [writeFrom]
      split_ifs with hpair hlone
      · rw [Bool.and_eq_true] at hpair
        have hlead := hpair.1
        simp only [isLead, Bool.and_eq_true, decide_eq_true_eq] at hlead
        rw [List.forall_mem_cons]
        refine ⟨by omega, ih fun _ d hd => ?_⟩
        have hnext := hpair.2
        rw [Option.mem_def.mp hd] at hnext
        exact hnext
      · exact List.forall_mem_append.mpr ⟨le_escaped, ih (by simp)⟩
      · exact List.forall_mem_append.mpr ⟨le_writeUnit, ih (by simp)⟩

theorem le_of_isWord {c : ℕ} (h : isWord c = true) : 32 ≤ c := by
  simp only [isWord, isDigit, Bool.or_eq_true, Bool.and_eq_true, decide_eq_true_eq, beq_iff_eq] at h
  omega

mutual

/-- A written tree has no control character, so that it is one line. -/
theorem le_write : ∀ v : Json, ∀ c ∈ write v, 32 ≤ c
  | .null => by decide
  | .bool true => by decide
  | .bool false => by decide
  | .number n => fun c hc => le_of_isWord (n.words c hc)
  | .string t => by
    rw [write, List.forall_mem_cons]
    exact ⟨by decide, le_writeFrom (by simp)⟩
  | .array vs => by
    rw [write, List.forall_mem_cons, List.forall_mem_append]
    exact ⟨by decide, le_writeElements vs, by decide⟩
  | .object ms => by
    rw [write, List.forall_mem_cons, List.forall_mem_append]
    exact ⟨by decide, le_writeMembers ms, by decide⟩

theorem le_writeElements : ∀ vs : List Json, ∀ c ∈ writeElements vs, 32 ≤ c
  | [] => by simp [writeElements]
  | [v] => le_write v
  | v :: w :: vs => by
    rw [writeElements, List.forall_mem_append, List.forall_mem_cons]
    exact ⟨le_write v, by decide, le_writeElements (w :: vs)⟩

theorem le_writeMembers : ∀ ms : List (Text × Json), ∀ c ∈ writeMembers ms, 32 ≤ c
  | [] => by simp [writeMembers]
  | [(k, v)] => by
    rw [writeMembers, List.forall_mem_cons, List.forall_mem_append, List.forall_mem_cons]
    exact ⟨by decide, le_writeFrom (by simp), by decide, le_write v⟩
  | (k, v) :: m :: ms => by
    rw [writeMembers, List.forall_mem_cons, List.forall_mem_append, List.forall_mem_cons,
      List.forall_mem_append, List.forall_mem_cons]
    exact ⟨by decide, le_writeFrom (by simp), by decide, le_write v, by decide,
      le_writeMembers (m :: ms)⟩

end

theorem newline_not_mem_write (v : Json) : 10 ∉ write v :=
  fun h => absurd (le_write v 10 h) (by decide)

/-! ### Natural numbers -/

/-- The decimal digits of a natural number. -/
def natLiteral (n : ℕ) : Text := if n = 0 then [48] else (Nat.digits 10 n).reverse.map (48 + ·)

theorem run_digits (h : ∀ c ∈ s, isDigit c = true) :
    Reading.whole.run s = (.whole, s, []) := by
  induction s with
  | nil => rfl
  | cons c s ih =>
    rw [List.forall_mem_cons] at h
    have hnext : Reading.whole.next c = some .whole := by simp [Reading.next, h.1]
    rw [Reading.run_go hnext, ih h.2]

theorem run_natLiteral (n : ℕ) : (Reading.start.run (natLiteral n)).1.ends = true ∧
    (Reading.start.run (natLiteral n)).2.1 = natLiteral n := by
  unfold natLiteral
  split_ifs with hn
  · exact ⟨rfl, rfl⟩
  · have hne : Nat.digits 10 n ≠ [] := Nat.digits_ne_nil_iff_ne_zero.mpr hn
    have hdigit : ∀ d ∈ Nat.digits 10 n, d < 10 := fun d hd => Nat.digits_lt_base (by decide) hd
    have hlast := Nat.getLast_digit_ne_zero 10 hn
    have hlastlt := hdigit _ (List.getLast_mem hne)
    rw [← List.dropLast_append_getLast hne, List.reverse_append, List.reverse_singleton,
      List.singleton_append, List.map_cons]
    set d := (Nat.digits 10 n).getLast hne
    have hnext : Reading.start.next (48 + d) = some .whole := by
      have h45 : 48 + d ≠ 45 := by omega
      have h48 : 48 + d ≠ 48 := by omega
      have hd : isDigit (48 + d) = true := by
        simp only [isDigit, Bool.and_eq_true, decide_eq_true_eq]
        omega
      simp only [Reading.next, if_neg h45, if_neg h48, hd, if_true]
    have hrest : ∀ c ∈ (Nat.digits 10 n).dropLast.reverse.map (48 + ·), isDigit c = true := by
      intro c hc
      obtain ⟨x, hx, rfl⟩ := List.mem_map.mp hc
      have hlt := hdigit x (List.mem_of_mem_dropLast (List.mem_reverse.mp hx))
      simp only [isDigit, Bool.and_eq_true, decide_eq_true_eq]
      omega
    rw [Reading.run_go hnext, run_digits hrest]
    exact ⟨rfl, rfl⟩

/-- The number that is written for a natural number. -/
def Number.ofNat (n : ℕ) : Number := ⟨natLiteral n, (run_natLiteral n).1, (run_natLiteral n).2⟩

/-- The number that digits denote. -/
def natValue (t : Text) : ℕ := t.foldl (fun n c => 10 * n + (c - 48)) 0

theorem natValue_natLiteral (n : ℕ) : natValue (natLiteral n) = n := by
  unfold natLiteral
  split_ifs with hn
  · rw [hn]
    rfl
  · rw [natValue, List.foldl_map, List.foldl_reverse]
    have hfold := Nat.ofDigits_eq_foldr (α := ℕ) 10 (Nat.digits 10 n)
    rw [Nat.ofDigits_digits] at hfold
    simpa [Nat.add_sub_cancel_left, add_comm] using hfold.symm

end ScalpingBot.Json
