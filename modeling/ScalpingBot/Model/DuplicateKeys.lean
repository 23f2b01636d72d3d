import ScalpingBot.Library.Checked
import ScalpingBot.Library.JsonKeys

/-! The reading of a model's answer in packages/risk-engine/src/model-validator.ts:
    `hasDuplicateObjectKeys`, a scanner of its own that follows the brackets of a text, and
    `ModelResponseValidator.parse`. `JSON.parse` itself keeps the last of equal keys, so that only the
    scanner can tell a text that repeats one. -/

namespace ScalpingBot.Model

open Json (Text Content Reads Part RepeatsKey folded byteLength)

namespace DuplicateKeys

/-- `/\s/`. -/
def isWhitespace (c : ℕ) : Bool :=
  (9 ≤ c && c ≤ 13) || c == 32 || c == 160 || c == 5760 || (8192 ≤ c && c ≤ 8202) || c == 8232 ||
    c == 8233 || c == 8239 || c == 8287 || c == 12288 || c == 65279

def whitespace (text : Text) : Text := text.dropWhile isWhitespace

/-- `/[\s,}\]]/`. -/
def endsToken (c : ℕ) : Bool := isWhitespace c || c == 44 || c == 125 || c == 93

inductive Fault where
  | unterminatedString
  /-- `JSON.parse` refuses the token -/
  | syntaxError
  /-- the fuel of the model, which never runs out -/
  | exhausted
  deriving DecidableEq

/-- What a token takes after its first character, and what it leaves. -/
def closing : Text → Option (Text × Text)
  | [] => none
  | c :: text =>
    if c = 92 then
      match text with
      | [] => none
      | d :: text => (closing text).map fun p => (c :: d :: p.1, p.2)
    else if c = 34 then some ([c], text)
    else (closing text).map fun p => (c :: p.1, p.2)

/-- `stringToken`, which the scanner also enters where a key is missing. -/
def stringToken (text : Text) : Except Fault (Text × Text) :=
  match closing text.tail with
  | none => .error .unterminatedString
  | some (token, rest) =>
    match Json.parse (text.take 1 ++ token) with
    | some (.string key) => .ok (key, rest)
    | _ => .error .syntaxError

mutual

/-- `value`, with the flag `duplicate` and what is left of the text. -/
def value : ℕ → Text → Bool → Except Fault (Bool × Text)
  | 0, _, _ => .error .exhausted
  | n + 1, text, duplicate =>
    match whitespace text with
    | [] => .ok (duplicate, [])
    | c :: text =>
      if c = 123 then members n (whitespace text) [] duplicate
      else if c = 91 then elements n (whitespace text) duplicate
      else if c = 34 then do
        let (_, text) ← stringToken (c :: text)
        return (duplicate, text)
      else return (duplicate, (c :: text).dropWhile (!endsToken ·))

/-- The loop over the members of an object. -/
def members : ℕ → Text → List Text → Bool → Except Fault (Bool × Text)
  | 0, _, _, _ => .error .exhausted
  | n + 1, text, keys, duplicate =>
    if text.head? = some 125 then return (duplicate, text.tail)
    else do
      let (key, text) ← stringToken text
      let (duplicate, text) ← value n (whitespace text).tail (duplicate || keys.contains key)
      if (whitespace text).head? = some 44 then
        members n (whitespace (whitespace text).tail) (key :: keys) duplicate
      else return (duplicate, (whitespace text).tail)

/-- The loop over the elements of an array. -/
def elements : ℕ → Text → Bool → Except Fault (Bool × Text)
  | 0, _, _ => .error .exhausted
  | n + 1, text, duplicate =>
    if text.head? = some 93 then return (duplicate, text.tail)
    else do
      let (duplicate, text) ← value n text duplicate
      if (whitespace text).head? = some 44 then
        elements n (whitespace (whitespace text).tail) duplicate
      else return (duplicate, (whitespace text).tail)

end

/-- `hasDuplicateObjectKeys`. -/
def hasDuplicateObjectKeys (raw : Text) : Except Fault Bool :=
  (value (2 * raw.length + 1) raw false).map Prod.fst

end DuplicateKeys

/-! ### What the scanner says of a JSON text -/

namespace DuplicateKeys

variable {s r t text : Text} {v : Json} {c n : ℕ}

theorem whitespace_suffix (text : Text) : whitespace text <:+ text := List.dropWhile_suffix _

theorem isWhitespace_of_isSpace (h : Json.isSpace c = true) : isWhitespace c = true := by
  simp only [Json.isSpace, Bool.or_eq_true, beq_iff_eq] at h
  rcases h with ((rfl | rfl) | rfl) | rfl <;> rfl

theorem not_isWhitespace_of_isWord (h : Json.isWord c = true) : isWhitespace c = false := by
  simp only [Json.isWord, Json.isDigit, Bool.or_eq_true, Bool.and_eq_true, decide_eq_true_eq,
    beq_iff_eq] at h
  simp only [isWhitespace, Bool.or_eq_false_iff, Bool.and_eq_false_iff, decide_eq_false_iff_not,
    beq_eq_false_iff_ne]
  omega

theorem not_endsToken_of_isWord (h : Json.isWord c = true) : endsToken c = false := by
  simp only [endsToken, not_isWhitespace_of_isWord h, Bool.false_or, Bool.or_eq_false_iff,
    beq_eq_false_iff_ne]
  refine ⟨⟨?_, ?_⟩, ?_⟩ <;> rintro rfl <;> cases h

/-- Where a token of the grammar follows, the two notions of white space agree. -/
theorem whitespace_of_skip (h : Json.skip s = c :: r) (hc : isWhitespace c = false) :
    whitespace s = c :: r := by
  induction s with
  | nil => cases h
  | cons d s ih =>
    rw [Json.skip, List.dropWhile_cons] at h
    split at h
    · next hd =>
      rw [whitespace, List.dropWhile_cons, if_pos (isWhitespace_of_isSpace hd)]
      exact ih h
    · cases h
      rw [whitespace, List.dropWhile_cons, if_neg (by simp [hc])]

/-- After a token the scanner has to find one of its ends, or nothing. -/
def Boundary (r : Text) : Prop := ∀ c ∈ r.head?, endsToken c = true

theorem boundary_of_skip (h : ∀ c ∈ (Json.skip r).head?, endsToken c = true) : Boundary r := by
  cases r with
  | nil => simp [Boundary]
  | cons d r =>
    rintro c hc
    cases Option.mem_some.mp hc
    cases hd : Json.isSpace d with
    | true => simp [endsToken, isWhitespace_of_isSpace hd]
    | false =>
      rw [Json.skip_cons hd] at h
      exact h d rfl

theorem not_isWhitespace_of_opens
    (h : c = 123 ∨ c = 91 ∨ c = 34 ∨ Json.isWord c = true) : isWhitespace c = false := by
  rcases h with rfl | rfl | rfl | h
  · rfl
  · rfl
  · rfl
  · exact not_isWhitespace_of_isWord h

/-- White space is white space before the items of an array. -/
theorem whitespace_of_elements {vs : List Json} (h : Reads (Json.skip s) (.elements vs) r) :
    whitespace s = Json.skip s := by
  obtain ⟨c, t, ht, hc⟩ := h.opens_elements
  rw [Json.skip_skip] at ht
  rw [ht]
  exact whitespace_of_skip ht (not_isWhitespace_of_opens hc)

theorem whitespace_of_members {ms : List (Text × Json)} (h : Reads (Json.skip s) (.members ms) r) :
    whitespace s = Json.skip s := by
  obtain ⟨t, ht⟩ := h.opens_members
  rw [ht]
  exact whitespace_of_skip ht rfl

/-! ### Strings -/

theorem hex_ne {d u : ℕ} (h : Json.hex d = some u) : d ≠ 92 ∧ d ≠ 34 := by
  constructor <;> rintro rfl <;> cases h

theorem closing_of_ne (h92 : c ≠ 92) (h34 : c ≠ 34) :
    closing (c :: text) = (closing text).map fun p => (c :: p.1, p.2) := by
  rw [closing.eq_def]
  simp [h92, h34]

theorem closing_of_escape :
    closing (92 :: c :: text) = (closing text).map fun p => (92 :: c :: p.1, p.2) := by
  rw [closing.eq_def]
  simp

/-- The scanner finds the end of a string where the grammar has it. -/
theorem closing_of_content (h : Content s t r) :
    ∃ w, closing s = some (w, r) ∧ ∀ r', Content (w ++ r') t r' := by
  induction h with
  | @close s =>
    refine ⟨[34], ?_, fun _ => .close⟩
    rw [closing.eq_def]
    simp
  | @unit s t r a b d e u hu _ ih =>
    obtain ⟨w, hw, hcontent⟩ := ih
    refine ⟨92 :: 117 :: a :: b :: d :: e :: w, ?_, fun r' => .unit hu (hcontent r')⟩
    have hdigits : ∀ x ∈ [a, b, d, e], x ≠ 92 ∧ x ≠ 34 := by
      unfold Json.hex4 at hu
      split at hu
      · next ha hb hd he => simp [hex_ne ha, hex_ne hb, hex_ne hd, hex_ne he]
      · cases hu
    simp only [List.mem_cons, List.not_mem_nil, or_false, forall_eq_or_imp, forall_eq] at hdigits
    obtain ⟨ha, hb, hd, he⟩ := hdigits
    rw [closing_of_escape, closing_of_ne ha.1 ha.2, closing_of_ne hb.1 hb.2,
      closing_of_ne hd.1 hd.2, closing_of_ne he.1 he.2, hw]
    rfl
  | @escape s t r e u hu _ ih =>
    obtain ⟨w, hw, hcontent⟩ := ih
    refine ⟨92 :: e :: w, ?_, fun r' => .escape hu (hcontent r')⟩
    rw [closing_of_escape, hw]
    rfl
  | @plain s t r c h34 h92 h32 _ ih =>
    obtain ⟨w, hw, hcontent⟩ := ih
    refine ⟨c :: w, ?_, fun r' => .plain h34 h92 h32 (hcontent r')⟩
    rw [closing_of_ne h92 h34, hw]
    rfl

theorem stringToken_of_content (h : Content s t r) : stringToken (34 :: s) = .ok (t, r) := by
  obtain ⟨w, hw, hcontent⟩ := closing_of_content h
  have hparse : Json.parse (34 :: w) = some (.string t) :=
    Json.parse_eq_some.mpr ⟨[], .string (Json.skip_cons rfl) (by simpa using hcontent []), rfl⟩
  simp [stringToken, hw, hparse]

/-! ### Values -/

theorem dropWhile_words {w : Text} (hw : ∀ c ∈ w, Json.isWord c = true) (hr : Boundary r) :
    (w ++ r).dropWhile (!endsToken ·) = r := by
  rw [List.dropWhile_append_of_pos fun c hc => by simp [not_endsToken_of_isWord (hw c hc)]]
  cases r with
  | nil => rfl
  | cons c r => rw [List.dropWhile_cons, if_neg (by simp [hr c rfl])]

/-- The scanner takes a part of the grammar whole, and raises its flag for a repeated key in it or
    for a key that its object has already. -/
def Scanned (s r : Text) : Part → Prop
  | .value v => Boundary r → ∀ n, 2 * s.length + 1 ≤ n → ∀ duplicate,
      ∃ b, value n s duplicate = .ok (b, r) ∧ (b = true ↔ duplicate = true ∨ RepeatsKey v)
  | .members ms => ∀ n, 2 * s.length + 2 ≤ n → ∀ keys duplicate,
      ∃ b, members n s keys duplicate = .ok (b, r) ∧
        (b = true ↔ duplicate = true ∨ (∃ m ∈ ms, m.1 ∈ keys) ∨ ¬(ms.map Prod.fst).Nodup ∨
          ∃ m ∈ ms, RepeatsKey m.2)
  | .elements vs => ∀ n, 2 * s.length + 2 ≤ n → ∀ duplicate,
      ∃ b, elements n s duplicate = .ok (b, r) ∧
        (b = true ↔ duplicate = true ∨ ∃ v ∈ vs, RepeatsKey v)

theorem members_step {s₁ s₂ s₃ k : Text} {keys : List Text} {duplicate b : Bool}
    (hk : stringToken (34 :: s) = .ok (k, s₁)) (hcolon : whitespace s₁ = 58 :: s₂)
    (hv : value n s₂ (duplicate || keys.contains k) = .ok (b, s₃)) :
    members (n + 1) (34 :: s) keys duplicate = if (whitespace s₃).head? = some 44 then
      members n (whitespace (whitespace s₃).tail) (k :: keys) b
      else .ok (b, (whitespace s₃).tail) := by
  rw [members, if_neg (by simp), hk, ok_bind]
  simp only [hcolon, List.tail_cons]
  rw [hv, ok_bind]
  rfl

theorem elements_step {s₁ : Text} {duplicate b : Bool} (hs : s.head? ≠ some 93)
    (hv : value n s duplicate = .ok (b, s₁)) :
    elements (n + 1) s duplicate = if (whitespace s₁).head? = some 44 then
      elements n (whitespace (whitespace s₁).tail) b else .ok (b, (whitespace s₁).tail) := by
  rw [elements, if_neg hs, hv, ok_bind]
  rfl

theorem head_of_value (h : Reads s (.value v) r) : s.head? ≠ some 93 := by
  intro hs
  obtain ⟨s, rfl⟩ : ∃ t, s = 93 :: t := ⟨s.tail, (List.cons_head?_tail hs).symm⟩
  obtain ⟨c, t, ht, hc⟩ := h.opens
  rw [Json.skip_cons rfl] at ht
  cases ht
  revert hc
  decide

theorem exists_key_cons {k : Text} {keys : List Text} {ms : List (Text × Json)} :
    (∃ m ∈ ms, m.1 ∈ k :: keys) ↔ k ∈ ms.map Prod.fst ∨ ∃ m ∈ ms, m.1 ∈ keys := by
  simp only [List.mem_cons, List.mem_map]
  grind

theorem not_nodup_cons {k : Text} {ms : List (Text × Json)} :
    ¬(((k, v) :: ms).map Prod.fst).Nodup ↔ k ∈ ms.map Prod.fst ∨ ¬(ms.map Prod.fst).Nodup := by
  rw [List.map_cons, List.nodup_cons]
  tauto

/-- Where the scanner met a repeated key, against where the tree has it. -/
theorem regrouped {a b c d e f g : Prop} :
    ((a ∨ b) ∨ c) ∨ (d ∨ e) ∨ f ∨ g ↔ a ∨ (b ∨ e) ∨ (d ∨ f) ∨ c ∨ g := by
  tauto

theorem scanned_of_reads {p : Part} (h : Reads s p r) : Scanned s r p := by
  induction h with
  | emptyObject hs hr =>
    intro _ n hn duplicate
    obtain ⟨n, rfl⟩ : ∃ m, n = m + 2 := ⟨n - 2, by have := Json.length_of_skip hs; omega⟩
    refine ⟨duplicate, ?_, by simp [Json.repeatsKey_object]⟩
    simp [value, members, whitespace_of_skip hs rfl, whitespace_of_skip hr rfl]
  | emptyArray hs hr =>
    intro _ n hn duplicate
    obtain ⟨n, rfl⟩ : ∃ m, n = m + 2 := ⟨n - 2, by have := Json.length_of_skip hs; omega⟩
    refine ⟨duplicate, ?_, by simp [Json.repeatsKey_array]⟩
    simp [value, elements, whitespace_of_skip hs rfl, whitespace_of_skip hr rfl]
  | @object s s₁ r ms hs hms ih =>
    intro _ n hn duplicate
    obtain ⟨n, rfl⟩ : ∃ m, n = m + 1 := ⟨n - 1, by omega⟩
    have hlt := Json.length_of_skip hs
    have hle := (Json.skip_suffix s₁).length_le
    obtain ⟨b, hb, hiff⟩ := ih n (by omega) [] duplicate
    refine ⟨b, ?_, ?_⟩
    · simp [value, whitespace_of_skip hs rfl, whitespace_of_members hms, hb]
    · rw [hiff, Json.repeatsKey_object]
      simp
  | @array s s₁ r vs hs hvs ih =>
    intro _ n hn duplicate
    obtain ⟨n, rfl⟩ : ∃ m, n = m + 1 := ⟨n - 1, by omega⟩
    have hlt := Json.length_of_skip hs
    have hle := (Json.skip_suffix s₁).length_le
    obtain ⟨b, hb, hiff⟩ := ih n (by omega) duplicate
    refine ⟨b, ?_, ?_⟩
    · simp [value, whitespace_of_skip hs rfl, whitespace_of_elements hvs, hb]
    · rw [hiff, Json.repeatsKey_array]
  | string hs ht =>
    intro _ n hn duplicate
    obtain ⟨n, rfl⟩ : ∃ m, n = m + 1 := ⟨n - 1, by omega⟩
    refine ⟨duplicate, ?_, by simp [Json.not_repeatsKey_string]⟩
    simp [value, whitespace_of_skip hs rfl, stringToken_of_content ht]
  | @plain s r v hv =>
    intro hr n hn duplicate
    obtain ⟨n, rfl⟩ : ∃ m, n = m + 1 := ⟨n - 1, by omega⟩
    obtain ⟨w, hw, hne, hwords⟩ := Json.plain_words hv
    refine ⟨duplicate, ?_, by simp [Json.not_repeatsKey_plain hv]⟩
    have hdrop := dropWhile_words hwords hr
    obtain ⟨c, w, rfl⟩ := List.exists_cons_of_ne_nil hne
    have hc := hwords c List.mem_cons_self
    have h123 : c ≠ 123 := by
      rintro rfl
      cases hc
    have h91 : c ≠ 91 := by
      rintro rfl
      cases hc
    have h34 : c ≠ 34 := by
      rintro rfl
      cases hc
    rw [List.cons_append] at hw hdrop
    simp only [value, whitespace_of_skip hw (not_isWhitespace_of_isWord hc), h123, h91, h34,
      if_false, hdrop, pure, Except.pure]
  | @lastMember s k s₁ s₂ s₃ r v hk hcolon hv hclose ih =>
    intro n hn keys duplicate
    obtain ⟨n, rfl⟩ : ∃ m, n = m + 1 := ⟨n - 1, by omega⟩
    have h₁ := hk.length
    have h₂ := Json.length_of_skip hcolon
    rw [List.length_cons] at hn
    have hboundary : Boundary s₃ := boundary_of_skip (by simp [hclose, endsToken])
    obtain ⟨b, hb, hiff⟩ := ih hboundary n (by omega) (duplicate || keys.contains k)
    refine ⟨b, ?_, ?_⟩
    · rw [members_step (stringToken_of_content hk) (whitespace_of_skip hcolon rfl) hb,
        whitespace_of_skip hclose rfl]
      rfl
    · rw [hiff]
      simp [or_assoc]
  | @member s k s₁ s₂ s₃ s₄ r v ms hk hcolon hv hcomma hms ih ih' =>
    intro n hn keys duplicate
    obtain ⟨n, rfl⟩ : ∃ m, n = m + 1 := ⟨n - 1, by omega⟩
    have h₁ := hk.length
    have h₂ := Json.length_of_skip hcolon
    have h₃ := hv.length
    have h₄ := Json.length_of_skip hcomma
    have h₅ := (Json.skip_suffix s₄).length_le
    rw [List.length_cons] at hn
    have hboundary : Boundary s₃ := boundary_of_skip (by simp [hcomma, endsToken])
    obtain ⟨b, hb, hiff⟩ := ih hboundary n (by omega) (duplicate || keys.contains k)
    obtain ⟨b', hb', hiff'⟩ := ih' n (by omega) (k :: keys) b
    refine ⟨b', ?_, ?_⟩
    · rw [members_step (stringToken_of_content hk) (whitespace_of_skip hcolon rfl) hb,
        whitespace_of_skip hcomma rfl, List.tail_cons, whitespace_of_members hms, hb']
      rfl
    · rw [hiff', hiff, Bool.or_eq_true, List.contains_iff_mem, exists_key_cons, not_nodup_cons]
      simp only [List.mem_cons, exists_eq_or_imp]
      exact regrouped
  | @lastElement s s₁ r v hv hclose ih =>
    intro n hn duplicate
    obtain ⟨n, rfl⟩ : ∃ m, n = m + 1 := ⟨n - 1, by omega⟩
    have hboundary : Boundary s₁ := boundary_of_skip (by simp [hclose, endsToken])
    obtain ⟨b, hb, hiff⟩ := ih hboundary n (by omega) duplicate
    refine ⟨b, ?_, ?_⟩
    · rw [elements_step (head_of_value hv) hb, whitespace_of_skip hclose rfl]
      rfl
    · rw [hiff]
      simp
  | @element s s₁ s₂ r v vs hv hcomma hvs ih ih' =>
    intro n hn duplicate
    obtain ⟨n, rfl⟩ : ∃ m, n = m + 1 := ⟨n - 1, by omega⟩
    have h₁ := hv.length
    have h₂ := Json.length_of_skip hcomma
    have h₃ := (Json.skip_suffix s₂).length_le
    have hboundary : Boundary s₁ := boundary_of_skip (by simp [hcomma, endsToken])
    obtain ⟨b, hb, hiff⟩ := ih hboundary n (by omega) duplicate
    obtain ⟨b', hb', hiff'⟩ := ih' n (by omega) b
    refine ⟨b', ?_, ?_⟩
    · rw [elements_step (head_of_value hv) hb, whitespace_of_skip hcomma rfl, List.tail_cons,
        whitespace_of_elements hvs, hb']
      rfl
    · rw [hiff', hiff]
      simp only [List.mem_cons, exists_eq_or_imp, or_assoc]

/-! ### Every text -/

theorem closing_length {w : Text} (h : closing s = some (w, r)) : r.length < s.length := by
  fun_induction closing s generalizing w r with
  | case1 => cases h
  | case2 => cases h
  | case3 c text ih =>
    obtain ⟨⟨w', r'⟩, hw, heq⟩ := Option.map_eq_some_iff.mp h
    cases heq
    have hlt := ih hw
    simp only [List.length_cons]
    omega
  | case4 c text =>
    cases h
    simp
  | case5 c text h92 h34 ih =>
    obtain ⟨⟨w', r'⟩, hw, heq⟩ := Option.map_eq_some_iff.mp h
    cases heq
    have hlt := ih hw
    simp only [List.length_cons]
    omega

theorem stringToken_cases (text : Text) : (∃ k r, stringToken text = .ok (k, r) ∧
    r.length < text.length) ∨ ∃ e, stringToken text = .error e ∧ e ≠ .exhausted := by
  unfold stringToken
  split
  · exact .inr ⟨_, rfl, by decide⟩
  next token rest hclosing =>
    have hlt := closing_length hclosing
    have hle : text.tail.length ≤ text.length := by simp
    split
    · exact .inl ⟨_, _, rfl, by omega⟩
    · exact .inr ⟨_, rfl, by decide⟩

/-- The outcome of a loop that had the fuel it needs and moved forward. -/
def Ends (text : Text) (outcome : Except Fault (Bool × Text)) : Prop :=
  match outcome with
  | .ok (_, rest) => rest.length ≤ text.length
  | .error e => e ≠ .exhausted

theorem Ends.bind {outcome : Except Fault (Bool × Text)}
    {f : Bool × Text → Except Fault (Bool × Text)} {text' : Text} (h : Ends text' outcome)
    (hf : ∀ b rest, rest.length ≤ text'.length → Ends text (f (b, rest))) :
    Ends text (outcome >>= f) := by
  cases outcome with
  | error e => exact h
  | ok p => exact hf p.1 p.2 h

theorem Ends.mono {outcome : Except Fault (Bool × Text)} {text' : Text} (h : Ends text' outcome)
    (hle : text'.length ≤ text.length) : Ends text outcome := by
  cases outcome with
  | error e => exact h
  | ok p => exact le_trans h hle

theorem whitespace_length (text : Text) : (whitespace text).length ≤ text.length :=
  (whitespace_suffix text).length_le

theorem tail_length (text : Text) : text.tail.length ≤ text.length := by simp

theorem tail_lt_of_head (h : text.head? = some c) : text.tail.length < text.length := by
  cases text with
  | nil => cases h
  | cons d text => simp

/-- The scanner ends on every text, whether it is JSON or not. -/
theorem scanner_ends (n : ℕ) : ∀ text duplicate,
    (2 * text.length + 1 ≤ n → Ends text (value n text duplicate)) ∧
    (∀ keys, 2 * text.length + 2 ≤ n → Ends text (members n text keys duplicate)) ∧
    (2 * text.length + 2 ≤ n → Ends text (elements n text duplicate)) := by
  induction n with
  | zero => exact fun _ _ => ⟨fun h => by omega, fun _ h => by omega, fun h => by omega⟩
  | succ n ih =>
    intro text duplicate
    refine ⟨fun hn => ?_, fun keys hn => ?_, fun hn => ?_⟩
    · rw [value]
      split
      · simp [Ends]
      next c rest hrest =>
      have hlt := whitespace_length text
      have hws := whitespace_length rest
      rw [hrest, List.length_cons] at hlt
      split_ifs
      · exact ((ih _ _).2.1 _ (by omega)).mono (by omega)
      · exact ((ih _ _).2.2 (by omega)).mono (by omega)
      · rcases stringToken_cases (c :: rest) with ⟨k, r, hk, hr⟩ | ⟨e, he, hne⟩
        · rw [hk, ok_bind]
          rw [List.length_cons] at hr
          exact (show r.length ≤ text.length by omega)
        · rw [he]
          exact hne
      · have hdrop := (List.dropWhile_suffix (!endsToken ·) (l := c :: rest)).length_le
        rw [List.length_cons] at hdrop
        exact (show _ ≤ text.length by omega)
    · rw [members]
      split_ifs with hclose
      · exact tail_length text
      · rcases stringToken_cases text with ⟨k, s₁, hk, hs₁⟩ | ⟨e, he, hne⟩
        · rw [hk, ok_bind]
          have h₁ := whitespace_length s₁
          have h₂ := tail_length (whitespace s₁)
          refine ((ih (whitespace s₁).tail _).1 (by omega)).bind fun b s₃ hs₃ => ?_
          have h₃ := whitespace_length s₃
          have h₄ := tail_length (whitespace s₃)
          have h₅ := whitespace_length (whitespace s₃).tail
          dsimp only
          split_ifs
          · exact ((ih _ _).2.1 _ (by omega)).mono (by omega)
          · exact (show _ ≤ text.length by omega)
        · rw [he]
          exact hne
    · rw [elements]
      split_ifs with hclose
      · exact tail_length text
      · refine ((ih text _).1 (by omega)).bind fun b s₁ hs₁ => ?_
        have h₁ := whitespace_length s₁
        have h₂ := tail_length (whitespace s₁)
        have h₃ := whitespace_length (whitespace s₁).tail
        dsimp only
        split_ifs with hcomma
        · have hlt := tail_lt_of_head hcomma
          exact ((ih _ _).2.2 (by omega)).mono (by omega)
        · exact (show _ ≤ text.length by omega)

theorem scanned_document {raw : Text} (hv : Json.parse raw = some v) :
    ∃ b, hasDuplicateObjectKeys raw = .ok b ∧ (b = true ↔ RepeatsKey v) := by
  obtain ⟨r, hreads, hr⟩ := Json.parse_eq_some.mp hv
  obtain ⟨b, hb, hiff⟩ := scanned_of_reads hreads (boundary_of_skip (by simp [hr])) _ le_rfl false
  refine ⟨b, ?_, by simpa using hiff⟩
  rw [hasDuplicateObjectKeys, hb]
  rfl

/-- The scanner ends on every text, and on a JSON text its answer is whether an object of the
    document, at whatever depth, names one key twice. -/
theorem scans_every_text (raw : Text) : hasDuplicateObjectKeys raw ≠ .error .exhausted ∧
    ∀ v, Json.parse raw = some v →
      ∃ b, hasDuplicateObjectKeys raw = .ok b ∧ (b = true ↔ RepeatsKey v) := by
  refine ⟨fun h => ?_, fun v hv => scanned_document hv⟩
  have hends := (scanner_ends (2 * raw.length + 1) raw false).1 le_rfl
  unfold hasDuplicateObjectKeys at h
  cases hvalue : value (2 * raw.length + 1) raw false with
  | ok p =>
    rw [hvalue] at h
    cases h
  | error e =>
    rw [hvalue] at h hends
    cases h
    exact hends rfl

end DuplicateKeys

/-! ### The reading of an answer -/

/-- What the answer reads of an error of the schema. -/
structure ErrorObject where
  instancePath : String
  keyword : String

/-- `formatError`. -/
def formatError (error : ErrorObject) : String :=
  (if error.instancePath = "" then "/" else error.instancePath) ++ ":" ++ error.keyword

structure SchemaResult where
  accepted : Bool
  response : Option Json
  reasonCodes : List String
  errors : List String

def maxModelResponseBytes : ℕ := 1_048_576

def refused (reason : String) (errors : List String) : SchemaResult :=
  ⟨false, none, [reason], errors⟩

/-- `ModelResponseValidator.parse`; `validate` is the compiled schema. -/
def parseResponse (validate : Json → Except (List ErrorObject) Unit) (raw : Text) :
    Except DuplicateKeys.Fault SchemaResult :=
  if maxModelResponseBytes < byteLength raw then return refused "MODEL_RESPONSE_OVERSIZED" []
  else
    match Json.parse raw with
    | none => return refused "MODEL_JSON_INVALID" []
    | some tree => do
      let duplicate ← DuplicateKeys.hasDuplicateObjectKeys raw
      if duplicate then return refused "MODEL_JSON_DUPLICATE_KEYS" []
      else
        match validate (folded tree) with
        | .error errors => return refused "MODEL_SCHEMA_INVALID" ((errors.take 32).map formatError)
        | .ok () => return ⟨true, some (folded tree), [], []⟩

/-- Every text gets an answer, and an accepted answer is the document itself, member by member: the
    text is JSON of bounded size that names no key of an object twice, and its value passed the
    schema. -/
theorem accepted_answer (validate : Json → Except (List ErrorObject) Unit) (raw : Text) :
    ∃ result, parseResponse validate raw = .ok result ∧
      ∀ v, result.accepted = true ∧ result.response = some v ↔
        byteLength raw ≤ maxModelResponseBytes ∧ Json.parse raw = some v ∧ ¬RepeatsKey v ∧
          validate v = .ok () := by
  unfold parseResponse
  split_ifs with hsize
  · exact ⟨_, rfl, fun v => ⟨fun h => (by cases h.1), fun h => absurd h.1 (by omega)⟩⟩
  have hle := Nat.le_of_not_lt hsize
  cases htree : Json.parse raw with
  | none => exact ⟨_, rfl, fun v => ⟨fun h => (by cases h.1), fun h => by cases h.2.1⟩⟩
  | some tree =>
    obtain ⟨b, hb, hiff⟩ := DuplicateKeys.scanned_document htree
    simp only [hb, ok_bind]
    split_ifs with hdup
    · refine ⟨_, rfl, fun v => ⟨fun h => (by cases h.1), ?_⟩⟩
      rintro ⟨-, hv, hno, -⟩
      cases hv
      exact absurd (hiff.mp hdup) hno
    have hno : ¬RepeatsKey tree := fun h => hdup (hiff.mpr h)
    rw [Json.folded_eq tree hno]
    cases hvalid : validate tree with
    | error errors =>
      refine ⟨_, rfl, fun v => ⟨fun h => (by cases h.1), ?_⟩⟩
      rintro ⟨-, hv, -, hok⟩
      cases hv
      rw [hvalid] at hok
      cases hok
    | ok _ =>
      refine ⟨_, rfl, fun v => ⟨?_, ?_⟩⟩
      · rintro ⟨-, hv⟩
        cases hv
        exact ⟨hle, rfl, hno, hvalid⟩
      · rintro ⟨-, hv, -, -⟩
        exact ⟨rfl, hv⟩

end ScalpingBot.Model
