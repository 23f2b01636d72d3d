import Mathlib.Data.List.DropRight
import Mathlib.Data.List.Forall2
import ScalpingBot.Library.Blocks
import ScalpingBot.Library.JsonText
import ScalpingBot.Model.DuplicateKeys
import ScalpingBot.Scenario.Plan

/-! The reading of an entry answer in packages/scenario-engine/src/entry-plan.ts: prose and code fences
    may surround one JSON object with the two prices. -/

namespace ScalpingBot.Scenario.EntryPlan

open Json (Text RepeatsKey byteLength folded)
open Blocks (Inside Begun Segmented Opened braced)

/-! ### The candidates -/

/-- The state of the loop of `parseEntryPrices`. -/
structure Scan where
  candidates : List Text := []
  depth : ℕ := 0
  /-- `raw.slice(start, i)` -/
  current : Text := []
  quoted : Bool := false
  escaped : Bool := false

def Scan.step (s : Scan) (c : ℕ) : Scan :=
  if s.depth = 0 then
    if c = 123 then { s with current := [c], depth := 1, quoted := false } else s
  else if s.quoted then
    if s.escaped then { s with current := s.current ++ [c], escaped := false }
    else if c = 92 then { s with current := s.current ++ [c], escaped := true }
    else if c = 34 then { s with current := s.current ++ [c], quoted := false }
    else { s with current := s.current ++ [c] }
  else if c = 34 then { s with current := s.current ++ [c], quoted := true }
  else if c = 123 then { s with current := s.current ++ [c], depth := s.depth + 1 }
  else if c = 125 then
    if s.depth = 1 then
      { s with
        candidates := s.candidates ++ [s.current ++ [c]]
        depth := 0
        current := s.current ++ [c] }
    else { s with current := s.current ++ [c], depth := s.depth - 1 }
  else { s with current := s.current ++ [c] }

def scan (raw : Text) : Scan := raw.foldl Scan.step {}

/-! ### The prices -/

/-- What `new Decimal(value)` makes of the number of a literal. -/
structure JsNumber where
  isFinite : Bool
  precision : ℕ
  toFixed : Text

def digits (t : Text) : ℕ := t.foldl (fun n c => 10 * n + (c - 48)) 0

/-- `DECIMAL_PATTERN`, and the value of a text that matches it. -/
def decimalText (t : Text) : Option Decimal :=
  let whole := t.takeWhile Json.isDigit
  if whole = [] ∨ 16 < whole.length ∨ (whole.head? = some 48 ∧ whole.length ≠ 1) then none
  else
    match t.dropWhile Json.isDigit with
    | [] => some (digits whole)
    | c :: fraction =>
      if c = 46 ∧ fraction ≠ [] ∧ fraction.length ≤ 10 ∧ fraction.all Json.isDigit then
        some (digits whole + digits fraction / 10 ^ fraction.length)
      else none

/-- `trim`. -/
def trim (t : Text) : Text :=
  (t.dropWhile Model.DuplicateKeys.isWhitespace).rdropWhile Model.DuplicateKeys.isWhitespace

/-- A member of an object. -/
def member (key : String) (value : Json) : Option Json :=
  match value with
  | .object ms => (ms.find? (·.1 = Json.units key)).map Prod.snd
  | _ => none

/-- A price that `decimal` accepts. -/
def positive (t : Text) : Except String Decimal :=
  match decimalText t with
  | some price => if 0 < price then .ok price else .error "AI_ENTRY_PRICE_INVALID"
  | none => .error "AI_ENTRY_PRICE_INVALID"

/-- `price` of a value that is no object. -/
def plainPrice (number : Json.Number → JsNumber) : Option Json → Except String Decimal
  | some (.string t) => positive (trim t)
  | some (.number n) =>
    if (number n).isFinite = false ∨ 15 < (number n).precision then .error "AI_ENTRY_PRICE_INVALID"
    else positive (number n).toFixed
  | _ => .error "AI_ENTRY_PRICE_MISSING"

/-- `price`. -/
def price (number : Json.Number → JsNumber) (value : Option Json) : Except String Decimal :=
  match value with
  | some (.object fields) =>
    let entryPrice := member "entry_price" (.object fields)
    let plain := member "price" (.object fields)
    if entryPrice.isSome ∧ plain.isSome then .error "AI_ENTRY_PRICE_AMBIGUOUS"
    else
      match entryPrice with
      | some .null => plainPrice number plain
      | none => plainPrice number plain
      | some v => plainPrice number (some v)
  | value => plainPrice number value

structure EntryPrices where
  buyStop : Decimal
  sellStop : Decimal

def faultMessage : Model.DuplicateKeys.Fault → String
  | .unterminatedString => "unterminated string"
  | .syntaxError => "SyntaxError"
  | .exhausted => "RangeError"

/-- The pair of a candidate, if it names one. -/
def pairOf (number : Json.Number → JsNumber) (candidate : Text) :
    Except String (Option EntryPrices) :=
  match Json.parse candidate with
  | none => return none
  | some tree =>
    let value := folded tree
    if (member "buy_stop" value).isNone ∧ (member "sell_stop" value).isNone then return none
    else do
      let duplicate ←
        (Model.DuplicateKeys.hasDuplicateObjectKeys candidate).mapError faultMessage
      if duplicate then .error "AI_ENTRY_DUPLICATE_KEYS"
      else do
        let buyStop ← price number (member "buy_stop" value)
        let sellStop ← price number (member "sell_stop" value)
        return some ⟨buyStop, sellStop⟩

/-- `parseEntryPrices`; the canonical texts of the prices stand as their values. -/
def parseEntryPrices (number : Json.Number → JsNumber) (raw : Text) : Except String EntryPrices :=
  if 65_536 < byteLength raw then .error "AI_ENTRY_RESPONSE_OVERSIZED"
  else do
    let pairs ← (scan raw).candidates.mapM (pairOf number)
    match pairs.filterMap id with
    | [pair] => if (scan raw).depth = 0 then return pair else .error "AI_ENTRY_PAIR_UNREADABLE"
    | [] => .error "AI_ENTRY_PAIR_UNREADABLE"
    | _ => .error "AI_ENTRY_PAIR_AMBIGUOUS"

/-! ### The scan finds the blocks of the text -/

variable {m : Scan} {a s t w raw : Text} {bs : List Text} {c : ℕ} {e : Bool}

theorem foldl_begun (hw : Begun w e) (hdepth : m.depth ≠ 0) (hq : m.quoted = true)
    (he : m.escaped = false) :
    w.foldl Scan.step m = { m with current := m.current ++ w, escaped := e } := by
  induction hw with
  | nil => simp [← he]
  | plain h92 h34 _ ih => simp [List.foldl_append, ih, Scan.step, hdepth, hq, h92, h34]
  | escape _ ih => simp [List.foldl_append, ih, Scan.step, hdepth, hq]
  | escaped _ ih => simp [List.foldl_append, ih, Scan.step, hdepth, hq]

/-- Balanced text inside a block is taken whole. -/
theorem foldl_inside (ha : Inside a) (hdepth : m.depth ≠ 0) (hq : m.quoted = false)
    (he : m.escaped = false) :
    a.foldl Scan.step m = { m with current := m.current ++ a } := by
  induction ha generalizing m with
  | nil => simp
  | plain h34 h123 h125 _ ih =>
    rw [List.foldl_cons, ih (by simp [Scan.step, hdepth, hq, h34, h123, h125])
      (by simp [Scan.step, hdepth, hq, h34, h123, h125])
      (by simp [Scan.step, hdepth, hq, h34, h123, h125, he])]
    simp [Scan.step, hdepth, hq, h34, h123, h125]
  | @quoted w s hw _ ih =>
    have hopen : Scan.step m 34 = { m with current := m.current ++ [34], quoted := true } := by
      simp [Scan.step, hdepth, hq]
    rw [List.foldl_cons, hopen, List.foldl_append, foldl_begun (m := ⟨m.candidates, m.depth,
      m.current ++ [34], true, m.escaped⟩) hw hdepth rfl he, List.foldl_cons]
    have hclose : ∀ cur, Scan.step ⟨m.candidates, m.depth, cur, true, false⟩ 34 =
        ⟨m.candidates, m.depth, cur ++ [34], false, false⟩ := fun cur => by
      simp [Scan.step, hdepth]
    rw [hclose, ih (m := ⟨m.candidates, m.depth, m.current ++ [34] ++ w ++ [34], false, false⟩)
      hdepth rfl rfl]
    simp [hq, he]
  | @block x s _ _ ih ih' =>
    have hopen : Scan.step m 123 =
        { m with current := m.current ++ [123], depth := m.depth + 1 } := by
      simp [Scan.step, hdepth, hq]
    rw [List.foldl_cons, hopen, List.foldl_append, ih (m := ⟨m.candidates, m.depth + 1,
      m.current ++ [123], m.quoted, m.escaped⟩) (by simp) hq he, List.foldl_cons]
    have hclose : ∀ cur, Scan.step { m with depth := m.depth + 1, current := cur } 125 =
        { m with current := cur ++ [125] } := fun cur => by
      simp [Scan.step, hdepth, hq]
    rw [hclose, ih' (m := ⟨m.candidates, m.depth, m.current ++ [123] ++ x ++ [125], m.quoted,
      m.escaped⟩) hdepth hq he]
    simp

/-- Nothing is open. -/
structure Scan.Idle (m : Scan) : Prop where
  depth : m.depth = 0
  quoted : m.quoted = false
  escaped : m.escaped = false

theorem foldl_segmented (hs : Segmented s bs) (hidle : m.Idle) :
    (s.foldl Scan.step m).Idle ∧
      (s.foldl Scan.step m).candidates = m.candidates ++ bs := by
  induction hs generalizing m with
  | nil => exact ⟨hidle, by simp⟩
  | @prose s bs c hc _ ih =>
    have hstep : Scan.step m c = m := by simp [Scan.step, hidle.depth, hc]
    rw [List.foldl_cons, hstep]
    exact ih hidle
  | @block x s bs hx _ ih =>
    rw [List.foldl_append, braced, List.foldl_cons]
    have hopen : Scan.step m 123 = { m with current := [123], depth := 1, quoted := false } := by
      simp [Scan.step, hidle.depth]
    rw [hopen, List.foldl_append, foldl_inside (m := ⟨m.candidates, 1, [123], false,
      m.escaped⟩) hx (by simp) rfl hidle.escaped, List.foldl_cons, List.foldl_nil]
    have hclose : Scan.step ⟨m.candidates, 1, [123] ++ x, false, m.escaped⟩ 125 =
        ⟨m.candidates ++ [braced x], 0, braced x, false, m.escaped⟩ := by
      simp [Scan.step, braced]
    rw [hclose]
    obtain ⟨hidle', hcandidates⟩ := ih (m := ⟨m.candidates ++ [braced x], 0, braced x, false,
      m.escaped⟩) ⟨rfl, rfl, hidle.escaped⟩
    exact ⟨hidle', by rw [hcandidates]; simp [braced]⟩

/-- Where the loop stands after some of the text: between blocks, inside one, or inside a string. -/
inductive Along (consumed : Text) (m : Scan) : Prop where
  | between : m.Idle → Segmented consumed m.candidates → Along consumed m
  | inside {before : Text} : consumed = before ++ m.current → Segmented before m.candidates →
      m.quoted = false → m.escaped = false → Opened m.depth m.current → Along consumed m
  | quoted {before s w : Text} : consumed = before ++ m.current → Segmented before m.candidates →
      m.quoted = true → m.current = s ++ 34 :: w → Opened m.depth s → Begun w m.escaped →
      Along consumed m

/-- One character. -/
theorem Along.step (h : Along s m) (c : ℕ) : Along (s ++ [c]) (m.step c) := by
  cases h with
  | between hidle hs =>
    by_cases hc : c = 123
    · subst hc
      refine @Along.inside _ _ s ?_ ?_ ?_ ?_ ?_ <;> simp [Scan.step, hidle.depth]
      · exact hs
      · exact hidle.escaped
      · exact .one .nil
    · have hstep : Scan.step m c = m := by simp [Scan.step, hidle.depth, hc]
      rw [hstep]
      exact .between hidle (hs.snoc hc)
  | @inside before hcur hs hq he hopen =>
    have hdepth : m.depth ≠ 0 := hopen.pos.ne'
    have happend : s ++ [c] = before ++ (m.current ++ [c]) := by rw [hcur, List.append_assoc]
    by_cases h34 : c = 34
    · subst h34
      refine @Along.quoted _ _ before m.current [] ?_ ?_ ?_ ?_ ?_ ?_ <;>
        simp [Scan.step, hdepth, hq, happend, hs, hopen, he, Begun.nil]
    by_cases h123 : c = 123
    · subst h123
      refine @Along.inside _ _ before ?_ ?_ ?_ ?_ ?_ <;>
        simp [Scan.step, hdepth, hq, happend, hs, he]
      exact .more hopen .nil
    by_cases h125 : c = 125
    · subst h125
      by_cases hone : m.depth = 1
      · obtain ⟨a, ha, hinside⟩ := (hone ▸ hopen).closed
        refine .between ⟨?_, ?_, ?_⟩ ?_ <;> simp [Scan.step, hone, hq, he]
        rw [happend, ha]
        exact hs.snoc_block hinside
      · refine @Along.inside _ _ before ?_ ?_ ?_ ?_ ?_ <;>
          simp [Scan.step, hdepth, hone, hq, happend, hs, he]
        exact hopen.close hone
    · refine @Along.inside _ _ before ?_ ?_ ?_ ?_ ?_ <;>
        simp [Scan.step, hdepth, hq, h34, h123, h125, happend, hs, he]
      exact hopen.append (.plain h34 h123 h125 .nil)
  | @quoted before x w hcur hs hq hw hopen hbegun =>
    have hdepth : m.depth ≠ 0 := hopen.pos.ne'
    have happend : s ++ [c] = before ++ (m.current ++ [c]) := by rw [hcur, List.append_assoc]
    cases he : m.escaped with
    | true =>
      rw [he] at hbegun
      refine @Along.quoted _ _ before x (w ++ [c]) ?_ ?_ ?_ ?_ ?_ ?_ <;>
        simp [Scan.step, hdepth, hq, happend, hs, hopen, he, hw]
      exact .escaped hbegun
    | false =>
      rw [he] at hbegun
      by_cases h92 : c = 92
      · subst h92
        refine @Along.quoted _ _ before x (w ++ [92]) ?_ ?_ ?_ ?_ ?_ ?_ <;>
          simp [Scan.step, hdepth, hq, happend, hs, hopen, he, hw]
        exact .escape hbegun
      by_cases h34 : c = 34
      · subst h34
        refine @Along.inside _ _ before ?_ ?_ ?_ ?_ ?_ <;>
          simp [Scan.step, hdepth, hq, happend, hs, he]
        rw [hw]
        have hclosed := hopen.append (.quoted hbegun .nil)
        simpa using hclosed
      · refine @Along.quoted _ _ before x (w ++ [c]) ?_ ?_ ?_ ?_ ?_ ?_ <;>
          simp [Scan.step, hdepth, hq, happend, hs, hopen, he, hw, h92, h34]
        exact .plain h92 h34 hbegun

theorem along_scan (raw : Text) : Along raw (scan raw) := by
  induction raw using List.reverseRecOn with
  | nil => exact .between ⟨rfl, rfl, rfl⟩ .nil
  | append_singleton raw c ih =>
    rw [scan, List.foldl_append, List.foldl_cons, List.foldl_nil]
    exact ih.step c

/-- The scan closes exactly the texts that are prose around blocks, and its candidates are these
    blocks. -/
theorem scan_iff : (scan raw).depth = 0 ∧ (scan raw).candidates = bs ↔ Segmented raw bs := by
  constructor
  · rintro ⟨hdepth, rfl⟩
    cases along_scan raw with
    | between _ hs => exact hs
    | inside _ _ _ _ hopen => exact absurd hdepth hopen.pos.ne'
    | quoted _ _ _ _ hopen _ => exact absurd hdepth hopen.pos.ne'
  · intro h
    obtain ⟨hidle, hcandidates⟩ := foldl_segmented (m := {}) h ⟨rfl, rfl, rfl⟩
    exact ⟨hidle.depth, hcandidates⟩

/-! ### The pair of a text -/

/-- An object with one of the two prices. -/
def Names (block : Text) : Prop :=
  ∃ ms, Json.parse block = some (.object ms) ∧
    (Json.units "buy_stop" ∈ ms.map Prod.fst ∨ Json.units "sell_stop" ∈ ms.map Prod.fst)

/-- An object that names no key twice and has both prices. -/
def Offers (number : Json.Number → JsNumber) (block : Text) (pair : EntryPrices) : Prop :=
  ∃ v, Json.parse block = some v ∧ ¬RepeatsKey v ∧
    price number (member "buy_stop" v) = .ok pair.buyStop ∧
    price number (member "sell_stop" v) = .ok pair.sellStop

variable {number : Json.Number → JsNumber} {pair : EntryPrices} {key : String}
  {ms : List (Text × Json)}

theorem map_fst_foldedMembers (ms : List (Text × Json)) :
    (Json.foldedMembers ms).map Prod.fst = ms.map Prod.fst := by
  induction ms with
  | nil => rfl
  | cons m ms ih => simp [Json.foldedMembers, ih]

theorem member_isNone : (member key (.object ms)).isNone = true ↔
    Json.units key ∉ ms.map Prod.fst := by
  rw [member, Option.isNone_map, Option.isNone_iff_eq_none, List.find?_eq_none]
  constructor
  · intro h hkey
    obtain ⟨m, hm, hkey⟩ := List.mem_map.mp hkey
    exact h m hm (by simp [hkey])
  · intro h m hm hkey
    exact h (List.mem_map.mpr ⟨m, hm, by simpa using hkey⟩)

/-- A candidate is an object wherever it is JSON. -/
theorem object_of_braced {v : Json} (h : Json.parse (braced a) = some v) : ∃ ms, v = .object ms := by
  obtain ⟨r, hreads, -⟩ := Json.parse_eq_some.mp h
  have hskip : Json.skip (braced a) = 123 :: (a ++ [125]) := Json.skip_cons rfl
  cases hreads with
  | emptyObject => exact ⟨_, rfl⟩
  | object => exact ⟨_, rfl⟩
  | emptyArray hs | array hs | string hs =>
    rw [hskip] at hs
    cases hs
  | plain hv =>
    obtain ⟨c, t, ht, hc⟩ := Json.plain_head hv
    rw [hskip] at ht
    cases ht
    cases hc

/-- What a candidate yields. -/
theorem pairOf_braced (number : Json.Number → JsNumber) (a : Text) :
    (pairOf number (braced a) = .ok none ↔ ¬Names (braced a)) ∧
      ∀ pair, pairOf number (braced a) = .ok (some pair) ↔ Offers number (braced a) pair := by
  cases htree : Json.parse (braced a) with
  | none => simp [pairOf, htree, Names, Offers, pure, Except.pure]
  | some v =>
    obtain ⟨ms, rfl⟩ := object_of_braced htree
    obtain ⟨duplicate, hscan, hiff⟩ := Model.DuplicateKeys.scanned_document htree
    have hkeys : ∀ key, (member key (folded (.object ms))).isNone = true ↔
        Json.units key ∉ ms.map Prod.fst := by
      intro key
      rw [folded, member_isNone, Dictionary.mem_keys_values, map_fst_foldedMembers]
    have hnames : Names (braced a) ↔ ¬((member "buy_stop" (folded (.object ms))).isNone = true ∧
        (member "sell_stop" (folded (.object ms))).isNone = true) := by
      rw [hkeys, hkeys, ← not_or, not_not, Names]
      simp [htree]
    have hoffers : ∀ pair, Offers number (braced a) pair ↔ ¬RepeatsKey (.object ms) ∧
        price number (member "buy_stop" (.object ms)) = .ok pair.buyStop ∧
        price number (member "sell_stop" (.object ms)) = .ok pair.sellStop := by
      intro pair
      simp [Offers, htree]
    simp only [hnames, hoffers, pairOf, htree]
    split_ifs with hunnamed
    · refine ⟨⟨fun _ => not_not.mpr hunnamed, fun _ => rfl⟩, fun pair => ⟨fun h => (by cases h), ?_⟩⟩
      rintro ⟨hno, hbuy, -⟩
      rw [Json.folded_eq _ hno] at hunnamed
      rw [Option.isNone_iff_eq_none.mp hunnamed.1] at hbuy
      cases hbuy
    · rw [hscan, Except.mapError, ok_bind]
      cases duplicate with
      | true =>
        have hrep : RepeatsKey (.object ms) := hiff.mp rfl
        exact ⟨⟨fun h => (by cases h), fun h => absurd hunnamed h⟩,
          fun pair => ⟨fun h => (by cases h), fun h => absurd hrep h.1⟩⟩
      | false =>
        have hno : ¬RepeatsKey (.object ms) := fun h => absurd (hiff.mpr h) (by simp)
        rw [Json.folded_eq _ hno] at hunnamed ⊢
        simp only [Bool.false_eq_true, if_false, bind_ok, pure_ok, hno, not_false_eq_true, true_and,
          hunnamed, not_true_eq_false, iff_false]
        constructor
        · rintro ⟨_, -, _, -, h⟩
          cases h
        · intro pair
          constructor
          · rintro ⟨buyStop, hbuy, sellStop, hsell, h⟩
            cases h
            exact ⟨hbuy, hsell⟩
          · rintro ⟨hbuy, hsell⟩
            exact ⟨_, hbuy, _, hsell, rfl⟩

/-- The computations over a list, one by one. -/
theorem mapM_forall {α β ε : Type} {f : α → Except ε β} {l : List α} {bs : List β} :
    l.mapM f = .ok bs ↔ List.Forall₂ (fun a b => f a = .ok b) l bs := by
  induction l generalizing bs with
  | nil =>
    rw [List.mapM_nil, pure_ok]
    constructor
    · rintro rfl
      exact .nil
    · intro h
      cases h
      rfl
  | cons a l ih =>
    simp only [List.mapM_cons, bind_ok, pure_ok]
    constructor
    · rintro ⟨b, hb, rest, hrest, rfl⟩
      exact .cons hb (ih.mp hrest)
    · intro h
      cases h with
      | cons hb hrest => exact ⟨_, hb, _, ih.mpr hrest, rfl⟩

/-- One of the results is a pair, and all the others are none. -/
theorem filterMap_eq_singleton {α : Type} {l : List (Option α)} {x : α} :
    l.filterMap id = [x] ↔ ∃ left right, l = left ++ some x :: right ∧ ∀ o ∈ left ++ right, o = none := by
  constructor
  · intro h
    induction l with
    | nil => cases h
    | cons o l ih =>
      cases o with
      | none =>
        obtain ⟨left, right, rfl, hnone⟩ := ih (by simpa using h)
        exact ⟨none :: left, right, rfl, by simpa using hnone⟩
      | some y =>
        rw [List.filterMap_cons_some (by rfl)] at h
        obtain ⟨rfl, hl⟩ := List.cons.inj h
        refine ⟨[], l, rfl, fun o ho => ?_⟩
        have hnil := List.filterMap_eq_nil_iff.mp hl o ho
        simpa using hnil
  · rintro ⟨left, right, rfl, hnone⟩
    have hskip : ∀ l' : List (Option α), (∀ o ∈ l', o = none) → l'.filterMap id = [] :=
      fun l' h => List.filterMap_eq_nil_iff.mpr fun o ho => by simp [h o ho]
    rw [List.filterMap_append, List.filterMap_cons_some (by rfl),
      hskip left fun o ho => hnone o (List.mem_append_left _ ho),
      hskip right fun o ho => hnone o (List.mem_append_right _ ho)]
    rfl

theorem forall_none {α β ε : Type} {f : α → Except ε (Option β)} {l : List α} {os : List (Option β)}
    (h : List.Forall₂ (fun a o => f a = .ok o) l os) (hnone : ∀ o ∈ os, o = none) :
    ∀ a ∈ l, f a = .ok none := by
  induction h with
  | nil => simp
  | cons ha _ ih =>
    rw [List.forall_mem_cons] at hnone ⊢
    exact ⟨hnone.1 ▸ ha, ih hnone.2⟩

/-- One candidate gives the pair, and the others name no price. -/
theorem pairs_of_candidates {candidates : List Text}
    (hbraced : ∀ b ∈ candidates, ∃ a, b = braced a) :
    (∃ pairs, candidates.mapM (pairOf number) = .ok pairs ∧ pairs.filterMap id = [pair]) ↔
      ∃ left block right, candidates = left ++ block :: right ∧ Offers number block pair ∧
        ∀ other ∈ left ++ right, ¬Names other := by
  have hnames : ∀ b ∈ candidates, (pairOf number b = .ok none ↔ ¬Names b) := by
    intro b hb
    obtain ⟨a, rfl⟩ := hbraced b hb
    exact (pairOf_braced number a).1
  have hoffers : ∀ b ∈ candidates, (pairOf number b = .ok (some pair) ↔ Offers number b pair) := by
    intro b hb
    obtain ⟨a, rfl⟩ := hbraced b hb
    exact (pairOf_braced number a).2 pair
  simp only [mapM_forall, filterMap_eq_singleton]
  constructor
  · rintro ⟨_, hall, left, right, rfl, hnone⟩
    have hleft := List.forall₂_take_append _ _ _ hall
    have hrest := List.forall₂_drop_append _ _ _ hall
    obtain ⟨block, rest, hblock, hright, hdrop⟩ := List.forall₂_cons_right_iff.mp hrest
    have hsplit := List.take_append_drop left.length candidates
    rw [hdrop] at hsplit
    have hmem : ∀ b ∈ candidates.take left.length ++ rest, b ∈ candidates := by
      intro b hb
      rw [← hsplit]
      simp only [List.mem_append, List.mem_cons] at hb ⊢
      tauto
    refine ⟨_, block, rest, hsplit.symm, (hoffers block ?_).mp hblock, fun other hother => ?_⟩
    · rw [← hsplit]
      simp
    · refine (hnames other (hmem other hother)).mp ?_
      rcases List.mem_append.mp hother with h | h
      · exact forall_none hleft (fun o ho => hnone o (List.mem_append_left _ ho)) other h
      · exact forall_none hright (fun o ho => hnone o (List.mem_append_right _ ho)) other h
  · rintro ⟨left, block, right, rfl, hblock, hother⟩
    have hnone : ∀ l : List Text, (∀ b ∈ l, b ∈ left ++ right) →
        List.Forall₂ (fun b o => pairOf number b = .ok o) l (l.map fun _ => none) := by
      intro l hl
      refine List.forall₂_map_right_iff.mpr (List.forall₂_same.mpr fun b hb => ?_)
      refine (hnames b ?_).mpr (hother b (hl b hb))
      have hmem := hl b hb
      simp only [List.mem_append, List.mem_cons] at hmem ⊢
      tauto
    refine ⟨(left.map fun _ => none) ++ some pair :: right.map fun _ => none, ?_, _, _, rfl, ?_⟩
    · exact List.rel_append (hnone left fun b hb => List.mem_append_left _ hb)
        (.cons ((hoffers block (by simp)).mpr hblock) (hnone right fun b hb =>
          List.mem_append_right _ hb))
    · simp

/-- The last steps of `parseEntryPrices`. -/
theorem parseEntryPrices_ok : parseEntryPrices number raw = .ok pair ↔
    byteLength raw ≤ 65_536 ∧ (scan raw).depth = 0 ∧
      ∃ pairs, (scan raw).candidates.mapM (pairOf number) = .ok pairs ∧
        pairs.filterMap id = [pair] := by
  by_cases hsize : 65_536 < byteLength raw
  · rw [parseEntryPrices, if_pos hsize]
    exact ⟨fun h => (by cases h), fun h => absurd h.1 (by omega)⟩
  have hle := Nat.le_of_not_lt hsize
  rw [parseEntryPrices, if_neg hsize, bind_ok]
  constructor
  · rintro ⟨pairs, hpairs, h⟩
    split at h
    · next x hx =>
      split_ifs at h with hdepth
      rw [pure_ok] at h
      exact ⟨hle, hdepth, pairs, hpairs, h ▸ hx⟩
    · cases h
    · cases h
  · rintro ⟨-, hdepth, pairs, hpairs, hx⟩
    refine ⟨pairs, hpairs, ?_⟩
    rw [hx]
    exact if_pos hdepth

/-- A text is read as a pair exactly when it is prose without an opening brace around balanced
    blocks, one of which is an object that names no key twice and has both prices, while none of the
    others is an object that names one of them. -/
theorem reads_one_object (number : Json.Number → JsNumber) (raw : Text) (pair : EntryPrices) :
    parseEntryPrices number raw = .ok pair ↔
      byteLength raw ≤ 65_536 ∧ ∃ left block right, Segmented raw (left ++ block :: right) ∧
        Offers number block pair ∧ ∀ other ∈ left ++ right, ¬Names other := by
  rw [parseEntryPrices_ok]
  constructor
  · rintro ⟨hle, hdepth, hpairs⟩
    have hs := scan_iff.mp ⟨hdepth, rfl⟩
    obtain ⟨left, block, right, hsplit, hblock, hother⟩ := (pairs_of_candidates hs.braced).mp hpairs
    exact ⟨hle, left, block, right, hsplit ▸ hs, hblock, hother⟩
  · rintro ⟨hle, left, block, right, hs, hblock, hother⟩
    obtain ⟨hdepth, hcandidates⟩ := scan_iff.mpr hs
    refine ⟨hle, hdepth, (pairs_of_candidates (hcandidates ▸ hs.braced)).mpr ?_⟩
    exact ⟨left, block, right, hcandidates, hblock, hother⟩

theorem eq_of_closed {w r : Text} (h : a ++ [125] = w ++ 125 :: r) (hr : Json.skip r = []) :
    a = w := by
  rcases List.eq_nil_or_concat r with rfl | ⟨r, c, rfl⟩
  · exact (List.append_inj' h rfl).1
  · have hspace := List.dropWhile_eq_nil_iff.mp hr c (by simp)
    have hlast : a ++ [125] = (w ++ 125 :: r) ++ [c] := by simpa using h
    rw [← (List.cons.inj (List.append_inj' hlast rfl).2).1] at hspace
    cases hspace

/-- What stands between the braces of an object is balanced. -/
theorem inside_of_object {v : Json} (h : Json.parse (braced a) = some v) : Inside a := by
  obtain ⟨r, hreads, hr⟩ := Json.parse_eq_some.mp h
  have hskip : Json.skip (braced a) = 123 :: (a ++ [125]) := Json.skip_cons rfl
  cases hreads with
  | emptyObject hs hclose =>
    rw [hskip] at hs
    cases hs
    obtain ⟨w, hw, hinside⟩ := Blocks.inside_token hclose
    exact eq_of_closed hw hr ▸ hinside
  | @object _ s₁ _ _ hs hms =>
    rw [hskip] at hs
    cases hs
    obtain ⟨w, hw, hwi⟩ := Blocks.inside_skip (a ++ [125])
    obtain ⟨x, hx, hxi⟩ := Blocks.taken_of_reads hms
    rw [hx, ← List.append_assoc] at hw
    exact eq_of_closed hw hr ▸ hwi.append hxi
  | emptyArray hs | array hs | string hs =>
    rw [hskip] at hs
    cases hs
  | plain hv =>
    obtain ⟨c, t, ht, hc⟩ := Json.plain_head hv
    rw [hskip] at ht
    cases ht
    cases hc

/-- A reply with the object in prose. -/
def quotedPrices : Text := Json.units "\"buy_stop\":\"2\",\"sell_stop\":\"1\""

theorem parse_quotedPrices : Json.parse (braced quotedPrices) =
    some (.object [(Json.units "buy_stop", .string [50]), (Json.units "sell_stop", .string [49])]) := by
  have htext : braced quotedPrices = Json.write (.object [(Json.units "buy_stop", .string [50]),
      (Json.units "sell_stop", .string [49])]) := by decide +kernel
  rw [htext, Json.parse_write]

end ScalpingBot.Scenario.EntryPlan
