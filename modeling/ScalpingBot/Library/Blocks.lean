import Mathlib.Data.List.TakeWhile
import ScalpingBot.Library.JsonGrammar

/-! Texts with blocks in braces: a block runs to the brace that closes it, where braces inside a
    quoted string do not count. Every JSON value is balanced in this sense. -/

namespace ScalpingBot.Blocks

open Json (Text Content Reads Part)

/-- A string after its opening quote, not yet closed; the flag says that a backslash is open. -/
inductive Begun : Text → Bool → Prop where
  | nil : Begun [] false
  | plain {w : Text} {c : ℕ} : c ≠ 92 → c ≠ 34 → Begun w false → Begun (w ++ [c]) false
  | escape {w : Text} : Begun w false → Begun (w ++ [92]) true
  | escaped {w : Text} {c : ℕ} : Begun w true → Begun (w ++ [c]) false

/-- Text whose braces are closed in it and whose quotes are, too. -/
inductive Inside : Text → Prop where
  | nil : Inside []
  | plain {s : Text} {c : ℕ} : c ≠ 34 → c ≠ 123 → c ≠ 125 → Inside s → Inside (c :: s)
  | quoted {w s : Text} : Begun w false → Inside s → Inside (34 :: (w ++ 34 :: s))
  | block {a s : Text} : Inside a → Inside s → Inside (123 :: (a ++ 125 :: s))

/-- The block with this text between its braces. -/
def braced (a : Text) : Text := 123 :: (a ++ [125])

/-- A text as prose without an opening brace around its blocks. -/
inductive Segmented : Text → List Text → Prop where
  | nil : Segmented [] []
  | prose {s : Text} {bs : List Text} {c : ℕ} : c ≠ 123 → Segmented s bs → Segmented (c :: s) bs
  | block {a s : Text} {bs : List Text} : Inside a → Segmented s bs →
      Segmented (braced a ++ s) (braced a :: bs)

/-- A text that has opened so many blocks and closed none of them. -/
inductive Opened : ℕ → Text → Prop where
  | one {a : Text} : Inside a → Opened 1 (123 :: a)
  | more {d : ℕ} {s a : Text} : Opened d s → Inside a → Opened (d + 1) (s ++ 123 :: a)

variable {a b s t r w : Text} {bs : List Text} {c d : ℕ} {e : Bool}

theorem Begun.plain_cons (h : Begun w e) (h92 : c ≠ 92) (h34 : c ≠ 34) : Begun (c :: w) e := by
  induction h with
  | nil => exact .plain (w := []) h92 h34 .nil
  | plain h h' _ ih => exact .plain h h' ih
  | escape _ ih => exact .escape ih
  | escaped _ ih => exact .escaped ih

theorem Begun.escape_cons (h : Begun w e) : Begun (92 :: c :: w) e := by
  induction h with
  | nil => exact .escaped (w := [92]) (.escape .nil)
  | plain h h' _ ih => exact .plain h h' ih
  | escape _ ih => exact .escape ih
  | escaped _ ih => exact .escaped ih

theorem Inside.append (ha : Inside a) (hb : Inside b) : Inside (a ++ b) := by
  induction ha with
  | nil => exact hb
  | plain h34 h123 h125 _ ih => exact .plain h34 h123 h125 ih
  | @quoted w s hw _ ih =>
    have hquoted := Inside.quoted hw ih
    simpa using hquoted
  | @block x s hx _ _ ih =>
    have hblock := Inside.block hx ih
    simpa using hblock

theorem Inside.of_plain (h : ∀ c ∈ a, c ≠ 34 ∧ c ≠ 123 ∧ c ≠ 125) : Inside a := by
  induction a with
  | nil => exact .nil
  | cons c a ih =>
    obtain ⟨h34, h123, h125⟩ := h c List.mem_cons_self
    exact .plain h34 h123 h125 (ih fun x hx => h x (List.mem_cons_of_mem _ hx))

theorem inside_braced (h : Inside a) : Inside (braced a) := .block h .nil

theorem Segmented.snoc (h : Segmented s bs) (hc : c ≠ 123) : Segmented (s ++ [c]) bs := by
  induction h with
  | nil => exact .prose hc .nil
  | prose hd _ ih => exact .prose hd ih
  | block ha _ ih =>
    rw [List.append_assoc]
    exact .block ha ih

theorem Segmented.snoc_block (h : Segmented s bs) (ha : Inside a) :
    Segmented (s ++ braced a) (bs ++ [braced a]) := by
  induction h with
  | nil => simpa using Segmented.block ha .nil
  | prose hd _ ih => exact .prose hd ih
  | block hb _ ih =>
    rw [List.append_assoc]
    exact .block hb ih

theorem Segmented.of_prose (h : 123 ∉ s) : Segmented s [] := by
  induction s with
  | nil => exact .nil
  | cons c s ih =>
    rw [List.mem_cons, not_or] at h
    exact .prose (Ne.symm h.1) (ih h.2)

theorem Segmented.append {bs' : List Text} (h : Segmented s bs) (h' : Segmented t bs') :
    Segmented (s ++ t) (bs ++ bs') := by
  induction h with
  | nil => exact h'
  | prose hc _ ih => exact .prose hc ih
  | block ha _ ih =>
    rw [List.append_assoc]
    exact .block ha ih

theorem Segmented.braced (h : Segmented s bs) : ∀ b ∈ bs, ∃ a, b = Blocks.braced a := by
  induction h with
  | nil => simp
  | prose _ _ ih => exact ih
  | block _ _ ih =>
    intro b hb
    rcases List.mem_cons.mp hb with rfl | hb
    · exact ⟨_, rfl⟩
    · exact ih b hb

theorem Opened.append (h : Opened d s) (hb : Inside b) : Opened d (s ++ b) := by
  cases h with
  | one ha => exact .one (ha.append hb)
  | @more d s a hs ha =>
    rw [List.append_assoc, List.cons_append]
    exact .more hs (ha.append hb)

theorem Opened.pos (h : Opened d s) : 0 < d := by
  cases h <;> omega

theorem Opened.close (h : Opened d s) (hd : d ≠ 1) : Opened (d - 1) (s ++ [125]) := by
  cases h with
  | one => exact absurd rfl hd
  | @more d s a hs ha =>
    have hblock := hs.append (inside_braced ha)
    simpa [braced] using hblock

theorem Opened.closed (h : Opened 1 s) : ∃ a, s ++ [125] = braced a ∧ Inside a := by
  cases h with
  | @one a ha => exact ⟨a, rfl, ha⟩
  | @more d s a hs _ => exact absurd hs.pos (by simp)

/-! ### JSON -/

theorem isSpace_plain (h : Json.isSpace c = true) : c ≠ 34 ∧ c ≠ 123 ∧ c ≠ 125 := by
  refine ⟨?_, ?_, ?_⟩ <;> rintro rfl <;> cases h

theorem isWord_plain (h : Json.isWord c = true) : c ≠ 34 ∧ c ≠ 123 ∧ c ≠ 125 := by
  refine ⟨?_, ?_, ?_⟩ <;> rintro rfl <;> cases h

/-- White space, and what it stands before. -/
theorem inside_skip (s : Text) : ∃ w, s = w ++ Json.skip s ∧ Inside w := by
  refine ⟨s.takeWhile Json.isSpace, (List.takeWhile_append_dropWhile).symm, ?_⟩
  exact .of_plain fun c hc => isSpace_plain (List.mem_takeWhile_imp hc)

theorem begun_of_content (h : Content s t r) : ∃ w, s = w ++ 34 :: r ∧ Begun w false := by
  induction h with
  | close => exact ⟨[], rfl, .nil⟩
  | @unit s t r x y z v u hu _ ih =>
    obtain ⟨w, rfl, hw⟩ := ih
    have hdigits : ∀ c ∈ [x, y, z, v], c ≠ 92 ∧ c ≠ 34 := by
      unfold Json.hex4 at hu
      split at hu
      · next hx hy hz hv =>
        have hne : ∀ {c n : ℕ}, Json.hex c = some n → c ≠ 92 ∧ c ≠ 34 := by
          intro c n hc
          constructor <;> rintro rfl <;> cases hc
        simp [hne hx, hne hy, hne hz, hne hv]
      · cases hu
    simp only [List.mem_cons, List.not_mem_nil, or_false, forall_eq_or_imp, forall_eq] at hdigits
    obtain ⟨hx, hy, hz, hv⟩ := hdigits
    exact ⟨92 :: 117 :: x :: y :: z :: v :: w, rfl, ((((hw.plain_cons hv.1 hv.2).plain_cons
      hz.1 hz.2).plain_cons hy.1 hy.2).plain_cons hx.1 hx.2).escape_cons⟩
  | @escape s t r e u hu _ ih =>
    obtain ⟨w, rfl, hw⟩ := ih
    exact ⟨92 :: e :: w, rfl, hw.escape_cons⟩
  | @plain s t r c h34 h92 _ _ ih =>
    obtain ⟨w, rfl, hw⟩ := ih
    exact ⟨c :: w, rfl, hw.plain_cons h92 h34⟩

/-- What a part takes is balanced, up to its closing bracket. -/
def Taken (s r : Text) : Part → Prop
  | .value _ => ∃ w, s = w ++ r ∧ Inside w
  | .members _ => ∃ w, s = w ++ 125 :: r ∧ Inside w
  | .elements _ => ∃ w, s = w ++ 93 :: r ∧ Inside w

/-- White space before a token, and the token. -/
theorem inside_token (h : Json.skip s = c :: r) : ∃ w, s = w ++ c :: r ∧ Inside w := by
  obtain ⟨w, hw, hinside⟩ := inside_skip s
  exact ⟨w, h ▸ hw, hinside⟩

theorem taken_of_reads {p : Part} (h : Reads s p r) : Taken s r p := by
  induction h with
  | @emptyObject s s₁ r hs hr =>
    obtain ⟨w, hw, hwi⟩ := inside_token hs
    obtain ⟨x, rfl, hxi⟩ := inside_token hr
    exact ⟨w ++ braced x, by simp [hw, braced], hwi.append (inside_braced hxi)⟩
  | @emptyArray s s₁ r hs hr =>
    obtain ⟨w, hw, hwi⟩ := inside_token hs
    obtain ⟨x, rfl, hxi⟩ := inside_token hr
    exact ⟨w ++ 91 :: (x ++ [93]), by simp [hw], hwi.append (.plain (by decide) (by decide)
      (by decide) (hxi.append (.of_plain (by decide))))⟩
  | @object s s₁ r ms hs _ ih =>
    obtain ⟨w, hw, hwi⟩ := inside_token hs
    obtain ⟨x, hx, hxi⟩ := inside_skip s₁
    obtain ⟨y, hy, hyi⟩ := ih
    refine ⟨w ++ braced (x ++ y), ?_, hwi.append (inside_braced (hxi.append hyi))⟩
    rw [hw, hx, hy]
    simp [braced]
  | @array s s₁ r vs hs _ ih =>
    obtain ⟨w, hw, hwi⟩ := inside_token hs
    obtain ⟨x, hx, hxi⟩ := inside_skip s₁
    obtain ⟨y, hy, hyi⟩ := ih
    refine ⟨w ++ 91 :: (x ++ y ++ [93]), ?_, hwi.append (.plain (by decide) (by decide)
      (by decide) ((hxi.append hyi).append (.of_plain (by decide))))⟩
    rw [hw, hx, hy]
    simp
  | @string s s₁ t r hs ht =>
    obtain ⟨w, hw, hwi⟩ := inside_token hs
    obtain ⟨x, rfl, hx⟩ := begun_of_content ht
    exact ⟨w ++ 34 :: (x ++ [34]), by simp [hw], hwi.append (.quoted hx .nil)⟩
  | @plain s r v hv =>
    obtain ⟨w, hw, hwi⟩ := inside_skip s
    obtain ⟨x, hx, -, hwords⟩ := Json.plain_words hv
    exact ⟨w ++ x, by rw [List.append_assoc, ← hx]; exact hw,
      hwi.append (.of_plain fun c hc => isWord_plain (hwords c hc))⟩
  | @lastMember s k s₁ s₂ s₃ r v hk hcolon _ hclose ih =>
    obtain ⟨x, rfl, hx⟩ := begun_of_content hk
    obtain ⟨y, rfl, hy⟩ := inside_token hcolon
    obtain ⟨z, rfl, hz⟩ := ih
    obtain ⟨u, rfl, hu⟩ := inside_token hclose
    refine ⟨34 :: (x ++ 34 :: (y ++ 58 :: (z ++ u))), by simp, .quoted hx (hy.append ?_)⟩
    exact .plain (by decide) (by decide) (by decide) (hz.append hu)
  | @member s k s₁ s₂ s₃ s₄ r v ms hk hcolon _ hcomma _ ih ih' =>
    obtain ⟨x, rfl, hx⟩ := begun_of_content hk
    obtain ⟨y, rfl, hy⟩ := inside_token hcolon
    obtain ⟨z, rfl, hz⟩ := ih
    obtain ⟨u, rfl, hu⟩ := inside_token hcomma
    obtain ⟨g, hg, hgi⟩ := inside_skip s₄
    obtain ⟨m, hm, hmi⟩ := ih'
    refine ⟨34 :: (x ++ 34 :: (y ++ 58 :: (z ++ (u ++ 44 :: (g ++ m))))), ?_,
      .quoted hx (hy.append ?_)⟩
    · rw [hg, hm]
      simp
    · exact .plain (by decide) (by decide) (by decide) (hz.append (hu.append
        (.plain (by decide) (by decide) (by decide) (hgi.append hmi))))
  | @lastElement s s₁ r v _ hclose ih =>
    obtain ⟨z, rfl, hz⟩ := ih
    obtain ⟨u, rfl, hu⟩ := inside_token hclose
    exact ⟨z ++ u, by simp, hz.append hu⟩
  | @element s s₁ s₂ r v vs _ hcomma _ ih ih' =>
    obtain ⟨z, rfl, hz⟩ := ih
    obtain ⟨u, rfl, hu⟩ := inside_token hcomma
    obtain ⟨g, hg, hgi⟩ := inside_skip s₂
    obtain ⟨m, hm, hmi⟩ := ih'
    refine ⟨z ++ (u ++ 44 :: (g ++ m)), ?_, hz.append (hu.append
      (.plain (by decide) (by decide) (by decide) (hgi.append hmi)))⟩
    rw [hg, hm]
    simp

end ScalpingBot.Blocks
