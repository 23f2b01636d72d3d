import Mathlib.Data.Option.Basic
import ScalpingBot.Library.Json

/-! The grammar of JSON texts as relations, and that the reader decides them: what it reads has a
    derivation, and every derivation is found with fuel that the length of the text bounds. -/

namespace ScalpingBot.Json

variable {s r t : Text} {v : Json} {c n : ℕ}

/-! ### White space and tokens -/

theorem skip_suffix (s : Text) : skip s <:+ s := List.dropWhile_suffix _

theorem skip_cons (h : isSpace c = false) : skip (c :: s) = c :: s := by
  simp [skip, h]

theorem not_isSpace_of_skip (h : skip s = c :: r) : isSpace c = false := by
  induction s with
  | nil => cases h
  | cons d s ih =>
    rw [skip, List.dropWhile_cons] at h
    split at h
    · exact ih h
    · next hd =>
      cases h
      simpa using hd

theorem skip_skip (s : Text) : skip (skip s) = skip s := by
  cases h : skip s with
  | nil => rfl
  | cons c r => rw [skip_cons (not_isSpace_of_skip h)]

theorem length_of_skip (h : skip s = c :: r) : r.length < s.length := by
  have hle := (skip_suffix s).length_le
  rw [h, List.length_cons] at hle
  omega

/-- A string after its opening quote. -/
inductive Content : Text → Text → Text → Prop where
  | close {s : Text} : Content (34 :: s) [] s
  | unit {s t r : Text} {a b d e u : ℕ} : hex4 a b d e = some u → Content s t r →
      Content (92 :: 117 :: a :: b :: d :: e :: s) (u :: t) r
  | escape {s t r : Text} {e u : ℕ} : unescape e = some u → Content s t r →
      Content (92 :: e :: s) (u :: t) r
  | plain {s t r : Text} {c : ℕ} : c ≠ 34 → c ≠ 92 → 32 ≤ c → Content s t r →
      Content (c :: s) (c :: t) r

theorem Content.length (h : Content s t r) : r.length < s.length := by
  induction h with
  | close => simp
  | unit _ _ ih =>
    simp only [List.length_cons]
    omega
  | escape _ _ ih =>
    simp only [List.length_cons]
    omega
  | plain _ _ _ _ ih =>
    simp only [List.length_cons]
    omega

theorem content_of_some (h : content s = some (t, r)) : Content s t r := by
  fun_induction content s generalizing t r with
  | case2 s =>
    cases h
    exact .close
  | case4 a b d e s u t' r' hc hu _ ih =>
    cases h
    exact .unit hu (ih hc)
  | case6 e s _ u t' r' hc hu _ ih =>
    cases h
    exact .escape hu (ih hc)
  | case9 c s h34 h92 h32 t' r' hc ih =>
    cases h
    exact .plain h34 h92 (Nat.le_of_not_lt h32) (ih hc)
  | _ => cases h

theorem Content.read (h : Content s t r) : content s = some (t, r) := by
  induction h with
  | close =>
    rw [content.eq_def]
    simp
  | unit hu _ ih =>
    rw [content.eq_def]
    simp [hu, ih]
  | @escape s t r e u hu _ ih =>
    have he : e ≠ 117 := by
      rintro rfl
      cases hu
    rw [content.eq_def]
    simp only [Nat.reduceEqDiff, if_false, if_true]
    split
    · next heq => cases heq
    · next heq => exact absurd (List.cons.inj heq).1 he
    · next heq =>
      cases heq
      simp [hu, ih]
  | @plain s t r c h34 h92 h32 _ ih =>
    rw [content.eq_def]
    simp [h34, h92, Nat.not_lt.mpr h32, ih]

/-- A string is read the same whatever follows its closing quote. -/
theorem Content.append (h : Content s t r) :
    ∃ w, s = w ++ r ∧ ∀ r', Content (w ++ r') t r' := by
  induction h with
  | @close s => exact ⟨[34], rfl, fun _ => .close⟩
  | @unit s t r a b d e u hu _ ih =>
    obtain ⟨w, rfl, hw⟩ := ih
    exact ⟨92 :: 117 :: a :: b :: d :: e :: w, rfl, fun r' => .unit hu (hw r')⟩
  | @escape s t r e u hu _ ih =>
    obtain ⟨w, rfl, hw⟩ := ih
    exact ⟨92 :: e :: w, rfl, fun r' => .escape hu (hw r')⟩
  | @plain s t r c h34 h92 h32 _ ih =>
    obtain ⟨w, rfl, hw⟩ := ih
    exact ⟨c :: w, rfl, fun r' => .plain h34 h92 h32 (hw r')⟩

theorem keyword_eq_some {w : Text} {x : Json × Text} :
    keyword w v s = some x ↔ x.1 = v ∧ s = w ++ x.2 := by
  rcases x with ⟨v', r⟩
  unfold keyword
  constructor
  · intro h
    split at h
    · next hw =>
      obtain ⟨r', rfl⟩ := hw
      simp only [List.drop_left, Option.some.injEq, Prod.mk.injEq] at h
      exact ⟨h.1.symm, by rw [h.2]⟩
    · cases h
  · rintro ⟨rfl, rfl⟩
    simp

theorem readNumber_eq_some {n : Number} :
    readNumber s = some (n, r) ↔ (Reading.start.run s).1.ends = true ∧
      (Reading.start.run s).2.1 = n.literal ∧ (Reading.start.run s).2.2 = r := by
  unfold readNumber
  constructor
  · intro h
    split at h
    · next hends =>
      simp only [Option.some.injEq, Prod.mk.injEq] at h
      exact ⟨hends, by rw [← h.1], h.2⟩
    · cases h
  · rintro ⟨hends, hlit, rfl⟩
    rw [dif_pos hends]
    simp only [Option.some.injEq, Prod.mk.injEq, and_true]
    exact Number.ext hlit

theorem readNumber_self (n : Number) (h : ∀ c ∈ r.head?, isWord c = false) :
    readNumber (n.literal ++ r) = some (n, r) := by
  have hrun := Reading.run_append (r := r) Reading.start n.literal fun c hc => by
    cases hnext : (Reading.start.run n.literal).1.next c with
    | none => rfl
    | some q => exact absurd (Reading.isWord_of_next hnext) (by simp [h c hc])
  rw [n.whole] at hrun
  exact readNumber_eq_some.mpr (by rw [hrun]; exact ⟨n.ends, rfl, rfl⟩)

theorem Number.literal_ne_nil (n : Number) : n.literal ≠ [] := by
  intro h
  have hends := n.ends
  rw [h] at hends
  cases hends

theorem Number.words (n : Number) : ∀ c ∈ n.literal, isWord c = true := by
  have hwords := Reading.isWord_run .start n.literal
  rwa [n.whole] at hwords

/-- The tokens without quotes and brackets are words. -/
theorem plain_words (h : plain s = some (v, r)) :
    ∃ w, s = w ++ r ∧ w ≠ [] ∧ ∀ c ∈ w, isWord c = true := by
  have hkeyword : ∀ {w : Text} {v' : Json}, keyword w v' s = some (v, r) → w ≠ [] →
      (∀ c ∈ w, isWord c = true) → ∃ w, s = w ++ r ∧ w ≠ [] ∧ ∀ c ∈ w, isWord c = true :=
    fun hk hne hw => ⟨_, (keyword_eq_some.mp hk).2, hne, hw⟩
  rcases (Option.orElse_eq_some _ _ _).mp h with h | ⟨-, h⟩
  · exact hkeyword h (by decide) (by decide)
  rcases (Option.orElse_eq_some _ _ _).mp h with h | ⟨-, h⟩
  · exact hkeyword h (by decide) (by decide)
  rcases (Option.orElse_eq_some _ _ _).mp h with h | ⟨-, h⟩
  · exact hkeyword h (by decide) (by decide)
  obtain ⟨⟨n, r'⟩, hn, hv⟩ := Option.map_eq_some_iff.mp h
  cases hv
  obtain ⟨-, hlit, hr⟩ := readNumber_eq_some.mp hn
  refine ⟨n.literal, ?_, n.literal_ne_nil, n.words⟩
  rw [← hlit, ← hr, Reading.append_run]

/-! ### Trees -/

/-- What a stretch of text is read as. -/
inductive Part where
  | value (v : Json)
  | members (ms : List (Text × Json))
  | elements (vs : List Json)

/-- A stretch of text denotes a part, and what follows it. Members start at a key and end with the
    closing brace, elements start at a value and end with the closing bracket. -/
inductive Reads : Text → Part → Text → Prop where
  | emptyObject {s s₁ r : Text} : skip s = 123 :: s₁ → skip s₁ = 125 :: r →
      Reads s (.value (.object [])) r
  | object {s s₁ r : Text} {ms : List (Text × Json)} : skip s = 123 :: s₁ →
      Reads (skip s₁) (.members ms) r → Reads s (.value (.object ms)) r
  | emptyArray {s s₁ r : Text} : skip s = 91 :: s₁ → skip s₁ = 93 :: r →
      Reads s (.value (.array [])) r
  | array {s s₁ r : Text} {vs : List Json} : skip s = 91 :: s₁ →
      Reads (skip s₁) (.elements vs) r → Reads s (.value (.array vs)) r
  | string {s s₁ t r : Text} : skip s = 34 :: s₁ → Content s₁ t r → Reads s (.value (.string t)) r
  | plain {s r : Text} {v : Json} : plain (skip s) = some (v, r) → Reads s (.value v) r
  | lastMember {s k s₁ s₂ s₃ r : Text} {v : Json} : Content s k s₁ → skip s₁ = 58 :: s₂ →
      Reads s₂ (.value v) s₃ → skip s₃ = 125 :: r → Reads (34 :: s) (.members [(k, v)]) r
  | member {s k s₁ s₂ s₃ s₄ r : Text} {v : Json} {ms : List (Text × Json)} : Content s k s₁ →
      skip s₁ = 58 :: s₂ → Reads s₂ (.value v) s₃ → skip s₃ = 44 :: s₄ →
      Reads (skip s₄) (.members ms) r → Reads (34 :: s) (.members ((k, v) :: ms)) r
  | lastElement {s s₁ r : Text} {v : Json} : Reads s (.value v) s₁ → skip s₁ = 93 :: r →
      Reads s (.elements [v]) r
  | element {s s₁ s₂ r : Text} {v : Json} {vs : List Json} : Reads s (.value v) s₁ →
      skip s₁ = 44 :: s₂ → Reads (skip s₂) (.elements vs) r → Reads s (.elements (v :: vs)) r

/-- Whatever the reader takes has a derivation. -/
theorem reads_of_reader (n : ℕ) : ∀ s : Text,
    (∀ v r, value n s = some (v, r) → Reads s (.value v) r) ∧
    (∀ ms r, members n s = some (ms, r) → Reads s (.members ms) r) ∧
    (∀ vs r, elements n s = some (vs, r) → Reads s (.elements vs) r) := by
  induction n with
  | zero => exact fun s => ⟨fun _ _ h => by simp [value] at h, fun _ _ h => by simp [members] at h,
      fun _ _ h => by simp [elements] at h⟩
  | succ n ih =>
    refine fun s => ⟨?_, ?_, ?_⟩
    · intro v r h
      rw [value] at h
      split at h
      · cases h
      next c s₁ hskip =>
      split_ifs at h with h123 hclose h91 hclose' h34
      · cases h
        subst h123
        exact .emptyObject hskip (List.cons_head?_tail hclose).symm
      · obtain ⟨⟨ms, r'⟩, hms, heq⟩ := Option.map_eq_some_iff.mp h
        cases heq
        subst h123
        exact .object hskip ((ih _).2.1 _ _ hms)
      · cases h
        subst h91
        exact .emptyArray hskip (List.cons_head?_tail hclose').symm
      · obtain ⟨⟨vs, r'⟩, hvs, heq⟩ := Option.map_eq_some_iff.mp h
        cases heq
        subst h91
        exact .array hskip ((ih _).2.2 _ _ hvs)
      · obtain ⟨⟨t, r'⟩, ht, heq⟩ := Option.map_eq_some_iff.mp h
        cases heq
        subst h34
        exact .string hskip (content_of_some ht)
      · exact .plain (hskip ▸ h)
    · intro ms r h
      unfold members at h
      split at h
      · next _ n' s hn =>
        cases hn
        split at h
        · cases h
        next k s₁ hk =>
        split at h
        · next s₂ hcolon =>
          split at h
          · cases h
          next v s₃ hv =>
          split at h
          · next s₄ hcomma =>
            obtain ⟨⟨ms', r'⟩, hms, heq⟩ := Option.map_eq_some_iff.mp h
            cases heq
            exact .member (content_of_some hk) hcolon ((ih _).1 _ _ hv) hcomma
              ((ih _).2.1 _ _ hms)
          · next s₄ hclose =>
            cases h
            exact .lastMember (content_of_some hk) hcolon ((ih _).1 _ _ hv) hclose
          · cases h
        · cases h
      · cases h
    · intro vs r h
      rw [elements] at h
      split at h
      · cases h
      next v s₁ hv =>
      split at h
      · next s₂ hcomma =>
        obtain ⟨⟨vs', r'⟩, hvs, heq⟩ := Option.map_eq_some_iff.mp h
        cases heq
        exact .element ((ih _).1 _ _ hv) hcomma ((ih _).2.2 _ _ hvs)
      · next s₂ hclose =>
        cases h
        exact .lastElement ((ih _).1 _ _ hv) hclose
      · cases h

/-- What a plain token starts with. -/
theorem plain_head (h : plain s = some (v, r)) : ∃ c t, s = c :: t ∧ isWord c = true := by
  obtain ⟨w, rfl, hne, hw⟩ := plain_words h
  obtain ⟨c, w, rfl⟩ := List.exists_cons_of_ne_nil hne
  exact ⟨c, w ++ r, rfl, hw c List.mem_cons_self⟩

theorem Reads.length {p : Part} (h : Reads s p r) : r.length < s.length := by
  induction h with
  | emptyObject hs hr | emptyArray hs hr => exact (length_of_skip hr).trans (length_of_skip hs)
  | @object s s₁ _ _ hs _ ih | @array s s₁ _ _ hs _ ih =>
    have hle := (skip_suffix s₁).length_le
    have hlt := length_of_skip hs
    omega
  | string hs ht => exact ht.length.trans (length_of_skip hs)
  | @plain s r v hv =>
    obtain ⟨w, hw, hne, -⟩ := plain_words hv
    have hle := (skip_suffix s).length_le
    have hpos := List.length_pos_iff.mpr hne
    rw [hw, List.length_append] at hle
    omega
  | lastMember hk hcolon _ hclose ih =>
    have h₁ := hk.length
    have h₂ := length_of_skip hcolon
    have h₃ := length_of_skip hclose
    rw [List.length_cons]
    omega
  | @member _ _ _ _ _ s₄ _ _ _ hk hcolon _ hcomma _ ih ih' =>
    have h₁ := hk.length
    have h₂ := length_of_skip hcolon
    have h₃ := length_of_skip hcomma
    have h₄ := (skip_suffix s₄).length_le
    rw [List.length_cons]
    omega
  | lastElement _ hclose ih => exact (length_of_skip hclose).trans ih
  | @element _ _ s₂ _ _ _ _ hcomma _ ih ih' =>
    have h₁ := length_of_skip hcomma
    have h₂ := (skip_suffix s₂).length_le
    omega

/-- What a value starts with. -/
theorem Reads.opens (h : Reads s (.value v) r) :
    ∃ c t, skip s = c :: t ∧ (c = 123 ∨ c = 91 ∨ c = 34 ∨ isWord c = true) := by
  cases h with
  | emptyObject hs _ | object hs _ => exact ⟨_, _, hs, .inl rfl⟩
  | emptyArray hs _ | array hs _ => exact ⟨_, _, hs, .inr (.inl rfl)⟩
  | string hs _ => exact ⟨_, _, hs, .inr (.inr (.inl rfl))⟩
  | plain hv =>
    obtain ⟨c, t, ht, hc⟩ := plain_head hv
    exact ⟨c, t, ht, .inr (.inr (.inr hc))⟩

theorem Reads.opens_elements {vs : List Json} (h : Reads s (.elements vs) r) :
    ∃ c t, skip s = c :: t ∧ (c = 123 ∨ c = 91 ∨ c = 34 ∨ isWord c = true) := by
  cases h with
  | lastElement hv _ | element hv _ _ => exact hv.opens

theorem Reads.opens_members {ms : List (Text × Json)} (h : Reads s (.members ms) r) :
    ∃ t, s = 34 :: t := by
  cases h with
  | lastMember _ _ _ _ | member _ _ _ _ _ => exact ⟨_, rfl⟩

/-- The reader finds the part with fuel for the length of the text. -/
def Part.Found (s r : Text) : Part → Prop
  | .value v => ∀ n, 2 * s.length + 1 ≤ n → Json.value n s = some (v, r)
  | .members ms => ∀ n, 2 * s.length + 2 ≤ n → Json.members n s = some (ms, r)
  | .elements vs => ∀ n, 2 * s.length + 2 ≤ n → Json.elements n s = some (vs, r)

theorem Reads.found {p : Part} (h : Reads s p r) : p.Found s r := by
  induction h with
  | emptyObject hs hr | emptyArray hs hr =>
    intro n hn
    obtain ⟨n, rfl⟩ : ∃ m, n = m + 1 := ⟨n - 1, by omega⟩
    simp [value, hs, hr]
  | @object s s₁ r ms hs hms ih =>
    intro n hn
    obtain ⟨n, rfl⟩ : ∃ m, n = m + 1 := ⟨n - 1, by omega⟩
    obtain ⟨t, ht⟩ := hms.opens_members
    have hle := (skip_suffix s₁).length_le
    have hlt := length_of_skip hs
    have hmembers := ih n (by omega)
    rw [ht] at hmembers
    simp [value, hs, ht, hmembers]
  | @array s s₁ r vs hs hvs ih =>
    intro n hn
    obtain ⟨n, rfl⟩ : ∃ m, n = m + 1 := ⟨n - 1, by omega⟩
    obtain ⟨c, t, ht, hc⟩ := hvs.opens_elements
    rw [skip_skip] at ht
    have hne : c ≠ 93 := by
      rintro rfl
      revert hc
      decide
    have hle := (skip_suffix s₁).length_le
    have hlt := length_of_skip hs
    have helements := ih n (by omega)
    rw [ht] at helements
    simp [value, hs, ht, hne, helements]
  | string hs ht =>
    intro n hn
    obtain ⟨n, rfl⟩ : ∃ m, n = m + 1 := ⟨n - 1, by omega⟩
    simp [value, hs, ht.read]
  | plain hv =>
    intro n hn
    obtain ⟨n, rfl⟩ : ∃ m, n = m + 1 := ⟨n - 1, by omega⟩
    obtain ⟨c, t, ht, hc⟩ := plain_head hv
    have h123 : c ≠ 123 := by
      rintro rfl
      cases hc
    have h91 : c ≠ 91 := by
      rintro rfl
      cases hc
    have h34 : c ≠ 34 := by
      rintro rfl
      cases hc
    rw [ht] at hv
    simp [value, ht, h123, h91, h34, hv]
  | lastMember hk hcolon hv hclose ih =>
    intro n hn
    obtain ⟨n, rfl⟩ : ∃ m, n = m + 1 := ⟨n - 1, by omega⟩
    have h₁ := hk.length
    have h₂ := length_of_skip hcolon
    rw [List.length_cons] at hn
    simp [members, hk.read, hcolon, ih n (by omega), hclose]
  | @member _ _ _ _ _ s₄ _ _ _ hk hcolon hv hcomma hms ih ih' =>
    intro n hn
    obtain ⟨n, rfl⟩ : ∃ m, n = m + 1 := ⟨n - 1, by omega⟩
    have h₁ := hk.length
    have h₂ := length_of_skip hcolon
    have h₃ := hv.length
    have h₄ := length_of_skip hcomma
    have h₅ := (skip_suffix s₄).length_le
    rw [List.length_cons] at hn
    simp [members, hk.read, hcolon, ih n (by omega), hcomma, ih' n (by omega)]
  | lastElement hv hclose ih =>
    intro n hn
    obtain ⟨n, rfl⟩ : ∃ m, n = m + 1 := ⟨n - 1, by omega⟩
    simp [elements, ih n (by omega), hclose]
  | @element _ _ s₂ _ _ _ hv hcomma hvs ih ih' =>
    intro n hn
    obtain ⟨n, rfl⟩ : ∃ m, n = m + 1 := ⟨n - 1, by omega⟩
    have h₁ := hv.length
    have h₂ := length_of_skip hcomma
    have h₃ := (skip_suffix s₂).length_le
    simp [elements, ih n (by omega), hcomma, ih' n (by omega)]

/-- The reader accepts exactly the texts of the grammar. -/
theorem parse_eq_some : parse s = some v ↔ ∃ r, Reads s (.value v) r ∧ skip r = [] := by
  unfold parse
  constructor
  · intro h
    split at h
    · next v' r hv =>
      split_ifs at h with hr
      cases h
      exact ⟨r, (reads_of_reader _ s).1 _ _ hv, hr⟩
    · cases h
  · rintro ⟨r, hv, hr⟩
    rw [hv.found _ le_rfl]
    simp [hr]

end ScalpingBot.Json
