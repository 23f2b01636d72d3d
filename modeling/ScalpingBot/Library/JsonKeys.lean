import ScalpingBot.Library.Dictionary
import ScalpingBot.Library.JsonGrammar

/-! The keys of JSON documents: documents that repeat a key, and the value that a document stands for,
    where the last of equal keys counts. -/

namespace ScalpingBot.Json

variable {s r t : Text} {v : Json}

/-- Some object, at whatever depth, has two members with one key. -/
inductive RepeatsKey : Json → Prop where
  | here {ms : List (Text × Json)} : ¬(ms.map Prod.fst).Nodup → RepeatsKey (.object ms)
  | member {ms : List (Text × Json)} {m : Text × Json} : m ∈ ms → RepeatsKey m.2 →
      RepeatsKey (.object ms)
  | element {vs : List Json} {v : Json} : v ∈ vs → RepeatsKey v → RepeatsKey (.array vs)

theorem repeatsKey_object {ms : List (Text × Json)} :
    RepeatsKey (.object ms) ↔ ¬(ms.map Prod.fst).Nodup ∨ ∃ m ∈ ms, RepeatsKey m.2 := by
  constructor
  · intro h
    cases h with
    | here h => exact .inl h
    | member hm h => exact .inr ⟨_, hm, h⟩
  · rintro (h | ⟨m, hm, h⟩)
    · exact .here h
    · exact .member hm h

theorem repeatsKey_array {vs : List Json} : RepeatsKey (.array vs) ↔ ∃ v ∈ vs, RepeatsKey v := by
  constructor
  · intro h
    cases h with
    | element hv h => exact ⟨_, hv, h⟩
  · rintro ⟨v, hv, h⟩
    exact .element hv h

theorem not_repeatsKey_string : ¬RepeatsKey (.string t) := by
  intro h
  cases h

theorem not_repeatsKey_plain (h : plain s = some (v, r)) : ¬RepeatsKey v := by
  have hkeyword : ∀ {w : Text} {v' : Json}, keyword w v' s = some (v, r) → ¬RepeatsKey v' →
      ¬RepeatsKey v := by
    intro w v' hk hno
    cases (keyword_eq_some.mp hk).1
    exact hno
  rcases (Option.orElse_eq_some _ _ _).mp h with h | ⟨-, h⟩
  · exact hkeyword h fun h => by cases h
  rcases (Option.orElse_eq_some _ _ _).mp h with h | ⟨-, h⟩
  · exact hkeyword h fun h => by cases h
  rcases (Option.orElse_eq_some _ _ _).mp h with h | ⟨-, h⟩
  · exact hkeyword h fun h => by cases h
  obtain ⟨⟨n, r'⟩, -, heq⟩ := Option.map_eq_some_iff.mp h
  cases heq
  exact fun h => by cases h

/-! ### The value of a document -/

mutual

/-- The value of `JSON.parse`: an object keeps each key once, with its last value. -/
def folded : Json → Json
  | .array vs => .array (foldedElements vs)
  | .object ms => .object (Dictionary.values Prod.fst (foldedMembers ms))
  | v => v

def foldedElements : List Json → List Json
  | [] => []
  | v :: vs => folded v :: foldedElements vs

def foldedMembers : List (Text × Json) → List (Text × Json)
  | [] => []
  | (k, v) :: ms => (k, folded v) :: foldedMembers ms

end

mutual

/-- A document that names no key twice is its own value. -/
theorem folded_eq : ∀ v, ¬RepeatsKey v → folded v = v
  | .null, _ => rfl
  | .bool _, _ => rfl
  | .number _, _ => rfl
  | .string _, _ => rfl
  | .array vs, h => by
    have hvs : ∀ v ∈ vs, ¬RepeatsKey v := fun v hv hrep => h (.element hv hrep)
    rw [folded, foldedElements_eq vs hvs]
  | .object ms, h => by
    have hms : ∀ m ∈ ms, ¬RepeatsKey m.2 := fun m hm hrep => h (.member hm hrep)
    have hnodup : (ms.map Prod.fst).Nodup := not_not.mp fun hrep => h (.here hrep)
    rw [folded, foldedMembers_eq ms hms, Dictionary.values_eq_self hnodup]

theorem foldedElements_eq : ∀ vs, (∀ v ∈ vs, ¬RepeatsKey v) → foldedElements vs = vs
  | [], _ => rfl
  | v :: vs, h => by
    rw [foldedElements, folded_eq v (h v List.mem_cons_self),
      foldedElements_eq vs fun x hx => h x (List.mem_cons_of_mem _ hx)]

theorem foldedMembers_eq : ∀ ms : List (Text × Json), (∀ m ∈ ms, ¬RepeatsKey m.2) →
    foldedMembers ms = ms
  | [], _ => rfl
  | (k, v) :: ms, h => by
    rw [foldedMembers, folded_eq v (h (k, v) List.mem_cons_self),
      foldedMembers_eq ms fun x hx => h x (List.mem_cons_of_mem _ hx)]

end

/-! ### The size of a text -/

def isLead (u : ℕ) : Bool := 0xD800 ≤ u && u ≤ 0xDBFF

def isTrail (u : ℕ) : Bool := 0xDC00 ≤ u && u ≤ 0xDFFF

/-- The bytes of a code unit in UTF-8. A lead has three of the four bytes of its pair, or the three of
    the character that replaces it. -/
def unitBytes (afterLead : Bool) (u : ℕ) : ℕ :=
  if u < 128 then 1 else if u < 2048 then 2 else if afterLead && isTrail u then 1 else 3

def bytesFrom : Bool → Text → ℕ
  | _, [] => 0
  | afterLead, u :: s => unitBytes afterLead u + bytesFrom (isLead u) s

/-- `Buffer.byteLength(raw, "utf8")`. -/
def byteLength (s : Text) : ℕ := bytesFrom false s

theorem unitBytes_le (afterLead : Bool) (u : ℕ) : unitBytes afterLead u ≤ unitBytes false u := by
  unfold unitBytes
  split_ifs <;> simp_all

theorem bytesFrom_append (s t : Text) (afterLead : Bool) :
    bytesFrom afterLead (s ++ t) ≤ bytesFrom afterLead s + byteLength t := by
  induction s generalizing afterLead with
  | nil =>
    cases t with
    | nil => simp [bytesFrom, byteLength]
    | cons u t =>
      have hle := unitBytes_le afterLead u
      simp only [List.nil_append, bytesFrom, byteLength]
      omega
  | cons u s ih =>
    have hle := ih (isLead u)
    simp only [List.cons_append, bytesFrom]
    omega

/-- A pair of code units that is cut counts more than the whole pair. -/
theorem byteLength_append (s t : Text) : byteLength (s ++ t) ≤ byteLength s + byteLength t :=
  bytesFrom_append s t false

end ScalpingBot.Json
