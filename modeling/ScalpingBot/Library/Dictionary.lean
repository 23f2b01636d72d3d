import Mathlib.Data.List.Induction
import Mathlib.Data.List.Nodup
import Mathlib.Data.List.Perm.Basic
import Mathlib.Tactic.Common

/-! Dictionaries built from a list of rows: a key stands where its first row stood and holds its last
    row. Rows that agree wherever their keys do leave a dictionary that depends on nothing but which
    rows there are. -/

namespace ScalpingBot.Dictionary

variable {α κ : Type*} [DecidableEq κ] (key : α → κ)

/-- The row takes the place of the one with its key, or comes last. -/
def put (row : α) : List α → List α
  | [] => [row]
  | other :: rest => if key other = key row then row :: rest else other :: put row rest

/-- The values of the dictionary that a list of rows fills. -/
def values (rows : List α) : List α :=
  rows.foldl (fun held row => put key row held) []

/-- Rows with the same key are the same row. -/
def Consistent (rows : List α) : Prop :=
  ∀ a ∈ rows, ∀ b ∈ rows, key a = key b → a = b

variable {key} {row a : α} {held rows : List α}

theorem mem_put_self : row ∈ put key row held := by
  induction held with
  | nil => exact List.mem_singleton_self row
  | cons other rest ih =>
    rw [put]
    split
    · exact List.mem_cons_self
    · exact List.mem_cons_of_mem _ ih

theorem mem_of_mem_put (h : a ∈ put key row held) : a = row ∨ a ∈ held := by
  induction held with
  | nil => exact .inl (List.mem_singleton.mp h)
  | cons other rest ih =>
    rw [put] at h
    split at h
    · rcases List.mem_cons.mp h with rfl | h
      · exact .inl rfl
      · exact .inr (List.mem_cons_of_mem _ h)
    · rcases List.mem_cons.mp h with rfl | h
      · exact .inr List.mem_cons_self
      · rcases ih h with rfl | h
        · exact .inl rfl
        · exact .inr (List.mem_cons_of_mem _ h)

theorem mem_put_of_ne (h : a ∈ held) (hne : key a ≠ key row) : a ∈ put key row held := by
  induction held with
  | nil => exact absurd h List.not_mem_nil
  | cons other rest ih =>
    rw [put]
    split
    · rename_i hkey
      rcases List.mem_cons.mp h with rfl | h
      · exact absurd hkey hne
      · exact List.mem_cons_of_mem _ h
    · rcases List.mem_cons.mp h with rfl | h
      · exact List.mem_cons_self
      · exact List.mem_cons_of_mem _ (ih h)

theorem put_eq_append (h : key row ∉ held.map key) : put key row held = held ++ [row] := by
  induction held with
  | nil => rfl
  | cons other rest ih =>
    rw [List.map_cons, List.mem_cons, not_or] at h
    rw [put, if_neg (Ne.symm h.1), ih h.2, List.cons_append]

theorem map_put_of_mem (h : key row ∈ held.map key) : (put key row held).map key = held.map key := by
  induction held with
  | nil => exact absurd h List.not_mem_nil
  | cons other rest ih =>
    rw [put]
    split
    · rename_i hkey
      rw [List.map_cons, List.map_cons, hkey]
    · rename_i hkey
      rw [List.map_cons, List.mem_cons] at h
      rw [List.map_cons, List.map_cons, ih (h.resolve_left (Ne.symm hkey))]

theorem nodup_put (h : (held.map key).Nodup) : ((put key row held).map key).Nodup := by
  by_cases hmem : key row ∈ held.map key
  · rwa [map_put_of_mem hmem]
  · rw [put_eq_append hmem, List.map_append, List.map_singleton]
    exact List.nodup_append'.mpr ⟨h, List.nodup_singleton _,
      fun k hk hrow => hmem (List.mem_singleton.mp hrow ▸ hk)⟩

theorem values_append : values key (rows ++ [row]) = put key row (values key rows) := by
  rw [values, List.foldl_append]
  rfl

/-! ### What a dictionary holds -/

/-- No key stands twice in a dictionary. -/
theorem nodup_values : ((values key rows).map key).Nodup := by
  induction rows using List.reverseRecOn with
  | nil => exact List.nodup_nil
  | append_singleton rows row ih =>
    rw [values_append]
    exact nodup_put ih

theorem mem_of_mem_values (h : a ∈ values key rows) : a ∈ rows := by
  induction rows using List.reverseRecOn with
  | nil => exact h
  | append_singleton rows row ih =>
    rw [values_append] at h
    rcases mem_of_mem_put h with rfl | h
    · exact List.mem_append_right _ (List.mem_singleton_self a)
    · exact List.mem_append_left _ (ih h)

theorem mem_keys_put {k : κ} : k ∈ (put key row held).map key ↔ k = key row ∨ k ∈ held.map key := by
  induction held with
  | nil => simp [put]
  | cons other rest ih =>
    rw [put]
    split
    · next hkey => simp [hkey]
    · simp only [List.map_cons, List.mem_cons, ih]
      tauto

theorem mem_keys_values {k : κ} : k ∈ (values key rows).map key ↔ k ∈ rows.map key := by
  induction rows using List.reverseRecOn with
  | nil => exact Iff.rfl
  | append_singleton rows row ih =>
    rw [values_append, mem_keys_put, ih]
    simp [or_comm]

theorem values_eq_self (h : (rows.map key).Nodup) : values key rows = rows := by
  induction rows using List.reverseRecOn with
  | nil => rfl
  | append_singleton rows row ih =>
    rw [List.map_append, List.nodup_append'] at h
    rw [values_append, ih h.1, put_eq_append]
    exact fun hmem => h.2.2 hmem (List.mem_singleton_self _)

theorem length_put_le : (put key row held).length ≤ held.length + 1 := by
  induction held with
  | nil => exact Nat.le_refl _
  | cons other rest ih =>
    rw [put]
    split
    · exact Nat.le_succ _
    · exact Nat.succ_le_succ ih

theorem length_put_of_mem (h : key row ∈ held.map key) : (put key row held).length = held.length := by
  have hlength := congrArg List.length (map_put_of_mem h)
  rwa [List.length_map, List.length_map] at hlength

theorem length_values_le : (values key rows).length ≤ rows.length := by
  induction rows using List.reverseRecOn with
  | nil => exact Nat.le_refl _
  | append_singleton rows row ih =>
    rw [values_append, List.length_append]
    exact Nat.le_trans length_put_le (Nat.succ_le_succ ih)

/-- A dictionary as long as its rows took each of them. -/
theorem nodup_of_length (h : (values key rows).length = rows.length) : (rows.map key).Nodup := by
  induction rows using List.reverseRecOn with
  | nil => exact List.nodup_nil
  | append_singleton rows row ih =>
    rw [values_append, List.length_append, List.length_singleton] at h
    have hle : (values key rows).length ≤ rows.length := length_values_le
    by_cases hmem : key row ∈ (values key rows).map key
    · rw [length_put_of_mem hmem] at h
      omega
    · have hput : (put key row (values key rows)).length ≤ (values key rows).length + 1 := length_put_le
      have hrows := ih (Nat.le_antisymm hle (by omega))
      rw [values_eq_self hrows] at hmem
      rw [List.map_append, List.nodup_append']
      exact ⟨hrows, List.nodup_singleton _, fun k hk hrow => hmem (List.mem_singleton.mp hrow ▸ hk)⟩

/-- A dictionary of a part of the rows, as long as all of them, holds all of them. -/
theorem values_filter_of_length {p : α → Bool}
    (h : (values key (rows.filter p)).length = rows.length) :
    (∀ a ∈ rows, p a) ∧ (rows.map key).Nodup := by
  have hfilter : (rows.filter p).length = rows.length :=
    Nat.le_antisymm (List.length_filter_le p rows) (h ▸ length_values_le)
  have hall := List.length_filter_eq_length_iff.mp hfilter
  refine ⟨hall, ?_⟩
  rw [List.filter_eq_self.mpr hall] at h
  exact nodup_of_length h

/-! ### Looking a key up -/

variable (key) in
/-- The row of a key. -/
def lookup (k : κ) (rows : List α) : Option α := rows.find? fun row => key row = k

theorem lookup_put_self : lookup key (key row) (put key row held) = some row := by
  induction held with
  | nil => simp [lookup, put]
  | cons other rest ih =>
    rw [put]
    split
    · simp [lookup]
    · rename_i hne
      rw [lookup, List.find?_cons_of_neg (by simpa using hne)]
      exact ih

theorem lookup_put_of_ne {k : κ} (h : key row ≠ k) :
    lookup key k (put key row held) = lookup key k held := by
  induction held with
  | nil => simp [lookup, put, h]
  | cons other rest ih =>
    rw [put]
    split
    · rename_i hkey
      have hother : key other ≠ k := hkey ▸ h
      simp [lookup, h, hother]
    · rw [lookup, lookup, List.find?_cons, List.find?_cons]
      split
      · rfl
      · exact ih

theorem lookup_filter_self {k : κ} : lookup key k (held.filter fun row => key row ≠ k) = none := by
  simp [lookup]

theorem lookup_filter_of_ne {k other : κ} (h : other ≠ k) :
    lookup key k (held.filter fun row => key row ≠ other) = lookup key k held := by
  induction held with
  | nil => rfl
  | cons row rest ih =>
    by_cases hrow : key row = other
    · rw [List.filter_cons_of_neg (by simpa using hrow), ih]
      have hne : key row ≠ k := hrow ▸ h
      simp [lookup, hne]
    · rw [List.filter_cons_of_pos (by simpa using hrow), lookup, lookup, List.find?_cons,
        List.find?_cons]
      split
      · rfl
      · exact ih

theorem lookup_isSome {k : κ} : (lookup key k held).isSome ↔ k ∈ held.map key := by
  simp [lookup]

/-- A key that stands once in the rows leaves with one row. -/
theorem length_filter_ne {k : κ} (h : (held.map key).Nodup) :
    (held.filter fun row => key row ≠ k).length + (if k ∈ held.map key then 1 else 0) =
      held.length := by
  induction held with
  | nil => rfl
  | cons row rest ih =>
    rw [List.map_cons, List.nodup_cons] at h
    have ih := ih h.2
    by_cases hrow : key row = k
    · subst hrow
      rw [if_neg h.1] at ih
      rw [List.filter_cons_of_neg (by simp), List.map_cons,
        if_pos List.mem_cons_self, List.length_cons]
      omega
    · have hmem : k ∈ (row :: rest).map key ↔ k ∈ rest.map key := by
        simp [Ne.symm hrow]
      rw [List.filter_cons_of_pos (by simpa using hrow), List.length_cons, List.length_cons]
      simp only [hmem]
      omega

theorem length_put_of_not_mem (h : key row ∉ held.map key) :
    (put key row held).length = held.length + 1 := by
  rw [put_eq_append h, List.length_append, List.length_singleton]

/-! ### Rows that agree where their keys do -/

omit [DecidableEq κ] in
theorem consistent_of_nodup (h : (rows.map key).Nodup) : Consistent key rows :=
  fun _ ha _ hb hkey => List.inj_on_of_nodup_map h ha hb hkey

omit [DecidableEq κ] in
theorem consistent_append : Consistent key (rows ++ [row]) ↔
    Consistent key rows ∧ ∀ a ∈ rows, key a = key row → a = row := by
  constructor
  · intro h
    exact ⟨fun a ha b hb => h a (List.mem_append_left _ ha) b (List.mem_append_left _ hb),
      fun a ha => h a (List.mem_append_left _ ha) row (List.mem_append_right _ (List.mem_singleton_self row))⟩
  · rintro ⟨hrows, hrow⟩ a ha b hb hkey
    rw [List.mem_append, List.mem_singleton] at ha hb
    rcases ha with ha | rfl <;> rcases hb with hb | rfl
    · exact hrows a ha b hb hkey
    · exact hrow a ha hkey
    · exact (hrow b hb hkey.symm).symm
    · rfl

theorem mem_values (h : Consistent key rows) : a ∈ values key rows ↔ a ∈ rows := by
  refine ⟨mem_of_mem_values, fun ha => ?_⟩
  induction rows using List.reverseRecOn with
  | nil => exact ha
  | append_singleton rows row ih =>
    rw [values_append]
    by_cases hkey : key a = key row
    · have hrow : row ∈ rows ++ [row] := List.mem_append_right _ (List.mem_singleton_self row)
      rw [h a ha row hrow hkey]
      exact mem_put_self
    · have hold : a ∈ rows := by
        rcases List.mem_append.mp ha with ha | ha
        · exact ha
        · exact absurd (congrArg key (List.mem_singleton.mp ha)) hkey
      exact mem_put_of_ne (ih (consistent_append.mp h).1 hold) hkey

/-- The same rows in any order and number fill the same dictionary, up to the order of its keys. -/
theorem values_perm {others : List α} (h : Consistent key rows) (hmem : ∀ a, a ∈ others ↔ a ∈ rows) :
    (values key others).Perm (values key rows) := by
  have hothers : Consistent key others :=
    fun a ha b hb => h a ((hmem a).mp ha) b ((hmem b).mp hb)
  refine (List.perm_ext_iff_of_nodup (List.Nodup.of_map key nodup_values)
    (List.Nodup.of_map key nodup_values)).mpr fun a => ?_
  rw [mem_values hothers, mem_values h, hmem]

end ScalpingBot.Dictionary
