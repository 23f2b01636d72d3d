import Mathlib.Data.List.DropRight
import Mathlib.Data.List.Sort
import Mathlib.Tactic.Ring

/-! The latest elements of a list in the order of time, and what a map that holds two such windows
    gives back when it is sorted. -/

namespace ScalpingBot.Window

variable {α β κ : Type*}

/-! ### The latest elements -/

theorem length_rtake (l : List α) (n : ℕ) : (l.rtake n).length = min n l.length := by
  rw [List.rtake, List.length_drop]
  omega

theorem rtake_append (a b : List α) (n : ℕ) :
    (a ++ b).rtake n = a.rtake (n - b.length) ++ b.rtake n := by
  have hb : a.length + b.length - n - a.length = b.length - n := by omega
  have ha : a.drop (a.length + b.length - n) = a.drop (a.length - (n - b.length)) := by
    rcases le_total n b.length with h | h
    · rw [List.drop_of_length_le (by omega), List.drop_of_length_le (by omega)]
    · congr 1
      omega
  rw [List.rtake, List.length_append, List.drop_append, hb, ha]
  rfl

theorem rtake_of_length_le {l : List α} {n : ℕ} (h : l.length ≤ n) : l.rtake n = l := by
  rw [List.rtake, Nat.sub_eq_zero_of_le h, List.drop_zero]

theorem append_rtake (l : List α) (n : ℕ) : l.take (l.length - n) ++ l.rtake n = l :=
  List.take_append_drop _ l

theorem rtake_subset (l : List α) {m n : ℕ} (h : m ≤ n) : l.rtake m ⊆ l.rtake n :=
  List.drop_subset_drop_left l (by omega)

theorem map_rtake (f : α → β) (l : List α) (n : ℕ) : (l.map f).rtake n = (l.rtake n).map f := by
  rw [List.rtake, List.rtake, List.length_map, List.map_drop]

/-- The latest elements are not lost when others are. -/
theorem rtake_filter {l : List α} {n : ℕ} {p : α → Bool} (h : ∀ x ∈ l.rtake n, p x) :
    (l.filter p).rtake n = l.rtake n := by
  rcases le_total l.length n with hle | hle
  · rw [rtake_of_length_le hle] at h ⊢
    rw [List.filter_eq_self.mpr h, rtake_of_length_le hle]
  · have hlength : (l.rtake n).length = n := by rw [length_rtake, Nat.min_eq_left hle]
    conv_lhs => rw [← append_rtake l n, List.filter_append, List.filter_eq_self.mpr h]
    rw [rtake_append, hlength, Nat.sub_self, List.rtake_zero, List.nil_append,
      rtake_of_length_le hlength.le]

/-- Two windows cover the latest elements if nothing lies between them. -/
theorem mem_windows {a b : List α} {target needed : ℕ} (h : target ≤ needed ∨ b.length ≤ needed)
    {x : α} (hx : x ∈ (a ++ b).rtake target) :
    x ∈ a.rtake target ∨ x ∈ (a ++ b).rtake needed := by
  rw [rtake_append] at hx
  rcases List.mem_append.mp hx with hx | hx
  · exact .inl (rtake_subset a (Nat.sub_le target b.length) hx)
  · refine .inr ?_
    rw [rtake_append]
    refine List.mem_append_right _ ?_
    rcases h with h | h
    · exact rtake_subset b h hx
    · rw [rtake_of_length_le h]
      exact List.drop_subset _ _ hx

/-! ### A map of the elements under a key -/

section

variable [DecidableEq κ] (key : α → κ)

/-- The values of a map, in the order in which their keys were inserted, after one more entry. -/
def put (values : List α) (a : α) : List α :=
  if values.any fun b => key b = key a then values.map fun b => if key b = key a then a else b
  else values ++ [a]

variable {key} {values l : List α}

theorem mem_put {a x : α} (h : x ∈ put key values a) : x ∈ values ∨ x = a := by
  rw [put] at h
  split at h
  · obtain ⟨b, hb, rfl⟩ := List.mem_map.mp h
    split
    · exact .inr rfl
    · exact .inl hb
  · simpa using h

/-- A function that keeps the keys applies to each value. -/
theorem map_put {f : α → α} (hf : ∀ a, key (f a) = key a) (a : α) :
    (put key values a).map f = put key (values.map f) (f a) := by
  simp only [put, List.any_map, Function.comp_def, hf]
  split
  · rw [List.map_map, List.map_map]
    refine List.map_congr_left fun b _ => ?_
    simp only [Function.comp_apply, hf]
    split
    · rfl
    · rfl
  · rw [List.map_append]
    rfl

theorem map_foldl_put {f : α → α} (hf : ∀ a, key (f a) = key a) (entries : List α) :
    (entries.foldl (put key) values).map f = (entries.map f).foldl (put key) (values.map f) := by
  induction entries generalizing values with
  | nil => rfl
  | cons a entries ih => rw [List.foldl_cons, ih, map_put hf, List.map_cons, List.foldl_cons]

theorem mem_foldl_put {entries : List α} {x : α} (h : x ∈ entries.foldl (put key) values) :
    x ∈ values ∨ x ∈ entries := by
  induction entries generalizing values with
  | nil => exact .inl h
  | cons a entries ih =>
    rcases ih h with h | h
    · rcases mem_put h with h | rfl
      · exact .inl h
      · exact .inr List.mem_cons_self
    · exact .inr (List.mem_cons_of_mem a h)

/-- An entry under the key of another is that entry. -/
theorem put_of_known {a : α} (hknown : ∀ x ∈ values, key x = key a → x = a) (h : a ∈ values) :
    put key values a = values := by
  rw [put, if_pos (List.any_eq_true.mpr ⟨a, h, decide_eq_true rfl⟩)]
  refine (List.map_congr_left fun b hb => ?_).trans (List.map_id values)
  split
  · next heq => exact (hknown b hb heq).symm
  · rfl

theorem put_of_new {a : α} (hknown : ∀ x ∈ values, key x = key a → x = a) (h : a ∉ values) :
    put key values a = values ++ [a] := by
  refine if_neg fun hany => ?_
  obtain ⟨b, hb, heq⟩ := List.any_eq_true.mp hany
  exact h (hknown b hb (of_decide_eq_true heq) ▸ hb)

/-- Where keys tell the elements apart, the map holds what was entered, each once. -/
theorem foldl_put {entries : List α} (hkey : ∀ x ∈ l, ∀ y ∈ l, key x = key y → x = y)
    (hvalues : ∀ x ∈ values, x ∈ l) (hentries : ∀ x ∈ entries, x ∈ l) (hnodup : values.Nodup) :
    (entries.foldl (put key) values).Nodup ∧
      ∀ x, x ∈ entries.foldl (put key) values ↔ x ∈ values ∨ x ∈ entries := by
  induction entries generalizing values with
  | nil => exact ⟨hnodup, fun x => by simp⟩
  | cons a entries ih =>
    have ha := hentries a List.mem_cons_self
    have hrest : ∀ x ∈ entries, x ∈ l := fun x hx => hentries x (List.mem_cons_of_mem a hx)
    have hknown : ∀ x ∈ values, key x = key a → x = a := fun x hx => hkey x (hvalues x hx) a ha
    rw [List.foldl_cons]
    by_cases hmem : a ∈ values
    · rw [put_of_known hknown hmem]
      obtain ⟨hnodup', hmem'⟩ := ih hvalues hrest hnodup
      refine ⟨hnodup', fun x => ?_⟩
      rw [hmem', List.mem_cons]
      constructor
      · rintro (h | h)
        · exact .inl h
        · exact .inr (.inr h)
      · rintro (h | rfl | h)
        · exact .inl h
        · exact .inl hmem
        · exact .inr h
    · rw [put_of_new hknown hmem]
      have hvalues' : ∀ x ∈ values ++ [a], x ∈ l := by
        intro x hx
        rcases List.mem_append.mp hx with hx | hx
        · exact hvalues x hx
        · exact List.mem_singleton.mp hx ▸ ha
      obtain ⟨hnodup', hmem'⟩ := ih hvalues' hrest
        (List.concat_eq_append ▸ hnodup.concat hmem)
      refine ⟨hnodup', fun x => ?_⟩
      simp only [hmem', List.mem_append, List.mem_cons, List.not_mem_nil, or_false, or_assoc]

end

/-! ### Sorting it -/

variable {time : α → ℤ} {l values : List α}

/-- Distinct elements of a list in the order of time, sorted by it, are a part of that list. -/
theorem sort_eq_filter (hl : l.Pairwise fun a b => time a < time b) (hnodup : values.Nodup)
    (hvalues : ∀ x ∈ values, x ∈ l) {p : α → Bool} (hp : ∀ x ∈ l, p x = true ↔ x ∈ values) :
    (values.mergeSort fun a b => time a ≤ time b) = l.filter p := by
  have htimes : (l.map time).Nodup := List.pairwise_map.mpr (hl.imp ne_of_lt)
  have hfilter : (l.filter p).Nodup := htimes.of_map.filter p
  have hperm : (values.mergeSort fun a b => time a ≤ time b).Perm (l.filter p) := by
    refine (List.mergeSort_perm _ _).trans ((List.perm_ext_iff_of_nodup hnodup hfilter).mpr ?_)
    intro x
    rw [List.mem_filter]
    exact ⟨fun h => ⟨hvalues x h, (hp x (hvalues x h)).mpr h⟩, fun h => (hp x h.1).mp h.2⟩
  have hsorted : (values.mergeSort fun a b => time a ≤ time b).Pairwise
      fun a b => decide (time a ≤ time b) = true :=
    List.pairwise_mergeSort (fun a b c => by simpa using le_trans)
      (fun a b => by simpa using le_total _ _) values
  refine hperm.eq_of_pairwise (fun x y hx hy hxy hyx => ?_) hsorted ((hl.filter p).imp fun h => by
    simpa using h.le)
  refine List.inj_on_of_nodup_map htimes (hvalues x (List.mem_mergeSort.mp hx))
    (List.mem_of_mem_filter hy) (le_antisymm ?_ ?_)
  · simpa using hxy
  · simpa using hyx

/-! ### Intervals in the order of time -/

/-- Intervals one after the other, none empty. -/
structure Chronological (start stop : α → ℤ) (l : List α) : Prop where
  proper : ∀ a ∈ l, start a < stop a
  ordered : l.Pairwise fun a b => stop a ≤ start b

namespace Chronological

variable {start stop : α → ℤ}

theorem sublist {l' : List α} (h : Chronological start stop l) (hsub : l'.Sublist l) :
    Chronological start stop l' :=
  ⟨fun a ha => h.proper a (hsub.subset ha), h.ordered.sublist hsub⟩

theorem starts (h : Chronological start stop l) : l.Pairwise fun a b => start a < start b :=
  h.ordered.imp_of_mem fun ha _ hab => (h.proper _ ha).trans_le hab

theorem stops (h : Chronological start stop l) : l.Pairwise fun a b => stop a < stop b :=
  h.ordered.imp_of_mem fun _ hb hab => hab.trans_lt (h.proper _ hb)

/-- What has ended when an interval starts comes before it. -/
theorem filter_before {before after : List α} {a : α}
    (h : Chronological start stop (before ++ a :: after)) :
    (before ++ a :: after).filter (fun b => stop b ≤ start a) = before := by
  obtain ⟨-, hrest, hacross⟩ := List.pairwise_append.mp h.ordered
  have ha := h.proper a (by simp)
  rw [List.filter_append, List.filter_eq_self.mpr, List.filter_eq_nil_iff.mpr, List.append_nil]
  · intro b hb
    simp only [decide_eq_true_eq, not_le]
    rcases List.mem_cons.mp hb with rfl | hb
    · exact ha
    · have hab := (List.pairwise_cons.mp hrest).1 b hb
      exact (ha.trans_le hab).trans (h.proper b (by simp [hb]))
  · intro b hb
    simpa using hacross b hb a List.mem_cons_self

/-- What has ended by an instant comes before what ends later. -/
theorem filter_append {t u : ℤ} (h : Chronological start stop l) (htu : t ≤ u) :
    l.filter (fun a => stop a ≤ u) =
      l.filter (fun a => stop a ≤ t) ++ l.filter fun a => t < stop a ∧ stop a ≤ u := by
  induction l with
  | nil => rfl
  | cons a l ih =>
    have hrest : Chronological start stop l := h.sublist (List.sublist_cons_self a l)
    have hstops := (List.pairwise_cons.mp h.stops).1
    have hih := ih hrest
    by_cases hat : stop a ≤ t
    · rw [List.filter_cons_of_pos (by simpa using hat.trans htu),
        List.filter_cons_of_pos (by simpa using hat), hih, List.filter_cons_of_neg (by simp [hat])]
      rfl
    · have hlater : ∀ b ∈ a :: l, t < stop b := by
        intro b hb
        rcases List.mem_cons.mp hb with rfl | hb
        · exact not_le.mp hat
        · exact (not_le.mp hat).trans (hstops b hb)
      have hnone : (a :: l).filter (fun b => stop b ≤ t) = [] := by
        refine List.filter_eq_nil_iff.mpr fun b hb => ?_
        simpa using hlater b hb
      rw [hnone, List.nil_append]
      exact List.filter_congr fun b hb => by simp [hlater b hb]

/-- Intervals of one length need room. -/
theorem length_mul_le {period low high : ℤ} (h : Chronological start stop l)
    (hperiod : ∀ a ∈ l, stop a - start a = period) (hlow : ∀ a ∈ l, low ≤ start a)
    (hhigh : ∀ a ∈ l, stop a ≤ high) (hlh : low ≤ high) : l.length * period ≤ high - low := by
  induction l generalizing low with
  | nil => simpa using hlh
  | cons a l ih =>
    have hafter := (List.pairwise_cons.mp h.ordered).1
    have hrest := ih (h.sublist (List.sublist_cons_self a l))
      (fun b hb => hperiod b (List.mem_cons_of_mem a hb)) hafter
      (fun b hb => hhigh b (List.mem_cons_of_mem a hb)) (hhigh a List.mem_cons_self)
    have hlength := hperiod a List.mem_cons_self
    have hstart := hlow a List.mem_cons_self
    have hcons : ((a :: l).length : ℤ) * period = l.length * period + period := by
      rw [List.length_cons]
      push_cast
      ring
    omega

end Chronological

end ScalpingBot.Window
