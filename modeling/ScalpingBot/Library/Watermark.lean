import Mathlib.Data.List.Dedup
import Mathlib.Data.List.Induction
import Mathlib.Data.List.MinMax
import Mathlib.Data.List.Perm.Lattice
import Mathlib.Logic.Function.Basic
import Mathlib.Order.Basic
import Mathlib.Tactic.Common

/-! An alarm behind a watermark: messages carry a key, a level and maybe an alarm. A message below
    the highest level delivered for its key is discarded, and its alarm with it; every other one
    raises the level, and its alarm replaces what was latched. What is latched in the end depends on
    the order of delivery unless the alarms that can come last agree. -/

namespace ScalpingBot.Watermark

structure Message (κ τ α : Type*) where
  key : κ
  level : τ
  alarm : Option α

structure Monitor (κ τ α : Type*) where
  level : κ → τ
  latch : Option α

variable {κ τ α : Type*} [DecidableEq κ] [LinearOrder τ]

/-- The delivery of one message. -/
def deliver (s : Monitor κ τ α) (m : Message κ τ α) : Monitor κ τ α :=
  if m.level < s.level m.key then s
  else ⟨Function.update s.level m.key m.level, m.alarm <|> s.latch⟩

def deliverAll (s : Monitor κ τ α) (ms : List (Message κ τ α)) : Monitor κ τ α :=
  ms.foldl deliver s

variable {s : Monitor κ τ α} {m b : Message κ τ α} {ms ms' : List (Message κ τ α)} {k : κ} {a : α}

@[simp] theorem deliverAll_nil : deliverAll s [] = s := rfl

theorem deliverAll_cons : deliverAll s (m :: ms) = deliverAll (deliver s m) ms := rfl

theorem deliverAll_append : deliverAll s (ms ++ ms') = deliverAll (deliverAll s ms) ms' :=
  List.foldl_append

theorem deliver_of_lt (h : m.level < s.level m.key) : deliver s m = s := if_pos h

theorem deliver_latch (h : s.level m.key ≤ m.level) (ha : m.alarm = some a) :
    (deliver s m).latch = some a := by
  simp [deliver, not_lt.mpr h, ha]

/-! ### The watermarks -/

theorem level_le_deliver : s.level k ≤ (deliver s m).level k := by
  by_cases h : m.level < s.level m.key
  · rw [deliver_of_lt h]
  · rw [deliver, if_neg h]
    rcases eq_or_ne k m.key with rfl | hk
    · simpa using not_lt.mp h
    · simp [Function.update_of_ne hk]

theorem le_level_deliver : m.level ≤ (deliver s m).level m.key := by
  by_cases h : m.level < s.level m.key
  · rw [deliver_of_lt h]
    exact le_of_lt h
  · rw [deliver, if_neg h]
    simp

theorem level_le : s.level k ≤ (deliverAll s ms).level k := by
  induction ms generalizing s with
  | nil => exact le_rfl
  | cons m ms ih => exact level_le_deliver.trans ih

/-- No delivered message is above the watermark of its key. -/
theorem le_level (hm : m ∈ ms) : m.level ≤ (deliverAll s ms).level m.key := by
  induction ms generalizing s with
  | nil => cases hm
  | cons n ms ih =>
    rcases List.mem_cons.mp hm with rfl | hm
    · exact le_level_deliver.trans level_le
    · exact ih hm

/-- A watermark is below whatever bounds its start and the messages of its key. -/
theorem level_le_of {t : τ} (hs : s.level k ≤ t) (hms : ∀ m ∈ ms, m.key = k → m.level ≤ t) :
    (deliverAll s ms).level k ≤ t := by
  induction ms generalizing s with
  | nil => exact hs
  | cons m ms ih =>
    refine ih ?_ fun n hn => hms n (List.mem_cons_of_mem _ hn)
    by_cases h : m.level < s.level m.key
    · rwa [deliver_of_lt h]
    · rw [deliver, if_neg h]
      rcases eq_or_ne k m.key with rfl | hk
      · simpa using hms m List.mem_cons_self rfl
      · simpa [Function.update_of_ne hk] using hs

/-! ### The latch -/

/-- Messages without an alarm, and messages below their watermark, leave the latch alone. -/
theorem latch_quiet (h : ∀ m ∈ ms, m.alarm = none ∨ m.level < s.level m.key) :
    (deliverAll s ms).latch = s.latch := by
  induction ms generalizing s with
  | nil => rfl
  | cons m ms ih =>
    have hlatch : (deliver s m).latch = s.latch := by
      rcases h m List.mem_cons_self with hnone | hlt
      · unfold deliver
        split
        · rfl
        · simp [hnone]
      · rw [deliver_of_lt hlt]
    rw [deliverAll_cons, ih, hlatch]
    intro n hn
    rcases h n (List.mem_cons_of_mem _ hn) with hnone | hlt
    · exact Or.inl hnone
    · exact Or.inr (hlt.trans_le level_le_deliver)

theorem deliver_concat : deliverAll s (ms ++ [m]) = deliver (deliverAll s ms) m := by
  rw [deliverAll_append]
  rfl

/-- No message of its key, nor the watermark at the start, is above the message: it is never
    discarded. -/
def Tops (s : Monitor κ τ α) (ms : List (Message κ τ α)) (m : Message κ τ α) : Prop :=
  s.level m.key ≤ m.level ∧ ∀ n ∈ ms, n.key = m.key → n.level ≤ m.level

/-- The message has an alarm that may be the last one: it is not below the watermark at the start,
    and no alarm that is never discarded is above it. -/
def Decisive (s : Monitor κ τ α) (ms : List (Message κ τ α)) (b : Message κ τ α) : Prop :=
  b.alarm ≠ none ∧ s.level b.key ≤ b.level ∧
    ∀ m ∈ ms, m.key = b.key → m.alarm ≠ none → Tops s ms m → m.level ≤ b.level

theorem Tops.level_le (h : Tops s ms m) : (deliverAll s ms).level m.key ≤ m.level :=
  level_le_of h.1 h.2

/-- What is latched was there before, or comes from an alarm with nothing but discarded alarms
    above it. -/
theorem latch_cases :
    ((deliverAll s ms).latch = s.latch ∧
      ∀ m ∈ ms, m.alarm ≠ none → m.level < (deliverAll s ms).level m.key) ∨
    ∃ b ∈ ms, b.alarm ≠ none ∧ s.level b.key ≤ b.level ∧ (deliverAll s ms).latch = b.alarm ∧
      ∀ m ∈ ms, m.key = b.key → m.alarm ≠ none →
        m.level ≤ b.level ∨ m.level < (deliverAll s ms).level m.key := by
  induction ms using List.reverseRecOn with
  | nil => exact Or.inl ⟨rfl, by simp⟩
  | append_singleton ms m ih =>
    have hgrows : ∀ k, (deliverAll s ms).level k ≤ (deliverAll s (ms ++ [m])).level k := by
      intro k
      rw [deliver_concat]
      exact level_le_deliver
    by_cases hquiet : m.alarm = none ∨ m.level < (deliverAll s ms).level m.key
    · have hlatch : (deliverAll s (ms ++ [m])).latch = (deliverAll s ms).latch := by
        rw [deliverAll_append]
        exact latch_quiet (by simpa using hquiet)
      have hm : m.alarm ≠ none → m.level < (deliverAll s (ms ++ [m])).level m.key := fun ha =>
        (hquiet.resolve_left ha).trans_le (hgrows _)
      rcases ih with ⟨hsame, hbelow⟩ | ⟨b, hb, ha, hlive, hlast, habove⟩
      · refine Or.inl ⟨hlatch.trans hsame, fun n hn hna => ?_⟩
        rcases List.mem_append.mp hn with hn | hn
        · exact (hbelow n hn hna).trans_le (hgrows _)
        · obtain rfl := List.mem_singleton.mp hn
          exact hm hna
      · refine Or.inr ⟨b, List.mem_append_left _ hb, ha, hlive, hlatch.trans hlast, ?_⟩
        intro n hn hkey hna
        rcases List.mem_append.mp hn with hn | hn
        · exact (habove n hn hkey hna).imp_right fun h => h.trans_le (hgrows _)
        · obtain rfl := List.mem_singleton.mp hn
          exact Or.inr (hm hna)
    · simp only [not_or, not_lt] at hquiet
      obtain ⟨ha, hlive⟩ := hquiet
      obtain ⟨a, ha'⟩ := Option.ne_none_iff_exists'.mp ha
      refine Or.inr ⟨m, by simp, ha, level_le.trans hlive, ?_, fun n hn hkey _ => Or.inl ?_⟩
      · rw [deliver_concat, deliver_latch hlive ha', ha']
      · rcases List.mem_append.mp hn with hn | hn
        · exact (le_level hn).trans (hkey ▸ hlive)
        · rw [List.mem_singleton.mp hn]

/-! ### When the order does not matter -/

/-- All alarms that may be the last one are `a`; and if no alarm is sure to be accepted, `a` is
    what was latched before. -/
structure Agreed (s : Monitor κ τ α) (ms : List (Message κ τ α)) (a : Option α) : Prop where
  decisive : ∀ b ∈ ms, Decisive s ms b → b.alarm = a
  quiet : (∀ m ∈ ms, Tops s ms m → m.alarm = none) → s.latch = a

theorem latch_of_agreed {a : Option α} (h : Agreed s ms a) : (deliverAll s ms).latch = a := by
  rcases @latch_cases κ τ α _ _ s ms with ⟨hsame, hbelow⟩ | ⟨b, hb, ha, hlive, hlast, habove⟩
  · rw [hsame]
    refine h.quiet fun m hm htops => ?_
    by_contra halarm
    exact absurd htops.level_le (not_le.mpr (hbelow m hm halarm))
  · rw [hlast]
    refine h.decisive b hb ⟨ha, hlive, fun m hm hkey halarm htops => ?_⟩
    exact (habove m hm hkey halarm).resolve_right (not_lt.mpr htops.level_le)

omit [DecidableEq κ] in
theorem Tops.perm (h : ms'.Perm ms) (ht : Tops s ms m) : Tops s ms' m :=
  ⟨ht.1, fun n hn => ht.2 n (h.mem_iff.mp hn)⟩

omit [DecidableEq κ] in
theorem Agreed.perm {a : Option α} (h : ms'.Perm ms) (ha : Agreed s ms a) : Agreed s ms' a where
  decisive := fun b hb hd => ha.decisive b (h.mem_iff.mp hb)
    ⟨hd.1, hd.2.1, fun m hm hkey halarm ht => hd.2.2 m (h.mem_iff.mpr hm) hkey halarm (ht.perm h)⟩
  quiet := fun hq => ha.quiet fun m hm ht => hq m (h.mem_iff.mpr hm) (ht.perm h)

/-- Above a message that is not below the watermark there is one that tops all. -/
theorem exists_tops (hm : m ∈ ms) (hlive : s.level m.key ≤ m.level) :
    ∃ n ∈ ms, n.key = m.key ∧ m.level ≤ n.level ∧ Tops s ms n := by
  have hmem : m ∈ ms.filter (·.key = m.key) := by simpa using hm
  obtain ⟨n, hn⟩ : ∃ n, n ∈ (ms.filter (·.key = m.key)).argmax (·.level) := by
    refine Option.ne_none_iff_exists'.mp fun hnone => ?_
    rw [List.argmax_eq_none.mp hnone] at hmem
    cases hmem
  have hmax : m.level ≤ n.level := List.le_of_mem_argmax hmem hn
  have hkey : n ∈ ms ∧ n.key = m.key := by simpa using List.argmax_mem hn
  refine ⟨n, hkey.1, hkey.2, hmax, hkey.2 ▸ hlive.trans hmax, fun x hx hxkey => ?_⟩
  exact List.le_of_mem_argmax (by simpa using ⟨hx, hxkey.trans hkey.2⟩) hn

/-- Once all messages that top the others are delivered, the rest is discarded. -/
theorem latch_rest {pre rest : List (Message κ τ α)} (hpre : ∀ m ∈ ms, Tops s ms m → m ∈ pre)
    (hrest : ∀ m ∈ rest, m ∈ ms ∧ ¬ Tops s ms m) :
    (deliverAll s (pre ++ rest)).latch = (deliverAll s pre).latch := by
  rw [deliverAll_append]
  refine latch_quiet fun m hm => Or.inr ?_
  obtain ⟨hmem, hnot⟩ := hrest m hm
  rcases lt_or_ge m.level (s.level m.key) with hlt | hlive
  · exact hlt.trans_le level_le
  · obtain ⟨n, hn, hkey, hle, htops⟩ := exists_tops hmem hlive
    have hlt : m.level < n.level := by
      refine lt_of_le_of_ne hle fun heq => hnot ⟨hlive, fun x hx hxkey => ?_⟩
      exact heq ▸ htops.2 x hx (hxkey.trans hkey.symm)
    exact hkey ▸ hlt.trans_le (le_level (hpre n hn htops))

open Classical in
theorem latch_tops_first (h : ∀ m ∈ ms, Tops s ms m → m.alarm = none) :
    ∃ ms', ms'.Perm ms ∧ (deliverAll s ms').latch = s.latch := by
  refine ⟨_, List.filter_append_perm (fun m => decide (Tops s ms m)) ms, ?_⟩
  rw [@latch_rest κ τ α _ _ s ms]
  · refine latch_quiet fun m hm => Or.inl ?_
    simp only [List.mem_filter, decide_eq_true_eq] at hm
    exact h m hm.1 hm.2
  · exact fun m hm ht => by simpa using ⟨hm, ht⟩
  · exact fun m hm => by simpa using hm

theorem latch_last (hb : b ∈ ms) (ha : b.alarm ≠ none) (ht : Tops s ms b) :
    ∃ ms', ms'.Perm ms ∧ (deliverAll s ms').latch = b.alarm := by
  obtain ⟨l, l', rfl⟩ := List.append_of_mem hb
  obtain ⟨a, ha'⟩ := Option.ne_none_iff_exists'.mp ha
  refine ⟨l ++ l' ++ [b], ?_, ?_⟩
  · rw [List.append_assoc]
    exact List.Perm.append_left l (List.perm_append_singleton b l')
  · have hle : (deliverAll s (l ++ l')).level b.key ≤ b.level :=
      level_le_of ht.1 fun m hm => ht.2 m (by
        rcases List.mem_append.mp hm with h | h <;> simp [h])
    rw [deliver_concat, deliver_latch hle ha', ha']

open Classical in
/-- An alarm below others of its key is the last one when the messages that top the others of its
    key come after it and have no alarm. -/
theorem latch_between (hb : b ∈ ms) (ha : b.alarm ≠ none) (hlive : s.level b.key ≤ b.level)
    (hnot : ¬ Tops s ms b)
    (hquiet : ∀ m ∈ ms, m.key = b.key → Tops s ms m → m.alarm = none) :
    ∃ ms', ms'.Perm ms ∧ (deliverAll s ms').latch = b.alarm := by
  obtain ⟨a, ha'⟩ := Option.ne_none_iff_exists'.mp ha
  have hsplit := List.filter_append_perm (fun m => decide (Tops s ms m)) ms
  have hkeys := List.filter_append_perm (fun m => decide (m.key ≠ b.key))
    (ms.filter fun m => decide (Tops s ms m))
  obtain ⟨l, l', hl⟩ := List.append_of_mem (a := b)
    (l := ms.filter fun m => !decide (Tops s ms m)) (by simpa using ⟨hb, hnot⟩)
  generalize hothers : List.filter (fun m => decide (m.key ≠ b.key))
    (ms.filter fun m => decide (Tops s ms m)) = others at hkeys
  generalize hmine : List.filter (fun m => !decide (m.key ≠ b.key))
    (ms.filter fun m => decide (Tops s ms m)) = mine at hkeys
  refine ⟨others ++ b :: mine ++ (l ++ l'), ?_, ?_⟩
  · have hfront : (others ++ b :: mine ++ (l ++ l')).Perm (others ++ mine ++ b :: (l ++ l')) := by
      simp only [List.append_assoc, List.cons_append]
      exact List.Perm.append_left others List.perm_middle.symm
    have hback : (others ++ mine ++ b :: (l ++ l')).Perm (others ++ mine ++ (l ++ b :: l')) :=
      List.Perm.append_left _ List.perm_middle.symm
    rw [← hl] at hback
    exact hfront.trans (hback.trans ((hkeys.append_right _).trans hsplit))
  · rw [@latch_rest κ τ α _ _ s ms]
    · have hle : (deliverAll s others).level b.key ≤ b.level := by
        refine level_le_of hlive fun m hm hkey => ?_
        simp [← hothers, hkey] at hm
      rw [deliverAll_append, deliverAll_cons, latch_quiet, deliver_latch hle ha', ha']
      intro m hm
      have hm' : m ∈ ms ∧ m.key = b.key ∧ Tops s ms m := by simpa [← hmine] using hm
      exact Or.inl (hquiet m hm'.1 hm'.2.1 hm'.2.2)
    · intro m hm ht
      have hmem : m ∈ others ++ mine := hkeys.mem_iff.mpr (by simpa using ⟨hm, ht⟩)
      rcases List.mem_append.mp hmem with h | h <;> simp [h]
    · intro m hm
      have hmem : m ∈ ms.filter fun m => !decide (Tops s ms m) := by
        rw [hl]
        rcases List.mem_append.mp hm with h | h <;> simp [h]
      simpa using hmem

/-- In every order of delivery `a` is latched in the end exactly if the alarms agree on it. -/
theorem latch_perm_iff {a : Option α} :
    (∀ ms', ms'.Perm ms → (deliverAll s ms').latch = a) ↔ Agreed s ms a := by
  refine ⟨fun h => ⟨fun b hb ⟨halarm, hlive, habove⟩ => ?_, fun hquiet => ?_⟩,
    fun h ms' hperm => latch_of_agreed (h.perm hperm)⟩
  · by_cases ht : Tops s ms b
    · obtain ⟨ms', hperm, hlatch⟩ := latch_last hb halarm ht
      rw [← hlatch, h ms' hperm]
    · obtain ⟨ms', hperm, hlatch⟩ := latch_between hb halarm hlive ht fun m hm hkey htops => by
        by_contra hma
        have hle := habove m hm hkey hma htops
        exact ht ⟨hlive, fun n hn hnkey => (htops.2 n hn (hnkey.trans hkey.symm)).trans hle⟩
      rw [← hlatch, h ms' hperm]
  · obtain ⟨ms', hperm, hlatch⟩ := latch_tops_first hquiet
    rw [← hlatch, h ms' hperm]

/-- A permutation of the messages of some events comes from a permutation of the events. -/
theorem exists_perm_filterMap {ε μ : Type*} {f : ε → Option μ} {es : List ε} {ms : List μ}
    (h : (es.filterMap f).Perm ms) : ∃ es' : List ε, es'.Perm es ∧ es'.filterMap f = ms := by
  generalize hl : es.filterMap f = l at h
  induction h generalizing es with
  | nil => exact ⟨es, List.Perm.refl es, hl⟩
  | cons m _ ih =>
    obtain ⟨pre, e, post, rfl, hpre, he, hpost⟩ := List.filterMap_eq_cons_iff.mp hl
    obtain ⟨post', hperm, hmap⟩ := ih hpost
    refine ⟨pre ++ e :: post', List.Perm.append_left pre (hperm.cons e), ?_⟩
    rw [List.filterMap_append, List.filterMap_eq_nil_iff.mpr hpre, List.filterMap_cons_some he,
      hmap, List.nil_append]
  | swap m n l =>
    obtain ⟨pre, e, post, rfl, hpre, he, hpost⟩ := List.filterMap_eq_cons_iff.mp hl
    obtain ⟨pre', e', post', rfl, hpre', he', hpost'⟩ := List.filterMap_eq_cons_iff.mp hpost
    refine ⟨pre ++ pre' ++ e' :: e :: post', ?_, ?_⟩
    · rw [List.append_assoc]
      refine List.Perm.append_left pre ?_
      exact (List.Perm.append_left pre' (List.Perm.swap e e' post')).trans List.perm_middle
    · simp [List.filterMap_eq_nil_iff.mpr hpre, List.filterMap_eq_nil_iff.mpr hpre', he, he', hpost']
  | trans _ _ ih ih' =>
    obtain ⟨es', hperm, hmap⟩ := ih hl
    obtain ⟨es'', hperm', hmap'⟩ := ih' hmap
    exact ⟨es'', hperm'.trans hperm, hmap'⟩

end ScalpingBot.Watermark
