import Mathlib.Data.List.Dedup
import Mathlib.Data.List.Induction
import Mathlib.Order.Defs.LinearOrder
import Mathlib.Order.MinMax
import Mathlib.Tactic.Common

/-! Last-writer-wins registers: a value with the latest stamp written so far, where a write with a
    stamp that is not older than the register's replaces the value. Writes of equal stamps race, so
    what a register keeps, and whether its final value depends on the order of the writes, is
    decided by the stamps of the writes that disagree. -/

namespace ScalpingBot.LatestWins

/-- A register; `stamp` is `none` before the first write. -/
structure Register (τ α : Type*) where
  value : α
  stamp : Option τ

variable {τ α ε : Type*} [LinearOrder τ]

/-- The later of a register's stamp and `t`. -/
def later (s : Option τ) (t : τ) : τ := s.elim t fun u => max u t

/-- A write of `a` at `t`. -/
def write (r : Register τ α) (t : τ) (a : α) : Register τ α where
  value := if r.stamp.all (· ≤ t) then a else r.value
  stamp := some (later r.stamp t)

variable (f : ε → τ) (g : ε → α)

/-- The writes of the events of a list, in order. -/
def writes (r : Register τ α) (es : List ε) : Register τ α :=
  es.foldl (fun r e => write r (f e) (g e)) r

variable {f g} {r : Register τ α} {e e' : ε} {es : List ε}

theorem writes_concat :
    writes f g r (es ++ [e]) = write (writes f g r es) (f e) (g e) := by
  simp [writes]

theorem writes_one (hnew : r.stamp = none) : (writes f g r [e]).value = g e := by
  simp [writes, write, hnew]

/-- Of two writes to a new register the second one stands if it is not older. -/
theorem writes_pair (hnew : r.stamp = none) (h : f e ≤ f e') :
    (writes f g r [e, e']).value = g e' := by
  simp [writes, write, hnew, later, h]

theorem write_of_le {t u : τ} {a : α} (hstamp : r.stamp = some u) (h : u ≤ t) :
    write r t a = ⟨a, some t⟩ := by
  simp [write, hstamp, later, h]

theorem write_of_lt {t u : τ} {a : α} (hstamp : r.stamp = some u) (h : t < u) :
    write r t a = ⟨r.value, some u⟩ := by
  simp [write, hstamp, later, max_eq_left (le_of_lt h), not_le.mpr h]

/-- After writes to a new register the value is that of one of the latest of them. -/
theorem exists_latest (hnew : r.stamp = none) (hne : es ≠ []) :
    ∃ e ∈ es, (writes f g r es).value = g e ∧
      (writes f g r es).stamp = some (f e) ∧ ∀ e' ∈ es, f e' ≤ f e := by
  induction es using List.reverseRecOn with
  | nil => exact absurd rfl hne
  | append_singleton es e ih =>
    rw [writes_concat]
    rcases eq_or_ne es [] with rfl | hes
    · refine ⟨e, by simp, ?_, ?_, ?_⟩
      · simp [writes, write, hnew]
      · simp [writes, write, hnew, later]
      · intro e' he'
        rw [List.mem_singleton.mp he']
    · obtain ⟨u, hu, hvalue, hstamp, hmax⟩ := ih hes
      rcases le_or_gt (f u) (f e) with hle | hlt
      · rw [write_of_le hstamp hle]
        refine ⟨e, by simp, rfl, rfl, fun v hv => ?_⟩
        rcases List.mem_append.mp hv with hold | hlast
        · exact (hmax v hold).trans hle
        · rw [List.mem_singleton.mp hlast]
      · rw [write_of_lt hstamp hlt]
        refine ⟨u, List.mem_append_left _ hu, hvalue, rfl, fun v hv => ?_⟩
        rcases List.mem_append.mp hv with hold | hlast
        · exact hmax v hold
        · rw [List.mem_singleton.mp hlast]
          exact le_of_lt hlt

/-- The latest of all writes decides the value when it comes last. -/
theorem writes_last (hnew : r.stamp = none) (hmax : ∀ v ∈ es, f v ≤ f e) :
    (writes f g r (es ++ [e])).value = g e := by
  rw [writes_concat]
  rcases eq_or_ne es [] with rfl | hes
  · simp [writes, write, hnew]
  · obtain ⟨u, hu, -, hstamp, -⟩ := exists_latest (f := f) (g := g) hnew hes
    rw [write_of_le hstamp (hmax u hu)]

variable {E : Set ε} {P : α → Prop} {F : ε → Prop}

/-- A property of values is kept by all writes exactly if the writes without it are older than
    those with it. -/
theorem keeps_iff (hnew : r.stamp = none) (hstart : ¬ P r.value) :
    (∀ es : List ε, es.Nodup → (∀ v ∈ es, v ∈ E) → ∀ e ∈ E, e ∉ es →
      P (writes f g r es).value → P (writes f g r (es ++ [e])).value) ↔
    ∀ e ∈ E, ∀ e' ∈ E, P (g e) → ¬ P (g e') → f e' < f e := by
  constructor
  · intro hkeep e he e' he' hP hnP
    by_contra hlt
    have hne : e' ≠ e := fun heq => hnP (heq ▸ hP)
    have := hkeep [e] (by simp) (by simpa using he) e' he' (by simpa using hne)
      (by rwa [writes_one hnew])
    rw [List.singleton_append, writes_pair hnew (not_lt.mp hlt)] at this
    exact hnP this
  · intro hold es _ hes e he _ hP
    have hne : es ≠ [] := fun hnil => hstart (by simpa [hnil, writes] using hP)
    obtain ⟨u, hu, hvalue, hstamp, -⟩ := exists_latest (f := f) (g := g) hnew hne
    rw [writes_concat]
    rcases le_or_gt (f u) (f e) with hle | hlt
    · rw [write_of_le hstamp hle]
      by_contra hnP
      exact absurd (hold u (hes u hu) e he (hvalue ▸ hP) hnP) (not_lt.mpr hle)
    · rw [write_of_lt hstamp hlt]
      exact hP

/-- No value of `P` stands after an event of `F`, exactly if the events of `F` write none and are
    later than all that do. -/
theorem never_iff (hnew : r.stamp = none) :
    (∀ es : List ε, es.Nodup → (∀ v ∈ es, v ∈ E) → (∃ e ∈ es, F e) →
      ¬ P (writes f g r es).value) ↔
    ∀ e ∈ E, F e → ¬ P (g e) ∧ ∀ e' ∈ E, P (g e') → f e' < f e := by
  constructor
  · intro hnever e he hF
    have hself : ¬ P (g e) := by
      rw [← writes_one (f := f) (g := g) (e := e) hnew]
      exact hnever [e] (by simp) (by simpa using he) ⟨e, by simp, hF⟩
    refine ⟨hself, fun e' he' hP => ?_⟩
    by_contra hlt
    have hne : e ≠ e' := fun heq => hself (heq ▸ hP)
    have := hnever [e, e'] (by simpa using hne) (by simp [he, he']) ⟨e, by simp, hF⟩
    rw [writes_pair hnew (not_lt.mp hlt)] at this
    exact this hP
  · rintro hold es - hes ⟨e, he, hF⟩ hP
    obtain ⟨u, hu, hvalue, -, hmax⟩ :=
      exists_latest (f := f) (g := g) hnew (List.ne_nil_of_mem he)
    exact absurd ((hold e (hes e he) hF).2 u (hes u hu) (hvalue ▸ hP)) (not_lt.mpr (hmax e he))

/-- The final value does not depend on the order of the events exactly if the latest of them
    agree. -/
theorem confluent_iff {l : List ε} (hnew : r.stamp = none) :
    (∀ es es' : List ε, es.Perm l → es'.Perm l →
      (writes f g r es).value = (writes f g r es').value) ↔
    ∀ e ∈ l, ∀ e' ∈ l, (∀ v ∈ l, f v ≤ f e) → (∀ v ∈ l, f v ≤ f e') →
      g e = g e' := by
  classical
  constructor
  · intro hconf e he e' he' hmax hmax'
    have hlast : ∀ u ∈ l, (∀ v ∈ l, f v ≤ f u) →
        (writes f g r (l.erase u ++ [u])).value = g u := fun u hu hmaxu =>
      writes_last hnew fun v hv => hmaxu v (List.mem_of_mem_erase hv)
    have hperm : ∀ u ∈ l, (l.erase u ++ [u]).Perm l := fun u hu =>
      List.perm_append_comm.trans (List.perm_cons_erase hu).symm
    rw [← hlast e he hmax, ← hlast e' he' hmax']
    exact hconf _ _ (hperm e he) (hperm e' he')
  · intro hagree es es' hes hes'
    rcases eq_or_ne l [] with rfl | hne
    · rw [hes.eq_nil, hes'.eq_nil]
    · have hnil : ∀ {l' : List ε}, l'.Perm l → l' ≠ [] := fun hp hnil =>
        hne (List.nil_perm.mp (hnil ▸ hp))
      obtain ⟨e, he, hvalue, -, hmax⟩ :=
        exists_latest (f := f) (g := g) hnew (hnil hes)
      obtain ⟨e', he', hvalue', -, hmax'⟩ :=
        exists_latest (f := f) (g := g) hnew (hnil hes')
      rw [hvalue, hvalue']
      exact hagree e (hes.mem_iff.mp he) e' (hes'.mem_iff.mp he')
        (fun v hv => hmax v (hes.mem_iff.mpr hv)) (fun v hv => hmax' v (hes'.mem_iff.mpr hv))

end ScalpingBot.LatestWins
