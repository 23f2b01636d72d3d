import Mathlib.Data.List.Nodup
import ScalpingBot.Library.Locks
import ScalpingBot.Library.Transition

/-! `retireEntryContext` (apps/execution-service/src/entry-recovery-store.ts) against the intents that
    use a context, on the tables of migrations 0016 and 0024. Transactions run at read committed:
    every statement, also one of a trigger, sees what is committed at its start and what its own
    transaction has written; row locks, advisory locks and entries of unique indexes are kept until
    the transaction ends. A context exists before anything refers to it. -/

namespace ScalpingBot.Context

/-- A row of `order_groups`. -/
structure OrderGroup where
  id : ℕ
  contextPlanId : Option ℕ
  deriving DecidableEq

/-- What a transaction waits for while another one holds it. -/
inductive Resource where
  | scope (lock : ℕ)
  | context (id : ℕ)
  | group (id : ℕ)
  | retirement (context : ℕ)
  deriving DecidableEq

/-- An INSERT into `order_groups`, or an UPDATE of `context_plan_id`. -/
structure Statement where
  insert : Bool
  row : OrderGroup
  deriving DecidableEq

/-- Where `retireEntryContext` stands. -/
inductive RetireAt where
  | begun
  | serialized
  | selected
  /-- The INSERT has seen no group of the context; its trigger comes. -/
  | inserting
  | guarded
  | checked
  | inserted (row : Bool)
  | answered (row retired : Bool)
  deriving DecidableEq

/-- Where an intent stands. -/
inductive IntentAt where
  | ready
  | started (statement : Statement)
  /-- `guard_entry_context_transition` has locked the context. -/
  | guarded (statement : Statement) (context : ℕ)
  | checked (statement : Statement)
  deriving DecidableEq

/-- A transaction; an intent with the rows it has written. -/
inductive Transaction where
  | idle
  | retire (scope context : ℕ) (place : RetireAt)
  | intent (written : List OrderGroup) (place : IntentAt)
  /-- A statement has failed; only ROLLBACK is left. -/
  | failed
  deriving DecidableEq

def Transaction.written : Transaction → List OrderGroup
  | .intent written _ => written
  | _ => []

/-- What is committed, the transactions with their locks, and what the calls have returned. -/
structure Db where
  groups : List OrderGroup
  retirements : List ℕ
  locks : Resource → Option ℕ
  transactions : ℕ → Transaction
  returned : List (ℕ × Bool)

inductive Action where
  | retire (i scope context : ℕ)
  | intent (i : ℕ)
  | statement (i : ℕ) (statement : Statement)
  /-- The next step of the call or of the statement; `found` is the answer of the SELECT. -/
  | advance (i : ℕ) (found : Bool)
  | commit (i : ℕ)
  | fail (i : ℕ)
  | rollback (i : ℕ)

/-- The rows of a table with those that a transaction has written over them. -/
def overlay (groups written : List OrderGroup) : List OrderGroup :=
  written ++ groups.filter fun group => group.id ∉ written.map (·.id)

namespace Db

variable (s : Db)

/-- The groups that a statement of transaction `i` sees. -/
def view (i : ℕ) : List OrderGroup := overlay s.groups (s.transactions i).written

def setTransaction (i : ℕ) (transaction : Transaction) : Db :=
  { s with transactions := Function.update s.transactions i transaction }

/-- Goes on once the resource can be locked. -/
def lock (i : ℕ) (r : Resource) (next : Transaction) : Option Db :=
  if Locks.free s.locks i r then
    some ({ s with locks := Locks.acquire s.locks i r }.setTransaction i next)
  else none

/-- The end of a transaction. -/
def finish (i : ℕ) : Db :=
  { s with locks := Locks.release s.locks i }.setTransaction i .idle

/-- A step of `retireEntryContext`. -/
def advanceRetire (i scope context : ℕ) (found : Bool) : RetireAt → Option Db
  | .begun => s.lock i (.scope scope) (.retire scope context .serialized)
  | .serialized =>
    if found then s.lock i (.context context) (.retire scope context .selected)
    else some { s.finish i with returned := (context, false) :: s.returned }
  | .selected =>
    some (s.setTransaction i (.retire scope context
      (if s.groups.any (·.contextPlanId = some context) then .inserted false else .inserting)))
  | .inserting => s.lock i (.context context) (.retire scope context .guarded)
  | .guarded =>
    some (s.setTransaction i
      (if s.groups.any (·.contextPlanId = some context) then .failed
        else .retire scope context .checked))
  | .checked =>
    -- ON CONFLICT DO NOTHING waits for an entry of another transaction
    if Locks.free s.locks i (.retirement context) then
      if context ∈ s.retirements then
        some (s.setTransaction i (.retire scope context (.inserted false)))
      else s.lock i (.retirement context) (.retire scope context (.inserted true))
    else none
  | .inserted row =>
    some (s.setTransaction i (.retire scope context
      (.answered row (row || decide (context ∈ s.retirements)))))
  | .answered .. => none

/-- Whether another transaction is writing a group that is committed for the context. -/
def awaited (i : ℕ) (context : Option ℕ) : Bool :=
  context.isSome ∧ s.groups.any fun group =>
    group.contextPlanId = context ∧ !Locks.free s.locks i (.group group.id)

/-- Whether the keys of `order_groups` refuse the statement. -/
def refused (i : ℕ) (statement : Statement) : Bool :=
  (statement.insert ∧ (s.view i).any (·.id = statement.row.id)) ∨
    statement.row.contextPlanId.isSome ∧ (s.view i).any fun group =>
      group.id ≠ statement.row.id ∧ group.contextPlanId = statement.row.contextPlanId

/-- A step of a statement of an intent. -/
def advanceIntent (i : ℕ) (written : List OrderGroup) : IntentAt → Option Db
  | .ready => none
  | .started statement =>
    match statement.row.contextPlanId with
    | none => some (s.setTransaction i (.intent written (.checked statement)))
    | some context => s.lock i (.context context) (.intent written (.guarded statement context))
  | .guarded statement context =>
    some (s.setTransaction i
      (if context ∈ s.retirements then .failed else .intent written (.checked statement)))
  | .checked statement =>
    if !Locks.free s.locks i (.group statement.row.id) ∨
        s.awaited i statement.row.contextPlanId then none
    else if s.refused i statement then some (s.setTransaction i .failed)
    else if statement.insert ∨ (s.view i).any (·.id = statement.row.id) then
      s.lock i (.group statement.row.id)
        (.intent (overlay written [statement.row]) .ready)
    else some (s.setTransaction i (.intent written .ready))

def step : Action → Option Db
  | .retire i scope context =>
    match s.transactions i with
    | .idle => some (s.setTransaction i (.retire scope context .begun))
    | _ => none
  | .intent i =>
    match s.transactions i with
    | .idle => some (s.setTransaction i (.intent [] .ready))
    | _ => none
  | .statement i statement =>
    match s.transactions i with
    | .intent written .ready => some (s.setTransaction i (.intent written (.started statement)))
    | _ => none
  | .advance i found =>
    match s.transactions i with
    | .retire scope context place => s.advanceRetire i scope context found place
    | .intent written place => s.advanceIntent i written place
    | _ => none
  | .commit i =>
    match s.transactions i with
    | .retire _ context (.answered row retired) =>
      some { s.finish i with
        retirements := if row then context :: s.retirements else s.retirements
        returned := (context, retired) :: s.returned }
    | .intent _ .ready => some { s.finish i with groups := s.view i }
    | _ => none
  | .fail i => some (s.setTransaction i .failed)
  | .rollback i => some (s.finish i)

def initial : Db := ⟨[], [], fun _ => none, fun _ => .idle, []⟩

end Db

/-! ### The rows that a transaction sees -/

theorem mem_overlay {groups written : List OrderGroup} {group : OrderGroup} :
    group ∈ overlay groups written ↔
      group ∈ written ∨ group ∈ groups ∧ group.id ∉ written.map (·.id) := by
  simp only [overlay, List.mem_append, List.mem_filter, decide_eq_true_eq]

theorem overlay_nil (groups : List OrderGroup) : overlay groups [] = groups := by
  simp [overlay]

/-- The keys of `order_groups`. -/
structure Keys (groups : List OrderGroup) : Prop where
  id : ∀ g ∈ groups, ∀ h ∈ groups, g.id = h.id → g = h
  context : ∀ g ∈ groups, ∀ h ∈ groups, ∀ c, g.contextPlanId = some c →
    h.contextPlanId = some c → g = h

/-! ### The invariant -/

namespace Db

variable (s : Db)

def Held (i c : ℕ) : Prop := s.locks (.context c) = some i

/-- No committed group uses the context. -/
def Unused (c : ℕ) : Prop := ∀ g ∈ s.groups, g.contextPlanId ≠ some c

/-- What a retirement knows where it stands. -/
def RetireSound (i c : ℕ) : RetireAt → Prop
  | .begun | .serialized => True
  | .selected | .inserting | .guarded => s.Held i c
  | .checked => s.Held i c ∧ s.Unused c
  | .inserted row => s.Held i c ∧ (row = true → s.Unused c)
  | .answered row retired => s.Held i c ∧ (row = true → s.Unused c) ∧
    (retired = true → row = true ∨ c ∈ s.retirements)

/-- What an intent knows where it stands. -/
def IntentSound (i : ℕ) : IntentAt → Prop
  | .ready | .started _ => True
  | .guarded statement c => s.Held i c ∧ statement.row.contextPlanId = some c
  | .checked statement => ∀ c, statement.row.contextPlanId = some c →
    s.Held i c ∧ c ∉ s.retirements

def Place (i : ℕ) : Transaction → Prop
  | .retire _ c place => s.RetireSound i c place
  | .intent _ place => s.IntentSound i place
  | _ => True

/-- The written rows are locked with their contexts, which are neither retired nor used by a
    committed group that is not written over. -/
def WrittenSound (i : ℕ) (written : List OrderGroup) : Prop :=
  ∀ g ∈ written, s.locks (.group g.id) = some i ∧ ∀ c, g.contextPlanId = some c →
    s.Held i c ∧ c ∉ s.retirements ∧
      ∀ h ∈ s.groups, h.contextPlanId = some c → h.id ∈ written.map (·.id)

structure Sound : Prop where
  apart : ∀ c ∈ s.retirements, s.Unused c
  groups : Keys s.groups
  views : ∀ i, Keys (s.view i)
  written : ∀ i, s.WrittenSound i (s.transactions i).written
  places : ∀ i, s.Place i (s.transactions i)
  returned : ∀ c, (c, true) ∈ s.returned → c ∈ s.retirements

end Db

variable {s t : Db} {i : ℕ}

/-- A step of transaction `i`, as the others see it. -/
structure Others (s t : Db) (i : ℕ) : Prop where
  transactions : ∀ j, j ≠ i → t.transactions j = s.transactions j
  locks : ∀ j, j ≠ i → ∀ x, s.locks x = some j → t.locks x = some j
  retirements : ∀ j, j ≠ i → ∀ c ∈ t.retirements, s.Held j c → c ∈ s.retirements
  kept : ∀ c ∈ s.retirements, c ∈ t.retirements
  groups : ∀ j, j ≠ i → ∀ g ∈ t.groups, ∀ c, g.contextPlanId = some c → s.Held j c → g ∈ s.groups

namespace Others

variable {j : ℕ}

theorem unused (h : Others s t i) (hne : j ≠ i) {c : ℕ} (hheld : s.Held j c)
    (hunused : s.Unused c) : t.Unused c :=
  fun g hg hc => hunused g (h.groups j hne g hg c hc hheld) hc

theorem written (h : Others s t i) (hne : j ≠ i) (hs : s.WrittenSound j (s.transactions j).written) :
    t.WrittenSound j (t.transactions j).written := by
  rw [h.transactions j hne]
  intro g hg
  obtain ⟨hlock, hcontext⟩ := hs g hg
  refine ⟨h.locks j hne _ hlock, fun c hc => ?_⟩
  obtain ⟨hheld, hnot, hused⟩ := hcontext c hc
  refine ⟨h.locks j hne _ hheld, fun hret => hnot (h.retirements j hne c hret hheld), ?_⟩
  exact fun g hg hgc => hused g (h.groups j hne g hg c hgc hheld) hgc

theorem place (h : Others s t i) (hne : j ≠ i) (hs : s.Place j (s.transactions j)) :
    t.Place j (t.transactions j) := by
  rw [h.transactions j hne]
  have hlock {c : ℕ} (hheld : s.Held j c) : t.Held j c := h.locks j hne _ hheld
  cases htx : s.transactions j with
  | idle => trivial
  | failed => trivial
  | retire scope c place =>
    rw [htx] at hs
    cases place with
    | begun => trivial
    | serialized => trivial
    | selected => exact hlock hs
    | inserting => exact hlock hs
    | guarded => exact hlock hs
    | checked => exact ⟨hlock hs.1, h.unused hne hs.1 hs.2⟩
    | inserted row => exact ⟨hlock hs.1, fun hrow => h.unused hne hs.1 (hs.2 hrow)⟩
    | answered row retired =>
      refine ⟨hlock hs.1, fun hrow => h.unused hne hs.1 (hs.2.1 hrow), fun hexists => ?_⟩
      rcases hs.2.2 hexists with hrow | hmem
      · exact .inl hrow
      · exact .inr (h.kept c hmem)
  | intent written place =>
    rw [htx] at hs
    cases place with
    | ready => trivial
    | started statement => trivial
    | guarded statement c => exact ⟨hlock hs.1, hs.2⟩
    | checked statement =>
      intro c hc
      obtain ⟨hheld, hnot⟩ := hs c hc
      exact ⟨hlock hheld, fun hret => hnot (h.retirements j hne c hret hheld)⟩

end Others

/-- A transaction that goes on, with more locks, keeps the invariant if its own part holds. -/
theorem sound_set (hs : s.Sound) {next : Transaction} {locks : Resource → Option ℕ}
    (hlocks : ∀ x j, s.locks x = some j → locks x = some j)
    (hview : Keys (overlay s.groups next.written))
    (hwritten : ({ s with locks := locks } : Db).WrittenSound i next.written)
    (hplace : ({ s with locks := locks } : Db).Place i next) :
    (({ s with locks := locks } : Db).setTransaction i next).Sound := by
  have hothers : Others s (({ s with locks := locks } : Db).setTransaction i next) i :=
    ⟨fun j hne => Function.update_of_ne hne _ _, fun j _ x => hlocks x j, fun _ _ c hc _ => hc,
      fun c hc => hc, fun _ _ g hg _ _ _ => hg⟩
  have hself : (({ s with locks := locks } : Db).setTransaction i next).transactions i = next :=
    Function.update_self ..
  refine ⟨hs.apart, hs.groups, fun j => ?_, fun j => ?_, fun j => ?_, hs.returned⟩
  · by_cases hne : j = i
    · subst hne
      rw [Db.view, hself]
      exact hview
    · rw [Db.view, hothers.transactions j hne]
      exact hs.views j
  · by_cases hne : j = i
    · subst hne
      rw [hself]
      exact hwritten
    · exact hothers.written hne (hs.written j)
  · by_cases hne : j = i
    · subst hne
      rw [hself]
      exact hplace
    · exact hothers.place hne (hs.places j)

/-- The same for a step that writes nothing and takes no lock. -/
theorem sound_setTransaction (hs : s.Sound) {next : Transaction}
    (hsame : next.written = (s.transactions i).written) (hplace : s.Place i next) :
    (s.setTransaction i next).Sound := by
  have h : (({ s with locks := s.locks } : Db).setTransaction i next).Sound :=
    sound_set hs (fun _ _ h => h) (by rw [hsame]; exact hs.views i)
      (by rw [hsame]; exact hs.written i) hplace
  exact h

/-- The same for a lock: what the transaction knew, it knows with the new lock. -/
theorem sound_lock (hs : s.Sound) {r : Resource} {next : Transaction}
    (h : s.lock i r next = some t) (hsame : next.written = (s.transactions i).written)
    (hplace : ∀ locks : Resource → Option ℕ, locks r = some i →
      (∀ x j, s.locks x = some j → locks x = some j) → ({ s with locks := locks } : Db).Place i next) :
    t.Sound := by
  rw [Db.lock] at h
  split at h
  · rename_i hfree
    obtain rfl := Option.some.inj h
    have hlocks : ∀ x j, s.locks x = some j → Locks.acquire s.locks i r x = some j :=
      fun x j => Locks.acquire_of_held hfree
    refine sound_set hs hlocks (by rw [hsame]; exact hs.views i) ?_
      (hplace _ Locks.acquire_self hlocks)
    rw [hsame]
    intro g hg
    obtain ⟨hlock, hcontext⟩ := hs.written i g hg
    refine ⟨hlocks _ _ hlock, fun c hc => ?_⟩
    obtain ⟨hheld, hrest⟩ := hcontext c hc
    exact ⟨hlocks _ _ hheld, hrest⟩
  · cases h

/-- A commit of transaction `i` leaves the view of another one with its keys. -/
theorem keys_view (hs : s.Sound) (hothers : Others s t i) {j : ℕ} (hne : j ≠ i)
    (hkeys : Keys t.groups) : Keys (t.view j) := by
  have hwritten := hothers.written hne (hs.written j)
  have hown := hs.views j
  rw [Db.view, hothers.transactions j hne] at *
  generalize (s.transactions j).written = written at *
  refine ⟨fun g hg h hh hid => ?_, fun g hg h hh c hgc hhc => ?_⟩
  · rcases mem_overlay.mp hg with hg | ⟨hg, hgw⟩
    · rcases mem_overlay.mp hh with hh | ⟨hh, hhw⟩
      · exact hown.id g (mem_overlay.mpr (.inl hg)) h (mem_overlay.mpr (.inl hh)) hid
      · exact absurd (List.mem_map.mpr ⟨g, hg, hid⟩) hhw
    · rcases mem_overlay.mp hh with hh | ⟨hh, hhw⟩
      · exact absurd (List.mem_map.mpr ⟨h, hh, hid.symm⟩) hgw
      · exact hkeys.id g hg h hh hid
  · rcases mem_overlay.mp hg with hg | ⟨hg, hgw⟩
    · rcases mem_overlay.mp hh with hh | ⟨hh, hhw⟩
      · exact hown.context g (mem_overlay.mpr (.inl hg)) h (mem_overlay.mpr (.inl hh)) c hgc hhc
      · exact absurd (((hwritten g hg).2 c hgc).2.2 h hh hhc) hhw
    · rcases mem_overlay.mp hh with hh | ⟨hh, hhw⟩
      · exact absurd (((hwritten h hh).2 c hhc).2.2 g hg hgc) hgw
      · exact hkeys.context g hg h hh c hgc hhc

/-- The end of a transaction, with what it commits. -/
theorem sound_finish (hs : s.Sound) {groups : List OrderGroup} {retirements : List ℕ}
    {returned : List (ℕ × Bool)}
    (hgroups : groups = s.groups ∨ groups = s.view i)
    (hret : retirements = s.retirements ∨ groups = s.groups ∧ ∃ c, s.Held i c ∧ s.Unused c ∧
      retirements = c :: s.retirements)
    (hreturned : ∀ c, (c, true) ∈ returned → c ∈ retirements) :
    (⟨groups, retirements, Locks.release s.locks i, Function.update s.transactions i .idle,
      returned⟩ : Db).Sound := by
  generalize ht : (⟨groups, retirements, Locks.release s.locks i,
    Function.update s.transactions i .idle, returned⟩ : Db) = t
  have htransactions : t.transactions = Function.update s.transactions i .idle := by rw [← ht]
  have htgroups : t.groups = groups := by rw [← ht]
  have htret : t.retirements = retirements := by rw [← ht]
  have htlocks : t.locks = Locks.release s.locks i := by rw [← ht]
  have htreturned : t.returned = returned := by rw [← ht]
  -- a group that is new among the committed ones has been written with its context locked
  have hnew : ∀ g ∈ t.groups, g ∈ s.groups ∨ g ∈ (s.transactions i).written := by
    intro g hg
    rw [htgroups] at hg
    rcases hgroups with hgroups | hgroups
    · exact .inl (hgroups ▸ hg)
    · rw [hgroups] at hg
      rcases mem_overlay.mp hg with hg | hg
      · exact .inr hg
      · exact .inl hg.1
  have hothers : Others s t i := by
    refine ⟨fun j hne => ?_, fun j hne x hx => ?_, fun j hne c hc hheld => ?_, fun c hc => ?_,
      fun j hne g hg c hgc hheld => ?_⟩
    · rw [htransactions]
      exact Function.update_of_ne hne _ _
    · rw [htlocks]
      exact Locks.release_of_held hne hx
    · rw [htret] at hc
      rcases hret with hret | ⟨-, c', hheld', -, hret⟩
      · exact hret ▸ hc
      · rw [hret] at hc
        rcases List.mem_cons.mp hc with rfl | hc
        · exact absurd (Locks.holder_unique hheld hheld') hne
        · exact hc
    · rw [htret]
      rcases hret with hret | ⟨-, c', -, -, hret⟩
      · exact hret ▸ hc
      · rw [hret]
        exact List.mem_cons_of_mem _ hc
    · rcases hnew g hg with hg | hg
      · exact hg
      · exact absurd (Locks.holder_unique hheld ((hs.written i g hg).2 c hgc).1) hne
  have hkeys : Keys t.groups := by
    rw [htgroups]
    rcases hgroups with rfl | rfl
    · exact hs.groups
    · exact hs.views i
  have hself : t.transactions i = .idle := by
    rw [htransactions]
    exact Function.update_self ..
  refine ⟨?_, hkeys, fun j => ?_, fun j => ?_, fun j => ?_, ?_⟩
  · intro c hc g hg hgc
    rw [htret] at hc
    rcases hret with hret | ⟨hsame, c', -, hunused, hret⟩
    · rw [hret] at hc
      rcases hnew g hg with hg | hg
      · exact hs.apart c hc g hg hgc
      · exact ((hs.written i g hg).2 c hgc).2.1 hc
    · rw [htgroups, hsame] at hg
      rw [hret] at hc
      rcases List.mem_cons.mp hc with rfl | hc
      · exact hunused g hg hgc
      · exact hs.apart c hc g hg hgc
  · by_cases hne : j = i
    · subst hne
      rw [Db.view, hself]
      exact (overlay_nil t.groups).symm ▸ hkeys
    · exact keys_view hs hothers hne hkeys
  · by_cases hne : j = i
    · subst hne
      rw [hself]
      intro g hg
      cases hg
    · exact hothers.written hne (hs.written j)
  · by_cases hne : j = i
    · subst hne
      rw [hself]
      trivial
    · exact hothers.place hne (hs.places j)
  · intro c hc
    rw [htreturned] at hc
    rw [htret]
    exact hreturned c hc

/-- A failed transaction keeps its locks and gives up what it has written. -/
theorem sound_failed (hs : s.Sound) : (s.setTransaction i .failed).Sound := by
  have h : (({ s with locks := s.locks } : Db).setTransaction i .failed).Sound :=
    sound_set hs (fun _ _ h => h) ((overlay_nil s.groups).symm ▸ hs.groups)
      (fun g hg => by cases hg) trivial
  exact h

theorem sound_rollback (hs : s.Sound) : (s.finish i).Sound :=
  sound_finish hs (.inl rfl) (.inl rfl) hs.returned

/-! ### The steps -/

theorem sound_advanceRetire (hs : s.Sound) {scope c : ℕ} {found : Bool} {place : RetireAt}
    (htx : s.transactions i = .retire scope c place)
    (h : s.advanceRetire i scope c found place = some t) : t.Sound := by
  have hplace := hs.places i
  rw [htx] at hplace
  have hwritten (place : RetireAt) :
      (Transaction.retire scope c place).written = (s.transactions i).written := by rw [htx]; rfl
  cases place with
  | begun => exact sound_lock hs h (hwritten _) fun _ _ _ => trivial
  | serialized =>
    simp only [Db.advanceRetire] at h
    split at h
    · exact sound_lock hs h (hwritten _) fun _ hlock _ => hlock
    · obtain rfl := Option.some.inj h
      refine sound_finish hs (.inl rfl) (.inl rfl) fun c' hc' => ?_
      rcases List.mem_cons.mp hc' with hc' | hc'
      · cases hc'
      · exact hs.returned c' hc'
  | selected =>
    obtain rfl := Option.some.inj h
    refine sound_setTransaction hs (hwritten _) ?_
    split
    · exact ⟨hplace, fun hrow => by cases hrow⟩
    · exact hplace
  | inserting => exact sound_lock hs h (hwritten _) fun _ hlock _ => hlock
  | guarded =>
    obtain rfl := Option.some.inj h
    split
    · exact sound_failed hs
    · rename_i hunused
      refine sound_setTransaction hs (hwritten _) ⟨hplace, fun g hg hgc => hunused ?_⟩
      exact List.any_eq_true.mpr ⟨g, hg, decide_eq_true hgc⟩
  | checked =>
    simp only [Db.advanceRetire] at h
    split at h
    · split at h
      · obtain rfl := Option.some.inj h
        exact sound_setTransaction hs (hwritten _) ⟨hplace.1, fun hrow => by cases hrow⟩
      · refine sound_lock hs h (hwritten _) fun locks _ hlocks => ?_
        exact ⟨hlocks _ _ hplace.1, fun _ => hplace.2⟩
    · cases h
  | inserted row =>
    obtain rfl := Option.some.inj h
    refine sound_setTransaction hs (hwritten _) ⟨hplace.1, hplace.2, fun hretired => ?_⟩
    simpa only [Bool.or_eq_true, decide_eq_true_eq] using hretired
  | answered row retired => cases h

/-- An intent writes a row whose keys it has checked, with the context locked. -/
theorem sound_write (hs : s.Sound) {written : List OrderGroup} {statement : Statement}
    (htx : s.transactions i = .intent written (.checked statement))
    (hrefused : ¬ s.refused i statement = true)
    (h : s.lock i (.group statement.row.id) (.intent (overlay written [statement.row]) .ready) =
      some t) : t.Sound := by
  have hplace := hs.places i
  have hown := hs.written i
  have hview := hs.views i
  rw [Db.view, htx] at hview
  rw [htx] at hplace hown
  simp only [Db.refused, Db.view, htx, Bool.decide_or, Bool.or_eq_true, decide_eq_true_eq, not_or,
    not_and, List.any_eq_true, Bool.decide_and, Bool.and_eq_true] at hrefused
  obtain ⟨-, hother⟩ := hrefused
  -- no other visible group has the context
  have halone : ∀ g ∈ overlay s.groups written, ∀ c, g.contextPlanId = some c →
      statement.row.contextPlanId = some c → g.id = statement.row.id := by
    intro g hg c hgc hc
    by_contra hne
    exact hother (by rw [hc]; rfl) ⟨g, hg, hne, by rw [hgc, hc]⟩
  have hids : ∀ id, id ∈ (overlay written [statement.row]).map (·.id) ↔
      id = statement.row.id ∨ id ∈ written.map (·.id) := by
    intro id
    simp only [List.mem_map, mem_overlay, List.mem_singleton, List.map_cons, List.map_nil]
    constructor
    · rintro ⟨g, rfl | ⟨hg, -⟩, rfl⟩
      · exact .inl rfl
      · exact .inr ⟨g, hg, rfl⟩
    · rintro (rfl | ⟨g, hg, rfl⟩)
      · exact ⟨_, .inl rfl, rfl⟩
      · by_cases hsame : g.id = statement.row.id
        · exact ⟨_, .inl rfl, hsame.symm⟩
        · exact ⟨g, .inr ⟨hg, hsame⟩, rfl⟩
  have hmem : ∀ g, g ∈ overlay s.groups (overlay written [statement.row]) →
      g = statement.row ∨ g ∈ overlay s.groups written ∧ g.id ≠ statement.row.id := by
    intro g hg
    rcases mem_overlay.mp hg with hg | ⟨hg, hgw⟩
    · rcases mem_overlay.mp hg with hg | ⟨hg, hne⟩
      · exact .inl (List.mem_singleton.mp hg)
      · refine .inr ⟨mem_overlay.mpr (.inl hg), fun hsame => hne ?_⟩
        rw [hsame]
        exact List.mem_singleton_self _
    · rw [hids, not_or] at hgw
      exact .inr ⟨mem_overlay.mpr (.inr ⟨hg, hgw.2⟩), hgw.1⟩
  rw [Db.lock] at h
  split at h
  · rename_i hfree
    obtain rfl := Option.some.inj h
    have hlocks : ∀ x j, s.locks x = some j →
        Locks.acquire s.locks i (.group statement.row.id) x = some j :=
      fun x j => Locks.acquire_of_held hfree
    refine sound_set hs hlocks ⟨fun g hg h hh hid => ?_, fun g hg h hh c hgc hhc => ?_⟩ ?_ trivial
    · rcases hmem g hg with rfl | ⟨hg, hgne⟩
      · rcases hmem h hh with rfl | ⟨hh, hhne⟩
        · rfl
        · exact absurd hid.symm hhne
      · rcases hmem h hh with rfl | ⟨hh, hhne⟩
        · exact absurd hid hgne
        · exact hview.id g hg h hh hid
    · rcases hmem g hg with rfl | ⟨hg, hgne⟩
      · rcases hmem h hh with rfl | ⟨hh, hhne⟩
        · rfl
        · exact absurd (halone h hh c hhc hgc) hhne
      · rcases hmem h hh with rfl | ⟨hh, hhne⟩
        · exact absurd (halone g hg c hgc hhc) hgne
        · exact hview.context g hg h hh c hgc hhc
    · intro g hg
      rcases mem_overlay.mp hg with hg | ⟨hg, -⟩
      · obtain rfl := List.mem_singleton.mp hg
        refine ⟨Locks.acquire_self, fun c hc => ?_⟩
        obtain ⟨hheld, hnot⟩ := hplace c hc
        refine ⟨hlocks _ _ hheld, hnot, fun h hh hhc => (hids _).mpr ?_⟩
        by_contra hne
        rw [not_or] at hne
        exact hne.1 (halone h (mem_overlay.mpr (.inr ⟨hh, hne.2⟩)) c hhc hc)
      · obtain ⟨hlock, hcontext⟩ := hown g hg
        refine ⟨hlocks _ _ hlock, fun c hc => ?_⟩
        obtain ⟨hheld, hnot, hused⟩ := hcontext c hc
        exact ⟨hlocks _ _ hheld, hnot, fun h hh hhc => (hids _).mpr (.inr (hused h hh hhc))⟩
  · cases h

theorem sound_advanceIntent (hs : s.Sound) {written : List OrderGroup} {place : IntentAt}
    (htx : s.transactions i = .intent written place)
    (h : s.advanceIntent i written place = some t) : t.Sound := by
  have hplace := hs.places i
  rw [htx] at hplace
  have hwritten (place : IntentAt) :
      (Transaction.intent written place).written = (s.transactions i).written := by rw [htx]; rfl
  cases place with
  | ready => cases h
  | started statement =>
    simp only [Db.advanceIntent] at h
    split at h
    · rename_i hnone
      obtain rfl := Option.some.inj h
      refine sound_setTransaction hs (hwritten _) fun c hc => ?_
      rw [hnone] at hc
      cases hc
    · rename_i c hc
      exact sound_lock hs h (hwritten _) fun _ hlock _ => ⟨hlock, hc⟩
  | guarded statement c =>
    obtain rfl := Option.some.inj h
    split
    · exact sound_failed hs
    · rename_i hnot
      refine sound_setTransaction hs (hwritten _) fun c' hc' => ?_
      rw [hplace.2] at hc'
      obtain rfl := Option.some.inj hc'
      exact ⟨hplace.1, hnot⟩
  | checked statement =>
    simp only [Db.advanceIntent] at h
    split at h
    · cases h
    · split at h
      · obtain rfl := Option.some.inj h
        exact sound_failed hs
      · rename_i hrefused
        split at h
        · exact sound_write hs htx hrefused h
        · obtain rfl := Option.some.inj h
          exact sound_setTransaction hs (hwritten _) trivial

theorem sound_commit (hs : s.Sound) (h : s.step (.commit i) = some t) : t.Sound := by
  have hplace := hs.places i
  simp only [Db.step] at h
  split at h
  · rename_i scope c row retired htx
    obtain rfl := Option.some.inj h
    rw [htx] at hplace
    obtain ⟨hheld, hunused, hretired⟩ := hplace
    refine sound_finish hs (.inl rfl) ?_ fun c' hc' => ?_
    · cases row with
      | false => exact .inl rfl
      | true => exact .inr ⟨rfl, c, hheld, hunused rfl, rfl⟩
    · rcases List.mem_cons.mp hc' with hc' | hc'
      · cases hc'
        rcases hretired rfl with rfl | hmem
        · exact List.mem_cons_self
        · split
          · exact List.mem_cons_of_mem _ hmem
          · exact hmem
      · have hmem := hs.returned c' hc'
        split
        · exact List.mem_cons_of_mem _ hmem
        · exact hmem
  · obtain rfl := Option.some.inj h
    exact sound_finish hs (.inr rfl) (.inl rfl) hs.returned
  · cases h

theorem sound_step {a : Action} (hs : s.Sound) (h : s.step a = some t) : t.Sound := by
  cases a with
  | retire i scope c =>
    simp only [Db.step] at h
    split at h
    · rename_i htx
      obtain rfl := Option.some.inj h
      refine sound_setTransaction hs ?_ trivial
      rw [htx]
      rfl
    · cases h
  | intent i =>
    simp only [Db.step] at h
    split at h
    · rename_i htx
      obtain rfl := Option.some.inj h
      refine sound_setTransaction hs ?_ trivial
      rw [htx]
      rfl
    · cases h
  | statement i statement =>
    simp only [Db.step] at h
    split at h
    · rename_i written htx
      obtain rfl := Option.some.inj h
      refine sound_setTransaction hs ?_ trivial
      rw [htx]
      rfl
    · cases h
  | advance i found =>
    simp only [Db.step] at h
    split at h
    · rename_i htx
      exact sound_advanceRetire hs htx h
    · rename_i htx
      exact sound_advanceIntent hs htx h
    · cases h
  | commit i => exact sound_commit hs h
  | fail i =>
    obtain rfl := Option.some.inj h
    exact sound_failed hs
  | rollback i =>
    obtain rfl := Option.some.inj h
    exact sound_rollback hs

theorem sound_initial : Db.initial.Sound := by
  refine ⟨?_, ⟨?_, ?_⟩, fun _ => ⟨?_, ?_⟩, ?_, fun _ => trivial, ?_⟩
  · intro c hc
    cases hc
  · intro g hg
    cases hg
  · intro g hg
    cases hg
  · intro g hg
    cases hg
  · intro g hg
    cases hg
  · intro i g hg
    cases hg
  · intro c hc
    cases hc

/-- In every state that retirements and intents reach together, no context is both retired and used,
    no context is used by two groups, and a context whose retirement has returned true is retired
    and unused, from that commit on. -/
theorem retirement_of_run {es : List Action} (hrun : Transition.run Db.step Db.initial es = some s) :
    (∀ c ∈ s.retirements, ∀ g ∈ s.groups, g.contextPlanId ≠ some c) ∧
    (∀ g ∈ s.groups, ∀ h ∈ s.groups, ∀ c, g.contextPlanId = some c → h.contextPlanId = some c →
      g = h) ∧
    ∀ c, (c, true) ∈ s.returned →
      c ∈ s.retirements ∧ ∀ g ∈ s.groups, g.contextPlanId ≠ some c := by
  have hs : s.Sound := Transition.invariant (fun s e t hs h => sound_step hs h) sound_initial hrun
  refine ⟨hs.apart, hs.groups.context, fun c hc => ?_⟩
  have hretired := hs.returned c hc
  exact ⟨hretired, hs.apart c hretired⟩

namespace Sample

/-- An intent arrives while the context is being retired and waits for its row. -/
def lateIntent : List Action := [.intent 1, .retire 0 0 5, .advance 0 true, .advance 0 true,
  .statement 1 ⟨true, 9, some 5⟩, .advance 0 true, .advance 0 true, .advance 0 true,
  .advance 0 true, .advance 0 true, .commit 0, .advance 1 true, .advance 1 true, .rollback 1,
  .intent 1, .statement 1 ⟨true, 9, some 6⟩, .advance 1 true, .advance 1 true, .advance 1 true,
  .commit 1]

theorem retirement_of_run_lateIntent : ∃ s, Transition.run Db.step Db.initial lateIntent = some s ∧
    s.groups = [⟨9, some 6⟩] ∧ s.returned = [(5, true)] ∧ 5 ∈ s.retirements := by
  have hend : ((Transition.run Db.step Db.initial lateIntent).map
      fun s => (s.groups, s.returned)) = some ([⟨9, some 6⟩], [(5, true)]) := by decide
  obtain ⟨s, hrun, hs⟩ := Option.map_eq_some_iff.mp hend
  obtain ⟨hgroups, hreturned⟩ := Prod.mk.inj hs
  refine ⟨s, hrun, hgroups, hreturned, ((retirement_of_run hrun).2.2 5 ?_).1⟩
  rw [hreturned]
  exact List.mem_singleton_self _

end Sample

end ScalpingBot.Context
