import Mathlib.Data.List.Chain
import Mathlib.Data.List.Nodup
import ScalpingBot.Execution.DemoTrials

/-! What the rows of `demo_trials` go through, whichever controllers write them, and what the trials
    are registered for. -/

namespace ScalpingBot.Trials

open DemoTrials TrialSystem

/-! ### The history of a trial -/

/-- What registration fixes. -/
def Trial.identity (t : Trial) :=
  (t.id, t.strategyVersionId, t.sourceSha256, t.catalogueSha256, t.profileId, t.cycle, t.ordinal,
    t.registeredAt, t.startsAt, t.modeRevision)

/-- The versions of a row, from the oldest on. -/
def TrialTables.history (db : TrialTables) (id : ℕ) : List Trial := db.written.filter (·.id = id)

/-- A trial moves on from one state to the next, or stays. -/
inductive Moves : TrialState → TrialState → Prop
  | active : Moves .active .active
  | drain : Moves .active .draining
  | draining : Moves .draining .draining
  | complete : Moves .draining .completed

/-- The market-open time of the interval between two consecutive observations, in milliseconds as
    the clock is read: none unless both say open, at most 30 seconds apart; and none before the
    start. -/
def openTime (a b : Trial) : ℕ :=
  if b.observedAt - a.observedAt ≤ 30000000 ∧ a.lastSessionState = .open ∧
      b.lastSessionState = .open then
    getTime b.observedAt - max (getTime a.observedAt) (getTime a.startsAt)
  else 0

/-- The market-open time of a history. -/
def totalOpenTime : List Trial → ℕ
  | a :: b :: rest => openTime a b + totalOpenTime (b :: rest)
  | _ => 0

/-- What one write to a row does. -/
structure Follows (a b : Trial) : Prop where
  identity : b.identity = a.identity
  moves : Moves a.state b.state
  later : a.observedAt ≤ b.observedAt
  credit : b.marketOpenMs ≤ a.marketOpenMs + openTime a b

theorem marketOpenMs_le {a : Trial} {rest : List Trial} (h : (a :: rest).IsChain Follows) :
    ((a :: rest).getLast (List.cons_ne_nil a rest)).marketOpenMs ≤
      a.marketOpenMs + totalOpenTime (a :: rest) := by
  induction rest generalizing a with
  | nil => simp
  | cons b rest ih =>
    obtain ⟨hfollows, hrest⟩ := List.isChain_cons_cons.mp h
    have hcredit := hfollows.credit
    have hlast := ih hrest
    rw [List.getLast_cons (List.cons_ne_nil b rest), totalOpenTime]
    omega

/-- Each row is the last version of its history, which begins with a registration. -/
structure Kept (db : TrialTables) : Prop where
  nodup : (db.trials.map (·.id)).Nodup
  known : ∀ t ∈ db.written, ∃ r ∈ db.trials, r.id = t.id
  history : ∀ t ∈ db.trials, ∃ first rest, db.history t.id = first :: rest ∧
    (first :: rest).getLast? = some t ∧ (first :: rest).IsChain Follows ∧
    first.state = .active ∧ first.marketOpenMs = 0

theorem trial_eq_some {db : TrialTables} {id : ℕ} {t : Trial} (h : db.trial id = some t) :
    t ∈ db.trials ∧ t.id = id :=
  ⟨List.mem_of_find?_eq_some h, by simpa using List.find?_some h⟩

/-- Rows are told apart by their ids. -/
theorem Kept.eq_of_id {db : TrialTables} (h : Kept db) {s t : Trial} (hs : s ∈ db.trials)
    (ht : t ∈ db.trials) (hid : s.id = t.id) : s = t :=
  List.inj_on_of_nodup_map h.nodup hs ht hid

/-- What an update does. -/
theorem updateTrial_cases {db db' : TrialTables} {canComplete : Bool} {id : ℕ} {p : Trial → Bool}
    {f : Trial → Trial} (h : db.updateTrial canComplete id p f = .ok db') :
    db' = db ∨ ∃ old, db.trial id = some old ∧ p old ∧
      TrialTables.guardDemoTrialProgress canComplete old (f old) ∧ db' = {
        db with
        trials := db.trials.map fun t => if t.id = id then f t else t
        written := db.written ++ [f old] } := by
  rw [TrialTables.updateTrial] at h
  split at h
  · exact .inl (Except.ok.inj h).symm
  rename_i old hold
  split at h
  · rename_i hp
    simp only [bind_ok, pure_ok, require_ok] at h
    obtain ⟨-, hguard, rfl⟩ := h
    exact .inr ⟨old, hold, hp, hguard, rfl⟩
  · exact .inl (Except.ok.inj h).symm

theorem Trial.identity_id {s t : Trial} (h : s.identity = t.identity) : s.id = t.id :=
  congrArg Prod.fst h

/-- A row is updated by the rules. -/
theorem Kept.update {db : TrialTables} (h : Kept db) {id : ℕ} {old : Trial} {f : Trial → Trial}
    (hold : db.trial id = some old) (hf : ∀ t, (f t).identity = t.identity)
    (hfollows : Follows old (f old)) : Kept {
      db with
      trials := db.trials.map fun t => if t.id = id then f t else t
      written := db.written ++ [f old] } := by
  obtain ⟨hmem, rfl⟩ := trial_eq_some hold
  have hid (t : Trial) : (if t.id = old.id then f t else t).id = t.id := by
    split
    · exact Trial.identity_id (hf t)
    · rfl
  have hmap : (db.trials.map fun t => if t.id = old.id then f t else t).map (·.id) =
      db.trials.map (·.id) := by
    rw [List.map_map]
    exact List.map_congr_left fun t _ => hid t
  refine ⟨?_, ?_, ?_⟩
  · rw [hmap]
    exact h.nodup
  · intro t ht
    have hrow : ∃ r ∈ db.trials, r.id = t.id := by
      rcases List.mem_append.mp ht with ht | ht
      · exact h.known t ht
      · rw [List.mem_singleton.mp ht]
        exact ⟨old, hmem, (Trial.identity_id (hf old)).symm⟩
    obtain ⟨r, hr, hrid⟩ := hrow
    exact ⟨_, List.mem_map_of_mem hr, (hid r).trans hrid⟩
  · intro t ht
    obtain ⟨r, hr, rfl⟩ := List.mem_map.mp ht
    obtain ⟨first, rest, hhistory, hlast, hchain, hactive, hzero⟩ := h.history r hr
    by_cases hsame : r.id = old.id
    · obtain rfl := h.eq_of_id hr hmem hsame
      rw [if_pos rfl]
      have hnext : (TrialTables.history { db with written := db.written ++ [f r] } (f r).id) =
          first :: (rest ++ [f r]) := by
        rw [Trial.identity_id (hf r)]
        simp only [TrialTables.history, List.filter_append, ← List.cons_append, ← hhistory]
        simp [Trial.identity_id (hf r)]
      refine ⟨first, rest ++ [f r], hnext, ?_, ?_, hactive, hzero⟩
      · rw [← List.cons_append, List.getLast?_append]
        rfl
      · rw [← List.cons_append, List.isChain_append]
        refine ⟨hchain, List.isChain_singleton _, ?_⟩
        intro s hs u hu
        rw [hlast] at hs
        obtain rfl := Option.some.inj hs
        obtain rfl := Option.some.inj hu
        exact hfollows
    · rw [if_neg hsame]
      refine ⟨first, rest, ?_, hlast, hchain, hactive, hzero⟩
      rw [← hhistory]
      simp [TrialTables.history, List.filter_append, Trial.identity_id (hf old), Ne.symm hsame]

/-- A row is registered under a new id. -/
theorem Kept.insert {db : TrialTables} (h : Kept db) {t : Trial} (hnew : db.trial t.id = none)
    (hactive : t.state = .active) (hzero : t.marketOpenMs = 0) :
    Kept { db with trials := db.trials ++ [t], written := db.written ++ [t] } := by
  have hfresh : ∀ r ∈ db.trials, r.id ≠ t.id := by
    simpa [TrialTables.trial] using hnew
  have hunwritten : db.history t.id = [] := by
    rw [TrialTables.history, List.filter_eq_nil_iff]
    intro w hw hid
    obtain ⟨r, hr, hrid⟩ := h.known w hw
    exact hfresh r hr (hrid.trans (by simpa using hid))
  refine ⟨?_, ?_, ?_⟩
  · rw [List.map_append, List.nodup_append]
    refine ⟨h.nodup, by simp, ?_⟩
    intro a ha b hb hab
    obtain ⟨r, hr, rfl⟩ := List.mem_map.mp ha
    obtain rfl := List.mem_singleton.mp hb
    exact hfresh r hr hab
  · intro w hw
    rcases List.mem_append.mp hw with hw | hw
    · obtain ⟨r, hr, hid⟩ := h.known w hw
      exact ⟨r, List.mem_append_left _ hr, hid⟩
    · exact ⟨t, by simp, by rw [List.mem_singleton.mp hw]⟩
  · intro r hr
    rcases List.mem_append.mp hr with hr | hr
    · obtain ⟨first, rest, hhistory, hlaws⟩ := h.history r hr
      refine ⟨first, rest, ?_, hlaws⟩
      rw [← hhistory]
      simp [TrialTables.history, List.filter_append, Ne.symm (hfresh r hr)]
    · obtain rfl := List.mem_singleton.mp hr
      refine ⟨r, [], ?_, rfl, List.isChain_singleton _, hactive, hzero⟩
      rw [TrialTables.history] at hunwritten ⊢
      rw [List.filter_append, hunwritten]
      simp

/-- Only these two columns of the tables matter. -/
theorem Kept.congr {db db' : TrialTables} (h : Kept db) (htrials : db'.trials = db.trials)
    (hwritten : db'.written = db.written) : Kept db' := by
  obtain ⟨hnodup, hknown, hhistory⟩ := h
  refine ⟨?_, ?_, ?_⟩
  · rw [htrials]
    exact hnodup
  · rw [htrials, hwritten]
    exact hknown
  · rw [htrials]
    unfold TrialTables.history
    rw [hwritten]
    exact hhistory

/-! ### What each write does -/

/-- An observation credits at most the time up to its reading of the clock. -/
theorem elapsed_le (observed : Bool) (o : Observation) (row : Trial) :
    elapsed observed o row ≤ getTime o.now - max (getTime row.observedAt) (getTime row.startsAt) := by
  rw [elapsed, trialOpenCredit]
  split
  · omega
  · exact Nat.zero_le _

theorem getTime_mono {s t : ℕ} (h : s ≤ t) : getTime s ≤ getTime t := Nat.div_le_div_right h

/-- An observation that the table accepts moves a trial on, and credits no more than the open time
    of its interval. -/
theorem follows_observedRow {observed : Bool} {o : Observation} {row : Trial} {canComplete : Bool}
    (hguard : TrialTables.guardDemoTrialProgress canComplete row (observedRow observed o row)) :
    Follows row (observedRow observed o row) := by
  simp only [TrialTables.guardDemoTrialProgress, Bool.decide_and, Bool.and_eq_true,
    decide_eq_true_eq] at hguard
  obtain ⟨hopen, hlater, hcredited, -, -, hforward, -⟩ := hguard
  refine ⟨rfl, ?_, hlater, ?_⟩
  · have hstate : (observedRow observed o row).state = .active ∨
        (observedRow observed o row).state = .draining := by
      rw [observedRow]
      dsimp only
      split
      · exact .inr rfl
      · exact .inl rfl
    cases hrow : row.state with
    | active => rcases hstate with hs | hs <;> rw [hs] <;> constructor
    | draining =>
      rw [hstate.resolve_left (hforward hrow)]
      exact .draining
    | completed => exact absurd hrow hopen
  · have helapsed := elapsed_le observed o row
    have hclock := getTime_mono (Nat.le_add_right o.now o.delay)
    show row.marketOpenMs + elapsed observed o row ≤ _
    by_cases hzero : elapsed observed o row = 0
    · omega
    obtain ⟨hnew, hold, hgap, -⟩ := hcredited (show row.marketOpenMs <
      row.marketOpenMs + elapsed observed o row by omega)
    rw [openTime, if_pos ⟨hgap, hold, hnew⟩]
    show _ ≤ row.marketOpenMs + (getTime (o.now + o.delay) - _)
    omega

/-- A write that credits nothing. -/
theorem follows_uncredited {old new : Trial} {canComplete : Bool}
    (hguard : TrialTables.guardDemoTrialProgress canComplete old new)
    (hidentity : new.identity = old.identity) (hmoves : Moves old.state new.state)
    (hcredit : new.marketOpenMs = old.marketOpenMs) : Follows old new := by
  simp only [TrialTables.guardDemoTrialProgress, Bool.decide_and, Bool.and_eq_true,
    decide_eq_true_eq] at hguard
  obtain ⟨-, hlater, -⟩ := hguard
  exact ⟨hidentity, hmoves, hlater, hcredit ▸ Nat.le_add_right _ _⟩

/-- An update keeps the rows, and each row its identity. -/
theorem Kept.updated {db db' : TrialTables} (h : Kept db) {canComplete : Bool} {id : ℕ}
    {p : Trial → Bool} {f : Trial → Trial} (hupdate : db.updateTrial canComplete id p f = .ok db')
    (hf : ∀ t, (f t).identity = t.identity)
    (hfollows : ∀ old, p old → TrialTables.guardDemoTrialProgress canComplete old (f old) →
      Follows old (f old)) : Kept db' := by
  rcases updateTrial_cases hupdate with rfl | ⟨old, hold, hp, hguard, rfl⟩
  · exact h
  · exact h.update hold hf (hfollows old hp hguard)

theorem kept_drain {c : DemoTrials} {k : Switch} {row : Trial} {db db' : TrialTables}
    (h : Kept db) (hdrain : c.drain k row db = .ok db') : Kept db' := by
  have hevents : Kept { db with events := db.events ++ [(row.id, .sourceHandoverRequested
      row.sourceSha256 c.sourceSha256 c.version c.catalogueDigest)] } := h.congr rfl rfl
  refine hevents.updated hdrain (fun _ => rfl) fun old hactive hguard => ?_
  refine follows_uncredited hguard rfl ?_ rfl
  rw [of_decide_eq_true hactive]
  exact .drain

theorem kept_complete {k : Switch} {handover : Bool} {row : Trial} {db db' : TrialTables}
    (h : Kept db) (hcomplete : complete k handover row db = .ok db') : Kept db' := by
  refine h.updated hcomplete (fun _ => rfl) fun old hdraining hguard => ?_
  refine follows_uncredited hguard rfl ?_ rfl
  rw [of_decide_eq_true hdraining]
  exact .complete

/-! ### Registrations -/

/-- How many slots a cycle has in the catalogue of a trial. -/
def Trial.slots (t : Trial) : ℕ := if t.catalogueSha256 = trendCatalogueSha256 then 4 else 13

/-- The slot after that of a trial. -/
def Trial.successor (t : Trial) : ℕ × ℕ :=
  if t.ordinal + 1 = t.slots then (t.cycle + 1, 0) else (t.cycle, t.ordinal + 1)

/-- What a registration means: the trial takes the slot after that of the head that it replaces, or
    the first slot of the next cycle when the source of a reviewed predecessor is handed over. -/
structure Registration.Succeeds (p r : Registration) : Prop where
  replaced : ∃ row, r.replaced = some row ∧ row.identity = p.trial.identity
  same : r.handover = false → r.trial.sourceSha256 = p.trial.sourceSha256 ∧
    r.trial.catalogueSha256 = p.trial.catalogueSha256 ∧
    (r.trial.cycle, r.trial.ordinal) = p.trial.successor
  handover : r.handover = true →
    p.trial.sourceSha256 ∈ [trendPredecessorSource, trendClockPredecessorSource] ∧
    r.trial.catalogueSha256 = trendCatalogueSha256 ∧
    (r.trial.cycle, r.trial.ordinal) = (p.trial.cycle + 1, 0)

/-- Rows stay, with their identities. -/
def Grows (db db' : TrialTables) : Prop :=
  ∀ t ∈ db.trials, ∃ t' ∈ db'.trials, t'.identity = t.identity

theorem Grows.refl (db : TrialTables) : Grows db db := fun t ht => ⟨t, ht, rfl⟩

theorem Grows.trans {a b c : TrialTables} (h : Grows a b) (h' : Grows b c) : Grows a c := by
  intro t ht
  obtain ⟨t₁, ht₁, heq₁⟩ := h t ht
  obtain ⟨t₂, ht₂, heq₂⟩ := h' t₁ ht₁
  exact ⟨t₂, ht₂, heq₂.trans heq₁⟩

/-- What an update leaves alone. -/
structure Untouched (db db' : TrialTables) : Prop where
  head : db'.head = db.head
  registrations : db'.registrations = db.registrations
  grows : Grows db db'

theorem Untouched.refl (db : TrialTables) : Untouched db db :=
  ⟨rfl, rfl, .refl db⟩

theorem Untouched.trans {a b c : TrialTables} (h : Untouched a b) (h' : Untouched b c) :
    Untouched a c :=
  ⟨h'.head.trans h.head, h'.registrations.trans h.registrations, h.grows.trans h'.grows⟩

theorem untouched_update {db db' : TrialTables} {canComplete : Bool} {id : ℕ} {p : Trial → Bool}
    {f : Trial → Trial} (h : db.updateTrial canComplete id p f = .ok db')
    (hf : ∀ t, (f t).identity = t.identity) : Untouched db db' := by
  rcases updateTrial_cases h with rfl | ⟨old, -, -, -, rfl⟩
  · exact .refl _
  have hsame (t : Trial) : (if t.id = id then f t else t).identity = t.identity := by
    split
    · exact hf t
    · rfl
  exact ⟨rfl, rfl, fun t ht => ⟨_, List.mem_map_of_mem ht, hsame t⟩⟩

/-- The registrations of a scope, in order. -/
structure Registered (db : TrialTables) : Prop where
  chain : db.registrations.IsChain Registration.Succeeds
  first : ∀ r ∈ db.registrations.head?, r.replaced = none ∧
    (r.trial.cycle, r.trial.ordinal) = (0, 0)
  head : db.head = db.registrations.getLast?.map (·.trial.id)
  rows : ∀ r ∈ db.registrations, ∃ t ∈ db.trials, t.identity = r.trial.identity
  ordinals : ∀ r ∈ db.registrations, r.trial.ordinal < r.trial.slots

theorem Registered.congr {db db' : TrialTables} (h : Registered db) (hu : Untouched db db') :
    Registered db' := by
  obtain ⟨hchain, hfirst, hhead, hrows, hordinals⟩ := h
  refine ⟨?_, ?_, ?_, ?_, ?_⟩
  · rw [hu.registrations]
    exact hchain
  · rw [hu.registrations]
    exact hfirst
  · rw [hu.registrations, hu.head]
    exact hhead
  · rw [hu.registrations]
    intro r hr
    obtain ⟨t, ht, heq⟩ := hrows r hr
    obtain ⟨t', ht', heq'⟩ := hu.grows t ht
    exact ⟨t', ht', heq'.trans heq⟩
  · rw [hu.registrations]
    exact hordinals

/-- What a controller that waits for the broker remembers of the head. -/
structure Remembers (versionOf : ℕ → String) (c : DemoTrials) (db : TrialTables) (s : Snapshot) :
    Prop where
  row : ∀ row, s.row = some row → (∃ t ∈ db.trials, t.identity = row.identity) ∧
    (s.handover = false → row.sourceSha256 = c.sourceSha256 ∧
      row.catalogueSha256 = c.catalogueDigest) ∧
    (s.handover = true → c.handsOver versionOf row = true)
  none : s.row = none → s.handover = false

theorem Remembers.grows {versionOf : ℕ → String} {c : DemoTrials} {db db' : TrialTables}
    {s : Snapshot} (h : Remembers versionOf c db s) (hg : Grows db db') :
    Remembers versionOf c db' s := by
  refine ⟨fun row hrow => ?_, h.none⟩
  obtain ⟨⟨t, ht, heq⟩, hsource, hhandover⟩ := h.row row hrow
  obtain ⟨t', ht', heq'⟩ := hg t ht
  exact ⟨⟨t', ht', heq'.trans heq⟩, hsource, hhandover⟩

theorem slots_of_catalogue {c : DemoTrials} {t : Trial}
    (h : t.catalogueSha256 = c.catalogueDigest) : t.slots = c.slots := by
  rw [Trial.slots, h, catalogueDigest, slots]
  cases c.trend
  · exact if_neg (by decide)
  · exact if_pos rfl

theorem slots_pos (c : DemoTrials) : 0 < c.slots := by
  rw [slots]
  split <;> decide

/-- The slot that a controller takes next. -/
theorem nextSlot_lt (c : DemoTrials) (s : Snapshot) : (c.nextSlot s).2 < c.slots := by
  rw [nextSlot]
  split
  · exact slots_pos c
  · dsimp only
    split
    · exact slots_pos c
    · exact Nat.mod_lt _ (slots_pos c)

theorem nextSlot_successor {c : DemoTrials} {s : Snapshot} {row : Trial} (hrow : s.row = some row)
    (hsame : s.handover = false) (hcatalogue : row.catalogueSha256 = c.catalogueDigest)
    (hordinal : row.ordinal < row.slots) : c.nextSlot s = row.successor := by
  have hslots := slots_of_catalogue hcatalogue
  rw [nextSlot, hrow, hsame, Trial.successor]
  dsimp only
  rw [if_neg Bool.false_ne_true, ← hslots]
  by_cases hlast : row.ordinal + 1 = row.slots
  · rw [if_pos hlast, hlast, Nat.mod_self, if_pos rfl]
  · have hlt : row.ordinal + 1 < row.slots := by omega
    rw [if_neg hlast, Nat.mod_eq_of_lt hlt, if_neg (Nat.succ_ne_zero row.ordinal), Nat.add_zero]

theorem nextSlot_handover {c : DemoTrials} {s : Snapshot} {row : Trial} (hrow : s.row = some row)
    (hhandover : s.handover = true) : c.nextSlot s = (row.cycle + 1, 0) := by
  simp [nextSlot, hrow, hhandover]

theorem identity_eq {s t : Trial} (h : s.identity = t.identity) : s.id = t.id ∧
    s.sourceSha256 = t.sourceSha256 ∧ s.catalogueSha256 = t.catalogueSha256 ∧ s.cycle = t.cycle ∧
    s.ordinal = t.ordinal ∧ s.startsAt = t.startsAt := by
  simp only [Trial.identity, Prod.mk.injEq] at h
  obtain ⟨hid, -, hsource, hcatalogue, -, hcycle, hordinal, -, hstarts, -⟩ := h
  exact ⟨hid, hsource, hcatalogue, hcycle, hordinal, hstarts⟩

theorem successor_of_identity {s t : Trial} (h : s.identity = t.identity) :
    s.slots = t.slots ∧ s.successor = t.successor := by
  obtain ⟨-, -, hcatalogue, hcycle, hordinal, -⟩ := identity_eq h
  have hslots : s.slots = t.slots := by rw [Trial.slots, Trial.slots, hcatalogue]
  exact ⟨hslots, by rw [Trial.successor, Trial.successor, hslots, hcycle, hordinal]⟩

/-- The row under the id of a row. -/
theorem Kept.trial_of_mem {db : TrialTables} (h : Kept db) {t : Trial} (ht : t ∈ db.trials) :
    db.trial t.id = some t := by
  cases hfound : db.trial t.id with
  | none =>
    have hnone : ∀ r ∈ db.trials, ¬ r.id = t.id := by
      simpa [TrialTables.trial] using hfound
    exact absurd rfl (hnone t ht)
  | some r =>
    obtain ⟨hr, hid⟩ := trial_eq_some hfound
    rw [h.eq_of_id hr ht hid]

/-- The head that a controller remembers is the trial registered last. -/
theorem remembered_head {versionOf : ℕ → String} {c : DemoTrials} {s : Snapshot} {db : TrialTables}
    (hkept : Kept db) (hreg : Registered db) (hremembers : Remembers versionOf c db s)
    (hhead : db.head = s.row.map (·.id)) {p : Registration}
    (hp : db.registrations.getLast? = some p) :
    ∃ row t, s.row = some row ∧ row.identity = p.trial.identity ∧ db.headRow = some t ∧
      t.identity = p.trial.identity := by
  have hlast := hreg.head
  rw [hhead, hp] at hlast
  obtain ⟨row, hrow, hid⟩ := Option.map_eq_some_iff.mp hlast
  obtain ⟨⟨t, ht, heq⟩, -⟩ := hremembers.row row hrow
  obtain ⟨t', ht', heq'⟩ := hreg.rows p (List.mem_of_getLast? hp)
  have hsame : t = t' := hkept.eq_of_id ht ht'
    ((Trial.identity_id heq).trans (hid.trans (Trial.identity_id heq').symm))
  subst hsame
  refine ⟨row, t, hrow, heq.symm.trans heq', ?_, heq'⟩
  rw [TrialTables.headRow, hhead, hrow]
  show db.trial row.id = some t
  rw [← Trial.identity_id heq]
  exact hkept.trial_of_mem ht

/-- What registering a trial does to the tables. -/
theorem register_ok {c : DemoTrials} {k : Switch} {s : Snapshot} {replaced : Option Trial}
    {mode : ModeSetting} {db db' : TrialTables} (h : c.register k s replaced mode db = .ok db') :
    ∃ profile revision, db.trial k.id = none ∧ db'.trials = db.trials ++ [c.newTrial k profile
      (c.nextSlot s) revision] ∧ db'.written = db.written ++ [c.newTrial k profile (c.nextSlot s)
      revision] ∧ db'.head = some k.id ∧ db'.registrations = db.registrations ++ [⟨replaced,
      c.newTrial k profile (c.nextSlot s) revision, s.handover⟩] := by
  simp only [register, bind_ok] at h
  obtain ⟨profileId, -, h⟩ := h
  split at h
  · cases h
  rename_i profile _
  simp only [bind_ok, pure_ok, TrialTables.insertTrial, require_ok] at h
  obtain ⟨inserted, ⟨-, hnew, -, -, -, -, -, -, -, -, rfl⟩, rfl⟩ := h
  exact ⟨profile, _, hnew, rfl, rfl, rfl, rfl⟩

/-- The registration of the next trial, after the head has been completed. -/
theorem registered_register {versionOf : ℕ → String} {c : DemoTrials} {k : Switch} {s : Snapshot}
    {mode : ModeSetting} {db db₁ db' : TrialTables} (hkept : Kept db) (hreg : Registered db)
    (hremembers : Remembers versionOf c db s) (hhead : db.head = s.row.map (·.id))
    (hu : Untouched db db₁) (h : c.register k s db.headRow mode db₁ = .ok db') :
    Registered db' := by
  obtain ⟨profile, revision, hnew, htrials, -, hhead', hregistrations⟩ := register_ok h
  obtain ⟨hchain, hfirst, -, hrows, hordinals⟩ := hreg.congr hu
  refine ⟨?_, ?_, ?_, ?_, ?_⟩
  · rw [hregistrations, List.isChain_append]
    refine ⟨hchain, List.isChain_singleton _, ?_⟩
    intro p hp r hr
    rw [hu.registrations] at hp
    obtain rfl := Option.some.inj hr
    obtain ⟨row, t, hrow, heq, hheadRow, heq'⟩ :=
      remembered_head hkept hreg hremembers hhead (Option.mem_def.mp hp)
    obtain ⟨-, hsame, hhandover⟩ := hremembers.row row hrow
    obtain ⟨-, hsource, hcatalogue, hcycle, -⟩ := identity_eq heq
    obtain ⟨hslots, hsuccessor⟩ := successor_of_identity heq
    refine ⟨⟨t, hheadRow, heq'⟩, fun hno => ?_, fun hyes => ?_⟩
    · obtain ⟨hsource', hcatalogue'⟩ := hsame hno
      refine ⟨hsource'.symm.trans hsource, hcatalogue'.symm.trans hcatalogue, ?_⟩
      have hordinal : row.ordinal < row.slots := by
        rw [hslots, (identity_eq heq).2.2.2.2.1]
        exact hreg.ordinals p (List.mem_of_getLast? (Option.mem_def.mp hp))
      exact (nextSlot_successor hrow hno hcatalogue' hordinal).trans hsuccessor
    · have hover := hhandover hyes
      simp only [handsOver, decide_eq_true_eq] at hover
      obtain ⟨htrend, hpredecessor⟩ := hover
      refine ⟨?_, ?_, ?_⟩
      · rw [← hsource]
        rcases hpredecessor with ⟨-, hsha, -⟩ | ⟨-, hsha, -⟩ <;> rw [hsha] <;> simp
      · show c.catalogueDigest = _
        rw [catalogueDigest, htrend, if_pos rfl]
      · rw [← hcycle]
        exact nextSlot_handover hrow hyes
  · rw [hregistrations]
    intro r hr
    rcases hempty : db₁.registrations with _ | ⟨p, rest⟩
    · rw [hempty] at hr
      obtain rfl := Option.some.inj hr
      have hnone : s.row = none := by
        have hlast := hreg.head
        rw [← hu.registrations, hempty, hhead] at hlast
        simpa using hlast
      refine ⟨?_, ?_⟩
      · rw [TrialTables.headRow, hhead, hnone]
        rfl
      · show c.nextSlot s = (0, 0)
        rw [nextSlot, hnone]
    · rw [hempty] at hr hfirst
      exact hfirst r hr
  · rw [hregistrations, hhead', List.getLast?_append]
    rfl
  · rw [hregistrations, htrials]
    intro r hr
    rcases List.mem_append.mp hr with hr | hr
    · obtain ⟨t, ht, heq⟩ := hrows r hr
      exact ⟨t, List.mem_append_left _ ht, heq⟩
    · obtain rfl := List.mem_singleton.mp hr
      exact ⟨_, List.mem_append_right _ (List.mem_singleton_self _), rfl⟩
  · rw [hregistrations]
    intro r hr
    rcases List.mem_append.mp hr with hr | hr
    · exact hordinals r hr
    · obtain rfl := List.mem_singleton.mp hr
      dsimp only
      rw [slots_of_catalogue (c := c) rfl]
      exact nextSlot_lt c s

/-! ### Transactions -/

theorem headRow_mem {db : TrialTables} {row : Trial} (h : db.headRow = some row) :
    row ∈ db.trials := by
  obtain ⟨id, -, hrow⟩ := Option.bind_eq_some_iff.mp h
  exact (trial_eq_some hrow).1

theorem firstTransaction_laws {versionOf : ℕ → String} {c : DemoTrials} {observed : Bool}
    {o : Observation} {db db' : TrialTables} {snapshot : Snapshot} (hkept : Kept db)
    (h : c.firstTransaction versionOf observed o db = .ok (db', snapshot)) :
    Kept db' ∧ Untouched db db' ∧ Remembers versionOf c db' snapshot := by
  rw [firstTransaction] at h
  split at h
  · cases h
  simp only [bind_ok, require_ok] at h
  obtain ⟨-, -, h⟩ := h
  split at h
  · simp only [pure_ok, Prod.mk.injEq] at h
    obtain ⟨rfl, rfl⟩ := h
    exact ⟨hkept, .refl _, ⟨fun row hrow => (by cases hrow), fun _ => rfl⟩⟩
  rename_i row hrow
  have hmem := headRow_mem hrow
  split at h
  · rename_i hover
    simp only [pure_ok, Prod.mk.injEq] at h
    obtain ⟨rfl, rfl⟩ := h
    refine ⟨hkept, .refl _, ?_, fun hnone => by cases hnone⟩
    intro r hr
    obtain rfl := Option.some.inj hr
    exact ⟨⟨row, hmem, rfl⟩, fun hno => (by cases hno), fun _ => hover⟩
  · simp only [bind_ok, pure_ok, require_ok, Prod.mk.injEq] at h
    obtain ⟨-, hsource, db₁, hupdate, rfl, rfl⟩ := h
    have hevents : Kept { db with events := db.events ++ receipts observed o row } :=
      hkept.congr rfl rfl
    have hu := untouched_update hupdate fun _ => rfl
    have hu' : Untouched db db₁ := ⟨hu.head, hu.registrations, hu.grows⟩
    refine ⟨hevents.updated hupdate (fun _ => rfl) fun _ _ hguard => follows_observedRow hguard,
      hu', ?_, fun hnone => by cases hnone⟩
    intro r hr
    obtain rfl := Option.some.inj hr
    obtain ⟨t, ht, heq⟩ := hu'.grows row hmem
    simp only [sameSource, decide_eq_true_eq] at hsource
    exact ⟨⟨t, ht, heq⟩, fun _ => ⟨hsource.1, hsource.2.1⟩, fun hyes => by cases hyes⟩

theorem drainHead_laws {c : DemoTrials} {k : Switch} {s : Snapshot} {db db' : TrialTables}
    (hkept : Kept db) (h : c.drainHead k s db = .ok db') : Kept db' ∧ Untouched db db' := by
  rw [drainHead] at h
  split at h
  · split at h
    · have hu := untouched_update h fun _ => rfl
      exact ⟨kept_drain hkept h, hu.head, hu.registrations, hu.grows⟩
    · obtain rfl := Except.ok.inj h
      exact ⟨hkept, .refl _⟩
  · obtain rfl := Except.ok.inj h
    exact ⟨hkept, .refl _⟩

theorem completeHead_laws {k : Switch} {s : Snapshot} {db db' : TrialTables} (hkept : Kept db)
    (h : completeHead k s db = .ok db') : Kept db' ∧ Untouched db db' := by
  rw [completeHead] at h
  split at h
  · split at h
    · exact ⟨kept_complete hkept h, untouched_update h fun _ => rfl⟩
    · obtain rfl := Except.ok.inj h
      exact ⟨hkept, .refl _⟩
  · obtain rfl := Except.ok.inj h
    exact ⟨hkept, .refl _⟩

theorem secondTransaction_laws {versionOf : ℕ → String} {c : DemoTrials} {k : Switch} {s : Snapshot}
    {db db' : TrialTables} (hkept : Kept db) (hreg : Registered db)
    (hremembers : Remembers versionOf c db s)
    (h : c.secondTransaction k s db = .ok (some db')) :
    Kept db' ∧ Registered db' ∧ Grows db db' := by
  rw [secondTransaction] at h
  split at h
  · cases h
  rename_i mode _
  simp only [bind_ok, require_ok] at h
  obtain ⟨-, -, h⟩ := h
  split at h
  · cases h
  rename_i hgo
  simp only [not_or, ne_eq, not_not] at hgo
  simp only [bind_ok, pure_ok] at h
  obtain ⟨drained, hdrained, completed, hcompleted, registered, hregister, hdb⟩ := h
  obtain rfl := Option.some.inj hdb
  have hd := drainHead_laws hkept hdrained
  have hc := completeHead_laws hd.1 hcompleted
  have hu := hd.2.trans hc.2
  refine ⟨?_, registered_register hkept hreg hremembers hgo.1 hu hregister, ?_⟩
  · obtain ⟨profile, revision, hnew, htrials, hwritten, -⟩ := register_ok hregister
    exact (hc.1.insert (t := c.newTrial k profile (c.nextSlot s) revision) hnew rfl rfl).congr
      htrials hwritten
  · obtain ⟨profile, revision, -, htrials, -⟩ := register_ok hregister
    intro t ht
    obtain ⟨t', ht', heq⟩ := hu.grows t ht
    exact ⟨t', htrials ▸ List.mem_append_left _ ht', heq⟩

/-! ### Runs -/

/-- What holds of a scope in every state. -/
structure Sound (versionOf : ℕ → String) (controllers : ℕ → DemoTrials) (s : TrialSystem) :
    Prop where
  kept : Kept s.db
  registered : Registered s.db
  remembers : ∀ i snapshot, (s.processes i).waiting = some snapshot →
    Remembers versionOf (controllers i) s.db snapshot

section

variable {versionOf : ℕ → String} {controllers : ℕ → DemoTrials} {s t : TrialSystem}

/-- A transaction that keeps the laws of the tables. -/
theorem Sound.write (h : Sound versionOf controllers s) {db : TrialTables} (hkept : Kept db)
    (hregistered : Registered db) (hgrows : Grows s.db db) :
    Sound versionOf controllers { s with db := db } :=
  ⟨hkept, hregistered, fun i snapshot hwaiting => (h.remembers i snapshot hwaiting).grows hgrows⟩

theorem Sound.setProcess (h : Sound versionOf controllers s) (i : ℕ) {p : Process}
    (hp : ∀ snapshot, p.waiting = some snapshot →
      Remembers versionOf (controllers i) s.db snapshot) :
    Sound versionOf controllers (s.setProcess i p) := by
  refine ⟨h.kept, h.registered, fun j snapshot hwaiting => ?_⟩
  by_cases hij : j = i
  · subst hij
    rw [TrialSystem.setProcess] at hwaiting
    exact hp snapshot (by simpa using hwaiting)
  · rw [TrialSystem.setProcess] at hwaiting
    exact h.remembers j snapshot (by simpa [hij] using hwaiting)

theorem Sound.caught (h : Sound versionOf controllers s) (i : ℕ) :
    Sound versionOf controllers (s.caught i) :=
  h.setProcess i fun _ hnone => by cases hnone

theorem sound_observe (h : Sound versionOf controllers s) (i : ℕ) (o : Observation)
    (ending : Ending) : Sound versionOf controllers (s.observe versionOf controllers i o ending) := by
  rw [TrialSystem.observe]
  split
  · exact h.caught i
  rename_i db snapshot heq
  obtain ⟨hkept, hu, hremembers⟩ := firstTransaction_laws h.kept heq
  have hwritten := h.write hkept (h.registered.congr hu) hu.grows
  split
  · exact h.caught i
  · exact hwritten.caught i
  · refine hwritten.setProcess i fun snapshot' hwaiting => ?_
    split at hwaiting
    · obtain rfl := Option.some.inj hwaiting
      exact hremembers
    · cases hwaiting

theorem sound_proceed (h : Sound versionOf controllers s) (i : ℕ) {snapshot : Snapshot}
    (hwaiting : (s.processes i).waiting = some snapshot) (safe : Option Bool) (k : Switch)
    (ending : Ending) :
    Sound versionOf controllers (s.proceed controllers i snapshot safe k ending) := by
  have hidle (observed : Bool) {u : TrialSystem} (hu : Sound versionOf controllers u) :
      Sound versionOf controllers (u.setProcess i ⟨observed, none⟩) :=
    hu.setProcess i fun _ hnone => by cases hnone
  rcases safe with _ | _ | _
  · exact h.caught i
  · exact hidle true h
  simp only [TrialSystem.proceed]
  split
  · exact h.caught i
  · exact hidle _ h
  rename_i db heq
  obtain ⟨hkept, hregistered, hgrows⟩ :=
    secondTransaction_laws h.kept h.registered (h.remembers i snapshot hwaiting) heq
  have hwritten := h.write hkept hregistered hgrows
  split
  · exact h.caught i
  · exact hwritten.caught i
  · exact hidle true hwritten

theorem sound_step (h : Sound versionOf controllers s) (a : Action)
    (hstep : s.step versionOf controllers a = some t) : Sound versionOf controllers t := by
  cases a with
  | restart i =>
    obtain rfl := Option.some.inj hstep
    exact h.caught i
  | setMode mode =>
    obtain rfl := Option.some.inj hstep
    exact h.write (h.kept.congr rfl rfl)
      (h.registered.congr ⟨rfl, rfl, .refl s.db⟩) (.refl s.db)
  | sessionFails i =>
    rw [TrialSystem.step] at hstep
    split at hstep
    · obtain rfl := Option.some.inj hstep
      exact h.caught i
    · cases hstep
  | observe i o ending =>
    rw [TrialSystem.step] at hstep
    split at hstep
    · obtain rfl := Option.some.inj hstep
      exact sound_observe h i o ending
    · cases hstep
  | proceed i safe k ending =>
    obtain ⟨snapshot, hwaiting, rfl⟩ := Option.map_eq_some_iff.mp hstep
    exact sound_proceed h i hwaiting safe k ending

theorem sound_initial (mode : Option ModeSetting) :
    Sound versionOf controllers (TrialSystem.initial mode) := by
  refine ⟨⟨List.nodup_nil, ?_, ?_⟩, ⟨List.isChain_nil, ?_, rfl, ?_, ?_⟩, ?_⟩
  · intro t ht
    cases ht
  · intro t ht
    cases ht
  · intro r hr
    cases hr
  · intro r hr
    cases hr
  · intro r hr
    cases hr
  · intro i snapshot hwaiting
    cases hwaiting

end

/-- Slots in the order in which a scope goes through them. -/
def Before (p r : Registration) : Prop :=
  p.trial.cycle < r.trial.cycle ∨ p.trial.cycle = r.trial.cycle ∧ p.trial.ordinal < r.trial.ordinal

instance : Trans Before Before Before where
  trans h h' := by
    rw [Before] at *
    omega

theorem Registration.Succeeds.before {p r : Registration} (h : p.Succeeds r) : Before p r := by
  cases hhandover : r.handover with
  | false =>
    obtain ⟨-, -, hslot⟩ := h.same hhandover
    rw [Trial.successor] at hslot
    split at hslot
    · exact .inl (by rw [(Prod.mk.inj hslot).1]; exact Nat.lt_succ_self _)
    · obtain ⟨hcycle, hordinal⟩ := Prod.mk.inj hslot
      exact .inr ⟨hcycle.symm, by rw [hordinal]; exact Nat.lt_succ_self _⟩
  | true =>
    obtain ⟨-, -, hslot⟩ := h.handover hhandover
    exact .inl (by rw [(Prod.mk.inj hslot).1]; exact Nat.lt_succ_self _)

/-- In every state that ticks, restarts and changes of the entry mode lead to, in any order: the
    market-open time of a trial is at most the open time of the intervals between its consecutive
    recorded observations, which are disjoint; its state only moves on from active over draining to
    completed; and each registration takes the slot after that of the head it replaces, or after a
    handover of a reviewed predecessor's source the first of the next cycle, so that none is taken
    twice. -/
theorem trials_of_run {versionOf : ℕ → String} {controllers : ℕ → DemoTrials}
    {mode : Option ModeSetting} {actions : List Action} {s : TrialSystem}
    (hrun : Transition.run (TrialSystem.step versionOf controllers) (.initial mode) actions =
      some s) :
    (∀ t ∈ s.db.trials, t.marketOpenMs ≤ totalOpenTime (s.db.history t.id) ∧
      (s.db.history t.id).getLast? = some t ∧
      ((s.db.history t.id).map (·.observedAt)).IsChain (· ≤ ·) ∧
      ((s.db.history t.id).map (·.state)).IsChain Moves ∧
      (s.db.history t.id).head?.map (·.state) = some .active) ∧
    (∀ r ∈ s.db.registrations.head?, r.replaced = none ∧
      (r.trial.cycle, r.trial.ordinal) = (0, 0)) ∧
    s.db.registrations.IsChain Registration.Succeeds ∧ s.db.registrations.Pairwise Before := by
  have hsound : Sound versionOf controllers s :=
    Transition.invariant (fun _ a _ h hstep => sound_step h a hstep) (sound_initial mode) hrun
  refine ⟨fun t ht => ?_, hsound.registered.first, hsound.registered.chain, ?_⟩
  · obtain ⟨first, rest, hhistory, hlast, hchain, hactive, hzero⟩ := hsound.kept.history t ht
    rw [hhistory]
    refine ⟨?_, hlast, ?_, ?_, ?_⟩
    · have hcredit := marketOpenMs_le hchain
      rw [List.getLast?_eq_getLast_of_ne_nil (List.cons_ne_nil first rest)] at hlast
      rw [Option.some.inj hlast, hzero] at hcredit
      omega
    · rw [List.isChain_map]
      exact hchain.imp fun _ _ h => h.later
    · rw [List.isChain_map]
      exact hchain.imp fun _ _ h => h.moves
    · simp [hactive]
  · exact (hsound.registered.chain.imp fun _ _ h => h.before).pairwise

namespace Sample

/-- The controllers of the release that ran first and of the one that takes over from it. -/
def controllers : ℕ → DemoTrials
  | 0 => ⟨1, demoTrialStrategyVersion, trendPredecessorSource, by decide +kernel, .inl rfl⟩
  | _ => ⟨2, trendRetestVersion, trendCatalogueSha256, by decide +kernel, .inr rfl⟩

def versionOf (id : ℕ) : String :=
  if id = 1 then demoTrialStrategyVersion else trendRetestVersion

def openAt (now : ℕ) : Observation := ⟨.open, now, 0, 0, false⟩

def switchAt (now id : ℕ) : Switch := ⟨false, true, now, now, now, now, now, id, id⟩

/-- The first controller registers a trial and observes it for ten seconds; the second takes over. -/
def handover : List Action :=
  [.observe 0 (openAt 1000000) .committed, .proceed 0 (some true) (switchAt 1500000 1) .committed,
    .observe 0 (openAt 3000000) .committed, .observe 0 (openAt 13000000) .committed,
    .observe 1 (openAt 14000000) .committed, .proceed 1 (some true) (switchAt 15000000 2) .committed]

theorem handover_run : (Transition.run (TrialSystem.step versionOf controllers)
    (.initial (some ⟨1, .singleStopLimit⟩)) handover).map (fun s =>
      (s.db.trials.map (·.marketOpenMs), s.db.registrations.map fun r =>
        (r.trial.cycle, r.trial.ordinal, r.trial.successor))) =
    some ([10000, 0], [(0, 0, (0, 1)), (1, 0, (1, 1))]) := by
  decide +kernel

theorem trials_of_run_handover : ∃ s, Transition.run (TrialSystem.step versionOf controllers)
      (.initial (some ⟨1, .singleStopLimit⟩)) handover = some s ∧
    s.db.trials.map (·.marketOpenMs) = [10000, 0] ∧
    (∀ t ∈ s.db.trials, t.marketOpenMs ≤ totalOpenTime (s.db.history t.id)) ∧
    s.db.registrations.Pairwise Before := by
  obtain ⟨s, hrun, hs⟩ := Option.map_eq_some_iff.mp handover_run
  have hlaws := trials_of_run hrun
  exact ⟨s, hrun, congrArg Prod.fst hs, fun t ht => (hlaws.1 t ht).1, hlaws.2.2.2⟩

/-- A handover skips the rest of the cycle. -/
theorem handover_skips : ¬ ∀ actions s, Transition.run (TrialSystem.step versionOf controllers)
      (.initial (some ⟨1, .singleStopLimit⟩)) actions = some s →
    s.db.registrations.IsChain fun p r =>
      (r.trial.cycle, r.trial.ordinal) = p.trial.successor := by
  intro h
  obtain ⟨s, hrun, hs⟩ := Option.map_eq_some_iff.mp handover_run
  have hchain := h handover s hrun
  have hslots : (s.db.registrations.map fun r =>
      (r.trial.cycle, r.trial.ordinal, r.trial.successor)).IsChain
        fun p r => (r.1, r.2.1) = p.2.2 := by
    rw [List.isChain_map]
    exact hchain
  rw [(Prod.mk.inj hs).2] at hslots
  exact absurd (List.isChain_cons_cons.mp hslots).1 (by decide)

end Sample

end ScalpingBot.Trials
