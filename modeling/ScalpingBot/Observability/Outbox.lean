import Mathlib.Algebra.Group.Nat.Defs
import Mathlib.Data.List.Nodup
import Mathlib.Data.List.Sort
import ScalpingBot.Library.Transition

/-! `PostgresObservabilityOutbox` (apps/execution-service/src/observability-outbox.ts) on the table of
    migration 0008. A flush claims rows in one statement, then sends and acknowledges them one by one;
    other instances run between any two of these steps, and a process may end at any of them. -/

namespace ScalpingBot.Observability

inductive OutboxStatus where | pending | delivering | retry | delivered
  deriving DecidableEq

/-- A row of `observability_outbox`, with the time of its event. -/
structure OutboxRow where
  id : ℕ
  status : OutboxStatus
  attemptCount : ℕ
  nextAttemptAt : ℤ
  leaseExpiresAt : Option ℤ
  deliveredAt : Option ℤ
  lastErrorCode : Option String
  createdAt : ℤ
  updatedAt : ℤ
  occurredAt : ℤ
  deriving DecidableEq

/-- The options of an instance, as its constructor accepts them. -/
structure ObservabilityOutboxOptions where
  batchSize : ℕ
  leaseMs : ℕ
  retryBaseMs : ℕ
  retryMaxMs : ℕ
  batch_pos : 1 ≤ batchSize
  lease_pos : 1 ≤ leaseMs
  base_pos : 1 ≤ retryBaseMs
  base_le_max : retryBaseMs ≤ retryMaxMs

def retryDelayMs (attemptCount baseMs maxMs : ℕ) : ℕ :=
  min (baseMs * 2 ^ min (attemptCount - 1) 20) maxMs

/-- What the claim returns of a row. -/
structure Claimed where
  id : ℕ
  attemptCount : ℕ
  occurredAt : ℤ
  deriving DecidableEq

namespace OutboxRow

variable (row : OutboxRow)

/-- The WHERE of `due`. -/
def due (now : ℤ) : Bool :=
  row.nextAttemptAt ≤ now ∧ (row.status = .pending ∨ row.status = .retry ∨
    row.status = .delivering ∧ row.leaseExpiresAt.any (· ≤ now))

/-- `ORDER BY next_attempt_at, created_at, id`. -/
def before (other : OutboxRow) : Bool :=
  row.nextAttemptAt < other.nextAttemptAt ∨ row.nextAttemptAt = other.nextAttemptAt ∧
    (row.createdAt < other.createdAt ∨ row.createdAt = other.createdAt ∧ row.id ≤ other.id)

/-- The SET of the claim. -/
def claim (now : ℤ) (leaseMs : ℕ) : OutboxRow := {
  row with
  status := .delivering
  attemptCount := row.attemptCount + 1
  leaseExpiresAt := some (now + leaseMs)
  lastErrorCode := none
  updatedAt := now }

/-- The WHERE of both acknowledgements. -/
def heldBy (c : Claimed) : Bool :=
  row.id = c.id ∧ row.status = .delivering ∧ row.attemptCount = c.attemptCount

/-- The SET of `#delivered`. -/
def delivered (now : ℤ) : OutboxRow := {
  row with
  status := .delivered
  deliveredAt := some now
  leaseExpiresAt := none
  lastErrorCode := none
  updatedAt := now }

/-- The SET of `#retry`. -/
def retried (options : ObservabilityOutboxOptions) (c : Claimed) (now : ℤ) : OutboxRow := {
  row with
  status := .retry
  nextAttemptAt := now + retryDelayMs c.attemptCount options.retryBaseMs options.retryMaxMs
  leaseExpiresAt := none
  lastErrorCode := some "BETTER_STACK_DELIVERY_REJECTED"
  updatedAt := now }

end OutboxRow

/-- Where the flush of an instance stands. -/
inductive Flush where
  | idle
  | sending (row : Claimed) (rest : List Claimed)
  | acknowledging (row : Claimed) (accepted : Bool) (rest : List Claimed)
  deriving DecidableEq

/-- The claimed rows that a flush has still to acknowledge. -/
def Flush.held : Flush → List Claimed
  | .idle => []
  | .sending row rest => row :: rest
  | .acknowledging row _ rest => row :: rest

/-- An answer of the transport; a send that throws or is cut off is not accepted. -/
structure Send where
  id : ℕ
  attemptCount : ℕ
  accepted : Bool
  deriving DecidableEq

/-- The table and the instances, with the history of the sends. -/
structure Outbox where
  rows : List OutboxRow
  flushes : ℕ → Flush
  sends : List Send

/-- How a statement ends: with an answer, or with an error before or after it has taken effect. -/
inductive Ending where | answered | failed | answerLost
  deriving DecidableEq

inductive Action where
  | enqueue (id : ℕ) (now occurredAt : ℤ)
  | claim (i : ℕ) (now : ℤ) (locked : List ℕ) (ending : Ending)
  | send (i : ℕ) (accepted : Bool)
  | acknowledge (i : ℕ) (now : ℤ) (ending : Ending)
  | crash (i : ℕ)

namespace Outbox

variable (options : ℕ → ObservabilityOutboxOptions) (s : Outbox)

def setFlush (i : ℕ) (flush : Flush) : Outbox :=
  { s with flushes := fun j => if j = i then flush else s.flushes j }

/-- The loop of `flush` over the rows that are left. -/
def next (i : ℕ) : List Claimed → Outbox
  | [] => s.setFlush i .idle
  | row :: rest => s.setFlush i (.sending row rest)

/-- The rows that a claim takes; those that another transaction has locked are skipped. -/
def dueRows (i : ℕ) (now : ℤ) (locked : List ℕ) : List OutboxRow :=
  ((s.rows.filter fun row => row.due now ∧ row.id ∉ locked).insertionSort
    fun a b => a.before b).take (options i).batchSize

/-- The table after a claim. -/
def claimRows (i : ℕ) (now : ℤ) (locked : List ℕ) : List OutboxRow :=
  s.rows.map fun row =>
    if row ∈ s.dueRows options i now locked then row.claim now (options i).leaseMs else row

/-- What the claim returns, `ORDER BY event.occurred_at, claimed.id`. -/
def claimed (i : ℕ) (now : ℤ) (locked : List ℕ) : List Claimed :=
  ((s.dueRows options i now locked).map fun row =>
    (⟨row.id, row.attemptCount + 1, row.occurredAt⟩ : Claimed)).insertionSort fun a b =>
      a.occurredAt < b.occurredAt ∨ a.occurredAt = b.occurredAt ∧ a.id ≤ b.id

/-- `#claim`; the count is an `integer` of the database. -/
def claim (i : ℕ) (now : ℤ) (locked : List ℕ) (ending : Ending) : Outbox :=
  if ending = .failed ∨ (s.dueRows options i now locked).any (·.attemptCount = 2147483647) then
    s.setFlush i .idle
  else
    let t : Outbox := { s with rows := s.claimRows options i now locked }
    if ending = .answerLost then t.setFlush i .idle
    else t.next i (s.claimed options i now locked)

/-- The row after `#delivered` or `#retry`. -/
def acknowledged (i : ℕ) (c : Claimed) (accepted : Bool) (now : ℤ) (row : OutboxRow) : OutboxRow :=
  if row.heldBy c then
    if accepted then row.delivered now else row.retried (options i) c now
  else row

/-- An acknowledgement; it throws unless it has changed one row. -/
def acknowledge (i : ℕ) (c : Claimed) (accepted : Bool) (rest : List Claimed) (now : ℤ)
    (ending : Ending) : Outbox :=
  if ending = .failed then s.setFlush i .idle
  else
    let t : Outbox := { s with rows := s.rows.map (acknowledged options i c accepted now) }
    if ending = .answered ∧ s.rows.countP (·.heldBy c) = 1 then t.next i rest
    else t.setFlush i .idle

/-- A step; an instance has one flush at a time. -/
def step : Action → Option Outbox
  | .enqueue id now occurredAt =>
    if s.rows.any (·.id = id) then none
    else
      some { s with rows := s.rows ++
        [⟨id, .pending, 0, now, none, none, none, now, now, occurredAt⟩] }
  | .claim i now locked ending =>
    match s.flushes i with
    | .idle => some (s.claim options i now locked ending)
    | _ => none
  | .send i accepted =>
    match s.flushes i with
    | .sending row rest =>
      let t : Outbox := { s with sends := s.sends ++ [⟨row.id, row.attemptCount, accepted⟩] }
      some (t.setFlush i (.acknowledging row accepted rest))
    | _ => none
  | .acknowledge i now ending =>
    match s.flushes i with
    | .acknowledging row accepted rest =>
      some (s.acknowledge options i row accepted rest now ending)
    | _ => none
  | .crash i => some (s.setFlush i .idle)

def initial : Outbox := ⟨[], fun _ => .idle, []⟩

end Outbox

/-! ### What a step does to a row -/

/-- What may become of a row. -/
inductive Change (s : Outbox) : Action → OutboxRow → OutboxRow → Prop
  | kept (a : Action) (row : OutboxRow) : Change s a row row
  | claimed {i : ℕ} {now : ℤ} {locked : List ℕ} {ending : Ending} {row row' : OutboxRow}
      (due : row.due now) (attempt : row'.attemptCount = row.attemptCount + 1)
      (status : row'.status = .delivering) (lease : row'.leaseExpiresAt.isSome) :
      Change s (.claim i now locked ending) row row'
  | acknowledged {i : ℕ} {now : ℤ} {ending : Ending} {c : Claimed} {accepted : Bool}
      {rest : List Claimed} {row row' : OutboxRow}
      (flush : s.flushes i = .acknowledging c accepted rest) (held : row.heldBy c)
      (attempt : row'.attemptCount = row.attemptCount)
      (status : row'.status = if accepted then .delivered else .retry) :
      Change s (.acknowledge i now ending) row row'

variable {options : ℕ → ObservabilityOutboxOptions} {s t : Outbox}

/-- A delivered row is not changed. -/
theorem Change.of_delivered {a : Action} {row row' : OutboxRow} (h : Change s a row row')
    (hdelivered : row.status = .delivered) : row' = row := by
  cases h with
  | kept => rfl
  | claimed due => simp [OutboxRow.due, hdelivered] at due
  | acknowledged flush held => simp [OutboxRow.heldBy, hdelivered] at held

theorem Change.attempt_le {a : Action} {row row' : OutboxRow} (h : Change s a row row') :
    row.attemptCount ≤ row'.attemptCount := by
  cases h with
  | kept => exact le_rfl
  | claimed due attempt => omega
  | acknowledged flush held attempt => omega

/-- A delivering row keeps a lease. -/
theorem Change.leased {a : Action} {row row' : OutboxRow} (h : Change s a row row')
    (hrow : row.status = .delivering → row.leaseExpiresAt.isSome)
    (hdelivering : row'.status = .delivering) : row'.leaseExpiresAt.isSome := by
  cases h with
  | kept => exact hrow hdelivering
  | claimed due attempt status lease => exact lease
  | @acknowledged _ _ _ _ accepted _ _ _ flush held attempt status =>
    rw [hdelivering] at status
    cases accepted <;> cases status

@[simp] theorem rows_setFlush (i : ℕ) (flush : Flush) : (s.setFlush i flush).rows = s.rows := rfl

@[simp] theorem sends_setFlush (i : ℕ) (flush : Flush) : (s.setFlush i flush).sends = s.sends := rfl

@[simp] theorem rows_next (i : ℕ) (rows : List Claimed) : (s.next i rows).rows = s.rows := by
  cases rows <;> rfl

@[simp] theorem sends_next (i : ℕ) (rows : List Claimed) : (s.next i rows).sends = s.sends := by
  cases rows <;> rfl

theorem due_of_mem {i : ℕ} {now : ℤ} {locked : List ℕ} {row : OutboxRow}
    (h : row ∈ s.dueRows options i now locked) : row ∈ s.rows ∧ row.due now = true := by
  have hmem := (List.mem_insertionSort _).mp (List.mem_of_mem_take h)
  simp only [List.mem_filter, decide_eq_true_eq] at hmem
  exact ⟨hmem.1, hmem.2.1⟩

theorem claim_rows (i : ℕ) (now : ℤ) (locked : List ℕ) (ending : Ending) :
    (s.claim options i now locked ending).rows = s.rows ∨
      (s.claim options i now locked ending).rows = s.claimRows options i now locked := by
  rw [Outbox.claim]
  split
  · exact .inl rfl
  · right
    dsimp only
    split
    · rfl
    · rw [rows_next]

theorem acknowledge_rows (i : ℕ) (c : Claimed) (accepted : Bool) (rest : List Claimed) (now : ℤ)
    (ending : Ending) : (s.acknowledge options i c accepted rest now ending).rows = s.rows ∨
      (s.acknowledge options i c accepted rest now ending).rows =
        s.rows.map (Outbox.acknowledged options i c accepted now) := by
  rw [Outbox.acknowledge]
  split
  · exact .inl rfl
  · right
    dsimp only
    split
    · rw [rows_next]
    · rfl

/-- Rows that are new to the table. -/
def Outbox.Fresh (s : Outbox) (added : List OutboxRow) : Prop :=
  (added.map (·.id)).Nodup ∧
    ∀ row ∈ added, row.status = .pending ∧ ∀ other ∈ s.rows, other.id ≠ row.id

theorem fresh_nil : s.Fresh [] := ⟨List.nodup_nil, fun _ h => absurd h List.not_mem_nil⟩

/-- A claim, an acknowledgement or nothing has happened to each row. -/
theorem rows_step {a : Action} (h : s.step options a = some t) :
    ∃ added : List OutboxRow, ∃ f : OutboxRow → OutboxRow, t.rows = s.rows.map f ++ added ∧
      s.Fresh added ∧ ∀ row ∈ s.rows, (f row).id = row.id ∧ Change s a row (f row) := by
  have hkept (h : t.rows = s.rows) : ∃ added : List OutboxRow,
      ∃ f : OutboxRow → OutboxRow, t.rows = s.rows.map f ++ added ∧ s.Fresh added ∧
        ∀ row ∈ s.rows, (f row).id = row.id ∧ Change s a row (f row) :=
    ⟨[], fun row => row, by simpa using h, fresh_nil, fun row _ => ⟨rfl, .kept a row⟩⟩
  cases a with
  | enqueue id now occurredAt =>
    simp only [Outbox.step] at h
    split at h
    · cases h
    · rename_i hid
      obtain rfl := Option.some.inj h
      refine ⟨_, fun row => row, by rw [List.map_id'], ⟨by simp, ?_⟩,
        fun row _ => ⟨rfl, .kept _ row⟩⟩
      intro row hrow
      obtain rfl := List.mem_singleton.mp hrow
      refine ⟨rfl, fun other hother hsame => hid ?_⟩
      exact List.any_eq_true.mpr ⟨other, hother, decide_eq_true hsame⟩
  | claim i now locked ending =>
    simp only [Outbox.step] at h
    split at h
    · obtain rfl := Option.some.inj h
      have hclaim : (s.claim options i now locked ending).rows = s.rows ∨ _ :=
        claim_rows i now locked ending
      rcases hclaim with hrows | hrows
      · exact hkept hrows
      · refine ⟨[], fun row => if row ∈ s.dueRows options i now locked then
          row.claim now (options i).leaseMs else row, by rw [List.append_nil, hrows]; rfl,
          fresh_nil, fun row _ => ?_⟩
        dsimp only
        split
        · rename_i hdue
          exact ⟨rfl, .claimed (due_of_mem hdue).2 rfl rfl rfl⟩
        · exact ⟨rfl, .kept _ row⟩
    · cases h
  | send i accepted =>
    simp only [Outbox.step] at h
    split at h
    · obtain rfl := Option.some.inj h
      exact hkept rfl
    · cases h
  | acknowledge i now ending =>
    simp only [Outbox.step] at h
    split at h
    · rename_i c accepted rest hflush
      obtain rfl := Option.some.inj h
      have hacknowledge : (s.acknowledge options i c accepted rest now ending).rows = s.rows ∨ _ :=
        acknowledge_rows i c accepted rest now ending
      rcases hacknowledge with hrows | hrows
      · exact hkept hrows
      · refine ⟨[], Outbox.acknowledged options i c accepted now, by rw [List.append_nil, hrows],
          fresh_nil, fun row _ => ?_⟩
        rw [Outbox.acknowledged]
        split
        · rename_i hheld
          cases accepted with
          | true => exact ⟨rfl, .acknowledged hflush hheld rfl rfl⟩
          | false => exact ⟨rfl, .acknowledged hflush hheld rfl rfl⟩
        · exact ⟨rfl, .kept _ row⟩
    · cases h
  | crash i =>
    obtain rfl := Option.some.inj h
    exact hkept rfl

/-! ### What the instances hold -/

theorem held_setFlush {i j : ℕ} {flush : Flush} {c : Claimed}
    (h : c ∈ ((s.setFlush i flush).flushes j).held) :
    j = i ∧ c ∈ flush.held ∨ c ∈ (s.flushes j).held := by
  rw [Outbox.setFlush] at h
  dsimp only at h
  split at h
  · rename_i hj
    exact .inl ⟨hj, h⟩
  · exact .inr h

theorem held_next {i j : ℕ} {rows : List Claimed} {c : Claimed}
    (h : c ∈ ((s.next i rows).flushes j).held) :
    j = i ∧ c ∈ rows ∨ c ∈ (s.flushes j).held := by
  cases rows with
  | nil =>
    rcases held_setFlush h with ⟨-, hc⟩ | hc
    · cases hc
    · exact .inr hc
  | cons row rest => exact held_setFlush h

theorem mem_claimed {i : ℕ} {now : ℤ} {locked : List ℕ} {c : Claimed}
    (h : c ∈ s.claimed options i now locked) : ∃ row ∈ s.dueRows options i now locked,
      row.id = c.id ∧ c.attemptCount = row.attemptCount + 1 := by
  obtain ⟨row, hrow, rfl⟩ := List.mem_map.mp ((List.mem_insertionSort _).mp h)
  exact ⟨row, hrow, rfl, rfl⟩

/-- A row comes into the hands of an instance by a claim of its own. -/
theorem held_step {a : Action} {j : ℕ} {c : Claimed} (h : s.step options a = some t)
    (hc : c ∈ (t.flushes j).held) : c ∈ (s.flushes j).held ∨ ∃ now locked ending,
      a = .claim j now locked ending ∧ t.rows = s.claimRows options j now locked ∧
        c ∈ s.claimed options j now locked := by
  have hidle {i : ℕ} (h : c ∈ ((s.setFlush i .idle).flushes j).held) :
      c ∈ (s.flushes j).held := by
    rcases held_setFlush h with ⟨-, hc⟩ | hc
    · cases hc
    · exact hc
  cases a with
  | enqueue id now occurredAt =>
    simp only [Outbox.step] at h
    split at h
    · cases h
    · obtain rfl := Option.some.inj h
      exact .inl hc
  | claim i now locked ending =>
    simp only [Outbox.step] at h
    split at h
    · obtain rfl := Option.some.inj h
      rw [Outbox.claim] at hc ⊢
      split at hc
      · exact .inl (hidle hc)
      · rename_i hclaim
        rw [if_neg hclaim]
        dsimp only at hc ⊢
        split at hc
        · exact .inl (hidle hc)
        · rename_i hlost
          rw [if_neg hlost, rows_next]
          rcases held_next hc with ⟨rfl, hnew⟩ | hc
          · exact .inr ⟨now, locked, ending, rfl, rfl, hnew⟩
          · exact .inl hc
    · cases h
  | send i accepted =>
    simp only [Outbox.step] at h
    split at h
    · rename_i row rest hflush
      obtain rfl := Option.some.inj h
      left
      rcases held_setFlush hc with ⟨rfl, hrow⟩ | hc
      · rw [hflush]
        exact hrow
      · exact hc
    · cases h
  | acknowledge i now ending =>
    simp only [Outbox.step] at h
    split at h
    · rename_i row accepted rest hflush
      obtain rfl := Option.some.inj h
      left
      rw [Outbox.acknowledge] at hc
      split at hc
      · exact hidle hc
      · dsimp only at hc
        split at hc
        · rcases held_next hc with ⟨rfl, hrest⟩ | hc
          · rw [hflush]
            exact List.mem_cons_of_mem _ hrest
          · exact hc
        · exact hidle hc
    · cases h
  | crash i =>
    obtain rfl := Option.some.inj h
    exact .inl (hidle hc)

/-- An instance that is about to acknowledge has just had its answer, or had it before. -/
theorem acknowledging_step {a : Action} {j : ℕ} {c : Claimed} {accepted : Bool}
    {rest : List Claimed} (h : s.step options a = some t)
    (hflush : t.flushes j = .acknowledging c accepted rest) :
    s.flushes j = .acknowledging c accepted rest ∨
      ⟨c.id, c.attemptCount, accepted⟩ ∈ t.sends := by
  have hset {u : Outbox} {i : ℕ} (rows : List Claimed)
      (h : (u.next i rows).flushes j = .acknowledging c accepted rest)
      (hu : u.flushes = s.flushes) : s.flushes j = .acknowledging c accepted rest := by
    rw [← hu]
    cases rows with
    | nil =>
      simp only [Outbox.next, Outbox.setFlush] at h
      split at h
      · cases h
      · exact h
    | cons row rows =>
      simp only [Outbox.next, Outbox.setFlush] at h
      split at h
      · cases h
      · exact h
  cases a with
  | enqueue id now occurredAt =>
    simp only [Outbox.step] at h
    split at h
    · cases h
    · obtain rfl := Option.some.inj h
      exact .inl hflush
  | claim i now locked ending =>
    simp only [Outbox.step] at h
    split at h
    · obtain rfl := Option.some.inj h
      left
      rw [Outbox.claim] at hflush
      split at hflush
      · exact hset [] hflush rfl
      · dsimp only at hflush
        split at hflush
        · exact hset [] hflush rfl
        · exact hset _ hflush rfl
    · cases h
  | send i answer =>
    simp only [Outbox.step] at h
    split at h
    · obtain rfl := Option.some.inj h
      simp only [Outbox.setFlush] at hflush
      split at hflush
      · cases hflush
        exact .inr (List.mem_append_right _ (List.mem_singleton_self _))
      · exact .inl hflush
    · cases h
  | acknowledge i now ending =>
    simp only [Outbox.step] at h
    split at h
    · obtain rfl := Option.some.inj h
      left
      rw [Outbox.acknowledge] at hflush
      split at hflush
      · exact hset [] hflush rfl
      · dsimp only at hflush
        split at hflush
        · exact hset _ hflush rfl
        · exact hset [] hflush rfl
    · cases h
  | crash i =>
    obtain rfl := Option.some.inj h
    exact .inl (hset [] hflush rfl)

theorem sends_step {a : Action} (h : s.step options a = some t) {x : Send} (hx : x ∈ s.sends) :
    x ∈ t.sends := by
  cases a with
  | enqueue id now occurredAt =>
    simp only [Outbox.step] at h
    split at h
    · cases h
    · obtain rfl := Option.some.inj h
      exact hx
  | claim i now locked ending =>
    simp only [Outbox.step] at h
    split at h
    · obtain rfl := Option.some.inj h
      rw [Outbox.claim]
      split
      · exact hx
      · dsimp only
        split
        · exact hx
        · rw [sends_next]
          exact hx
    · cases h
  | send i accepted =>
    simp only [Outbox.step] at h
    split at h
    · obtain rfl := Option.some.inj h
      exact List.mem_append_left _ hx
    · cases h
  | acknowledge i now ending =>
    simp only [Outbox.step] at h
    split at h
    · obtain rfl := Option.some.inj h
      rw [Outbox.acknowledge]
      split
      · exact hx
      · dsimp only
        split
        · rw [sends_next]
          exact hx
        · exact hx
    · cases h
  | crash i =>
    obtain rfl := Option.some.inj h
    exact hx

/-! ### The invariant -/

/-- What holds of the table and the instances after any steps. -/
structure Outbox.Sound (s : Outbox) : Prop where
  ids : (s.rows.map (·.id)).Nodup
  leased : ∀ row ∈ s.rows, row.status = .delivering → row.leaseExpiresAt.isSome
  sent : ∀ row ∈ s.rows, row.status = .delivered → ⟨row.id, row.attemptCount, true⟩ ∈ s.sends
  answered : ∀ i c accepted rest, s.flushes i = .acknowledging c accepted rest →
    ⟨c.id, c.attemptCount, accepted⟩ ∈ s.sends
  held : ∀ i, ∀ c ∈ (s.flushes i).held, ∃ row ∈ s.rows, row.id = c.id ∧
    c.attemptCount ≤ row.attemptCount
  apart : ∀ i j c d, c ∈ (s.flushes i).held → d ∈ (s.flushes j).held → c.id = d.id →
    c.attemptCount = d.attemptCount → i = j

theorem sound_initial : Outbox.initial.Sound := by
  refine ⟨List.nodup_nil, ?_, ?_, ?_, ?_, ?_⟩
  · intro row hrow
    cases hrow
  · intro row hrow
    cases hrow
  · intro i c accepted rest h
    cases h
  · intro i c hc
    cases hc
  · intro i j c d hc
    cases hc

/-- Rows of one id are one row. -/
theorem row_unique (hids : (s.rows.map (·.id)).Nodup) {row other : OutboxRow} (hrow : row ∈ s.rows)
    (hother : other ∈ s.rows) (h : row.id = other.id) : row = other :=
  List.inj_on_of_nodup_map hids hrow hother h

/-- What an instance claims has more attempts than anything held of the row before. -/
theorem claimed_newer (hs : s.Sound) {i j : ℕ} {now : ℤ} {locked : List ℕ} {c d : Claimed}
    (hc : c ∈ s.claimed options i now locked) (hd : d ∈ (s.flushes j).held) (hid : c.id = d.id) :
    d.attemptCount < c.attemptCount := by
  obtain ⟨row, hrow, hrowId, hattempt⟩ := mem_claimed hc
  obtain ⟨other, hother, hotherId, hle⟩ := hs.held j d hd
  have hsame : row = other :=
    row_unique hs.ids (due_of_mem hrow).1 hother (by rw [hrowId, hid, hotherId])
  rw [hsame] at hattempt
  omega

theorem sound_step {a : Action} (hs : s.Sound) (h : s.step options a = some t) : t.Sound := by
  obtain ⟨added, f, hrows, ⟨hnodup, hfresh⟩, hf⟩ := rows_step h
  have hids : (t.rows.map (·.id)).Nodup := by
    have hmap : (s.rows.map f).map (·.id) = s.rows.map (·.id) := by
      rw [List.map_map]
      exact List.map_congr_left fun row hrow => (hf row hrow).1
    rw [hrows, List.map_append, hmap]
    refine List.Nodup.append hs.ids hnodup ?_
    intro id hid hnew
    obtain ⟨row, hrow, rfl⟩ := List.mem_map.mp hid
    obtain ⟨new, hmem, hsame⟩ := List.mem_map.mp hnew
    exact (hfresh new hmem).2 row hrow hsame.symm
  -- a row of the table after the step is a changed row or a new one
  have hmem : ∀ row ∈ t.rows, (∃ old ∈ s.rows, row.id = old.id ∧ Change s a old row) ∨
      row.status = .pending := by
    intro row hrow
    rw [hrows] at hrow
    rcases List.mem_append.mp hrow with hrow | hrow
    · obtain ⟨old, hold, rfl⟩ := List.mem_map.mp hrow
      exact .inl ⟨old, hold, hf old hold⟩
    · exact .inr (hfresh row hrow).1
  have hkept : ∀ row ∈ s.rows, f row ∈ t.rows := by
    intro row hrow
    rw [hrows]
    exact List.mem_append_left _ (List.mem_map_of_mem hrow)
  refine ⟨hids, ?_, ?_, ?_, ?_, ?_⟩
  · intro row hrow hdelivering
    rcases hmem row hrow with ⟨old, hold, -, hchange⟩ | hpending
    · exact hchange.leased (hs.leased old hold) hdelivering
    · rw [hpending] at hdelivering
      cases hdelivering
  · intro row hrow hdelivered
    rcases hmem row hrow with ⟨old, hold, hid, hchange⟩ | hpending
    · cases hchange with
      | kept => exact sends_step h (hs.sent row hold hdelivered)
      | claimed due attempt status =>
        rw [status] at hdelivered
        cases hdelivered
      | @acknowledged i _ _ c accepted rest _ _ flush held attempt status =>
        cases accepted with
        | false =>
          rw [status] at hdelivered
          cases hdelivered
        | true =>
          have hsend := sends_step h (hs.answered i c true rest flush)
          simp only [OutboxRow.heldBy, decide_eq_true_eq] at held
          rwa [hid, attempt, held.1, held.2.2]
    · rw [hpending] at hdelivered
      cases hdelivered
  · intro i c accepted rest hflush
    rcases acknowledging_step h hflush with hbefore | hsend
    · exact sends_step h (hs.answered i c accepted rest hbefore)
    · exact hsend
  · intro i c hc
    rcases held_step h hc with hbefore | ⟨now, locked, ending, rfl, hclaim, hnew⟩
    · obtain ⟨row, hrow, hid, hle⟩ := hs.held i c hbefore
      obtain ⟨hsame, hchange⟩ := hf row hrow
      exact ⟨f row, hkept row hrow, hsame.trans hid, hle.trans hchange.attempt_le⟩
    · obtain ⟨row, hrow, hid, hattempt⟩ := mem_claimed hnew
      refine ⟨row.claim now (options i).leaseMs, ?_, hid, hattempt.le⟩
      rw [hclaim]
      refine List.mem_map.mpr ⟨row, (due_of_mem hrow).1, ?_⟩
      rw [if_pos hrow]
  · intro i j c d hc hd hid hattempt
    rcases held_step h hc with hc | ⟨now, locked, ending, rfl, -, hnew⟩
    · rcases held_step h hd with hd | ⟨now, locked, ending, rfl, -, hnew⟩
      · exact hs.apart i j c d hc hd hid hattempt
      · have hlt := claimed_newer hs hnew hc hid.symm
        omega
    · rcases held_step h hd with hd | ⟨now', locked', ending', hsame, -, -⟩
      · have hlt := claimed_newer hs hnew hd hid
        omega
      · cases hsame
        rfl

/-- Once its times have passed, an undelivered row is due. -/
theorem due_of_passed (hs : s.Sound) {row : OutboxRow} (hrow : row ∈ s.rows)
    (hstatus : row.status ≠ .delivered) {now : ℤ} (hnext : row.nextAttemptAt ≤ now)
    (hlease : ∀ lease ∈ row.leaseExpiresAt, lease ≤ now) : row.due now = true := by
  rw [OutboxRow.due, decide_eq_true_eq]
  refine ⟨hnext, ?_⟩
  cases h : row.status with
  | pending => exact .inl rfl
  | retry => exact .inr (.inl rfl)
  | delivering =>
    obtain ⟨lease, hsome⟩ := Option.isSome_iff_exists.mp (hs.leased row hrow h)
    refine .inr (.inr ⟨rfl, ?_⟩)
    rw [hsome]
    exact decide_eq_true (hlease lease hsome)
  | delivered => exact absurd h hstatus

/-- An instance that has nothing to do can claim a due row. -/
theorem claim_of_due (hs : s.Sound) {row : OutboxRow} (hrow : row ∈ s.rows) {now : ℤ}
    (hdue : row.due now = true) (hcount : row.attemptCount ≠ 2147483647) {i : ℕ}
    (hidle : s.flushes i = .idle) : ∃ locked t,
      s.step options (.claim i now locked .answered) = some t ∧
        row.claim now (options i).leaseMs ∈ t.rows := by
  let locked := (s.rows.filter fun other => other.id ≠ row.id).map (·.id)
  have hall : ∀ other ∈ s.dueRows options i now locked, other = row := by
    intro other hother
    have hmem := (List.mem_insertionSort _).mp (List.mem_of_mem_take hother)
    simp only [List.mem_filter, decide_eq_true_eq] at hmem
    by_contra hne
    refine hmem.2.2 (List.mem_map.mpr ⟨other, List.mem_filter.mpr ⟨hmem.1, ?_⟩, rfl⟩)
    exact decide_eq_true fun hid => hne (row_unique hs.ids hmem.1 hrow hid)
  have hin : row ∈ s.dueRows options i now locked := by
    have hmem : row ∈ (s.rows.filter fun row => row.due now ∧ row.id ∉ locked).insertionSort
        fun a b => a.before b := by
      refine (List.mem_insertionSort _).mpr (List.mem_filter.mpr ⟨hrow, ?_⟩)
      refine decide_eq_true ⟨hdue, fun hlocked => ?_⟩
      obtain ⟨other, hother, hid⟩ := List.mem_map.mp hlocked
      exact of_decide_eq_true (List.mem_filter.mp hother).2 hid
    obtain ⟨n, hn⟩ := Nat.exists_eq_add_of_le' (options i).batch_pos
    rw [Outbox.dueRows, hn] at hall ⊢
    cases hsorted : (s.rows.filter fun row => row.due now ∧ row.id ∉ locked).insertionSort
        fun a b => a.before b with
    | nil =>
      rw [hsorted] at hmem
      cases hmem
    | cons first rest =>
      rw [hsorted] at hall
      have hfirst := hall first (by rw [List.take_succ_cons]; exact List.mem_cons_self)
      rw [List.take_succ_cons, hfirst]
      exact List.mem_cons_self
  have hover : (s.dueRows options i now locked).any (·.attemptCount = 2147483647) = false := by
    rw [List.any_eq_false]
    intro other hother
    rw [hall other hother]
    simpa using hcount
  refine ⟨locked, s.claim options i now locked .answered, by simp only [Outbox.step, hidle], ?_⟩
  rw [Outbox.claim, hover, if_neg (by simp)]
  dsimp only
  rw [if_neg (by simp), rows_next]
  refine List.mem_map.mpr ⟨row, hrow, ?_⟩
  rw [if_pos hin]

/-- After any steps of any instances: a delivered row had an accepted send, an undelivered row has
    a status and times from which it is claimed again, what an instance holds of a row is not newer
    than the row and is held by no other instance; and a next step keeps every row up to a claim
    that raises its attempt or an acknowledgement by the holder of that attempt. -/
theorem outbox_of_run {es : List Action}
    (hrun : Transition.run (Outbox.step options) Outbox.initial es = some s) :
    (∀ row ∈ s.rows, row.status = .delivered → ⟨row.id, row.attemptCount, true⟩ ∈ s.sends) ∧
    (∀ row ∈ s.rows, row.status ≠ .delivered →
      (row.status = .pending ∨ row.status = .retry ∨
        row.status = .delivering ∧ row.leaseExpiresAt.isSome) ∧
      ∀ now, row.nextAttemptAt ≤ now → (∀ lease ∈ row.leaseExpiresAt, lease ≤ now) →
        row.due now = true ∧ ∀ i, s.flushes i = .idle → row.attemptCount ≠ 2147483647 →
          ∃ locked t, s.step options (.claim i now locked .answered) = some t ∧
            row.claim now (options i).leaseMs ∈ t.rows) ∧
    (∀ i, ∀ c ∈ (s.flushes i).held, (∃ row ∈ s.rows, row.id = c.id ∧
      c.attemptCount ≤ row.attemptCount) ∧ ∀ j, ∀ d ∈ (s.flushes j).held, d.id = c.id →
        d.attemptCount = c.attemptCount → j = i) ∧
    ∀ a t, s.step options a = some t → ∀ row ∈ s.rows, ∃ row' ∈ t.rows, row'.id = row.id ∧
      (∀ other ∈ t.rows, other.id = row.id → other = row') ∧ Change s a row row' ∧
      (row.status = .delivered → row' = row) := by
  have hs : s.Sound :=
    Transition.invariant (fun s a t hs h => sound_step hs h) sound_initial hrun
  refine ⟨hs.sent, ?_, ?_, ?_⟩
  · intro row hrow hstatus
    refine ⟨?_, fun now hnext hlease => ?_⟩
    · cases h : row.status with
      | pending => exact .inl rfl
      | retry => exact .inr (.inl rfl)
      | delivering => exact .inr (.inr ⟨rfl, hs.leased row hrow h⟩)
      | delivered => exact absurd h hstatus
    · have hdue := due_of_passed hs hrow hstatus hnext hlease
      exact ⟨hdue, fun i hidle hcount => claim_of_due hs hrow hdue hcount hidle⟩
  · intro i c hc
    exact ⟨hs.held i c hc, fun j d hd hid hattempt => hs.apart j i d c hd hc hid hattempt⟩
  · intro a t h row hrow
    obtain ⟨added, f, hrows, -, hf⟩ := rows_step h
    obtain ⟨hid, hchange⟩ := hf row hrow
    have hkept : f row ∈ t.rows := by
      rw [hrows]
      exact List.mem_append_left _ (List.mem_map_of_mem hrow)
    refine ⟨f row, hkept, hid, fun other hother hsame => ?_, hchange, hchange.of_delivered⟩
    exact row_unique (sound_step hs h).ids hother hkept (hsame.trans hid.symm)

namespace Sample

def outboxOptions (_ : ℕ) : ObservabilityOutboxOptions :=
  ⟨1, 10, 5, 20, by decide, by decide, by decide, by decide⟩

/-- The lease of instance 0 runs out during its send, and instance 1 takes the row over. -/
def takeover : List Action := [.enqueue 7 0 0, .claim 0 0 [] .answered, .send 0 true,
  .claim 1 10 [] .answered, .acknowledge 0 11 .answered, .send 1 true, .acknowledge 1 12 .answered]

/-- The late acknowledgement of attempt 1 changes nothing, and attempt 2 delivers the row. -/
theorem outbox_of_run_takeover : ∃ s, Transition.run (Outbox.step outboxOptions) Outbox.initial
    takeover = some s ∧ s.rows.map (fun row => (row.status, row.attemptCount)) = [(.delivered, 2)] ∧
      ∀ row ∈ s.rows, row.status = .delivered → ⟨row.id, row.attemptCount, true⟩ ∈ s.sends := by
  have hrows : ((Transition.run (Outbox.step outboxOptions) Outbox.initial takeover).map
      fun s => s.rows.map fun row => (row.status, row.attemptCount)) = some [(.delivered, 2)] := rfl
  obtain ⟨s, hrun, hs⟩ := Option.map_eq_some_iff.mp hrows
  exact ⟨s, hrun, hs, (outbox_of_run hrun).1⟩

end Sample

end ScalpingBot.Observability
