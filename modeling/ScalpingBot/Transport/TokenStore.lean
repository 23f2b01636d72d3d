import Mathlib.Logic.Function.Basic
import Mathlib.Data.Nat.Basic
import Mathlib.Order.Basic
import ScalpingBot.Library.Transition

/-! `SecureTokenFileStore.coordinateRefresh` (packages/ctrader-client/src/token-store.ts) with the
    refresh of token-manager.ts as its callback. Any number of processes share the token file, its
    lock file and the temporary files; each file operation is a step, and a call may end at any. -/

namespace ScalpingBot.TokenStore

structure TokenSet where
  accessToken : String
  refreshToken : String
  /-- in milliseconds -/
  expiresAt : ℕ
  deriving DecidableEq

/-- An error, with the code that a file operation gives it. -/
structure Failure where
  code : Option String
  message : String
  deriving DecidableEq

inductive Outcome where
  | returned (tokens : TokenSet)
  | threw (failure : Failure)
  deriving DecidableEq

/-- The lock file; `id` tells apart the files that were created at its path. -/
structure Lock where
  id : ℕ
  /-- in microseconds -/
  mtime : ℕ
  deriving DecidableEq

/-- Where a call of `coordinateRefresh` is: before its first step, at the head of the loop, in the
    critical section (`refreshing`, `writing` and `replacing` are the callback), in its `finally`, in
    the `catch` of a lock that exists already, or at its end. -/
inductive Phase where
  | idle
  | trying
  | reading (lock : Lock)
  | refreshing (lock : Lock) (refreshToken : String)
  | writing (lock : Lock) (tokens : TokenSet)
  | replacing (lock : Lock) (tokens : TokenSet)
  | closing (lock : Lock) (outcome : Outcome)
  | unlinking (lock : Lock) (outcome : Outcome)
  | contended
  | inspecting
  | judging (seen : Lock)
  | removing (seen : Lock)
  | waiting
  | done (outcome : Outcome)
  | crashed
  deriving DecidableEq

namespace Phase

/-- The lock that the call has created and not yet tried to remove. -/
def own : Phase → Option Lock
  | .reading lock | .refreshing lock _ | .writing lock _ | .replacing lock _ | .closing lock _
  | .unlinking lock _ => some lock
  | _ => none

/-- The lock under which the call reads the tokens or refreshes them. -/
def held : Phase → Option Lock
  | .reading lock | .refreshing lock _ | .writing lock _ | .replacing lock _ => some lock
  | _ => none

/-- The lock under which the callback runs. -/
def inside : Phase → Option Lock
  | .refreshing lock _ | .writing lock _ | .replacing lock _ => some lock
  | _ => none

/-- The lock that the next `unlink` of the call is meant for. -/
def target : Phase → Option Lock
  | .unlinking lock _ | .removing lock => some lock
  | _ => none

end Phase

/-- A call, with what its callback has done so far. -/
structure Call where
  phase : Phase := .idle
  pid : ℕ := 0
  refreshToken : String := ""
  /-- in milliseconds -/
  deadline : ℕ := 0
  invoked : ℕ := 0
  raised : Option Failure := none
  deriving DecidableEq

structure State where
  /-- in microseconds -/
  now : ℕ := 0
  tokens : Option TokenSet := none
  /-- the processes whose temporary file exists -/
  temporary : ℕ → Bool := fun _ => false
  lock : Option Lock := none
  /-- how many lock files were created -/
  created : ℕ := 0
  calls : ℕ → Call := fun _ => {}

namespace State

variable (s : State)

/-- `Date.now()`. -/
def dateNow : ℕ := s.now / 1000

def put (c : ℕ) (call : Call) : State := { s with calls := Function.update s.calls c call }

def go (c : ℕ) (phase : Phase) : State := s.put c { s.calls c with phase }

/-- The tokens that are good for five more minutes. -/
def latest : Option TokenSet := s.tokens.filter fun t => s.dateNow + 300000 < t.expiresAt

/-- Whether a lock file is too old. -/
def stale (lock : Lock) : Bool := lock.mtime + 30000000 < s.dateNow * 1000

/-- The start of the callback. -/
def invoke (c : ℕ) (lock : Lock) : State :=
  let call := s.calls c
  s.put c { call with
    phase := .refreshing lock ((s.tokens.map (·.refreshToken)).getD call.refreshToken)
    invoked := call.invoked + 1 }

/-- The callback ends with an error. -/
def raise (c : ℕ) (lock : Lock) (failure : Failure) : State :=
  s.put c { s.calls c with phase := .closing lock (.threw failure), raised := some failure }

end State

/-- The `catch` around the critical section: only a lock that exists already is waited for. -/
def catchError (failure : Failure) : Phase :=
  if failure.code = some "EEXIST" then .contended else .done (.threw failure)

/-- The `catch` around the inspection of the lock. -/
def catchStat (failure : Failure) : Phase :=
  if failure.code = some "ENOENT" then .waiting else .done (.threw failure)

def leave : Outcome → Phase
  | .returned tokens => .done (.returned tokens)
  | .threw failure => catchError failure

def existsFailure : Failure := ⟨some "EEXIST", "EEXIST: file already exists"⟩

def timeoutFailure : Failure := ⟨none, "CTRADER_TOKEN_REFRESH_LOCK_TIMEOUT"⟩

/-- The steps of the clock and of the calls. `fail` is a file operation or request that fails in the
    environment; `tear` is a `writeFile` that fails after it has created the file. -/
inductive Event where
  | tick (elapsed : ℕ)
  | begin (c pid : ℕ) (refreshToken : String)
  | openLock (c : ℕ)
  | read (c : ℕ)
  | respond (c : ℕ) (tokens : TokenSet)
  | write (c : ℕ)
  | rename (c : ℕ)
  | close (c : ℕ)
  | unlink (c : ℕ)
  | inspect (c : ℕ)
  | judge (c : ℕ)
  | wake (c : ℕ)
  | fail (c : ℕ) (failure : Failure)
  | tear (c : ℕ) (failure : Failure)
  | crash (c : ℕ)
  deriving DecidableEq

/-- The call whose step it is. -/
def Event.call : Event → Option ℕ
  | .tick _ => none
  | .begin c _ _ | .openLock c | .read c | .respond c _ | .write c | .rename c | .close c
  | .unlink c | .inspect c | .judge c | .wake c | .fail c _ | .tear c _ | .crash c => some c

namespace State

variable (s : State)

/-- `open(lockPath, "wx")`, unless the deadline has passed. -/
def openLock (c : ℕ) : State :=
  if s.dateNow < (s.calls c).deadline then
    match s.lock with
    | some _ => s.go c (catchError existsFailure)
    | none =>
      let lock : Lock := ⟨s.created, s.now⟩
      { s.go c (.reading lock) with lock := some lock, created := s.created + 1 }
  else
    s.go c (.done (.threw timeoutFailure))

/-- `read()` finds the tokens or none, before the refresh and after a lock that exists already. -/
def read (c : ℕ) : Option State :=
  match (s.calls c).phase with
  | .reading lock =>
    match s.latest with
    | some tokens => some (s.go c (.closing lock (.returned tokens)))
    | none => some (s.invoke c lock)
  | .contended =>
    match s.latest with
    | some tokens => some (s.go c (.done (.returned tokens)))
    | none => some (s.go c .inspecting)
  | _ => none

/-- `writeFile(temporary, …, { flag: "wx" })`. -/
def write (c : ℕ) : Option State :=
  match (s.calls c).phase with
  | .writing lock tokens =>
    if s.temporary (s.calls c).pid then
      some (s.raise c lock existsFailure)
    else
      some { s.go c (.replacing lock tokens) with
        temporary := Function.update s.temporary (s.calls c).pid true }
  | _ => none

/-- `rename(temporary, this.#path)`, after which the callback returns. -/
def rename (c : ℕ) : Option State :=
  match (s.calls c).phase with
  | .replacing lock tokens =>
    some { s.go c (.closing lock (.returned tokens)) with
      tokens := some tokens
      temporary := Function.update s.temporary (s.calls c).pid false }
  | _ => none

/-- `unlink(lockPath)`, which removes whatever lock file it finds. -/
def unlink (c : ℕ) : Option State :=
  match (s.calls c).phase with
  | .unlinking _ outcome => some { s.go c (leave outcome) with lock := none }
  | .removing _ => some { s.go c .waiting with lock := none }
  | _ => none

/-- What an operation that fails leads to. -/
def fail (c : ℕ) (failure : Failure) : Option State :=
  match (s.calls c).phase with
  | .idle => some (s.go c (.done (.threw failure)))
  | .trying => some (s.go c (catchError failure))
  | .reading lock => some (s.go c (.closing lock (.threw failure)))
  | .refreshing lock _ | .writing lock _ | .replacing lock _ => some (s.raise c lock failure)
  -- the lock file is not removed
  | .closing _ _ => some (s.go c (catchError failure))
  | .unlinking _ outcome => some (s.go c (leave outcome))
  | .contended => some (s.go c (.done (.threw failure)))
  | .inspecting | .removing _ => some (s.go c (catchStat failure))
  | _ => none

end State

def step (s : State) : Event → Option State
  | .tick elapsed => some { s with now := s.now + elapsed }
  | .begin c pid refreshToken =>
    match (s.calls c).phase with
    | .idle => some (s.put c { s.calls c with
        phase := .trying, pid, refreshToken, deadline := s.dateNow + 15000 })
    | _ => none
  | .openLock c =>
    match (s.calls c).phase with
    | .trying => some (s.openLock c)
    | _ => none
  | .read c => s.read c
  | .respond c tokens =>
    match (s.calls c).phase with
    | .refreshing lock _ => some (s.go c (.writing lock tokens))
    | _ => none
  | .write c => s.write c
  | .rename c => s.rename c
  | .close c =>
    match (s.calls c).phase with
    | .closing lock outcome => some (s.go c (.unlinking lock outcome))
    | _ => none
  | .unlink c => s.unlink c
  | .inspect c =>
    match (s.calls c).phase, s.lock with
    | .inspecting, some lock => some (s.go c (.judging lock))
    | .inspecting, none => some (s.go c .waiting)
    | _, _ => none
  | .judge c =>
    match (s.calls c).phase with
    | .judging seen => some (s.go c (if s.stale seen then .removing seen else .waiting))
    | _ => none
  | .wake c =>
    match (s.calls c).phase with
    | .waiting => some (s.go c .trying)
    | _ => none
  | .fail c failure => s.fail c failure
  | .tear c failure =>
    match (s.calls c).phase with
    | .writing lock _ => some { s.raise c lock failure with
        temporary := Function.update s.temporary (s.calls c).pid true }
    | _ => none
  | .crash c =>
    match (s.calls c).phase with
    | .done _ => none
    | _ => some (s.go c .crashed)

/-! ### What a run keeps -/

namespace State

variable (s : State)

/-- Every callback has run for at most thirty seconds since its lock was created. -/
def OnTime : Prop := ∀ c lock, (s.calls c).phase.inside = some lock → s.now ≤ lock.mtime + 30000000

/-- At most one callback runs. -/
def Exclusive : Prop :=
  ∀ c d, (s.calls c).phase.inside.isSome → (s.calls d).phase.inside.isSome → c = d

/-- Every call invokes its callback at most once, and an error of the callback is what the call ends
    with, unless it crashes. -/
def Reports : Prop :=
  ∀ c, (s.calls c).invoked ≤ 1 ∧ ∀ failure, (s.calls c).raised = some failure →
    (s.calls c).phase = .crashed ∨ (s.calls c).phase = .done (.threw failure) ∨
    ∃ lock, (s.calls c).phase = .closing lock (.threw failure) ∨
      (s.calls c).phase = .unlinking lock (.threw failure)

end State

/-- Removing a lock file removes the one that the call has created or found too old, or one that no
    call holds; the callback does not fail with the code of a file that exists, such as its own
    temporary file; and a lock file whose callback has run is closed, unless with an error that is
    not of this code after a callback without error. -/
def Undisturbed (s : State) : Event → Prop
  | .unlink c => ∀ lock, s.lock = some lock → (s.calls c).phase.target ≠ some lock →
      ∀ d, (s.calls d).phase.held ≠ some lock
  | .write c => s.temporary (s.calls c).pid = false
  | .fail c failure | .tear c failure =>
    ((s.calls c).phase.inside.isSome → failure.code ≠ some "EEXIST") ∧
    ∀ lock outcome, (s.calls c).phase = .closing lock outcome → (s.calls c).invoked = 0 ∨
      (s.calls c).raised = none ∧ failure.code ≠ some "EEXIST"
  | _ => True

/-! ### What a step does -/

/-- What a step of call `c` does with the locks: it creates the lock file, removes the one it finds,
    or leaves it alone and takes up no lock. -/
inductive Effect (s : State) (e : Event) (t : State) (c : ℕ) : Prop where
  | creates (hnone : s.lock = none)
      (hphase : (t.calls c).phase = .reading ⟨s.created, s.now⟩)
      (hlock : t.lock = some ⟨s.created, s.now⟩) (hcreated : t.created = s.created + 1)
  | removes (hevent : e = .unlink c) (hown : (t.calls c).phase.own = none)
      (htarget : (t.calls c).phase.target = none) (hlock : t.lock = none)
      (hcreated : t.created = s.created)
  | leaves (hown : ∀ lock, (t.calls c).phase.own = some lock → (s.calls c).phase.own = some lock)
      (hheld : ∀ lock, (t.calls c).phase.held = some lock → (s.calls c).phase.held = some lock)
      (hstale : ∀ lock, (t.calls c).phase = .removing lock → s.stale lock)
      (hlock : t.lock = s.lock) (hcreated : t.created = s.created)

/-- A step of call `c`, in which the clock and the other calls stand still. -/
structure Moves (s : State) (e : Event) (t : State) (c : ℕ) : Prop where
  now : t.now = s.now
  others : ∀ d, d ≠ c → t.calls d = s.calls d
  effect : Effect s e t c

variable {s t : State} {e : Event} {c d : ℕ}

theorem put_calls {call : Call} : (s.put c call).calls c = call := Function.update_self ..

theorem put_others {call : Call} (h : d ≠ c) : (s.put c call).calls d = s.calls d :=
  Function.update_of_ne h ..

@[simp] theorem own_leave (outcome : Outcome) : (leave outcome).own = none := by
  cases outcome with
  | returned tokens => rfl
  | threw failure =>
    rw [leave, catchError]
    split <;> rfl

@[simp] theorem target_leave (outcome : Outcome) : (leave outcome).target = none := by
  cases outcome with
  | returned tokens => rfl
  | threw failure =>
    rw [leave, catchError]
    split <;> rfl

@[simp] theorem own_catchError (failure : Failure) : (catchError failure).own = none :=
  own_leave (.threw failure)

@[simp] theorem target_catchError (failure : Failure) : (catchError failure).target = none :=
  target_leave (.threw failure)

@[simp] theorem own_catchStat (failure : Failure) : (catchStat failure).own = none := by
  rw [catchStat]
  split <;> rfl

@[simp] theorem target_catchStat (failure : Failure) : (catchStat failure).target = none := by
  rw [catchStat]
  split <;> rfl

theorem Phase.held_own {p : Phase} {lock : Lock} (h : p.held = some lock) : p.own = some lock := by
  cases p <;> simp_all [Phase.held, Phase.own]

theorem Phase.inside_held {p : Phase} {lock : Lock} (h : p.inside = some lock) :
    p.held = some lock := by
  cases p <;> simp_all [Phase.held, Phase.inside]

/-- A call that gives up its lock, if it has one, or never had one. -/
theorem moves_free {call : Call} (hcalls : t.calls = (s.put c call).calls) (hnow : t.now = s.now)
    (hlock : t.lock = s.lock) (hcreated : t.created = s.created) (hown : call.phase.own = none)
    (htarget : call.phase.target = none) : Moves s e t c := by
  have hc : t.calls c = call := by rw [hcalls, put_calls]
  refine ⟨hnow, fun d hd => by rw [hcalls, put_others hd], .leaves ?_ ?_ ?_ hlock hcreated⟩
  · intro lock h
    rw [hc, hown] at h
    cases h
  · intro lock h
    have hheld := Phase.held_own h
    rw [hc, hown] at hheld
    cases hheld
  · intro lock h
    rw [← hc, h] at htarget
    cases htarget

theorem go_free {phase : Phase} (hown : phase.own = none) (htarget : phase.target = none) :
    Moves s e (s.go c phase) c :=
  moves_free rfl rfl rfl rfl hown htarget

/-- A call that keeps its lock. -/
theorem moves_keep {call : Call} {lock : Lock} (hcalls : t.calls = (s.put c call).calls)
    (hnow : t.now = s.now) (hlock : t.lock = s.lock) (hcreated : t.created = s.created)
    (hbefore : (s.calls c).phase.own = some lock) (hown : call.phase.own = some lock)
    (hheld : call.phase.held.isSome → (s.calls c).phase.held = some lock) : Moves s e t c := by
  have hc : t.calls c = call := by rw [hcalls, put_calls]
  refine ⟨hnow, fun d hd => by rw [hcalls, put_others hd], .leaves ?_ ?_ ?_ hlock hcreated⟩
  · intro other h
    rw [hc, hown] at h
    rwa [hbefore]
  · intro other h
    have hother := Phase.held_own h
    rw [hc, hown] at hother
    rw [hc] at h
    rw [hheld (by rw [h]; rfl), hother]
  · intro other h
    rw [← hc, h] at hown
    cases hown

theorem openLock_moves : Moves s (.openLock c) (s.openLock c) c := by
  rw [State.openLock]
  split
  · cases hlock : s.lock with
    | none =>
      exact ⟨rfl, fun d hd => put_others hd, .creates hlock (by simp [State.go, State.put]) rfl rfl⟩
    | some lock => exact go_free (own_catchError _) (target_catchError _)
  · exact go_free rfl rfl

theorem read_moves (h : s.read c = some t) : Moves s (.read c) t c := by
  rw [State.read] at h
  cases hp : (s.calls c).phase with
  | reading lock =>
    simp only [hp] at h
    split at h
    · cases h
      exact moves_keep rfl rfl rfl rfl (by rw [hp]; rfl) rfl nofun
    · cases h
      exact moves_keep rfl rfl rfl rfl (by rw [hp]; rfl) rfl fun _ => by rw [hp]; rfl
  | contended =>
    simp only [hp] at h
    split at h <;> cases h <;> exact go_free rfl rfl
  | _ =>
    rw [hp] at h
    cases h

theorem write_moves (h : s.write c = some t) : Moves s (.write c) t c := by
  rw [State.write] at h
  cases hp : (s.calls c).phase with
  | writing lock tokens =>
    simp only [hp] at h
    split at h
    · cases h
      exact moves_keep rfl rfl rfl rfl (by rw [hp]; rfl) rfl nofun
    · cases h
      exact moves_keep rfl rfl rfl rfl (by rw [hp]; rfl) rfl fun _ => by rw [hp]; rfl
  | _ =>
    rw [hp] at h
    cases h

theorem rename_moves (h : s.rename c = some t) : Moves s (.rename c) t c := by
  rw [State.rename] at h
  cases hp : (s.calls c).phase with
  | replacing lock tokens =>
    simp only [hp] at h
    cases h
    exact moves_keep rfl rfl rfl rfl (by rw [hp]; rfl) rfl nofun
  | _ =>
    rw [hp] at h
    cases h

theorem unlink_moves (h : s.unlink c = some t) : Moves s (.unlink c) t c := by
  rw [State.unlink] at h
  cases hp : (s.calls c).phase with
  | unlinking lock outcome =>
    simp only [hp] at h
    cases h
    exact ⟨rfl, fun d hd => put_others hd, .removes rfl (by simp [State.go, State.put])
      (by simp [State.go, State.put]) rfl rfl⟩
  | removing lock =>
    simp only [hp] at h
    cases h
    exact ⟨rfl, fun d hd => put_others hd, .removes rfl (by simp [State.go, State.put, Phase.own])
      (by simp [State.go, State.put, Phase.target]) rfl rfl⟩
  | _ =>
    rw [hp] at h
    cases h

theorem fail_moves {failure : Failure} (h : s.fail c failure = some t) :
    Moves s (.fail c failure) t c := by
  rw [State.fail] at h
  cases hp : (s.calls c).phase with
  | reading lock | refreshing lock token | writing lock tokens | replacing lock tokens =>
    simp only [hp] at h
    cases h
    exact moves_keep rfl rfl rfl rfl (by rw [hp]; rfl) rfl nofun
  | judging lock | waiting | done outcome | crashed =>
    simp only [hp] at h
    cases h
  | idle | contended =>
    simp only [hp] at h
    cases h
    exact go_free rfl rfl
  | trying | closing lock outcome =>
    simp only [hp] at h
    cases h
    exact go_free (own_catchError _) (target_catchError _)
  | unlinking lock outcome =>
    simp only [hp] at h
    cases h
    exact go_free (own_leave _) (target_leave _)
  | inspecting | removing lock =>
    simp only [hp] at h
    cases h
    exact go_free (own_catchStat _) (target_catchStat _)

/-- Every step is one of the clock or of a call. -/
theorem step_moves (h : step s e = some t) :
    (∃ elapsed, t = { s with now := s.now + elapsed }) ∨ ∃ c, e.call = some c ∧ Moves s e t c := by
  cases e with
  | tick elapsed => exact .inl ⟨elapsed, (Option.some.inj h).symm⟩
  | read c => exact .inr ⟨c, rfl, read_moves h⟩
  | write c => exact .inr ⟨c, rfl, write_moves h⟩
  | rename c => exact .inr ⟨c, rfl, rename_moves h⟩
  | unlink c => exact .inr ⟨c, rfl, unlink_moves h⟩
  | fail c failure => exact .inr ⟨c, rfl, fail_moves h⟩
  | begin c pid token =>
    cases hp : (s.calls c).phase <;> simp only [step, hp] at h <;> cases h
    exact .inr ⟨c, rfl, moves_free rfl rfl rfl rfl rfl rfl⟩
  | openLock c =>
    cases hp : (s.calls c).phase <;> simp only [step, hp] at h <;> cases h
    exact .inr ⟨c, rfl, openLock_moves⟩
  | respond c tokens =>
    cases hp : (s.calls c).phase <;> simp only [step, hp] at h <;> cases h
    exact .inr ⟨c, rfl, moves_keep rfl rfl rfl rfl (by rw [hp]; rfl) rfl fun _ => by rw [hp]; rfl⟩
  | close c =>
    cases hp : (s.calls c).phase <;> simp only [step, hp] at h <;> cases h
    exact .inr ⟨c, rfl, moves_keep rfl rfl rfl rfl (by rw [hp]; rfl) rfl nofun⟩
  | inspect c =>
    cases hp : (s.calls c).phase <;> cases hlock : s.lock <;> simp only [step, hp, hlock] at h <;>
      cases h
    · exact .inr ⟨c, rfl, go_free rfl rfl⟩
    · exact .inr ⟨c, rfl, go_free rfl rfl⟩
  | judge c =>
    cases hp : (s.calls c).phase <;> simp only [step, hp] at h <;> cases h
    refine .inr ⟨c, rfl, rfl, fun d hd => put_others hd, .leaves ?_ ?_ ?_ rfl rfl⟩
    · intro lock hown
      rw [State.go, put_calls] at hown
      split at hown <;> cases hown
    · intro lock hheld
      rw [State.go, put_calls] at hheld
      split at hheld <;> cases hheld
    · intro lock hphase
      rw [State.go, put_calls] at hphase
      split at hphase
      · cases hphase
        assumption
      · cases hphase
  | wake c =>
    cases hp : (s.calls c).phase <;> simp only [step, hp] at h <;> cases h
    exact .inr ⟨c, rfl, go_free rfl rfl⟩
  | tear c failure =>
    cases hp : (s.calls c).phase <;> simp only [step, hp] at h <;> cases h
    exact .inr ⟨c, rfl, moves_keep rfl rfl rfl rfl (by rw [hp]; rfl) rfl nofun⟩
  | crash c =>
    cases hp : (s.calls c).phase <;> simp only [step, hp] at h <;> cases h <;>
      exact .inr ⟨c, rfl, go_free rfl rfl⟩

/-! ### One callback at a time -/

/-- A lock that a call works under is the lock file or too old, and no two calls have created the
    same one. -/
structure Fenced (s : State) : Prop where
  created : ∀ c lock, (s.calls c).phase.own = some lock → lock.id < s.created
  distinct : ∀ c d lock, (s.calls c).phase.own = some lock → (s.calls d).phase.own = some lock →
    c = d
  seen : ∀ c lock, (s.calls c).phase = .removing lock → s.stale lock
  held : ∀ c lock, (s.calls c).phase.held = some lock → s.lock = some lock ∨ s.stale lock

theorem stale_iff {lock : Lock} :
    s.stale lock ↔ lock.mtime + 30000000 < s.now / 1000 * 1000 := by
  rw [State.stale, State.dateNow, decide_eq_true_eq]

theorem stale_mono {elapsed : ℕ} {lock : Lock} (h : s.stale lock) :
    State.stale { s with now := s.now + elapsed } lock := by
  have hmono : s.now / 1000 ≤ (s.now + elapsed) / 1000 := Nat.div_le_div_right (Nat.le_add_right ..)
  exact stale_iff.mpr (Nat.lt_of_lt_of_le (stale_iff.mp h) (Nat.mul_le_mul_right 1000 hmono))

theorem stale_now (h : t.now = s.now) (lock : Lock) : t.stale lock = s.stale lock := by
  rw [State.stale, State.stale, State.dateNow, State.dateNow, h]

theorem fenced_step (hs : Fenced s) (hguard : Undisturbed s e) (h : step s e = some t) :
    Fenced t := by
  rcases step_moves h with ⟨elapsed, rfl⟩ | ⟨c, -, hnow, hothers, heffect⟩
  · exact ⟨hs.created, hs.distinct, fun c lock hp => stale_mono (hs.seen c lock hp),
      fun c lock hp => (hs.held c lock hp).imp_right stale_mono⟩
  have hcall (d : ℕ) : d = c ∨ t.calls d = s.calls d := by
    by_cases hd : d = c
    · exact .inl hd
    · exact .inr (hothers d hd)
  cases heffect with
  | creates hnone hphase hlock hcreated =>
    have hown (d : ℕ) (lock : Lock) (hd : (t.calls d).phase.own = some lock) :
        d = c ∧ lock = ⟨s.created, s.now⟩ ∨ (s.calls d).phase.own = some lock := by
      rcases hcall d with rfl | hd'
      · rw [hphase] at hd
        exact .inl ⟨rfl, (Option.some.inj hd).symm⟩
      · exact .inr (hd' ▸ hd)
    refine ⟨fun d lock hd => ?_, fun d d' lock hd hd' => ?_, fun d lock hd => ?_,
      fun d lock hd => ?_⟩
    · rw [hcreated]
      rcases hown d lock hd with ⟨-, rfl⟩ | hd
      · exact Nat.lt_succ_self _
      · exact Nat.lt_succ_of_lt (hs.created d lock hd)
    · rcases hown d lock hd with ⟨rfl, rfl⟩ | hold <;> rcases hown d' _ hd' with ⟨rfl, heq⟩ | hold'
      · rfl
      · exact absurd (hs.created d' _ hold') (Nat.lt_irrefl _)
      · exact absurd (hs.created d lock hold) (heq ▸ Nat.lt_irrefl _)
      · exact hs.distinct d d' lock hold hold'
    · rw [stale_now hnow]
      rcases hcall d with rfl | hd'
      · rw [hphase] at hd
        cases hd
      · exact hs.seen d lock (hd' ▸ hd)
    · rw [stale_now hnow]
      rcases hcall d with rfl | hd'
      · rw [hphase] at hd
        exact .inl (hlock.trans hd)
      · rcases hs.held d lock (hd' ▸ hd) with hheld | hstale
        · rw [hnone] at hheld
          cases hheld
        · exact .inr hstale
  | removes hevent hownC htarget hlock hcreated =>
    subst hevent
    have hown (d : ℕ) (lock : Lock) (hd : (t.calls d).phase.own = some lock) :
        d ≠ c ∧ (s.calls d).phase.own = some lock := by
      rcases hcall d with rfl | hd'
      · rw [hownC] at hd
        cases hd
      · refine ⟨?_, hd' ▸ hd⟩
        rintro rfl
        rw [hownC] at hd
        cases hd
    refine ⟨fun d lock hd => hcreated ▸ hs.created d lock (hown d lock hd).2,
      fun d d' lock hd hd' => hs.distinct d d' lock (hown d lock hd).2 (hown d' lock hd').2,
      fun d lock hd => ?_, fun d lock hd => ?_⟩
    · rw [stale_now hnow]
      rcases hcall d with rfl | hd'
      · rw [hd] at htarget
        cases htarget
      · exact hs.seen d lock (hd' ▸ hd)
    · obtain ⟨hne, hownD⟩ := hown d lock (Phase.held_own hd)
      rw [hothers d hne] at hd
      rw [stale_now hnow]
      rcases hs.held d lock hd with hheld | hstale
      · -- the lock file that is removed is the one of another call
        by_cases htarget' : (s.calls c).phase.target = some lock
        · right
          cases hp : (s.calls c).phase <;> rw [hp] at htarget' <;> cases htarget'
          · exact absurd (hs.distinct c d lock (by rw [hp]; rfl) hownD) hne.symm
          · exact hs.seen c lock hp
        · exact absurd hd (hguard lock hheld htarget' d)
      · exact .inr hstale
  | leaves hownC hheldC hstaleC hlock hcreated =>
    have hown (d : ℕ) (lock : Lock) (hd : (t.calls d).phase.own = some lock) :
        (s.calls d).phase.own = some lock := by
      rcases hcall d with rfl | hd'
      · exact hownC lock hd
      · exact hd' ▸ hd
    refine ⟨fun d lock hd => hcreated ▸ hs.created d lock (hown d lock hd),
      fun d d' lock hd hd' => hs.distinct d d' lock (hown d lock hd) (hown d' lock hd'),
      fun d lock hd => ?_, fun d lock hd => ?_⟩
    · rw [stale_now hnow]
      rcases hcall d with rfl | hd'
      · exact hstaleC lock hd
      · exact hs.seen d lock (hd' ▸ hd)
    · rw [stale_now hnow, hlock]
      rcases hcall d with rfl | hd'
      · exact hs.held d lock (hheldC lock hd)
      · exact hs.held d lock (hd' ▸ hd)

/-- While every callback is on time, at most one runs. -/
theorem Fenced.exclusive (hs : Fenced s) (htime : s.OnTime) : s.Exclusive := by
  have hlock {c : ℕ} {lock : Lock} (hc : (s.calls c).phase.inside = some lock) :
      s.lock = some lock := by
    rcases hs.held c lock (Phase.inside_held hc) with hlock | hstale
    · exact hlock
    · have hbound := htime c lock hc
      rw [stale_iff] at hstale
      omega
  intro c d hc hd
  obtain ⟨lock, hc⟩ := Option.isSome_iff_exists.mp hc
  obtain ⟨lock', hd⟩ := Option.isSome_iff_exists.mp hd
  have heq : lock = lock' := Option.some.inj ((hlock hc).symm.trans (hlock hd))
  subst heq
  exact hs.distinct c d lock (Phase.held_own (Phase.inside_held hc))
    (Phase.held_own (Phase.inside_held hd))

/-! ### One refresh per call -/

namespace Call

variable (call : Call)

/-- The callback did not run. -/
def Fresh : Prop := call.invoked = 0 ∧ call.raised = none

/-- The outcome is the error of the callback, if there was one. -/
def Ends (outcome : Outcome) : Prop :=
  call.invoked ≤ 1 ∧ ∀ failure, call.raised = some failure →
    call.invoked = 1 ∧ outcome = .threw failure

/-- What the callback has done, by where the call is. -/
def Coherent : Prop :=
  match call.phase with
  | .refreshing _ _ | .writing _ _ | .replacing _ _ => call.invoked = 1 ∧ call.raised = none
  | .closing _ outcome | .unlinking _ outcome => call.Ends outcome ∧
      (call.invoked = 0 ∨ ∀ failure, outcome = .threw failure → failure.code ≠ some "EEXIST")
  | .done outcome => call.Ends outcome
  | .crashed => call.invoked ≤ 1
  | _ => call.Fresh

end Call

variable {call : Call} {failure : Failure} {outcome : Outcome}

theorem Call.Fresh.ends (h : call.Fresh) (outcome : Outcome) : call.Ends outcome := by
  refine ⟨h.1.trans_le (Nat.zero_le 1), fun failure hraised => ?_⟩
  rw [h.2] at hraised
  cases hraised

theorem coherent_catchError (hends : call.Ends (.threw failure))
    (hcode : call.invoked = 0 ∨ failure.code ≠ some "EEXIST") :
    Call.Coherent { call with phase := catchError failure } := by
  rw [catchError]
  split
  · next h =>
    have hzero : call.invoked = 0 := hcode.resolve_right fun hne => hne h
    refine ⟨hzero, ?_⟩
    cases hraised : call.raised with
    | none => rfl
    | some other =>
      have hone := (hends.2 other hraised).1
      omega
  · exact hends

theorem coherent_leave (hends : call.Ends outcome)
    (hcode : call.invoked = 0 ∨ ∀ failure, outcome = .threw failure →
      failure.code ≠ some "EEXIST") :
    Call.Coherent { call with phase := leave outcome } := by
  cases outcome with
  | returned tokens => exact hends
  | threw failure => exact coherent_catchError hends (hcode.imp_right fun h => h failure rfl)

theorem coherent_catchStat (h : call.Fresh) :
    Call.Coherent { call with phase := catchStat failure } := by
  rw [catchStat]
  split
  · exact h
  · exact h.ends _

theorem coherent_raise (h : call.invoked = 1) {lock : Lock}
    (hcode : failure.code ≠ some "EEXIST") :
    Call.Coherent { call with phase := .closing lock (.threw failure), raised := some failure } := by
  refine ⟨⟨h.le, ?_⟩, .inr ?_⟩
  · rintro other ⟨⟩
    exact ⟨h, rfl⟩
  · rintro other ⟨⟩
    exact hcode

/-- A step of call `c` keeps the call coherent. -/
def Keeps (s t : State) (c : ℕ) : Prop :=
  ∃ call, t.calls = (s.put c call).calls ∧ ((s.calls c).Coherent → call.Coherent)

theorem read_keeps (h : s.read c = some t) : Keeps s t c := by
  rw [State.read] at h
  cases hp : (s.calls c).phase with
  | reading lock =>
    simp only [hp] at h
    split at h <;> cases h <;> refine ⟨_, rfl, fun hcall => ?_⟩ <;>
      simp only [Call.Coherent, hp] at hcall
    · exact ⟨hcall.ends _, .inl hcall.1⟩
    · exact ⟨congrArg (· + 1) hcall.1, hcall.2⟩
  | contended =>
    simp only [hp] at h
    split at h <;> cases h <;> refine ⟨_, rfl, fun hcall => ?_⟩ <;>
      simp only [Call.Coherent, hp] at hcall
    · exact hcall.ends _
    · exact hcall
  | _ =>
    rw [hp] at h
    cases h

theorem write_keeps (h : s.write c = some t) (hguard : Undisturbed s (.write c)) :
    Keeps s t c := by
  have hnone : s.temporary (s.calls c).pid = false := hguard
  rw [State.write] at h
  cases hp : (s.calls c).phase with
  | writing lock tokens =>
    simp only [hp, hnone, Bool.false_eq_true, if_false] at h
    cases h
    refine ⟨_, rfl, fun hcall => ?_⟩
    simp only [Call.Coherent, hp] at hcall
    exact hcall
  | _ =>
    rw [hp] at h
    cases h

theorem returned_coherent {lock : Lock} {tokens : TokenSet} (h : call.invoked = 1)
    (hraised : call.raised = none) :
    Call.Coherent { call with phase := .closing lock (.returned tokens) } := by
  refine ⟨⟨h.le, fun failure hfailure => ?_⟩, .inr nofun⟩
  rw [hraised] at hfailure
  cases hfailure

theorem rename_keeps (h : s.rename c = some t) : Keeps s t c := by
  rw [State.rename] at h
  cases hp : (s.calls c).phase with
  | replacing lock tokens =>
    simp only [hp] at h
    cases h
    refine ⟨_, rfl, fun hcall => ?_⟩
    simp only [Call.Coherent, hp] at hcall
    exact returned_coherent hcall.1 hcall.2
  | _ =>
    rw [hp] at h
    cases h

theorem unlink_keeps (h : s.unlink c = some t) : Keeps s t c := by
  rw [State.unlink] at h
  cases hp : (s.calls c).phase with
  | unlinking lock outcome =>
    simp only [hp] at h
    cases h
    refine ⟨_, rfl, fun hcall => ?_⟩
    simp only [Call.Coherent, hp] at hcall
    exact coherent_leave hcall.1 hcall.2
  | removing lock =>
    simp only [hp] at h
    cases h
    refine ⟨_, rfl, fun hcall => ?_⟩
    simp only [Call.Coherent, hp] at hcall
    exact hcall
  | _ =>
    rw [hp] at h
    cases h

theorem openLock_keeps (hp : (s.calls c).phase = .trying) : Keeps s (s.openLock c) c := by
  rw [State.openLock]
  split
  · cases s.lock with
    | none =>
      refine ⟨_, rfl, fun hcall => ?_⟩
      simp only [Call.Coherent, hp] at hcall
      exact hcall
    | some lock =>
      refine ⟨_, rfl, fun hcall => ?_⟩
      simp only [Call.Coherent, hp] at hcall
      exact coherent_catchError (hcall.ends _) (.inl hcall.1)
  · refine ⟨_, rfl, fun hcall => ?_⟩
    simp only [Call.Coherent, hp] at hcall
    exact hcall.ends _

theorem fail_keeps (h : s.fail c failure = some t) (hguard : Undisturbed s (.fail c failure)) :
    Keeps s t c := by
  obtain ⟨hinside, hclosing⟩ := hguard
  rw [State.fail] at h
  cases hp : (s.calls c).phase with
  | judging lock | waiting | done outcome | crashed =>
    simp only [hp] at h
    cases h
  | idle | contended =>
    simp only [hp] at h
    cases h
    refine ⟨_, rfl, fun hcall => ?_⟩
    simp only [Call.Coherent, hp] at hcall
    exact hcall.ends _
  | trying =>
    simp only [hp] at h
    cases h
    refine ⟨_, rfl, fun hcall => ?_⟩
    simp only [Call.Coherent, hp] at hcall
    exact coherent_catchError (hcall.ends _) (.inl hcall.1)
  | reading lock =>
    simp only [hp] at h
    cases h
    refine ⟨_, rfl, fun hcall => ?_⟩
    simp only [Call.Coherent, hp] at hcall
    exact ⟨hcall.ends _, .inl hcall.1⟩
  | refreshing lock token | writing lock tokens | replacing lock tokens =>
    simp only [hp] at h
    cases h
    refine ⟨_, rfl, fun hcall => ?_⟩
    simp only [Call.Coherent, hp] at hcall
    exact coherent_raise hcall.1 (hinside (by rw [hp]; rfl))
  | closing lock outcome =>
    simp only [hp] at h
    cases h
    refine ⟨_, rfl, fun hcall => ?_⟩
    simp only [Call.Coherent, hp] at hcall
    obtain ⟨⟨hle, hraised⟩, -⟩ := hcall
    refine coherent_catchError ⟨hle, fun other hother => ?_⟩
      ((hclosing lock outcome hp).imp_right And.right)
    -- the error of `close` takes the place of one of the callback
    have hone := (hraised other hother).1
    rcases hclosing lock outcome hp with hzero | ⟨hnone, -⟩
    · omega
    · rw [hnone] at hother
      cases hother
  | unlinking lock outcome =>
    simp only [hp] at h
    cases h
    refine ⟨_, rfl, fun hcall => ?_⟩
    simp only [Call.Coherent, hp] at hcall
    exact coherent_leave hcall.1 hcall.2
  | inspecting | removing lock =>
    simp only [hp] at h
    cases h
    refine ⟨_, rfl, fun hcall => ?_⟩
    simp only [Call.Coherent, hp] at hcall
    exact coherent_catchStat hcall

theorem Call.Coherent.invoked_le (h : call.Coherent) : call.invoked ≤ 1 := by
  rw [Call.Coherent] at h
  split at h
  · exact h.1.le
  · exact h.1.le
  · exact h.1.le
  · exact h.1.1
  · exact h.1.1
  · exact h.1
  · exact h
  · exact h.1.trans_le (Nat.zero_le 1)

theorem step_keeps (h : step s e = some t) (hguard : Undisturbed s e) :
    t.calls = s.calls ∨ ∃ c, Keeps s t c := by
  cases e with
  | tick elapsed =>
    cases h
    exact .inl rfl
  | read c => exact .inr ⟨c, read_keeps h⟩
  | write c => exact .inr ⟨c, write_keeps h hguard⟩
  | rename c => exact .inr ⟨c, rename_keeps h⟩
  | unlink c => exact .inr ⟨c, unlink_keeps h⟩
  | fail c failure => exact .inr ⟨c, fail_keeps h hguard⟩
  | openLock c =>
    cases hp : (s.calls c).phase <;> simp only [step, hp] at h <;> cases h
    exact .inr ⟨c, openLock_keeps hp⟩
  | inspect c =>
    cases hp : (s.calls c).phase <;> cases hlock : s.lock <;> simp only [step, hp, hlock] at h <;>
      cases h <;> refine .inr ⟨c, _, rfl, fun hcall => ?_⟩ <;>
      simp only [Call.Coherent, hp] at hcall <;> exact hcall
  | judge c =>
    cases hp : (s.calls c).phase <;> simp only [step, hp] at h <;> cases h
    refine .inr ⟨c, _, rfl, fun hcall => ?_⟩
    simp only [Call.Coherent, hp] at hcall
    split <;> exact hcall
  | crash c =>
    cases hp : (s.calls c).phase <;> simp only [step, hp] at h <;> cases h <;>
      exact .inr ⟨c, _, rfl, fun hcall => hcall.invoked_le⟩
  | tear c failure =>
    cases hp : (s.calls c).phase <;> simp only [step, hp] at h <;> cases h
    refine .inr ⟨c, _, rfl, fun hcall => ?_⟩
    simp only [Call.Coherent, hp] at hcall
    exact coherent_raise hcall.1 (hguard.1 (by rw [hp]; rfl))
  | begin c pid token | respond c tokens | close c | wake c =>
    cases hp : (s.calls c).phase <;> simp only [step, hp] at h <;> cases h
    refine .inr ⟨c, _, rfl, fun hcall => ?_⟩
    simp only [Call.Coherent, hp] at hcall
    exact hcall

theorem coherent_step (hs : ∀ d, (s.calls d).Coherent) (hguard : Undisturbed s e)
    (h : step s e = some t) (d : ℕ) : (t.calls d).Coherent := by
  rcases step_keeps h hguard with hcalls | ⟨c, call, hcalls, hkeeps⟩
  · rw [hcalls]
    exact hs d
  · rw [hcalls]
    by_cases hd : d = c
    · subst hd
      rw [put_calls]
      exact hkeeps (hs d)
    · rw [put_others hd]
      exact hs d

theorem reports_of_coherent (hs : ∀ d, (s.calls d).Coherent) : s.Reports := by
  intro c
  refine ⟨(hs c).invoked_le, fun failure hraised => ?_⟩
  have hcall := hs c
  cases hp : (s.calls c).phase with
  | crashed => exact .inl rfl
  | done outcome =>
    simp only [Call.Coherent, hp] at hcall
    rw [(hcall.2 failure hraised).2]
    exact .inr (.inl rfl)
  | closing lock outcome =>
    simp only [Call.Coherent, hp] at hcall
    rw [(hcall.1.2 failure hraised).2]
    exact .inr (.inr ⟨lock, .inl rfl⟩)
  | unlinking lock outcome =>
    simp only [Call.Coherent, hp] at hcall
    rw [(hcall.1.2 failure hraised).2]
    exact .inr (.inr ⟨lock, .inr rfl⟩)
  | _ =>
    simp only [Call.Coherent, hp] at hcall
    rw [hcall.2] at hraised
    cases hraised

/-! ### Runs -/

/-- No call has begun; any tokens and temporary files may be there. -/
def start (tokens : Option TokenSet) (temporary : ℕ → Bool) : State := { tokens, temporary }

/-- In a run without the disturbances, while the callbacks are on time at most one runs, every call
    invokes its callback at most once, and an error of the callback is what the call ends with. -/
theorem coordinateRefresh_of_run {tokens : Option TokenSet} {temporary : ℕ → Bool}
    {es : List Event} {t : State} (hrun : Transition.run step (start tokens temporary) es = some t)
    (hguard : Transition.Guarded step Undisturbed (start tokens temporary) es) :
    (t.OnTime → t.Exclusive) ∧ t.Reports := by
  have hfirst : Fenced (start tokens temporary) ∧
      ∀ d, ((start tokens temporary).calls d).Coherent :=
    ⟨⟨nofun, nofun, nofun, nofun⟩, fun _ => ⟨rfl, rfl⟩⟩
  obtain ⟨hfenced, hcalls⟩ := Transition.invariant_run (I := fun s => Fenced s ∧ ∀ d,
    (s.calls d).Coherent) (fun s e t hs hg h => ⟨fenced_step hs.1 hg h, coherent_step hs.2 hg h⟩)
    hfirst hguard hrun
  exact ⟨hfenced.exclusive, reports_of_coherent hcalls⟩

/-- A call whose steps a run does not take stays where it is. -/
theorem step_other (h : step s e = some t) (hcall : e.call ≠ some d) : t.calls d = s.calls d := by
  rcases step_moves h with ⟨elapsed, rfl⟩ | ⟨c, hc, hmoves⟩
  · rfl
  · refine hmoves.others d ?_
    rintro rfl
    exact hcall hc

namespace Sample

def fresh : TokenSet := ⟨"access", "refresh", 3600000000⟩

def empty : State := start none fun _ => false

/-- The steps of a call that finds no lock up to its callback. -/
def enter (c pid : ℕ) : List Event := [.begin c pid "token", .openLock c, .read c]

/-- The steps of a call that finds a lock up to its judgement. -/
def wait (c pid : ℕ) : List Event :=
  [.begin c pid "token", .openLock c, .read c, .inspect c, .judge c]

/-- A call refreshes the tokens; another one waits for it and then reads them. -/
def handover : List Event :=
  enter 0 1 ++ wait 1 2 ++ [.respond 0 fresh, .write 0, .rename 0, .close 0, .unlink 0,
    .wake 1, .openLock 1, .read 1, .close 1, .unlink 1]

/-- A process ends between `writeFile` and `rename`, and the next one has its pid. -/
def leftover : List Event :=
  enter 0 1 ++ [.respond 0 fresh, .write 0, .crash 0, .tick 31000000] ++ wait 1 1 ++
    [.unlink 1, .wake 1, .openLock 1, .read 1, .respond 1 fresh, .write 1, .close 1, .unlink 1,
      .read 1, .inspect 1, .wake 1, .openLock 1, .read 1]

/-- Two calls find the lock of a process that ended too old. -/
def takeover : List Event :=
  enter 0 1 ++ [.crash 0, .tick 31000000] ++ wait 1 2 ++ wait 2 3 ++
    [.unlink 1, .wake 1, .openLock 1, .read 1, .unlink 2, .wake 2, .openLock 2, .read 2]

/-- A step that removes no lock but the one it is meant for, and with which nothing fails. -/
def smooth (s : State) : Event → Bool
  | .unlink c => s.lock = (s.calls c).phase.target
  | .write c => !s.temporary (s.calls c).pid
  | .fail _ _ | .tear _ _ => false
  | _ => true

theorem undisturbed_of_smooth (s : State) (e : Event) (h : smooth s e) : Undisturbed s e := by
  cases e with
  | unlink c =>
    intro lock hlock hne
    exact absurd ((of_decide_eq_true h).symm.trans hlock) hne
  | write c => simpa [smooth, Undisturbed] using h
  | fail c failure | tear c failure => cases h
  | _ => trivial

/-- Whether the callbacks of the first three calls are on time. -/
def onTime (s : State) : Bool :=
  (List.range 3).all fun c => (s.calls c).phase.inside.all fun lock => s.now ≤ lock.mtime + 30000000

/-- A step of the first three calls after which their callbacks are on time. -/
def timely (s : State) (e : Event) : Bool := e.call.all (· < 3) && (step s e).all onTime

/-- A run of the first three calls is on time if their callbacks are. -/
theorem onTime_throughout {es : List Event} (h : Transition.checkRun step timely empty es) :
    Transition.Throughout step State.OnTime empty es := by
  have hguard : Transition.Guarded step (fun s e => timely s e) empty es :=
    Transition.guarded_of_checkRun (fun _ _ ht => ht) h
  refine Transition.throughout_of_guarded
    (I := fun s => onTime s ∧ ∀ d, 3 ≤ d → s.calls d = {}) (fun s hs c lock hinside => ?_)
    (fun s e t hs hg hstep => ?_) ⟨rfl, fun _ _ => rfl⟩ hguard
  · by_cases hc : c < 3
    · have hall := List.all_eq_true.mp hs.1 c (List.mem_range.mpr hc)
      rw [hinside] at hall
      exact of_decide_eq_true hall
    · rw [hs.2 c (Nat.le_of_not_lt hc)] at hinside
      cases hinside
  · simp only [timely, Bool.and_eq_true, hstep] at hg
    refine ⟨hg.2, fun d hd => ?_⟩
    rw [step_other hstep ?_]
    · exact hs.2 d hd
    · intro hcall
      rw [hcall] at hg
      exact absurd (of_decide_eq_true hg.1) (Nat.not_lt_of_le hd)

end Sample

/-- One call refreshes the tokens and the other one reads them. -/
theorem coordinateRefresh_of_run_handover : ∃ t,
    Transition.run step Sample.empty Sample.handover = some t ∧
    ((t.calls 1).phase, (t.calls 1).invoked) = (.done (.returned Sample.fresh), 0) ∧
    (t.OnTime → t.Exclusive) ∧ t.Reports := by
  have hmap : (Transition.run step Sample.empty Sample.handover).map
      (fun t => ((t.calls 1).phase, (t.calls 1).invoked)) =
        some (.done (.returned Sample.fresh), 0) := by decide +kernel
  have hsmooth : Transition.checkRun step Sample.smooth Sample.empty Sample.handover := by
    decide +kernel
  obtain ⟨t, hrun, hdone⟩ := Option.map_eq_some_iff.mp hmap
  exact ⟨t, hrun, hdone, coordinateRefresh_of_run hrun
    (Transition.guarded_of_checkRun Sample.undisturbed_of_smooth hsmooth)⟩

/-- A call refreshes twice after an error of its first refresh, and two calls refresh at once. -/
theorem refreshes_twice_and_at_once :
    (Transition.Throughout step State.OnTime Sample.empty Sample.leftover ∧
      ∃ t, Transition.run step Sample.empty Sample.leftover = some t ∧ ¬ t.Reports) ∧
    Transition.Throughout step State.OnTime Sample.empty Sample.takeover ∧
      ∃ t, Transition.run step Sample.empty Sample.takeover = some t ∧ ¬ t.Exclusive := by
  refine ⟨⟨Sample.onTime_throughout (by decide +kernel), ?_⟩,
    Sample.onTime_throughout (by decide +kernel), ?_⟩
  · have hmap : (Transition.run step Sample.empty Sample.leftover).map
        (fun t => (t.calls 1).invoked) = some 2 := by decide +kernel
    obtain ⟨t, hrun, htwice⟩ := Option.map_eq_some_iff.mp hmap
    refine ⟨t, hrun, fun hreports => ?_⟩
    have hle := (hreports 1).1
    omega
  · have hmap : (Transition.run step Sample.empty Sample.takeover).map
        (fun t => ((t.calls 1).phase.inside.isSome, (t.calls 2).phase.inside.isSome)) =
          some (true, true) := by decide +kernel
    obtain ⟨t, hrun, hboth⟩ := Option.map_eq_some_iff.mp hmap
    obtain ⟨hfirst, hsecond⟩ := Prod.mk.inj hboth
    exact ⟨t, hrun, fun hexclusive => absurd (hexclusive 1 2 hfirst hsecond) (by decide)⟩

end ScalpingBot.TokenStore
