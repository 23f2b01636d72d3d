import ScalpingBot.Library.Program
import ScalpingBot.Market
import ScalpingBot.Protection.Claims

/-! `PositionProtectionMaintenance` (apps/execution-service/src/position-protection.ts) on the session
    of `PostgresPositionProtection`. The broker, the market, the clock, the other writers of the
    tables and the fate of every call are the environment: a call may fail, and the process may die
    before it, and in a statement also after its commit. `pg_try_advisory_lock` lets one run at a
    time work and is freed when that run ends or dies, so runs follow each other. -/

namespace ScalpingBot.Protection

open Gateway (RawReconciliation BrokerPosition BrokerExecution)
open Program (perform remember recollect Triple)

structure ProtectionOptions where
  store : PostgresPositionProtectionOptions
  symbolId : String
  symbol : String
  tickSize : Decimal

/-- What the caller of a committed statement sees of it. -/
inductive Fate where | answered | lost | died
  deriving DecidableEq

inductive Call where
  | tryLock
  | positions
  | now
  | reconcileRaw
  | quote
  | observe (id : ℕ) (observation : PositionProtection)
  | claimRepair (id time : ℕ)
  | claimClose (id time : ℕ) (volume : Decimal)
  | closeAcknowledged (id : ℕ) (brokerOrderId : String)
  | amendPositionProtection (positionId symbol : String) (stopLoss takeProfit : Decimal)
  | closePosition (positionId : String) (volume : Decimal)

/-- What a call answers; a statement answers with the tables it finds and its fate. `positions` is
    what the join of the other tables gives. -/
def Answer : Call → Type
  | .tryLock => Bool
  | .positions => List ProtectionPosition
  | .now => ℕ
  | .reconcileRaw => RawReconciliation
  | .quote => Quote
  | .observe .. | .claimRepair .. | .claimClose .. | .closeAcknowledged .. => Present × Fate
  | .amendPositionProtection .. | .closePosition .. => BrokerExecution

inductive Interruption where
  | thrown (message : String)
  | died

abbrev Environment := Program.Environment Call Answer Interruption

/-- A computation of one process; its memory is what survives it. -/
abbrev Process (α : Type) := Program (Program.Record Call Answer Interruption Journal) Interruption α

section

variable (o : ProtectionOptions) (env : Environment)

def ask (c : Call) : Process (Answer c) := perform env id c

def check {α : Type} : Except String α → Process α
  | .ok a => pure a
  | .error message => throw (.thrown message)

/-- One committed statement, and what the caller sees of it. -/
def transaction {α : Type} (turn : Process (Present × Fate))
    (work : Present → Journal → Except String (Journal × α)) : Process α := do
  let (present, fate) ← turn
  let (journal, a) ← check (work present (← recollect))
  remember fun _ => journal
  match fate with
  | .answered => pure a
  | .lost => throw (.thrown "CONNECTION_LOST")
  | .died => throw .died

def observe (position : ProtectionPosition) (observation : PositionProtection) : Process Unit :=
  transaction (ask env (.observe position.id observation)) fun _ journal =>
    .ok (journal.observe position.id observation, ())

def claimRepair (position : ProtectionPosition) (time : ℕ) : Process Bool :=
  transaction (ask env (.claimRepair position.id time)) fun present journal =>
    match journal.claimRepair position.id time present with
    | some claimed => .ok (claimed, true)
    | none => .ok (journal, false)

def claimClose (position : ProtectionPosition) (time : ℕ) (volume : Decimal) : Process Bool :=
  transaction (ask env (.claimClose position.id time volume)) fun present journal =>
    match journal.claimClose position.id time o.store present volume with
    | some claimed => .ok (claimed, true)
    | none => .ok (journal, false)

def closeAcknowledged (position : ProtectionPosition) (brokerOrderId : String) : Process Unit :=
  transaction (ask env (.closeAcknowledged position.id brokerOrderId)) fun present journal =>
    match journal.closeAcknowledged position.id present brokerOrderId with
    | some acknowledged => .ok (acknowledged, ())
    | none => .error "POSITION_PROTECTION_CLOSE_ACK_CONFLICT"

/-- `positions`: the claims of a position are joined to what the other tables say of it. -/
def positions : Process (List ProtectionPosition) := do
  let joined : List ProtectionPosition ← ask env .positions
  let journal ← recollect
  return joined.map fun position => { position with
    repairAttempts := journal.repairAttempts position.id
    commandAt := journal.commandAt position.id
    closeRequestedAt := journal.closeRequestedAt position.id }

/-- `fresh(value, now())`. -/
def fresh (value : Option ℕ) : Process Unit := do
  let now : ℕ ← ask env .now
  if value.any fun time => time ≤ now ∧ now ≤ time + 2000 then pure ()
  else throw (.thrown "POSITION_PROTECTION_OBSERVATION_STALE")

/-- A broker read, logged when it is answered. -/
def reconcileRaw : Process RawReconciliation := do
  let raw : RawReconciliation ← ask env .reconcileRaw
  remember (·.log (.read raw))
  return raw

/-- The records of the position in a broker read, which must be one. -/
def matching (position : ProtectionPosition) (raw : RawReconciliation) :
    Except String BrokerPosition := do
  let ids ← raw.positions.mapM fun p => p.positionId.required "positionId"
  match (raw.positions.zip ids).filter fun p => p.2 = position.brokerPositionId with
  | [p] => return p.1
  | _ => throw "POSITION_PROTECTION_RECONCILIATION_REQUIRED"

/-- The plan from a broker read. -/
def planFrom (position : ProtectionPosition) (raw : RawReconciliation) : Except String Plan := do
  protectionPlan position (← matching position raw) o.symbolId o.tickSize

/-- Is the answer to a close that of a market order which closes this position? -/
def closesPosition (position : ProtectionPosition) (result : BrokerExecution) :
    Except String String := do
  let mismatch := "POSITION_PROTECTION_CLOSE_ACK_MISMATCH"
  match result.order, result.position with
  | some order, some held =>
    require (result.errorCode = none ∧ result.executionType ∈ [2, 3, 11] ∧ order.closingOrder)
      mismatch
    require ((← order.orderType.required "orderType") = 1) mismatch
    require ((← held.positionId.required "positionId") = position.brokerPositionId) mismatch
    order.orderId.required "orderId"
  | _, _ => throw mismatch

/-- The rest of `closeUnprotected`, once the read and its plan are known. -/
def closeObserved (position : ProtectionPosition) (reasonCode : String)
    (snapshot : RawReconciliation) (confirmed : Plan) : Process Unit := do
  observe env position {
    status := .closeRequired
    takeProfit := confirmed.takeProfit
    expectedStopLoss := some confirmed.expectedStopLoss
    expectedTakeProfit := some confirmed.expectedTakeProfit
    observedAt := some snapshot.receivedAt
    reasonCode := reasonCode }
  fresh env (some snapshot.receivedAt)
  let time : ℕ ← ask env .now
  let claimed ← claimClose o env position time confirmed.volume
  if claimed then
    remember (·.log (.closed position.id position.brokerPositionId))
    let result : BrokerExecution ←
      ask env (.closePosition position.brokerPositionId confirmed.volume)
    closeAcknowledged env position (← check (closesPosition position result))
  else pure ()

/-- `closeUnprotected`. -/
def closeUnprotected (position : ProtectionPosition) (reasonCode : String) : Process Unit := do
  let snapshot ← reconcileRaw env
  fresh env (some snapshot.receivedAt)
  let confirmed ← check (planFrom o position snapshot)
  -- Never override an SL that arrived after the first observation.
  if confirmed.stopLoss.isSome then pure ()
  else closeObserved o env position reasonCode snapshot confirmed

/-- The quote for a repair; without one an unprotected position is closed. -/
def repairQuote (position : ProtectionPosition) (plan : Plan) : Process (Option Quote) :=
  Program.recover
    (do
      let quote : Quote ← ask env .quote
      fresh env quote.sourceTime
      fresh env quote.receivedAt
      let ask ← check (positive (.value quote.ask))
      let bid ← check (positive (.value quote.bid))
      if ask < bid then throw (.thrown "POSITION_PROTECTION_QUOTE_INVALID") else return some quote)
    (fun error => match error with
      | .died => throw .died
      | .thrown message =>
        if plan.stopLoss.isSome then throw (.thrown message)
        else do
          closeUnprotected o env position "POSITION_PROTECTION_MISSING_SL_QUOTE_UNAVAILABLE"
          return none)

/-- Has the market crossed the protection that is to be restored? -/
def crossed (position : ProtectionPosition) (plan : Plan) (mark : Decimal) : Bool :=
  match position.side with
  | .buy => mark ≤ plan.expectedStopLoss ∨ plan.expectedTakeProfit ≤ mark
  | .sell => plan.expectedStopLoss ≤ mark ∨ mark ≤ plan.expectedTakeProfit

/-- The amendment, on a plan that a second read confirms. -/
def amend (position : ProtectionPosition) (plan : Plan) (quote : Quote) : Process Unit := do
  let latest ← reconcileRaw env
  fresh env (some latest.receivedAt)
  let confirmed ← check (planFrom o position latest)
  if plan ≠ confirmed then pure ()
  else
    fresh env quote.sourceTime
    fresh env quote.receivedAt
    let time : ℕ ← ask env .now
    let claimed ← claimRepair env position time
    if claimed then
      remember (·.log (.amended position.id time))
      let _ : BrokerExecution ← ask env (.amendPositionProtection position.brokerPositionId o.symbol
        confirmed.expectedStopLoss confirmed.expectedTakeProfit)
      pure ()
    else pure ()

/-- The end of `maintain`: no attempt is left, or the protection is restored at the quote. -/
def repair (position : ProtectionPosition) (plan : Plan) (observation : PositionProtection) :
    Process Unit := do
  if 2 ≤ position.repairAttempts then
    if plan.stopLoss.isNone then
      closeUnprotected o env position "POSITION_PROTECTION_MISSING_SL_REPAIR_EXHAUSTED"
    else
      observe env position { observation with
        reasonCode := "POSITION_PROTECTION_REPAIR_EXHAUSTED" }
  else
    match ← repairQuote o env position plan with
    | none => pure ()
    | some quote =>
      let mark ← check (positive (.value (match position.side with
        | .buy => quote.bid
        | .sell => quote.ask)))
      if crossed position plan mark then
        if plan.stopLoss.isNone then
          closeUnprotected o env position "POSITION_PROTECTION_MISSING_SL_REPAIR_PRICE_CROSSED"
        else
          observe env position { observation with
            reasonCode := "POSITION_PROTECTION_REPAIR_PRICE_CROSSED" }
      else amend o env position plan quote

/-- Is a command in flight, so that its effect may not be visible yet? -/
def inFlight (position : ProtectionPosition) : Process Bool :=
  match position.commandAt with
  | none => pure false
  | some commandAt => do
    let now : ℕ ← ask env .now
    if now < commandAt then throw (.thrown "POSITION_PROTECTION_COMMAND_TIME_INVALID")
    else return now < commandAt + 5000

/-- `maintain`. -/
def maintain (position : ProtectionPosition) : Process Unit := do
  let snapshot ← reconcileRaw env
  fresh env (some snapshot.receivedAt)
  let plan ← check (planFrom o position snapshot)
  let observation : PositionProtection := {
    status := if plan.repair then .repairRequired else .verified
    stopLoss := plan.stopLoss
    takeProfit := plan.takeProfit
    expectedStopLoss := some plan.expectedStopLoss
    expectedTakeProfit := some plan.expectedTakeProfit
    observedAt := some snapshot.receivedAt
    reasonCode := if plan.repair then "POSITION_PROTECTION_MISSING_OR_WIDE"
      else "POSITION_PROTECTION_CONFIRMED" }
  if position.closeRequestedAt.isSome then
    -- No repeated close dispatch after a timeout, partial fill or restart.
    observe env position { observation with
      status := .closeSent, reasonCode := "POSITION_PROTECTION_CLOSE_AWAITING_DEAL" }
  else
    observe env position observation
    if plan.repair then
      let waiting ← inFlight env position
      if waiting then pure () else repair o env position plan observation
    else pure ()

/-- The loop of `run`: how many positions could not be maintained. -/
def maintainAll : List ProtectionPosition → Process ℕ
  | [] => pure 0
  | position :: rest => do
    let failed ← Program.recover
      (do maintain o env position; return 0)
      (fun error => match error with
        | .died => throw .died
        | .thrown _ => do
          observe env position
            { status := .uncertain, reasonCode := "POSITION_PROTECTION_UNAVAILABLE" }
          return 1)
    let others ← maintainAll rest
    return failed + others

/-- `run`. -/
def run : Process Unit := do
  let acquired : Bool ← ask env .tryLock
  if acquired then
    let failures ← maintainAll o env (← positions env)
    if 0 < failures then throw (.thrown "POSITION_PROTECTION_UNAVAILABLE") else pure ()
  else pure ()

/-- What is left after runs in these environments, one after the other. -/
def runs (envs : List Environment) (journal : Journal) : Journal :=
  envs.foldl (fun journal env => (Program.outcome (run o env) ⟨[], journal⟩).2.memory) journal

end

/-! ### What every part of a run keeps -/

variable {o : ProtectionOptions} {env : Environment} {α β : Type} {P : Journal → Prop}
  {Q : α → Journal → Prop} {R : β → Journal → Prop} {position : ProtectionPosition}

/-- From a journal with `P` the process returns with `Q`, and wherever it stops the journal is
    sound. -/
def Holds (P : Journal → Prop) (m : Process α) (Q : α → Journal → Prop) : Prop :=
  Triple (fun s => P s.memory) m (fun a s => Q a s.memory) (fun _ s => Sound s.memory)

/-- A process that keeps a sound journal sound. -/
def Keeps (m : Process α) : Prop := Holds Sound m fun _ => Sound

theorem Holds.bind {m : Process α} {f : α → Process β} (hm : Holds P m Q)
    (hf : ∀ a, Holds (Q a) (f a) R) : Holds P (m >>= f) R :=
  Triple.bind hm hf

theorem Holds.mono {m : Process α} {P' : Journal → Prop} {Q' : α → Journal → Prop}
    (h : Holds P m Q) (hP : ∀ j, P' j → P j) (hQ : ∀ a j, Q a j → Q' a j) : Holds P' m Q' :=
  Triple.mono h (fun s => hP s.memory) (fun a s => hQ a s.memory) fun _ _ h => h

theorem holds_pure {a : α} (h : ∀ j, P j → Q a j) : Holds P (pure a) Q :=
  Triple.pure fun s => h s.memory

theorem holds_throw {e : Interruption} (h : ∀ j, P j → Sound j) :
    Holds P (throw e : Process α) Q :=
  Triple.exit fun s => h s.memory

theorem holds_ite {c : Prop} [Decidable c] {m m' : Process α} (hm : c → Holds P m Q)
    (hm' : ¬ c → Holds P m' Q) : Holds P (if c then m else m') Q :=
  Triple.ite hm hm'

/-- What is known apart from the journal may be used. -/
theorem holds_known {p : Prop} {m : Process α} (h : p → Holds P m Q) :
    Holds (fun j => p ∧ P j) m Q :=
  fun s hs => h hs.1 s hs.2

theorem holds_ask (hP : ∀ j, P j → Sound j) (c : Call) : Holds P (ask env c) fun _ => P :=
  Triple.perform (fun _ _ h => h) fun s _ h => hP s.memory h

theorem holds_check (hP : ∀ j, P j → Sound j) (r : Except String α) :
    Holds P (check r) fun a j => r = .ok a ∧ P j := by
  cases r with
  | ok a => exact holds_pure fun j h => ⟨rfl, h⟩
  | error message => exact holds_throw hP

theorem holds_log {entry : Entry} {P' : Journal → Prop} (h : ∀ j, P j → P' (j.log entry)) :
    Holds P (remember (·.log entry)) fun _ => P' :=
  Triple.remember fun s => h s.memory

/-- What a statement commits holds whatever its caller sees of it. -/
theorem holds_transaction {turn : Process (Present × Fate)}
    {work : Present → Journal → Except String (Journal × α)} (hP : ∀ j, P j → Sound j)
    (hQ : ∀ a j, Q a j → Sound j) (hturn : Holds P turn fun _ => P)
    (hwork : ∀ present j, P j → ∀ j' a, work present j = .ok (j', a) → Q a j') :
    Holds P (transaction turn work) Q := by
  unfold transaction
  refine hturn.bind fun ⟨present, fate⟩ => ?_
  have hrecall : Holds P (recollect : Process Journal) fun found j => j = found ∧ P j :=
    Triple.recollect fun s h => ⟨rfl, h⟩
  refine hrecall.bind fun found => ?_
  refine (holds_check (fun j h => hP j h.2) _).bind fun ⟨journal, a⟩ => ?_
  have hcommit : Holds (fun j => work present found = .ok (journal, a) ∧ j = found ∧ P j)
      (remember fun _ => journal) fun _ => Q a := by
    refine Triple.remember fun s h => ?_
    obtain ⟨hok, rfl, hj⟩ := h
    exact hwork present _ hj journal a hok
  refine hcommit.bind fun _ => ?_
  cases fate with
  | answered => exact holds_pure fun _ h => h
  | lost => exact holds_throw (hQ a)
  | died => exact holds_throw (hQ a)

theorem keeps_observe (position : ProtectionPosition) (observation : PositionProtection) :
    Keeps (observe env position observation) := by
  refine holds_transaction (fun _ h => h) (fun _ _ h => h) (holds_ask (fun _ h => h) _) ?_
  intro _ j hj j' _ h
  cases h
  exact hj.observe observation

theorem holds_claimRepair (time : ℕ) :
    Holds Sound (claimRepair env position time)
      fun claimed j => Sound j ∧ (claimed → RepairClaimed j position.id time) := by
  refine holds_transaction (fun _ h => h) (fun _ _ h => h.1) (holds_ask (fun _ h => h) _) ?_
  intro present j hj j' claimed h
  split at h
  · next hclaim =>
    cases h
    exact ⟨(hj.claimRepair hclaim).toSound, fun _ => hj.claimRepair hclaim⟩
  · cases h
    exact ⟨hj, fun hfalse => by cases hfalse⟩

theorem keeps_closeAcknowledged (brokerOrderId : String) :
    Keeps (closeAcknowledged env position brokerOrderId) := by
  refine holds_transaction (fun _ h => h) (fun _ _ h => h) (holds_ask (fun _ h => h) _) ?_
  intro present j hj j' _ h
  split at h
  · next hack =>
    cases h
    exact hj.closeAcknowledged hack
  · cases h

theorem holds_fresh (hP : ∀ j, P j → Sound j) (value : Option ℕ) :
    Holds P (fresh env value) fun _ => P := by
  refine (holds_ask hP .now).bind fun now => ?_
  exact holds_ite (fun _ => holds_pure fun _ h => h) fun _ => holds_throw hP

/-- The read that was answered last is the head of the history. -/
def LastRead (raw : RawReconciliation) (j : Journal) : Prop :=
  Sound j ∧ ∃ before, j.history = .read raw :: before

theorem holds_reconcileRaw : Holds Sound (reconcileRaw env) LastRead := by
  refine (holds_ask (fun _ h => h) .reconcileRaw).bind fun raw => ?_
  have hlogged : Holds Sound (remember (·.log (.read raw))) fun _ => LastRead raw :=
    holds_log fun j hj => ⟨hj.read raw, j.history, rfl⟩
  refine hlogged.bind fun _ => ?_
  exact holds_pure fun _ h => h

/-! ### A close is sent on the read that it was claimed on -/

theorem matching_ok {raw : RawReconciliation} {p : BrokerPosition}
    (h : matching position raw = .ok p) :
    p ∈ raw.positions ∧ p.positionId = .value position.brokerPositionId := by
  simp only [matching, bind_ok] at h
  obtain ⟨ids, hids, h⟩ := h
  split at h
  · next pair hfilter =>
    cases h
    have hpair : pair ∈ raw.positions.zip ids ∧ pair.2 = position.brokerPositionId := by
      have hmem : pair ∈ [pair] := List.mem_singleton_self pair
      rw [← hfilter] at hmem
      simpa using hmem
    refine ⟨(List.of_mem_zip hpair.1).1, ?_⟩
    have hrequired := mapM_zip hids pair hpair.1
    rw [hpair.2] at hrequired
    cases hfield : pair.1.positionId with
    | value id =>
      rw [hfield] at hrequired
      cases hrequired
      rfl
    | absent => rw [hfield] at hrequired; cases hrequired
    | invalid => rw [hfield] at hrequired; cases hrequired
  · cases h

theorem readUnprotected_of_plan {raw : RawReconciliation} {plan : Plan}
    (h : planFrom o position raw = .ok plan) (hnone : plan.stopLoss = none) :
    ReadUnprotected raw position.brokerPositionId := by
  simp only [planFrom, bind_ok] at h
  obtain ⟨p, hp, hplan⟩ := h
  exact ⟨p, (matching_ok hp).1, (matching_ok hp).2, plan_unprotected hplan hnone⟩

/-- The row of the position has been observed at the last read. -/
def Observed (id : ℕ) (raw : RawReconciliation) (j : Journal) : Prop :=
  LastRead raw j ∧ (j.protections id).bind (·.observation.observedAt) = some raw.receivedAt

theorem holds_observe {raw : RawReconciliation} {observation : PositionProtection}
    (hat : observation.observedAt = some raw.receivedAt) :
    Holds (LastRead raw) (observe env position observation) fun _ => Observed position.id raw := by
  refine holds_transaction (fun _ h => h.1) (fun _ _ h => h.1.1) (holds_ask (fun _ h => h.1) _) ?_
  intro _ j hj j' _ h
  cases h
  refine ⟨⟨hj.1.observe observation, ?_⟩, ?_⟩
  · unfold Journal.observe
    split <;> exact hj.2
  · unfold Journal.observe
    split <;> rw [Journal.setRow_self] <;> exact hat

theorem holds_claimClose {raw : RawReconciliation} {time : ℕ} {volume : Decimal}
    (hread : ReadUnprotected raw position.brokerPositionId) :
    Holds (Observed position.id raw) (claimClose o env position time volume)
      fun claimed j => Sound j ∧
        (claimed → CloseClaimed j position.id position.brokerPositionId) := by
  refine holds_transaction (fun _ h => h.1.1) (fun _ _ h => h.1) (holds_ask (fun _ h => h.1.1) _) ?_
  rintro present j ⟨⟨hj, before, hlast⟩, hobserved⟩ j' claimed h
  split at h
  · next hclaim =>
    cases h
    have hclosed := hj.claimClose hclaim hlast hobserved hread
    exact ⟨hclosed.toSound, fun _ => hclosed⟩
  · cases h
    exact ⟨hj, fun hfalse => by cases hfalse⟩

theorem holds_closeObserved {raw : RawReconciliation} (reasonCode : String) (confirmed : Plan)
    (hread : ReadUnprotected raw position.brokerPositionId) :
    Holds (LastRead raw) (closeObserved o env position reasonCode raw confirmed) fun _ => Sound := by
  unfold closeObserved
  have hsound : ∀ j, Observed position.id raw j → Sound j := fun _ h => h.1.1
  refine (@holds_observe env position raw _ rfl).bind fun _ => ?_
  refine (holds_fresh hsound _).bind fun _ => ?_
  refine (holds_ask hsound .now).bind fun time => ?_
  refine (holds_claimClose hread).bind fun claimed => ?_
  refine holds_ite (fun hclaimed => ?_) fun _ => holds_pure fun _ h => h.1
  have hsent : Holds (fun j => Sound j ∧
      (claimed → CloseClaimed j position.id position.brokerPositionId))
      (remember (·.log (.closed position.id position.brokerPositionId))) fun _ => Sound :=
    holds_log fun j h => (h.2 hclaimed).closed
  refine hsent.bind fun _ => ?_
  refine (holds_ask (fun _ h => h) _).bind fun result => ?_
  refine (holds_check (fun _ h => h) _).bind fun brokerOrderId => ?_
  exact (keeps_closeAcknowledged brokerOrderId).mono (fun _ h => h.2) fun _ _ h => h

theorem keeps_closeUnprotected (reasonCode : String) :
    Keeps (closeUnprotected o env position reasonCode) := by
  unfold closeUnprotected
  refine holds_reconcileRaw.bind fun raw => ?_
  refine (holds_fresh (fun _ h => h.1) _).bind fun _ => ?_
  refine (holds_check (fun _ h => h.1) _).bind fun confirmed => ?_
  refine holds_known fun hplan => ?_
  refine holds_ite (fun _ => holds_pure fun _ h => h.1) fun hnone => ?_
  refine holds_closeObserved reasonCode confirmed (readUnprotected_of_plan hplan ?_)
  simpa using hnone

/-! ### Whole runs -/

theorem holds_recover {m : Process α} {handler : Interruption → Process α} (hm : Keeps m)
    (hh : ∀ e, Keeps (handler e)) : Keeps (Program.recover m handler) :=
  Triple.recover hm hh

theorem keeps_check (r : Except String α) : Keeps (check r) :=
  (holds_check (fun _ h => h) r).mono (fun _ h => h) fun _ _ h => h.2

theorem keeps_repairQuote (plan : Plan) : Keeps (repairQuote o env position plan) := by
  refine holds_recover ?_ fun e => ?_
  · refine (holds_ask (fun _ h => h) .quote).bind fun (quote : Quote) => ?_
    refine (holds_fresh (fun _ h => h) _).bind fun _ => ?_
    refine (holds_fresh (fun _ h => h) _).bind fun _ => ?_
    refine (keeps_check _).bind fun ask => ?_
    refine (keeps_check _).bind fun bid => ?_
    exact holds_ite (fun _ => holds_throw fun _ h => h) fun _ => holds_pure fun _ h => h
  · cases e with
    | died => exact holds_throw fun _ h => h
    | thrown message =>
      refine holds_ite (fun _ => holds_throw fun _ h => h) fun _ => ?_
      exact (keeps_closeUnprotected _).bind fun _ => holds_pure fun _ h => h

theorem keeps_amend (plan : Plan) (quote : Quote) : Keeps (amend o env position plan quote) := by
  unfold amend
  refine (holds_reconcileRaw.mono (fun _ h => h) fun _ _ h => h.1).bind fun latest => ?_
  refine (holds_fresh (fun _ h => h) _).bind fun _ => ?_
  refine (keeps_check _).bind fun confirmed => ?_
  refine holds_ite (fun _ => holds_pure fun _ h => h) fun _ => ?_
  refine (holds_fresh (fun _ h => h) _).bind fun _ => ?_
  refine (holds_fresh (fun _ h => h) _).bind fun _ => ?_
  refine (holds_ask (fun _ h => h) .now).bind fun time => ?_
  refine (holds_claimRepair time).bind fun claimed => ?_
  refine holds_ite (fun hclaimed => ?_) fun _ => holds_pure fun _ h => h.1
  have hsent : Holds (fun j => Sound j ∧ (claimed → RepairClaimed j position.id time))
      (remember (·.log (.amended position.id time))) fun _ => Sound :=
    holds_log fun j h => (h.2 hclaimed).amended
  refine hsent.bind fun _ => ?_
  exact (holds_ask (fun _ h => h) _).bind fun _ => holds_pure fun _ h => h

theorem keeps_repair (plan : Plan) (observation : PositionProtection) :
    Keeps (repair o env position plan observation) := by
  unfold repair
  refine holds_ite (fun _ => ?_) fun _ => ?_
  · exact holds_ite (fun _ => keeps_closeUnprotected _) fun _ => keeps_observe position _
  · refine (keeps_repairQuote plan).bind fun quote => ?_
    cases quote with
    | none => exact holds_pure fun _ h => h
    | some quote =>
      refine (keeps_check _).bind fun mark => ?_
      refine holds_ite (fun _ => ?_) fun _ => keeps_amend plan quote
      exact holds_ite (fun _ => keeps_closeUnprotected _) fun _ => keeps_observe position _

theorem keeps_inFlight : Keeps (inFlight env position) := by
  unfold inFlight
  split
  · exact holds_pure fun _ h => h
  · refine (holds_ask (fun _ h => h) .now).bind fun (now : ℕ) => ?_
    exact holds_ite (fun _ => holds_throw fun _ h => h) fun _ => holds_pure fun _ h => h

theorem keeps_maintain : Keeps (maintain o env position) := by
  unfold maintain
  refine (holds_reconcileRaw.mono (fun _ h => h) fun _ _ h => h.1).bind fun snapshot => ?_
  refine (holds_fresh (fun _ h => h) _).bind fun _ => ?_
  refine (keeps_check _).bind fun plan => ?_
  refine holds_ite (fun _ => keeps_observe position _) fun _ => ?_
  refine (keeps_observe position _).bind fun _ => ?_
  refine holds_ite (fun _ => ?_) fun _ => holds_pure fun _ h => h
  refine keeps_inFlight.bind fun waiting => ?_
  exact holds_ite (fun _ => holds_pure fun _ h => h) fun _ => keeps_repair plan _

theorem keeps_maintainAll (positions : List ProtectionPosition) :
    Keeps (maintainAll o env positions) := by
  induction positions with
  | nil => exact holds_pure fun _ h => h
  | cons position rest ih =>
    refine (holds_recover (keeps_maintain.bind fun _ => holds_pure fun _ h => h) fun e => ?_).bind
      fun failed => ih.bind fun others => holds_pure fun _ h => h
    cases e with
    | died => exact holds_throw fun _ h => h
    | thrown message => exact (keeps_observe position _).bind fun _ => holds_pure fun _ h => h

theorem keeps_run : Keeps (run o env) := by
  unfold run
  refine (holds_ask (fun _ h => h) .tryLock).bind fun (acquired : Bool) => ?_
  refine holds_ite (fun _ => ?_) fun _ => holds_pure fun _ h => h
  have hpositions : Keeps (positions env) :=
    (holds_ask (fun _ h => h) .positions).bind fun _ =>
      Holds.bind (Q := fun _ => Sound) (Triple.recollect fun _ h => h) fun _ => holds_pure fun _ h => h
  refine hpositions.bind fun positions => ?_
  refine (keeps_maintainAll positions).bind fun failures => ?_
  exact holds_ite (fun _ => holds_throw fun _ h => h) fun _ => holds_pure fun _ h => h

theorem sound_runs {envs : List Environment} {j : Journal} (hj : Sound j) :
    Sound (runs o envs j) := by
  induction envs generalizing j with
  | nil => exact hj
  | cons env envs ih =>
    have h := @keeps_run o env ⟨[], j⟩ hj
    have hrun : Sound (Program.outcome (run o env) ⟨[], j⟩).2.memory := by
      generalize Program.outcome (run o env) ⟨[], j⟩ = r at h ⊢
      rcases r with ⟨e | a, t⟩ <;> exact h
    exact ih hrun

/-- In every sequence of runs: at most two amendments of a position, each five seconds after the
    one before; at most one claim of its close; a close only under a claim on the broker read before
    it, at most two seconds old and without a stop loss; and no amendment after that claim. -/
theorem protection_bounded (envs : List Environment) (id : ℕ) :
    let h := (runs o envs {}).history
    (amendments h id).length ≤ 2 ∧
      (amendments h id).Pairwise (fun later earlier => earlier + 5000 ≤ later) ∧
      (closeClaims h id).length ≤ 1 ∧ ClosesUnprotected h ∧ NoLateAmendment h := by
  have hsound : Sound (runs o envs {}) := sound_runs sound_initial
  have hid := hsound.accounted id
  refine ⟨?_, hid.apart.sublist hid.sent, ?_, hsound.unprotected, hsound.onTime⟩
  · calc (amendments (runs o envs {}).history id).length
      _ ≤ (repairClaims (runs o envs {}).history id).length := hid.sent.length_le
      _ = (runs o envs {}).repairAttempts id := hid.attempts
      _ ≤ 2 := hid.bound
  · rw [hid.closes]
    split <;> omega

namespace Sample

def options : ProtectionOptions := ⟨⟨"account", "symbol"⟩, "1", "EURUSD", 1 / 100⟩

/-- A filled buy of 1000 at 100 whose stop loss is to be 1 below and its take profit 2 above. -/
def long : ProtectionPosition :=
  ⟨"", 7, "p7", .buy, 1000, some 100, 100, 99, 102, "ctrader-ai-scalper:sample", 0, none, none⟩

/-- The broker holds the position without any protection. -/
def held : BrokerPosition where
  tradeData := some { symbolId := .value "1", label := .value long.label,
                      volume := .value 1000, tradeSide := .value 1 }
  positionId := .value "p7"
  positionStatus := .value 1
  price := .value 100

def present : Present where
  positions := [⟨7, "account", "symbol", some 1, some "p7", .buy, .opened, true, 1000, some 100, none,
    none, 0, none, none, 0⟩]
  orderGroups := [⟨1, ⟨"account", "symbol", .demo, "", none⟩, .demo, none, .positionOpen, none, 0⟩]

/-- All calls are answered at this time, and the broker never shows any protection. -/
def answeredAt (time : ℕ) : Environment := fun _ call =>
  match call with
  | .tryLock => .ok true
  | .positions => .ok [long]
  | .now => .ok time
  | .reconcileRaw => .ok { receivedAt := time, positions := [held], orders := [] }
  | .quote => .ok ⟨100, 100, some time, some time⟩
  | .observe .. | .claimRepair .. | .claimClose .. | .closeAcknowledged .. => .ok (present, .answered)
  | .amendPositionProtection .. | .closePosition .. => .ok { executionType := 2, order := none }

/-- Two repairs that have no effect, then the close, which is not repeated. -/
example :
    let h := (runs options ([1000, 3000, 10000, 20000, 30000].map answeredAt) {}).history
    amendments h 7 = [10000, 1000] ∧ closeClaims h 7 = [20000] := by
  decide +kernel

end Sample

end ScalpingBot.Protection
