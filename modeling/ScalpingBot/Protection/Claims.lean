import Mathlib.Logic.Function.Basic
import ScalpingBot.Protection.Plan
import ScalpingBot.Store.Tables

/-! The table of protections and the statements on it
    (apps/execution-service/src/postgres-position-protection.ts), with the history of the claims
    that they commit, as `position_protection_events` keeps them, and of the broker reads and
    commands between them. The history is newest first. -/

namespace ScalpingBot.Protection

open Gateway (RawReconciliation)
open Store (PositionRow OrderGroupRow)

inductive ProtectionStatus where
  | verified | repairRequired | repairSent | closeRequired | closeSent | uncertain
  deriving DecidableEq

/-- `PositionProtection`: an observation of a position. -/
structure PositionProtection where
  status : ProtectionStatus
  stopLoss : Option Decimal := none
  takeProfit : Option Decimal := none
  expectedStopLoss : Option Decimal := none
  expectedTakeProfit : Option Decimal := none
  observedAt : Option ℕ := none
  reasonCode : String
  deriving DecidableEq

/-- `position_protection`, by its primary key `position_id`. -/
structure ProtectionRow where
  observation : PositionProtection
  repairAttempts : ℕ := 0
  commandAt : Option ℕ := none
  closeRequestedAt : Option ℕ := none
  closeVolume : Option Decimal := none
  brokerCloseOrderId : Option String := none
  deriving DecidableEq

inductive Entry where
  | read (raw : RawReconciliation)
  | repairClaimed (id time : ℕ)
  | closeClaimed (id time : ℕ) (volume : Decimal)
  | amended (id time : ℕ)          -- under the repair claim of this time
  | closed (id : ℕ) (brokerPositionId : String)

/-- What survives a run. -/
structure Journal where
  protections : ℕ → Option ProtectionRow := fun _ => none
  history : List Entry := []

/-- The options of `PostgresPositionProtection`. -/
structure PostgresPositionProtectionOptions where
  accountId : String
  symbolId : String

/-- What a statement finds in the tables that others write. -/
structure Present where
  positions : List PositionRow := []
  orderGroups : List OrderGroupRow := []
  boundCloseOrder : ℕ → Option String := fun _ => none

namespace Journal

variable (j : Journal) (id time : ℕ)

def setRow (row : ProtectionRow) : Journal :=
  { j with protections := Function.update j.protections id (some row) }

def log (entry : Entry) : Journal := { j with history := entry :: j.history }

/-- The upsert of `observe`. -/
def observe (observation : PositionProtection) : Journal :=
  match j.protections id with
  | none => j.setRow id { observation := observation }
  | some row => j.setRow id { row with observation := observation }

/-- `claimRepair`; `none` when no row is updated. -/
def claimRepair (present : Present) : Option Journal :=
  match j.protections id with
  | none => none
  | some row =>
    if row.repairAttempts < 2 ∧ row.closeRequestedAt = none ∧
        (row.commandAt.all fun commandAt => commandAt + 5000 ≤ time) ∧
        (present.positions.any fun p => p.id = id ∧ p.state = .opened) then
      some ((j.setRow id { row with
        repairAttempts := row.repairAttempts + 1
        commandAt := some time
        observation := { row.observation with
          status := .repairSent, reasonCode := "POSITION_PROTECTION_REPAIR_SENT" } }).log
        (.repairClaimed id time))
    else none

/-- Is the position open with this volume, and of a demo group? -/
def closable (o : PostgresPositionProtectionOptions) (present : Present) (volume : Decimal) : Bool :=
  present.positions.any fun p => p.id = id ∧ p.state = .opened ∧ p.volume = volume ∧
    p.accountId = o.accountId ∧ p.symbolId = o.symbolId ∧ p.strategyOwned ∧
    present.orderGroups.any fun og => p.orderGroupId = some og.id ∧ og.mode = .demo

/-- `claimClose`; `none` when no row is updated. -/
def claimClose (o : PostgresPositionProtectionOptions) (present : Present) (volume : Decimal) :
    Option Journal :=
  match j.protections id with
  | none => none
  | some row =>
    if row.closeRequestedAt = none ∧ row.observation.status = .closeRequired ∧
        row.observation.stopLoss = none ∧
        (row.observation.observedAt.any fun observedAt =>
          observedAt ≤ time ∧ time ≤ observedAt + 2000) ∧ closable id o present volume then
      some ((j.setRow id { row with
        closeRequestedAt := some time
        closeVolume := some volume
        commandAt := some time
        observation := { row.observation with
          status := .closeSent, reasonCode := "POSITION_PROTECTION_CLOSE_AWAITING_DEAL" } }).log
        (.closeClaimed id time volume))
    else none

/-- `closeAcknowledged`; `none` when it throws `POSITION_PROTECTION_CLOSE_ACK_CONFLICT`. The
    execution store may have bound the closing order first. -/
def closeAcknowledged (present : Present) (brokerOrderId : String) : Option Journal :=
  match j.protections id with
  | none => none
  | some row =>
    let bound := row.brokerCloseOrderId <|> present.boundCloseOrder id
    if row.closeRequestedAt ≠ none ∧ (bound = none ∨ bound = some brokerOrderId) then
      some (j.setRow id { row with brokerCloseOrderId := some brokerOrderId })
    else none

end Journal

/-! ### The history of a position -/

def Entry.repairClaim (id : ℕ) : Entry → Option ℕ
  | .repairClaimed i time => if i = id then some time else none
  | _ => none

def Entry.closeClaim (id : ℕ) : Entry → Option ℕ
  | .closeClaimed i time _ => if i = id then some time else none
  | _ => none

def Entry.amendment (id : ℕ) : Entry → Option ℕ
  | .amended i time => if i = id then some time else none
  | _ => none

/-- The times of the repair claims, close claims and amendments of a position. -/
def repairClaims (h : List Entry) (id : ℕ) : List ℕ := h.filterMap (·.repairClaim id)
def closeClaims (h : List Entry) (id : ℕ) : List ℕ := h.filterMap (·.closeClaim id)
def amendments (h : List Entry) (id : ℕ) : List ℕ := h.filterMap (·.amendment id)

/-- The record of a position in a broker read, if there is exactly one, holds no stop loss. -/
def ReadUnprotected (raw : RawReconciliation) (brokerPositionId : String) : Prop :=
  ∃ p ∈ raw.positions, p.positionId = .value brokerPositionId ∧ Unprotected p

/-- Each close was claimed on the broker read before it, at most two seconds old, in which the
    position had no stop loss. -/
def ClosesUnprotected (h : List Entry) : Prop :=
  ∀ later id brokerPositionId earlier, h = later ++ .closed id brokerPositionId :: earlier →
    ∃ time volume raw before, earlier = .closeClaimed id time volume :: .read raw :: before ∧
      raw.receivedAt ≤ time ∧ time ≤ raw.receivedAt + 2000 ∧ ReadUnprotected raw brokerPositionId

/-- No amendment of a position comes after the claim of its close. -/
def NoLateAmendment (h : List Entry) : Prop :=
  ∀ later id time volume earlier, h = later ++ .closeClaimed id time volume :: earlier →
    amendments later id = []

variable {h : List Entry} {id time : ℕ} {volume : Decimal} {brokerPositionId : String}
  {raw : RawReconciliation} {entry : Entry}

/-- The columns of a row that a claim reads; no row is one without claims. -/
def Journal.repairAttempts (j : Journal) (id : ℕ) : ℕ :=
  (j.protections id).elim 0 (·.repairAttempts)

def Journal.commandAt (j : Journal) (id : ℕ) : Option ℕ := (j.protections id).bind (·.commandAt)

def Journal.closeRequestedAt (j : Journal) (id : ℕ) : Option ℕ :=
  (j.protections id).bind (·.closeRequestedAt)

/-- The row of a position accounts for what was claimed for it. -/
structure Accounted (j : Journal) (id : ℕ) : Prop where
  attempts : (repairClaims j.history id).length = j.repairAttempts id
  bound : j.repairAttempts id ≤ 2
  apart : (repairClaims j.history id).Pairwise fun later earlier => earlier + 5000 ≤ later
  last : j.closeRequestedAt id = none → ∀ time ∈ repairClaims j.history id,
    ∃ commandAt, j.commandAt id = some commandAt ∧ time ≤ commandAt
  sent : (amendments j.history id).Sublist (repairClaims j.history id)
  closes : (closeClaims j.history id).length = if j.closeRequestedAt id = none then 0 else 1

structure Sound (j : Journal) : Prop where
  accounted : ∀ id, Accounted j id
  unprotected : ClosesUnprotected j.history
  onTime : NoLateAmendment j.history

theorem sound_initial : Sound {} where
  accounted := fun id => by
    constructor <;> simp [repairClaims, amendments, closeClaims, Journal.repairAttempts,
      Journal.closeRequestedAt]
  unprotected := fun later id brokerPositionId earlier h => by cases later <;> cases h
  onTime := fun later id time volume earlier h => by cases later <;> cases h

/-! ### What the entries add -/

theorem ClosesUnprotected.cons (hh : ClosesUnprotected h)
    (hentry : ∀ id brokerPositionId, entry = .closed id brokerPositionId →
      ∃ time volume raw before, h = .closeClaimed id time volume :: .read raw :: before ∧
        raw.receivedAt ≤ time ∧ time ≤ raw.receivedAt + 2000 ∧
        ReadUnprotected raw brokerPositionId) : ClosesUnprotected (entry :: h) := by
  intro later id brokerPositionId earlier heq
  cases later with
  | nil =>
    obtain ⟨rfl, rfl⟩ := List.cons.inj heq
    exact hentry id brokerPositionId rfl
  | cons first later =>
    obtain ⟨rfl, rfl⟩ := List.cons.inj heq
    exact hh later id brokerPositionId earlier rfl

theorem closeClaims_ne_nil {later earlier : List Entry}
    (heq : h = later ++ .closeClaimed id time volume :: earlier) : closeClaims h id ≠ [] := by
  rw [heq, closeClaims, List.filterMap_append, List.filterMap_cons]
  simp [Entry.closeClaim]

theorem NoLateAmendment.cons (hh : NoLateAmendment h)
    (hentry : ∀ id time, entry = .amended id time → closeClaims h id = []) :
    NoLateAmendment (entry :: h) := by
  intro later id time volume earlier heq
  cases later with
  | nil => rfl
  | cons first later =>
    obtain ⟨rfl, rfl⟩ := List.cons.inj heq
    have hnone : entry.amendment id = none := by
      cases entry with
      | amended i t =>
        refine if_neg fun hi => ?_
        exact closeClaims_ne_nil rfl (hi ▸ hentry i t rfl)
      | _ => rfl
    rw [amendments, List.filterMap_cons_none hnone]
    exact hh later id time volume earlier rfl

/-! ### What the statements keep -/

/-- Only the history of the position and three columns of its row are accounted for. -/
theorem Accounted.congr {j j' : Journal} (hj : Accounted j id)
    (hrepair : repairClaims j'.history id = repairClaims j.history id)
    (hclaims : closeClaims j'.history id = closeClaims j.history id)
    (hsent : amendments j'.history id = amendments j.history id)
    (hattempts : j'.repairAttempts id = j.repairAttempts id)
    (hcommand : j'.commandAt id = j.commandAt id)
    (hclose : j'.closeRequestedAt id = j.closeRequestedAt id) : Accounted j' id := by
  constructor
  · rw [hrepair, hattempts]; exact hj.attempts
  · rw [hattempts]; exact hj.bound
  · rw [hrepair]; exact hj.apart
  · rw [hrepair, hcommand, hclose]; exact hj.last
  · rw [hrepair, hsent]; exact hj.sent
  · rw [hclaims, hclose]; exact hj.closes

namespace Journal

variable {j j' : Journal} {row : ProtectionRow} {i : ℕ} {present : Present}

theorem columns_of (hrow : j.protections id = some row) :
    j.repairAttempts id = row.repairAttempts ∧ j.commandAt id = row.commandAt ∧
      j.closeRequestedAt id = row.closeRequestedAt := by
  simp [repairAttempts, commandAt, closeRequestedAt, hrow]

theorem setRow_self : (j.setRow id row).protections id = some row := Function.update_self ..

theorem setRow_other (hne : i ≠ id) : (j.setRow id row).protections i = j.protections i :=
  Function.update_of_ne hne ..

/-- A row that keeps the three columns leaves all positions accounted for. -/
theorem accounted_setRow (hj : ∀ i, Accounted j i)
    (hattempts : row.repairAttempts = j.repairAttempts id)
    (hcommand : row.commandAt = j.commandAt id)
    (hclose : row.closeRequestedAt = j.closeRequestedAt id) (i : ℕ) :
    Accounted (j.setRow id row) i := by
  rcases eq_or_ne i id with rfl | hne
  · obtain ⟨h1, h2, h3⟩ := columns_of (@setRow_self i j row)
    exact (hj i).congr rfl rfl rfl (h1.trans hattempts) (h2.trans hcommand) (h3.trans hclose)
  · have hsame : (j.setRow id row).protections i = j.protections i := setRow_other hne
    refine (hj i).congr rfl rfl rfl ?_ ?_ ?_
    · simp only [repairAttempts, hsame]
    · simp only [commandAt, hsame]
    · simp only [closeRequestedAt, hsame]

/-- A claim for another position leaves this one accounted for. -/
theorem accounted_other {entry : Entry} (hj : Accounted j i) (hne : i ≠ id)
    (hrepair : entry.repairClaim i = none) (hclose : entry.closeClaim i = none)
    (hsent : entry.amendment i = none) : Accounted ((j.setRow id row).log entry) i := by
  have hsame : ((j.setRow id row).log entry).protections i = j.protections i := setRow_other hne
  refine hj.congr (List.filterMap_cons_none hrepair) (List.filterMap_cons_none hclose)
    (List.filterMap_cons_none hsent) ?_ ?_ ?_
  · simp only [repairAttempts, hsame]
  · simp only [commandAt, hsame]
  · simp only [closeRequestedAt, hsame]

end Journal

open Journal

variable {j j' : Journal} {row : ProtectionRow} {present : Present}

theorem Sound.read (hj : Sound j) (raw : RawReconciliation) : Sound (j.log (.read raw)) where
  accounted := fun id => (hj.accounted id).congr rfl rfl rfl rfl rfl rfl
  unprotected := hj.unprotected.cons fun _ _ h => by cases h
  onTime := hj.onTime.cons fun _ _ h => by cases h

theorem Sound.setRow (hj : Sound j) (hattempts : row.repairAttempts = j.repairAttempts id)
    (hcommand : row.commandAt = j.commandAt id)
    (hclose : row.closeRequestedAt = j.closeRequestedAt id) : Sound (j.setRow id row) where
  accounted := accounted_setRow hj.accounted hattempts hcommand hclose
  unprotected := hj.unprotected
  onTime := hj.onTime

theorem Sound.observe (hj : Sound j) (observation : PositionProtection) :
    Sound (j.observe id observation) := by
  unfold Journal.observe
  split
  · next hnone =>
    exact hj.setRow (by simp [repairAttempts, hnone]) (by simp [commandAt, hnone])
      (by simp [closeRequestedAt, hnone])
  · next row hrow =>
    obtain ⟨h1, h2, h3⟩ := columns_of hrow
    exact hj.setRow h1.symm h2.symm h3.symm

theorem Sound.closeAcknowledged (hj : Sound j) {brokerOrderId : String}
    (h : j.closeAcknowledged id present brokerOrderId = some j') : Sound j' := by
  unfold Journal.closeAcknowledged at h
  split at h
  · cases h
  · next row hrow =>
    obtain ⟨-, ⟨⟩⟩ := Option.ite_none_right_eq_some.mp h
    obtain ⟨h1, h2, h3⟩ := columns_of hrow
    exact hj.setRow h1.symm h2.symm h3.symm

/-- A repair of the position has been claimed at this time, and its amendment is not sent yet. -/
structure RepairClaimed (j : Journal) (id time : ℕ) : Prop extends Sound j where
  mine : ∃ rest, repairClaims j.history id = time :: rest ∧ (amendments j.history id).Sublist rest
  unclosed : closeClaims j.history id = []

/-- What a repair claim finds and writes. -/
theorem claimRepair_row (h : j.claimRepair id time present = some j') :
    ∃ row row', j' = (j.setRow id row').log (.repairClaimed id time) ∧
      j.protections id = some row ∧ row.repairAttempts < 2 ∧ row.closeRequestedAt = none ∧
      (∀ t, row.commandAt = some t → t + 5000 ≤ time) ∧
      row'.repairAttempts = row.repairAttempts + 1 ∧ row'.commandAt = some time ∧
      row'.closeRequestedAt = none := by
  unfold Journal.claimRepair at h
  split at h
  · cases h
  · next row hrow =>
    obtain ⟨⟨hattempts, hclose, hcommand, -⟩, ⟨⟩⟩ := Option.ite_none_right_eq_some.mp h
    refine ⟨row, _, rfl, hrow, hattempts, hclose, fun t ht => ?_, rfl, rfl, hclose⟩
    simpa [ht] using hcommand

/-- What a close claim finds and writes. -/
theorem claimClose_row {o : PostgresPositionProtectionOptions}
    (h : j.claimClose id time o present volume = some j') :
    ∃ row row', j' = (j.setRow id row').log (.closeClaimed id time volume) ∧
      j.protections id = some row ∧ row.closeRequestedAt = none ∧
      (∃ t, row.observation.observedAt = some t ∧ t ≤ time ∧ time ≤ t + 2000) ∧
      row'.repairAttempts = row.repairAttempts ∧ row'.closeRequestedAt = some time := by
  unfold Journal.claimClose at h
  split at h
  · cases h
  · next row hrow =>
    obtain ⟨⟨hclose, -, -, hobserved, -⟩, ⟨⟩⟩ := Option.ite_none_right_eq_some.mp h
    obtain ⟨t, ht, htimes⟩ := (Option.any_eq_true _ _).mp hobserved
    exact ⟨row, _, rfl, hrow, hclose, ⟨t, ht, of_decide_eq_true htimes⟩, rfl, rfl⟩

theorem closeClaims_nil (hid : Accounted j id) (h : j.closeRequestedAt id = none) :
    closeClaims j.history id = [] := by
  rw [← List.length_eq_zero_iff, hid.closes, if_pos h]

theorem Sound.claimRepair (hj : Sound j) (h : j.claimRepair id time present = some j') :
    RepairClaimed j' id time := by
  obtain ⟨row, row', rfl, hrow, hattempts, hclose, hcommand, k1, k2, k3⟩ := claimRepair_row h
  obtain ⟨h1, h2, h3⟩ := columns_of hrow
  have hid := hj.accounted id
  have hmine : repairClaims ((j.setRow id row').log (.repairClaimed id time)).history id =
      time :: repairClaims j.history id := List.filterMap_cons_some (if_pos rfl)
  have hlast : ∀ t ∈ repairClaims j.history id, t + 5000 ≤ time := by
    intro t ht
    obtain ⟨commandAt, hat, hle⟩ := hid.last (h3.trans hclose) t ht
    have := hcommand commandAt (h2.symm.trans hat)
    omega
  have hunclosed : closeClaims j.history id = [] := closeClaims_nil hid (h3.trans hclose)
  refine ⟨⟨fun i => ?_, ?_, ?_⟩, ⟨_, hmine, hid.sent⟩, hunclosed⟩
  · rcases eq_or_ne i id with rfl | hne
    · obtain ⟨n1, n2, n3⟩ := @columns_of i
        ((j.setRow i row').log (.repairClaimed i time)) _ setRow_self
      constructor
      · rw [hmine, n1, k1, List.length_cons, hid.attempts, h1]
      · rw [n1, k1]
        exact hattempts
      · rw [hmine]
        exact List.pairwise_cons.mpr ⟨hlast, hid.apart⟩
      · intro _ t ht
        rw [hmine] at ht
        refine ⟨time, n2.trans k2, ?_⟩
        rcases List.mem_cons.mp ht with rfl | ht
        · exact le_rfl
        · exact le_trans (Nat.le_add_right _ _) (hlast t ht)
      · rw [hmine]
        exact hid.sent.cons _
      · rw [n3, k3, if_pos rfl, List.length_eq_zero_iff]
        exact hunclosed
    · exact accounted_other (hj.accounted i) hne (if_neg hne.symm) rfl rfl
  · exact hj.unprotected.cons fun _ _ h => by cases h
  · exact hj.onTime.cons fun _ _ h => by cases h

/-- The amendment is sent under the claim that was just made. -/
theorem RepairClaimed.amended (hj : RepairClaimed j id time) :
    Sound (j.log (.amended id time)) where
  accounted := by
    intro i
    rcases eq_or_ne i id with rfl | hne
    · obtain ⟨rest, hmine, hsent⟩ := hj.mine
      have hid := hj.accounted i
      have hadded : amendments (j.log (.amended i time)).history i =
          time :: amendments j.history i := List.filterMap_cons_some (if_pos rfl)
      refine ⟨hid.attempts, hid.bound, hid.apart, hid.last, ?_, hid.closes⟩
      rw [hadded]
      exact (hsent.cons_cons time).trans (hmine ▸ List.Sublist.refl _)
    · exact (hj.accounted i).congr rfl rfl (List.filterMap_cons_none (if_neg hne.symm)) rfl rfl rfl
  unprotected := hj.unprotected.cons fun _ _ h => by cases h
  onTime := hj.onTime.cons fun _ _ h => by cases h; exact hj.unclosed

/-- The close of the position has been claimed on the broker read before the claim. -/
structure CloseClaimed (j : Journal) (id : ℕ) (brokerPositionId : String) : Prop
    extends Sound j where
  claim : ∃ time volume raw before,
    j.history = .closeClaimed id time volume :: .read raw :: before ∧
      raw.receivedAt ≤ time ∧ time ≤ raw.receivedAt + 2000 ∧ ReadUnprotected raw brokerPositionId

theorem Sound.claimClose (hj : Sound j) {o : PostgresPositionProtectionOptions}
    (h : j.claimClose id time o present volume = some j') {before : List Entry}
    (hread : j.history = .read raw :: before)
    (hobserved : (j.protections id).bind (·.observation.observedAt) = some raw.receivedAt)
    (hunprotected : ReadUnprotected raw brokerPositionId) :
    CloseClaimed j' id brokerPositionId := by
  obtain ⟨row, row', rfl, hrow, hclose, ⟨t, ht, hle, hle'⟩, k1, k3⟩ := claimClose_row h
  obtain ⟨h1, h2, h3⟩ := columns_of hrow
  have hid := hj.accounted id
  obtain rfl : t = raw.receivedAt := by
    rw [hrow, Option.bind_some, ht] at hobserved
    exact Option.some.inj hobserved
  have hadded : closeClaims ((j.setRow id row').log (.closeClaimed id time volume)).history id =
      time :: closeClaims j.history id := List.filterMap_cons_some (if_pos rfl)
  refine ⟨⟨fun i => ?_, ?_, ?_⟩, ⟨time, volume, raw, before, ?_, hle, hle', hunprotected⟩⟩
  · rcases eq_or_ne i id with rfl | hne
    · obtain ⟨n1, n2, n3⟩ := @columns_of i
        ((j.setRow i row').log (.closeClaimed i time volume)) _ setRow_self
      constructor
      · rw [n1, k1, ← h1]
        exact hid.attempts
      · rw [n1, k1, ← h1]
        exact hid.bound
      · exact hid.apart
      · intro hnone
        rw [n3, k3] at hnone
        cases hnone
      · exact hid.sent
      · rw [hadded, closeClaims_nil hid (h3.trans hclose), n3, k3, if_neg (by simp)]
        rfl
    · exact accounted_other (hj.accounted i) hne rfl (if_neg hne.symm) rfl
  · exact hj.unprotected.cons fun _ _ h => by cases h
  · exact hj.onTime.cons fun _ _ h => by cases h
  · rw [Journal.log, Journal.setRow, hread]

/-- The close is sent under the claim that was just made. -/
theorem CloseClaimed.closed (hj : CloseClaimed j id brokerPositionId) :
    Sound (j.log (.closed id brokerPositionId)) where
  accounted := fun i => (hj.accounted i).congr rfl rfl rfl rfl rfl rfl
  unprotected := hj.unprotected.cons fun _ _ h => by cases h; exact hj.claim
  onTime := hj.onTime.cons fun _ _ h => by cases h

end ScalpingBot.Protection
