import Mathlib.Algebra.BigOperators.Group.List.Basic
import Mathlib.Data.List.Nodup
import ScalpingBot.Execution.Fields
import ScalpingBot.Library.Checked

/-! The profit-and-loss evidence of an account, `validateAccountPnlEvidence` of
    packages/ctrader-client/src/account-evidence.ts: which rows the equity of the account may sum. -/

namespace ScalpingBot.Account

open Execution (RawRecord stringField isAbsent)

/-! ### The check -/

def idsOf : List RawRecord → Except String (List String)
  | [] => .ok []
  | r :: rest => do
    let id ← stringField r "positionId"
    let ids ← idsOf rest
    return id :: ids

/-- Whether an order reserves the position id; an order may have none. -/
def reserves (id : String) (order : RawRecord) : Except String Bool :=
  if isAbsent order "positionId" then .ok false
  else (fun other => decide (other = id)) <$> stringField order "positionId"

/-- The orders that reserve a position id. -/
def matchesOf (id : String) : List RawRecord → Except String (List RawRecord)
  | [] => .ok []
  | order :: rest => do
    let reserved ← reserves id order
    let others ← matchesOf id rest
    return if reserved then order :: others else others

/-- One accepted, wholly unfilled order, and no profit or loss. -/
def checkPending (row : RawRecord) : List RawRecord → Except String Unit
  | [pending] => do
    require ((← stringField pending "orderStatus") = "1") "CTRADER_ACCOUNT_PNL_INCOMPLETE"
    require ((← stringField pending "executedVolume") = "0") "CTRADER_ACCOUNT_PNL_INCOMPLETE"
    require ((← stringField row "grossUnrealizedPnL") = "0") "CTRADER_ACCOUNT_PNL_INCOMPLETE"
    require ((← stringField row "netUnrealizedPnL") = "0") "CTRADER_ACCOUNT_PNL_INCOMPLETE"
  | _ => .error "CTRADER_ACCOUNT_PNL_INCOMPLETE"

/-- A row is one of an open position or that of a pending order. -/
def checkRow (expected : List String) (orders : List RawRecord) (row : RawRecord) :
    Except String Unit := do
  let id ← stringField row "positionId"
  if id ∈ expected then return ()
  else checkPending row (← matchesOf id orders)

def checkRows (expected : List String) (orders : List RawRecord) :
    List RawRecord → Except String Unit
  | [] => .ok ()
  | row :: rest => do
    checkRow expected orders row
    checkRows expected orders rest

def validateAccountPnlEvidence (positions pnl orders : List RawRecord) : Except String Unit := do
  let expected ← idsOf positions
  let supplied ← idsOf pnl
  require (expected.Nodup ∧ supplied.Nodup ∧ ∀ id ∈ expected, id ∈ supplied)
    "CTRADER_ACCOUNT_PNL_INCOMPLETE"
  checkRows expected orders pnl

/-! ### What the checks say -/

/-- The position id of a record, if it has a valid one. -/
def idOf (r : RawRecord) : Option String := (stringField r "positionId").toOption

theorem idOf_eq {r : RawRecord} {id : String} (h : stringField r "positionId" = .ok id) :
    idOf r = some id := by
  rw [idOf, h]
  rfl

theorem idsOf_ok {rs : List RawRecord} {ids : List String} (h : idsOf rs = .ok ids) :
    rs.map idOf = ids.map some := by
  induction rs generalizing ids with
  | nil =>
    cases h
    rfl
  | cons r rest ih =>
    simp only [idsOf, bind_ok, pure_ok] at h
    obtain ⟨id, hid, tail, htail, rfl⟩ := h
    rw [List.map_cons, List.map_cons, idOf_eq hid, ih htail]

theorem reserves_ok {id : String} {order : RawRecord} {reserved : Bool}
    (h : reserves id order = .ok reserved) : reserved = decide (idOf order = some id) := by
  rw [reserves] at h
  split at h
  · next habsent =>
    cases h
    have hnone : idOf order = none := by
      rw [isAbsent] at habsent
      rw [idOf, stringField]
      cases hvalue : order.lookup "positionId" with
      | none => rfl
      | some value =>
        rw [hvalue] at habsent
        cases value <;> first | rfl | cases habsent
    simp [hnone]
  · obtain ⟨other, hother, rfl⟩ := map_ok.mp h
    simp [idOf_eq hother]

theorem matchesOf_ok {id : String} {orders found : List RawRecord}
    (h : matchesOf id orders = .ok found) :
    found = orders.filter fun order => idOf order = some id := by
  induction orders generalizing found with
  | nil =>
    cases h
    rfl
  | cons order rest ih =>
    simp only [matchesOf, bind_ok, pure_ok] at h
    obtain ⟨reserved, hreserved, others, hothers, rfl⟩ := h
    rw [List.filter_cons, ← ih hothers, reserves_ok hreserved]

theorem checkRows_ok {expected : List String} {orders rows : List RawRecord}
    (h : checkRows expected orders rows = .ok ()) :
    ∀ row ∈ rows, checkRow expected orders row = .ok () := by
  induction rows with
  | nil => simp
  | cons row rest ih =>
    simp only [checkRows, bind_ok] at h
    obtain ⟨_, hrow, hrest⟩ := h
    rintro r hr
    rcases List.mem_cons.mp hr with rfl | hr
    · exact hrow
    · exact ih hrest r hr

/-- The row has no profit or loss, and one accepted, wholly unfilled order reserves its id. -/
structure Pending (orders : List RawRecord) (row : RawRecord) : Prop where
  gross : stringField row "grossUnrealizedPnL" = .ok "0"
  net : stringField row "netUnrealizedPnL" = .ok "0"
  reserved : ∃ order, orders.filter (fun order => idOf order = idOf row) = [order] ∧
    stringField order "orderStatus" = .ok "1" ∧ stringField order "executedVolume" = .ok "0"

theorem checkRow_ok {expected : List String} {orders : List RawRecord} {row : RawRecord}
    (h : checkRow expected orders row = .ok ()) :
    (∃ id ∈ expected, idOf row = some id) ∨ Pending orders row := by
  simp only [checkRow, bind_ok] at h
  obtain ⟨id, hid, h⟩ := h
  split at h
  · next hexpected => exact .inl ⟨id, hexpected, idOf_eq hid⟩
  · simp only [bind_ok] at h
    obtain ⟨found, hfound, h⟩ := h
    have hfilter := matchesOf_ok hfound
    cases found with
    | nil => cases h
    | cons pending rest =>
      cases rest with
      | cons _ _ => cases h
      | nil =>
        simp only [checkPending, bind_ok, require_ok] at h
        obtain ⟨_, hstatus, _, rfl, _, hvolume, _, rfl, _, hgross, _, rfl, _, hnet, rfl⟩ := h
        refine .inr ⟨hgross, hnet, pending, ?_, hstatus, hvolume⟩
        rw [idOf_eq hid, hfilter]

/-! ### What the equity sums -/

/-- The row of an open position. -/
def rowOf (pnl : List RawRecord) (position : RawRecord) : Option RawRecord :=
  pnl.find? fun row => idOf row = idOf position

/-- The sum of a field over the rows, in any arithmetic. -/
def total {M : Type} [AddCommMonoid M] (worth : Except String String → M) (field : String)
    (rows : List RawRecord) : M :=
  (rows.map fun row => worth (stringField row field)).sum

/-- The evidence accounts for the open positions and nothing else. -/
structure Complete (positions pnl orders : List RawRecord) : Prop where
  single : ∀ position ∈ positions, ∃ id, stringField position "positionId" = .ok id ∧
    ∃ row, pnl.filter (fun row => idOf row = some id) = [row] ∧ rowOf pnl position = some row
  foreign : ∀ row ∈ pnl, (∀ position ∈ positions, idOf position ≠ idOf row) → Pending orders row
  sums : ∀ field ∈ ["grossUnrealizedPnL", "netUnrealizedPnL"], ∀ {M : Type} [AddCommMonoid M]
    (worth : Except String String → M), worth (.ok "0") = 0 →
      total worth field pnl = total worth field (positions.filterMap (rowOf pnl))

theorem validate_parts {positions pnl orders : List RawRecord}
    (h : validateAccountPnlEvidence positions pnl orders = .ok ()) :
    ∃ expected supplied : List String, positions.map idOf = expected.map some ∧
      pnl.map idOf = supplied.map some ∧ expected.Nodup ∧ supplied.Nodup ∧
      (∀ id ∈ expected, id ∈ supplied) ∧ checkRows expected orders pnl = .ok () := by
  simp only [validateAccountPnlEvidence, bind_ok, require_ok] at h
  obtain ⟨expected, hexpected, supplied, hsupplied, _, ⟨hnodup, hnodup', hsubset⟩, hrows⟩ := h
  exact ⟨expected, supplied, idsOf_ok hexpected, idsOf_ok hsupplied, hnodup, hnodup', hsubset,
    hrows⟩

/-- Rows with distinct ids: the row found under an id is the only one. -/
theorem filter_eq_of_nodup {pnl : List RawRecord} {ids : List String}
    (hids : pnl.map idOf = ids.map some) (hnodup : ids.Nodup) {id : String} (hid : id ∈ ids) :
    ∃ row, pnl.filter (fun row => idOf row = some id) = [row] := by
  induction pnl generalizing ids with
  | nil =>
    rw [List.map_nil, eq_comm, List.map_eq_nil_iff] at hids
    rw [hids] at hid
    cases hid
  | cons row rest ih =>
    cases ids with
    | nil => cases hids
    | cons first others =>
      rw [List.map_cons, List.map_cons, List.cons.injEq] at hids
      rw [List.nodup_cons] at hnodup
      by_cases hfirst : id = first
      · have hnone : rest.filter (fun row => idOf row = some id) = [] := by
          refine List.filter_eq_nil_iff.mpr fun other hother hsame => hnodup.1 ?_
          have hmem := List.mem_map_of_mem (f := idOf) hother
          rw [hids.2, of_decide_eq_true hsame, hfirst] at hmem
          obtain ⟨_, hmem, heq⟩ := List.mem_map.mp hmem
          rwa [Option.some.inj heq] at hmem
        refine ⟨row, ?_⟩
        rw [List.filter_cons, hids.1, hfirst, if_pos (decide_eq_true rfl), ← hfirst, hnone]
      · obtain ⟨found, hfound⟩ := ih hids.2 hnodup.2 ((List.mem_cons.mp hid).resolve_left hfirst)
        refine ⟨found, ?_⟩
        rw [List.filter_cons, hids.1, if_neg, hfound]
        simpa using fun h => hfirst h.symm

theorem idOf_some {r : RawRecord} {id : String} (h : idOf r = some id) :
    stringField r "positionId" = .ok id := by
  rw [idOf] at h
  cases hfield : stringField r "positionId" with
  | error reason =>
    rw [hfield] at h
    cases h
  | ok other =>
    rw [hfield] at h
    cases h
    rfl

theorem foreign_pending {positions pnl orders : List RawRecord} {expected : List String}
    (hpositions : positions.map idOf = expected.map some)
    (hrows : checkRows expected orders pnl = .ok ()) (row : RawRecord) (hrow : row ∈ pnl)
    (hforeign : ∀ position ∈ positions, idOf position ≠ idOf row) : Pending orders row := by
  rcases checkRow_ok (checkRows_ok hrows row hrow) with ⟨id, hid, heq⟩ | hpending
  · have hmem := List.mem_map_of_mem (f := some) hid
    rw [← hpositions] at hmem
    obtain ⟨position, hposition, hsame⟩ := List.mem_map.mp hmem
    exact absurd (hsame.trans heq.symm) (hforeign position hposition)
  · exact hpending

/-- The rows of the open positions are the rows under their ids, each once. -/
theorem positionRows_perm {positions pnl : List RawRecord} (hpnl : (pnl.map idOf).Nodup)
    (hpositions : (positions.map idOf).Nodup)
    (hfound : ∀ position ∈ positions, ∃ row, rowOf pnl position = some row) :
    (pnl.filter fun row => decide (idOf row ∈ positions.map idOf)).Perm
      (positions.filterMap (rowOf pnl)) := by
  have hid : ∀ {position row}, rowOf pnl position = some row →
      row ∈ pnl ∧ idOf row = idOf position := by
    intro position row h
    have hsame := List.find?_some (p := fun row => decide (idOf row = idOf position)) h
    exact ⟨List.mem_of_find?_eq_some h, of_decide_eq_true hsame⟩
  have hids : (positions.filterMap (rowOf pnl)).map idOf = positions.map idOf := by
    rw [List.map_filterMap, ← List.filterMap_eq_map]
    refine List.filterMap_congr fun position hposition => ?_
    obtain ⟨row, hrow⟩ := hfound position hposition
    rw [hrow, Option.map_some, (hid hrow).2]
    rfl
  have hnodup : (positions.filterMap (rowOf pnl)).Nodup := by
    refine List.Nodup.of_map idOf ?_
    rw [hids]
    exact hpositions
  refine (List.perm_ext_iff_of_nodup ((List.Nodup.of_map idOf hpnl).filter _) hnodup).mpr
    fun row => ?_
  rw [List.mem_filter, List.mem_filterMap, decide_eq_true_eq, List.mem_map]
  constructor
  · rintro ⟨hrow, position, hposition, hsame⟩
    obtain ⟨found, hfoundRow⟩ := hfound position hposition
    obtain ⟨hmem, heq⟩ := hid hfoundRow
    have hunique : found = row := List.inj_on_of_nodup_map hpnl hmem hrow (heq.trans hsame)
    exact ⟨position, hposition, hunique ▸ hfoundRow⟩
  · rintro ⟨position, hposition, hrow⟩
    obtain ⟨hmem, heq⟩ := hid hrow
    exact ⟨hmem, position, hposition, heq.symm⟩

/-- What succeeds is complete: the equity counts each open position once and no other row. -/
theorem evidence_complete {positions pnl orders : List RawRecord}
    (h : validateAccountPnlEvidence positions pnl orders = .ok ()) :
    Complete positions pnl orders := by
  obtain ⟨expected, supplied, hpositions, hpnl, hexpected, hsupplied, hsubset, hrows⟩ :=
    validate_parts h
  have hidOf : ∀ position ∈ positions, ∃ id ∈ expected, idOf position = some id := by
    intro position hposition
    have hmem := List.mem_map_of_mem (f := idOf) hposition
    rw [hpositions] at hmem
    obtain ⟨id, hid, heq⟩ := List.mem_map.mp hmem
    exact ⟨id, hid, heq.symm⟩
  have hsingle : ∀ position ∈ positions, ∃ id, idOf position = some id ∧
      ∃ row, pnl.filter (fun row => idOf row = some id) = [row] ∧
        rowOf pnl position = some row := by
    intro position hposition
    obtain ⟨id, hid, heq⟩ := hidOf position hposition
    obtain ⟨row, hrow⟩ := filter_eq_of_nodup hpnl hsupplied (hsubset id hid)
    refine ⟨id, heq, row, hrow, ?_⟩
    rw [rowOf, heq, ← List.head?_filter, hrow]
    rfl
  refine ⟨fun position hposition => ?_, fun row hrow hforeign => ?_, ?_⟩
  · obtain ⟨id, heq, row, hrow, hfound⟩ := hsingle position hposition
    exact ⟨id, idOf_some heq, row, hrow, hfound⟩
  · exact foreign_pending hpositions hrows row hrow hforeign
  · rintro field hfield M _ worth hzero
    have hother : ∀ row ∈ pnl.filter (fun row => ! decide (idOf row ∈ positions.map idOf)),
        worth (stringField row field) = 0 := by
      intro row hrow
      obtain ⟨hmem, houtside⟩ := List.mem_filter.mp hrow
      have hpending : Pending orders row := by
        refine foreign_pending hpositions hrows row hmem fun position hposition hsame => ?_
        have hin := List.mem_map_of_mem (f := idOf) hposition
        rw [hsame] at hin
        simp [hin] at houtside
      have hvalue : stringField row field = .ok "0" := by
        rcases List.mem_pair.mp hfield with rfl | rfl
        · exact hpending.gross
        · exact hpending.net
      rw [hvalue, hzero]
    have hrest : total worth field
        (pnl.filter fun row => ! decide (idOf row ∈ positions.map idOf)) = 0 := by
      refine List.sum_eq_zero fun value hvalue => ?_
      obtain ⟨row, hrow, rfl⟩ := List.mem_map.mp hvalue
      exact hother row hrow
    have hnodup : (pnl.map idOf).Nodup := by
      rw [hpnl]
      exact hsupplied.map (Option.some_injective _)
    have hnodup' : (positions.map idOf).Nodup := by
      rw [hpositions]
      exact hexpected.map (Option.some_injective _)
    calc total worth field pnl
        = total worth field (pnl.filter (fun row => decide (idOf row ∈ positions.map idOf)) ++
            pnl.filter fun row => ! decide (idOf row ∈ positions.map idOf)) :=
          (((List.filter_append_perm _ pnl).map _).sum_eq).symm
      _ = total worth field (pnl.filter fun row => decide (idOf row ∈ positions.map idOf)) := by
          rw [total, List.map_append, List.sum_append, ← total, ← total, hrest, add_zero]
      _ = total worth field (positions.filterMap (rowOf pnl)) :=
          ((positionRows_perm hnodup hnodup' fun position hposition => by
            obtain ⟨id, heq, row, -, hfound⟩ := hsingle position hposition
            exact ⟨row, hfound⟩).map _).sum_eq

namespace Sample

def position : RawRecord := [("positionId", .text "41")]

def row : RawRecord :=
  [("positionId", .text "41"), ("grossUnrealizedPnL", .text "250"), ("netUnrealizedPnL", .text "230")]

/-- The row of an order that waits for its fill. -/
def pendingRow : RawRecord :=
  [("positionId", .text "42"), ("grossUnrealizedPnL", .text "0"), ("netUnrealizedPnL", .text "0")]

def order : RawRecord :=
  [("positionId", .text "42"), ("orderStatus", .text "1"), ("executedVolume", .text "0")]

end Sample

theorem evidence_complete_pending :
    Complete [Sample.position] [Sample.pendingRow, Sample.row] [Sample.order] :=
  evidence_complete (by decide +kernel)

end ScalpingBot.Account
