import Mathlib.Algebra.BigOperators.Group.List.Lemmas
import Mathlib.Algebra.Order.BigOperators.Group.List
import ScalpingBot.Execution.Fields
import ScalpingBot.Library.Checked
import ScalpingBot.Library.Consecutive

/-! The deposits and withdrawals of an account over a range of time, `cashFlowRangeWindows`,
    `normalizeExternalCashFlows` and `externalCashFlows` of packages/ctrader-client/src/client.ts.
    The broker answers at most seven days of history at a time. Instants are milliseconds. -/

namespace ScalpingBot.Account

open Consecutive (Cut within within_mono)
open Execution (Platform Raw RawRecord isSafe numberField optionalNumberField stringField)

/-- `MAX_CASH_FLOW_RANGE_MS`: seven days. -/
def maxCashFlowRangeMs : ℤ := 604800000

/-- The loop of `cashFlowRangeWindows`: the windows from the cursor on. -/
def windowsFrom (cursor toMs : ℤ) : List (ℤ × ℤ) :=
  if cursor ≤ toMs then
    let chunkTo := min (cursor + maxCashFlowRangeMs) toMs
    (cursor, chunkTo) :: (if chunkTo = toMs then [] else windowsFrom (chunkTo + 1) toMs)
  else []
termination_by (toMs + 1 - cursor).toNat
decreasing_by
  rw [maxCashFlowRangeMs]
  omega

def cashFlowRangeWindows (fromMs toMs : ℤ) : List (ℤ × ℤ) :=
  if toMs < fromMs then [] else windowsFrom fromMs toMs

/-- `KNOWN_BALANCE_OPERATIONS`. -/
def knownBalanceOperations : List Decimal :=
  [0, 1, 3, 4, 5, 6, 7, 8, 9, 10, 11, 12, 13, 14, 15, 16, 17, 18, 19, 20, 21, 22, 27, 28, 29, 30,
    31, 32, 33, 34, 35, 36, 37, 38, 39]

/-- `EXTERNAL_BALANCE_OPERATIONS`: the capital movements. -/
def externalBalanceOperations : List Decimal := [0, 1, 19, 20, 30, 31, 32, 33, 36, 37, 38, 39]

/-- The number of a nonempty list of digits. -/
def digitsOf (cs : List Char) : Option ℕ :=
  if cs ≠ [] ∧ cs.all Char.isDigit then some (cs.foldl (fun n c => 10 * n + (c.toNat - 48)) 0)
  else none

/-- The number of a text that matches `/^-?\d+$/`. -/
def integerText (text : String) : Option ℤ :=
  match text.toList with
  | '-' :: cs => (fun n : ℕ => -(n : ℤ)) <$> digitsOf cs
  | cs => (fun n : ℕ => (n : ℤ)) <$> digitsOf cs

structure ExternalCashFlowSummary where
  netFlows : Decimal
  operationCount : ℕ
  fromMs : ℤ
  toMs : ℤ
  deriving DecidableEq

/-- The variables of the loop over the items. -/
structure CashFlows where
  identifiers : List String
  netFlows : Decimal
  operationCount : ℕ

section

variable {Payload : Type} (P : Platform Payload) (numberText : Decimal → String)

def money (value : Option Raw) (digits : ℕ) : Except String Decimal :=
  let text := match value with
    | some (.text s) => some s
    | some (.number n) => some (numberText n)
    | _ => none
  match text.bind integerText with
  | some n => .ok (Decimal.div n (10 ^ digits))
  | none => .error "CTRADER_MONEY_INVALID"

def moneyDigits (item : RawRecord) : Except String ℕ := do
  match ← optionalNumberField P item "moneyDigits" with
  | some digits =>
    require (isSafe digits ∧ 0 ≤ digits ∧ digits ≤ 12) "CTRADER_CASH_FLOW_MONEY_DIGITS_INVALID"
    return digits.num.toNat
  | none => .error "CTRADER_CASH_FLOW_MONEY_DIGITS_INVALID"

/-- The money an item moves in or out of the account, `none` for trading income and charges. -/
def amountOf (item : RawRecord) : Except String (Option Decimal) := do
  let operationType ← numberField P item "operationType"
  require (isSafe operationType ∧ operationType ∈ knownBalanceOperations)
    "CTRADER_CASH_FLOW_TYPE_UNKNOWN"
  let digits ← moneyDigits P item
  if operationType ∈ externalBalanceOperations then
    some <$> money numberText (item.lookup "delta") digits
  else return none

/-- One pass of the loop of `normalizeExternalCashFlows`. -/
def addItem (fromMs toMs : ℤ) (flows : CashFlows) (item : RawRecord) : Except String CashFlows := do
  let identifier ← stringField item "balanceHistoryId"
  require (identifier ∉ flows.identifiers) "CTRADER_CASH_FLOW_DUPLICATE"
  let timestamp ← numberField P item "changeBalanceTimestamp"
  require (isSafe timestamp ∧ (fromMs : Decimal) ≤ timestamp ∧ timestamp ≤ toMs)
    "CTRADER_CASH_FLOW_TIMESTAMP_INVALID"
  match ← amountOf P numberText item with
  | some amount => return {
      identifiers := identifier :: flows.identifiers
      netFlows := flows.netFlows.plus amount
      operationCount := flows.operationCount + 1 }
  | none => return { flows with identifiers := identifier :: flows.identifiers }

def addItems (fromMs toMs : ℤ) (flows : CashFlows) : List RawRecord → Except String CashFlows
  | [] => .ok flows
  | item :: rest => do addItems fromMs toMs (← addItem P numberText fromMs toMs flows item) rest

def normalizeExternalCashFlows (items : List RawRecord) (fromMs toMs : ℤ) :
    Except String ExternalCashFlowSummary := do
  require (¬ (toMs < fromMs ∨ toMs - fromMs > maxCashFlowRangeMs)) "CTRADER_CASH_FLOW_RANGE_INVALID"
  let flows ← addItems P numberText fromMs toMs ⟨[], 0, 0⟩ items
  return ⟨flows.netFlows, flows.operationCount, fromMs, toMs⟩

/-- The loop of `externalCashFlows`; `history` is the broker's answer to a request. -/
def sumWindows (history : ℤ × ℤ → Except String (List RawRecord)) (netFlows : Decimal)
    (operationCount : ℕ) : List (ℤ × ℤ) → Except String (Decimal × ℕ)
  | [] => .ok (netFlows, operationCount)
  | window :: rest => do
    let items ← history window
    let chunk ← normalizeExternalCashFlows P numberText items window.1 window.2
    sumWindows history (netFlows.plus chunk.netFlows) (operationCount + chunk.operationCount) rest

def externalCashFlows (history : ℤ × ℤ → Except String (List RawRecord)) (fromMs toMs : ℤ) :
    Except String ExternalCashFlowSummary :=
  if cashFlowRangeWindows fromMs toMs = [] then
    normalizeExternalCashFlows P numberText [] fromMs toMs
  else do
    let (netFlows, operationCount) ←
      sumWindows P numberText history 0 0 (cashFlowRangeWindows fromMs toMs)
    return ⟨netFlows, operationCount, fromMs, toMs⟩

end

/-! ### The windows -/

theorem windowsFrom_cut {cursor toMs : ℤ} (h : cursor ≤ toMs) :
    Cut cursor toMs (windowsFrom cursor toMs) := by
  induction cursor using windowsFrom.induct toMs with
  | case1 cursor hle chunkTo ih =>
    rw [windowsFrom, if_pos h]
    have hle : cursor ≤ chunkTo ∧ chunkTo ≤ toMs := by
      simp only [chunkTo, maxCashFlowRangeMs]
      omega
    by_cases hlast : chunkTo = toMs
    · simp only [chunkTo] at hlast
      simp only [hlast, if_true]
      exact .single h
    · have hrest := ih (by omega)
      simp only [chunkTo] at hlast hrest hle
      simp only [hlast, if_false]
      exact .cons hle.1 hrest
  | case2 _ hgt => exact absurd h hgt

theorem windowsFrom_span {cursor toMs : ℤ} :
    ∀ w ∈ windowsFrom cursor toMs, w.1 ≤ w.2 ∧ w.2 - w.1 ≤ maxCashFlowRangeMs := by
  induction cursor using windowsFrom.induct toMs with
  | case1 cursor hle chunkTo ih =>
    rw [windowsFrom, if_pos hle]
    intro w hw
    have hfirst : cursor ≤ chunkTo ∧ chunkTo - cursor ≤ maxCashFlowRangeMs := by
      simp only [chunkTo, maxCashFlowRangeMs]
      omega
    rcases List.mem_cons.mp hw with rfl | hw
    · exact hfirst
    · split at hw
      · cases hw
      · exact ih w hw
  | case2 _ hgt =>
    rw [windowsFrom, if_neg hgt]
    simp

theorem cashFlowRangeWindows_cut {fromMs toMs : ℤ} (h : fromMs ≤ toMs) :
    Cut fromMs toMs (cashFlowRangeWindows fromMs toMs) := by
  rw [cashFlowRangeWindows, if_neg (not_lt.mpr h)]
  exact windowsFrom_cut h

theorem cashFlowRangeWindows_span {fromMs toMs : ℤ} :
    ∀ w ∈ cashFlowRangeWindows fromMs toMs, w.1 ≤ w.2 ∧ w.2 - w.1 ≤ maxCashFlowRangeMs := by
  rw [cashFlowRangeWindows]
  split
  · simp
  · exact windowsFrom_span

/-! ### What the items say -/

section

variable {Payload : Type} (P : Platform Payload) (numberText : Decimal → String)

/-- The millisecond of an item, if it has one. -/
def timeOf (item : RawRecord) : Option ℤ :=
  match numberField P item "changeBalanceTimestamp" with
  | .ok t => if t.den = 1 then some t.num else none
  | .error _ => none

def historyIdOf (item : RawRecord) : Option String :=
  (stringField item "balanceHistoryId").toOption

/-- The money the items move in or out of the account, in their order. -/
def amounts (items : List RawRecord) : List Decimal :=
  items.filterMap fun item => (amountOf P numberText item).toOption.join

/-- An item whose fields the check accepts. -/
structure WellFormed (item : RawRecord) : Prop where
  identifier : ∃ id, stringField item "balanceHistoryId" = .ok id
  timestamp : ∃ t, numberField P item "changeBalanceTimestamp" = .ok t ∧ isSafe t
  amount : ∃ amount, amountOf P numberText item = .ok amount

theorem timeOf_eq {item : RawRecord} {t : Decimal}
    (h : numberField P item "changeBalanceTimestamp" = .ok t) (hsafe : isSafe t) :
    ∃ n : ℤ, t = n ∧ timeOf P item = some n := by
  rw [isSafe, Bool.decide_and, Bool.and_eq_true, decide_eq_true_eq] at hsafe
  refine ⟨t.num, (Rat.coe_int_num_of_den_eq_one hsafe.1).symm, ?_⟩
  rw [timeOf, h]
  exact if_pos hsafe.1

/-- The loop's variables after an item of that amount. -/
def CashFlows.add (flows : CashFlows) (identifier : String) : Option Decimal → CashFlows
  | some amount =>
    ⟨identifier :: flows.identifiers, flows.netFlows.plus amount, flows.operationCount + 1⟩
  | none => { flows with identifiers := identifier :: flows.identifiers }

theorem addItem_ok {fromMs toMs : ℤ} {flows after : CashFlows} {item : RawRecord} :
    addItem P numberText fromMs toMs flows item = .ok after ↔
      ∃ id, stringField item "balanceHistoryId" = .ok id ∧ id ∉ flows.identifiers ∧
      (∃ t, numberField P item "changeBalanceTimestamp" = .ok t ∧ isSafe t ∧
        (fromMs : Decimal) ≤ t ∧ t ≤ toMs) ∧
      ∃ amount, amountOf P numberText item = .ok amount ∧ after = flows.add id amount := by
  simp only [addItem, bind_ok, require_ok]
  constructor
  · rintro ⟨id, hid, _, hnew, t, ht, _, hrange, amount, hamount, hafter⟩
    refine ⟨id, hid, hnew, ⟨t, ht, hrange⟩, amount, hamount, ?_⟩
    cases amount <;> exact (Except.ok.inj hafter).symm
  · rintro ⟨id, hid, hnew, ⟨t, ht, hrange⟩, amount, hamount, rfl⟩
    refine ⟨id, hid, (), hnew, t, ht, (), hrange, amount, hamount, ?_⟩
    cases amount <;> rfl

theorem amounts_cons {item : RawRecord} {amount : Option Decimal} (rest : List RawRecord)
    (h : amountOf P numberText item = .ok amount) :
    amounts P numberText (item :: rest) = amount.toList ++ amounts P numberText rest := by
  rw [amounts, List.filterMap_cons, h]
  cases amount <;> rfl

theorem amounts_append (a b : List RawRecord) :
    amounts P numberText (a ++ b) = amounts P numberText a ++ amounts P numberText b :=
  List.filterMap_append

/-- Each item is added once. -/
theorem addItems_ok {fromMs toMs : ℤ} {flows after : CashFlows} {items : List RawRecord}
    (h : addItems P numberText fromMs toMs flows items = .ok after) :
    after.netFlows = (amounts P numberText items).foldl Decimal.plus flows.netFlows ∧
    after.operationCount = flows.operationCount + (amounts P numberText items).length := by
  induction items generalizing flows with
  | nil =>
    cases h
    exact ⟨rfl, rfl⟩
  | cons item rest ih =>
    simp only [addItems, bind_ok, addItem_ok] at h
    obtain ⟨_, ⟨id, _, _, _, amount, hamount, rfl⟩, hrest⟩ := h
    obtain ⟨hnet, hcount⟩ := ih hrest
    rw [hnet, hcount, amounts_cons P numberText rest hamount]
    cases amount with
    | none => exact ⟨rfl, rfl⟩
    | some amount =>
      refine ⟨rfl, ?_⟩
      simp only [CashFlows.add, Option.toList_some, List.singleton_append, List.length_cons]
      omega

/-- Well-formed items of the window with distinct ids are all added. -/
theorem addItems_total {fromMs toMs : ℤ} (flows : CashFlows) {items : List RawRecord}
    (hform : ∀ item ∈ items, WellFormed P numberText item)
    (hwithin : ∀ item ∈ items, within (timeOf P) (fromMs, toMs) item)
    (hnodup : (items.map historyIdOf).Nodup)
    (hnew : ∀ id ∈ flows.identifiers, some id ∉ items.map historyIdOf) :
    ∃ after, addItems P numberText fromMs toMs flows items = .ok after := by
  induction items generalizing flows with
  | nil => exact ⟨flows, rfl⟩
  | cons item rest ih =>
    obtain ⟨⟨id, hid⟩, ⟨t, ht, hsafe⟩, amount, hamount⟩ := hform item (by simp)
    have hsome : historyIdOf item = some id := by
      rw [historyIdOf, hid]
      rfl
    rw [List.map_cons, List.nodup_cons, hsome] at hnodup
    simp only [List.map_cons, hsome] at hnew
    obtain ⟨n, rfl, htime⟩ := timeOf_eq P ht hsafe
    have hrange : fromMs ≤ n ∧ n ≤ toMs := by
      have := hwithin item (by simp)
      rwa [within, htime, Option.any_some, decide_eq_true_eq] at this
    have hitem : addItem P numberText fromMs toMs flows item = .ok (flows.add id amount) := by
      refine (addItem_ok P numberText).mpr ⟨id, hid, ?_, ⟨n, ht, hsafe, ?_⟩, amount, hamount, rfl⟩
      · intro hmem
        exact hnew id hmem (by simp)
      · exact_mod_cast hrange
    obtain ⟨after, hafter⟩ := ih (flows.add id amount)
      (fun i hi => hform i (by simp [hi])) (fun i hi => hwithin i (by simp [hi])) hnodup.2 (by
        intro other hother
        have hor : other = id ∨ other ∈ flows.identifiers := by
          cases amount <;> simpa [CashFlows.add] using hother
        rcases hor with rfl | hmem
        · exact hnodup.1
        · intro hlater
          exact hnew other hmem (by simp [hlater]))
    refine ⟨after, ?_⟩
    rw [addItems, hitem]
    exact hafter

/-! ### What the windows add up to -/

theorem sumWindows_ok {history : ℤ × ℤ → Except String (List RawRecord)} {netFlows total : Decimal}
    {operationCount count : ℕ} {windows : List (ℤ × ℤ)}
    (h : sumWindows P numberText history netFlows operationCount windows = .ok (total, count)) :
    ∃ answers : List (List RawRecord),
      List.Forall₂ (fun window items => history window = .ok items) windows answers ∧
      total = (answers.map fun items => (amounts P numberText items).foldl Decimal.plus 0).foldl
        Decimal.plus netFlows ∧
      count = operationCount + (amounts P numberText answers.flatten).length := by
  induction windows generalizing netFlows operationCount with
  | nil =>
    cases h
    exact ⟨[], .nil, rfl, rfl⟩
  | cons window rest ih =>
    simp only [sumWindows, bind_ok] at h
    obtain ⟨items, hitems, chunk, hchunk, h⟩ := h
    simp only [normalizeExternalCashFlows, bind_ok, pure_ok] at hchunk
    obtain ⟨_, _, flows, hflows, rfl⟩ := hchunk
    obtain ⟨hnet, hcount⟩ := addItems_ok P numberText hflows
    have hcount : flows.operationCount = (amounts P numberText items).length :=
      hcount.trans (Nat.zero_add _)
    obtain ⟨answers, hanswers, rfl, rfl⟩ := ih h
    refine ⟨items :: answers, .cons hitems hanswers, ?_, ?_⟩
    · rw [List.map_cons, List.foldl_cons, hnet]
    · rw [List.flatten_cons, amounts_append, List.length_append, ← hcount, ← Nat.add_assoc]

theorem sumWindows_total {history : ℤ × ℤ → Except String (List RawRecord)} {netFlows : Decimal}
    {operationCount : ℕ} {windows : List (ℤ × ℤ)}
    (h : ∀ window ∈ windows, ∃ items, history window = .ok items ∧
      ∃ chunk, normalizeExternalCashFlows P numberText items window.1 window.2 = .ok chunk) :
    ∃ total, sumWindows P numberText history netFlows operationCount windows = .ok total := by
  induction windows generalizing netFlows operationCount with
  | nil => exact ⟨_, rfl⟩
  | cons window rest ih =>
    obtain ⟨items, hitems, chunk, hchunk⟩ := h window (by simp)
    rw [sumWindows, hitems, ok_bind, hchunk, ok_bind]
    exact ih fun w hw => h w (by simp [hw])

/-! ### Exact sums -/

/-- A number of cents of any currency: at most twelve places. -/
def Scaled (a : Decimal) : Prop := ∃ n : ℤ, a = n / 10 ^ 12

theorem Scaled.sum {l : List Decimal} (h : ∀ a ∈ l, Scaled a) : Scaled l.sum := by
  induction l with
  | nil => exact ⟨0, by simp⟩
  | cons a l ih =>
    obtain ⟨n, hn⟩ := h a (by simp)
    obtain ⟨m, hm⟩ := ih fun b hb => h b (by simp [hb])
    exact ⟨n + m, by rw [List.sum_cons, hn, hm]; push_cast; ring⟩

/-- A running sum of such numbers is exact while it has no more than 40 digits. -/
theorem Scaled.foldl_plus {l : List Decimal} (h : ∀ a ∈ l, Scaled a)
    (hlt : (l.map abs).sum < 10 ^ 28) : l.foldl Decimal.plus 0 = l.sum := by
  refine Decimal.foldl_plus_eq_sum fun part hpart => ?_
  obtain ⟨n, hn⟩ := Scaled.sum fun a ha => h a (hpart.subset ha)
  obtain ⟨rest, rfl⟩ := hpart
  have habs : |part.sum| ≤ (part.map abs).sum :=
    List.le_sum_of_subadditive abs abs_zero.le abs_add_le part
  have hrest : 0 ≤ (rest.map abs).sum := List.sum_nonneg (by simp)
  rw [List.map_append, List.sum_append] at hlt
  have hlt : |part.sum| < 10 ^ 28 := by linarith
  refine Decimal.exact n 12 hn ?_
  rw [hn, abs_div, abs_of_pos (by norm_num : (0 : ℚ) < 10 ^ 12), div_lt_iff₀ (by norm_num)] at hlt
  have hcast : ((|n| : ℤ) : ℚ) < 10 ^ 40 := by
    rw [Int.cast_abs]
    linarith
  exact_mod_cast hcast

theorem scaled_money {value : Option Raw} {digits : ℕ} {a : Decimal} (hdigits : digits ≤ 12)
    (h : money numberText value digits = .ok a) (hlt : |a| < 10 ^ 28) : Scaled a := by
  simp only [money] at h
  split at h
  · next n _ =>
    have ha := (Except.ok.inj h).symm
    have hsmall : |(n : ℚ) / 10 ^ digits| < 10 ^ 28 := by
      rw [ha, Decimal.div, Significant.abs_truncate] at hlt
      by_contra hlarge
      have hfits : Significant.Fits Decimal.precision ((10 : ℚ) ^ 28) :=
        Significant.fits_pow (by decide)
      have hle := (hfits.le_truncate_iff (by decide) (by norm_num)).mpr (not_lt.mp hlarge)
      exact absurd hlt (not_lt.mpr hle)
    have hn : |n| < 10 ^ 40 := by
      rw [abs_div, abs_of_pos (by positivity : (0 : ℚ) < 10 ^ digits),
        div_lt_iff₀ (by positivity)] at hsmall
      have hpow : (10 : ℚ) ^ digits ≤ 10 ^ 12 := pow_le_pow_right₀ (by norm_num) hdigits
      have hcast : ((|n| : ℤ) : ℚ) < 10 ^ 40 := by
        rw [Int.cast_abs]
        linarith
      exact_mod_cast hcast
    rw [Decimal.div, Decimal.exact n digits rfl hn] at ha
    refine ⟨n * 10 ^ (12 - digits), ?_⟩
    rw [ha, div_eq_div_iff (by positivity) (by positivity)]
    push_cast
    rw [mul_assoc, ← pow_add, Nat.sub_add_cancel hdigits]
  · cases h

theorem scaled_amount {item : RawRecord} {a : Decimal}
    (h : amountOf P numberText item = .ok (some a)) (hlt : |a| < 10 ^ 28) : Scaled a := by
  simp only [amountOf, moneyDigits, bind_ok] at h
  obtain ⟨_, _, _, _, digits, ⟨found, _, hdigits⟩, h⟩ := h
  cases found with
  | none => cases hdigits
  | some value =>
    simp only [bind_ok, require_ok, pure_ok] at hdigits
    obtain ⟨_, ⟨hsafe, _, hle⟩, rfl⟩ := hdigits
    split at h
    · obtain ⟨amount, hmoney, hsome⟩ := map_ok.mp h
      cases hsome
      refine scaled_money numberText ?_ hmoney hlt
      have hnum : value.num ≤ 12 := by
        rw [isSafe, Bool.decide_and, Bool.and_eq_true, decide_eq_true_eq] at hsafe
        rw [← Rat.coe_int_num_of_den_eq_one hsafe.1] at hle
        exact_mod_cast hle
      omega
    · cases h

theorem scaled_amounts {items : List RawRecord}
    (hlt : ((amounts P numberText items).map abs).sum < 10 ^ 28) :
    ∀ a ∈ amounts P numberText items, Scaled a := by
  intro a ha
  have hle : |a| ≤ ((amounts P numberText items).map abs).sum :=
    List.single_le_sum (by simp) _ (List.mem_map_of_mem ha)
  obtain ⟨item, _, hitem⟩ := List.mem_filterMap.mp ha
  cases hamount : amountOf P numberText item with
  | error reason =>
    rw [hamount] at hitem
    cases hitem
  | ok amount =>
    rw [hamount] at hitem
    rw [show amount = some a from hitem] at hamount
    exact scaled_amount P numberText hamount (hle.trans_lt hlt)

/-- Sums of sums are the sum of all. -/
theorem foldl_parts {parts : List (List Decimal)} (h : ∀ a ∈ parts.flatten, Scaled a)
    (hlt : (parts.flatten.map abs).sum < 10 ^ 28) :
    (parts.map fun part => part.foldl Decimal.plus 0).foldl Decimal.plus 0
      = parts.flatten.sum := by
  have hparts : parts.map (fun part => part.foldl Decimal.plus 0) = parts.map List.sum := by
    refine List.map_congr_left fun part hpart => Scaled.foldl_plus (fun a ha => ?_) ?_
    · exact h a (List.mem_flatten.mpr ⟨part, hpart, ha⟩)
    · refine lt_of_le_of_lt ?_ hlt
      rw [List.map_flatten, List.sum_flatten]
      refine List.single_le_sum ?_ _ (List.mem_map_of_mem (List.mem_map_of_mem hpart))
      rintro x hx
      obtain ⟨_, hmem, rfl⟩ := List.mem_map.mp hx
      obtain ⟨other, _, rfl⟩ := List.mem_map.mp hmem
      exact List.sum_nonneg (by simp)
  have hsum : ((parts.map List.sum).map abs).sum ≤ (parts.flatten.map abs).sum := by
    rw [List.map_flatten, List.sum_flatten, List.map_map, List.map_map]
    refine List.sum_le_sum fun part _ => ?_
    exact List.le_sum_of_subadditive abs abs_zero.le abs_add_le part
  rw [hparts, Scaled.foldl_plus ?_ (hsum.trans_lt hlt), List.sum_flatten]
  intro a ha
  obtain ⟨part, hpart, rfl⟩ := List.mem_map.mp ha
  exact Scaled.sum fun b hb => h b (List.mem_flatten.mpr ⟨part, hpart, hb⟩)

/-! ### Each record once -/

/-- The summary adds up the due records, window by window, each once. -/
structure Once (due : List RawRecord) (fromMs toMs : ℤ) (summary : ExternalCashFlowSummary) :
    Prop where
  count : summary.operationCount = (amounts P numberText due).length
  parts : ∃ parts : List (List Decimal), parts.flatten.Perm (amounts P numberText due) ∧
    summary.netFlows = (parts.map fun part => part.foldl Decimal.plus 0).foldl Decimal.plus 0
  exact : ((amounts P numberText due).map abs).sum < 10 ^ 28 →
    summary.netFlows = (amounts P numberText due).sum
  range : summary.fromMs = fromMs ∧ summary.toMs = toMs

/-- The answers to all windows hold the records of the range, each once. -/
theorem answers_perm {ledger : List RawRecord} {history : ℤ × ℤ → Except String (List RawRecord)}
    {windows : List (ℤ × ℤ)} {answers : List (List RawRecord)}
    (hhistory : ∀ w ∈ windows, ∀ items, history w = .ok items →
      items.Perm (ledger.filter (within (timeOf P) w)))
    (h : List.Forall₂ (fun window items => history window = .ok items) windows answers) :
    answers.flatten.Perm (windows.flatMap fun w => ledger.filter (within (timeOf P) w)) := by
  induction h with
  | nil => exact .nil
  | cons hfirst _ ih =>
    rw [List.flatten_cons, List.flatMap_cons]
    exact (hhistory _ (by simp) _ hfirst).append (ih fun w hw => hhistory w (by simp [hw]))

theorem sumWindows_once {ledger : List RawRecord}
    {history : ℤ × ℤ → Except String (List RawRecord)} {fromMs toMs : ℤ} (h : fromMs ≤ toMs)
    (hhistory : ∀ w ∈ cashFlowRangeWindows fromMs toMs, ∀ items, history w = .ok items →
      items.Perm (ledger.filter (within (timeOf P) w))) {total : Decimal} {count : ℕ}
    (hsum : sumWindows P numberText history 0 0 (cashFlowRangeWindows fromMs toMs)
      = .ok (total, count)) :
    Once P numberText (ledger.filter (within (timeOf P) (fromMs, toMs))) fromMs toMs
      ⟨total, count, fromMs, toMs⟩ := by
  obtain ⟨answers, hanswers, htotal, hcount⟩ := sumWindows_ok P numberText hsum
  have hperm := (answers_perm P hhistory hanswers).trans
    ((cashFlowRangeWindows_cut h).perm_filter (timeOf P) ledger)
  have hamounts : (answers.map (amounts P numberText)).flatten.Perm
      (amounts P numberText (ledger.filter (within (timeOf P) (fromMs, toMs)))) := by
    have hflat : (answers.map (amounts P numberText)).flatten
        = amounts P numberText answers.flatten := by
      rw [amounts, List.filterMap_flatten]
      rfl
    rw [hflat]
    exact hperm.filterMap _
  have hnet : total = ((answers.map (amounts P numberText)).map
      fun part => part.foldl Decimal.plus 0).foldl Decimal.plus 0 := by
    rw [htotal, List.map_map]
    rfl
  refine ⟨?_, ⟨_, hamounts, hnet⟩, ?_, rfl, rfl⟩
  · rw [hcount, Nat.zero_add]
    exact (hperm.filterMap _).length_eq
  · intro hlt
    have hscaled := scaled_amounts P numberText hlt
    rw [← (hamounts.map abs).sum_eq] at hlt
    rw [hnet, foldl_parts (fun a ha => hscaled a (hamounts.subset ha)) hlt, hamounts.sum_eq]

/-- Well-formed records with distinct ids are summed without an error. -/
theorem sumWindows_succeeds {ledger : List RawRecord}
    {history : ℤ × ℤ → Except String (List RawRecord)} {fromMs toMs : ℤ} (h : fromMs ≤ toMs)
    (hhistory : ∀ w ∈ cashFlowRangeWindows fromMs toMs, ∃ items, history w = .ok items ∧
      items.Perm (ledger.filter (within (timeOf P) w)))
    (hform : ∀ item ∈ ledger.filter (within (timeOf P) (fromMs, toMs)),
      WellFormed P numberText item)
    (hnodup : ((ledger.filter (within (timeOf P) (fromMs, toMs))).map historyIdOf).Nodup) :
    ∃ total, sumWindows P numberText history 0 0 (cashFlowRangeWindows fromMs toMs)
      = .ok total := by
  refine sumWindows_total P numberText fun w hw => ?_
  obtain ⟨items, hitems, hperm⟩ := hhistory w hw
  obtain ⟨hle, hspan⟩ := cashFlowRangeWindows_span w hw
  have hsub : (ledger.filter (within (timeOf P) w)).Sublist
      (ledger.filter (within (timeOf P) (fromMs, toMs))) :=
    List.monotone_filter_right ledger fun _ =>
      within_mono ((cashFlowRangeWindows_cut h).bounds w hw)
  have hids := ((hperm.map historyIdOf).nodup_iff).mpr (hnodup.sublist (hsub.map historyIdOf))
  obtain ⟨flows, hflows⟩ := addItems_total P numberText ⟨[], 0, 0⟩
    (fun item hitem => hform item (hsub.subset (hperm.subset hitem)))
    (fun item hitem => (List.mem_filter.mp (hperm.subset hitem)).2) hids (by simp)
  refine ⟨items, hitems, ⟨flows.netFlows, flows.operationCount, w.1, w.2⟩, ?_⟩
  rw [normalizeExternalCashFlows, require_eq (by omega), ok_bind, hflows]
  rfl

/-- The windows share out the milliseconds of the range, each to one window of at most seven days,
    and so each record of the range is added up once. -/
theorem externalCashFlows_once {fromMs toMs : ℤ} (h : fromMs ≤ toMs) :
    (∀ t : ℤ, ((cashFlowRangeWindows fromMs toMs).filter fun w => w.1 ≤ t ∧ t ≤ w.2).length
      = if fromMs ≤ t ∧ t ≤ toMs then 1 else 0) ∧
    (∀ w ∈ cashFlowRangeWindows fromMs toMs, w.1 ≤ w.2 ∧ w.2 - w.1 ≤ 604800000) ∧
    ∀ (ledger : List RawRecord) (history : ℤ × ℤ → Except String (List RawRecord)),
      (∀ w ∈ cashFlowRangeWindows fromMs toMs, ∀ items, history w = .ok items →
        items.Perm (ledger.filter (within (timeOf P) w))) →
      (∀ summary, externalCashFlows P numberText history fromMs toMs = .ok summary →
        Once P numberText (ledger.filter (within (timeOf P) (fromMs, toMs))) fromMs toMs
          summary) ∧
      ((∀ w ∈ cashFlowRangeWindows fromMs toMs, ∃ items, history w = .ok items) →
        (∀ item ∈ ledger.filter (within (timeOf P) (fromMs, toMs)),
          WellFormed P numberText item) →
        ((ledger.filter (within (timeOf P) (fromMs, toMs))).map historyIdOf).Nodup →
        ∃ summary, externalCashFlows P numberText history fromMs toMs = .ok summary) := by
  have hcut := cashFlowRangeWindows_cut h
  have hsome : cashFlowRangeWindows fromMs toMs ≠ [] := by
    intro hnil
    rw [hnil] at hcut
    cases hcut
  refine ⟨hcut.length_filter, cashFlowRangeWindows_span, fun ledger history hhistory => ⟨?_, ?_⟩⟩
  · intro summary hsummary
    rw [externalCashFlows, if_neg hsome] at hsummary
    simp only [bind_ok, pure_ok] at hsummary
    obtain ⟨⟨total, count⟩, hsum, rfl⟩ := hsummary
    exact sumWindows_once P numberText h hhistory hsum
  · intro hanswers hform hnodup
    obtain ⟨total, htotal⟩ := sumWindows_succeeds P numberText h (fun w hw => by
      obtain ⟨items, hitems⟩ := hanswers w hw
      exact ⟨items, hitems, hhistory w hw items hitems⟩) hform hnodup
    rw [externalCashFlows, if_neg hsome, htotal]
    exact ⟨_, rfl⟩

end

namespace FlowSample

def platform : Platform Unit where
  number _ := none
  decimal _ := none
  hash _ := ""

def numberText (n : Decimal) : String := toString n.num

/-- A deposit of 250.00 at an instant. -/
def deposit (id : String) (time : Decimal) : RawRecord :=
  [("balanceHistoryId", .text id), ("changeBalanceTimestamp", .number time),
    ("operationType", .number 0), ("moneyDigits", .number 2), ("delta", .text "25000")]

/-- Deposits at the end of the first window, at the start of the second and after the range. -/
def ledger : List RawRecord :=
  [deposit "1" 604800000, deposit "2" 604800001, deposit "3" 604800002]

def history (w : ℤ × ℤ) : Except String (List RawRecord) :=
  .ok (ledger.filter (within (timeOf platform) w))

theorem due : ledger.filter (within (timeOf platform) (0, 604800001))
    = [deposit "1" 604800000, deposit "2" 604800001] := by
  rfl

theorem wellFormed_first : WellFormed platform numberText (deposit "1" 604800000) :=
  ⟨⟨_, rfl⟩, ⟨_, rfl, by decide⟩, ⟨_, rfl⟩⟩

theorem wellFormed_second : WellFormed platform numberText (deposit "2" 604800001) :=
  ⟨⟨_, rfl⟩, ⟨_, rfl, by decide⟩, ⟨_, rfl⟩⟩

end FlowSample

open FlowSample in
theorem externalCashFlows_once_week :
    ((cashFlowRangeWindows 0 604800001).filter fun w => w.1 ≤ 604800000 ∧ 604800000 ≤ w.2).length
      = 1 ∧
    ∃ summary, externalCashFlows platform numberText history 0 604800001 = .ok summary ∧
      Once platform numberText [deposit "1" 604800000, deposit "2" 604800001] 0 604800001
        summary := by
  obtain ⟨hcovers, -, hledger⟩ := externalCashFlows_once platform numberText
    (show (0 : ℤ) ≤ 604800001 by decide)
  obtain ⟨honce, hsucceeds⟩ := hledger ledger history (by
    rintro w - items hitems
    rw [← Except.ok.inj hitems])
  rw [due] at honce hsucceeds
  obtain ⟨summary, hsummary⟩ := hsucceeds (fun w _ => ⟨_, rfl⟩) (by
    intro item hitem
    rcases List.mem_cons.mp hitem with rfl | hitem
    · exact wellFormed_first
    · rw [List.mem_singleton.mp hitem]
      exact wellFormed_second) (by decide)
  exact ⟨hcovers 604800000, summary, hsummary, honce summary hsummary⟩

end ScalpingBot.Account
