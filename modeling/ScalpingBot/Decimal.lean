import ScalpingBot.Library.Significant

/-! The decimal arithmetic of packages/risk-engine/src/decimal.ts: `Decimal` with 40 significant
    digits and `ROUND_DOWN`. A decimal text is carried as the number it denotes. -/

namespace ScalpingBot

abbrev Decimal := ℚ

namespace Decimal

/-- `Decimal.set({ precision: 40, rounding: Decimal.ROUND_DOWN })`. -/
def precision : ℕ := 40

def plus (a b : Decimal) : Decimal := Significant.truncate precision (a + b)
def minus (a b : Decimal) : Decimal := Significant.truncate precision (a - b)
def times (a b : Decimal) : Decimal := Significant.truncate precision (a * b)
def div (a b : Decimal) : Decimal := Significant.truncate precision (a / b)

/-- A result whose digits fit is exact. -/
theorem exact {q : ℚ} (n : ℤ) (k : ℕ) (hq : q = n / 10 ^ k) (hn : |n| < 10 ^ 40) :
    Significant.truncate precision q = q := Significant.truncate_eq hq hn

theorem exact_nat {q : ℚ} (n k : ℕ) (hq : q = n / 10 ^ k) (hn : n < 10 ^ 40) :
    Significant.truncate precision q = q :=
  exact n k (by rw [hq, Int.cast_natCast]) (by rw [abs_of_nonneg (by positivity)]; exact_mod_cast hn)

/-- A running sum is the sum as long as the digits of what has been added up fit. -/
theorem foldl_plus_eq_sum {l : List Decimal}
    (h : ∀ part, part <+: l → Significant.truncate precision part.sum = part.sum) :
    l.foldl plus 0 = l.sum := by
  induction l using List.reverseRecOn with
  | nil => rfl
  | append_singleton l a ih =>
    rw [List.foldl_concat, ih fun part hpart => h part (hpart.trans (l.prefix_append [a])), plus]
    have := h (l ++ [a]) List.prefix_rfl
    rwa [List.sum_append, List.sum_singleton] at this ⊢

/-- The result of an operation is not changed by adding it to nothing. -/
theorem zero_plus_minus (a b : Decimal) : plus 0 (minus a b) = minus a b := by
  rw [plus, zero_add, minus, Significant.truncate_truncate (by decide)]

theorem times_le {a b : Decimal} (h : 0 ≤ a * b) : a.times b ≤ a * b := Significant.truncate_le h

theorem times_nonneg {a b : Decimal} (h : 0 ≤ a * b) : 0 ≤ a.times b :=
  Significant.truncate_nonneg h

theorem div_le {a b : Decimal} (h : 0 ≤ a / b) : a.div b ≤ a / b := Significant.truncate_le h

def isInteger (a : Decimal) : Bool := a.den = 1

def floor (a : Decimal) : Decimal := ⌊a⌋

/-- `toDecimalPlaces(places, Decimal.ROUND_DOWN)`: toward zero. -/
def toDecimalPlacesDown (places : ℕ) (a : Decimal) : Decimal :=
  let kept := (⌊|a| * 10 ^ places⌋₊ : ℚ) / 10 ^ places
  if a < 0 then -kept else kept

/-- `toDecimalPlaces(places, Decimal.ROUND_UP)`: away from zero. -/
def toDecimalPlacesUp (places : ℕ) (a : Decimal) : Decimal :=
  let kept := (⌈|a| * 10 ^ places⌉₊ : ℚ) / 10 ^ places
  if a < 0 then -kept else kept

/-- What a `numeric(30,10)` column keeps: ten places, half away from zero. -/
def numeric (a : Decimal) : Decimal :=
  let kept := (⌊|a| * 10 ^ 10 + 1 / 2⌋₊ : ℚ) / 10 ^ 10
  if a < 0 then -kept else kept

/-- A number with at most ten decimal places. -/
def InPlaces (a : ℚ) : Prop := ∃ n : ℤ, a = n / 10 ^ 10

theorem InPlaces.add {a b : ℚ} (ha : InPlaces a) (hb : InPlaces b) : InPlaces (a + b) := by
  obtain ⟨n, rfl⟩ := ha
  obtain ⟨m, rfl⟩ := hb
  exact ⟨n + m, by push_cast; ring⟩

theorem InPlaces.sub {a b : ℚ} (ha : InPlaces a) (hb : InPlaces b) : InPlaces (a - b) := by
  obtain ⟨n, rfl⟩ := ha
  obtain ⟨m, rfl⟩ := hb
  exact ⟨n - m, by push_cast; ring⟩

theorem InPlaces.intMul {a : ℚ} (ha : InPlaces a) (k : ℤ) : InPlaces (k * a) := by
  obtain ⟨n, rfl⟩ := ha
  exact ⟨k * n, by push_cast; ring⟩

theorem InPlaces.sum {l : List ℚ} (h : ∀ a ∈ l, InPlaces a) : InPlaces l.sum := by
  induction l with
  | nil => exact ⟨0, by simp⟩
  | cons a l ih =>
    rw [List.sum_cons]
    exact (h a (by simp)).add (ih fun b hb => h b (by simp [hb]))

/-- Such a number is kept while it has no more than 40 digits. -/
theorem InPlaces.truncate_eq {a : ℚ} (ha : InPlaces a) (h : |a| < 10 ^ 30) :
    Significant.truncate precision a = a := by
  obtain ⟨n, hn⟩ := ha
  refine exact n 10 hn ?_
  rw [hn, abs_div, abs_of_pos (by norm_num : (0 : ℚ) < 10 ^ 10), div_lt_iff₀ (by norm_num)] at h
  have hlt : ((|n| : ℤ) : ℚ) < 10 ^ 40 := by
    rw [Int.cast_abs]
    linarith
  exact_mod_cast hlt

/-- A sum of such numbers is exact while it has no more than 40 digits. -/
theorem InPlaces.plus_eq {a b : ℚ} (ha : InPlaces a) (hb : InPlaces b) (h : |a + b| < 10 ^ 30) :
    plus a b = a + b := (ha.add hb).truncate_eq h

theorem InPlaces.minus_eq {a b : ℚ} (ha : InPlaces a) (hb : InPlaces b) (h : |a - b| < 10 ^ 30) :
    minus a b = a - b := (ha.sub hb).truncate_eq h

/-- A multiple of such a number is exact while it has no more than 40 digits. -/
theorem InPlaces.intMul_eq {a : ℚ} (ha : InPlaces a) {n : ℤ} (h : |times n a| < 10 ^ 30) :
    times n a = n * a := by
  refine (ha.intMul n).truncate_eq ?_
  rw [times, Significant.abs_truncate] at h
  have hfits : Significant.Fits precision ((10 : ℚ) ^ 30) := Significant.fits_pow (by decide)
  by_contra hlarge
  have hle := (hfits.le_truncate_iff (by decide) (by norm_num)).mpr (not_lt.mp hlarge)
  exact absurd h (not_lt.mpr hle)

/-- The floor and the ceiling of a quotient of such numbers are exact. -/
theorem InPlaces.floor_ceil_div {a t : ℚ} (ha : InPlaces a) (ht : InPlaces t) (hpos : 0 < t)
    (h : |a| < 10 ^ 28) : ⌊div a t⌋ = ⌊a / t⌋ ∧ ⌈div a t⌉ = ⌈a / t⌉ := by
  obtain ⟨n, rfl⟩ := ha
  obtain ⟨m, rfl⟩ := ht
  have hm : 0 < m := by
    have := (div_pos_iff_of_pos_right (by positivity)).mp hpos
    exact_mod_cast this
  obtain ⟨b, rfl⟩ := Int.eq_ofNat_of_zero_le hm.le
  have hn : |n| < 10 ^ 38 := by
    rw [abs_div, abs_of_pos (by norm_num : (0 : ℚ) < 10 ^ 10), div_lt_iff₀ (by norm_num)] at h
    have hlt : ((|n| : ℤ) : ℚ) < 10 ^ 38 := by
      rw [Int.cast_abs]
      linarith
    exact_mod_cast hlt
  have hq : (n / 10 ^ 10 : ℚ) / (((b : ℤ) : ℚ) / 10 ^ 10) = n / b := by
    rw [div_div_div_cancel_right₀ (by norm_num), Int.cast_natCast]
  rw [div, hq]
  exact Significant.floor_ceil_truncate (by exact_mod_cast hm) (by rw [precision]; omega)
    (by decide)

/-- What a `numeric(30,10)` column holds. -/
def IsNumeric (a : ℚ) : Prop := InPlaces a ∧ |a| < 10 ^ 20

theorem numeric_inPlaces (a : Decimal) : InPlaces (numeric a) := by
  rw [numeric]
  split
  · exact ⟨-⌊|a| * 10 ^ 10 + 1 / 2⌋₊, by push_cast; ring⟩
  · exact ⟨⌊|a| * 10 ^ 10 + 1 / 2⌋₊, by push_cast; ring⟩

/-- A value of at most ten places is kept. -/
theorem numeric_eq {a : ℚ} (h : InPlaces a) : numeric a = a := by
  obtain ⟨n, h⟩ := h
  have habs : |a| * 10 ^ 10 = n.natAbs := by
    rw [h, abs_div, abs_of_pos (by norm_num : (0 : ℚ) < 10 ^ 10),
      div_mul_cancel₀ _ (by norm_num), Nat.cast_natAbs, Int.cast_abs]
  have hfloor : ⌊|a| * 10 ^ 10 + 1 / 2⌋₊ = n.natAbs := by
    rw [habs, Nat.floor_eq_iff (by positivity)]
    constructor <;> linarith
  rw [numeric]
  simp only [hfloor]
  rw [← habs, mul_div_assoc, div_self (by norm_num), mul_one]
  split
  · next hneg => rw [abs_of_neg hneg, neg_neg]
  · next hpos => rw [abs_of_nonneg (not_lt.mp hpos)]

theorem toDecimalPlacesDown_of_nonneg {q : ℚ} (places : ℕ) (hq : 0 ≤ q) :
    toDecimalPlacesDown places q = (⌊q * 10 ^ places⌋₊ : ℚ) / 10 ^ places := by
  rw [toDecimalPlacesDown]
  simp only [abs_of_nonneg hq, not_lt.mpr hq, if_false]

theorem toDecimalPlacesDown_le {q : ℚ} (places : ℕ) (hq : 0 ≤ q) :
    toDecimalPlacesDown places q ≤ q := by
  rw [toDecimalPlacesDown_of_nonneg places hq, div_le_iff₀ (by positivity)]
  exact Nat.floor_le (by positivity)

theorem toDecimalPlacesUp_of_nonneg {q : ℚ} (places : ℕ) (hq : 0 ≤ q) :
    toDecimalPlacesUp places q = (⌈q * 10 ^ places⌉₊ : ℚ) / 10 ^ places := by
  rw [toDecimalPlacesUp]
  simp only [abs_of_nonneg hq, not_lt.mpr hq, if_false]

theorem le_toDecimalPlacesUp {q : ℚ} (places : ℕ) (hq : 0 ≤ q) :
    q ≤ toDecimalPlacesUp places q := by
  rw [toDecimalPlacesUp_of_nonneg places hq, le_div_iff₀ (by positivity)]
  exact Nat.le_ceil _

theorem toDecimalPlacesUp_lt {q : ℚ} (places : ℕ) (hq : 0 ≤ q) :
    toDecimalPlacesUp places q < q + 1 / 10 ^ places := by
  rw [toDecimalPlacesUp_of_nonneg places hq, div_lt_iff₀ (by positivity), add_mul,
    div_mul_cancel₀ _ (by positivity)]
  exact Nat.ceil_lt_add_one (by positivity)

/-- Rounding up stays below a bound with no more places. -/
theorem toDecimalPlacesUp_le {q : ℚ} {places : ℕ} {bound : ℕ} (hq : 0 ≤ q) (h : q ≤ bound) :
    0 ≤ toDecimalPlacesUp places q ∧ toDecimalPlacesUp places q ≤ bound := by
  rw [toDecimalPlacesUp_of_nonneg places hq]
  refine ⟨by positivity, ?_⟩
  rw [div_le_iff₀ (by positivity)]
  have hceil : ⌈q * 10 ^ places⌉₊ ≤ bound * 10 ^ places :=
    Nat.ceil_le.mpr (by push_cast; gcongr)
  exact_mod_cast hceil

end Decimal

/-- `DECIMAL_PATTERN`: at most 16 digits before the point and 10 after it, no sign. -/
def isDecimalText (a : Decimal) : Bool := 0 ≤ a ∧ a < 10 ^ 16 ∧ (a * 10 ^ 10).den = 1

/-- `decimal`. -/
def decimal (a : Decimal) (reason : String := "INVALID_DECIMAL") : Except String Decimal :=
  if isDecimalText a then .ok a else .error reason

/-- A decimal text denotes a whole number of its smallest unit. -/
theorem isDecimalText_iff {a : Decimal} :
    isDecimalText a ↔ ∃ n : ℕ, n < 10 ^ 26 ∧ a = n / 10 ^ 10 := by
  simp only [isDecimalText, Bool.decide_and, Bool.and_eq_true, decide_eq_true_eq]
  constructor
  · rintro ⟨hnonneg, hlt, hden⟩
    have hcast := Rat.coe_int_num_of_den_eq_one hden
    have hnum : 0 ≤ (a * 10 ^ 10).num := Rat.num_nonneg.mpr (by positivity)
    obtain ⟨n, hn⟩ := Int.eq_ofNat_of_zero_le hnum
    have ha : a = n / 10 ^ 10 := by
      rw [hn, Int.cast_natCast] at hcast
      rw [hcast, mul_div_cancel_right₀ _ (by norm_num)]
    refine ⟨n, ?_, ha⟩
    rw [ha, div_lt_iff₀ (by norm_num)] at hlt
    exact_mod_cast hlt
  · rintro ⟨n, hn, rfl⟩
    refine ⟨by positivity, ?_, ?_⟩
    · rw [div_lt_iff₀ (by norm_num)]
      exact_mod_cast hn
    · rw [div_mul_cancel₀ _ (by norm_num), Rat.den_natCast]

theorem decimal_ok {a b : Decimal} {reason : String} :
    decimal a reason = .ok b ↔ a = b ∧ isDecimalText a := by
  rw [decimal]
  split <;> simp [*]

theorem decimal_error {a : Decimal} {reason e : String} :
    decimal a reason = .error e ↔ ¬ isDecimalText a ∧ reason = e := by
  rw [decimal]
  split <;> simp [*]

theorem text_bounds {a : Decimal} (h : isDecimalText a) : 0 ≤ a ∧ a < 10 ^ 16 := by
  simp only [isDecimalText, Bool.decide_and, Bool.and_eq_true, decide_eq_true_eq] at h
  exact ⟨h.1, h.2.1⟩

theorem text_inPlaces {a : Decimal} (h : isDecimalText a) : Decimal.InPlaces a := by
  obtain ⟨n, -, rfl⟩ := isDecimalText_iff.mp h
  exact ⟨n, by rw [Int.cast_natCast]⟩

/-- Sums and differences of texts are exact. -/
theorem plus_texts {a b : Decimal} (ha : isDecimalText a) (hb : isDecimalText b) :
    a.plus b = a + b := by
  obtain ⟨haNonneg, haLt⟩ := text_bounds ha
  obtain ⟨hbNonneg, hbLt⟩ := text_bounds hb
  refine (text_inPlaces ha).plus_eq (text_inPlaces hb) ?_
  rw [abs_of_nonneg (add_nonneg haNonneg hbNonneg)]
  linarith

theorem minus_texts {a b : Decimal} (ha : isDecimalText a) (hb : isDecimalText b) :
    a.minus b = a - b := by
  obtain ⟨haNonneg, haLt⟩ := text_bounds ha
  obtain ⟨hbNonneg, hbLt⟩ := text_bounds hb
  refine (text_inPlaces ha).minus_eq (text_inPlaces hb) ?_
  rw [abs_lt]
  constructor <;> linarith

theorem text_fits {a : Decimal} (h : isDecimalText a) : Significant.Fits 40 a := by
  obtain ⟨n, hn, rfl⟩ := isDecimalText_iff.mp h
  exact Significant.fits_nat (by omega)

/-- `SIGNED_DECIMAL_PATTERN`. -/
def isSignedDecimalText (a : Decimal) : Bool := isDecimalText |a|

/-- `signedDecimal`. -/
def signedDecimal (a : Decimal) (reason : String := "INVALID_SIGNED_DECIMAL") :
    Except String Decimal :=
  if isSignedDecimalText a then .ok a else .error reason

theorem isSignedDecimalText_iff {a : Decimal} :
    isSignedDecimalText a ↔ ∃ n : ℤ, |n| < 10 ^ 26 ∧ a = n / 10 ^ 10 := by
  rw [isSignedDecimalText, isDecimalText_iff]
  constructor
  · rintro ⟨n, hn, habs⟩
    rcases abs_choice a with h | h <;> rw [h] at habs
    · exact ⟨n, by rw [abs_of_nonneg (by positivity)]; exact_mod_cast hn, by rw [habs]; push_cast; rfl⟩
    · refine ⟨-n, by rw [abs_neg, abs_of_nonneg (by positivity)]; exact_mod_cast hn, ?_⟩
      push_cast
      rw [neg_div, ← habs, neg_neg]
  · rintro ⟨n, hn, rfl⟩
    rw [Int.abs_eq_natAbs] at hn
    refine ⟨n.natAbs, by exact_mod_cast hn, ?_⟩
    rw [abs_div, Nat.cast_natAbs, Int.cast_abs, abs_of_pos (by positivity : (0 : ℚ) < 10 ^ 10)]

theorem signedDecimal_ok {a b : Decimal} {reason : String} :
    signedDecimal a reason = .ok b ↔ a = b ∧ isSignedDecimalText a := by
  rw [signedDecimal]
  split <;> simp [*]

theorem decimal_eq {a : Decimal} (reason : String) (h : isDecimalText a) :
    decimal a reason = .ok a := if_pos h

end ScalpingBot
