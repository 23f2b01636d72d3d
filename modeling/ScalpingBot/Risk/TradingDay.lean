import Mathlib.Data.Nat.Digits.Defs
import ScalpingBot.Library.Bisection
import ScalpingBot.Library.Calendar
import ScalpingBot.Library.Checked

/-! The trading day of an instant and the instant it begins (apps/execution-service/src/
    daily-risk-store.ts). Instants are milliseconds; a text is the list of its code units. -/

namespace ScalpingBot.Risk

open Calendar

abbrev Text := List ℕ

/-- The zone of `Intl.DateTimeFormat`: the milliseconds that local time is ahead, less than a day. -/
structure TimeZone where
  offset : ℤ → ℤ
  offset_lt : ∀ t, |offset t| < 86_400_000

namespace TimeZone

/-- 1 January 1970 in days of the calendar. -/
def epoch : ℤ := 719_162

/-- The local day of an instant. -/
def localDay (zone : TimeZone) (t : ℤ) : ℤ := (t + zone.offset t) / 86_400_000 + epoch

def localDate (zone : TimeZone) (t : ℤ) : Date := date (zone.localDay t)

/-- The local date never moves backwards. -/
def Forward (zone : TimeZone) : Prop := ∀ s t, s ≤ t → zone.localDay s ≤ zone.localDay t

end TimeZone

/-- The instants of a `Date`. -/
def maxInstant : ℤ := 8_640_000_000_000_000

/-- `year: "numeric"` without an era. -/
def yearOfEra (year : ℤ) : ℕ := if 0 < year then year.toNat else (1 - year).toNat

def numeric (n : ℕ) : Text := (Nat.digits 10 n).reverse.map (48 + ·)

def twoDigit (n : ℕ) : Text := [48 + n / 10, 48 + n % 10]

/-- `${year}-${month}-${day}`. -/
def dayText (d : Date) : Text :=
  numeric (yearOfEra d.year) ++ 45 :: (twoDigit d.month ++ 45 :: twoDigit d.day)

/-- `tradingDay`. -/
def tradingDay (zone : TimeZone) (t : ℤ) : Except String Text :=
  if |t| ≤ maxInstant then .ok (dayText (zone.localDate t)) else .error "Invalid time value"

/-- `Date.UTC(year, month - 1, day)`, which reads the years 0 to 99 as 1900 to 1999. -/
def dateUTC (year month day : ℕ) : ℤ :=
  let year := if year ≤ 99 then year + 1900 else year
  (Date.number ⟨year, month, day⟩ - TimeZone.epoch) * 86_400_000

/-- The test of the search. -/
def dayBefore (zone : TimeZone) (target : Text) (t : ℤ) : Except String Bool := do
  let day ← tradingDay zone t
  return decide (day < target)

/-- `tradingDayStart`; the numbers that `split` reads back are those the text was made of. -/
def tradingDayStart (zone : TimeZone) (now : ℤ) : Except String ℤ := do
  let target ← tradingDay zone now
  let d := zone.localDate now
  let midnight := dateUTC (yearOfEra d.year) d.month d.day
  let result ← bisect (dayBefore zone target) (midnight - 129_600_000) (midnight + 129_600_000)
  let day ← tradingDay zone result
  require (day = target ∧ result ≤ now) "DAILY_RISK_DAY_START_INVALID"
  return result

def utc : TimeZone := ⟨fun _ => 0, by intro t; norm_num⟩

example : tradingDay utc 951_782_400_000 = .ok ("2000-02-29".toList.map Char.toNat) := by decide +kernel
example : tradingDayStart utc 951_800_000_000 = .ok 951_782_400_000 := by decide +kernel

/-! ### The order of the texts -/

/-- Lists of one length in front decide the order first. -/
theorem append_lt_append {a b : Text} (h : a.length = b.length) (c d : Text) :
    a ++ c < b ++ d ↔ a < b ∨ a = b ∧ c < d := by
  induction a generalizing b with
  | nil =>
    obtain rfl := List.eq_nil_of_length_eq_zero h.symm
    simp
  | cons x a ih =>
    cases b with
    | nil => simp at h
    | cons y b =>
      have hlength : a.length = b.length := by simpa using h
      simp only [List.cons_append, List.cons_lt_cons_iff, ih hlength, List.cons.injEq]
      tauto

/-- The number that digits denote, most significant first. -/
def readDigits (text : Text) (high : ℕ) : ℕ := text.foldl (fun n c => 10 * n + (c - 48)) high

theorem readDigits_lt {a b : Text} (h : a.length = b.length)
    (ha : ∀ c ∈ a, 48 ≤ c ∧ c < 58) (hb : ∀ c ∈ b, 48 ≤ c ∧ c < 58) (m n : ℕ) :
    readDigits a m < readDigits b n ↔ m < n ∨ m = n ∧ a < b := by
  induction a generalizing b m n with
  | nil =>
    obtain rfl := List.eq_nil_of_length_eq_zero h.symm
    simp [readDigits]
  | cons x a ih =>
    cases b with
    | nil => simp at h
    | cons y b =>
      have hx := ha x (by simp)
      have hy := hb y (by simp)
      have hrest := ih (by simpa using h) (fun c hc => ha c (by simp [hc]))
        (fun c hc => hb c (by simp [hc])) (10 * m + (x - 48)) (10 * n + (y - 48))
      rw [readDigits, List.foldl_cons, readDigits, List.foldl_cons]
      rw [readDigits, readDigits] at hrest
      rw [hrest, List.cons_lt_cons_iff]
      constructor
      · rintro (hlt | ⟨heq, hlt⟩)
        · rcases lt_trichotomy m n with hmn | rfl | hmn
          · exact .inl hmn
          · exact .inr ⟨rfl, .inl (by omega)⟩
          · omega
        · obtain ⟨rfl, rfl⟩ : m = n ∧ x = y := by omega
          exact .inr ⟨rfl, .inr ⟨rfl, hlt⟩⟩
      · rintro (hmn | ⟨rfl, hxy | ⟨rfl, hlt⟩⟩)
        · exact .inl (by omega)
        · exact .inl (by omega)
        · exact .inr ⟨rfl, hlt⟩

theorem numeric_codes {n c : ℕ} (h : c ∈ numeric n) : 48 ≤ c ∧ c < 58 := by
  rw [numeric, List.mem_map] at h
  obtain ⟨d, hd, rfl⟩ := h
  have hlt := Nat.digits_lt_base (by norm_num) (List.mem_reverse.mp hd)
  omega

theorem readDigits_numeric (n : ℕ) : readDigits (numeric n) 0 = n := by
  rw [readDigits, numeric, List.foldl_map, List.foldl_reverse]
  have hfold := Nat.ofDigits_eq_foldr (α := ℕ) 10 (Nat.digits 10 n)
  rw [Nat.ofDigits_digits] at hfold
  simpa [Nat.add_sub_cancel_left, add_comm] using hfold.symm

/-- Numbers with equally many digits are in the order of their texts. -/
theorem numeric_lt_iff {m n : ℕ} (h : (numeric m).length = (numeric n).length) :
    numeric m < numeric n ↔ m < n := by
  have hread := readDigits_lt h (fun _ => numeric_codes) (fun _ => numeric_codes) 0 0
  rw [readDigits_numeric, readDigits_numeric] at hread
  simpa using hread.symm

theorem numeric_inj {m n : ℕ} (h : numeric m = numeric n) : m = n := by
  rw [← readDigits_numeric m, h, readDigits_numeric]

theorem twoDigit_lt_iff {m n : ℕ} : twoDigit m < twoDigit n ↔ m < n := by
  simp only [twoDigit, List.cons_lt_cons_iff]
  have hnil : ¬ ([] : List ℕ) < [] := List.lt_irrefl []
  simp only [hnil, and_false, or_false]
  omega

theorem twoDigit_length (m n : ℕ) : (twoDigit m).length = (twoDigit n).length := rfl

theorem twoDigit_inj {m n : ℕ} (h : twoDigit m = twoDigit n) : m = n := by
  simp only [twoDigit, List.cons.injEq, and_true] at h
  omega

/-- Dates of years with equally many digits are in the order of their texts. -/
theorem dayText_lt_iff {a b : Date} (ha : a.Valid) (hb : b.Valid) (hapos : 0 < a.year)
    (hbpos : 0 < b.year)
    (h : (numeric (yearOfEra a.year)).length = (numeric (yearOfEra b.year)).length) :
    dayText a < dayText b ↔ a.ordinal < b.ordinal := by
  have hamonth := ha.month_le
  have haday := ha.day_le
  have hbmonth := hb.month_le
  have hbday := hb.day_le
  have hayear : (yearOfEra a.year : ℤ) = a.year := by
    rw [yearOfEra, if_pos hapos]
    omega
  have hbyear : (yearOfEra b.year : ℤ) = b.year := by
    rw [yearOfEra, if_pos hbpos]
    omega
  rw [dayText, dayText, append_lt_append h, numeric_lt_iff h, List.cons_lt_cons_iff,
    append_lt_append (twoDigit_length a.month b.month), twoDigit_lt_iff, List.cons_lt_cons_iff,
    twoDigit_lt_iff, Date.ordinal, Date.ordinal]
  constructor
  · rintro (hlt | ⟨heq, hlt | ⟨-, hlt | ⟨hmonth, hlt | ⟨-, hlt⟩⟩⟩⟩)
    · omega
    · omega
    · have := numeric_inj heq
      omega
    · omega
    · have := numeric_inj heq
      have := twoDigit_inj hmonth
      omega
  · intro hlt
    rcases lt_trichotomy (yearOfEra a.year) (yearOfEra b.year) with hyear | hyear | hyear
    · exact .inl hyear
    · rw [hyear]
      refine .inr ⟨rfl, .inr ⟨rfl, ?_⟩⟩
      rcases lt_trichotomy a.month b.month with hmonth | hmonth | hmonth
      · exact .inl hmonth
      · rw [hmonth]
        exact .inr ⟨rfl, .inr ⟨rfl, by omega⟩⟩
      · omega
    · omega

/-! ### The first instant of a trading day -/

namespace TimeZone

/-- Midnight in UTC of the local date. -/
def midnight (zone : TimeZone) (now : ℤ) : ℤ := (zone.localDay now - epoch) * 86_400_000

/-- The texts that the search for the start of a day compares are in the order of their dates: the
    local year is at least 100 and, within 36 hours of midnight in UTC, has one number of digits. -/
structure Searchable (zone : TimeZone) (now : ℤ) : Prop where
  instant : |now| ≤ maxInstant
  year_le : 100 ≤ (zone.localDate now).year
  alike : ∀ t, |t - zone.midnight now| ≤ 129_600_000 → |t| ≤ maxInstant ∧
    0 < (zone.localDate t).year ∧ (numeric (yearOfEra (zone.localDate t).year)).length =
      (numeric (yearOfEra (zone.localDate now).year)).length

variable {zone : TimeZone} {now : ℤ}

theorem localDate_inj {s t : ℤ} : zone.localDate s = zone.localDate t ↔
    zone.localDay s = zone.localDay t := by
  refine ⟨fun h => ?_, fun h => by rw [localDate, localDate, h]⟩
  rw [← number_date (zone.localDay s), ← number_date (zone.localDay t)]
  exact congrArg Date.number h

theorem Searchable.midnight_eq (h : zone.Searchable now) :
    dateUTC (yearOfEra (zone.localDate now).year) (zone.localDate now).month
      (zone.localDate now).day = zone.midnight now := by
  have hyear := h.year_le
  have hera : (yearOfEra (zone.localDate now).year : ℤ) = (zone.localDate now).year := by
    rw [yearOfEra, if_pos (by omega)]
    omega
  rw [dateUTC, if_neg (by omega), hera, midnight, localDate, number_date]

/-- The search starts a day before the wanted one and ends no earlier than it. -/
theorem localDay_window (zone : TimeZone) (now : ℤ) :
    zone.localDay (zone.midnight now - 129_600_000) < zone.localDay now ∧
      zone.localDay now ≤ zone.localDay (zone.midnight now + 129_600_000) := by
  have hlow := abs_lt.mp (zone.offset_lt (zone.midnight now - 129_600_000))
  have hhigh := abs_lt.mp (zone.offset_lt (zone.midnight now + 129_600_000))
  simp only [midnight, localDay] at *
  omega

/-- What the search asks of an instant is whether its local day comes before the wanted one. -/
theorem Searchable.tradingDay_lt (h : zone.Searchable now) {t : ℤ}
    (ht : |t - zone.midnight now| ≤ 129_600_000) :
    tradingDay zone t = .ok (dayText (zone.localDate t)) ∧
      (dayText (zone.localDate t) < dayText (zone.localDate now) ↔
        zone.localDay t < zone.localDay now) := by
  obtain ⟨hinstant, hpos, hdigits⟩ := h.alike t ht
  have hyear := h.year_le
  have hnowPos : 0 < (zone.localDate now).year := by omega
  refine ⟨if_pos hinstant, ?_⟩
  exact (dayText_lt_iff (date_valid _) (date_valid _) hpos hnowPos hdigits).trans ordinal_lt_iff

/-- In a zone whose local date never moves backwards the search finds the first instant of the day. -/
theorem Searchable.tradingDayStart (h : zone.Searchable now) (hforward : zone.Forward) :
    ∃ start, tradingDayStart zone now = .ok start ∧
      zone.localDate start = zone.localDate now ∧
      ∀ t < start, zone.localDate t ≠ zone.localDate now := by
  obtain ⟨hlow, hhigh⟩ := zone.localDay_window now
  have htest : ∀ t, zone.midnight now - 129_600_000 < t → t < zone.midnight now + 129_600_000 →
      (dayBefore zone (dayText (zone.localDate now)) t = .ok true ∧
        zone.localDay t < zone.localDay now) ∨
      (dayBefore zone (dayText (zone.localDate now)) t = .ok false ∧
        ¬ zone.localDay t < zone.localDay now) := by
    intro t hlo hhi
    obtain ⟨hday, hlt⟩ := h.tradingDay_lt (t := t) (by rw [abs_le]; omega)
    rw [dayBefore, hday, ok_bind, pure_ok, pure_ok, decide_eq_true_iff, decide_eq_false_iff_not, hlt]
    by_cases hp : zone.localDay t < zone.localDay now
    · exact .inl ⟨hp, hp⟩
    · exact .inr ⟨hp, hp⟩
  obtain ⟨start, hstart, hlo, hhi, hbefore, hfrom⟩ :=
    bisect_boundary (p := fun t => zone.localDay t < zone.localDay now) htest (by omega) hlow
      (not_lt.mpr hhigh)
  have hnow : start ≤ now := by
    by_contra hlate
    have hle := hforward now (start - 1) (by omega)
    omega
  have hday : zone.localDay start = zone.localDay now :=
    le_antisymm (hforward start now hnow) (not_lt.mp hfrom)
  refine ⟨start, ?_, localDate_inj.mpr hday, ?_⟩
  · have hnowDay : tradingDay zone now = .ok (dayText (zone.localDate now)) := if_pos h.instant
    have hstartDay := (h.tradingDay_lt (t := start) (by rw [abs_le]; omega)).1
    rw [localDate_inj.mpr hday] at hstartDay
    simp only [Risk.tradingDayStart, bind_ok, pure_ok, require_ok]
    refine ⟨_, hnowDay, start, ?_, _, hstartDay, (), ⟨rfl, hnow⟩, rfl⟩
    rw [h.midnight_eq]
    exact hstart
  · intro t ht heq
    have hle := hforward t (start - 1) (by omega)
    have := localDate_inj.mp heq
    omega

end TimeZone

theorem utc_localDay (t : ℤ) : utc.localDay t = t / 86_400_000 + 719_162 := by
  simp only [TimeZone.localDay, utc, TimeZone.epoch, add_zero]

theorem utc_forward : utc.Forward := by
  intro s t hle
  rw [utc_localDay, utc_localDay]
  omega

/-- On the first day of the year 10000 the comparison of texts fails. -/
theorem tenThousand_unavailable : utc.Forward ∧ |253_402_300_800_000| ≤ maxInstant ∧
    tradingDayStart utc 253_402_300_800_000 = .error "DAILY_RISK_DAY_START_INVALID" :=
  ⟨utc_forward, by norm_num [maxInstant], by decide +kernel⟩

end ScalpingBot.Risk
