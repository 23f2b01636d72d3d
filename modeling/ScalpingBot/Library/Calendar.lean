import Mathlib.Algebra.Order.Ring.Int
import Mathlib.Data.Nat.Find
import Mathlib.Tactic.Common

/-! The proleptic Gregorian calendar: the date of a day counted from 1 January of year 1, and back. -/

namespace ScalpingBot.Calendar

structure Date where
  year : ℤ
  month : ℕ
  day : ℕ
  deriving DecidableEq

def isLeap (year : ℤ) : Bool := (year % 4 = 0 ∧ year % 100 ≠ 0) ∨ year % 400 = 0

/-- The days before 1 January of a year. -/
def daysBeforeYear (year : ℤ) : ℤ :=
  365 * (year - 1) + (year - 1) / 4 - (year - 1) / 100 + (year - 1) / 400

/-- The days of a year before the first of a month; month 13 ends the year. -/
def daysBeforeMonth (leap : Bool) (month : ℕ) : ℕ :=
  [0, 0, 31, 59, 90, 120, 151, 181, 212, 243, 273, 304, 334, 365].getD month 0 +
    if leap ∧ 2 < month then 1 else 0

/-- The number of a date's day. -/
def Date.number (d : Date) : ℤ :=
  daysBeforeYear d.year + daysBeforeMonth (isLeap d.year) d.month + d.day - 1

def yearOf (n : ℤ) : ℤ :=
  let year := n * 400 / 146097 + 1
  if n < daysBeforeYear year then year - 1
  else if daysBeforeYear (year + 1) ≤ n then year + 1
  else year

/-- The month of a day of the year, counted from 0. -/
def monthOf (leap : Bool) (dayOfYear : ℕ) : ℕ :=
  ((List.range 13).filter fun month => 1 ≤ month ∧ daysBeforeMonth leap month ≤ dayOfYear).length

/-- The date of a day. -/
def date (n : ℤ) : Date :=
  let year := yearOf n
  let dayOfYear := (n - daysBeforeYear year).toNat
  let month := monthOf (isLeap year) dayOfYear
  ⟨year, month, dayOfYear - daysBeforeMonth (isLeap year) month + 1⟩

theorem daysBeforeYear_succ (year : ℤ) :
    daysBeforeYear (year + 1) = daysBeforeYear year + if isLeap year then 366 else 365 := by
  simp only [daysBeforeYear, isLeap, decide_eq_true_eq]
  split <;> omega

/-- A day lies in its year. -/
theorem yearOf_spec (n : ℤ) :
    daysBeforeYear (yearOf n) ≤ n ∧ n < daysBeforeYear (yearOf n + 1) := by
  simp only [yearOf]
  split
  · simp only [daysBeforeYear] at *
    omega
  · split
    · simp only [daysBeforeYear] at *
      omega
    · omega

theorem daysBeforeYear_mono {a b : ℤ} (h : a ≤ b) : daysBeforeYear a ≤ daysBeforeYear b := by
  simp only [daysBeforeYear]
  omega

theorem daysBeforeMonth_mono (leap : Bool) (a b : Fin 14) (h : a ≤ b) :
    daysBeforeMonth leap a ≤ daysBeforeMonth leap b := by
  revert leap a b
  decide +kernel

theorem daysBeforeMonth_thirteen (leap : Bool) :
    daysBeforeMonth leap 13 = if leap then 366 else 365 := by
  cases leap <;> rfl

/-- The months up to the one that a day lies in, or up to the last. -/
theorem monthOf_eq {leap : Bool} {dayOfYear month : ℕ} (hpos : 1 ≤ month) (hle : month ≤ 12)
    (hstart : daysBeforeMonth leap month ≤ dayOfYear)
    (hend : ∀ later, month < later → later ≤ 12 → dayOfYear < daysBeforeMonth leap later) :
    monthOf leap dayOfYear = month := by
  have hcount : ∀ m : Fin 13,
      ((List.range 13).filter fun k => 1 ≤ k ∧ k ≤ (m : ℕ)).length = m := by
    decide
  have hfilter : (List.range 13).filter (fun k => 1 ≤ k ∧ daysBeforeMonth leap k ≤ dayOfYear) =
      (List.range 13).filter (fun k => 1 ≤ k ∧ k ≤ month) := by
    refine List.filter_congr fun k hk => ?_
    have hk := List.mem_range.mp hk
    refine decide_eq_decide.mpr (and_congr_right fun _ => ⟨fun h => ?_, fun h => ?_⟩)
    · by_contra hlate
      exact absurd h (not_le.mpr (hend k (by omega) (by omega)))
    · exact (daysBeforeMonth_mono leap ⟨k, by omega⟩ ⟨month, by omega⟩ h).trans hstart
  rw [monthOf, hfilter]
  exact hcount ⟨month, by omega⟩

/-- The month and day of every day of every year. -/
theorem monthOf_spec (leap : Bool) (dayOfYear : Fin 366) :
    let month := monthOf leap dayOfYear
    1 ≤ month ∧ month ≤ 12 ∧ daysBeforeMonth leap month ≤ dayOfYear ∧
      ((dayOfYear : ℕ) < (if leap then 366 else 365) →
        (dayOfYear : ℕ) < daysBeforeMonth leap (month + 1)) := by
  have hfirst : 1 ≤ 1 ∧ daysBeforeMonth leap 1 ≤ (dayOfYear : ℕ) := by
    cases leap <;> simp [daysBeforeMonth]
  have hspec := Nat.findGreatest_spec (P := fun m => 1 ≤ m ∧ daysBeforeMonth leap m ≤ dayOfYear)
    (by decide : 1 ≤ 12) hfirst
  have hle := Nat.findGreatest_le (P := fun m => 1 ≤ m ∧ daysBeforeMonth leap m ≤ dayOfYear) 12
  have hgreatest : ∀ later, Nat.findGreatest (fun m => 1 ≤ m ∧ daysBeforeMonth leap m ≤ dayOfYear)
      12 < later → later ≤ 12 → (dayOfYear : ℕ) < daysBeforeMonth leap later := by
    intro later hlt hlast
    by_contra hstart
    exact Nat.findGreatest_is_greatest hlt hlast ⟨by omega, not_lt.mp hstart⟩
  simp only [monthOf_eq hspec.1 hle hspec.2 hgreatest]
  refine ⟨hspec.1, hle, hspec.2, fun hinside => ?_⟩
  rcases hle.lt_or_eq with hearly | hlast
  · exact hgreatest _ (Nat.lt_succ_self _) hearly
  · rw [hlast, daysBeforeMonth_thirteen]
    exact hinside

/-- A date of the calendar: its month and its day exist. -/
structure Date.Valid (d : Date) : Prop where
  month_pos : 1 ≤ d.month
  month_le : d.month ≤ 12
  day_pos : 1 ≤ d.day
  day_le : d.day ≤ 31
  fits : daysBeforeMonth (isLeap d.year) d.month + d.day ≤
    daysBeforeMonth (isLeap d.year) (d.month + 1)

theorem month_length (leap : Bool) (month : Fin 13) (h : 1 ≤ (month : ℕ)) :
    daysBeforeMonth leap (month + 1) ≤ daysBeforeMonth leap month + 31 := by
  revert leap month
  decide

/-- A day lies in its year as a day of the year. -/
theorem dayOfYear_spec (n : ℤ) : ∃ dayOfYear : Fin 366,
    (dayOfYear : ℕ) = (n - daysBeforeYear (yearOf n)).toNat ∧
      n = daysBeforeYear (yearOf n) + dayOfYear ∧
      (dayOfYear : ℕ) < if isLeap (yearOf n) then 366 else 365 := by
  obtain ⟨hlo, hhi⟩ := yearOf_spec n
  rw [daysBeforeYear_succ] at hhi
  refine ⟨⟨(n - daysBeforeYear (yearOf n)).toNat, ?_⟩, rfl, ?_, ?_⟩
  · split at hhi <;> omega
  · simp only
    omega
  · simp only
    split at hhi <;> simp only [*, if_true, if_false, Bool.false_eq_true] <;> omega

theorem date_valid (n : ℤ) : (date n).Valid := by
  obtain ⟨dayOfYear, hday, -, hlt⟩ := dayOfYear_spec n
  obtain ⟨hpos, hle, hstart, hend⟩ := monthOf_spec (isLeap (yearOf n)) dayOfYear
  have hend := hend hlt
  rw [hday] at hpos hle hstart hend
  have hlength := month_length (isLeap (yearOf n)) ⟨_, Nat.lt_succ_of_le hle⟩ hpos
  simp only at hlength
  refine ⟨hpos, hle, ?_, ?_, ?_⟩ <;> simp only [date] <;> omega

/-- A day is the day of its date. -/
theorem number_date (n : ℤ) : (date n).number = n := by
  obtain ⟨dayOfYear, hday, hn, -⟩ := dayOfYear_spec n
  obtain ⟨-, -, hstart, -⟩ := monthOf_spec (isLeap (yearOf n)) dayOfYear
  rw [hday] at hstart hn
  simp only [Date.number, date]
  omega

/-! ### The order of dates -/

/-- A date read as one number, year first. -/
def Date.ordinal (d : Date) : ℤ := (d.year * 100 + d.month) * 100 + d.day

theorem Date.Valid.number_bounds {d : Date} (h : d.Valid) :
    daysBeforeYear d.year ≤ d.number ∧ d.number < daysBeforeYear (d.year + 1) := by
  have hmono := daysBeforeMonth_mono (isLeap d.year) ⟨d.month + 1, by have := h.month_le; omega⟩ 13
    (Fin.mk_le_of_le_val (by have := h.month_le; simp; omega))
  have hlast : daysBeforeMonth (isLeap d.year) ((13 : Fin 14) : ℕ) = _ :=
    daysBeforeMonth_thirteen (isLeap d.year)
  have hfits := h.fits
  have hday := h.day_pos
  rw [daysBeforeYear_succ, Date.number]
  simp only [hlast] at hmono
  split <;> simp_all <;> omega

theorem Date.Valid.ordinal_lt {a b : Date} (ha : a.Valid) (hb : b.Valid)
    (h : a.ordinal < b.ordinal) : a.number < b.number := by
  have hamonth := ha.month_le
  have haday := ha.day_le
  have hbmonth := hb.month_le
  have hbday := hb.day_le
  rw [Date.ordinal, Date.ordinal] at h
  rcases lt_trichotomy a.year b.year with hlt | heq | hgt
  · have hyears := daysBeforeYear_mono (show a.year + 1 ≤ b.year by omega)
    exact ha.number_bounds.2.trans_le (hyears.trans hb.number_bounds.1)
  · rw [Date.number, Date.number, heq]
    rcases lt_trichotomy a.month b.month with hlt | hmonth | hgt
    · have hmono := daysBeforeMonth_mono (isLeap b.year) ⟨a.month + 1, by omega⟩
        ⟨b.month, by omega⟩ (Fin.mk_le_mk.mpr hlt)
      have hfits := ha.fits
      have hday := hb.day_pos
      rw [heq] at hfits
      simp only at hmono
      omega
    · rw [hmonth]
      omega
    · omega
  · omega

theorem Date.Valid.ordinal_inj {a b : Date} (ha : a.Valid) (hb : b.Valid)
    (h : a.ordinal = b.ordinal) : a = b := by
  obtain ⟨ayear, amonth, aday⟩ := a
  obtain ⟨byear, bmonth, bday⟩ := b
  have hamonth := ha.month_le
  have haday := ha.day_le
  have hbmonth := hb.month_le
  have hbday := hb.day_le
  simp only [Date.ordinal] at h hamonth haday hbmonth hbday
  simp only [Date.mk.injEq]
  omega

/-- Days and their dates are in the same order. -/
theorem ordinal_lt_iff {n m : ℤ} : (date n).ordinal < (date m).ordinal ↔ n < m := by
  constructor
  · intro h
    have hlt := (date_valid n).ordinal_lt (date_valid m) h
    rwa [number_date, number_date] at hlt
  · intro h
    by_contra hle
    rcases eq_or_lt_of_le (not_lt.mp hle) with heq | hlt
    · have hdate := (date_valid n).ordinal_inj (date_valid m) heq.symm
      rw [← number_date n, ← number_date m, hdate] at h
      exact lt_irrefl _ h
    · have hlt := (date_valid m).ordinal_lt (date_valid n) hlt
      rw [number_date, number_date] at hlt
      omega

end ScalpingBot.Calendar
