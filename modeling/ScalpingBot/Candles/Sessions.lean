import Mathlib.Data.List.DropRight
import ScalpingBot.Library.Calendar
import ScalpingBot.Library.Checked

/-! The weekly trading schedule of a symbol and the gaps between candles that it explains
    (packages/ctrader-client/src/trading-schedule.ts). Instants are milliseconds. -/

namespace ScalpingBot.Candles

structure WeeklyTradingInterval where
  startSecond : ℕ
  endSecond : ℕ
  deriving DecidableEq

/-- A holiday, whose day `weeklyTradingSchedule` has checked. -/
structure TradingHoliday where
  holidayDate : ℕ
  isRecurring : Bool
  startSecond : ℕ
  endSecond : ℕ
  timeZone : String
  dated : holidayDate ≤ 100000
  deriving DecidableEq

structure WeeklyTradingSchedule where
  timeZone : String
  intervals : List WeeklyTradingInterval
  holidays : List TradingHoliday
  deriving DecidableEq

structure Candle where
  startTime : String
  endTime : String
  openPrice : String
  high : String
  low : String
  close : String
  volume : Option String
  complete : Bool
  qualityFlags : List String
  deriving DecidableEq

/-- The parts of an instant in a time zone: the texts as `formatToParts` gives them, the numbers as
    `Number` reads them. -/
structure LocalParts where
  weekday : String
  year : String
  month : String
  day : String
  hour : ℕ
  minute : ℕ
  second : ℕ

/-- What the language's runtime computes: `Date.parse`, which may find no instant, and the parts of
    an instant, unless the time zone is unknown. -/
structure Platform where
  parse : String → Option ℤ
  localParts : String → Option (ℤ → LocalParts)

/-- The candle, flags aside. -/
def Candle.plain (c : Candle) : Candle := { c with qualityFlags := [] }

def brokerSessionGapBefore : String := "BROKER_SESSION_GAP_BEFORE"

def daySeconds : ℕ := 86400

/-- `WEEKDAYS`. -/
def weekdays : List String := ["Sun", "Mon", "Tue", "Wed", "Thu", "Fri", "Sat"]

/-- `MAX_TRUSTED_SESSION_GAP_MS`. -/
def maxTrustedSessionGapMs : ℤ := 14 * 86400 * 1000

/-- `toISOString().slice(0, 10)` of a day since 1970, before the year 10000. -/
def isoDay (day : ℕ) : String :=
  let d := Calendar.date (day + 719162)
  let pad (width n : ℕ) : String :=
    String.ofList ((List.range width).reverse.map fun i => Nat.digitChar (n / 10 ^ i % 10))
  pad 4 d.year.toNat ++ "-" ++ pad 2 d.month ++ "-" ++ pad 2 d.day

example : isoDay 20454 = "2026-01-01" := by decide +kernel

namespace Platform

variable (platform : Platform)

/-- `localParts`; an unknown time zone is a `RangeError`. -/
def partsOf (instant : ℤ) (timeZone : String) : Except String LocalParts :=
  match platform.localParts timeZone with
  | some parts => .ok (parts instant)
  | none => .error "RangeError"

def weekSecond (instant : ℤ) (timeZone : String) : Except String ℕ := do
  let parts ← platform.partsOf instant timeZone
  let weekday := weekdays.findIdx (· = parts.weekday)
  require (weekday < 7 ∧ parts.hour ≤ 23 ∧ parts.minute ≤ 59 ∧ parts.second ≤ 59)
    "CTRADER_SCHEDULE_LOCAL_TIME_INVALID"
  return weekday * daySeconds + parts.hour * 3600 + parts.minute * 60 + parts.second

/-- Whether an instant falls in a holiday. -/
def inHoliday (instant : ℤ) (holiday : TradingHoliday) : Except String Bool := do
  let parts ← platform.partsOf instant holiday.timeZone
  let date := parts.year ++ "-" ++ parts.month ++ "-" ++ parts.day
  let declared := isoDay holiday.holidayDate
  let dateMatches := if holiday.isRecurring then date.toList.drop 5 = declared.toList.drop 5
    else date = declared
  let daySecond := parts.hour * 3600 + parts.minute * 60 + parts.second
  return dateMatches ∧ holiday.startSecond ≤ daySecond ∧ daySecond < holiday.endSecond

def isBrokerSessionOpen (instant : ℤ) (schedule : WeeklyTradingSchedule) : Except String Bool := do
  require (0 ≤ instant ∧ instant ≤ 8640000000000000) "CTRADER_SCHEDULE_CLOCK_INVALID"
  let second ← platform.weekSecond instant schedule.timeZone
  let holiday ← schedule.holidays.anyM (platform.inHoliday instant)
  return !holiday && schedule.intervals.any fun i => i.startSecond ≤ second ∧ second < i.endSecond

/-- The instants within a minute at which the session may change. -/
def offsets (schedule : WeeklyTradingSchedule) : List ℕ :=
  let seconds := (schedule.intervals.map fun i => [i.startSecond, i.endSecond]) ++
    schedule.holidays.map fun h => [h.startSecond, h.endSecond]
  ([0, 59999] ++ seconds.flatten.flatMap fun second =>
    [second % 60 * 1000, (second % 60 * 1000 + 59999) % 60000]).eraseDups

/-- Whether the session is open at an inspected instant of a gap. -/
def openWithin (previousEnd currentStart : ℤ) (schedule : WeeklyTradingSchedule) :
    Except String Bool := do
  let cursors := (List.range ((currentStart - previousEnd + 59999) / 60000).toNat).map fun i =>
    previousEnd + 60000 * i
  let instants := cursors.flatMap fun cursor => (offsets schedule).map fun o => cursor + (o : ℤ)
  let inside ← (instants.filter (· < currentStart)).anyM fun instant =>
    platform.isBrokerSessionOpen instant schedule
  if inside then return true else platform.isBrokerSessionOpen (currentStart - 1) schedule

/-- Whether the gap between two candles is one of the broker's sessions. -/
def sessionGap (previous candle : Candle) (timeframeMs : ℤ) (schedule : WeeklyTradingSchedule) :
    Except String Bool :=
  match platform.parse previous.endTime, platform.parse candle.startTime with
  | some previousEnd, some currentStart =>
    let difference := currentStart - previousEnd
    if difference ≤ 0 ∨ difference % timeframeMs ≠ 0 ∨ maxTrustedSessionGapMs < difference then
      .ok false
    else (platform.openWithin previousEnd currentStart schedule).map (!·)
  | _, _ => .ok false

/-- The candle with the flag, once. -/
def flagged (c : Candle) : Candle :=
  { c with qualityFlags := (c.qualityFlags ++ [brokerSessionGapBefore]).eraseDups }

/-- The candles after the first, each with the one before it. -/
def markAfter (timeframeMs : ℤ) (schedule : WeeklyTradingSchedule) :
    Candle → List Candle → Except String (List Candle)
  | _, [] => .ok []
  | previous, c :: rest => do
    let gap ← platform.sessionGap previous c timeframeMs schedule
    let marked ← markAfter timeframeMs schedule c rest
    return (if gap then flagged c else c) :: marked

def markBrokerSessionGaps (candles : List Candle) (timeframeMs : ℤ)
    (schedule : WeeklyTradingSchedule) : Except String (List Candle) := do
  require (60000 ≤ timeframeMs ∧ timeframeMs % 60000 = 0) "CTRADER_SCHEDULE_TIMEFRAME_INVALID"
  match candles with
  | [] => return []
  | c :: rest => return c :: (← platform.markAfter timeframeMs schedule c rest)

theorem markAfter_plain {timeframeMs : ℤ} {schedule : WeeklyTradingSchedule} {previous : Candle}
    {candles marked : List Candle}
    (h : platform.markAfter timeframeMs schedule previous candles = .ok marked) :
    marked.map (·.plain) = candles.map (·.plain) := by
  induction candles generalizing previous marked with
  | nil =>
    obtain rfl := Except.ok.inj h
    rfl
  | cons c rest ih =>
    simp only [markAfter, bind_ok, pure_ok] at h
    obtain ⟨gap, -, tail, htail, rfl⟩ := h
    have hplain : (if gap then flagged c else c).plain = c.plain := by
      split
      · rfl
      · rfl
    rw [List.map_cons, List.map_cons, hplain, ih htail]

/-- Marking changes flags only. -/
theorem mark_plain {candles marked : List Candle} {timeframeMs : ℤ}
    {schedule : WeeklyTradingSchedule}
    (h : platform.markBrokerSessionGaps candles timeframeMs schedule = .ok marked) :
    marked.map (·.plain) = candles.map (·.plain) := by
  simp only [markBrokerSessionGaps, bind_ok, require_ok] at h
  obtain ⟨-, -, h⟩ := h
  cases candles with
  | nil =>
    obtain rfl := Except.ok.inj h
    rfl
  | cons c rest =>
    simp only [bind_ok, pure_ok] at h
    obtain ⟨tail, htail, rfl⟩ := h
    rw [List.map_cons, List.map_cons, platform.markAfter_plain htail]

end Platform

end ScalpingBot.Candles
