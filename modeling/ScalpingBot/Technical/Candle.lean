import ScalpingBot.Decimal
import ScalpingBot.Library.Calendar
import ScalpingBot.Library.HalfEven
import ScalpingBot.Library.Window

/-! The candles of python/analytics/models.py as their validators accept them, and what
    `quality_reasons` of python/analytics/service.py asks of a series before anything reads it. -/

namespace ScalpingBot.Technical

/-! ### Times -/

/-- An aware datetime: its instant in microseconds and its offset in minutes. -/
structure Timestamp where
  instant : ℤ
  offset : ℤ
  deriving DecidableEq

def microseconds (seconds : ℕ) : ℤ := seconds * 1000000

/-- At least so many digits. -/
def pad (width : ℕ) (n : ℕ) : String :=
  String.ofList (List.replicate (width - (toString n).length) '0') ++ toString n

def dateText (date : Calendar.Date) : String :=
  pad 4 date.year.toNat ++ "-" ++ pad 2 date.month ++ "-" ++ pad 2 date.day

/-- `isoformat`. -/
def Timestamp.isoformat (t : Timestamp) : String :=
  let clock := t.instant + t.offset * microseconds 60
  let second := (clock % microseconds 86400 / 1000000).toNat
  let fraction := (clock % 1000000).toNat
  dateText (Calendar.date (clock / microseconds 86400)) ++ "T" ++
    pad 2 (second / 3600) ++ ":" ++ pad 2 (second / 60 % 60) ++ ":" ++ pad 2 (second % 60) ++
    (if fraction = 0 then "" else "." ++ pad 6 fraction) ++
    (if t.offset < 0 then "-" else "+") ++
    pad 2 (t.offset.natAbs / 60) ++ ":" ++ pad 2 (t.offset.natAbs % 60)

/-! ### Decimals -/

/-- What the default decimal context keeps of an exact result. -/
def context (q : ℚ) : ℚ := HalfEven.keep 28 q

/-- `decimal_text`, as the number that the text denotes. -/
def text (value : ℚ) : ℚ := Decimal.toDecimalPlacesDown 10 value

/-- A price with at most ten places is written as it is. -/
theorem text_of_inPlaces {value : ℚ} (h : Decimal.InPlaces value) : text value = value := by
  obtain ⟨n, rfl⟩ := h
  have habs : |(n : ℚ) / 10 ^ 10| * 10 ^ 10 = ((n.natAbs : ℕ) : ℚ) := by
    rw [abs_div, abs_of_pos (by norm_num : (0 : ℚ) < 10 ^ 10), div_mul_cancel₀ _ (by norm_num),
      Nat.cast_natAbs, Int.cast_abs]
  rw [text, Decimal.toDecimalPlacesDown]
  simp only [habs, Nat.floor_natCast]
  rw [← habs, mul_div_cancel_right₀ _ (by norm_num)]
  split
  · rename_i hneg
    rw [abs_of_neg hneg, neg_neg]
  · rename_i hpos
    exact abs_of_nonneg (not_lt.mp hpos)

/-! ### Candles -/

structure Candle where
  startTime : Timestamp
  endTime : Timestamp
  open' : ℚ
  high : ℚ
  low : ℚ
  close : ℚ
  complete : Bool
  qualityFlags : List String
  follows : startTime.instant < endTime.instant
  positive : ∀ price ∈ [open', high, low, close], isDecimalText price ∧ 0 < price
  highest : max open' (max low close) ≤ high
  lowest : low ≤ min open' close
  flags : qualityFlags.length ≤ 32

namespace Candle

variable (c : Candle)

theorem low_le_close : c.low ≤ c.close := c.lowest.trans (min_le_right _ _)

theorem low_le_open : c.low ≤ c.open' := c.lowest.trans (min_le_left _ _)

theorem close_le_high : c.close ≤ c.high :=
  ((le_max_right _ _).trans (le_max_right _ _)).trans c.highest

theorem open_le_high : c.open' ≤ c.high := (le_max_left _ _).trans c.highest

theorem low_le_high : c.low ≤ c.high := c.low_le_close.trans c.close_le_high

theorem inPlaces {price : ℚ} (h : price ∈ [c.open', c.high, c.low, c.close]) :
    Decimal.InPlaces price := text_inPlaces (c.positive price h).1

theorem text_open : text c.open' = c.open' := text_of_inPlaces (c.inPlaces (by simp))

theorem text_high : text c.high = c.high := text_of_inPlaces (c.inPlaces (by simp))

theorem text_low : text c.low = c.low := text_of_inPlaces (c.inPlaces (by simp))

theorem text_close : text c.close = c.close := text_of_inPlaces (c.inPlaces (by simp))

end Candle

theorem no_flags : ([] : List String).length ≤ 32 := by decide

inductive Timeframe where
  | m1
  | m5
  | m15
  deriving DecidableEq

def Timeframe.name : Timeframe → String
  | .m1 => "M1"
  | .m5 => "M5"
  | .m15 => "M15"

/-- `TIMEFRAME_SECONDS`. -/
def Timeframe.seconds : Timeframe → ℕ
  | .m1 => 60
  | .m5 => 300
  | .m15 => 900

structure CandleSeries where
  timeframe : Timeframe
  candles : List Candle
  nonempty : candles ≠ []
  bounded : candles.length ≤ 1000

/-! ### What is asked of a series -/

def brokerSessionGapBefore : String := "BROKER_SESSION_GAP_BEFORE"

def maxSessionGapSeconds : ℕ := 14 * 24 * 60 * 60

/-- What `quality_reasons` has against a candle, given when the previous one ended. -/
def candleReasons (frame : Timeframe) (analysisTime : ℤ) (previousEnd : Option ℤ) (c : Candle) :
    List String :=
  let markers := c.qualityFlags.count brokerSessionGapBefore
  let duration := microseconds frame.seconds
  (if markers > 1 ∨ c.qualityFlags.any (· ≠ brokerSessionGapBefore) then
    [frame.name ++ "_QUALITY_FLAG_INVALID"] else []) ++
  (if !c.complete then [frame.name ++ "_FORMING_CANDLE"] else []) ++
  (if c.endTime.instant > analysisTime then [frame.name ++ "_LOOKAHEAD_CANDLE"] else []) ++
  (if c.endTime.instant - c.startTime.instant ≠ duration then
    [frame.name ++ "_DURATION_INVALID"] else []) ++
  match previousEnd with
  | none => if markers ≠ 0 then [frame.name ++ "_SESSION_GAP_FLAG_INVALID"] else []
  | some previousEnd =>
    let difference := c.startTime.instant - previousEnd
    if difference = 0 then
      if markers ≠ 0 then [frame.name ++ "_SESSION_GAP_FLAG_INVALID"] else []
    else if difference < 0 ∨ markers ≠ 1 ∨ difference % duration ≠ 0 ∨
        difference > microseconds maxSessionGapSeconds then
      (frame.name ++ "_GAP_OR_OVERLAP") ::
        if markers ≠ 0 then [frame.name ++ "_SESSION_GAP_FLAG_INVALID"] else []
    else []

def allCandleReasons (frame : Timeframe) (analysisTime : ℤ) : Option ℤ → List Candle → List String
  | _, [] => []
  | previousEnd, c :: rest => candleReasons frame analysisTime previousEnd c ++
      allCandleReasons frame analysisTime (some c.endTime.instant) rest

/-- What `quality_reasons` has against a series. -/
def qualityReasons (expected : ℕ) (analysisTime : ℤ) (series : CandleSeries) : List String :=
  (if series.candles.length ≠ expected then [series.timeframe.name ++ "_COUNT_MISMATCH"] else []) ++
    allCandleReasons series.timeframe analysisTime none series.candles

/-! ### The order of an accepted series -/

abbrev Chronological : List Candle → Prop :=
  Window.Chronological (fun c => c.startTime.instant) fun c => c.endTime.instant

theorem start_of_accepted {frame : Timeframe} {analysisTime previousEnd : ℤ} {c : Candle}
    (h : candleReasons frame analysisTime (some previousEnd) c = []) :
    previousEnd ≤ c.startTime.instant := by
  rw [candleReasons, List.append_eq_nil_iff] at h
  have hlast := h.2
  by_contra hlt
  have hne : c.startTime.instant - previousEnd ≠ 0 := by omega
  simp only [if_neg hne] at hlast
  rw [if_pos (.inl (by omega))] at hlast
  cases hlast

theorem ordered_of_accepted {frame : Timeframe} {analysisTime : ℤ} {previousEnd : Option ℤ}
    {candles : List Candle} (h : allCandleReasons frame analysisTime previousEnd candles = []) :
    (∀ t, previousEnd = some t → ∀ c ∈ candles, t ≤ c.startTime.instant) ∧
      candles.Pairwise fun a b => a.endTime.instant ≤ b.startTime.instant := by
  induction candles generalizing previousEnd with
  | nil => exact ⟨fun t _ c hc => absurd hc List.not_mem_nil, List.Pairwise.nil⟩
  | cons c rest ih =>
    rw [allCandleReasons, List.append_eq_nil_iff] at h
    obtain ⟨hbefore, hpairwise⟩ := ih h.2
    refine ⟨fun t ht b hb => ?_, List.pairwise_cons.mpr ⟨hbefore _ rfl, hpairwise⟩⟩
    subst ht
    have hstart := start_of_accepted h.1
    rcases List.mem_cons.mp hb with rfl | hb
    · exact hstart
    · exact hstart.trans (c.follows.le.trans (hbefore _ rfl b hb))

/-- The candles of an accepted series follow each other. -/
theorem chronological_of_accepted {expected : ℕ} {analysisTime : ℤ} {series : CandleSeries}
    (h : qualityReasons expected analysisTime series = []) : Chronological series.candles := by
  rw [qualityReasons, List.append_eq_nil_iff] at h
  exact ⟨fun c _ => c.follows, (ordered_of_accepted h.2).2⟩

end ScalpingBot.Technical
