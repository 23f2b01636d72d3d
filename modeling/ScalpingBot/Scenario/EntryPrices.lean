import ScalpingBot.Model.Bounds

/-! The check of the two entry prices of a plan against the market
    (packages/scenario-engine/src/entry-prices.ts), and the check of its evidence before a context is
    retired (apps/execution-service/src/entry-recovery-store.ts). -/

namespace ScalpingBot.Scenario.EntryPrices

open Model (floorToTick ceilToTick Proposal SemanticContext checkLeg OnGrid onGrid_of_aligned
  le_floorToTick_iff ceilToTick_le_iff plus_digits minDistance optionalDecimal reasonIf
  reasonIf_eq_nil mem_reasonIf levelReasons distanceReasons)

/-- `schema_version`, with the side of a directional plan. -/
inductive PlanKind where
  | pair
  | direction (side : OrderSide)
  | modes
  | scalp
  deriving DecidableEq

/-- What the check reads of a plan. -/
structure PricedPlan where
  kind : PlanKind
  symbol : String
  capturedAt : Option ℕ
  validUntil : Option ℕ
  buyStop : Decimal
  sellStop : Decimal

/-- What the check reads of `MarketSnapshot`. -/
structure PricedSnapshot where
  quote : Quote
  metadata : SymbolMetadata
  serverTime : Option ℕ

structure CheckOptions where
  maxQuoteAgeMs : ℤ
  maxMetadataAgeMs : ℤ
  minimumPoints : Option Decimal

inductive Phase where | providerReturn | localReuse | postModel | prePlacement
  deriving DecidableEq

structure EntryRetirementEvidence where
  phase : Phase
  reasonCodes : List String
  observedAt : Option ℕ
  quote : Quote
  tickSize : Decimal
  minimumEntryDistance : Decimal
  buyStop : Decimal
  sellStop : Decimal
  deriving DecidableEq

structure EntryPriceBounds where
  minimumEntryDistance : Decimal
  buyStopMinimum : Decimal
  sellStopMaximum : Decimal
  movementBuffer : Decimal
  preferredBuyStopMinimum : Decimal
  preferredSellStopMaximum : Decimal

def tooClose (side : OrderSide) : String := side.text ++ "_ENTRY_TOO_CLOSE"

def entryMinimumDistance (metadata : SymbolMetadata) (minimumPoints : Option Decimal) :
    Except String Decimal := do
  let tick ← decimal metadata.tickSize
  let broker ← decimal metadata.minStopDistance
  let points ← decimal (minimumPoints.getD 1)
  require (0 < tick ∧ 0 ≤ broker ∧ 0 ≤ points) "SCENARIO_ENTRY_QUOTE_INVALID"
  return max (max tick broker) (tick.times points)

def entryPriceBounds (quote : Quote) (tickSize minimumDistance : Decimal) :
    Except String EntryPriceBounds := do
  let tick ← decimal tickSize
  let minimum ← decimal minimumDistance
  let bid ← decimal quote.bid
  let ask ← decimal quote.ask
  require (0 < tick ∧ 0 ≤ minimum ∧ 0 < bid ∧ bid ≤ ask) "SCENARIO_ENTRY_QUOTE_INVALID"
  let distance := max tick minimum
  let buy := ceilToTick (ask.plus distance) tick
  let sell := floorToTick (bid.minus distance) tick
  require (0 < sell) "SCENARIO_ENTRY_QUOTE_INVALID"
  let buffer := ceilToTick (max (tick.times 2) (ask.minus bid)) tick
  return ⟨distance, buy, sell, buffer, buy.plus buffer, max tick (sell.minus buffer)⟩

/-- The instants and the symbol of a check; a comparison with no instant is false. -/
def dataValid (plan : PricedPlan) (snapshot : PricedSnapshot) (now : ℕ) (options : CheckOptions) :
    Bool :=
  match snapshot.quote.sourceTime, snapshot.quote.receivedAt, snapshot.serverTime,
    snapshot.metadata.metadataTime with
  | some source, some received, some server, some metadataAt =>
    source ≤ server && received ≤ now && server ≤ now && metadataAt ≤ now &&
      (now : ℤ) - source ≤ options.maxQuoteAgeMs && (now : ℤ) - received ≤ options.maxQuoteAgeMs &&
      (now : ℤ) - server ≤ options.maxQuoteAgeMs &&
      (now : ℤ) - metadataAt ≤ options.maxMetadataAgeMs &&
      plan.capturedAt.all (· ≤ now) && plan.validUntil.all (now < ·) &&
      snapshot.metadata.symbolName = plan.symbol
  | _, _, _, _ => false

/-- Whether these reasons leave a plan in place. -/
def keeps (codes : List String) : PlanKind → Bool
  | .pair => codes = []
  | .direction side => codes = [] || tooClose side ∉ codes
  | .modes => true
  | .scalp => true

def checkEntryPrices (plan : PricedPlan) (snapshot : PricedSnapshot) (phase : Phase) (now : ℕ)
    (options : CheckOptions) : Except String (Option EntryRetirementEvidence) := do
  require (dataValid plan snapshot now options) "SCENARIO_ENTRY_CHECK_DATA_INVALID"
  let tick ← decimal snapshot.metadata.tickSize
  let buyStop ← decimal plan.buyStop
  require (isTickAligned buyStop tick) "SCENARIO_ENTRY_CHECK_PRECISION_INVALID"
  let sellStop ← decimal plan.sellStop
  require (isTickAligned sellStop tick) "SCENARIO_ENTRY_CHECK_PRECISION_INVALID"
  let minimum ← entryMinimumDistance snapshot.metadata options.minimumPoints
  let bounds ← entryPriceBounds snapshot.quote tick minimum
  let codes := reasonIf (buyStop < bounds.buyStopMinimum) (tooClose .buy) ++
    reasonIf (bounds.sellStopMaximum < sellStop) (tooClose .sell)
  if keeps codes plan.kind then return none
  else
    return some {
      phase := phase
      reasonCodes := codes
      observedAt := some now
      quote := snapshot.quote
      tickSize := tick
      minimumEntryDistance := bounds.minimumEntryDistance
      buyStop := plan.buyStop
      sellStop := plan.sellStop }

/-- The instants of the evidence at the store. -/
def timely (evidence : EntryRetirementEvidence) (now : ℕ) : Bool :=
  evidence.observedAt.all fun observed =>
    observed ≤ now && now ≤ observed + 3000 &&
      evidence.quote.receivedAt.all (fun t => t ≤ observed && observed ≤ t + 3000) &&
      evidence.quote.sourceTime.all (fun t => t ≤ observed && observed ≤ t + 3000)

/-- What `retireEntryContext` checks before its transaction; `schema` is the compiled schema. -/
def checkEvidence (schema : EntryRetirementEvidence → Bool) (now : ℕ)
    (evidence : EntryRetirementEvidence) : Except String Unit := do
  require (schema evidence) "SCENARIO_ENTRY_RETIREMENT_INVALID"
  let minimum ← decimal evidence.minimumEntryDistance
  require (evidence.tickSize ≤ minimum) "SCENARIO_ENTRY_RETIREMENT_INVALID"
  let bid ← decimal evidence.quote.bid
  require (0 < bid) "SCENARIO_ENTRY_RETIREMENT_INVALID"
  let ask ← decimal evidence.quote.ask
  require (bid ≤ ask ∧ timely evidence now) "SCENARIO_ENTRY_RETIREMENT_INVALID"
  let buyStop ← decimal evidence.buyStop
  let sellStop ← decimal evidence.sellStop
  let expected := reasonIf (buyStop < ask.plus minimum) (tooClose .buy) ++
    reasonIf (bid.minus minimum < sellStop) (tooClose .sell)
  require (expected ≠ [] ∧ expected = evidence.reasonCodes) "SCENARIO_ENTRY_RETIREMENT_INVALID"

/-! ### One notion of too close -/

/-- An entry that is too close to a quote, without any rounding. -/
def TooClose (quote : Quote) (minimum : Decimal) : OrderSide → Decimal → Prop
  | .buy, entry => entry < quote.ask.plus minimum
  | .sell, entry => quote.bid.minus minimum < entry

instance (quote : Quote) (minimum : Decimal) (side : OrderSide) (entry : Decimal) :
    Decidable (TooClose quote minimum side entry) := by
  cases side <;> exact inferInstanceAs (Decidable (_ < _))

/-- The entry price of a side. -/
def PricedPlan.entry (plan : PricedPlan) : OrderSide → Decimal
  | .buy => plan.buyStop
  | .sell => plan.sellStop

/-- The sides that a plan with fixed sides enters. -/
def PricedPlan.Enters (plan : PricedPlan) (side : OrderSide) : Prop :=
  plan.kind = .pair ∨ plan.kind = .direction side

theorem reasonIf_congr {p q : Prop} [Decidable p] [Decidable q] {reason : String} (h : p ↔ q) :
    reasonIf p reason = reasonIf q reason := by
  by_cases hp : p
  · rw [reasonIf, reasonIf, if_pos hp, if_pos (h.mp hp)]
  · rw [reasonIf, reasonIf, if_neg hp, if_neg (fun hq => hp (h.mpr hq))]

theorem tooClose_ne : tooClose .buy ≠ tooClose .sell := by decide

/-- The minimum of the check of the prices is that of the check of a leg. -/
theorem entryMinimumDistance_ok {metadata : SymbolMetadata} {points : Option Decimal}
    {minimum : Decimal} (h : entryMinimumDistance metadata points = .ok minimum) :
    metadata.tickSize ≤ minimum ∧ ∀ d, minDistance metadata points = .ok d → d = minimum := by
  simp only [entryMinimumDistance, bind_ok, decimal_ok, require_ok, pure_ok] at h
  obtain ⟨_, ⟨rfl, htick⟩, _, ⟨rfl, -⟩, _, ⟨rfl, -⟩, _, ⟨hpos, -⟩, rfl⟩ := h
  refine ⟨(le_max_left _ _).trans (le_max_left _ _), ?_⟩
  intro d hd
  cases points with
  | none =>
    simp only [minDistance, optionalDecimal, bind_ok, decimal_ok, pure_ok, Except.ok.injEq] at hd
    obtain ⟨_, ⟨rfl, -⟩, _, ⟨rfl, -⟩, _, rfl, rfl⟩ := hd
    have hone : metadata.tickSize.times 1 = metadata.tickSize := by
      rw [Decimal.times, mul_one]
      exact (text_fits htick).truncate_eq
    simp only [Option.map_none, Option.getD_none, hone]
    rw [max_comm metadata.minStopDistance]
  | some value =>
    simp only [minDistance, optionalDecimal, bind_ok, decimal_ok, pure_ok] at hd
    obtain ⟨_, ⟨rfl, -⟩, _, ⟨rfl, -⟩, _, ⟨_, ⟨rfl, -⟩, rfl⟩, rfl⟩ := hd
    simp only [Option.map_some, Option.getD_some]
    rw [max_comm metadata.minStopDistance]

/-- What a check that returns has read, and the reasons that it found. -/
theorem checkEntryPrices_ok {plan : PricedPlan} {snapshot : PricedSnapshot} {phase : Phase} {now : ℕ}
    {options : CheckOptions} {result : Option EntryRetirementEvidence}
    (h : checkEntryPrices plan snapshot phase now options = .ok result) :
    ∃ minimum codes, dataValid plan snapshot now options = true ∧
      entryMinimumDistance snapshot.metadata options.minimumPoints = .ok minimum ∧
      isDecimalText minimum ∧ isDecimalText snapshot.quote.bid ∧ isDecimalText snapshot.quote.ask ∧
      isDecimalText plan.buyStop ∧ isDecimalText plan.sellStop ∧
      0 < snapshot.quote.bid ∧ snapshot.quote.bid ≤ snapshot.quote.ask ∧
      codes = reasonIf (TooClose snapshot.quote minimum .buy plan.buyStop) (tooClose .buy) ++
        reasonIf (TooClose snapshot.quote minimum .sell plan.sellStop) (tooClose .sell) ∧
      result = if keeps codes plan.kind then none else some {
        phase := phase
        reasonCodes := codes
        observedAt := some now
        quote := snapshot.quote
        tickSize := snapshot.metadata.tickSize
        minimumEntryDistance := minimum
        buyStop := plan.buyStop
        sellStop := plan.sellStop } := by
  simp only [checkEntryPrices, bind_ok, decimal_ok, require_ok] at h
  obtain ⟨_, hdata, _, ⟨rfl, htick⟩, _, ⟨rfl, hbuy⟩, _, hbuyAligned, _, ⟨rfl, hsell⟩, _, hsellAligned,
    minimum, hminimum, bounds, hbounds, h⟩ := h
  simp only [entryPriceBounds, bind_ok, decimal_ok, require_ok, pure_ok] at hbounds
  obtain ⟨_, ⟨rfl, -⟩, _, ⟨rfl, htext⟩, _, ⟨rfl, hbid⟩, _, ⟨rfl, hask⟩, _,
    ⟨hpos, -, hbidPos, hspread⟩, _, -, rfl⟩ := hbounds
  have hdistance : max snapshot.metadata.tickSize minimum = minimum :=
    max_eq_right (entryMinimumDistance_ok hminimum).1
  have hbuyIff : plan.buyStop < ceilToTick (snapshot.quote.ask.plus minimum)
      snapshot.metadata.tickSize ↔ TooClose snapshot.quote minimum .buy plan.buyStop := by
    have hgrid := (onGrid_of_aligned htick hbuy hbuyAligned).2
    rw [← not_le, ceilToTick_le_iff htick hpos hgrid (plus_digits hask htext), not_le]
    rfl
  have hsellIff : floorToTick (snapshot.quote.bid.minus minimum) snapshot.metadata.tickSize <
      plan.sellStop ↔ TooClose snapshot.quote minimum .sell plan.sellStop := by
    have hgrid := (onGrid_of_aligned htick hsell hsellAligned).2
    rw [← not_le, le_floorToTick_iff hpos hgrid, not_le]
    rfl
  refine ⟨minimum, _, hdata, hminimum, htext, hbid, hask, hbuy, hsell, hbidPos, hspread, rfl, ?_⟩
  simp only [hdistance, reasonIf_congr hbuyIff, reasonIf_congr hsellIff] at h
  split at h
  · next hkeeps =>
    rw [if_pos hkeeps]
    exact (pure_ok.mp h).symm
  · next hkeeps =>
    rw [if_neg hkeeps]
    exact (pure_ok.mp h).symm

/-- When the check of a stop leg finds its entry too close. -/
theorem checkLeg_tooClose {side : OrderSide} {proposal : Proposal} {context : SemanticContext}
    {reasons : List String} (hbrackets : context.entryBrackets = .stop)
    (h : checkLeg side proposal context = .ok reasons) :
    ∃ minimum, minDistance context.metadata context.minStopDistancePoints = .ok minimum ∧
      (tooClose side ∈ reasons ↔ TooClose context.quote minimum side proposal.entryPrice) := by
  simp only [checkLeg, bind_ok, decimal_ok, pure_ok] at h
  obtain ⟨_, ⟨rfl, -⟩, _, -, _, -, _, -, _, -, _, -, minimum, hminimum, _, ⟨rfl, -⟩, _, ⟨rfl, -⟩, _, -,
    _, -, _, -, _, -, _, -, rfl⟩ := h
  refine ⟨minimum, hminimum, ?_⟩
  rw [hbrackets]
  cases side with
  | buy => simp [levelReasons, distanceReasons, OrderSide.text, tooClose, TooClose]
  | sell => simp [levelReasons, distanceReasons, OrderSide.text, tooClose, TooClose]

/-- The same price, market and minimum at the check of a leg. -/
structure SameEntry (plan : PricedPlan) (snapshot : PricedSnapshot) (options : CheckOptions)
    (side : OrderSide) (proposal : Proposal) (context : SemanticContext) : Prop where
  entry : proposal.entryPrice = plan.entry side
  quote : context.quote = snapshot.quote
  metadata : context.metadata = snapshot.metadata
  points : context.minStopDistancePoints = options.minimumPoints
  brackets : context.entryBrackets = .stop

/-- Evidence that is made of reasons only where its plan is not kept. -/
theorem mem_evidence (codes : List String) {plan : PricedPlan} {side : OrderSide}
    {evidence : EntryRetirementEvidence} (henters : plan.Enters side)
    (hcodes : evidence.reasonCodes = codes) :
    (∃ e ∈ if keeps codes plan.kind then none else some evidence, tooClose side ∈ e.reasonCodes) ↔
      tooClose side ∈ codes := by
  by_cases hmem : tooClose side ∈ codes
  · have hne : codes ≠ [] := List.ne_nil_of_mem hmem
    have hkeeps : keeps codes plan.kind = false := by
      rcases henters with hkind | hkind <;> simp [hkind, keeps, hne, hmem]
    rw [hkeeps]
    simp [hcodes, hmem]
  · constructor
    · rintro ⟨e, he, hcode⟩
      split at he
      · cases he
      · cases he
        rw [hcodes] at hcode
        exact hcode
    · intro h
      exact absurd h hmem

/-- The evidence of a check is timely for as long as the store allows. -/
theorem timely_of_dataValid {plan : PricedPlan} {snapshot : PricedSnapshot} {now stored : ℕ}
    {options : CheckOptions} {evidence : EntryRetirementEvidence}
    (hdata : dataValid plan snapshot now options = true) (hage : options.maxQuoteAgeMs ≤ 3000)
    (hobserved : evidence.observedAt = some now) (hquote : evidence.quote = snapshot.quote)
    (hafter : now ≤ stored) (hbefore : stored ≤ now + 3000) : timely evidence stored = true := by
  unfold dataValid at hdata
  split at hdata
  · next source received server metadataAt hsource hreceived hserver hmetadata =>
    simp only [Bool.and_eq_true, decide_eq_true_eq] at hdata
    simp only [timely, hobserved, hquote, hsource, hreceived, Option.all_some, Bool.and_eq_true,
      decide_eq_true_eq]
    omega
  · cases hdata

/-- The three checks of an entry against the market agree. Where `checkEntryPrices` returns, it finds a
    side that its plan enters too close exactly when `checkLeg` does for a stop leg with this entry,
    this quote and this minimum; and the evidence that it returns passes the check at the store for
    three seconds, as long as quotes are no older than that. -/
theorem entry_checks_agree (plan : PricedPlan) (snapshot : PricedSnapshot) (phase : Phase) (now : ℕ)
    (options : CheckOptions) (result : Option EntryRetirementEvidence)
    (h : checkEntryPrices plan snapshot phase now options = .ok result) :
    (∀ side proposal context reasons, plan.Enters side →
      SameEntry plan snapshot options side proposal context →
      checkLeg side proposal context = .ok reasons →
      (tooClose side ∈ reasons ↔ ∃ e ∈ result, tooClose side ∈ e.reasonCodes)) ∧
    (∀ e ∈ result, ∀ schema stored, options.maxQuoteAgeMs ≤ 3000 → schema e = true →
      now ≤ stored → stored ≤ now + 3000 → checkEvidence schema stored e = .ok ()) := by
  obtain ⟨minimum, codes, hdata, hminimum, htext, hbid, hask, hbuy, hsell, hpos, hspread, hcodes,
    hresult⟩ := checkEntryPrices_ok h
  constructor
  · intro side proposal context reasons henters hsame hleg
    obtain ⟨d, hd, htooClose⟩ := checkLeg_tooClose hsame.brackets hleg
    rw [hsame.metadata, hsame.points] at hd
    rw [(entryMinimumDistance_ok hminimum).2 d hd, hsame.quote, hsame.entry] at htooClose
    rw [htooClose, hresult, mem_evidence codes henters rfl, hcodes]
    cases side with
    | buy => simp [tooClose_ne, PricedPlan.entry]
    | sell => simp [tooClose_ne.symm, PricedPlan.entry]
  · intro e he schema stored hage hschema hafter hbefore
    rw [hresult] at he
    split at he
    · cases he
    next hkeeps =>
    cases he
    have hne : codes ≠ [] := by
      rintro hnil
      rw [hnil] at hkeeps
      cases hkind : plan.kind <;> simp [hkind, keeps] at hkeeps
    simp only [checkEvidence, bind_ok, decimal_ok, require_ok]
    refine ⟨(), hschema, _, ⟨rfl, htext⟩, (), (entryMinimumDistance_ok hminimum).1, _, ⟨rfl, hbid⟩, (),
      hpos, _, ⟨rfl, hask⟩, (), ⟨hspread, timely_of_dataValid hdata hage rfl rfl hafter hbefore⟩, _,
      ⟨rfl, hbuy⟩, _, ⟨rfl, hsell⟩, ?_⟩
    have hexpected : reasonIf (plan.buyStop < snapshot.quote.ask.plus minimum) (tooClose .buy) ++
        reasonIf (snapshot.quote.bid.minus minimum < plan.sellStop) (tooClose .sell) = codes := by
      rw [hcodes]
      exact congrArg₂ _ (reasonIf_congr Iff.rfl) (reasonIf_congr Iff.rfl)
    rw [hexpected]
    exact ⟨hne, rfl⟩

namespace PriceSample

def metadata : SymbolMetadata where
  symbolId := "41"
  symbolName := "XAUUSD"
  digits := 2
  pipPosition := 1
  pipSize := 1 / 10
  tickSize := 1 / 100
  tickValue := 1
  baseAsset := "XAU"
  quoteAsset := "USD"
  accountAsset := "USD"
  quoteToAccountConversionRate := 1
  contractSize := 100
  volumeScale := 1 / 100
  minVolume := 1
  maxVolume := 1000
  volumeStep := 1
  minStopDistance := 0
  commission := ⟨.usdPerLot, 3, 0, .currency, "USD", 0⟩
  metadataTime := some 1000

def plan : PricedPlan := ⟨.pair, "XAUUSD", some 500, some 9000, 200025 / 100, 1999⟩

def snapshot : PricedSnapshot :=
  ⟨⟨2000, 20002 / 10, some 1900, some 1950⟩, metadata, some 1950⟩

def options : CheckOptions := ⟨3000, 60000, some 10⟩

/-- The buy stop is half the minimum away from the ask. -/
def evidence : EntryRetirementEvidence :=
  ⟨.postModel, ["BUY_ENTRY_TOO_CLOSE"], some 2000, snapshot.quote, 1 / 100, 1 / 10,
    200025 / 100, 1999⟩

theorem found : checkEntryPrices plan snapshot .postModel 2000 options = .ok (some evidence) := by
  have hfound : (checkEntryPrices plan snapshot .postModel 2000 options).toOption =
      some (some evidence) := by decide +kernel
  cases hresult : checkEntryPrices plan snapshot .postModel 2000 options with
  | ok result =>
    rw [hresult] at hfound
    exact congrArg _ (Option.some_inj.mp hfound)
  | error reason =>
    rw [hresult] at hfound
    cases hfound

end PriceSample

theorem entry_checks_agree_sample :
    (∀ side proposal context reasons, PriceSample.plan.Enters side →
      SameEntry PriceSample.plan PriceSample.snapshot PriceSample.options side proposal context →
      checkLeg side proposal context = .ok reasons →
      (tooClose side ∈ reasons ↔
        ∃ e ∈ some PriceSample.evidence, tooClose side ∈ e.reasonCodes)) ∧
    (∀ e ∈ some PriceSample.evidence, ∀ schema stored, PriceSample.options.maxQuoteAgeMs ≤ 3000 →
      schema e = true → 2000 ≤ stored → stored ≤ 2000 + 3000 →
      checkEvidence schema stored e = .ok ()) :=
  entry_checks_agree _ _ .postModel _ _ _ PriceSample.found

end ScalpingBot.Scenario.EntryPrices
