import ScalpingBot.Scenario.History

/-! The laws of a replay over every sequence of events that it is offered, and the limit of its
    journal, at which even an event it knows is refused. -/

namespace ScalpingBot.Scenario.ScenarioReplay

variable {D R : Type} [DecidableEq D] (x : External D R)

theorem Phase.pending_or_position {c : Core} (h : Phase c) : c.pending = none ∨ c.position = none := by
  cases h with
  | seeking hpending | holding _ hpending | closed _ hpending => exact .inl hpending
  | pending _ _ hposition => exact .inr hposition

theorem Phase.fills_le {c : Core} (h : Phase c) : c.fills ≤ 1 := by
  cases h with
  | seeking _ _ _ _ _ hfills | pending _ _ _ _ _ _ hfills => rw [hfills]; exact Nat.zero_le 1
  | holding _ _ _ _ _ _ hfills | closed _ _ _ _ _ _ hfills => rw [hfills]

theorem Phase.trades_le {c : Core} (h : Phase c) : c.trades.length ≤ 1 := by
  cases h with
  | seeking _ _ _ htrades | pending _ _ _ _ htrades | holding _ _ _ _ htrades =>
    rw [htrades]
    exact Nat.zero_le 1
  | closed _ _ _ _ htrades => rw [htrades]; rfl

theorem Phase.equity_eq {c : Core} (h : Phase c) :
    c.equityAdjustment = (c.trades.map (·.net)).sum := by
  cases h with
  | seeking _ _ _ htrades hequity | pending _ _ _ _ htrades hequity
  | holding _ _ _ _ htrades hequity | closed _ _ _ _ htrades hequity => simp [htrades, hequity]

variable {x}

section construct

variable {input : ReplayInput} {execution : ExecutionAssumptions} {s₀ : ScenarioReplay D R}

omit [DecidableEq D] in
theorem construct_eq (h : construct x input execution = .ok s₀) :
    ∃ config, configure x input execution = .ok config ∧ s₀ = fresh config := by
  simp only [construct, bind_ok, pure_ok] at h
  obtain ⟨config, hconfig, rfl⟩ := h
  exact ⟨config, hconfig, rfl⟩

/-- In every state of a replay: a pending entry and an open position never coexist; there is at most
    one fill and one trade, which closes the position that a quote opened from a pending entry; the
    net of an uncensored path is that of its trades; and an event of the journal is accepted again
    without effect as long as the journal may grow. -/
theorem replay_laws (h₀ : construct x input execution = .ok s₀) (es : List (ReplayEvent R)) :
    let s := (s₀.offer x es).1
    (s.pending = none ∨ s.position = none) ∧ fillCount s.lifecycle ≤ 1 ∧ s.trades.length ≤ 1 ∧
    (∀ t ∈ s.trades, ∃ p, FromPlan x s₀ es p ∧ Closes t p) ∧
    (s.report.pathCensored = false →
      s.report.netBeforeModelCosts = some (s.trades.map (·.net)).sum) ∧
    (s.journal.length < 200000 → ∀ event ∈ s.journal, s.accept x event = (s, true)) := by
  obtain ⟨config, -, rfl⟩ := construct_eq h₀
  have hphase := phase_offer x (phase_fresh config) es
  have hremembers : Remembers x ((fresh config : ScenarioReplay D R).offer x es).1 :=
    remembers_offer x (fun _ he => by cases he) es
  refine ⟨hphase.pending_or_position, hphase.fills_le, hphase.trades_le,
    (fromPlan_offer x rfl rfl es).2, fun hcensored => ?_, fun hroom event he =>
      accept_again x hremembers he hroom⟩
  have hnet := congrArg some hphase.equity_eq
  rw [report] at hcensored ⊢
  dsimp only at hcensored ⊢
  rw [hcensored]
  exact hnet

end construct

/-! ### The limit of the journal -/

/-- A full journal refuses every event. -/
theorem accept_full {s : ScenarioReplay D R} (h : 200000 ≤ s.journal.length)
    (event : ReplayEvent R) : s.accept x event = (s.latch, false) := by
  have hcheck : s.check x event = .error "EVENT_ID_OR_COUNT_INVALID" := by
    rw [check, if_pos]
    intro hroom
    omega
  rw [accept, process, hcheck]

/-- Where nothing is at stake, a quote is only remembered. -/
theorem applyQuote_idle {s : ScenarioReplay D R} (hpending : s.pending = none)
    (hposition : s.position = none) (hcandidate : s.candidate = none) (now : ℕ) (q : Quote)
    (source : ℕ) (fingerprint : D) (risk : Option R) :
    applyQuote x now q source fingerprint risk s = (recordQuote now source fingerprint s, .ok []) := by
  simp [applyQuote, Attempt.andThen, writes, noteGap, recordQuote, managePosition, expirePending,
    fillPending, admitCandidate, hpending, hposition, hcandidate, Except.map]

namespace Sample

/-- A digest that is the JSON text itself. -/
inductive Json where
  | event (event : ReplayEvent Unit)
  | quote (source : ℕ) (bid ask : String)
  | metadata (metadata : SymbolMetadata)
  | data (data : CheckpointData Unit)
  deriving DecidableEq

/-- Nothing is admitted, for no risk context comes with a quote. -/
def external (metadata : SymbolMetadata) : External Json Unit where
  digestEvent := .event
  digestQuote := .quote
  digestMetadata := .metadata
  digestData := .data
  byteLength data := 2000 + 400 * data.events.length
  schema _ := .ok ()
  riskMetadata _ := metadata
  admitEntry _ _ _ _ := .error ["SCENARIO_ADMISSION_INVALID"]

def metadata : SymbolMetadata where
  symbolId := "41"
  symbolName := "XAUUSD"
  digits := 2
  pipPosition := 1
  pipSize := 1 / 10
  tickSize := 1 / 100
  tickValue := 1 / 100
  baseAsset := "XAU"
  quoteAsset := "USD"
  accountAsset := "USD"
  quoteToAccountConversionRate := 1
  contractSize := 100
  volumeScale := 1 / 100
  minVolume := 100
  maxVolume := 100000
  volumeStep := 100
  minStopDistance := 1 / 100
  commission := {
    type := .usdPerMillionUsd
    rate := 30
    minimum := 0
    minimumType := .currency
    minimumAsset := "USD"
    pnlConversionFeeRate := 0 }
  metadataTime := some 60000

def plan : ScenarioPlan where
  analysisId := "00000000-0000-4000-8000-000000000001"
  symbol := "XAUUSD"
  capturedAt := some 60000
  validUntil := some 360000
  decisionZone := ⟨4400, 4402⟩
  reboundResistance := ⟨4408, 4410⟩
  recoveryAbove := 4410
  recoveryTargets := (4420, 4430)
  bearishBelow := 4400
  extensionBelow := 4390
  extensionTargets := (4380, 4370)
  broaderResistance := [⟨4432, 4435⟩]

def input : ReplayInput where
  label := .synthetic
  plan := plan
  availableAt := some 60000
  metadata := metadata

def config : Config := ⟨input, baseExecution, 60000, 360000, 1 / 100⟩

theorem configure_input : configure (external metadata) input baseExecution = .ok config := by
  decide +kernel

/-- The `n`-th of a flow of equal quotes. -/
def tick (n : ℕ) : ReplayEvent Unit where
  id := n.repr
  instant := some 60000
  body := .quote ⟨4405, 4406, some 60000, some 60000⟩ "4405" "4406" none

/-- The replay after `n` of them: a quote brings nothing but its time while no candle came. -/
def after : ℕ → ScenarioReplay Json Unit
  | 0 => fresh config
  | n + 1 => keep (external metadata) (tick n) 60000
      (recordQuote 60000 60000 (.quote 60000 "4405" "4406") (after n))

theorem after_journal (n : ℕ) : (after n).journal = (List.range n).map tick := by
  induction n with
  | zero => rfl
  | succ n ih => simp [after, keep, recordQuote, ih, List.range_succ]

theorem after_seen (n : ℕ) :
    (after n).seen = (List.range n).map fun i => (i.repr, .event (tick i)) := by
  induction n with
  | zero => rfl
  | succ n ih =>
    rw [List.range_succ, List.map_append, ← ih]
    rfl

/-- Nothing is at stake, and the next quote is not behind the last one. -/
theorem after_idle (n : ℕ) : (after n).config = config ∧ (after n).pending = none ∧
    (after n).position = none ∧ (after n).candidate = none ∧ (after n).halted = false ∧
    (after n).lastAt ≤ 60000 ∧ (after n).lastSource ≤ 60000 ∧
    ((60000 : ℕ) = (after n).lastSource →
      (after n).lastQuoteFingerprint = some (.quote 60000 "4405" "4406")) := by
  induction n with
  | zero => simp [after, fresh]
  | succ n ih => exact ⟨ih.1, ih.2.1, ih.2.2.1, ih.2.2.2.1, ih.2.2.2.2.1, le_rfl, le_rfl, fun _ => rfl⟩

theorem repr_injective {m n : ℕ} (h : m.repr = n.repr) : m = n := by
  have hdigits := congrArg String.toList h
  rw [Nat.toList_repr, Nat.toList_repr] at hdigits
  rw [← Nat.ofDigitChars_toDigits (by decide : 1 < 10) (by decide) (n := m), hdigits,
    Nat.ofDigitChars_toDigits (by decide) (by decide)]

theorem after_lookup (n : ℕ) : (after n).seen.lookup n.repr = none := by
  rw [List.lookup_eq_none_iff, after_seen]
  intro p hp
  obtain ⟨i, hi, rfl⟩ := List.mem_map.mp hp
  have hlt := List.mem_range.mp hi
  have hne : n.repr ≠ i.repr := by
    intro heq
    have := repr_injective heq
    omega
  simpa using hne

theorem isEventId_repr {n : ℕ} (h : n < 200000) : isEventId n.repr = true := by
  have hpos : 1 ≤ n.repr.length := by
    have := Nat.length_repr_pos (n := n)
    omega
  have hlen : n.repr.length ≤ 128 :=
    (Nat.length_repr_le_iff (by decide)).mpr (h.trans (by decide))
  have hdigits : n.repr.toList.all fun c => c.isAlphanum ∨ c ∈ ['_', '.', ':', '-'] := by
    rw [List.all_eq_true]
    intro c hc
    rw [Nat.toList_repr] at hc
    have hdigit := Nat.isDigit_of_mem_toDigits (by decide) (by decide) hc
    simp [Char.isAlphanum, hdigit]
  simp only [isEventId, hdigits, decide_eq_true_eq]
  exact ⟨hpos, hlen, trivial⟩

theorem checkBody_tick (n : ℕ) :
    (after n).checkBody (external metadata) 60000 (tick n).body =
      .ok (.quote 60000 ⟨4405, 4406, some 60000, some 60000⟩ 60000 (.quote 60000 "4405" "4406") none) := by
  obtain ⟨hconfig, -, -, -, -, -, hsource, hfingerprint⟩ := after_idle n
  have hbid : decimal 4405 = .ok 4405 := by decide +kernel
  have hask : decimal 4406 = .ok 4406 := by decide +kernel
  have haligned : isTickAligned 4405 config.tickSize ∧ isTickAligned 4406 config.tickSize := by
    decide +kernel
  simp only [tick, checkBody, time, hbid, hask, ok_bind, hconfig]
  rw [require_eq ⟨le_rfl, le_rfl, by decide, hsource, hfingerprint, by norm_num, by norm_num,
    haligned⟩]
  rfl

theorem accept_tick {n : ℕ} (h : n < 200000) :
    (after n).accept (external metadata) (tick n) = (after (n + 1), true) := by
  obtain ⟨hconfig, hpending, hposition, hcandidate, -, hlastAt, -⟩ := after_idle n
  have hcheck : (after n).check (external metadata) (tick n) = .ok (some (.quote 60000
      ⟨4405, 4406, some 60000, some 60000⟩ 60000 (.quote 60000 "4405" "4406") none)) := by
    have hlen : (after n).journal.length < 200000 := by simpa [after_journal] using h
    have hknown : (after n).seen.lookup (tick n).id = none := after_lookup n
    have hnow : time (tick n).instant = .ok 60000 := rfl
    rw [check, if_neg (by simp [tick, isEventId_repr h, hlen])]
    simp only [hknown, hnow, ok_bind, hconfig, checkBody_tick]
    rw [require_eq ⟨hlastAt, le_rfl⟩]
    rfl
  simp only [accept, process, hcheck, apply, Attempt.andThen,
    applyQuote_idle hpending hposition hcandidate]
  rfl

/-- Every one of the first 200000 is accepted. -/
theorem offer_ticks {n : ℕ} (h : n ≤ 200000) :
    (fresh config).offer (external metadata) ((List.range n).map tick) =
      (after n, List.replicate n true) := by
  induction n with
  | zero => rfl
  | succ n ih =>
    have hbefore := ih (by omega)
    have hstate := offer_append (external metadata) (fresh config) ((List.range n).map tick) [tick n]
    have hresults :=
      offer_append_snd (external metadata) (fresh config) ((List.range n).map tick) [tick n]
    rw [hbefore] at hstate hresults
    simp only [offer, accept_tick (show n < 200000 by omega)] at hstate hresults
    rw [List.range_succ, List.map_append, List.replicate_succ']
    exact Prod.ext hstate hresults

theorem construct_input :
    construct (external metadata) input baseExecution = .ok (fresh config) := by
  rw [construct, configure_input]
  rfl

theorem replay_laws_ticks :
    let s := ((fresh config).offer (external metadata) ((List.range 2).map tick)).1
    (s.report.pathCensored = false →
      s.report.netBeforeModelCosts = some (s.trades.map (·.net)).sum) ∧
    ∀ event ∈ s.journal, s.accept (external metadata) event = (s, true) := by
  have hlaws := replay_laws construct_input ((List.range 2).map tick)
  have hroom : ((fresh config).offer (external metadata) ((List.range 2).map tick)).1.journal.length
      < 200000 := by
    rw [offer_ticks (by decide), after_journal]
    decide
  exact ⟨hlaws.2.2.2.2.1, hlaws.2.2.2.2.2 hroom⟩

/-- After 200000 events an event accepted before is refused, and the replay halts. -/
theorem full_journal_halts :
    let run := (fresh config).offer (external metadata) ((List.range 200000).map tick)
    construct (external metadata) input baseExecution = .ok (fresh config) ∧
    run.2 = List.replicate 200000 true ∧ tick 0 ∈ run.1.journal ∧
    run.1.accept (external metadata) (tick 0) = (run.1.latch, false) ∧ run.1.latch ≠ run.1 := by
  rw [offer_ticks le_rfl]
  refine ⟨construct_input, rfl, ?_, accept_full ?_ _, ?_⟩
  · rw [after_journal]
    exact List.mem_map_of_mem (List.mem_range.mpr (by decide))
  · simp [after_journal]
  · intro heq
    obtain ⟨-, -, -, -, hrunning, -⟩ := after_idle 200000
    have hhalted : true = (after 200000).halted := congrArg (·.halted) heq
    rw [hrunning] at hhalted
    cases hhalted

end Sample

end ScalpingBot.Scenario.ScenarioReplay
