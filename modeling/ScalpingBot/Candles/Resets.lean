import ScalpingBot.Candles.Cache

/-! What a reset does: whatever the pages contain, the candles in the cache and those of a read that
    returns were asked for after the last reset. -/

namespace ScalpingBot.Candles

variable {platform : Platform}

/-! ### The candles of a timeframe -/

theorem merge_eq {values candles merged : List Candle} (h : merge values candles = .ok merged) :
    merged = candles.foldl setByTime values := by
  induction candles generalizing values with
  | nil => exact (Except.ok.inj h).symm
  | cons c rest ih =>
    rw [merge] at h
    split at h
    · cases h
    · exact ih h

theorem finish_ok {schedule : WeeklyTradingSchedule} {timeframe : Timeframe} {boundary : ℤ}
    {raw candles : List Candle} (h : finish platform schedule timeframe boundary raw = .ok candles) :
    candles.map (·.plain) = raw.map (·.plain) ∧
      candles.length = technicalHistoryCounts timeframe ∧
      (candles.getLast?.bind fun c => platform.parse c.endTime) = some boundary := by
  simp only [finish, bind_ok, pure_ok, require_ok] at h
  obtain ⟨marked, hmarked, -, ⟨hlength, hlast⟩, -, -, rfl⟩ := h
  exact ⟨platform.mark_plain hmarked, hlength, hlast⟩

/-- The candles are those before and those of the pages, flags aside. -/
theorem candlesOf_subset {f : Fetching} {candles : List Candle}
    (h : CandidateHistoryCache.candlesOf platform f = .ok candles) :
    ∀ c ∈ candles, c.plain ∈ (f.prior ++ f.collected).map (·.plain) := by
  simp only [CandidateHistoryCache.candlesOf, bind_ok, require_ok] at h
  obtain ⟨-, -, values, hvalues, hfinish⟩ := h
  intro c hc
  have hraw := List.mem_map_of_mem (f := fun c : Candle => c.plain) hc
  rw [(finish_ok hfinish).1, rawWindow] at hraw
  obtain ⟨r, hr, hrc⟩ := List.mem_map.mp hraw
  obtain ⟨v, hv, rfl⟩ := List.mem_map.mp hr
  rw [← hrc]
  have hmem := List.mem_mergeSort.mp (List.drop_subset _ _ hv)
  rw [merge_eq hvalues] at hmem
  have hsource : v ∈ f.prior ++ f.collected := by
    rcases Window.mem_foldl_put hmem with hv | hv
    · rcases Window.mem_foldl_put hv with hv | hv
      · cases hv
      · exact List.mem_append_left _ hv
    · exact List.mem_append_right _ hv
  exact List.mem_map.mpr ⟨v, hsource, rfl⟩

/-! ### What was asked for since the last reset -/

/-- Every candle came, flags aside, with a page that was asked for in a generation. -/
def From (pages : List Page) (generation : ℕ) (timeframe : Timeframe) (candles : List Candle) :
    Prop :=
  ∀ c ∈ candles, ∃ p ∈ pages, p.asked = generation ∧ p.timeframe = timeframe ∧
    c.plain ∈ p.candles.map (·.plain)

theorem From.mono {pages pages' : List Page} {generation : ℕ} {timeframe : Timeframe}
    {candles : List Candle} (h : From pages generation timeframe candles) (hsub : pages ⊆ pages') :
    From pages' generation timeframe candles := by
  intro c hc
  obtain ⟨p, hp, hlaws⟩ := h c hc
  exact ⟨p, hsub hp, hlaws⟩

theorem From.append {pages : List Page} {generation : ℕ} {timeframe : Timeframe}
    {candles candles' : List Candle} (h : From pages generation timeframe candles)
    (h' : From pages generation timeframe candles') :
    From pages generation timeframe (candles ++ candles') := by
  intro c hc
  rcases List.mem_append.mp hc with hc | hc
  · exact h c hc
  · exact h' c hc

theorem From.of_plain {pages : List Page} {generation : ℕ} {timeframe : Timeframe}
    {candles candles' : List Candle} (h : From pages generation timeframe candles)
    (hplain : ∀ c ∈ candles', c.plain ∈ candles.map (·.plain)) :
    From pages generation timeframe candles' := by
  intro c hc
  obtain ⟨c', hc', heq⟩ := List.mem_map.mp (hplain c hc)
  rw [← heq]
  exact h c' hc'

/-- The same of the series of a result. -/
def AllFrom (pages : List Page) (generation : ℕ) (result : List CandleSeries) : Prop :=
  ∀ series ∈ result, From pages generation series.timeframe series.candles

theorem AllFrom.mono {pages pages' : List Page} {generation : ℕ} {result : List CandleSeries}
    (h : AllFrom pages generation result) (hsub : pages ⊆ pages') :
    AllFrom pages' generation result :=
  fun series hseries => (h series hseries).mono hsub

theorem AllFrom.concat {pages : List Page} {generation : ℕ} {result : List CandleSeries}
    {timeframe : Timeframe} {candles : List Candle} (h : AllFrom pages generation result)
    (h' : From pages generation timeframe candles) :
    AllFrom pages generation (result ++ [⟨timeframe, candles⟩]) := by
  intro series hseries
  rcases List.mem_append.mp hseries with hseries | hseries
  · exact h series hseries
  · obtain rfl := List.mem_singleton.mp hseries
    exact h'

/-- The laws of generations: what is in the cache, and what has been returned. -/
structure Stored (s : CandidateHistoryCache) : Prop where
  cache : ∀ timeframe candles, s.cache timeframe = some candles →
    From s.pages s.generation timeframe candles
  queue : ∀ call ∈ s.queue, call.generation ≤ s.generation
  ended : ∀ e ∈ s.ended, ∀ result, e.outcome = .ok result →
    e.generation = e.call.generation ∧ AllFrom s.pages e.generation result

/-- The laws of generations for a read that waits: they bind it until the next reset. -/
structure Waits (s : CandidateHistoryCache) (f : Fetching) : Prop where
  past : f.call.generation ≤ s.generation
  asked : f.asked = f.call.generation
  candles : f.call.generation = s.generation →
    From s.pages s.generation f.timeframe (f.prior ++ f.collected)
  result : f.call.generation = s.generation → AllFrom s.pages s.generation f.result

/-- The laws of generations. -/
structure Recent (s : CandidateHistoryCache) : Prop extends Stored s where
  running : ∀ f, s.running = some f → Waits s f

variable {s : CandidateHistoryCache}

theorem Stored.clear (h : Stored s) : Stored s.clear :=
  ⟨fun _ _ hnone => (by cases hnone), h.queue, h.ended⟩

theorem Stored.set (h : Stored s) {timeframe : Timeframe} {candles : List Candle}
    (hfrom : From s.pages s.generation timeframe candles) : Stored (s.set timeframe candles) := by
  refine ⟨fun t cs hcs => ?_, h.queue, h.ended⟩
  simp only [CandidateHistoryCache.set] at hcs
  split at hcs
  · next ht =>
    obtain rfl := Option.some.inj hcs
    rw [ht]
    exact hfrom
  · exact h.cache t cs hcs

theorem Stored.finishRead (h : Stored s) {call : Call}
    {outcome : Except String (List CandleSeries)} (hok : ∀ result, outcome = .ok result →
      s.generation = call.generation ∧ AllFrom s.pages s.generation result) :
    Recent (s.finishRead call outcome) := by
  refine ⟨⟨h.cache, h.queue, fun e he result hresult => ?_⟩, fun f hf => by cases hf⟩
  rcases List.mem_append.mp he with he | he
  · exact h.ended e he result hresult
  · obtain rfl := List.mem_singleton.mp he
    exact hok result hresult

theorem Stored.caught (h : Stored s) {call : Call} {reason : String} :
    Recent (s.caught call reason) :=
  h.clear.finishRead fun _ hok => by cases hok

/-- A read goes on with what the cache holds, or asks for a page. -/
theorem Stored.advance (h : Stored s) {call : Call} (hcall : call.generation = s.generation)
    (server : ℤ) {result : List CandleSeries} (hresult : AllFrom s.pages s.generation result)
    (rest : List Timeframe) : Recent (s.advance platform call server result rest) := by
  induction rest generalizing result with
  | nil =>
    rw [CandidateHistoryCache.advance]
    refine h.finishRead fun r hr => ?_
    obtain rfl := Except.ok.inj hr
    exact ⟨hcall.symm, hresult⟩
  | cons timeframe rest ih =>
    have hprior : From s.pages s.generation timeframe ((s.cache timeframe).getD []) := by
      cases hcache : s.cache timeframe with
      | none => exact fun c hc => by cases hc
      | some candles => exact h.cache timeframe candles hcache
    have hfetch (needed : ℕ) : Recent { s with running := some {
        call, server, result, timeframe, rest, needed
        prior := (s.cache timeframe).getD []
        collected := []
        until' := boundaryOf server timeframe
        page := 0
        asked := s.generation } } := by
      refine ⟨⟨h.cache, h.queue, h.ended⟩, fun f hf => ?_⟩
      obtain rfl := Option.some.inj hf
      refine ⟨hcall.le, hcall.symm, fun _ => ?_, fun _ => hresult⟩
      rw [List.append_nil]
      exact hprior
    rw [CandidateHistoryCache.advance]
    dsimp only
    split
    · exact hfetch _
    · split
      · exact h.caught
      · split
        · exact h.caught
        · split
          · exact ih (hresult.concat hprior)
          · exact hfetch _

theorem Recent.reset (h : Recent s) : Recent s.reset := by
  refine ⟨⟨?_, fun call hcall => ?_, h.ended⟩, fun f hf => ?_⟩
  · intro timeframe candles hnone
    cases hnone
  · exact (h.queue call hcall).trans (Nat.le_succ _)
  · obtain ⟨hpast, hasked, -, -⟩ := h.running f hf
    have hstale : f.call.generation ≠ s.reset.generation := (Nat.lt_succ_of_le hpast).ne
    exact ⟨hpast.trans (Nat.le_succ _), hasked, fun heq => absurd heq hstale,
      fun heq => absurd heq hstale⟩

theorem Recent.read (h : Recent s) (serverTime : String) (schedule : WeeklyTradingSchedule) :
    Recent (s.read serverTime schedule) := by
  refine ⟨⟨h.cache, fun call hcall => ?_, h.ended⟩, fun f hf => ?_⟩
  · rcases List.mem_append.mp hcall with hcall | hcall
    · exact h.queue call hcall
    · obtain rfl := List.mem_singleton.mp hcall
      exact le_rfl
  · obtain ⟨hpast, hasked, hcandles, hresult⟩ := h.running f hf
    exact ⟨hpast, hasked, hcandles, hresult⟩

theorem Stored.keyed (h : Stored s) (call : Call) :
    Stored (s.keyed call) ∧ (s.keyed call).generation = s.generation := by
  rw [CandidateHistoryCache.keyed]
  split
  · exact ⟨h, rfl⟩
  · exact ⟨⟨h.clear.cache, h.queue, h.ended⟩, rfl⟩

theorem Stored.begin (h : Stored s) (call : Call) : Recent (s.begin platform call) := by
  rw [CandidateHistoryCache.begin]
  split
  · exact h.finishRead fun _ hok => by cases hok
  rename_i hcall
  have hcall : call.generation = s.generation := not_not.mp hcall
  have hkeyed := h.keyed call
  split
  · exact hkeyed.1.caught
  · exact hkeyed.1.advance (hcall.trans hkeyed.2.symm) _ (fun _ hnil => by cases hnil) _

/-- The page that an answer brings joins the others. -/
theorem checkPage_generation {f : Fetching} {chunk : List Candle} {start : ℤ}
    (h : s.checkPage platform f chunk = .ok start) : f.call.generation = s.generation := by
  simp only [CandidateHistoryCache.checkPage, bind_ok, require_ok] at h
  exact h.choose_spec.1

theorem Recent.answer (h : Recent s) {f : Fetching} (hf : s.running = some f)
    (page : Except String (List Candle)) : Recent (s.answer platform f page) := by
  obtain ⟨hpast, hasked, hcandles, hresult⟩ := h.running f hf
  cases page with
  | error reason => exact h.toStored.caught
  | ok chunk =>
    have hsub : s.pages ⊆ s.pages ++ [⟨f.asked, f.timeframe, chunk⟩] :=
      List.subset_append_left _ _
    have hstored : Stored { s with pages := s.pages ++ [⟨f.asked, f.timeframe, chunk⟩] } := by
      refine ⟨fun t cs hcs => (h.cache t cs hcs).mono hsub, h.queue, fun e he r hr => ?_⟩
      obtain ⟨hgeneration, hfrom⟩ := h.ended e he r hr
      exact ⟨hgeneration, hfrom.mono hsub⟩
    rw [CandidateHistoryCache.answer]
    dsimp only
    split
    · exact hstored.caught
    rename_i start hcheck
    have hcall : f.call.generation = s.generation := checkPage_generation hcheck
    have hchunk : From (s.pages ++ [⟨f.asked, f.timeframe, chunk⟩]) s.generation f.timeframe
        chunk := by
      intro c hc
      refine ⟨_, List.mem_append_right _ (List.mem_singleton_self _), ?_, rfl, ?_⟩
      · exact hasked.trans hcall
      · exact List.mem_map_of_mem (f := fun c : Candle => c.plain) hc
    have hall : From (s.pages ++ [⟨f.asked, f.timeframe, chunk⟩]) s.generation f.timeframe
        (f.prior ++ (chunk ++ f.collected)) := by
      have hold := (hcandles hcall).mono hsub
      exact From.append (fun c hc => hold c (List.mem_append_left _ hc))
        (hchunk.append fun c hc => hold c (List.mem_append_right _ hc))
    split
    · refine ⟨⟨hstored.cache, hstored.queue, hstored.ended⟩, fun f' hf' => ?_⟩
      obtain rfl := Option.some.inj hf'
      exact ⟨hpast, hcall.symm, fun _ => hall, fun _ => (hresult hcall).mono hsub⟩
    · rw [CandidateHistoryCache.completed]
      split
      · exact hstored.caught
      · rename_i candles hcandlesOf
        have hfrom := hall.of_plain (candlesOf_subset hcandlesOf)
        exact (hstored.set hfrom).advance hcall _ (((hresult hcall).mono hsub).concat hfrom) _

theorem recent_step (h : Recent s) (a : Action) {t : CandidateHistoryCache}
    (hstep : s.step platform a = some t) : Recent t := by
  cases a with
  | reset =>
    obtain rfl := Option.some.inj hstep
    exact h.reset
  | read serverTime schedule =>
    obtain rfl := Option.some.inj hstep
    exact h.read serverTime schedule
  | begin =>
    rw [CandidateHistoryCache.step] at hstep
    split at hstep
    · rename_i call queue hrunning hqueue
      obtain rfl := Option.some.inj hstep
      have hrest : Stored { s with queue := queue } :=
        ⟨h.cache, fun c hc => h.queue c (hqueue ▸ List.mem_cons_of_mem call hc), h.ended⟩
      exact hrest.begin call
    · cases hstep
  | answer page =>
    obtain ⟨f, hf, rfl⟩ := Option.map_eq_some_iff.mp hstep
    exact h.answer hf page

theorem recent_initial : Recent .initial := by
  refine ⟨⟨?_, ?_, ?_⟩, ?_⟩
  · intro timeframe candles hnone
    cases hnone
  · intro call hcall
    cases hcall
  · intro e he
    cases he
  · intro f hf
    cases hf

end ScalpingBot.Candles
