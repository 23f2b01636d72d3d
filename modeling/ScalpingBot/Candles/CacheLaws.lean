import ScalpingBot.Candles.History

/-! Whatever was cached before: a read that returns shows the windows that a fresh cache would. -/

namespace ScalpingBot.Candles

open Window

variable {platform : Platform} (history : BrokerHistory platform)

theorem period_pos (timeframe : Timeframe) : 0 < period timeframe := by
  cases timeframe <;> decide

theorem technicalHistoryCounts_pos (timeframe : Timeframe) :
    0 < technicalHistoryCounts timeframe := by
  cases timeframe <;> decide

/-! ### Windows of the history -/

/-- The candles are those that the latest ones of the history up to a boundary lead to. -/
structure Shows (schedule : WeeklyTradingSchedule) (timeframe : Timeframe) (boundary : ℤ)
    (candles : List Candle) : Prop where
  finished : finish platform schedule timeframe boundary
    (history.page timeframe (technicalHistoryCounts timeframe) boundary) = .ok candles
  fits : ∀ c ∈ history.page timeframe (technicalHistoryCounts timeframe) boundary,
    Fits platform timeframe c

variable {history}

theorem page_subset {timeframe : Timeframe} {count : ℕ} {until' : ℤ} :
    history.page timeframe count until' ⊆ history.upTo timeframe until' :=
  List.drop_subset _ _

namespace Shows

variable {schedule : WeeklyTradingSchedule} {timeframe : Timeframe} {boundary : ℤ}
  {candles : List Candle}

theorem plain (h : Shows history schedule timeframe boundary candles) :
    candles.map (·.plain) =
      history.page timeframe (technicalHistoryCounts timeframe) boundary := by
  rw [(finish_ok h.finished).1]
  exact history.map_plain (List.Subset.trans page_subset (history.upTo_sublist timeframe _).subset)

/-- The history is long enough. -/
theorem enough (h : Shows history schedule timeframe boundary candles) :
    technicalHistoryCounts timeframe ≤ (history.upTo timeframe boundary).length := by
  have hlength := congrArg List.length h.plain
  rw [List.length_map, (finish_ok h.finished).2.1, BrokerHistory.page, length_rtake] at hlength
  omega

/-- The last candle ends at the boundary. -/
theorem last (h : Shows history schedule timeframe boundary candles) :
    ∃ c, candles.getLast? = some c ∧ platform.parse c.endTime = some boundary :=
  Option.bind_eq_some_iff.mp (finish_ok h.finished).2.2

end Shows

/-! ### What a cache holds of the history -/

/-- A returned result: the windows of the three timeframes. -/
def Right (history : BrokerHistory platform) (call : Call) (result : List CandleSeries) : Prop :=
  ∃ server, platform.parse call.serverTime = some server ∧
    result.map (·.timeframe) = timeframes ∧ ∀ series ∈ result, Shows history call.schedule
      series.timeframe (boundaryOf server series.timeframe) series.candles

/-- The cache holds windows under the schedule they were marked with; what was returned is right. -/
structure Shown (history : BrokerHistory platform) (s : CandidateHistoryCache) : Prop where
  cache : ∀ timeframe candles, s.cache timeframe = some candles →
    ∃ schedule, s.scheduleKey = some schedule ∧ ∃ boundary,
      Shows history schedule timeframe boundary candles
  ended : ∀ e ∈ s.ended, ∀ result, e.outcome = .ok result → Right history e.call result

/-- How many candles a read needs, given what it found in the cache. -/
def Needs (history : BrokerHistory platform) (f : Fetching) : Prop :=
  f.prior = [] ∧ f.needed = technicalHistoryCounts f.timeframe ∨
    ∃ lastEnd, Shows history f.call.schedule f.timeframe lastEnd f.prior ∧
      lastEnd < boundaryOf f.server f.timeframe ∧
      f.needed = min (technicalHistoryCounts f.timeframe)
        ((boundaryOf f.server f.timeframe - lastEnd + period f.timeframe - 1) / period f.timeframe
          + 1).toNat

/-- A read that waits has fetched the latest candles, down to the instant from which it goes on. -/
structure Showing (history : BrokerHistory platform) (s : CandidateHistoryCache) (f : Fetching) :
    Prop where
  key : s.scheduleKey = some f.call.schedule
  server : platform.parse f.call.serverTime = some f.server
  order : f.result.map (·.timeframe) ++ f.timeframe :: f.rest = timeframes
  result : ∀ series ∈ f.result, Shows history f.call.schedule series.timeframe
    (boundaryOf f.server series.timeframe) series.candles
  needs : Needs history f
  fits : ∀ c ∈ f.collected, Fits platform f.timeframe c
  reached : history.upTo f.timeframe f.until' ++ f.collected.map (·.plain) =
    history.upTo f.timeframe (boundaryOf f.server f.timeframe)

/-- The laws of a cache whose pages come from the history. -/
structure Sound (history : BrokerHistory platform) (s : CandidateHistoryCache) : Prop
    extends Shown history s where
  running : ∀ f, s.running = some f → Showing history s f

variable {s : CandidateHistoryCache}

theorem Shown.clear (h : Shown history s) : Shown history s.clear :=
  ⟨fun _ _ hnone => (by cases hnone), h.ended⟩

theorem Shown.set (h : Shown history s) {schedule : WeeklyTradingSchedule} {timeframe : Timeframe}
    {boundary : ℤ} {candles : List Candle} (hkey : s.scheduleKey = some schedule)
    (hshows : Shows history schedule timeframe boundary candles) :
    Shown history (s.set timeframe candles) := by
  refine ⟨fun t cs hcs => ?_, h.ended⟩
  simp only [CandidateHistoryCache.set] at hcs
  split at hcs
  · next ht =>
    obtain rfl := Option.some.inj hcs
    exact ⟨schedule, hkey, boundary, ht ▸ hshows⟩
  · exact h.cache t cs hcs

theorem Shown.finishRead (h : Shown history s) {call : Call}
    {outcome : Except String (List CandleSeries)}
    (hok : ∀ result, outcome = .ok result → Right history call result) :
    Sound history (s.finishRead call outcome) := by
  refine ⟨⟨h.cache, fun e he result hresult => ?_⟩, fun f hf => by cases hf⟩
  rcases List.mem_append.mp he with he | he
  · exact h.ended e he result hresult
  · obtain rfl := List.mem_singleton.mp he
    exact hok result hresult

theorem Shown.caught (h : Shown history s) {call : Call} {reason : String} :
    Sound history (s.caught call reason) :=
  h.clear.finishRead fun _ hok => by cases hok

theorem series_concat {call : Call} {server : ℤ} {result : List CandleSeries}
    {timeframe : Timeframe} {candles : List Candle}
    (hresult : ∀ series ∈ result, Shows history call.schedule series.timeframe
      (boundaryOf server series.timeframe) series.candles)
    (hshows : Shows history call.schedule timeframe (boundaryOf server timeframe) candles) :
    ∀ series ∈ result ++ [⟨timeframe, candles⟩], Shows history call.schedule series.timeframe
      (boundaryOf server series.timeframe) series.candles := by
  intro series hseries
  rcases List.mem_append.mp hseries with hseries | hseries
  · exact hresult series hseries
  · obtain rfl := List.mem_singleton.mp hseries
    exact hshows

/-- A cached window ends at its boundary, so a read finds out how much of the new one is missing. -/
theorem Shown.advance (h : Shown history s) {call : Call} {server : ℤ}
    (hkey : s.scheduleKey = some call.schedule)
    (hserver : platform.parse call.serverTime = some server) {result : List CandleSeries}
    {rest : List Timeframe} (horder : result.map (·.timeframe) ++ rest = timeframes)
    (hresult : ∀ series ∈ result, Shows history call.schedule series.timeframe
      (boundaryOf server series.timeframe) series.candles) :
    Sound history (s.advance platform call server result rest) := by
  induction rest generalizing result with
  | nil =>
    rw [CandidateHistoryCache.advance]
    refine h.finishRead fun r hr => ?_
    obtain rfl := Except.ok.inj hr
    exact ⟨server, hserver, by simpa using horder, hresult⟩
  | cons timeframe rest ih =>
    have hfetch (prior : List Candle) (needed : ℕ) (hneeds : Needs history {
        call, server, result, timeframe, rest, prior, needed
        collected := []
        until' := boundaryOf server timeframe
        page := 0
        asked := s.generation }) : Sound history { s with running := some {
          call, server, result, timeframe, rest, prior, needed
          collected := []
          until' := boundaryOf server timeframe
          page := 0
          asked := s.generation } } := by
      refine ⟨⟨h.cache, h.ended⟩, fun f hf => ?_⟩
      obtain rfl := Option.some.inj hf
      exact ⟨hkey, hserver, horder, hresult, hneeds, fun c hc => (by cases hc),
        List.append_nil _⟩
    rw [CandidateHistoryCache.advance]
    cases hcache : s.cache timeframe with
    | none => exact hfetch _ _ (.inl ⟨rfl, rfl⟩)
    | some prior =>
      obtain ⟨schedule, hschedule, lastEnd, hshows⟩ := h.cache timeframe prior hcache
      obtain rfl := Option.some.inj (hschedule.symm.trans hkey)
      obtain ⟨last, hlast, hend⟩ := hshows.last
      simp only [Option.getD_some, hlast, hend]
      split
      · exact h.caught
      rename_i hle
      split
      · next heq =>
        refine ih ?_ (series_concat hresult (heq ▸ hshows))
        rw [List.map_append, List.append_assoc]
        exact horder
      · next hne =>
        have hlt : lastEnd < boundaryOf server timeframe := by omega
        exact hfetch _ _ (.inr ⟨lastEnd, hshows, hlt, rfl⟩)

/-! ### The end of the pages -/

/-- As many candles as the clock has room for, and one more, are more than have begun since. -/
theorem length_le_needed {before after : List Candle} {timeframe : Timeframe} {lastEnd boundary : ℤ}
    (hlt : lastEnd < boundary)
    (hchronological : Chronological (startOf platform) (stopOf platform) after)
    (hstop : ∀ c ∈ after, lastEnd < stopOf platform c ∧ stopOf platform c ≤ boundary) {needed : ℕ}
    (hfits : ∀ c ∈ (before ++ after).rtake needed, Fits platform timeframe c)
    (hneeded : needed = ((boundary - lastEnd + period timeframe - 1) / period timeframe + 1).toNat) :
    after.length ≤ needed := by
  by_contra hmany
  have hall : (before ++ after).rtake needed = after.rtake needed := by
    rw [rtake_append, Nat.sub_eq_zero_of_le (by omega), List.rtake_zero, List.nil_append]
  rw [hall] at hfits
  have hsub : after.rtake needed ⊆ after := List.drop_subset _ _
  have hperiod := period_pos timeframe
  have hlow : ∀ c ∈ after.rtake needed, lastEnd - period timeframe + 1 ≤ startOf platform c := by
    intro c hc
    have hafter := (hstop c (hsub hc)).1
    have hlength := (hfits c hc).2
    omega
  have hlatest : Chronological (startOf platform) (stopOf platform) (after.rtake needed) :=
    hchronological.sublist (List.drop_sublist _ _)
  have hmul := hlatest.length_mul_le
    (fun c hc => (hfits c hc).2) hlow (fun c hc => (hstop c (hsub hc)).2) (by omega)
  have hcast : (needed : ℤ) = (boundary - lastEnd + period timeframe - 1) / period timeframe + 1 := by
    rw [hneeded]
    refine Int.toNat_of_nonneg (Int.add_nonneg ?_ (by decide))
    exact Int.ediv_nonneg (by omega) hperiod.le
  have hceil := Int.lt_ediv_add_one_mul_self (boundary - lastEnd + period timeframe - 1) hperiod
  rw [length_rtake, Nat.min_eq_left (by omega), hcast] at hmul
  omega

/-- Once all that was needed is there, the latest candles are among the cached and the fetched
    ones. -/
theorem Showing.covers {f : Fetching} (h : Showing history s f)
    (hlength : f.collected.length = f.needed) :
    (f.prior ++ f.collected).map (·.plain) ⊆
        history.upTo f.timeframe (boundaryOf f.server f.timeframe) ∧
      ∀ c ∈ history.page f.timeframe (technicalHistoryCounts f.timeframe)
        (boundaryOf f.server f.timeframe),
        c ∈ (f.prior ++ f.collected).map (·.plain) ∧ Fits platform f.timeframe c := by
  have hcollected : f.collected.map (·.plain) =
      (history.upTo f.timeframe (boundaryOf f.server f.timeframe)).rtake f.needed := by
    rw [← h.reached, rtake_append, List.length_map, hlength, Nat.sub_self, List.rtake_zero,
      List.nil_append, rtake_of_length_le (by rw [List.length_map, hlength])]
  have hfits : ∀ c ∈ f.collected.map (·.plain), Fits platform f.timeframe c := by
    intro c hc
    obtain ⟨d, hd, rfl⟩ := List.mem_map.mp hc
    exact h.fits d hd
  have hlatest : f.collected.map (·.plain) ⊆
      history.upTo f.timeframe (boundaryOf f.server f.timeframe) :=
    hcollected ▸ List.drop_subset _ _
  rw [List.map_append]
  rcases h.needs with ⟨hprior, hneeded⟩ | ⟨lastEnd, hshows, hlt, hneeded⟩
  · rw [hprior, List.map_nil, List.nil_append]
    refine ⟨hlatest, fun c hc => ?_⟩
    have hmem : c ∈ f.collected.map (·.plain) := by
      rw [hcollected, hneeded]
      exact hc
    exact ⟨hmem, hfits c hmem⟩
  · have happend : history.upTo f.timeframe (boundaryOf f.server f.timeframe) = _ :=
      history.upTo_append hlt.le
    have hprior : f.prior.map (·.plain) = (history.upTo f.timeframe lastEnd).rtake
        (technicalHistoryCounts f.timeframe) := hshows.plain
    refine ⟨List.append_subset.mpr ⟨?_, hlatest⟩, fun c hc => ?_⟩
    · rw [hprior]
      exact List.Subset.trans (List.drop_subset _ _) (history.upTo_subset hlt.le)
    · have hroom : technicalHistoryCounts f.timeframe ≤ f.needed ∨
          (((history.candles f.timeframe).filter (·.complete)).filter fun c =>
            lastEnd < stopOf platform c ∧
              stopOf platform c ≤ boundaryOf f.server f.timeframe).length ≤ f.needed := by
        rcases Nat.le_total (technicalHistoryCounts f.timeframe) ((boundaryOf f.server f.timeframe -
          lastEnd + period f.timeframe - 1) / period f.timeframe + 1).toNat with hle | hle
        · exact .inl (hneeded.trans (Nat.min_eq_left hle)).ge
        · rw [happend] at hcollected
          refine .inr (length_le_needed hlt ((history.complete_chronological f.timeframe).sublist
            List.filter_sublist) (fun c hc => ?_) (hcollected ▸ hfits)
            (hneeded.trans (Nat.min_eq_right hle)))
          simpa using (List.mem_filter.mp hc).2
      rw [BrokerHistory.page, happend] at hc
      rcases mem_windows hroom hc with hc | hc
      · rw [← hprior] at hc
        refine ⟨List.mem_append_left _ hc, hshows.fits c ?_⟩
        rw [hprior] at hc
        exact hc
      · rw [← happend, ← hcollected] at hc
        exact ⟨List.mem_append_right _ hc, hfits c hc⟩

/-- What is made of the candles is the window of the boundary. -/
theorem Showing.shows {f : Fetching} (h : Showing history s f)
    {candles : List Candle} (hcandles : CandidateHistoryCache.candlesOf platform f = .ok candles) :
    Shows history f.call.schedule f.timeframe (boundaryOf f.server f.timeframe) candles := by
  have hlength : f.collected.length = f.needed := by
    simp only [CandidateHistoryCache.candlesOf, bind_ok, require_ok] at hcandles
    exact hcandles.choose_spec.1
  obtain ⟨hsub, hall⟩ := h.covers hlength
  rw [history.candlesOf_eq hlength hsub fun c hc => (hall c hc).1] at hcandles
  exact ⟨hcandles, fun c hc => (hall c hc).2⟩

/-! ### Every run -/

/-- What the checks of a page leave. -/
theorem checkPage_ok {f : Fetching} {chunk : List Candle} {start : ℤ}
    (h : s.checkPage platform f chunk = .ok start) :
    (∃ c rest, chunk = c :: rest ∧ platform.parse c.startTime = some start) ∧
      ∀ c ∈ chunk, Fits platform f.timeframe c := by
  simp only [CandidateHistoryCache.checkPage, bind_ok, require_ok] at h
  obtain ⟨-, -, -, -, -, hcheck, h⟩ := h
  refine ⟨?_, checkChunk_fits hcheck⟩
  cases chunk with
  | nil => cases h
  | cons c rest =>
    simp only [List.head?_cons, Option.bind_some] at h
    split at h
    · rename_i t ht
      simp only [bind_ok, pure_ok, require_ok] at h
      obtain ⟨-, -, rfl⟩ := h
      exact ⟨c, rest, rfl, ht⟩
    · cases h

theorem Sound.answer (h : Sound history s) {f : Fetching} (hf : s.running = some f)
    {page : Except String (List Candle)} (hpage : ∀ chunk, page = .ok chunk →
      chunk.map (·.plain) = history.page f.timeframe f.count f.until') :
    Sound history (s.answer platform f page) := by
  have hshowing := h.running f hf
  cases page with
  | error reason => exact h.toShown.caught
  | ok chunk =>
    have hshown : Shown history { s with pages := s.pages ++ [⟨f.asked, f.timeframe, chunk⟩] } :=
      ⟨h.cache, h.ended⟩
    rw [CandidateHistoryCache.answer]
    dsimp only
    split
    · exact hshown.caught
    rename_i start hcheck
    obtain ⟨⟨c, rest, rfl, hstart⟩, hfits⟩ := checkPage_ok hcheck
    have hcandles := hpage _ rfl
    have hnext (t : CandidateHistoryCache) (hkey : t.scheduleKey = s.scheduleKey) :
        Showing history t { f with
          collected := (c :: rest) ++ f.collected
          until' := start
          page := f.page + 1
          asked := s.generation } := by
      refine ⟨hkey.trans hshowing.key, hshowing.server, hshowing.order, hshowing.result, hshowing.needs, ?_, ?_⟩
      · intro d hd
        rcases List.mem_append.mp hd with hd | hd
        · exact hfits d hd
        · exact hshowing.fits d hd
      · have hsplit : history.upTo f.timeframe f.until' =
            (history.upTo f.timeframe f.until').take
              ((history.upTo f.timeframe f.until').length - f.count) ++
            c.plain :: rest.map (·.plain) := by
          rw [← List.map_cons, hcandles, BrokerHistory.page, append_rtake]
        have hbefore := history.upTo_before hsplit
        have hfirst : startOf platform c.plain = start := by
          rw [startOf, Candle.plain, hstart, Option.getD_some]
        rw [hfirst] at hbefore
        rw [← hshowing.reached, List.map_append, ← List.append_assoc, hbefore, List.map_cons,
          ← hsplit]
    split
    · refine ⟨⟨h.cache, h.ended⟩, fun f' hf' => ?_⟩
      obtain rfl := Option.some.inj hf'
      exact hnext _ rfl
    · rw [CandidateHistoryCache.completed]
      split
      · exact hshown.caught
      · rename_i candles hcandlesOf
        have hshows := (hnext s rfl).shows hcandlesOf
        refine (hshown.set hshowing.key hshows).advance hshowing.key hshowing.server ?_
          (series_concat hshowing.result hshows)
        rw [List.map_append, List.append_assoc]
        exact hshowing.order

theorem Shown.keyed (h : Shown history s) (call : Call) :
    Shown history (s.keyed call) ∧ (s.keyed call).scheduleKey = some call.schedule := by
  rw [CandidateHistoryCache.keyed]
  split
  · next hkey => exact ⟨h, hkey⟩
  · refine ⟨⟨fun _ _ hnone => ?_, h.ended⟩, rfl⟩
    cases hnone

theorem Shown.begin (h : Shown history s) (call : Call) :
    Sound history (s.begin platform call) := by
  rw [CandidateHistoryCache.begin]
  split
  · exact h.finishRead fun _ hok => by cases hok
  obtain ⟨hkeyed, hkey⟩ := h.keyed call
  split
  · exact hkeyed.caught
  · next hserver =>
    exact hkeyed.advance hkey hserver (List.nil_append _) fun _ hnil => by cases hnil

theorem sound_step (h : Sound history s) (a : Action) (hanswer : history.Answers s a)
    {t : CandidateHistoryCache} (hstep : s.step platform a = some t) : Sound history t := by
  cases a with
  | reset =>
    obtain rfl := Option.some.inj hstep
    refine ⟨⟨fun _ _ hnone => (by cases hnone), h.ended⟩, fun f hf => ?_⟩
    obtain ⟨hkey, hserver, horder, hresult, hneeds, hfits, hreached⟩ := h.running f hf
    exact ⟨hkey, hserver, horder, hresult, hneeds, hfits, hreached⟩
  | read serverTime schedule =>
    obtain rfl := Option.some.inj hstep
    refine ⟨⟨h.cache, h.ended⟩, fun f hf => ?_⟩
    obtain ⟨hkey, hserver, horder, hresult, hneeds, hfits, hreached⟩ := h.running f hf
    exact ⟨hkey, hserver, horder, hresult, hneeds, hfits, hreached⟩
  | begin =>
    rw [CandidateHistoryCache.step] at hstep
    split at hstep
    · rename_i call queue hrunning hqueue
      obtain rfl := Option.some.inj hstep
      have hrest : Shown history { s with queue := queue } := ⟨h.cache, h.ended⟩
      exact hrest.begin call
    · cases hstep
  | answer page =>
    obtain ⟨f, hf, rfl⟩ := Option.map_eq_some_iff.mp hstep
    refine h.answer hf fun chunk hchunk => ?_
    rw [hchunk] at hanswer
    exact hanswer f hf

theorem sound_initial : Sound history .initial := by
  refine ⟨⟨?_, ?_⟩, ?_⟩
  · intro timeframe candles hnone
    cases hnone
  · intro e he
    cases he
  · intro f hf
    cases hf

/-! ### A fresh cache -/

/-- The page of a window passes its check. -/
theorem checkChunk_page {timeframe : Timeframe} {until' : ℤ} {chunk : List Candle}
    (hchronological : Chronological (startOf platform) (stopOf platform) chunk)
    (hhistory : chunk ⊆ history.candles timeframe)
    (hfits : ∀ c ∈ chunk, Fits platform timeframe c)
    (hstop : ∀ c ∈ chunk, stopOf platform c ≤ until') {previous : Option ℤ}
    (hprevious : ∀ t ∈ previous, ∀ c ∈ chunk, t < startOf platform c) :
    checkChunk platform timeframe until' previous chunk = true := by
  induction chunk generalizing previous with
  | nil => rfl
  | cons c rest ih =>
    have hc : c ∈ c :: rest := List.mem_cons_self
    have hrest : rest ⊆ c :: rest := List.subset_cons_self c rest
    obtain ⟨hstart, hend⟩ := history.parse_eq (hhistory hc)
    have htail : checkChunk platform timeframe until' (some (startOf platform c)) rest = true :=
      ih (hchronological.sublist (List.sublist_cons_self c rest)) (List.Subset.trans hrest hhistory)
        (fun d hd => hfits d (hrest hd)) (fun d hd => hstop d (hrest hd)) fun t ht d hd => by
          obtain rfl := Option.some.inj ht
          exact (List.pairwise_cons.mp hchronological.starts).1 d hd
    have hbefore : previous.all (· < startOf platform c) = true := by
      cases previous with
      | none => rfl
      | some t => exact decide_eq_true (hprevious t rfl c hc)
    rw [checkChunk, hstart, hend]
    simp [hbefore, htail, (hfits c hc).1, (hfits c hc).2, hstop c hc,
      history.plain timeframe c (hhistory hc)]

/-- A read that found nothing in the cache has fetched the latest candles in full pages. -/
structure Fresh (history : BrokerHistory platform) (s : CandidateHistoryCache) (f : Fetching) :
    Prop where
  generation : f.call.generation = s.generation
  prior : f.prior = []
  needed : f.needed = technicalHistoryCounts f.timeframe
  full : f.collected.length = 180 * f.page
  short : f.collected.length < f.needed
  reached : history.upTo f.timeframe f.until' ++ f.collected =
    history.upTo f.timeframe (boundaryOf f.server f.timeframe)

/-- The next page of the history. -/
def nextPage (history : BrokerHistory platform) (f : Fetching) : List Candle :=
  history.page f.timeframe f.count f.until'

/-- Where the history has the window, the page is accepted, and the window has grown. -/
theorem Fresh.checkPage {f : Fetching} (h : Fresh history s f) {candles : List Candle}
    (hshows : Shows history f.call.schedule f.timeframe (boundaryOf f.server f.timeframe) candles) :
    (nextPage history f).length = f.count ∧ ∃ start,
      s.checkPage platform f (nextPage history f) = .ok start ∧
      history.upTo f.timeframe start ++ (nextPage history f ++ f.collected) =
        history.upTo f.timeframe (boundaryOf f.server f.timeframe) := by
  have hshort := h.short
  have hcount : f.count = min 180 (f.needed - f.collected.length) := rfl
  have hlength : (nextPage history f).length = f.count := by
    have henough := hshows.enough
    have hneeded := h.needed
    rw [← h.reached, List.length_append] at henough
    rw [nextPage, BrokerHistory.page, length_rtake]
    omega
  have hsplit : history.upTo f.timeframe f.until' =
      (history.upTo f.timeframe f.until').take ((history.upTo f.timeframe f.until').length - f.count)
        ++ nextPage history f := (append_rtake _ _).symm
  have hsub : nextPage history f ⊆ history.upTo f.timeframe f.until' := page_subset
  have hall := List.Subset.trans hsub (history.upTo_sublist f.timeframe f.until').subset
  have hwindow : nextPage history f ++ f.collected ⊆
      history.page f.timeframe (technicalHistoryCounts f.timeframe)
        (boundaryOf f.server f.timeframe) := by
    rw [BrokerHistory.page, ← h.reached, hsplit, List.append_assoc, rtake_append]
    rw [rtake_of_length_le (l := nextPage history f ++ f.collected)]
    · exact List.subset_append_right _ _
    · have hneeded := h.needed
      rw [List.length_append, hlength]
      omega
  have hchronological := (history.upTo_chronological f.timeframe f.until').sublist
    (List.drop_sublist _ _ : (nextPage history f).Sublist _)
  have hcheck : checkChunk platform f.timeframe f.until' none (nextPage history f) = true :=
    checkChunk_page hchronological hall
      (fun c hc => hshows.fits c (hwindow (List.mem_append_left _ hc)))
      (fun c hc => history.stopOf_le (hsub hc)) fun t ht => by cases ht
  refine ⟨hlength, ?_⟩
  cases hpage : nextPage history f with
  | nil =>
    rw [hpage, List.length_nil] at hlength
    omega
  | cons c rest =>
    have hc : c ∈ nextPage history f := hpage ▸ List.mem_cons_self
    have hstart := (history.parse_eq (hall hc)).1
    have hprogress : startOf platform c < f.until' :=
      (hchronological.proper c hc).trans_le (history.stopOf_le (hsub hc))
    refine ⟨startOf platform c, ?_, ?_⟩
    · rw [hpage] at hlength hcheck
      rw [CandidateHistoryCache.checkPage, require_eq h.generation, ok_bind, require_eq hlength,
        ok_bind, require_eq hcheck, ok_bind, List.head?_cons, Option.bind_some, hstart]
      dsimp only
      rw [require_eq hprogress]
      rfl
    · rw [hpage] at hsplit
      rw [history.upTo_before hsplit, ← List.append_assoc, ← hsplit, h.reached]

/-- A read that found nothing in the cache makes the window of the history. -/
theorem drive_fetch {candles : List Candle} (r : ℕ) :
    ∀ {n : ℕ} {s : CandidateHistoryCache} {f : Fetching}, s.running = some f → Fresh history s f →
      Shows history f.call.schedule f.timeframe (boundaryOf f.server f.timeframe) candles →
      f.needed ≤ 180 * (f.page + r) → r ≤ n → ∃ (m : ℕ) (t : CandidateHistoryCache),
        n ≤ m + r ∧ t.cache = s.cache ∧ t.generation = s.generation ∧ t.ended = s.ended ∧ history.drive n s = history.drive m
          ((t.set f.timeframe candles).advance platform f.call f.server
            (f.result ++ [⟨f.timeframe, candles⟩]) f.rest) := by
  induction r with
  | zero =>
    intro n s f hf h hshows hr hn
    have hshort := h.short
    have hfull := h.full
    omega
  | succ r ih =>
    intro n s f hf h hshows hr hn
    obtain ⟨n, rfl⟩ : ∃ n', n = n' + 1 := ⟨n - 1, by omega⟩
    obtain ⟨hlength, start, hcheck, hreached⟩ := h.checkPage hshows
    have hshort := h.short
    have hfull := h.full
    have hcount : f.count = min 180 (f.needed - f.collected.length) := rfl
    have htotal : (nextPage history f ++ f.collected).length = f.count + f.collected.length := by
      rw [List.length_append, hlength]
    have hpages : f.needed ≤ 720 := by
      rw [h.needed]
      cases f.timeframe <;> decide
    have hpage : f.page + 1 < 8 ∨ ¬ (nextPage history f ++ f.collected).length < f.needed := by
      omega
    rw [BrokerHistory.drive, hf]
    dsimp only
    rw [CandidateHistoryCache.answer]
    dsimp only
    have hcheck' : CandidateHistoryCache.checkPage platform
        { s with pages := s.pages ++ [⟨f.asked, f.timeframe, nextPage history f⟩] } f
        (nextPage history f) = .ok start := hcheck
    rw [show history.page f.timeframe f.count f.until' = nextPage history f from rfl, hcheck']
    dsimp only
    split
    · rename_i hmore
      have hnext := ih (n := n) (f := { f with
          collected := nextPage history f ++ f.collected
          until' := start
          page := f.page + 1
          asked := s.generation }) (s := { s with
          pages := s.pages ++ [⟨f.asked, f.timeframe, nextPage history f⟩]
          running := some { f with
            collected := nextPage history f ++ f.collected
            until' := start
            page := f.page + 1
            asked := s.generation } }) rfl
        ⟨h.generation, h.prior, h.needed, by
          have hmore := hmore.1
          dsimp only at hmore ⊢
          omega, hmore.1, hreached⟩ hshows (by
          dsimp only
          omega) (by omega)
      obtain ⟨m, t, hm, hcache, hgeneration, hended, hdrive⟩ := hnext
      exact ⟨m, t, by omega, hcache, hgeneration, hended, hdrive⟩
    · rename_i hdone
      have hlast : (nextPage history f ++ f.collected).length = f.needed := by
        omega
      have hcollected : (nextPage history f ++ f.collected).map (·.plain) =
          history.page f.timeframe (technicalHistoryCounts f.timeframe)
            (boundaryOf f.server f.timeframe) := by
        have hrtake : history.page f.timeframe (technicalHistoryCounts f.timeframe)
            (boundaryOf f.server f.timeframe) = nextPage history f ++ f.collected := by
          rw [BrokerHistory.page, ← hreached, rtake_append, hlast, h.needed, Nat.sub_self,
            List.rtake_zero, List.nil_append, rtake_of_length_le (by rw [hlast, h.needed])]
        rw [← hrtake]
        exact history.map_plain
          (List.Subset.trans page_subset (history.upTo_sublist f.timeframe _).subset)
      have hcandles := history.candlesOf_eq (f := { f with
          collected := nextPage history f ++ f.collected
          until' := start
          page := f.page + 1
          asked := s.generation }) hlast
        (by
          dsimp only
          rw [h.prior, List.nil_append, hcollected]
          exact page_subset)
        (by
          dsimp only
          rw [h.prior, List.nil_append, hcollected]
          exact fun c hc => hc)
      refine ⟨n, { s with pages := s.pages ++ [⟨f.asked, f.timeframe, nextPage history f⟩] },
        by omega, rfl, rfl, rfl, ?_⟩
      rw [CandidateHistoryCache.completed, hcandles, hshows.finished]

/-- A read that finds nothing in the cache returns the windows of the history. -/
theorem drive_advance {call : Call} {server : ℤ} {series : List CandleSeries}
    (hseries : ∀ x ∈ series, Shows history call.schedule x.timeframe
      (boundaryOf server x.timeframe) x.candles)
    (hnodup : (series.map (·.timeframe)).Nodup) :
    ∀ {n : ℕ} {s : CandidateHistoryCache} {result : List CandleSeries},
      call.generation = s.generation → (∀ x ∈ series, s.cache x.timeframe = none) →
      8 * series.length ≤ n → (history.drive n (s.advance platform call server result
        (series.map (·.timeframe)))).ended =
          s.ended ++ [⟨call, s.generation, .ok (result ++ series)⟩] := by
  induction series with
  | nil =>
    intro n s result hgeneration hcache hn
    rw [List.map_nil, CandidateHistoryCache.advance, List.append_nil]
    cases n with
    | zero => rfl
    | succ n => rfl
  | cons x series ih =>
    intro n s result hgeneration hcache hn
    have hx := hseries x List.mem_cons_self
    have hnone := hcache x List.mem_cons_self
    obtain ⟨hnew, hnodup⟩ := List.nodup_cons.mp hnodup
    have htarget := technicalHistoryCounts_pos x.timeframe
    rw [List.length_cons] at hn
    rw [List.map_cons, CandidateHistoryCache.advance]
    simp only [hnone, Option.getD_none, List.getLast?_nil]
    let f : Fetching := {
      call, server, result
      timeframe := x.timeframe
      rest := series.map (·.timeframe)
      prior := []
      needed := technicalHistoryCounts x.timeframe
      collected := []
      until' := boundaryOf server x.timeframe
      page := 0
      asked := s.generation }
    obtain ⟨m, t, hm, htcache, htgeneration, htended, hdrive⟩ := drive_fetch 4 (n := n) (f := f)
      (s := { s with running := some f }) rfl
      ⟨hgeneration, rfl, rfl, rfl, htarget, List.append_nil _⟩ hx
      (by
        change technicalHistoryCounts x.timeframe ≤ 180 * (0 + 4)
        cases x.timeframe <;> decide) (by omega)
    have hcleared : ∀ y ∈ series, (t.set x.timeframe x.candles).cache y.timeframe = none := by
      intro y hy
      have hne : y.timeframe ≠ x.timeframe := fun heq => hnew (List.mem_map.mpr ⟨y, hy, heq⟩)
      rw [CandidateHistoryCache.set]
      dsimp only
      rw [if_neg hne, htcache]
      exact hcache y (List.mem_cons_of_mem x hy)
    rw [hdrive]
    have hnext : call.generation = (t.set x.timeframe x.candles).generation :=
      hgeneration.trans htgeneration.symm
    have hpages : 8 * series.length ≤ m := by omega
    refine (ih (fun y hy => hseries y (List.mem_cons_of_mem x hy)) hnodup hnext hcleared
      hpages).trans ?_
    simp only [CandidateHistoryCache.set, htended, htgeneration, List.append_assoc,
      List.singleton_append]
    rfl

/-- A right result is what a fresh cache returns. -/
theorem Right.drive {call : Call} {result : List CandleSeries} (h : Right history call result) :
    (history.drive 24 (CandidateHistoryCache.initial.begin platform
      ⟨0, call.serverTime, call.schedule⟩)).ended =
        [⟨⟨0, call.serverTime, call.schedule⟩, 0, .ok result⟩] := by
  obtain ⟨server, hserver, htimeframes, hshows⟩ := h
  have hnodup : (result.map (·.timeframe)).Nodup := by
    rw [htimeframes]
    decide
  have hlength : result.length = 3 := by
    rw [← List.length_map (f := fun x : CandleSeries => x.timeframe), htimeframes]
    rfl
  have hfresh : ∀ first : Call, first.generation = 0 → first.schedule = call.schedule →
      (history.drive 24 ((CandidateHistoryCache.initial.keyed first).advance platform first server
        [] timeframes)).ended = [⟨first, 0, .ok result⟩] := by
    intro first hzero hschedule
    rw [← htimeframes]
    exact drive_advance (hschedule ▸ hshows) hnodup (n := 24) hzero (fun x _ => rfl) (by omega)
  rw [CandidateHistoryCache.begin, if_neg (by simp [CandidateHistoryCache.initial])]
  simp only [hserver]
  exact hfresh _ rfl rfl

theorem Right.freshRead {call : Call} {result : List CandleSeries} (h : Right history call result) :
    history.freshRead call.serverTime call.schedule = some (.ok result) := by
  simp only [BrokerHistory.freshRead, h.drive]
  rfl

/-! ### The laws of every run -/

/-- In every run of reads, resets, pages and failures: a read that returns overlapped no reset, and
    its candles, like those in the cache, were asked for since the last one; and if the pages come
    from a fixed history, a read returns exactly the candles and flags that a fresh cache would. -/
theorem reads_of_run (history : BrokerHistory platform) {actions : List Action}
    {s : CandidateHistoryCache}
    (hrun : Transition.run (CandidateHistoryCache.step platform) .initial actions = some s) :
    (∀ e ∈ s.ended, ∀ result, e.outcome = .ok result →
      e.generation = e.call.generation ∧ AllFrom s.pages e.generation result ∧
      (Transition.Guarded (CandidateHistoryCache.step platform) history.Answers .initial actions →
        history.freshRead e.call.serverTime e.call.schedule = some (.ok result))) ∧
    ∀ timeframe candles, s.cache timeframe = some candles →
      From s.pages s.generation timeframe candles := by
  have hrecent : Recent s :=
    Transition.invariant (fun _ a _ h hstep => recent_step h a hstep) recent_initial hrun
  refine ⟨fun e he result hresult => ?_, hrecent.cache⟩
  obtain ⟨hgeneration, hfrom⟩ := hrecent.ended e he result hresult
  refine ⟨hgeneration, hfrom, fun hanswers => ?_⟩
  have hsound : Sound history s := Transition.invariant_run
    (fun _ a _ h hanswer hstep => sound_step h a hanswer hstep) sound_initial hanswers hrun
  exact (hsound.ended e he result hresult).freshRead

/-- A read whose pages come from the history is a run. -/
theorem drive_run (history : BrokerHistory platform) (n : ℕ) (s : CandidateHistoryCache) :
    ∃ actions, Transition.run (CandidateHistoryCache.step platform) s actions =
        some (history.drive n s) ∧
      Transition.Guarded (CandidateHistoryCache.step platform) history.Answers s actions := by
  induction n generalizing s with
  | zero => exact ⟨[], rfl, trivial⟩
  | succ n ih =>
    cases hf : s.running with
    | none =>
      rw [BrokerHistory.drive, hf]
      exact ⟨[], rfl, trivial⟩
    | some f =>
      obtain ⟨actions, hrun, hanswers⟩ :=
        ih (s.answer platform f (.ok (history.page f.timeframe f.count f.until')))
      have hstep : s.step platform (.answer (.ok (history.page f.timeframe f.count f.until'))) =
          some (s.answer platform f (.ok (history.page f.timeframe f.count f.until'))) := by
        rw [CandidateHistoryCache.step, hf]
        rfl
      refine ⟨.answer (.ok (history.page f.timeframe f.count f.until')) :: actions, ?_, ?_, ?_⟩
      · rw [BrokerHistory.drive, hf]
        exact Transition.run_cons.mpr ⟨_, hstep, hrun⟩
      · intro f' hf'
        obtain rfl := Option.some.inj (hf.symm.trans hf')
        exact history.map_plain
          (List.Subset.trans page_subset (history.upTo_sublist f.timeframe _).subset)
      · intro t ht
        obtain rfl := Option.some.inj (hstep.symm.trans ht)
        exact hanswers

/-- So is the first read of a cache. -/
theorem first_run (history : BrokerHistory platform) (serverTime : String)
    (schedule : WeeklyTradingSchedule) :
    ∃ actions, Transition.run (CandidateHistoryCache.step platform) .initial actions =
        some (history.drive 24 (CandidateHistoryCache.initial.begin platform
          ⟨0, serverTime, schedule⟩)) ∧
      Transition.Guarded (CandidateHistoryCache.step platform) history.Answers .initial actions := by
  obtain ⟨actions, hrun, hanswers⟩ := drive_run history 24
    (CandidateHistoryCache.initial.begin platform ⟨0, serverTime, schedule⟩)
  refine ⟨.read serverTime schedule :: .begin :: actions,
    Transition.run_cons.mpr ⟨_, rfl, Transition.run_cons.mpr ⟨_, rfl, hrun⟩⟩, trivial, ?_⟩
  intro t ht
  obtain rfl := Option.some.inj ht
  refine ⟨trivial, ?_⟩
  intro u hu
  obtain rfl := Option.some.inj hu
  exact hanswers

namespace Sample

/-- Texts that count the milliseconds. -/
def text (t : ℕ) : String := String.ofList (List.replicate t '0')

def clock : Platform where
  parse t := some t.length
  localParts _ := none

theorem parse_text (t : ℕ) : clock.parse (text t) = some (t : ℤ) := by
  simp [clock, text]

/-- The period in milliseconds. -/
def width : Timeframe → ℕ
  | .m1 => 60000
  | .m5 => 300000
  | .m15 => 900000

def bar (timeframe : Timeframe) (i : ℕ) : Candle where
  startTime := text (i * width timeframe)
  endTime := text ((i + 1) * width timeframe)
  openPrice := "100"
  high := "102"
  low := "99"
  close := "101"
  volume := some "1"
  complete := true
  qualityFlags := []

def bars (timeframe : Timeframe) : List Candle :=
  (List.range' (432000000 / width timeframe - technicalHistoryCounts timeframe)
    (technicalHistoryCounts timeframe)).map (bar timeframe)

theorem start_bar (timeframe : Timeframe) (i : ℕ) :
    clock.parse (bar timeframe i).startTime = some ((i * width timeframe : ℕ) : ℤ) := parse_text _

theorem stop_bar (timeframe : Timeframe) (i : ℕ) :
    clock.parse (bar timeframe i).endTime = some (((i + 1) * width timeframe : ℕ) : ℤ) :=
  parse_text _

/-- Candles without a gap, up to the fifth day. -/
def brokerHistory : BrokerHistory clock where
  candles := bars
  plain timeframe c hc := by
    obtain ⟨i, -, rfl⟩ := List.mem_map.mp hc
    rfl
  timed timeframe c hc := by
    obtain ⟨i, -, rfl⟩ := List.mem_map.mp hc
    refine ⟨_, _, start_bar timeframe i, stop_bar timeframe i, ?_⟩
    have hwidth : 0 < width timeframe := by cases timeframe <;> decide
    rw [Nat.add_mul, one_mul]
    omega
  ordered timeframe := by
    refine List.pairwise_map.mpr ((List.pairwise_lt_range' 1).imp fun {i j} h => ?_)
    refine ⟨_, _, stop_bar timeframe i, start_bar timeframe j, ?_⟩
    exact Int.ofNat_le.mpr (Nat.mul_le_mul_right _ h)

def schedule : WeeklyTradingSchedule := ⟨"UTC", [⟨0, 604800⟩], []⟩

theorem upTo_bars (timeframe : Timeframe) :
    brokerHistory.upTo timeframe 432000000 = bars timeframe := by
  refine List.filter_eq_self.mpr fun c hc => ?_
  obtain ⟨i, hi, rfl⟩ := List.mem_map.mp hc
  rw [List.mem_range'_1] at hi
  rw [stop_bar]
  have hend : (i + 1) * width timeframe ≤ 432000000 := by
    cases timeframe <;> simp only [width, technicalHistoryCounts] at hi ⊢ <;> omega
  simp only [bar, Option.any_some, Bool.true_and, decide_eq_true_eq]
  exact_mod_cast hend

theorem mark_bars (timeframe : Timeframe) (i n : ℕ) :
    clock.markAfter (period timeframe) schedule (bar timeframe i)
      ((List.range' (i + 1) n).map (bar timeframe)) =
      .ok ((List.range' (i + 1) n).map (bar timeframe)) := by
  induction n generalizing i with
  | zero => rfl
  | succ n ih =>
    have hgap : clock.sessionGap (bar timeframe i) (bar timeframe (i + 1)) (period timeframe)
        schedule = .ok false := by
      rw [Platform.sessionGap, stop_bar, start_bar]
      dsimp only
      rw [if_pos (.inl (by omega))]
    rw [List.range'_succ, List.map_cons, Platform.markAfter, hgap, ok_bind, ih, ok_bind]
    rfl

theorem verified_bars (timeframe : Timeframe) (i n : ℕ) :
    verified ((List.range' i n).map (bar timeframe)) = true := by
  induction n generalizing i with
  | zero => rfl
  | succ n ih =>
    cases n with
    | zero => rfl
    | succ n =>
      have hrest := ih (i + 1)
      rw [List.range'_succ, List.map_cons] at hrest
      rw [List.range'_succ, List.range'_succ, List.map_cons, List.map_cons, verified, hrest]
      simp [bar]

theorem shows_bars (timeframe : Timeframe) :
    Shows brokerHistory schedule timeframe 432000000 (bars timeframe) := by
  have hlength : (bars timeframe).length = technicalHistoryCounts timeframe := by
    rw [bars, List.length_map, List.length_range']
  have hpage : brokerHistory.page timeframe (technicalHistoryCounts timeframe) 432000000 =
      bars timeframe := by
    rw [BrokerHistory.page, upTo_bars, rtake_of_length_le hlength.le]
  constructor
  · have hmark : clock.markBrokerSessionGaps (bars timeframe) (period timeframe) schedule =
        .ok (bars timeframe) := by
      unfold Platform.markBrokerSessionGaps
      rw [require_eq (by cases timeframe <;> decide), ok_bind]
      obtain ⟨n, hn⟩ : ∃ n, technicalHistoryCounts timeframe = n + 1 :=
        ⟨technicalHistoryCounts timeframe - 1, by
          have hpos := technicalHistoryCounts_pos timeframe
          omega⟩
      rw [bars, hn, List.range'_succ, List.map_cons]
      dsimp only
      rw [mark_bars, ok_bind]
      rfl
    have hlast : ((bars timeframe).getLast?.bind fun c => clock.parse c.endTime) =
        some 432000000 := by
      rw [bars, List.getLast?_map, List.getLast?_range']
      cases timeframe <;> simp [technicalHistoryCounts, width, stop_bar]
    have hverified : verified (bars timeframe) = true := verified_bars timeframe _ _
    rw [hpage, finish, hmark, ok_bind, require_eq ⟨hlength, hlast⟩, ok_bind, require_eq hverified]
    rfl
  · intro c hc
    rw [hpage] at hc
    obtain ⟨i, -, rfl⟩ := List.mem_map.mp hc
    refine ⟨rfl, ?_⟩
    rw [stopOf, startOf, start_bar, stop_bar]
    cases timeframe <;> simp [width, period] <;> ring

/-- The first read, with all its pages. -/
theorem reads_of_run_first : ∃ actions s,
    Transition.run (CandidateHistoryCache.step clock) .initial actions = some s ∧
    s.ended = [⟨⟨0, text 432000000, schedule⟩, 0,
      .ok (timeframes.map fun timeframe => ⟨timeframe, bars timeframe⟩)⟩] ∧
    brokerHistory.freshRead (text 432000000) schedule =
      some (.ok (timeframes.map fun timeframe => ⟨timeframe, bars timeframe⟩)) := by
  have hright : Right brokerHistory ⟨0, text 432000000, schedule⟩
      (timeframes.map fun timeframe => ⟨timeframe, bars timeframe⟩) := by
    refine ⟨432000000, parse_text _, rfl, fun x hx => ?_⟩
    obtain ⟨timeframe, -, rfl⟩ := List.mem_map.mp hx
    have hboundary : boundaryOf 432000000 timeframe = 432000000 := by
      cases timeframe <;> decide
    rw [hboundary]
    exact shows_bars timeframe
  generalize text 432000000 = serverTime at hright ⊢
  generalize (timeframes.map fun timeframe => (⟨timeframe, bars timeframe⟩ : CandleSeries)) = result
    at hright ⊢
  obtain ⟨actions, hrun, hanswers⟩ := first_run brokerHistory serverTime schedule
  have hended := hright.drive
  refine ⟨actions, _, hrun, hended, ?_⟩
  have hlaws := (reads_of_run brokerHistory hrun).1 ⟨⟨0, serverTime, schedule⟩, 0, .ok result⟩
    (by rw [hended]; exact List.mem_singleton_self _) result rfl
  exact hlaws.2.2 hanswers

end Sample

end ScalpingBot.Candles
