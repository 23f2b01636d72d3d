import ScalpingBot.Candles.Resets

/-! The history of the broker as a cache sees it: the pages are windows of it, and merging the
    fetched candles with the cached ones gives the window of the new boundary. -/

namespace ScalpingBot.Candles

open Window

variable {platform : Platform}

/-- When a candle ends. -/
def stopOf (platform : Platform) (c : Candle) : ℤ := (platform.parse c.endTime).getD 0

/-- A complete candle of its period. -/
def Fits (platform : Platform) (timeframe : Timeframe) (c : Candle) : Prop :=
  c.complete ∧ stopOf platform c - startOf platform c = period timeframe

/-- The candles of a page that passes its checks. -/
theorem checkChunk_fits {timeframe : Timeframe} {until' : ℤ} {previous : Option ℤ}
    {chunk : List Candle} (h : checkChunk platform timeframe until' previous chunk = true) :
    ∀ c ∈ chunk, Fits platform timeframe c := by
  induction chunk generalizing previous with
  | nil => exact fun c hc => by cases hc
  | cons c rest ih =>
    rw [checkChunk] at h
    split at h
    · rename_i start stop hstart hstop
      simp only [Bool.and_eq_true, decide_eq_true_eq] at h
      obtain ⟨⟨⟨⟨⟨hcomplete, -⟩, hperiod⟩, -⟩, -⟩, hrest⟩ := h
      intro d hd
      rcases List.mem_cons.mp hd with rfl | hd
      · refine ⟨hcomplete, ?_⟩
        rw [stopOf, startOf, hstart, hstop]
        exact hperiod
      · exact ih hrest d hd
    · cases h

namespace BrokerHistory

variable (history : BrokerHistory platform) {timeframe : Timeframe}

/-- Where the texts are read as instants. -/
theorem parse_eq {c : Candle} (hc : c ∈ history.candles timeframe) :
    platform.parse c.startTime = some (startOf platform c) ∧
      platform.parse c.endTime = some (stopOf platform c) := by
  obtain ⟨start, stop, hstart, hstop, -⟩ := history.timed timeframe c hc
  exact ⟨by rw [startOf, hstart, Option.getD_some], by rw [stopOf, hstop, Option.getD_some]⟩

theorem chronological (timeframe : Timeframe) :
    Chronological (startOf platform) (stopOf platform) (history.candles timeframe) := by
  refine ⟨fun c hc => ?_, (history.ordered timeframe).imp ?_⟩
  · obtain ⟨start, stop, hstart, hstop, hlt⟩ := history.timed timeframe c hc
    rw [startOf, stopOf, hstart, hstop]
    exact hlt
  · rintro a b ⟨stop, start, hstop, hstart, hle⟩
    rw [startOf, stopOf, hstart, hstop]
    exact hle

theorem upTo_eq (timeframe : Timeframe) (until' : ℤ) : history.upTo timeframe until' =
    ((history.candles timeframe).filter (·.complete)).filter fun c =>
      stopOf platform c ≤ until' := by
  rw [upTo, List.filter_filter]
  refine List.filter_congr fun c hc => ?_
  rw [(history.parse_eq hc).2, Bool.and_comm]
  rfl

/-- The complete candles. -/
theorem complete_chronological (timeframe : Timeframe) :
    Chronological (startOf platform) (stopOf platform)
      ((history.candles timeframe).filter (·.complete)) :=
  (history.chronological timeframe).sublist List.filter_sublist

theorem upTo_sublist (timeframe : Timeframe) (until' : ℤ) :
    (history.upTo timeframe until').Sublist (history.candles timeframe) := List.filter_sublist

theorem upTo_chronological (timeframe : Timeframe) (until' : ℤ) :
    Chronological (startOf platform) (stopOf platform) (history.upTo timeframe until') :=
  (history.chronological timeframe).sublist (history.upTo_sublist timeframe until')

theorem stopOf_le {c : Candle} {until' : ℤ} (hc : c ∈ history.upTo timeframe until') :
    stopOf platform c ≤ until' := by
  rw [upTo_eq, List.mem_filter] at hc
  simpa using hc.2

/-- The candles of the history carry no flags. -/
theorem plain_eq {c : Candle} (hc : c ∈ history.candles timeframe) : c.plain = c := by
  have hflags := history.plain timeframe c hc
  cases c
  subst hflags
  rfl

theorem map_plain {l : List Candle} (h : l ⊆ history.candles timeframe) :
    l.map (·.plain) = l :=
  (List.map_congr_left fun _ hc => history.plain_eq (h hc)).trans (List.map_id l)

theorem upTo_append {t u : ℤ} (h : t ≤ u) : history.upTo timeframe u = history.upTo timeframe t ++
    ((history.candles timeframe).filter (·.complete)).filter fun c =>
      t < stopOf platform c ∧ stopOf platform c ≤ u := by
  rw [upTo_eq, upTo_eq]
  exact (history.complete_chronological timeframe).filter_append h

theorem upTo_subset {t u : ℤ} (h : t ≤ u) :
    history.upTo timeframe t ⊆ history.upTo timeframe u := by
  rw [history.upTo_append h]
  exact List.subset_append_left _ _

/-- What ends before a candle starts comes before it. -/
theorem upTo_before {u : ℤ} {before after : List Candle} {c : Candle}
    (h : history.upTo timeframe u = before ++ c :: after) :
    history.upTo timeframe (startOf platform c) = before := by
  have hchronological := history.upTo_chronological timeframe u
  have hc : c ∈ history.upTo timeframe u := by simp [h]
  have hle : startOf platform c ≤ u :=
    (hchronological.proper c hc).le.trans (history.stopOf_le hc)
  rw [h] at hchronological
  rw [← hchronological.filter_before, ← h, upTo_eq, upTo_eq]
  generalize (history.candles timeframe).filter (·.complete) = l
  rw [List.filter_filter]
  refine List.filter_congr fun d _ => ?_
  by_cases hd : stopOf platform d ≤ startOf platform c
  · simp [hd, hd.trans hle]
  · simp [hd]

/-- The time at which it starts tells a candle apart. -/
theorem startTime_inj {a b : Candle} (ha : a ∈ history.candles timeframe)
    (hb : b ∈ history.candles timeframe) (h : a.startTime = b.startTime) : a = b := by
  have hstarts : ((history.candles timeframe).map (startOf platform)).Nodup :=
    List.pairwise_map.mpr ((history.chronological timeframe).starts.imp ne_of_lt)
  exact List.inj_on_of_nodup_map hstarts ha hb (by rw [startOf, startOf, h])

/-! ### Merging -/

/-- The window that is made of entries from the history, among them its latest candles. -/
theorem rawWindow_eq {entries : List Candle} {boundary : ℤ}
    (hsub : entries.map (·.plain) ⊆ history.upTo timeframe boundary)
    (hall : history.page timeframe (technicalHistoryCounts timeframe) boundary ⊆
      entries.map (·.plain)) :
    rawWindow platform timeframe (entries.foldl setByTime []) =
      history.page timeframe (technicalHistoryCounts timeframe) boundary := by
  have hupTo := (history.upTo_sublist timeframe boundary).subset
  have hentries : ((entries.map (·.plain)).foldl setByTime []).Nodup ∧
      ∀ c, c ∈ (entries.map (·.plain)).foldl setByTime [] ↔
        c ∈ ([] : List Candle) ∨ c ∈ entries.map (·.plain) :=
    foldl_put (fun a ha b hb => history.startTime_inj (hupTo ha) (hupTo hb))
      (fun _ hnil => by cases hnil) hsub List.nodup_nil
  obtain ⟨hnodup, hmem⟩ := hentries
  have hsorted := sort_eq_filter (p := fun c => c ∈ entries.map (·.plain))
    (history.upTo_chronological timeframe boundary).starts hnodup
    (fun c hc => hsub (by simpa using (hmem c).mp hc))
    (fun c _ => by rw [decide_eq_true_iff, hmem]; simp)
  have hplain : (entries.foldl setByTime []).map (·.plain) =
      (entries.map (·.plain)).foldl setByTime [] :=
    map_foldl_put (f := fun c => c.plain) (fun _ => rfl) entries
  have hmap := List.map_mergeSort (l := entries.foldl setByTime []) (f := fun c : Candle => c.plain)
    (r := fun a b => startOf platform a ≤ startOf platform b)
    (s := fun a b => startOf platform a ≤ startOf platform b) fun _ _ _ _ => rfl
  rw [rawWindow, ← map_rtake, hmap, hplain, hsorted, rtake_filter, page]
  exact fun c hc => by simpa using hall hc

/-- Candles of a fixed history do not contradict each other. -/
theorem merge_eq_ok {values candles : List Candle}
    (hvalues : values.map (·.plain) ⊆ history.candles timeframe)
    (hcandles : candles.map (·.plain) ⊆ history.candles timeframe) :
    merge values candles = .ok (candles.foldl setByTime values) := by
  induction candles generalizing values with
  | nil => rfl
  | cons c rest ih =>
    have hc : c.plain ∈ history.candles timeframe := hcandles (by simp)
    have hrest : rest.map (·.plain) ⊆ history.candles timeframe := fun d hd => hcandles (by
      rw [List.map_cons]
      exact List.mem_cons_of_mem _ hd)
    have hagree : (values.find? (·.startTime = c.startTime)).any (conflicts · c) = false := by
      cases hfind : values.find? (·.startTime = c.startTime) with
      | none => rfl
      | some old =>
        have hold : old.plain ∈ history.candles timeframe :=
          hvalues (List.mem_map_of_mem (List.mem_of_find?_eq_some hfind))
        have hkey : old.startTime = c.startTime := by simpa using List.find?_some hfind
        have hsame : old.plain = c.plain := history.startTime_inj hold hc hkey
        have hfields : conflicts old.plain c = conflicts c.plain c :=
          congrArg (conflicts · c) hsame
        rw [Option.any_some]
        exact hfields.trans (by simp [conflicts, Candle.plain])
    rw [merge, if_neg (by simp [hagree]), List.foldl_cons]
    refine ih (fun d hd => ?_) hrest
    obtain ⟨v, hv, rfl⟩ := List.mem_map.mp hd
    rcases mem_put hv with hv | rfl
    · exact hvalues (List.mem_map_of_mem hv)
    · exact hc

/-- What is made of the cached and the fetched candles of the history, if the latest ones are among
    them. -/
theorem candlesOf_eq {f : Fetching} (hlength : f.collected.length = f.needed)
    (hsub : (f.prior ++ f.collected).map (·.plain) ⊆
      history.upTo f.timeframe (boundaryOf f.server f.timeframe))
    (hall : history.page f.timeframe (technicalHistoryCounts f.timeframe)
      (boundaryOf f.server f.timeframe) ⊆ (f.prior ++ f.collected).map (·.plain)) :
    CandidateHistoryCache.candlesOf platform f = finish platform f.call.schedule f.timeframe
      (boundaryOf f.server f.timeframe) (history.page f.timeframe
        (technicalHistoryCounts f.timeframe) (boundaryOf f.server f.timeframe)) := by
  have hupTo := List.Subset.trans hsub (history.upTo_sublist f.timeframe _).subset
  rw [List.map_append] at hupTo
  obtain ⟨hprior, hcollected⟩ := List.append_subset.mp hupTo
  have hmerge : merge (f.prior.foldl setByTime []) f.collected =
      .ok ((f.prior ++ f.collected).foldl setByTime []) := by
    rw [List.foldl_append]
    refine history.merge_eq_ok (fun d hd => ?_) hcollected
    obtain ⟨v, hv, rfl⟩ := List.mem_map.mp hd
    rcases mem_foldl_put hv with hv | hv
    · cases hv
    · exact hprior (List.mem_map_of_mem hv)
  rw [CandidateHistoryCache.candlesOf, require_eq hlength, ok_bind, hmerge, ok_bind,
    history.rawWindow_eq hsub hall]

end BrokerHistory

end ScalpingBot.Candles
