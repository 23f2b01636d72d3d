import Mathlib.Data.List.Perm.Basic
import ScalpingBot.Store.Reports

/-! Whether the row of an order depends on the order in which the broker's reports are delivered.
    The row's state is a last-writer-wins register stamped by the broker's time, and everything
    else in it is a maximum or a count; so the row is monotone and confluent exactly if the times
    of the reports order the states that must not replace each other. -/

namespace ScalpingBot.Store

variable {o : PostgresDemoExecutionStoreOptions} {t0 t t' : Tables} {r : OrderRow} {id : String}
  {E es es' : List DemoExecutionEvent} {e : DemoExecutionEvent} {ds ds' : List Delivery}

/-! ### The row as a register -/

/-- The register of an order's state. -/
def OrderRow.register (r : OrderRow) : LatestWins.Register ℕ OrderState :=
  ⟨r.state, r.brokerUpdatedAt⟩

theorem register_reports : (r.reports es).register =
    LatestWins.writes DemoExecutionEvent.time DemoExecutionEvent.reportedState r.register es := by
  induction es using List.reverseRecOn with
  | nil => rfl
  | append_singleton es e ih =>
    rw [reports_concat, LatestWins.writes_concat, ← ih]
    have hlater : ∀ s : Option ℕ, max (s.getD e.time) e.time = LatestWins.later s e.time :=
      fun s => by cases s <;> simp [LatestWins.later]
    simp only [OrderRow.register, OrderRow.report, LatestWins.write, hlater]
    rfl

theorem state_reports : (r.reports es).state = (LatestWins.writes DemoExecutionEvent.time
    DemoExecutionEvent.reportedState r.register es).value :=
  congrArg LatestWins.Register.value register_reports

theorem filledVolume_pos (hr : r.filledVolume = 0) :
    0 < (r.reports es).filledVolume ↔ ∃ e ∈ es, 0 < e.reportedVolume := by
  induction es using List.reverseRecOn with
  | nil => simp [OrderRow.reports, hr]
  | append_singleton es e ih =>
    rw [reports_concat]
    simp only [OrderRow.report, lt_max_iff, ih, List.mem_append, List.mem_singleton, or_and_right,
      exists_or, exists_eq_left]

/-- The row without its state. -/
def OrderRow.unstated (r : OrderRow) : OrderRow := { r with state := .unknown }

theorem unstated_reports :
    (r.reports es).unstated = es.foldl (fun r e => (r.report e).unstated) r.unstated := by
  induction es using List.reverseRecOn with
  | nil => rfl
  | append_singleton es e ih =>
    rw [reports_concat, List.foldl_append, ← ih]
    rfl

/-- Apart from its state, the row does not depend on the order of the reports. -/
theorem unstated_perm (hperm : es.Perm es') (hid : ∀ e ∈ es, e.brokerOrderId = some id) :
    (r.reports es).unstated = (r.reports es').unstated := by
  rw [unstated_reports, unstated_reports]
  refine hperm.foldl_eq' (fun a ha b hb q => ?_) _
  simp only [OrderRow.unstated, OrderRow.report, hid a ha, hid b hb, OrderRow.mk.injEq, true_and,
    and_true]
  refine ⟨max_right_comm .., ?_, max_right_comm ..⟩
  cases q.brokerUpdatedAt <;> simp [max_comm, max_left_comm, max_assoc]

/-! ### Runs of deliveries -/

/-- Every delivery brings one of the reports. -/
def Delivers (E : List DemoExecutionEvent) (ds : List Delivery) : Prop :=
  ∀ d ∈ ds, ∃ e ∈ E, d.Brings e

theorem persistAll_append :
    persistAll o t (ds ++ ds') = persistAll o t ds >>= fun t => persistAll o t ds' := by
  induction ds generalizing t with
  | nil => rfl
  | cons d ds ih =>
    simp only [List.cons_append, persistAll, ih]
    cases persist o t d.event d.source d.acknowledgement <;> rfl

theorem reported_nil (hun : Unreported o t r id E) : Reported o t t r E [] where
  nodup := List.nodup_nil
  sub := by simp
  orders := by
    refine (List.map_id'' (fun q => ?_) _).symm
    split
    · next h => exact h.symm
    · rfl
  groups _ := rfl
  recorded := by simp
  unrecorded e he _ := hun.fresh e he
  fills := by simpa using hun.fills
  positions := hun.positions

theorem Brings.key {d : Delivery} (h : d.Brings e) : d.event.eventKey = e.eventKey := by
  rw [h]

/-- A run of deliveries applies each report it brings once. -/
theorem Reported.run (hun : Unreported o t0 r id E) (hrep : Reported o t0 t r E es)
    (hds : Delivers E ds) (h : persistAll o t ds = .ok t') :
    ∃ es', Reported o t0 t' r E es' ∧ ∀ e ∈ E, e ∈ es' ↔ e ∈ es ∨ ∃ d ∈ ds, d.Brings e := by
  induction ds generalizing t es with
  | nil =>
    cases h
    exact ⟨es, hrep, by simp⟩
  | cons d ds ih =>
    obtain ⟨⟨t1, result⟩, h1, h⟩ := bind_ok.mp h
    obtain ⟨e, he, hbrings⟩ := hds d (by simp)
    have honly : ∀ e' ∈ E, d.Brings e' → e' = e := fun e' he' h' =>
      hun.keys e' he' e he ((Brings.key h').symm.trans (Brings.key hbrings))
    have hds' : Delivers E ds := fun d' hd' => hds d' (List.mem_cons_of_mem d hd')
    by_cases hes : e ∈ es
    · obtain ⟨es', hrep', hmem⟩ := ih (hrep.again hun hes hbrings h1) hds' h
      refine ⟨es', hrep', fun e' he' => (hmem e' he').trans ⟨?_, ?_⟩⟩
      · rintro (hold | ⟨d', hd', hb⟩)
        · exact Or.inl hold
        · exact Or.inr ⟨d', List.mem_cons_of_mem d hd', hb⟩
      · rintro (hold | ⟨d', hd', hb⟩)
        · exact Or.inl hold
        · rcases List.mem_cons.mp hd' with rfl | hd'
          · exact Or.inl (honly e' he' hb ▸ hes)
          · exact Or.inr ⟨d', hd', hb⟩
    · obtain ⟨es', hrep', hmem⟩ := ih (hrep.first hun he hes hbrings h1) hds' h
      refine ⟨es', hrep', fun e' he' => (hmem e' he').trans ⟨?_, ?_⟩⟩
      · rintro (hold | ⟨d', hd', hb⟩)
        · rcases List.mem_append.mp hold with hold | hlast
          · exact Or.inl hold
          · exact Or.inr ⟨d, by simp, List.mem_singleton.mp hlast ▸ hbrings⟩
        · exact Or.inr ⟨d', List.mem_cons_of_mem d hd', hb⟩
      · rintro (hold | ⟨d', hd', hb⟩)
        · exact Or.inl (List.mem_append_left _ hold)
        · rcases List.mem_cons.mp hd' with rfl | hd'
          · exact Or.inl (honly e' he' hb ▸ List.mem_append_right _ (by simp))
          · exact Or.inr ⟨d', hd', hb⟩

/-- The first delivery of a report, with nothing else. -/
def plain (e : DemoExecutionEvent) : Delivery := { event := e }

theorem persistAll_one {d : Delivery} {result : DemoExecutionPersistenceResult}
    (h : persist o t d.event d.source d.acknowledgement = .ok (t', result)) :
    persistAll o t [d] = .ok t' :=
  bind_ok.mpr ⟨_, h, rfl⟩

/-- Any of the reports can be delivered in any order. -/
theorem persistAll_plain (hun : Unreported o t0 r id E) (hes : es.Nodup)
    (hsub : ∀ e ∈ es, e ∈ E) :
    ∃ t, persistAll o t0 (es.map plain) = .ok t ∧ Reported o t0 t r E es := by
  induction es using List.reverseRecOn with
  | nil => exact ⟨t0, rfl, reported_nil hun⟩
  | append_singleton es e ih =>
    obtain ⟨hnodup, -, hdisjoint⟩ := List.nodup_append.mp hes
    obtain ⟨t, hrun, hrep⟩ := ih hnodup fun e he => hsub e (List.mem_append_left _ he)
    have he : e ∈ E := hsub e (by simp)
    have hnot : e ∉ es := fun hin => hdisjoint e hin e (by simp) rfl
    obtain ⟨t', result, hok⟩ := persist_report_ok hun hrep he hnot
    refine ⟨t', ?_, hrep.first hun he hnot rfl hok⟩
    rw [List.map_append, persistAll_append, hrun]
    exact persistAll_one hok

theorem delivers_plain (hsub : ∀ e ∈ es, e ∈ E) : Delivers E (es.map plain) := by
  intro d hd
  obtain ⟨e, he, rfl⟩ := List.mem_map.mp hd
  exact ⟨e, hsub e he, rfl⟩

/-! ### Monotony and confluence -/

def Tables.order (t : Tables) (id : ℕ) : Option OrderRow := t.orders.find? fun q => q.id = id

/-- Over all deliveries of the reports `E` from `t` on, the row `id` keeps its volume and a terminal
    state, is PENDING only while no fill is recorded for it, and ends the same once all reports are
    delivered. -/
structure RowMonotone (o : PostgresDemoExecutionStoreOptions) (t : Tables) (id : ℕ)
    (E : List DemoExecutionEvent) : Prop where
  step : ∀ ds d t1 t2 q1 q2, Delivers E (ds ++ [d]) → persistAll o t ds = .ok t1 →
    persistAll o t1 [d] = .ok t2 → t1.order id = some q1 → t2.order id = some q2 →
    q1.filledVolume ≤ q2.filledVolume ∧ (q1.state.terminal → q2.state.terminal)
  pending : ∀ ds t1 q, Delivers E ds → persistAll o t ds = .ok t1 → t1.order id = some q →
    q.state = .pending → q.filledVolume = 0 ∧ ∀ f ∈ t1.fills, f.orderId ≠ some id
  confluent : ∀ ds ds' t1 t2, Delivers E ds → Delivers E ds' →
    (∀ e ∈ E, ∃ d ∈ ds, d.Brings e) → (∀ e ∈ E, ∃ d ∈ ds', d.Brings e) →
    persistAll o t ds = .ok t1 → persistAll o t ds' = .ok t2 → t1.order id = t2.order id

/-- The times of the reports order the states that must not replace each other: terminal states are
    later than others, fills are later than PENDING, and the latest reports agree. -/
structure OrderedReports (E : List DemoExecutionEvent) : Prop where
  terminal : ∀ e ∈ E, ∀ e' ∈ E, e.reportedState.terminal → ¬ e'.reportedState.terminal →
    e'.time < e.time
  pending : ∀ e ∈ E, e.Fills → e.reportedState ≠ .pending ∧
    ∀ e' ∈ E, e'.reportedState = .pending → e'.time < e.time
  latest : ∀ e ∈ E, ∀ e' ∈ E, (∀ v ∈ E, v.time ≤ e.time) → (∀ v ∈ E, v.time ≤ e'.time) →
    e.reportedState = e'.reportedState

theorem order_of_reported (hun : Unreported o t0 r id E) (hrep : Reported o t0 t r E es) :
    t.order r.id = some (r.reports es) := order_reported hun hrep

/-- A fill is recorded for the order if one of the applied reports brings one. -/
theorem fill_recorded (hun : Unreported o t0 r id E) (hrep : Reported o t0 t r E es) :
    (¬ ((r.reports es).filledVolume = 0 ∧ ∀ f ∈ t.fills, f.orderId ≠ some r.id)) ↔
      ∃ e ∈ es, e.Fills := by
  have h0 : 0 ≤ (r.reports es).filledVolume := by
    induction es using List.reverseRecOn with
    | nil => exact hun.filledVolume.ge
    | append_singleton es e _ =>
      rw [reports_concat]
      exact (hun.reports e (hrep.sub e (by simp))).volume.1.trans (le_max_right _ _)
  rw [not_and_or, ← ne_eq, ← h0.lt_iff_ne', filledVolume_pos hun.filledVolume]
  have hfills : (¬ ∀ f ∈ t.fills, f.orderId ≠ some r.id) ↔ ∃ e ∈ es, e.fill.isSome := by
    rw [← hrep.fills]
    simp
  rw [hfills]
  simp only [DemoExecutionEvent.Fills, and_or_left, exists_or]

/-- The row is monotone and confluent exactly if the times of the reports order their states. -/
theorem rowMonotone_iff (hun : Unreported o t r id E) :
    RowMonotone o t r.id E ↔ OrderedReports E := by
  have hnew : r.register.stamp = none := hun.brokerUpdatedAt
  have hstart : ¬ r.register.value.terminal = true := by
    rw [show r.register.value = r.state from rfl, hun.state]
    simp
  constructor
  · intro hmono
    refine ⟨?_, ?_, ?_⟩
    · refine (LatestWins.keeps_iff (E := {e | e ∈ E}) (P := fun s => s.terminal = true)
        hnew hstart).mp fun es hes hsub e he hnot hP => ?_
      obtain ⟨t1, hrun, hrep⟩ := persistAll_plain hun hes hsub
      obtain ⟨t2, result, hok⟩ := persist_report_ok hun hrep he hnot
      have hrep2 := hrep.first hun he hnot rfl hok
      rw [← state_reports] at hP ⊢
      refine (hmono.step (es.map plain) (plain e) t1 t2 _ _ ?_ hrun (persistAll_one hok)
        (order_of_reported hun hrep) (order_of_reported hun hrep2)).2 hP
      intro d hd
      rcases List.mem_append.mp hd with hold | hlast
      · exact delivers_plain hsub d hold
      · exact ⟨e, he, List.mem_singleton.mp hlast ▸ rfl⟩
    · refine (LatestWins.never_iff (E := {e | e ∈ E}) (P := fun s => s = .pending)
        (F := DemoExecutionEvent.Fills) hnew).mp fun es hes hsub hfill hpending => ?_
      obtain ⟨t1, hrun, hrep⟩ := persistAll_plain hun hes hsub
      rw [← state_reports] at hpending
      exact (fill_recorded hun hrep).mpr hfill
        (hmono.pending _ t1 _ (delivers_plain hsub) hrun (order_of_reported hun hrep) hpending)
    · have := (LatestWins.confluent_iff (l := E.dedup) (f := DemoExecutionEvent.time)
        (g := DemoExecutionEvent.reportedState) hnew).mp fun es es' hes hes' => ?_
      · simpa using this
      · have hsub : ∀ {l : List DemoExecutionEvent}, l.Perm E.dedup → ∀ e, e ∈ l ↔ e ∈ E :=
          fun hl e => hl.mem_iff.trans List.mem_dedup
        have hall : ∀ {l : List DemoExecutionEvent}, l.Perm E.dedup →
            ∀ e ∈ E, ∃ d ∈ l.map plain, d.Brings e := fun hl e he =>
          ⟨plain e, List.mem_map_of_mem ((hsub hl e).mpr he), rfl⟩
        obtain ⟨t1, hrun1, hrep1⟩ := persistAll_plain hun (hes.nodup_iff.mpr (List.nodup_dedup E))
          fun e he => (hsub hes e).mp he
        obtain ⟨t2, hrun2, hrep2⟩ := persistAll_plain hun
          (hes'.nodup_iff.mpr (List.nodup_dedup E)) fun e he => (hsub hes' e).mp he
        have hsame := hmono.confluent _ _ t1 t2 (delivers_plain fun e he => (hsub hes e).mp he)
          (delivers_plain fun e he => (hsub hes' e).mp he) (hall hes) (hall hes') hrun1 hrun2
        rw [order_of_reported hun hrep1, order_of_reported hun hrep2] at hsame
        rw [← state_reports, ← state_reports]
        exact congrArg OrderRow.state (Option.some.inj hsame)
  · intro hordered
    refine ⟨?_, ?_, ?_⟩
    · intro ds d t1 t2 q1 q2 hds hrun hstep hq1 hq2
      obtain ⟨es, hrep, -⟩ := (reported_nil hun).run hun
        (fun d' hd' => hds d' (List.mem_append_left _ hd')) hrun
      obtain ⟨e, he, hbrings⟩ := hds d (by simp)
      obtain ⟨⟨t2', result⟩, hok, hrest⟩ := bind_ok.mp hstep
      cases hrest
      obtain rfl : r.reports es = q1 := Option.some.inj ((order_of_reported hun hrep).symm.trans hq1)
      by_cases hes : e ∈ es
      · have hrep2 := hrep.again hun hes hbrings hok
        obtain rfl : r.reports es = q2 :=
          Option.some.inj ((order_of_reported hun hrep2).symm.trans hq2)
        exact ⟨le_rfl, fun h => h⟩
      · have hrep2 := hrep.first hun he hes hbrings hok
        obtain rfl : r.reports (es ++ [e]) = q2 :=
          Option.some.inj ((order_of_reported hun hrep2).symm.trans hq2)
        refine ⟨by rw [reports_concat]; exact le_max_left _ _, ?_⟩
        rw [state_reports, state_reports]
        exact (LatestWins.keeps_iff (E := {e | e ∈ E}) (f := DemoExecutionEvent.time)
          (g := DemoExecutionEvent.reportedState) (P := fun s => s.terminal = true)
          hnew hstart).mpr hordered.terminal es hrep.nodup hrep.sub e he hes
    · intro ds t1 q hds hrun hq hpending
      obtain ⟨es, hrep, -⟩ := (reported_nil hun).run hun hds hrun
      obtain rfl : r.reports es = q := Option.some.inj ((order_of_reported hun hrep).symm.trans hq)
      by_contra hfill
      refine (LatestWins.never_iff (E := {e | e ∈ E}) (f := DemoExecutionEvent.time)
        (g := DemoExecutionEvent.reportedState) (P := fun s => s = .pending)
        (F := DemoExecutionEvent.Fills) hnew).mpr hordered.pending es hrep.nodup hrep.sub
        ((fill_recorded hun hrep).mp hfill) ?_
      rw [← state_reports]
      exact hpending
    · intro ds ds' t1 t2 hds hds' hall hall' hrun hrun'
      obtain ⟨es, hrep, hmem⟩ := (reported_nil hun).run hun hds hrun
      obtain ⟨es', hrep', hmem'⟩ := (reported_nil hun).run hun hds' hrun'
      have hperm : ∀ {l : List DemoExecutionEvent}, l.Nodup → (∀ e ∈ l, e ∈ E) →
          (∀ e ∈ E, e ∈ l) → l.Perm E.dedup := fun hl hsub hfull =>
        (List.perm_ext_iff_of_nodup hl (List.nodup_dedup E)).mpr fun e =>
          ⟨fun he => List.mem_dedup.mpr (hsub e he), fun he => hfull e (List.mem_dedup.mp he)⟩
      have h1 := hperm hrep.nodup hrep.sub fun e he => (hmem e he).mpr (Or.inr (hall e he))
      have h2 := hperm hrep'.nodup hrep'.sub fun e he => (hmem' e he).mpr (Or.inr (hall' e he))
      have hstate : (r.reports es).state = (r.reports es').state := by
        rw [state_reports, state_reports]
        refine (LatestWins.confluent_iff (l := E.dedup) (f := DemoExecutionEvent.time)
          (g := DemoExecutionEvent.reportedState) hnew).mpr ?_ es es' h1 h2
        simpa using hordered.latest
      have hrest := unstated_perm (r := r) (h1.trans h2.symm)
        fun e he => (hun.reports e (hrep.sub e he)).brokerOrderId
      rw [order_of_reported hun hrep, order_of_reported hun hrep']
      congr 1
      calc r.reports es = { (r.reports es).unstated with state := (r.reports es).state } := rfl
        _ = { (r.reports es').unstated with state := (r.reports es').state } := by
          rw [hrest, hstate]
        _ = r.reports es' := rfl

/-! ### Acceptance and fill -/

/-- An acceptance at `time`, and the fill at time 2. -/
def acceptedAndFilled (time : ℕ) : List DemoExecutionEvent :=
  [Sample.report "event:1" 2 .pending 0 time, Sample.entry]

theorem unreported_sample (time : ℕ) :
    Unreported Sample.options Sample.store Sample.order "1" (acceptedAndFilled time) where
  mem := by simp [Sample.store]
  account := rfl
  symbol := by decide
  brokerOrderId := Or.inl rfl
  sole := by simp [Sample.store]
  nodup := by simp [Sample.store]
  brokerUpdatedAt := rfl
  state := rfl
  filledVolume := rfl
  fills := by simp [Sample.store]
  positions := ⟨by simp [Sample.store], by simp [Sample.store]⟩
  reports := by
    simp only [acceptedAndFilled, List.mem_cons, List.not_mem_nil, or_false, forall_eq_or_imp,
      forall_eq]
    constructor
    · refine ⟨⟨_, _, rfl, rfl⟩, rfl, Or.inl rfl, rfl, rfl, ?_, ?_, ?_, ?_⟩ <;>
        simp [Sample.report, Sample.order, DemoExecutionEvent.reportedVolume]
    · refine ⟨⟨_, _, rfl, rfl⟩, rfl, Or.inl rfl, rfl, rfl, ?_, ?_, ?_, ?_⟩ <;>
        simp [Sample.entry, Sample.report, Sample.order, DemoExecutionEvent.reportedVolume]
  keys := by simp [acceptedAndFilled, Sample.entry, Sample.report]
  fresh := by simp [acceptedAndFilled, Sample.store, Tables.event]

/-- The row is monotone when the fill is later than the acceptance. -/
theorem accepted_before_filled :
    RowMonotone Sample.options Sample.store 2 (acceptedAndFilled 1) := by
  refine (rowMonotone_iff (unreported_sample 1)).mpr ⟨?_, ?_, ?_⟩ <;>
    simp [acceptedAndFilled, Sample.entry, Sample.report, DemoExecutionEvent.reportedState,
      DemoExecutionEvent.time, DemoExecutionEvent.Fills, DemoExecutionEvent.reportedVolume,
      orderStateOf, OrderState.terminal]

theorem toOption_eq_some {ε α : Type} {x : Except ε α} {a : α} (h : x.toOption = some a) :
    x = .ok a := by
  cases x with
  | error e => cases h
  | ok b => cases h; rfl

/-- With equal times, an acceptance that is delivered after the fill makes the order PENDING. -/
theorem filled_becomes_pending :
    ¬ RowMonotone Sample.options Sample.store 2 (acceptedAndFilled 2) := by
  intro h
  have hrun : (persistAll Sample.options Sample.store [plain Sample.entry]).toOption.any (fun t1 =>
      (t1.order 2).any (·.state.terminal) ∧
      (persistAll Sample.options t1 [plain (Sample.report "event:1" 2 .pending 0 2)]).toOption.any
        fun t2 => (t2.order 2).any (!·.state.terminal)) = true := by
    decide +kernel
  obtain ⟨t1, h1, hany⟩ := (Option.any_eq_true _ _).mp hrun
  obtain ⟨hterminal, hstep⟩ := of_decide_eq_true hany
  obtain ⟨q1, hq1, hq1state⟩ := (Option.any_eq_true _ _).mp hterminal
  obtain ⟨t2, h2, hopen⟩ := (Option.any_eq_true _ _).mp hstep
  obtain ⟨q2, hq2, hq2state⟩ := (Option.any_eq_true _ _).mp hopen
  have hds : Delivers (acceptedAndFilled 2)
      ([plain Sample.entry] ++ [plain (Sample.report "event:1" 2 .pending 0 2)]) := by
    intro d hd
    rcases List.mem_append.mp hd with hd | hd <;> rw [List.mem_singleton.mp hd]
    · exact ⟨Sample.entry, by simp [acceptedAndFilled], rfl⟩
    · exact ⟨Sample.report "event:1" 2 .pending 0 2, by simp [acceptedAndFilled], rfl⟩
  have hkeeps := (h.step _ _ t1 t2 q1 q2 hds (toOption_eq_some h1) (toOption_eq_some h2) hq1
    hq2).2 hq1state
  simp [hkeeps] at hq2state

end ScalpingBot.Store
