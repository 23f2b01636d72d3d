import ScalpingBot.Gateway.Evolution

/-! The second leg of a pair is sent only behind a first leg that is pending, unfilled and certain;
    a tracked order's filled volume only grows; and a terminal order does not become PENDING again
    unless reports take it there by way of another state: `#applyExecution` compares a PENDING
    report with the present state only, so a terminal order that a report has made UNKNOWN (or
    PARTIALLY_FILLED without volume) is open to an old acceptance. -/

namespace ScalpingBot.Gateway

open CTraderDemoGateway

variable {o : CTraderDemoGatewayOptions} {g g' : CTraderDemoGateway} {ev : Env × Event} {ref : ℕ}

/-- The order is in `#orders`. -/
def Tracked (g : CTraderDemoGateway) (ref : ℕ) : Prop := ∃ id, g.orders id = some ref

/-! ### Dispatch -/

/-- A dispatch of the second leg of the running pair, and the state it was made in. -/
theorem dispatch_second (hi : Inv g) (h : step o g ev = some g') {p : Placement}
    {first second : ℕ} (hp : g.placing = some p)
    (horders : p.orders = [first, second]) {l : List Sent} (hsent : g'.sent = l ++ g.sent)
    (hmem : .place second ∈ l) :
    (g.tracked first).state = .pending ∧ (g.tracked first).filledVolume = 0 ∧
      g.uncertainReason = none := by
  have hne : first ≠ second := by
    have hstage : p.stage ≠ .preflight := fun hpre => by
      have := (hi.placing p hp).fresh hpre
      simp [horders] at this
    have hnodup := hi.group_nodup _ ((hi.placing p hp).group hstage)
    simpa [groupOf, horders] using hnodup
  obtain ⟨g1, hcore, hframe⟩ := effect_step h
  obtain ⟨ids, hids⟩ := hframe.sent
  have hplace : ∀ m : List Sent, g1.sent = m ++ g.sent → l = ids.map Sent.cancel ++ m :=
    fun m hm => List.append_cancel_right (by rw [← hsent, hids, hm, List.append_assoc])
  rcases core_sent hcore with hsame | ⟨p', hp', hs⟩ | ⟨p', hp', hs, hcheck⟩
  · rw [hplace [] hsame] at hmem
    simp at hmem
  · obtain rfl : p = p' := Option.some.inj (hp.symm.trans hp')
    rw [hplace [.place (firstOf p)] hs] at hmem
    simp [firstOf, horders, hne.symm] at hmem
  · obtain rfl : p = p' := Option.some.inj (hp.symm.trans hp')
    simpa [firstOf, horders] using hcheck

/-! ### Volumes -/

theorem filledVolume_step (hi : Inv g) (h : step o g ev = some g') (ht : Tracked g ref)
    (ht' : Tracked g' ref) : (g.tracked ref).filledVolume ≤ (g'.tracked ref).filledVolume := by
  obtain ⟨id, hid⟩ := ht
  cases evolves_step hi h (hi.order_ref hid) with
  | same h => rw [h]
  | reported e order report he horder hread h hlatch =>
    rw [h.filledVolume]
    exact (accepted hread).volume
  | rejected h => rw [h.filledVolume]
  | retired h hgone input hev =>
    obtain ⟨id', hid'⟩ := ht'
    exact absurd hid' (hgone id')

/-! ### Terminal states -/

/-- The order can no longer become PENDING: it is terminal, or filled in part and not PENDING. -/
def Final (x : TrackedOrder) : Prop := x.state.terminal ∨ (0 < x.filledVolume ∧ x.state ≠ .pending)

/-- No report takes a terminal order, without volume, to UNKNOWN or PARTIALLY_FILLED; none takes
    an order with volume that is not PENDING to PENDING. -/
def KeepsFinal (g : CTraderDemoGateway) (ev : Env × Event) : Prop :=
  ∀ e order ref report, reportOf ev.2 = some e → e.order = some order →
    g.readReport e order = .ok (some (ref, report)) →
    ((g.tracked ref).state.terminal → ¬ 0 < report.filledVolume →
      report.state ≠ .unknown ∧ report.state ≠ .partiallyFilled) ∧
    (0 < (g.tracked ref).filledVolume → (g.tracked ref).state ≠ .pending → report.state ≠ .pending)

theorem terminal_cases (s : ExternalOrderState) :
    s.terminal ∨ s = .pending ∨ s = .unknown ∨ s = .partiallyFilled := by
  cases s <;> decide

theorem final_step (hi : Inv g) (hkeep : KeepsFinal g ev) (h : step o g ev = some g')
    (href : ref < g.created) (hf : Final (g.tracked ref)) : Final (g'.tracked ref) := by
  cases evolves_step hi h href with
  | same h => rw [h]; exact hf
  | rejected h => exact Or.inl (by rw [h.state]; decide)
  | retired h hgone input hev => exact Or.inl h.state
  | reported e order report he horder hread h hlatch =>
    obtain ⟨hterm, hvol⟩ := hkeep e order ref report he horder hread
    obtain ⟨-, -, hle, hpending⟩ := accepted hread
    unfold Final
    rw [h.state, h.filledVolume]
    rcases hf with hf | ⟨hpos, hnot⟩
    · have hnp : report.state ≠ .pending := fun hp => hpending hp hf
      by_cases hv : 0 < report.filledVolume
      · exact Or.inr ⟨hv, hnp⟩
      · obtain ⟨hu, hpf⟩ := hterm hf hv
        exact Or.inl ((terminal_cases report.state).resolve_right (by simp [hnp, hu, hpf]))
    · exact Or.inr ⟨lt_of_lt_of_le hpos hle, hvol hpos hnot⟩

theorem final_not_pending {x : TrackedOrder} (h : Final x) : x.state ≠ .pending := by
  rintro hp
  rcases h with h | ⟨-, h⟩
  · rw [hp] at h
    cases h
  · exact h hp

/-- From any reachable state: the second leg is dispatched behind a pending, unfilled first leg
    only, volumes grow, and along reports that keep final states a terminal order that is still
    tracked never is PENDING. -/
theorem second_leg_waits_and_terminal_stays (o : CTraderDemoGatewayOptions)
    (es : List (Env × Event)) (g : CTraderDemoGateway) (hrun : Run o es g) :
    (∀ ev g' p first second l, step o g ev = some g' → g.placing = some p →
      p.orders = [first, second] → g'.sent = l ++ g.sent → .place second ∈ l → (g.tracked first).state = .pending ∧
        (g.tracked first).filledVolume = 0 ∧ g.uncertainReason = none) ∧
    (∀ ev g' ref, step o g ev = some g' → Tracked g ref → Tracked g' ref →
      (g.tracked ref).filledVolume ≤ (g'.tracked ref).filledVolume) ∧
    ∀ es' g' ref, Transition.Guarded (step o) KeepsFinal g es' →
      Transition.run (step o) g es' = some g' → Tracked g ref →
      (g.tracked ref).state.terminal → (g'.tracked ref).state ≠ .pending := by
  have hi := inv_run hrun
  refine ⟨fun ev g' p first second l h hp horders hsent hmem =>
      dispatch_second hi h hp horders hsent hmem,
    fun ev g' ref h ht ht' => filledVolume_step hi h ht ht',
    fun es' g' ref hguard hrun' ht hterm => ?_⟩
  obtain ⟨id, hid⟩ := ht
  have hlast := Transition.invariant_run
    (I := fun s => Inv s ∧ ref < s.created ∧ Final (s.tracked ref)) ?_
    ⟨hi, hi.order_ref hid, Or.inl hterm⟩ hguard hrun'
  · exact final_not_pending hlast.2.2
  · rintro s ev t ⟨his, href, hfinal⟩ hkeep hstep
    exact ⟨inv_step o s ev t his hstep, Nat.lt_of_lt_of_le href (created_step hstep),
      final_step his hkeep hstep href hfinal⟩

/-! ### An expired order -/

/-- A callback of the given type for the buy leg of the sample pair `a`, without volume. -/
def statusReport (type status : ℕ) : Env × Event :=
  ({ now := 1 }, .callback (Sample.report type (Sample.record "a" .buy status 0)))

/-- The part of `KeepsFinal` that one event decides. -/
def keepsFinal (g : CTraderDemoGateway) (ev : Env × Event) : Bool :=
  match reportOf ev.2 with
  | none => true
  | some e =>
    match e.order with
    | none => true
    | some order =>
      match g.readReport e order with
      | .ok (some (ref, report)) =>
        ((g.tracked ref).state.terminal → ¬ 0 < report.filledVolume →
          report.state ≠ .unknown ∧ report.state ≠ .partiallyFilled) ∧
        (0 < (g.tracked ref).filledVolume → (g.tracked ref).state ≠ .pending →
          report.state ≠ .pending)
      | _ => true

theorem keepsFinal_sound (g : CTraderDemoGateway) (ev : Env × Event) (h : keepsFinal g ev) :
    KeepsFinal g ev := by
  intro e order ref report he horder hread
  simp only [keepsFinal, he, horder, hread, decide_eq_true_eq] at h
  exact h

/-- An acceptance that comes after the expiry leaves the order expired. -/
theorem second_leg_waits_and_terminal_stays_late : ∃ g g',
    Run Sample.options (Sample.found "a" ++ [statusReport 6 4]) g ∧
    Transition.run (step Sample.options) g [statusReport 2 1] = some g' ∧
    (g.tracked 0).state = .expired ∧ (g'.tracked 0).state ≠ .pending := by
  have h : (Transition.run (step Sample.options) initial
      (Sample.found "a" ++ [statusReport 6 4])).bind (fun g =>
        (Transition.run (step Sample.options) g [statusReport 2 1]).map fun _ =>
          (Transition.checkRun (step Sample.options) keepsFinal g [statusReport 2 1],
            g.orders "a-b", (g.tracked 0).state)) = some (true, some 0, .expired) := by
    decide +kernel
  obtain ⟨g, hrun, hg⟩ := Option.bind_eq_some_iff.mp h
  obtain ⟨g', hrun', hg'⟩ := Option.map_eq_some_iff.mp hg
  simp only [Prod.mk.injEq] at hg'
  obtain ⟨hguard, hid, hstate⟩ := hg'
  refine ⟨g, g', hrun, hrun', hstate, ?_⟩
  exact (second_leg_waits_and_terminal_stays _ _ g hrun).2.2 [statusReport 2 1] g' 0
    (Transition.guarded_of_checkRun keepsFinal_sound hguard) hrun' ⟨"a-b", hid⟩
    (by rw [hstate]; decide)

/-- By way of UNKNOWN, a late acceptance makes an expired order PENDING. -/
theorem expired_becomes_pending : ∃ g g',
    Run Sample.options (Sample.found "a" ++ [statusReport 6 4]) g ∧
    Transition.run (step Sample.options) g [statusReport 8 6, statusReport 2 1] = some g' ∧
    Tracked g 0 ∧ (g.tracked 0).state = .expired ∧
    Tracked g' 0 ∧ (g'.tracked 0).state = .pending := by
  have h : (Transition.run (step Sample.options) initial
      (Sample.found "a" ++ [statusReport 6 4])).bind (fun g =>
        (Transition.run (step Sample.options) g [statusReport 8 6, statusReport 2 1]).map fun g' =>
          (g.orders "a-b", (g.tracked 0).state, g'.orders "a-b", (g'.tracked 0).state)) =
      some (some 0, .expired, some 0, .pending) := by
    decide +kernel
  obtain ⟨g, hrun, hg⟩ := Option.bind_eq_some_iff.mp h
  obtain ⟨g', hrun', hg'⟩ := Option.map_eq_some_iff.mp hg
  simp only [Prod.mk.injEq] at hg'
  exact ⟨g, g', hrun, hrun', ⟨_, hg'.1⟩, hg'.2.1, ⟨_, hg'.2.2.1⟩, hg'.2.2.2⟩

end ScalpingBot.Gateway
