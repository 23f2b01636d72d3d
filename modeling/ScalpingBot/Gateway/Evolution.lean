import ScalpingBot.Gateway.Shape
import Mathlib.Data.List.Dedup

/-! What one event can make of a tracked order: nothing, what an accepted report says, a rejection
    by the placement itself, or its retirement by a recovery. -/

namespace ScalpingBot.Gateway

open CTraderDemoGateway

/-- The order as it was, but rejected. -/
structure Rejected (old new : TrackedOrder) : Prop where
  command : new.command = old.command
  brokerOrderId : new.brokerOrderId = old.brokerOrderId
  state : new.state = .rejected
  filledVolume : new.filledVolume = old.filledVolume

/-- The order in the final state that a recovery proved. -/
structure Retired (old new : TrackedOrder) : Prop where
  command : new.command = old.command
  state : new.state.terminal
  filledVolume : 0 ≤ new.filledVolume

inductive Evolves (o : CTraderDemoGatewayOptions) (g : CTraderDemoGateway) (ev : Event)
    (g1 : CTraderDemoGateway) (ref : ℕ) : Prop
  | same (h : g1.tracked ref = g.tracked ref)
  | reported (e : BrokerExecution) (order : BrokerOrder) (report : Report)
      (he : reportOf ev = some e) (horder : e.order = some order)
      (hread : g.readReport e order = .ok (some (ref, report)))
      (h : Reported (g.tracked ref) (g1.tracked ref) report)
      (hlatch : g1.uncertainReason = none → ¬ FillLatches o g e order ref)
  | rejected (h : Rejected (g.tracked ref) (g1.tracked ref))
  | retired (h : Retired (g.tracked ref) (g1.tracked ref)) (hgone : ∀ id, g1.orders id ≠ some ref)
      (input : TerminalRecovery) (hev : ev = .acknowledge input)

namespace CTraderDemoGateway

variable {o : CTraderDemoGatewayOptions} {g g' g1 : CTraderDemoGateway} {ev : Event} {ref : ℕ}

/-- An id leads to an order with this id. -/
def Keyed (g : CTraderDemoGateway) : Prop :=
  ∀ id ref, g.orders id = some ref → (g.tracked ref).command.clientOrderId = id

theorem reject_tracked (now : ℕ) (rc : String) : ∀ (refs : List ℕ) (g : CTraderDemoGateway) (ref : ℕ),
    (g.reject now rc refs).tracked ref = g.tracked ref ∨
      Rejected (g.tracked ref) ((g.reject now rc refs).tracked ref)
  | [], _, _ => Or.inl rfl
  | r :: refs, g, ref => by
    have hhead : (g.setTracked r { g.tracked r with
        state := .rejected, updatedAt := now, reasonCode := some rc }).tracked ref = g.tracked ref ∨
        Rejected (g.tracked ref) ((g.setTracked r { g.tracked r with
          state := .rejected, updatedAt := now, reasonCode := some rc }).tracked ref) := by
      by_cases hr : ref = r
      · subst hr
        exact Or.inr (by simpa [setTracked] using ⟨rfl, rfl, rfl, rfl⟩)
      · exact Or.inl (by simp [setTracked, Function.update_of_ne hr])
    rcases reject_tracked now rc refs (g.setTracked r _) ref with hsame | hrej
    · rw [show (g.reject now rc (r :: refs)).tracked ref = _ from hsame]
      exact hhead
    · refine Or.inr ?_
      rcases hhead with heq | hr
      · rw [heq] at hrej
        exact hrej
      · exact ⟨hrej.command.trans hr.command, hrej.brokerOrderId.trans hr.brokerOrderId,
          hrej.state, hrej.filledVolume.trans hr.filledVolume⟩

/-! ### Retirement -/

theorem retire_other {input : TerminalRecovery} {r : ℕ} (h : r ≠ ref) :
    (g.retire input ref).tracked r = g.tracked r := by
  unfold retire
  simp only
  split
  · rfl
  · simp [setTracked, Function.update_of_ne h]

theorem retire_self {input : TerminalRecovery} {proof : GatewayOrder}
    (h : input.orders.find? (fun p => p.clientOrderId = (g.tracked ref).command.clientOrderId) =
      some proof) (hterm : proof.state.terminal) (hvol : 0 ≤ proof.filledVolume) :
    Retired (g.tracked ref) ((g.retire input ref).tracked ref) ∧
      (g.retire input ref).orders (g.tracked ref).command.clientOrderId = none := by
  unfold retire
  simp only [h]
  exact ⟨⟨by simp, by simpa using hterm, by simpa using hvol⟩, by simp⟩

/-- Every order of the list has a terminal proof. -/
def Proved (g : CTraderDemoGateway) (input : TerminalRecovery) (refs : List ℕ) : Prop :=
  ∀ ref ∈ refs, ∃ proof, input.orders.find? (fun p =>
      p.clientOrderId = (g.tracked ref).command.clientOrderId) = some proof ∧
    proof.state.terminal ∧ 0 ≤ proof.filledVolume

theorem retireAll_tracked {input : TerminalRecovery} : ∀ (refs : List ℕ) (g : CTraderDemoGateway),
    refs.Nodup → Proved g input refs → ∀ ref,
      (ref ∉ refs → (refs.foldl (fun g ref => g.retire input ref) g).tracked ref = g.tracked ref) ∧
      (ref ∈ refs →
        Retired (g.tracked ref) ((refs.foldl (fun g ref => g.retire input ref) g).tracked ref) ∧
        (refs.foldl (fun g ref => g.retire input ref) g).orders
          (g.tracked ref).command.clientOrderId = none)
  | [], _, _, _, _ => ⟨fun _ => rfl, fun h => by cases h⟩
  | r :: refs, g, hnodup, hproved, ref => by
    obtain ⟨hr, hnodup⟩ := List.nodup_cons.mp hnodup
    have hsame : ∀ x ∈ refs, (g.retire input r).tracked x = g.tracked x := fun x hx =>
      retire_other fun he => hr (he ▸ hx)
    have hrest : Proved (g.retire input r) input refs := fun x hx => by
      rw [hsame x hx]
      exact hproved x (List.mem_cons_of_mem _ hx)
    obtain ⟨hout, hin⟩ := retireAll_tracked refs (g.retire input r) hnodup hrest ref
    refine ⟨fun hnot => ?_, fun hmem => ?_⟩
    · rw [List.mem_cons, not_or] at hnot
      exact (hout hnot.2).trans (retire_other hnot.1)
    · by_cases hx : ref ∈ refs
      · rw [hsame ref hx] at hin
        exact hin hx
      · obtain rfl : ref = r := (List.mem_cons.mp hmem).resolve_right hx
        obtain ⟨proof, hfind, hterm, hvol⟩ := hproved ref hmem
        obtain ⟨hretired, hnone⟩ := retire_self hfind hterm hvol
        have hkeep := (retireAll_maps input refs (g.retire input ref)).2.2.2.2.2
        refine ⟨(hout hx).symm ▸ hretired, ?_⟩
        rw [List.foldl_cons]
        by_contra hsome
        obtain ⟨x, hx⟩ := Option.ne_none_iff_exists'.mp hsome
        rw [hkeep _ _ hx] at hnone
        cases hnone

theorem proved_of_recoveredGroup {input : TerminalRecovery} {group : TrackedGroup}
    (h : g.recoveredGroup input = some group) : Proved g input group.orders := by
  unfold recoveredGroup at h
  split at h
  · cases h
  · split at h
    · cases h
    · next found _ =>
      split at h
      · next hcheck =>
        cases h
        obtain ⟨hlen, hdedup, hall⟩ := hcheck
        -- as many ids as orders: the evidence names each order once
        have hnodup : (input.orders.map (·.clientOrderId)).Nodup := by
          rw [← List.dedup_eq_self]
          refine (List.dedup_sublist _).eq_of_length ?_
          rw [hdedup, List.length_map, hlen]
        intro ref href
        obtain ⟨proof, hproof, hterm⟩ := List.any_eq_true.mp (List.all_eq_true.mp hall ref href)
        simp only [provesTerminal, decide_eq_true_eq] at hterm
        obtain ⟨hid, -, hstate, hvol, -, -⟩ := hterm
        cases hfind : input.orders.find? (fun p =>
            p.clientOrderId = (g.tracked ref).command.clientOrderId) with
        | none => exact absurd (List.find?_eq_none.mp hfind proof hproof) (by simp [hid])
        | some proof' =>
          have hid' : proof'.clientOrderId = proof.clientOrderId := by
            have := List.find?_some hfind
            simp only [decide_eq_true_eq] at this
            rw [this, hid]
          obtain rfl : proof' = proof :=
            List.inj_on_of_nodup_map hnodup (List.mem_of_find?_eq_some hfind) hproof hid'
          exact ⟨_, rfl, hstate, hvol⟩
      · cases h

/-! ### One event -/

theorem latchFill_uncertain {reason : UncertainReason} {gid : String} :
    (g.latchFill reason gid).uncertainReason ≠ none := by
  unfold latchFill
  split <;> simp [latch]

theorem evolves_applied {e : BrokerExecution} (he : reportOf ev = some e)
    (h : Applied o g e g1) (ref : ℕ) : Evolves o g ev g1 ref := by
  cases h with
  | ignored => exact .same rfl
  | updated order r report x horder hread hx hno =>
    by_cases hr : ref = r
    · subst hr
      exact .reported e order report he horder hread (by simpa using hx) fun _ => hno
    · exact .same (by simp [setTracked, Function.update_of_ne hr])
  | latched order r report x price reason horder hread hx =>
    by_cases hr : ref = r
    · subst hr
      exact .reported e order report he horder hread (by simpa using hx) fun hnone =>
        absurd hnone latchFill_uncertain
    · exact .same (by simp [setTracked, Function.update_of_ne hr])

theorem evolves_latch {reason : UncertainReason} {gid : String} (h : Evolves o g ev g1 ref) :
    Evolves o g ev (g1.latch reason gid) ref := by
  cases h with
  | same h => exact .same h
  | reported e order report he horder hread h hlatch =>
    exact .reported e order report he horder hread h nofun
  | rejected h => exact .rejected h
  | retired h hgone input hev => exact .retired h hgone input hev

theorem evolves_of_core (h : Core o g ev g1) (hs : Shape g) (hk : Keyed g)
    (href : ref < g.created) : Evolves o g ev g1 ref := by
  cases h with
  | nothing | latched | dispatchedFirst | dispatchedSecond => exact .same rfl
  | reported e he _ happ => exact evolves_applied he happ ref
  | reportedLatched e he _ happ => exact evolves_latch (evolves_applied he happ ref)
  | rejected now rc refs =>
    rcases reject_tracked now rc refs g ref with hsame | hrej
    · exact .same hsame
    · exact .rejected hrej
  | created | recovered => exact .same (track_tracked_old href)
  | acknowledged input hev _ hack =>
    rcases acknowledge_cases hack with ⟨rfl, -⟩ | ⟨group, hmem, hgroup, htracked, _, _, _, _, _, horders, _⟩
    · exact .same rfl
    · obtain ⟨hout, hin⟩ := retireAll_tracked group.orders g (hs.group_nodup group hmem)
        (proved_of_recoveredGroup hgroup) ref
      by_cases hr : ref ∈ group.orders
      · obtain ⟨hretired, hnone⟩ := hin hr
        refine .retired (htracked ▸ hretired) (fun id hid => ?_) input hev
        rw [horders] at hid
        have hold := (retireAll_maps input group.orders g).2.2.2.2.2 id ref hid
        rw [hk id ref hold, hid] at hnone
        cases hnone
      · exact .same (htracked ▸ hout hr)

theorem evolves_command (h : Evolves o g ev g1 ref) :
    (g1.tracked ref).command = (g.tracked ref).command := by
  cases h with
  | same h => rw [h]
  | reported e order report he horder hread h hlatch => exact h.command
  | rejected h => exact h.command
  | retired h hgone input hev => exact h.command

/-- An id leads to an old order only if it did so before. -/
theorem orders_of_core {id : String} (h : Core o g ev g1) (href : ref < g.created)
    (hid : g1.orders id = some ref) : g.orders id = some ref := by
  have htrack : ∀ key gid orders, (g.track key gid orders).1.orders id = some ref →
      g.orders id = some ref := fun key gid orders hid => by
    rcases track_orders hid with hnew | hold
    · exact absurd ((mem_track key gid).mp hnew).1 (by omega)
    · exact hold
  cases h with
  | nothing | latched | dispatchedFirst | dispatchedSecond => exact hid
  | reported e he _ happ | reportedLatched e he _ happ => exact happ.maps.2.2.1 ▸ hid
  | rejected now rc refs => exact (reject_maps now rc refs g).2.2.1 ▸ hid
  | created => exact htrack _ _ _ hid
  | recovered => exact htrack _ _ _ hid
  | acknowledged input hev _ hack =>
    rcases acknowledge_cases hack with ⟨rfl, -⟩ | ⟨group, _, _, _, _, _, _, _, _, horders, _⟩
    · exact hid
    · rw [horders] at hid
      exact (retireAll_maps input group.orders g).2.2.2.2.2 id ref hid

theorem Keyed.track (h : Keyed g) (hs : Shape g) (key gid : String) (orders : List TrackedOrder) :
    Keyed (g.track key gid orders).1 := by
  intro id ref hid
  have hkeep : g.orders id = some ref →
      ((g.track key gid orders).1.tracked ref).command.clientOrderId = id := fun hold => by
    obtain ⟨group, hgroup, hmem⟩ := hs.order_group id ref hold
    rw [track_tracked_old (hs.group_ref group hgroup ref hmem)]
    exact h id ref hold
  simp only [CTraderDemoGateway.track] at hid
  split at hid
  · next r hr =>
    cases hid
    have hmem := List.mem_reverse.mp (List.mem_of_find?_eq_some hr)
    obtain ⟨i, hi, hget⟩ := List.getElem_of_mem hmem
    rw [List.getElem_zip] at hget
    have hlen : i < orders.length := by
      simp only [List.length_zip, List.length_map, List.length_range, Nat.min_self] at hi
      exact hi
    obtain rfl : r = (g.created + i, orders[i]) := by
      rw [← hget]
      simp
    have hclient := List.find?_some hr
    simp only [decide_eq_true_eq] at hclient
    rw [track_tracked_new hlen, hclient]
  · exact hkeep hid

/-- What holds of the maps in every reachable state. -/
structure Inv (g : CTraderDemoGateway) : Prop extends Shape g where
  keyed : Keyed g

theorem Inv.order_ref (h : Inv g) {id : String} (hid : g.orders id = some ref) :
    ref < g.created := by
  obtain ⟨group, hgroup, hmem⟩ := h.order_group id ref hid
  exact h.group_ref group hgroup ref hmem

theorem keyed_of_core (h : Core o g ev g1) (hi : Inv g) : Keyed g1 := by
  have hold : (∀ id ref, g1.orders id = some ref → g.orders id = some ref) → Keyed g1 :=
    fun horders id ref hid => by
      have hbefore := horders id ref hid
      rw [evolves_command (evolves_of_core h hi.toShape hi.keyed (hi.order_ref hbefore))]
      exact hi.keyed id ref hbefore
  cases h with
  | nothing | latched | dispatchedFirst | dispatchedSecond => exact hold fun _ _ => id
  | reported e he _ happ | reportedLatched e he _ happ =>
    exact hold fun id ref hid => happ.maps.2.2.1 ▸ hid
  | rejected now rc refs =>
    exact hold fun id ref hid => (reject_maps now rc refs g).2.2.1 ▸ hid
  | created => exact hi.keyed.track hi.toShape _ _ _
  | recovered => exact hi.keyed.track hi.toShape _ _ _
  | acknowledged input hev _ hack =>
    refine hold fun id ref hid => ?_
    rcases acknowledge_cases hack with ⟨rfl, -⟩ | ⟨group, _, _, _, _, _, _, _, _, horders, _⟩
    · exact hid
    · rw [horders] at hid
      exact (retireAll_maps input group.orders g).2.2.2.2.2 id ref hid

end CTraderDemoGateway

theorem core_sent {o : CTraderDemoGatewayOptions} {g g1 : CTraderDemoGateway} {ev : Event} (h : Core o g ev g1) : g1.sent = g.sent ∨
    (∃ p, g.placing = some p ∧ g1.sent = .place (firstOf p) :: g.sent) ∨
    ∃ p, g.placing = some p ∧ g1.sent = .place (secondOf p) :: g.sent ∧
      (g.tracked (firstOf p)).state = .pending ∧ (g.tracked (firstOf p)).filledVolume = 0 ∧
      g.uncertainReason = none := by
  cases h with
  | nothing | latched | created | recovered => exact Or.inl rfl
  | reported e he _ happ | reportedLatched e he _ happ => exact Or.inl happ.maps.2.2.2
  | dispatchedFirst p hp => exact Or.inr (Or.inl ⟨p, hp, rfl⟩)
  | dispatchedSecond p hp hstate hvolume hcertain =>
    exact Or.inr (Or.inr ⟨p, hp, rfl, hstate, hvolume, hcertain⟩)
  | rejected now rc refs => exact Or.inl (reject_maps now rc refs g).2.2.2
  | acknowledged input hev _ hack =>
    rcases acknowledge_cases hack with ⟨rfl, -⟩ | ⟨group, _, _, _, _, _, hsent, _⟩
    · exact Or.inl rfl
    · exact Or.inl hsent

theorem inv_step (o : CTraderDemoGatewayOptions) (g : CTraderDemoGateway) (ev : Env × Event)
    (g' : CTraderDemoGateway) (hi : Inv g) (h : step o g ev = some g') : Inv g' := by
  obtain ⟨g1, hcore, hframe⟩ := effect_step h
  refine ⟨shape_step o g ev g' hi.toShape h, fun id ref hid => ?_⟩
  rw [hframe.tracked]
  exact keyed_of_core hcore hi id ref (hframe.orders ▸ hid)

theorem inv_run {o : CTraderDemoGatewayOptions} {es : List (Env × Event)} {g : CTraderDemoGateway}
    (h : Run o es g) : Inv g :=
  Transition.invariant (inv_step o) ⟨shape_initial, by simp [Keyed, initial]⟩ h

/-- One event, seen from an existing order. -/
theorem evolves_step {o : CTraderDemoGatewayOptions} {g g' : CTraderDemoGateway} {ev : Env × Event}
    {ref : ℕ} (hi : Inv g) (h : step o g ev = some g') (href : ref < g.created) :
    Evolves o g ev.2 g' ref := by
  obtain ⟨g1, hcore, hframe⟩ := effect_step h
  cases evolves_of_core hcore hi.toShape hi.keyed href with
  | same h => exact .same (by rw [hframe.tracked]; exact h)
  | reported e order report he horder hread h hlatch =>
    exact .reported e order report he horder hread (by rw [hframe.tracked]; exact h)
      (by rw [hframe.uncertainReason]; exact hlatch)
  | rejected h => exact .rejected (by rw [hframe.tracked]; exact h)
  | retired h hgone input hev =>
    exact .retired (by rw [hframe.tracked]; exact h) (by rw [hframe.orders]; exact hgone) input hev

/-- An id leads to an old order only if it did so before. -/
theorem orders_step {o : CTraderDemoGatewayOptions} {g g' : CTraderDemoGateway} {ev : Env × Event}
    {ref : ℕ} {id : String} (h : step o g ev = some g') (href : ref < g.created)
    (hid : g'.orders id = some ref) : g.orders id = some ref := by
  obtain ⟨g1, hcore, hframe⟩ := effect_step h
  exact orders_of_core hcore href (hframe.orders ▸ hid)

end ScalpingBot.Gateway
