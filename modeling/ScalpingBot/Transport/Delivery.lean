import ScalpingBot.Transport.Pacing
import ScalpingBot.Transport.Step

/-! What the request queue guarantees over whole runs of the transport: a request's promise is
    settled once, and a frame leaves only while its request is unsettled, in the generation it was
    issued under, outside a cooldown and at the spacing of its class. -/

namespace ScalpingBot.Transport

/-! ### One step of the transport, as the requests see it -/

open Requests in
/-- What one event may do to the requests, in a connection of generation `g`. -/
inductive RequestsStep (o : Options) (g : ℕ) (connected : Bool) (r : Requests) : Requests → Prop
  | idle : RequestsStep o g connected r r
  | reject (out : Outcome) : RequestsStep o g connected r (r.rejectPending out)
  | request (p : ℕ) (expected : List ℕ) :
      RequestsStep o g connected r (r.request g p expected o.requestTimeoutMs)
  | timeout (q : Request) (hq : q ∈ r.requests) : q.deadline ≤ r.now →
      RequestsStep o g connected r (r.deleteAndSettle q.clientMsgId (.timeout q.payloadType))
  | beginAdmission (q : Request) (rest : List Request) (hq : r.admission = q :: rest) :
      RequestsStep o g connected r (r.beginAdmission g q)
  | finishAdmission (q : Request) (rest : List Request) (due : ℕ) (hq : r.admission = q :: rest)
      (hwait : r.waitUntil = some due) (hdue : due ≤ r.now) :
      RequestsStep o g connected r (r.finishAdmission g q)
  | dispatch (q : Request) (throws : Bool) (hq : q ∈ r.admitted) :
      RequestsStep o g connected r (r.dispatch g connected q throws)
  | message (m : CTraderEnvelope) (hadm : r.admitted = []) :
      RequestsStep o g connected r (r.receive m)
  | tick (ms : ℕ) (hadm : r.admitted = []) :
      RequestsStep o g connected r { r with now := r.now + ms }

theorem rejectPendingIf_requests {o : Options} {g : ℕ} {conn : Bool} {r : Requests}
    (c : Connection) (b : Bool) : RequestsStep o g conn r
      (CTraderJsonTransport.rejectPendingIf ⟨c, r⟩ b).requests := by
  cases b with
  | false => exact .idle
  | true => exact .reject _

theorem requestsStep_of_step {o : Options} {t t' : CTraderJsonTransport} {e : Event}
    (h : step o t e = some t') :
    RequestsStep o t.connection.generation t.connection.connected t.requests t'.requests := by
  cases e with
  | connect => cases h; exact .idle
  | close => cases h; exact .reject _
  | socketOpen k =>
    simp only [step] at h
    split at h <;> cases h
    exact .idle
  | socketError k => cases h; exact .idle
  | socketClosing k =>
    simp only [step] at h
    split at h <;> cases h
    exact .idle
  | socketClose k =>
    simp only [step] at h
    split at h <;> cases h
    exact rejectPendingIf_requests _ _
  | handshakeTimeout k => cases h; exact .idle
  | settle k =>
    simp only [step] at h
    split at h
    · split at h <;> cases h
      exact rejectPendingIf_requests _ _
    · cases h
  | handlerDone g ok =>
    simp only [step] at h
    split at h
    · split at h <;> cases h
      · exact .idle
      · exact rejectPendingIf_requests _ _
    · cases h
  | reconnectTimer =>
    simp only [step] at h
    split at h
    · split at h <;> cases h
      exact .idle
    · cases h
  | request p expected => cases h; exact .request p expected
  | requestTimeout id =>
    simp only [step] at h
    split at h
    · next q hq =>
      split at h <;> cases h
      obtain ⟨rfl, -⟩ : q.clientMsgId = id ∧ id ∈ t.requests.pending := by
        simpa using List.find?_some hq
      exact .timeout q (List.mem_of_find?_eq_some hq) (by assumption)
    · cases h
  | beginAdmission =>
    simp only [step] at h
    split at h <;> cases h
    exact .beginAdmission _ _ (by assumption)
  | admissionTimer =>
    simp only [step] at h
    split at h
    · split at h <;> cases h
      exact .finishAdmission _ _ _ (by assumption) (by assumption) (by assumption)
    · cases h
  | dispatch q throws =>
    simp only [step] at h
    split at h <;> cases h
    exact .dispatch q throws (by assumption)
  | message k m =>
    simp only [step] at h
    split at h <;> cases h
    next hd =>
    refine .message m ?_
    simp only [CTraderJsonTransport.drained, Bool.and_eq_true, List.isEmpty_iff] at hd
    exact hd.1.1.2
  | tick ms =>
    simp only [step] at h
    split at h <;> cases h
    next hd =>
    refine .tick ms ?_
    simp only [CTraderJsonTransport.drained, Bool.and_eq_true, List.isEmpty_iff] at hd
    exact hd.2

/-- The invariant of the requests. -/
structure Requests.Inv (r : Requests) : Prop where
  settling : r.Settling
  pacing : r.Pacing

namespace RequestsStep

variable {o : Options} {g : ℕ} {conn : Bool} {r r' : Requests}

theorem inv (h : RequestsStep o g conn r r') (hi : r.Inv) : r'.Inv := by
  obtain ⟨hs, hp⟩ := hi
  cases h with
  | idle => exact ⟨hs, hp⟩
  | reject out => exact ⟨hs.rejectPending out, hp.congr (Requests.sameQueue_rejectPending out)⟩
  | request p expected => exact ⟨hs.request .., hp.request hs ..⟩
  | timeout q hq =>
    exact ⟨hs.deleteAndSettle (hs.ids q hq) _, hp.congr (Requests.sameQueue_deleteAndSettle ..)⟩
  | beginAdmission q rest hq =>
    have hmem : q ∈ r.requests := hp.known q (Or.inl (by simp [hq]))
    exact ⟨hs.beginAdmission g hmem, hp.beginAdmission g hq⟩
  | finishAdmission q rest due hq hwait hdue =>
    have hmem : q ∈ r.requests := hp.known q (Or.inl (by simp [hq]))
    have hslot := hp.wait_slot q (by simp [hq]) due hwait
    exact ⟨hs.finishAdmission g hmem, hp.finishAdmission g hq (Nat.le_trans hslot hdue)⟩
  | dispatch q throws hq =>
    exact ⟨hs.dispatch g conn throws (hp.known q (Or.inr (Or.inl hq))),
      hp.dispatch g conn throws hq⟩
  | message m hadm => exact ⟨hs.receive m, hp.receive hadm m⟩
  | tick ms hadm => exact ⟨hs.congr rfl rfl rfl rfl, hp.clock hadm _ _ _⟩

end RequestsStep

/-- When a frame may leave: its request is not settled, so neither answered nor timed out, was
    issued in the present generation and never sent; no cooldown runs; its class is spaced. -/
structure MaySend (g : ℕ) (r : Requests) (f : Frame) : Prop where
  issued : f.request ∈ r.requests
  unsettled : r.outcome f.request.clientMsgId = none
  generation : f.request.generation = g
  sentAt : f.sentAt = r.now
  cooldown : r.rateLimitBlockedUntil ≤ r.now
  unsent : ∀ f' ∈ r.frames, f'.request ≠ f.request
  spaced : ∀ f' ∈ r.frames, f'.request.frameClass = f.request.frameClass →
    f'.sentAt + f.request.frameClass.spacing ≤ f.sentAt

namespace Requests

variable {r : Requests}

@[simp] theorem admissionFailed_frames (q : Request) (o : Outcome) :
    (r.admissionFailed q o).frames = r.frames :=
  (sameQueue_deleteAndSettle (r := { r with admission := r.admission.tail, waitUntil := none })
    q.clientMsgId o).frames

@[simp] theorem finishAdmission_frames (g : ℕ) (q : Request) :
    (r.finishAdmission g q).frames = r.frames := by
  unfold finishAdmission
  split
  · simp
  · split <;> simp

@[simp] theorem beginAdmission_frames (g : ℕ) (q : Request) :
    (r.beginAdmission g q).frames = r.frames := by
  unfold beginAdmission
  split
  · simp
  · split
    · simp
    · simp only
      split <;> simp

@[simp] theorem receive_frames (m : CTraderEnvelope) : (r.receive m).frames = r.frames := by
  rcases receive_cases (r := r) m with he | ⟨b, ms, q, hq, o, he⟩ <;> rw [he]
  exact (sameQueue_deleteAndSettle
    (r := { r with rateLimitBlockedUntil := b, rateLimitBackoffMs := ms }) q.clientMsgId o).frames

theorem Inv.dispatch_frames (h : r.Inv) (g : ℕ) (conn throws : Bool) {q : Request}
    (hq : q ∈ r.admitted) : (r.dispatch g conn q throws).frames = r.frames ∨
      ∃ f, (r.dispatch g conn q throws).frames = f :: r.frames ∧ MaySend g r f := by
  have hdrop : ∀ o, ({ r with admitted := r.admitted.erase q }.deleteAndSettle
      q.clientMsgId o).frames = r.frames := fun o => (sameQueue_deleteAndSettle ..).frames
  have hmem := h.pacing.known q (Or.inr (Or.inl hq))
  unfold dispatch
  simp only
  split
  · exact Or.inl (hdrop _)
  · next hvalid =>
    split
    · exact Or.inl (hdrop _)
    · split
      · exact Or.inl (hdrop _)
      · refine Or.inr ⟨⟨q, r.now, g⟩, rfl, ?_⟩
        obtain ⟨-, hcool, hspaced⟩ := h.pacing.admitted_slot q hq
        simp only [valid] at hvalid
        split at hvalid
        · cases hvalid
        · next hpending =>
          split at hvalid
          · cases hvalid
          · next hg =>
            refine ⟨hmem, (h.settling.pending_iff q hmem).mp (not_not.mp hpending),
              not_not.mp hg, rfl, hcool, fun f hf he => ?_, hspaced⟩
            have honce := h.pacing.once q
            have h1 := List.count_pos_iff.mpr hq
            have h2 : 0 < (r.frames.map (·.request)).count q :=
              List.count_pos_iff.mpr (List.mem_map.mpr ⟨f, hf, he⟩)
            omega

end Requests

namespace RequestsStep

variable {o : Options} {g : ℕ} {conn : Bool} {r r' : Requests}

theorem frames (h : RequestsStep o g conn r r') (hi : r.Inv) :
    r'.frames = r.frames ∨ ∃ f, r'.frames = f :: r.frames ∧ MaySend g r f := by
  cases h with
  | idle => exact Or.inl rfl
  | reject out => exact Or.inl (Requests.sameQueue_rejectPending out).frames
  | request p expected => exact Or.inl rfl
  | timeout q hq => exact Or.inl (Requests.sameQueue_deleteAndSettle ..).frames
  | beginAdmission q rest hq => exact Or.inl (by simp)
  | finishAdmission q rest due hq hwait hdue => exact Or.inl (by simp)
  | dispatch q throws hq => exact hi.dispatch_frames g conn throws hq
  | message m hadm => exact Or.inl (by simp)
  | tick ms hadm => exact Or.inl rfl

end RequestsStep

/-! ### What never goes back -/

theorem RequestsStep.grows {o : Options} {g : ℕ} {conn : Bool} {r r' : Requests}
    (h : RequestsStep o g conn r r') : r.Grows r' := by
  cases h with
  | idle => exact .of_eq rfl rfl rfl
  | reject out => exact Requests.grows_rejectPending out
  | request p expected => exact ⟨Nat.le_refl _, fun q hq => List.mem_cons_of_mem _ hq, fun _ _ => id⟩
  | timeout q hq => exact Requests.grows_deleteAndSettle ..
  | beginAdmission q rest hq => exact Requests.grows_beginAdmission g q
  | finishAdmission q rest due hq hwait hdue => exact Requests.grows_finishAdmission g q
  | dispatch q throws hq => exact Requests.grows_dispatch g conn throws q
  | message m hadm => exact Requests.grows_receive m
  | tick ms hadm => exact ⟨Nat.le_add_right _ _, fun _ => id, fun _ _ => id⟩

namespace Connection

variable {c : Connection}

theorem connect_generation (rs : List ℕ) : c.generation ≤ (c.connect rs).generation := by
  unfold connect
  split
  · exact Nat.le_refl _
  · split
    · exact Nat.le_refl _
    · exact Nat.le_succ _

theorem close_generation : c.generation ≤ c.close.generation := by
  unfold close
  simp only
  split <;> simp

theorem reconnectFailed_generation (g : ℕ) : c.generation ≤ (c.reconnectFailed g).1.generation := by
  unfold reconnectFailed
  split
  · exact Nat.le_refl _
  · split
    · simp only
      split <;> simp
    · simp

theorem reconnectsFailed_generation : ∀ (gs : List ℕ) (c : Connection),
    c.generation ≤ (c.reconnectsFailed gs).1.generation
  | [], _ => Nat.le_refl _
  | g :: gs, c =>
    Nat.le_trans (c.reconnectFailed_generation g) (reconnectsFailed_generation gs _)

theorem reconnectsSucceeded_generation : ∀ (gs : List ℕ) (c : Connection),
    (gs.foldl reconnectSucceeded c).generation = c.generation
  | [], _ => rfl
  | g :: gs, c => by
    rw [List.foldl_cons, reconnectsSucceeded_generation gs]
    unfold reconnectSucceeded
    split <;> rfl

theorem settle_generation (a : Attempt) (ok : Bool) :
    c.generation ≤ (c.settle a ok).1.generation := by
  unfold settle
  split
  · simp only [reconnectsSucceeded_generation]
    exact Nat.le_refl _
  · refine Nat.le_trans ?_ (reconnectsFailed_generation a.reconnects _)
    simp only [openFailed, attemptDone_generation]
    split <;> simp

theorem timerFired_generation (g : ℕ) : c.generation ≤ (c.timerFired g).generation := by
  unfold timerFired
  simp only
  split
  · exact Nat.le_refl _
  · exact connect_generation (c := { c with reconnectTimer := none }) _

end Connection

/-- A generation that has ended does not come back. -/
theorem generation_step {o : Options} {t t' : CTraderJsonTransport} {e : Event}
    (h : step o t e = some t') : t.connection.generation ≤ t'.connection.generation := by
  cases e with
  | connect => cases h; exact t.connection.connect_generation []
  | close => cases h; exact t.connection.close_generation
  | settle k =>
    simp only [step] at h
    split at h
    · split at h <;> cases h
      rw [rejectPendingIf_connection]
      exact t.connection.settle_generation _ _
    · cases h
  | handlerDone g ok =>
    simp only [step] at h
    split at h
    · split at h <;> cases h
      · exact Nat.le_refl _
      · rw [rejectPendingIf_connection]
        exact Connection.reconnectFailed_generation
          (c := { t.connection with
            reconnectHandlers := t.connection.reconnectHandlers.erase g }) g
    · cases h
  | reconnectTimer =>
    simp only [step] at h
    split at h
    · split at h <;> cases h
      exact t.connection.timerFired_generation _
    · cases h
  | socketClose k =>
    simp only [step] at h
    split at h <;> cases h
    rw [rejectPendingIf_connection]
    simp only [Connection.finish]
    split
    · rw [Connection.closed_generation]
      exact Nat.le_succ _
    · exact Nat.le_refl _
  | socketError k => cases h; exact Nat.le_refl _
  | handshakeTimeout k => cases h; exact Nat.le_refl _
  | request p expected => cases h; exact Nat.le_refl _
  | socketOpen k | socketClosing k | dispatch q throws | message k m | tick ms =>
    simp only [step] at h
    split at h <;> cases h
    exact Nat.le_refl _
  | requestTimeout id =>
    simp only [step] at h
    split at h
    · split at h <;> cases h
      exact Nat.le_refl _
    · cases h
  | beginAdmission =>
    simp only [step] at h
    split at h <;> cases h
    exact Nat.le_refl _
  | admissionTimer =>
    simp only [step] at h
    split at h
    · split at h <;> cases h
      exact Nat.le_refl _
    · cases h

/-! ### Whole runs -/

theorem Requests.inv_initial : Requests.initial.Inv := ⟨settling_initial, pacing_initial⟩

theorem requests_inv {o : Options} {es : List Event} {t : CTraderJsonTransport}
    (h : Run o es t) : t.requests.Inv :=
  Transition.invariant (I := fun t => t.requests.Inv)
    (fun _ _ _ hi hstep => (requestsStep_of_step hstep).inv hi) Requests.inv_initial h

namespace Requests

variable {r : Requests}

theorem Settling.settlements (h : r.Settling) {q : Request} (hq : q ∈ r.requests) :
    (r.settlements.filter fun s => s.1 = q.clientMsgId).length =
      if q.clientMsgId ∈ r.pending then 0 else 1 := by
  rw [h.recorded q.clientMsgId]
  split
  · next hp => simp [(h.pending_iff q hq).mp hp]
  · next hp =>
    obtain ⟨out, hout⟩ := Option.ne_none_iff_exists'.mp (mt (h.pending_iff q hq).mpr hp)
    simp [hout]

theorem Pacing.frames_nodup (h : r.Pacing) : (r.frames.map (·.request)).Nodup :=
  List.nodup_iff_count_le_one.mpr fun q => by
    have := h.once q
    omega

end Requests

/-- A pending request's timer can fire from its deadline on. -/
theorem requestTimeout_enabled {o : Options} {t : CTraderJsonTransport} {q : Request}
    (hi : t.requests.Inv) (hq : q ∈ t.requests.requests)
    (hp : q.clientMsgId ∈ t.requests.pending) (hdue : q.deadline ≤ t.requests.now) :
    step o t (.requestTimeout q.clientMsgId) = some ⟨t.connection,
      t.requests.deleteAndSettle q.clientMsgId (.timeout q.payloadType)⟩ := by
  simp only [step]
  cases hfind : t.requests.requests.find?
      (fun q' => q'.clientMsgId = q.clientMsgId ∧ q.clientMsgId ∈ t.requests.pending) with
  | none => exact absurd (List.find?_eq_none.mp hfind q hq) (by simp [hp])
  | some q' =>
    have hid : q'.clientMsgId = q.clientMsgId := by
      have := List.find?_some hfind
      simp only [decide_eq_true_eq] at this
      exact this.1
    have he := hi.settling.ids_unique q' (List.mem_of_find?_eq_some hfind) q hq hid
    simp [he, hdue]

theorem requestTimeout_settles {o : Options} {t t' : CTraderJsonTransport} {id : ℕ}
    (h : step o t (.requestTimeout id) = some t') : t'.requests.outcome id ≠ none := by
  simp only [step] at h
  split at h
  · split at h <;> cases h
    rw [Requests.deleteAndSettle, Requests.settle_outcome]
    by_cases hnone : t.requests.outcome id = none <;> simp [hnone]
  · cases h

open Transition in
/-- When time goes on and due timers fire, every request gets settled, with one settlement that
    stays the only one. -/
theorem eventually_settled {o : Options} {x : ℕ → CTraderJsonTransport} {ev : ℕ → Event}
    (h0 : x 0 = .initial) (hx : Execution (step o) x ev)
    (htime : ∀ T, ∃ n, T ≤ (x n).requests.now)
    (hfair : ∀ id, Fair (step o) x ev (.requestTimeout id)) {n : ℕ} {q : Request}
    (hq : q ∈ (x n).requests.requests) :
    ∃ m, n ≤ m ∧ ∃ out, ∀ k, m ≤ k →
      ((x k).requests.settlements.filter fun s => s.1 = q.clientMsgId) =
        [(q.clientMsgId, out)] := by
  have hinv : ∀ k, (x k).requests.Inv := fun k => requests_inv (h0 ▸ hx.run_take k)
  have hgrow : ∀ a b, a ≤ b → (x a).requests.Grows (x b).requests := fun a b hab => by
    induction hab with
    | refl => exact .of_eq rfl rfl rfl
    | step hab ih => exact ih.trans (requestsStep_of_step (hx _)).grows
  obtain ⟨due, hdue⟩ := htime q.deadline
  -- from here on the deadline has passed, so the timer is enabled until the request is settled
  have hafter : ∀ m, max n due ≤ m → q ∈ (x m).requests.requests ∧
      q.deadline ≤ (x m).requests.now := fun m hm =>
    ⟨(hgrow n m (by omega)).requests q hq, Nat.le_trans hdue (hgrow due m (by omega)).now⟩
  obtain ⟨m, hm, hsettled⟩ := hx.eventually
    (P := fun t => t.requests.outcome q.clientMsgId ≠ none) (hfair q.clientMsgId) (max n due)
    (fun m hm hopen hnone => by
      obtain ⟨hqm, hdm⟩ := hafter m hm
      have hp := ((hinv m).settling.pending_iff q hqm).mpr (not_not.mp hopen)
      rw [requestTimeout_enabled (hinv m) hqm hp hdm] at hnone
      cases hnone)
    (fun _ _ h => requestTimeout_settles h)
  obtain ⟨out, hout⟩ := Option.ne_none_iff_exists'.mp hsettled
  refine ⟨m, by omega, out, fun k hk => ?_⟩
  rw [(hinv k).settling.recorded, (hgrow m k hk).outcome _ _ hout]
  rfl

open Transition in
/-- Every request settles exactly once, and a frame leaves only when it may. -/
theorem settled_once_and_sent_in_time (o : Options) :
    (∀ es t, Run o es t →
      (∀ q ∈ t.requests.requests,
        (t.requests.settlements.filter fun s => s.1 = q.clientMsgId).length =
          if q.clientMsgId ∈ t.requests.pending then 0 else 1) ∧
      (t.requests.frames.map (·.request)).Nodup ∧
      (t.requests.frames.Pairwise fun newer older =>
        newer.request.frameClass = older.request.frameClass →
          older.sentAt + older.request.frameClass.spacing ≤ newer.sentAt) ∧
      ∀ e t', step o t e = some t' →
        t.connection.generation ≤ t'.connection.generation ∧
        (∀ id out, t.requests.outcome id = some out → t'.requests.outcome id = some out) ∧
        (t'.requests.frames = t.requests.frames ∨ ∃ f,
          t'.requests.frames = f :: t.requests.frames ∧
            MaySend t.connection.generation t.requests f)) ∧
    ∀ (x : ℕ → CTraderJsonTransport) (ev : ℕ → Event), x 0 = .initial →
      Execution (step o) x ev → (∀ T, ∃ n, T ≤ (x n).requests.now) →
      (∀ id, Fair (step o) x ev (.requestTimeout id)) →
      ∀ n, ∀ q ∈ (x n).requests.requests, ∃ m, n ≤ m ∧ ∃ out, ∀ k, m ≤ k →
        ((x k).requests.settlements.filter fun s => s.1 = q.clientMsgId) =
          [(q.clientMsgId, out)] := by
  refine ⟨fun es t h => ?_, fun x ev h0 hx htime hfair n q hq =>
    eventually_settled h0 hx htime hfair hq⟩
  have hi := requests_inv h
  refine ⟨fun q hq => hi.settling.settlements hq, hi.pacing.frames_nodup, hi.pacing.spaced,
    fun e t' hstep => ⟨generation_step hstep, ?_, ?_⟩⟩
  · exact (requestsStep_of_step hstep).grows.outcome
  · exact (requestsStep_of_step hstep).frames hi

/-- A request that is answered by nothing but its own timer, and the time after that. -/
def timingOut : ℕ → CTraderJsonTransport
  | 0 => .initial
  | 1 => { CTraderJsonTransport.initial with
      requests := Requests.initial.request 0 2100 [] 10000 }
  | 2 => { CTraderJsonTransport.initial with
      requests := { Requests.initial.request 0 2100 [] 10000 with now := 10000 } }
  | n + 3 => { CTraderJsonTransport.initial with
      requests := { ({ Requests.initial.request 0 2100 [] 10000 with
        now := 10000 }.deleteAndSettle 0 (.timeout 2100)) with now := 10000 + n } }

def timingOutEvents : ℕ → Event
  | 0 => .request 2100 []
  | 1 => .tick 10000
  | 2 => .requestTimeout 0
  | _ => .tick 1

/-- A connection on which one request is sent. -/
def sendingOne : List Event :=
  [.connect, .socketOpen 0, .settle 0, .request 2100 [2101], .beginAdmission,
    .dispatch ⟨0, 2100, [2101], 1, 10000⟩ false]

theorem settled_once_and_sent_in_time_examples :
    (∃ t, Run {} sendingOne t ∧ t.requests.frames.length = 1 ∧
      (t.requests.frames.map (·.request)).Nodup) ∧
    ∃ m, 1 ≤ m ∧ ∃ out, ∀ k, m ≤ k →
      ((timingOut k).requests.settlements.filter fun s => s.1 = 0) = [(0, out)] := by
  refine ⟨⟨_, rfl, rfl, ((settled_once_and_sent_in_time {}).1 sendingOne _ rfl).2.1⟩, ?_⟩
  refine (settled_once_and_sent_in_time {}).2 timingOut timingOutEvents rfl ?_ ?_ ?_ 1
    ⟨0, 2100, [], 0, 10000⟩ (by simp [timingOut, Requests.request, Requests.initial])
  · rintro (_ | _ | _ | n)
    · rfl
    · rfl
    · simp [step, timingOut, timingOutEvents, Requests.request, Requests.initial,
        CTraderJsonTransport.initial, Requests.deleteAndSettle, Requests.settle]
    · rfl
  · exact fun T => ⟨T + 3, by simp [timingOut]⟩
  · refine fun id n => ⟨n + 3, by omega, Or.inr ?_⟩
    simp [step, timingOut, Requests.request, Requests.initial, Requests.deleteAndSettle,
      Requests.settle]

end ScalpingBot.Transport
