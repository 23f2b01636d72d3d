import ScalpingBot.Transport.Requests

/-! A request's promise is settled once. The pending map decides who settles it: a request is in
    the map exactly until its promise has an outcome, and every settlement goes through the map. -/

namespace ScalpingBot.Transport

namespace Requests

variable {r : Requests}

/-- The settlements of a request are exactly what its promise holds. -/
def Recorded (r : Requests) : Prop :=
  ∀ id, r.settlements.filter (fun s => s.1 = id) = ((r.outcome id).map fun o => (id, o)).toList

theorem settle_outcome (id j : ℕ) (o : Outcome) : (r.settle id o).outcome j =
    if j = id ∧ r.outcome id = none then some o else r.outcome j := by
  unfold settle
  split
  · next h => simp [h]
  · next h =>
    by_cases hj : j = id
    · simp [hj, h]
    · simp [hj]

@[simp] theorem settle_requests (id : ℕ) (o : Outcome) : (r.settle id o).requests = r.requests := by
  unfold settle; split <;> rfl
@[simp] theorem settle_pending (id : ℕ) (o : Outcome) : (r.settle id o).pending = r.pending := by
  unfold settle; split <;> rfl

theorem Recorded.settle (h : r.Recorded) (id : ℕ) (o : Outcome) : (r.settle id o).Recorded := by
  intro j
  unfold Requests.settle
  split
  · exact h j
  · next hnone =>
    by_cases hj : j = id
    · subst hj
      simp [h j, hnone]
    · simp [Ne.symm hj, hj, h j]

/-- A request is pending exactly until its promise is settled. -/
structure Settling (r : Requests) : Prop where
  ids : ∀ q ∈ r.requests, q.clientMsgId < r.requests.length
  ids_unique : ∀ q ∈ r.requests, ∀ q' ∈ r.requests, q.clientMsgId = q'.clientMsgId → q = q'
  pending_nodup : r.pending.Nodup
  pending_known : ∀ id ∈ r.pending, ∃ q ∈ r.requests, q.clientMsgId = id
  pending_iff : ∀ q ∈ r.requests, q.clientMsgId ∈ r.pending ↔ r.outcome q.clientMsgId = none
  unused : ∀ id, r.requests.length ≤ id → r.outcome id = none
  recorded : r.Recorded

theorem settling_initial : Settling initial where
  ids := by simp [initial]
  ids_unique := by simp [initial]
  pending_nodup := by simp [initial]
  pending_known := by simp [initial]
  pending_iff := by simp [initial]
  unused := by simp [initial]
  recorded := by simp [initial, Recorded]

/-- Only these four fields matter for `Settling`. -/
theorem Settling.congr (h : Settling r) {s : Requests} (hq : s.requests = r.requests)
    (hp : s.pending = r.pending) (ho : s.outcome = r.outcome)
    (hs : s.settlements = r.settlements) : Settling s where
  ids := hq ▸ h.ids
  ids_unique := hq ▸ h.ids_unique
  pending_nodup := hp ▸ h.pending_nodup
  pending_known := by rw [hp, hq]; exact h.pending_known
  pending_iff := by rw [hp, hq, ho]; exact h.pending_iff
  unused := by rw [hq, ho]; exact h.unused
  recorded := by unfold Recorded; rw [hs, ho]; exact h.recorded

theorem Settling.deleteAndSettle (h : Settling r) {id : ℕ} (hid : id < r.requests.length)
    (o : Outcome) : Settling (r.deleteAndSettle id o) where
  ids := by simpa [Requests.deleteAndSettle] using h.ids
  ids_unique := by simpa [Requests.deleteAndSettle] using h.ids_unique
  pending_nodup := by simpa [Requests.deleteAndSettle] using h.pending_nodup.erase id
  pending_known j hj := by
    simp only [Requests.deleteAndSettle, settle_pending, settle_requests] at hj ⊢
    exact h.pending_known j (List.mem_of_mem_erase hj)
  pending_iff q hq := by
    simp only [Requests.deleteAndSettle, settle_pending, settle_requests] at hq ⊢
    rw [settle_outcome]
    by_cases hqid : q.clientMsgId = id
    · have hout : id ∉ r.pending.erase id := h.pending_nodup.not_mem_erase
      by_cases hnone : r.outcome id = none
      · simp [hqid, hnone, hout]
      · simp [hqid, hnone, hout]
    · rw [List.mem_erase_of_ne hqid]
      simp [hqid, h.pending_iff q hq]
  unused j hj := by
    simp only [Requests.deleteAndSettle, settle_requests] at hj ⊢
    rw [settle_outcome, if_neg (fun hc => by omega)]
    exact h.unused j hj
  recorded := Recorded.settle (r := { r with pending := r.pending.erase id }) h.recorded id o

theorem foldl_settle (o : Outcome) : ∀ (l : List ℕ) (r : Requests), r.Recorded →
    (l.foldl (fun r id => r.settle id o) r).Recorded ∧
    (l.foldl (fun r id => r.settle id o) r).requests = r.requests ∧
    ∀ j, (l.foldl (fun r id => r.settle id o) r).outcome j =
      if j ∈ l ∧ r.outcome j = none then some o else r.outcome j
  | [], r, h => ⟨h, rfl, fun j => by simp⟩
  | id :: l, r, h => by
    obtain ⟨h1, h2, h3⟩ := foldl_settle o l (r.settle id o) (h.settle id o)
    refine ⟨h1, h2.trans (settle_requests id o), fun j => ?_⟩
    rw [List.foldl_cons, h3 j, settle_outcome]
    by_cases hj : j = id
    · subst hj
      by_cases hnone : r.outcome j = none <;> simp [hnone]
    · simp [hj]

theorem Settling.rejectPending (h : Settling r) (o : Outcome) : Settling (r.rejectPending o) := by
  obtain ⟨hrec, hreq, hout⟩ := foldl_settle o r.pending r h.recorded
  refine
    { ids := by simpa [Requests.rejectPending, hreq] using h.ids
      ids_unique := by simpa [Requests.rejectPending, hreq] using h.ids_unique
      pending_nodup := by simp [Requests.rejectPending]
      pending_known := by simp [Requests.rejectPending]
      pending_iff := fun q hq => ?_
      unused := fun j hj => ?_
      recorded := hrec }
  · simp only [Requests.rejectPending, hreq] at hq ⊢
    rw [hout]
    by_cases hnone : r.outcome q.clientMsgId = none <;> simp [h.pending_iff q hq, hnone]
  · simp only [Requests.rejectPending, hreq] at hj ⊢
    have hnot : j ∉ r.pending := fun hp => by
      obtain ⟨q, hq, rfl⟩ := h.pending_known j hp
      have := h.ids q hq
      omega
    rw [hout, if_neg (fun hc => hnot hc.1)]
    exact h.unused j hj

theorem Settling.request (h : Settling r) (g p : ℕ) (expected : List ℕ) (ms : ℕ) :
    Settling (r.request g p expected ms) where
  ids q hq := by
    rcases List.mem_cons.mp hq with rfl | hq
    · simp [Requests.request]
    · have := h.ids q hq
      simp only [Requests.request, List.length_cons]
      omega
  ids_unique q hq q' hq' heq := by
    rcases List.mem_cons.mp hq with rfl | hq <;> rcases List.mem_cons.mp hq' with rfl | hq'
    · rfl
    · have := h.ids q' hq'
      simp only at heq
      omega
    · have := h.ids q hq
      simp only at heq
      omega
    · exact h.ids_unique q hq q' hq' heq
  pending_nodup := by
    refine List.nodup_cons.mpr ⟨fun hp => ?_, h.pending_nodup⟩
    obtain ⟨q, hq, hid⟩ := h.pending_known _ hp
    exact Nat.lt_irrefl _ (hid ▸ h.ids q hq)
  pending_known id hid := by
    rcases List.mem_cons.mp hid with rfl | hid
    · exact ⟨_, List.mem_cons_self .., rfl⟩
    · obtain ⟨q, hq, rfl⟩ := h.pending_known id hid
      exact ⟨q, List.mem_cons_of_mem _ hq, rfl⟩
  pending_iff q hq := by
    rcases List.mem_cons.mp hq with rfl | hq
    · exact iff_of_true (List.mem_cons_self ..) (h.unused _ (Nat.le_refl _))
    · have hne : q.clientMsgId ≠ r.requests.length := Nat.ne_of_lt (h.ids q hq)
      simp only [Requests.request, List.mem_cons, hne, false_or]
      exact h.pending_iff q hq
  unused id hid := by
    simp only [Requests.request, List.length_cons] at hid
    exact h.unused id (by omega)
  recorded := h.recorded

theorem Settling.admissionFailed (h : Settling r) {q : Request} (hq : q ∈ r.requests)
    (o : Outcome) : Settling (r.admissionFailed q o) :=
  Settling.deleteAndSettle (r := { r with admission := r.admission.tail, waitUntil := none })
    (h.congr rfl rfl rfl rfl) (h.ids q hq) o

theorem Settling.finishAdmission (h : Settling r) (g : ℕ) {q : Request} (hq : q ∈ r.requests) :
    Settling (r.finishAdmission g q) := by
  unfold Requests.finishAdmission
  split
  · exact h.admissionFailed hq _
  · split
    · exact h.admissionFailed hq _
    · exact h.congr rfl rfl rfl rfl

theorem Settling.beginAdmission (h : Settling r) (g : ℕ) {q : Request} (hq : q ∈ r.requests) :
    Settling (r.beginAdmission g q) := by
  unfold Requests.beginAdmission
  split
  · exact h.admissionFailed hq _
  · split
    · exact h.admissionFailed hq _
    · simp only
      split
      · exact h.congr rfl rfl rfl rfl
      · exact h.finishAdmission g hq

theorem Settling.dispatch (h : Settling r) (g : ℕ) (connected throws : Bool) {q : Request}
    (hq : q ∈ r.requests) : Settling (r.dispatch g connected q throws) := by
  have h' : Settling { r with admitted := r.admitted.erase q } := h.congr rfl rfl rfl rfl
  unfold Requests.dispatch
  simp only
  split
  · exact h'.deleteAndSettle (h.ids q hq) _
  · split
    · exact h'.deleteAndSettle (h.ids q hq) _
    · split
      · exact h'.deleteAndSettle (h.ids q hq) _
      · exact h.congr rfl rfl rfl rfl

theorem noteRateLimit_fields (d : CTraderErrorDetails) : ∃ b ms, r.noteRateLimit d =
    { r with rateLimitBlockedUntil := b, rateLimitBackoffMs := ms } := by
  unfold noteRateLimit
  split
  · exact ⟨_, _, rfl⟩
  · exact ⟨_, _, rfl⟩

theorem noteSuccessfulRequest_fields : ∃ b ms, r.noteSuccessfulRequest =
    { r with rateLimitBlockedUntil := b, rateLimitBackoffMs := ms } := by
  unfold noteSuccessfulRequest
  split
  · exact ⟨_, _, rfl⟩
  · exact ⟨_, _, rfl⟩

/-- A message changes the cooldown, and settles the pending request it answers, if any. -/
theorem receive_cases (m : CTraderEnvelope) : r.receive m = r ∨
    ∃ b ms, ∃ q ∈ r.requests, ∃ o, r.receive m =
      { r with rateLimitBlockedUntil := b, rateLimitBackoffMs := ms }.deleteAndSettle
        q.clientMsgId o := by
  unfold receive
  split
  · exact Or.inl rfl
  · next id _ =>
    split
    · exact Or.inl rfl
    · next q hq =>
      have hmem := List.mem_of_find?_eq_some hq
      obtain ⟨rfl, -⟩ : q.clientMsgId = id ∧ id ∈ r.pending := by
        simpa using List.find?_some hq
      refine Or.inr ?_
      dsimp only
      split
      · obtain ⟨b, ms, he⟩ := noteRateLimit_fields (r := { r with
          pending := r.pending.erase q.clientMsgId }) m.details
        exact ⟨b, ms, q, hmem, _, by rw [he]; rfl⟩
      · split
        · exact ⟨_, _, q, hmem, _, rfl⟩
        · obtain ⟨b, ms, he⟩ := noteSuccessfulRequest_fields (r := { r with
            pending := r.pending.erase q.clientMsgId })
          exact ⟨b, ms, q, hmem, _, by rw [he]; rfl⟩

theorem Settling.receive (h : Settling r) (m : CTraderEnvelope) : Settling (r.receive m) := by
  rcases receive_cases (r := r) m with he | ⟨b, ms, q, hq, o, he⟩ <;> rw [he]
  · exact h
  · exact Settling.deleteAndSettle
      (r := { r with rateLimitBlockedUntil := b, rateLimitBackoffMs := ms })
      (h.congr rfl rfl rfl rfl) (h.ids q hq) o

/-! ### Settling and the queue -/

/-- The settling of requests does not touch the queue. -/
structure SameQueue (s r : Requests) : Prop where
  now : s.now = r.now
  requests : s.requests = r.requests
  admission : s.admission = r.admission
  waitUntil : s.waitUntil = r.waitUntil
  admitted : s.admitted = r.admitted
  nextAt : s.nextAt = r.nextAt
  blocked : s.rateLimitBlockedUntil = r.rateLimitBlockedUntil
  frames : s.frames = r.frames

theorem sameQueue_settle (id : ℕ) (o : Outcome) : SameQueue (r.settle id o) r := by
  unfold settle
  split <;> exact ⟨rfl, rfl, rfl, rfl, rfl, rfl, rfl, rfl⟩

theorem sameQueue_deleteAndSettle (id : ℕ) (o : Outcome) :
    SameQueue (r.deleteAndSettle id o) r := by
  obtain ⟨h1, h2, h3, h4, h5, h6, h7, h8⟩ :=
    sameQueue_settle (r := { r with pending := r.pending.erase id }) id o
  exact ⟨h1, h2, h3, h4, h5, h6, h7, h8⟩

theorem SameQueue.trans {s t : Requests} (h : SameQueue t s) (h' : SameQueue s r) :
    SameQueue t r :=
  ⟨h.now.trans h'.now, h.requests.trans h'.requests, h.admission.trans h'.admission,
    h.waitUntil.trans h'.waitUntil, h.admitted.trans h'.admitted, h.nextAt.trans h'.nextAt,
    h.blocked.trans h'.blocked, h.frames.trans h'.frames⟩

theorem sameQueue_foldl (o : Outcome) : ∀ (l : List ℕ) (r : Requests),
    SameQueue (l.foldl (fun r id => r.settle id o) r) r
  | [], _ => ⟨rfl, rfl, rfl, rfl, rfl, rfl, rfl, rfl⟩
  | id :: l, r => (sameQueue_foldl o l (r.settle id o)).trans (sameQueue_settle id o)

theorem sameQueue_rejectPending (o : Outcome) : SameQueue (r.rejectPending o) r := by
  obtain ⟨h1, h2, h3, h4, h5, h6, h7, h8⟩ := sameQueue_foldl o r.pending r
  exact ⟨h1, h2, h3, h4, h5, h6, h7, h8⟩

/-! ### What never goes back -/

/-- Time passes, requests stay known, and what a promise was settled with stays. -/
structure Grows (r r' : Requests) : Prop where
  now : r.now ≤ r'.now
  requests : ∀ q ∈ r.requests, q ∈ r'.requests
  outcome : ∀ id o, r.outcome id = some o → r'.outcome id = some o

theorem Grows.of_eq {s : Requests} (hn : s.now = r.now) (hq : s.requests = r.requests)
    (ho : s.outcome = r.outcome) : Grows r s :=
  ⟨Nat.le_of_eq hn.symm, fun _ h => hq ▸ h, fun _ _ h => by rw [ho]; exact h⟩

theorem Grows.trans {s t : Requests} (h : Grows r s) (h' : Grows s t) : Grows r t :=
  ⟨Nat.le_trans h.now h'.now, fun q hq => h'.requests q (h.requests q hq),
    fun id o ho => h'.outcome id o (h.outcome id o ho)⟩

theorem grows_settle (id : ℕ) (o : Outcome) : Grows r (r.settle id o) := by
  have hsame := sameQueue_settle (r := r) id o
  refine ⟨Nat.le_of_eq hsame.now.symm, fun q hq => hsame.requests ▸ hq, fun j o' ho' => ?_⟩
  rw [settle_outcome, if_neg]
  · exact ho'
  · rintro ⟨rfl, hnone⟩
    rw [hnone] at ho'
    cases ho'

theorem grows_deleteAndSettle (id : ℕ) (o : Outcome) : Grows r (r.deleteAndSettle id o) :=
  (Grows.of_eq (r := r) (s := { r with pending := r.pending.erase id }) rfl rfl rfl).trans
    (grows_settle id o)

theorem grows_foldl (o : Outcome) : ∀ (l : List ℕ) (r : Requests),
    Grows r (l.foldl (fun r id => r.settle id o) r)
  | [], _ => .of_eq rfl rfl rfl
  | id :: l, r => (grows_settle id o).trans (grows_foldl o l (r.settle id o))

theorem grows_rejectPending (o : Outcome) : Grows r (r.rejectPending o) :=
  (grows_foldl o r.pending r).trans (.of_eq rfl rfl rfl)

theorem grows_admissionFailed (q : Request) (o : Outcome) : Grows r (r.admissionFailed q o) :=
  (Grows.of_eq (r := r) (s := { r with admission := r.admission.tail, waitUntil := none }) rfl rfl
    rfl).trans (grows_deleteAndSettle _ o)

theorem grows_finishAdmission (g : ℕ) (q : Request) : Grows r (r.finishAdmission g q) := by
  unfold finishAdmission
  split
  · exact grows_admissionFailed q _
  · split
    · exact grows_admissionFailed q _
    · exact .of_eq rfl rfl rfl

theorem grows_beginAdmission (g : ℕ) (q : Request) : Grows r (r.beginAdmission g q) := by
  unfold beginAdmission
  split
  · exact grows_admissionFailed q _
  · split
    · exact grows_admissionFailed q _
    · simp only
      split
      · exact .of_eq rfl rfl rfl
      · exact grows_finishAdmission g q

theorem grows_dispatch (g : ℕ) (conn throws : Bool) (q : Request) :
    Grows r (r.dispatch g conn q throws) := by
  have hdrop : ∀ o, Grows r ({ r with admitted := r.admitted.erase q }.deleteAndSettle
      q.clientMsgId o) := fun o =>
    (Grows.of_eq (r := r) (s := { r with admitted := r.admitted.erase q }) rfl rfl rfl).trans
      (grows_deleteAndSettle _ o)
  unfold dispatch
  simp only
  split
  · exact hdrop _
  · split
    · exact hdrop _
    · split
      · exact hdrop _
      · exact .of_eq rfl rfl rfl

theorem grows_receive (m : CTraderEnvelope) : Grows r (r.receive m) := by
  rcases receive_cases (r := r) m with he | ⟨b, ms, q, hq, o, he⟩ <;> rw [he]
  · exact .of_eq rfl rfl rfl
  · exact (Grows.of_eq (r := r) (s := { r with rateLimitBlockedUntil := b, rateLimitBackoffMs := ms })
      rfl rfl rfl).trans (grows_deleteAndSettle _ o)

end Requests

end ScalpingBot.Transport
