import ScalpingBot.Transport.Settling
import Mathlib.Data.List.Nodup
import Mathlib.Data.List.Perm.Basic

/-! The queue between a request and its frame. Until its admission resolves a request is in the
    chain, then it is admitted, then sent; between admission and sending only microtasks run, so
    neither the clock nor a broker message can invalidate what the admission has checked. -/

namespace ScalpingBot.Transport

namespace Requests

variable {r : Requests}

/-- The invariant of the queue. `once` says that a request is at one place in the
    queue only; the others relate the next slot of a class to what has been admitted and sent. -/
structure Pacing (r : Requests) : Prop where
  once : ∀ q, r.admission.count q + r.admitted.count q + (r.frames.map (·.request)).count q ≤ 1
  known : ∀ q, q ∈ r.admission ∨ q ∈ r.admitted ∨ q ∈ r.frames.map (·.request) → q ∈ r.requests
  slot : ∀ f ∈ r.frames, f.sentAt + f.request.frameClass.spacing ≤ r.nextAt f.request.frameClass
  admitted_slot : ∀ q ∈ r.admitted, r.nextAt q.frameClass = r.now + q.frameClass.spacing ∧
    r.rateLimitBlockedUntil ≤ r.now ∧
    ∀ f ∈ r.frames, f.request.frameClass = q.frameClass → f.sentAt + q.frameClass.spacing ≤ r.now
  admitted_classes : (r.admitted.map (·.frameClass)).Nodup
  wait_slot : ∀ q, r.admission.head? = some q → ∀ due, r.waitUntil = some due →
    r.nextAt q.frameClass ≤ due
  idle : r.admission = [] → r.waitUntil = none
  spaced : r.frames.Pairwise fun newer older => newer.request.frameClass = older.request.frameClass →
    older.sentAt + older.request.frameClass.spacing ≤ newer.sentAt
  sent_generation : ∀ f ∈ r.frames, f.generation = f.request.generation

theorem pacing_initial : Pacing initial where
  once := by simp [initial]
  known := by simp [initial]
  slot := by simp [initial]
  admitted_slot := by simp [initial]
  admitted_classes := by simp [initial]
  wait_slot := by simp [initial]
  idle := by simp [initial]
  spaced := by simp [initial]
  sent_generation := by simp [initial]

theorem Pacing.congr (h : Pacing r) {s : Requests} (e : SameQueue s r) : Pacing s where
  once := by rw [e.admission, e.admitted, e.frames]; exact h.once
  known := by rw [e.admission, e.admitted, e.frames, e.requests]; exact h.known
  slot := by rw [e.frames, e.nextAt]; exact h.slot
  admitted_slot := by rw [e.admitted, e.nextAt, e.now, e.blocked, e.frames]; exact h.admitted_slot
  admitted_classes := by rw [e.admitted]; exact h.admitted_classes
  wait_slot := by rw [e.admission, e.waitUntil, e.nextAt]; exact h.wait_slot
  idle := by rw [e.admission, e.waitUntil]; exact h.idle
  spaced := by rw [e.frames]; exact h.spaced
  sent_generation := by rw [e.frames]; exact h.sent_generation

theorem Pacing.request (h : Pacing r) (hs : Settling r) (g p : ℕ) (expected : List ℕ) (ms : ℕ) :
    Pacing (r.request g p expected ms) := by
  have hnew : ∀ q ∈ r.requests, q ≠ ⟨r.requests.length, p, expected, g, r.now + ms⟩ :=
    fun q hq he => Nat.lt_irrefl r.requests.length (by simpa [he] using hs.ids q hq)
  refine
    { once := fun q => ?_
      known := fun q hq => ?_
      slot := h.slot
      admitted_slot := h.admitted_slot
      admitted_classes := h.admitted_classes
      wait_slot := fun q hq due hdue => ?_
      idle := by simp [Requests.request]
      spaced := h.spaced
      sent_generation := h.sent_generation }
  · simp only [Requests.request, List.count_append]
    by_cases hq : q = ⟨r.requests.length, p, expected, g, r.now + ms⟩
    · have h0 : ∀ l : List Request, (q ∈ l → q ∈ r.requests) → l.count q = 0 :=
        fun l hl => List.count_eq_zero.mpr fun hm => hnew q (hl hm) hq
      rw [h0 r.admission (fun hm => h.known q (Or.inl hm)),
        h0 r.admitted (fun hm => h.known q (Or.inr (Or.inl hm))),
        h0 _ (fun hm => h.known q (Or.inr (Or.inr hm))), hq]
      simp
    · rw [List.count_singleton, if_neg (by simpa using Ne.symm hq)]
      exact h.once q
  · simp only [Requests.request, List.mem_append, List.mem_singleton] at hq ⊢
    rcases hq with (hq | rfl) | hq
    · exact List.mem_cons_of_mem _ (h.known q (Or.inl hq))
    · exact List.mem_cons_self ..
    · exact List.mem_cons_of_mem _ (h.known q (Or.inr hq))
  · cases ha : r.admission with
    | nil => exact absurd hdue (by simp [Requests.request, h.idle ha])
    | cons q' rest =>
      have hq' : q' = q := by simpa [Requests.request, ha] using hq
      exact h.wait_slot q (by simp [ha, hq']) due hdue

/-- Dropping the head of the chain. -/
theorem Pacing.tail (h : Pacing r) : Pacing { r with admission := r.admission.tail, waitUntil := none } where
  once q := by
    have hsub : r.admission.tail.count q ≤ r.admission.count q :=
      (List.tail_sublist _).count_le q
    have := h.once q
    simp only
    omega
  known q hq := h.known q (hq.imp_left List.mem_of_mem_tail)
  slot := h.slot
  admitted_slot := h.admitted_slot
  admitted_classes := h.admitted_classes
  wait_slot := by simp
  idle := by simp
  spaced := h.spaced
  sent_generation := h.sent_generation

theorem Pacing.admissionFailed (h : Pacing r) (q : Request) (o : Outcome) :
    Pacing (r.admissionFailed q o) :=
  h.tail.congr (sameQueue_deleteAndSettle q.clientMsgId o)

/-- The head of the chain takes the slot of its class, once that slot has come. -/
theorem Pacing.finishAdmission (h : Pacing r) (g : ℕ) {q : Request} {rest : List Request}
    (hq : r.admission = q :: rest) (hslot : r.nextAt q.frameClass ≤ r.now) :
    Pacing (r.finishAdmission g q) := by
  have hother : ∀ a ∈ r.admitted, a.frameClass ≠ q.frameClass := fun a ha he => by
    have := (h.admitted_slot a ha).1
    have hpos : 0 < a.frameClass.spacing := by cases a.frameClass <;> decide
    rw [he] at this hpos
    omega
  unfold Requests.finishAdmission
  split
  · exact h.admissionFailed q _
  · split
    · exact h.admissionFailed q _
    · next hcool =>
      refine
        { once := fun a => ?_
          known := fun a ha => ?_
          slot := fun f hf => ?_
          admitted_slot := fun a ha => ?_
          admitted_classes := ?_
          wait_slot := by simp
          idle := by simp
          spaced := h.spaced
          sent_generation := h.sent_generation }
      · have := h.once a
        simp only [hq, List.count_cons, List.count_append, List.tail_cons, List.count_nil] at this ⊢
        omega
      · apply h.known
        simp only [hq, List.tail_cons, List.mem_append, List.mem_cons, List.not_mem_nil,
          or_false] at ha ⊢
        rcases ha with ha | (ha | rfl) | ha
        · exact Or.inl (Or.inr ha)
        · exact Or.inr (Or.inl ha)
        · exact Or.inl (Or.inl rfl)
        · exact Or.inr (Or.inr ha)
      · have hf' := h.slot f hf
        by_cases hc : f.request.frameClass = q.frameClass
        · simp only [hc, Function.update_self] at hf' ⊢
          omega
        · simpa [Function.update_of_ne hc] using hf'
      · simp only [List.mem_append, List.mem_singleton] at ha
        rcases ha with ha | rfl
        · simpa [Function.update_of_ne (hother a ha)] using h.admitted_slot a ha
        · refine ⟨by simp, by simpa using hcool, fun f hf hc => ?_⟩
          have hf' := h.slot f hf
          rw [hc] at hf'
          simp only
          omega
      · simp only [List.map_append, List.map_cons, List.map_nil]
        refine List.nodup_append.mpr ⟨h.admitted_classes, by simp, ?_⟩
        rintro c hc _ hc' rfl
        obtain ⟨a, ha, rfl⟩ := List.mem_map.mp hc
        exact hother a ha (List.mem_singleton.mp hc')

theorem Pacing.beginAdmission (h : Pacing r) (g : ℕ) {q : Request} {rest : List Request}
    (hq : r.admission = q :: rest) : Pacing (r.beginAdmission g q) := by
  unfold Requests.beginAdmission
  split
  · exact h.admissionFailed q _
  · split
    · exact h.admissionFailed q _
    · simp only
      split
      · next hwait =>
        refine { h with wait_slot := fun a ha due hdue => ?_, idle := by simp [hq] }
        obtain rfl : q = a := by simpa [hq] using ha
        obtain rfl : r.now + (r.nextAt q.frameClass - r.now) = due := by simpa using hdue
        simp only
        omega
      · next hslot => exact h.finishAdmission g hq (by omega)

/-- An admitted request leaves the queue without a frame. -/
theorem Pacing.discard (h : Pacing r) (q : Request) :
    Pacing { r with admitted := r.admitted.erase q } where
  once a := by
    have hsub : (r.admitted.erase q).count a ≤ r.admitted.count a :=
      (List.erase_sublist ..).count_le a
    have := h.once a
    simp only
    omega
  known a ha := h.known a (ha.imp_right fun ha => ha.imp_left List.mem_of_mem_erase)
  slot := h.slot
  admitted_slot a ha := h.admitted_slot a (List.mem_of_mem_erase ha)
  admitted_classes := h.admitted_classes.sublist ((List.erase_sublist ..).map _)
  wait_slot := h.wait_slot
  idle := h.idle
  spaced := h.spaced
  sent_generation := h.sent_generation

/-- What the invariant says of the frame that an admitted request becomes. -/
theorem Pacing.frame (h : Pacing r) {q : Request} (hq : q ∈ r.admitted) {g : ℕ}
    (hg : q.generation = g) :
    Pacing { r with admitted := r.admitted.erase q, frames := ⟨q, r.now, g⟩ :: r.frames } := by
  obtain ⟨hslot, -, hspaced⟩ := h.admitted_slot q hq
  have hother : ∀ a ∈ r.admitted.erase q, a.frameClass ≠ q.frameClass := fun a ha he => by
    have hsplit := (List.perm_cons_erase hq).map Request.frameClass
    have := (hsplit.nodup_iff.mp h.admitted_classes)
    exact (List.nodup_cons.mp this).1 (he ▸ List.mem_map_of_mem ha)
  refine
    { once := fun a => ?_
      known := fun a ha => ?_
      slot := fun f hf => ?_
      admitted_slot := fun a ha => ?_
      admitted_classes := (h.discard q).admitted_classes
      wait_slot := h.wait_slot
      idle := h.idle
      spaced := List.pairwise_cons.mpr ⟨fun f hf hc => ?_, h.spaced⟩
      sent_generation := fun f hf => ?_ }
  · have := h.once a
    have hcount := (List.perm_cons_erase hq).count_eq a
    simp only [List.count_cons, List.map_cons] at hcount this ⊢
    omega
  · apply h.known
    simp only [List.map_cons, List.mem_cons] at ha
    rcases ha with ha | ha | rfl | ha
    · exact Or.inl ha
    · exact Or.inr (Or.inl (List.mem_of_mem_erase ha))
    · exact Or.inr (Or.inl hq)
    · exact Or.inr (Or.inr ha)
  · rcases List.mem_cons.mp hf with rfl | hf
    · exact Nat.le_of_eq hslot.symm
    · exact h.slot f hf
  · obtain ⟨h1, h2, h3⟩ := h.admitted_slot a (List.mem_of_mem_erase ha)
    refine ⟨h1, h2, fun f hf hc => ?_⟩
    rcases List.mem_cons.mp hf with rfl | hf
    · exact absurd hc.symm (hother a ha)
    · exact h3 f hf hc
  · rw [hc.symm]
    exact hspaced f hf hc.symm
  · rcases List.mem_cons.mp hf with rfl | hf
    · exact hg.symm
    · exact h.sent_generation f hf

theorem Pacing.dispatch (h : Pacing r) (g : ℕ) (connected throws : Bool) {q : Request}
    (hq : q ∈ r.admitted) : Pacing (r.dispatch g connected q throws) := by
  have hdrop := fun o => (h.discard q).congr (sameQueue_deleteAndSettle q.clientMsgId o)
  unfold Requests.dispatch
  simp only
  split
  · exact hdrop _
  · next hvalid =>
    split
    · exact hdrop _
    · split
      · exact hdrop _
      · refine h.frame hq ?_
        simp only [valid] at hvalid
        split at hvalid
        · cases hvalid
        · split at hvalid
          · cases hvalid
          · next hg => exact not_not.mp hg

/-- With nothing admitted, the clock may advance and the cooldown may change. -/
theorem Pacing.clock (h : Pacing r) (hadm : r.admitted = []) (now b ms : ℕ) :
    Pacing { r with now := now, rateLimitBlockedUntil := b, rateLimitBackoffMs := ms } :=
  { h with admitted_slot := by simp [hadm] }

theorem Pacing.receive (h : Pacing r) (hadm : r.admitted = []) (m : CTraderEnvelope) :
    Pacing (r.receive m) := by
  rcases receive_cases (r := r) m with he | ⟨b, ms, q, hq, o, he⟩ <;> rw [he]
  · exact h
  · exact (h.clock hadm r.now b ms).congr (sameQueue_deleteAndSettle q.clientMsgId o)

end Requests

end ScalpingBot.Transport
