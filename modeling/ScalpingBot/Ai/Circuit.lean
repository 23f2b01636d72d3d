import Mathlib.Data.List.Pairwise
import ScalpingBot.Ai.Client

/-! The circuit over every run of calls, gate answers and provider answers: nothing is sent while it is
    open, no call sends more than its attempts or beyond its deadline, and each failed call is one
    strike, as long as the gate neither refuses a second attempt nor uses up the deadline of the first
    one. -/

namespace ScalpingBot.Ai

variable {P C R V M T : Type} (options : AiClientOptions) (codec : Codec P C R V M T)

abbrev Step (P C R M : Type) := Journal.Step (Client P C) (Event P C R M)

/-- What leaves the client in a step. -/
def outputs (step' : Step P C R M) : List (Output M T) := (step options codec step'.before step'.call).2

/-- The strikes after a call: none after an accepted response, the same when nothing was sent. -/
def strikes (before requests : ℕ) : Except (Failure M) (AiAnalysisResult M T) → ℕ
  | .ok _ => 0
  | .error _ => if requests = 0 then before else before + 1

/-- What a step may send and how it counts. -/
structure Lawful (step' : Step P C R M) : Prop where
  closed : ∀ clock remainingMs, .sent clock remainingMs ∈ outputs options codec step' →
    step'.before.circuitOpen clock = false
  deadline : ∀ clock remainingMs, .sent clock remainingMs ∈ outputs options codec step' →
    1000 ≤ remainingMs
  attempts : ∀ requests result, .finished requests result ∈ outputs options codec step' →
    requests ≤ options.retries + 1
  counted : ∀ requests result, .finished requests result ∈ outputs options codec step' →
    step'.after.failureCount = strikes step'.before.failureCount requests result
  uncounted : (∀ requests result, .finished requests result ∉ outputs options codec step') →
    step'.after.failureCount = step'.before.failureCount
  cleared : step'.before.failureCount ≠ 0 → step'.after.failureCount = 0 →
    ∃ requests result, .finished requests (.ok result) ∈ outputs options codec step'

/-- The gate refuses no second attempt, and leaves a second of the deadline to the first one. -/
def GateInTime (step' : Step P C R M) : Prop :=
  match step'.before.phase, step'.call with
  | .gate flight, .gateAnswers (.error _) _ _ => flight.attempt = 0
  | .gate flight, .gateAnswers (.ok ()) readAt _ =>
    flight.attempt = 0 → 1000 ≤ flight.timeoutMs - (readAt - flight.started)
  | _, _ => True

/-! ### The call that is being served -/

/-- A call that waits at the gate has sent one request for each attempt before this one, and the
    circuit was closed when it started. -/
def Waiting (options : AiClientOptions) (client : Client P C) : Prop :=
  match client.phase with
  | .idle => True
  | .gate flight => flight.attempt ≤ options.retries ∧ flight.sent = flight.attempt ∧
      client.openUntil ≤ flight.started
  | .provider flight => flight.attempt ≤ options.retries ∧ flight.sent = flight.attempt + 1 ∧
      client.openUntil ≤ flight.started

variable {options codec}

theorem waiting_again {client : Client P C} {flight : Flight P C}
    (h : client.phase = .provider flight) (hw : Waiting options client)
    (hretry : flight.attempt < options.retries) :
    Waiting options (again client flight : Client P C × List (Output M T)).1 := by
  rw [Waiting, h] at hw
  obtain ⟨-, hsent, hopen⟩ := hw
  exact ⟨hretry, hsent, hopen⟩

/-- A failure of an attempt leads to the next one or ends the call with a strike. -/
theorem caught_cases (client : Client P C) (flight : Flight P C) (failure : Failure M) (endedAt : ℤ) :
    (flight.attempt < options.retries ∧ failure.name ≠ .other ∧
      (caught options client flight failure endedAt : Client P C × List (Output M T)) =
        again client flight) ∨
    (caught options client flight failure endedAt : Client P C × List (Output M T)) =
      ({ recordFailure options client endedAt with phase := .idle },
        [.finished flight.sent (.error failure)]) := by
  rw [caught]
  split
  · rename_i h
    refine .inl ⟨h.1, ?_, rfl⟩
    rcases h.2 with h | h <;> simp [h]
  · exact .inr rfl

/-- How an attempt goes on: with the next one, with the end of the call and a strike, or with an
    accepted response. -/
def Settled (options : AiClientOptions) (client : Client P C) (flight : Flight P C) (endedAt : ℤ)
    (settled : Client P C × List (Output M T)) : Prop :=
  (flight.attempt < options.retries ∧ settled = again client flight) ∨
    (∃ failure, settled = ({ recordFailure options client endedAt with phase := .idle },
      [.finished flight.sent (.error failure)])) ∨
    ∃ result, settled = (⟨0, 0, .idle⟩, [.finished flight.sent (.ok result)])

theorem settled_caught (client : Client P C) (flight : Flight P C) (failure : Failure M)
    (endedAt : ℤ) :
    Settled options client flight endedAt
      (caught options client flight failure endedAt : Client P C × List (Output M T)) := by
  rcases caught_cases client flight failure endedAt with ⟨hretry, -, heq⟩ | heq
  · exact .inl ⟨hretry, heq⟩
  · exact .inr (.inl ⟨failure, heq⟩)

variable (options codec) in
theorem settled_providerAnswers (client : Client P C) (flight : Flight P C) (reply : Reply R M)
    (endedAt : ℤ) : Settled options client flight endedAt
      (providerAnswers options codec client flight reply endedAt) := by
  cases reply with
  | thrown failure => exact settled_caught client flight _ endedAt
  | response status body =>
    simp only [providerAnswers]
    split
    · split
      · rename_i hretry
        exact .inl ⟨hretry.1, rfl⟩
      · exact settled_caught client flight _ endedAt
    · split
      · exact settled_caught client flight _ endedAt
      · exact .inr (.inr ⟨_, rfl⟩)

variable (options codec) in
/-- What a call leads to. -/
theorem analyze_cases (client : Client P C) (request : AiAnalysisRequest P C)
    (checkedAt startedAt : ℤ) :
    (∃ failure, analyze options codec client request checkedAt startedAt =
      (client, [.finished 0 (.error failure)])) ∨
    (client.phase = .idle ∧ client.openUntil ≤ checkedAt ∧ ∃ body timeoutMs,
      analyze options codec client request checkedAt startedAt =
        ({ client with phase := .gate ⟨request, body, startedAt, timeoutMs, 0, 0⟩ }, [])) := by
  rw [analyze]
  split
  · rename_i hidle
    split
    · exact .inl ⟨_, rfl⟩
    · rename_i hclosed
      have hopen : client.openUntil ≤ checkedAt := by
        simpa [Client.circuitOpen] using hclosed
      split
      · exact .inl ⟨_, rfl⟩
      · rename_i body timeoutMs _
        exact .inr ⟨hidle, hopen, body, timeoutMs, rfl⟩
  · exact .inl ⟨_, rfl⟩

/-- A step keeps the account of the call that is being served. -/
theorem waiting_next {client : Client P C} {event : Event P C R M}
    (hclock : event.readings.Pairwise (· ≤ ·)) (h : Waiting options client) :
    Waiting options (next options codec client event) := by
  cases event with
  | analyze request checkedAt startedAt =>
    rw [next, step]
    rcases analyze_cases options codec client request checkedAt startedAt with
      ⟨failure, heq⟩ | ⟨-, hopen, body, timeoutMs, heq⟩
    · rw [heq]
      exact h
    · rw [heq]
      have hstarted : checkedAt ≤ startedAt := by
        simpa [Event.readings] using hclock
      exact ⟨Nat.zero_le _, rfl, Int.le_trans hopen hstarted⟩
  | gateAnswers answer readAt endedAt =>
    cases hphase : client.phase with
    | idle =>
      simp only [next, step, hphase]
      exact h
    | provider flight =>
      simp only [next, step, hphase]
      exact h
    | gate flight =>
      simp only [next, step, hphase]
      rw [Waiting, hphase] at h
      obtain ⟨hattempt, hsent, hopen⟩ := h
      cases answer with
      | error failure => exact trivial
      | ok u =>
        simp only [gateAnswers]
        split
        · rcases caught_cases (M := M) (T := T) client flight (failed "AI_REQUEST_DEADLINE_EXHAUSTED")
            endedAt with ⟨-, hname, -⟩ | heq
          · exact absurd rfl hname
          · rw [heq]
            exact trivial
        · exact ⟨hattempt, congrArg (· + 1) hsent, hopen⟩
  | providerAnswers reply endedAt =>
    cases hphase : client.phase with
    | idle =>
      simp only [next, step, hphase]
      exact h
    | gate flight =>
      simp only [next, step, hphase]
      exact h
    | provider flight =>
      simp only [next, step, hphase]
      rcases settled_providerAnswers options codec client flight reply endedAt with
        ⟨hretry, heq⟩ | ⟨failure, heq⟩ | ⟨result, heq⟩
      · rw [heq]
        exact waiting_again hphase h hretry
      · rw [heq]
        exact trivial
      · rw [heq]
        exact trivial

/-! ### What a step may do, by what leaves the client in it -/

section Outputs

variable {client client' : Client P C} {event : Event P C R M}

theorem lawful_of_nothing (h : step options codec client event = (client', []))
    (hcount : client'.failureCount = client.failureCount) :
    Lawful options codec ⟨client, event, next options codec client event⟩ := by
  have hout : outputs options codec ⟨client, event, next options codec client event⟩ = [] :=
    congrArg Prod.snd h
  have hafter : (next options codec client event).failureCount = client.failureCount := by
    rw [← hcount, next, h]
  refine ⟨?_, ?_, ?_, ?_, fun _ => hafter, fun hbefore hzero => absurd (hafter.symm.trans hzero) hbefore⟩
  all_goals
    intro _ _ hmem
    rw [hout] at hmem
    cases hmem

theorem lawful_of_sent {clock remainingMs : ℤ}
    (h : step options codec client event = (client', [.sent clock remainingMs]))
    (hcount : client'.failureCount = client.failureCount) (hopen : client.openUntil ≤ clock)
    (hremaining : 1000 ≤ remainingMs) :
    Lawful options codec ⟨client, event, next options codec client event⟩ := by
  have hout : outputs options codec ⟨client, event, next options codec client event⟩ =
      [.sent clock remainingMs] := congrArg Prod.snd h
  have hafter : (next options codec client event).failureCount = client.failureCount := by
    rw [← hcount, next, h]
  refine ⟨?_, ?_, ?_, ?_, fun _ => hafter, fun hbefore hzero => absurd (hafter.symm.trans hzero) hbefore⟩
  · intro other remaining hmem
    rw [hout, List.mem_singleton, Output.sent.injEq] at hmem
    rw [hmem.1, Client.circuitOpen, decide_eq_false_iff_not]
    exact Int.not_lt.mpr hopen
  · intro other remaining hmem
    rw [hout, List.mem_singleton, Output.sent.injEq] at hmem
    exact hmem.2 ▸ hremaining
  · intro requests result hmem
    rw [hout, List.mem_singleton] at hmem
    cases hmem
  · intro requests result hmem
    rw [hout, List.mem_singleton] at hmem
    cases hmem

theorem lawful_finished_iff {requests : ℕ} {result : Except (Failure M) (AiAnalysisResult M T)}
    (h : step options codec client event = (client', [.finished requests result]))
    (hattempts : requests ≤ options.retries + 1) :
    Lawful options codec ⟨client, event, next options codec client event⟩ ↔
      client'.failureCount = strikes client.failureCount requests result := by
  have hout : outputs options codec ⟨client, event, next options codec client event⟩ =
      [.finished requests result] := congrArg Prod.snd h
  have hafter : next options codec client event = client' := congrArg Prod.fst h
  rw [hafter] at hout ⊢
  constructor
  · intro hlawful
    exact hlawful.counted requests result (hout ▸ List.mem_singleton_self _)
  · intro hcount
    refine ⟨?_, ?_, ?_, ?_, ?_, ?_⟩
    · intro clock remainingMs hmem
      rw [hout, List.mem_singleton] at hmem
      cases hmem
    · intro clock remainingMs hmem
      rw [hout, List.mem_singleton] at hmem
      cases hmem
    · intro other result' hmem
      rw [hout, List.mem_singleton, Output.finished.injEq] at hmem
      exact hmem.1 ▸ hattempts
    · intro other result' hmem
      rw [hout, List.mem_singleton, Output.finished.injEq] at hmem
      rw [hmem.1, hmem.2]
      exact hcount
    · intro hnone
      exact absurd (hout ▸ List.mem_singleton_self _) (hnone requests result)
    · intro hbefore hzero
      cases result with
      | ok accepted => exact ⟨requests, accepted, hout ▸ List.mem_singleton_self _⟩
      | error failure =>
        rw [hcount, strikes] at hzero
        split at hzero
        · exact absurd hzero hbefore
        · cases hzero

end Outputs

/-- An answer that nobody waits for. -/
theorem lawful_of_ignored {client : Client P C} {event : Event P C R M}
    (h : step options codec client event = (client, [])) :
    Lawful options codec ⟨client, event, next options codec client event⟩ :=
  lawful_of_nothing h rfl

theorem lawful_analyze {client : Client P C} {request : AiAnalysisRequest P C}
    {checkedAt startedAt : ℤ} : Lawful options codec ⟨client, .analyze request checkedAt startedAt,
      next options codec client (.analyze request checkedAt startedAt)⟩ := by
  rcases analyze_cases options codec client request checkedAt startedAt with
    ⟨failure, heq⟩ | ⟨-, -, body, timeoutMs, heq⟩
  · have hstep : step options codec client (.analyze request checkedAt startedAt) =
        (client, [.finished 0 (.error failure)]) := heq
    rw [lawful_finished_iff hstep (Nat.zero_le _), strikes, if_pos rfl]
  · exact lawful_of_nothing heq rfl

/-- The gate is where a strike can be wrong. -/
theorem lawful_gateAnswers_iff {client : Client P C} {flight : Flight P C}
    {answer : Except (Failure M) Unit} {readAt endedAt : ℤ} (hphase : client.phase = .gate flight)
    (hw : Waiting options client) (hstarted : flight.started ≤ readAt) :
    Lawful options codec ⟨client, .gateAnswers answer readAt endedAt,
        next options codec client (.gateAnswers answer readAt endedAt)⟩ ↔
      GateInTime (R := R) ⟨client, .gateAnswers answer readAt endedAt,
        next options codec client (.gateAnswers answer readAt endedAt)⟩ := by
  rw [Waiting, hphase] at hw
  obtain ⟨hattempt, hsent, hopen⟩ := hw
  have hrequests : flight.sent ≤ options.retries + 1 := by omega
  cases answer with
  | error failure =>
    have hstep : step options codec client (.gateAnswers (.error failure) readAt endedAt : Event P C R M) =
        ({ client with phase := .idle }, [.finished flight.sent (.error failure)]) := by
      simp only [step, hphase, gateAnswers]
    rw [lawful_finished_iff hstep hrequests]
    simp only [GateInTime, hphase, strikes, hsent]
    split <;> omega
  | ok u =>
    simp only [GateInTime, hphase]
    by_cases hremaining : flight.timeoutMs - (readAt - flight.started) < 1000
    · have hstep : step options codec client (.gateAnswers (.ok u) readAt endedAt : Event P C R M) =
          ({ recordFailure options client endedAt with phase := .idle },
            [.finished flight.sent (.error (failed "AI_REQUEST_DEADLINE_EXHAUSTED"))]) := by
        simp only [step, hphase, gateAnswers, if_pos hremaining]
        rcases caught_cases (M := M) (T := T) client flight (failed "AI_REQUEST_DEADLINE_EXHAUSTED")
          endedAt with ⟨-, hname, -⟩ | heq
        · exact absurd rfl hname
        · exact heq
      rw [lawful_finished_iff hstep hrequests]
      simp only [strikes, hsent, recordFailure]
      split <;> omega
    · have hstep : step options codec client (.gateAnswers (.ok u) readAt endedAt : Event P C R M) =
          ({ client with phase := .provider { flight with sent := flight.sent + 1 } },
            [.sent readAt (flight.timeoutMs - (readAt - flight.started))]) := by
        simp only [step, hphase, gateAnswers, if_neg hremaining]
      refine iff_of_true ?_ fun _ => Int.not_lt.mp hremaining
      exact lawful_of_sent hstep rfl (Int.le_trans hopen hstarted) (Int.not_lt.mp hremaining)

theorem lawful_providerAnswers {client : Client P C} {flight : Flight P C} {reply : Reply R M}
    {endedAt : ℤ} (hphase : client.phase = .provider flight) (hw : Waiting options client) :
    Lawful options codec ⟨client, .providerAnswers reply endedAt,
      next options codec client (.providerAnswers reply endedAt)⟩ := by
  rw [Waiting, hphase] at hw
  obtain ⟨hattempt, hsent, -⟩ := hw
  have hrequests : flight.sent ≤ options.retries + 1 := by omega
  have hstep : step options codec client (.providerAnswers reply endedAt) =
      providerAnswers options codec client flight reply endedAt := by
    simp only [step, hphase]
  rcases settled_providerAnswers options codec client flight reply endedAt with
    ⟨-, heq⟩ | ⟨failure, heq⟩ | ⟨result, heq⟩
  · exact lawful_of_nothing (hstep.trans heq) rfl
  · rw [lawful_finished_iff (hstep.trans heq) hrequests, strikes, hsent, if_neg (Nat.succ_ne_zero _)]
    rfl
  · rw [lawful_finished_iff (hstep.trans heq) hrequests]
    rfl

/-- A step of a client that serves a call from before the readings of the step. -/
theorem lawful_iff {client : Client P C} {event : Event P C R M} (hw : Waiting options client)
    (hstarted : ∀ flight, client.phase = .gate flight → ∀ t ∈ event.readings, flight.started ≤ t) :
    Lawful options codec ⟨client, event, next options codec client event⟩ ↔
      GateInTime ⟨client, event, next options codec client event⟩ := by
  cases event with
  | analyze request checkedAt startedAt =>
    refine iff_of_true lawful_analyze ?_
    cases hphase : client.phase <;> simp only [GateInTime, hphase]
  | gateAnswers answer readAt endedAt =>
    cases hphase : client.phase with
    | gate flight =>
      exact lawful_gateAnswers_iff hphase hw (hstarted flight hphase readAt List.mem_cons_self)
    | idle =>
      refine iff_of_true (lawful_of_ignored (by simp only [step, hphase])) ?_
      simp only [GateInTime, hphase]
    | provider flight =>
      refine iff_of_true (lawful_of_ignored (by simp only [step, hphase])) ?_
      simp only [GateInTime, hphase]
  | providerAnswers reply endedAt =>
    cases hphase : client.phase with
    | provider flight =>
      refine iff_of_true (lawful_providerAnswers hphase hw) ?_
      simp only [GateInTime, hphase]
    | idle =>
      refine iff_of_true (lawful_of_ignored (by simp only [step, hphase])) ?_
      simp only [GateInTime, hphase]
    | gate flight =>
      refine iff_of_true (lawful_of_ignored (by simp only [step, hphase])) ?_
      simp only [GateInTime, hphase]

/-! ### Runs -/

def Phase.flight? : Phase P C → Option (Flight P C)
  | .idle => none
  | .gate flight => some flight
  | .provider flight => some flight

/-- A call that is served after a step was served before it, or has started in it. -/
theorem started_next {client : Client P C} {event : Event P C R M} {flight' : Flight P C}
    (h : (next options codec client event).phase.flight? = some flight') :
    (∃ flight, client.phase.flight? = some flight ∧ flight.started = flight'.started) ∨
      flight'.started ∈ event.readings := by
  cases event with
  | analyze request checkedAt startedAt =>
    rw [next, step] at h
    rcases analyze_cases options codec client request checkedAt startedAt with
      ⟨failure, heq⟩ | ⟨-, -, body, timeoutMs, heq⟩
    · rw [heq] at h
      exact .inl ⟨flight', h, rfl⟩
    · rw [heq] at h
      cases h
      exact .inr (List.mem_cons_of_mem _ (List.mem_singleton_self _))
  | gateAnswers answer readAt endedAt =>
    refine .inl ?_
    cases hphase : client.phase with
    | idle =>
      simp only [next, step, hphase] at h
      cases h
    | provider flight =>
      simp only [next, step, hphase] at h
      exact ⟨flight', h, rfl⟩
    | gate flight =>
      refine ⟨flight, rfl, ?_⟩
      simp only [next, step, hphase] at h
      cases answer with
      | error failure => cases h
      | ok u =>
        simp only [gateAnswers] at h
        split at h
        · rcases caught_cases (M := M) (T := T) client flight
            (failed "AI_REQUEST_DEADLINE_EXHAUSTED") endedAt with ⟨-, hname, -⟩ | heq
          · exact absurd rfl hname
          · rw [heq] at h
            cases h
        · cases h
          rfl
  | providerAnswers reply endedAt =>
    refine .inl ?_
    cases hphase : client.phase with
    | idle =>
      simp only [next, step, hphase] at h
      cases h
    | gate flight =>
      simp only [next, step, hphase] at h
      exact ⟨flight', h, rfl⟩
    | provider flight =>
      refine ⟨flight, rfl, ?_⟩
      simp only [next, step, hphase] at h
      rcases settled_providerAnswers options codec client flight reply endedAt with
        ⟨-, heq⟩ | ⟨failure, heq⟩ | ⟨result, heq⟩
      · rw [heq] at h
        cases h
        rfl
      · rw [heq] at h
        cases h
      · rw [heq] at h
        cases h

variable (options codec) in
/-- What is known of the client before each step of a run. -/
theorem waiting_steps (client : Client P C) {events : List (Event P C R M)}
    (hclock : (events.flatMap Event.readings).Pairwise (· ≤ ·)) (hw : Waiting options client)
    (hstarted : ∀ flight, client.phase.flight? = some flight →
      ∀ t ∈ events.flatMap Event.readings, flight.started ≤ t) :
    ∀ step' ∈ Journal.steps (next options codec) client events,
      Waiting options step'.before ∧ ∀ flight, step'.before.phase = .gate flight →
        ∀ t ∈ step'.call.readings, flight.started ≤ t := by
  induction events generalizing client with
  | nil => exact fun step' h => absurd h List.not_mem_nil
  | cons event events ih =>
    rw [List.flatMap_cons, List.pairwise_append] at hclock
    obtain ⟨hevent, hevents, hacross⟩ := hclock
    simp only [List.flatMap_cons, List.mem_append] at hstarted
    intro step' hstep
    rcases List.mem_cons.mp hstep with rfl | hstep
    · refine ⟨hw, fun flight hphase t ht => hstarted flight ?_ t (.inl ht)⟩
      rw [hphase]
      rfl
    · refine ih _ hevents (waiting_next hevent hw) (fun flight' hflight' t ht => ?_) step' hstep
      rcases started_next hflight' with ⟨flight, hflight, heq⟩ | hmem
      · rw [← heq]
        exact hstarted flight hflight t (.inr ht)
      · exact hacross _ hmem t ht

/-- Every run is lawful in each of its steps exactly when its gate is in time in each of them. -/
theorem circuit_lawful_iff (options : AiClientOptions) (codec : Codec P C R V M T)
    (events : List (Event P C R M)) (hclock : (events.flatMap Event.readings).Pairwise (· ≤ ·)) :
    (∀ step' ∈ Journal.steps (next options codec) .new events, Lawful options codec step') ↔
      ∀ step' ∈ Journal.steps (next options codec) .new events, GateInTime step' := by
  have hsteps := waiting_steps options codec Client.new hclock
    trivial fun flight hflight => by cases hflight
  refine forall₂_congr fun step' hstep => ?_
  obtain ⟨hw, hstarted⟩ := hsteps step' hstep
  have hafter := Journal.after_eq hstep
  rw [show step' = ⟨step'.before, step'.call, next options codec step'.before step'.call⟩ by
    rw [← hafter]]
  exact lawful_iff hw hstarted

/-! ### The requests of a run -/

def sentIn : List (Output M T) → ℕ
  | [] => 0
  | .sent _ _ :: rest => 1 + sentIn rest
  | .finished _ _ :: rest => sentIn rest

def finishedIn : List (Output M T) → ℕ
  | [] => 0
  | .sent _ _ :: rest => finishedIn rest
  | .finished requests _ :: rest => requests + finishedIn rest

/-- The requests that the call in service has sent so far. -/
def Client.pending (client : Client P C) : ℕ := (client.phase.flight?.map Flight.sent).getD 0

variable (options codec) in
theorem pending_step (client : Client P C) (event : Event P C R M) :
    sentIn (step options codec client event).2 + client.pending =
      finishedIn (step options codec client event).2 + (next options codec client event).pending := by
  rw [next]
  cases event with
  | analyze request checkedAt startedAt =>
    rw [step]
    rcases analyze_cases options codec client request checkedAt startedAt with
      ⟨failure, heq⟩ | ⟨hidle, -, body, timeoutMs, heq⟩
    · rw [heq]
      rfl
    · rw [heq, Client.pending, hidle]
      rfl
  | gateAnswers answer readAt endedAt =>
    cases hphase : client.phase with
    | idle => simp only [step, hphase, sentIn, finishedIn]
    | provider flight => simp only [step, hphase, sentIn, finishedIn]
    | gate flight =>
      have hpending : client.pending = flight.sent := by rw [Client.pending, hphase]; rfl
      simp only [step, hphase, hpending]
      cases answer with
      | error failure => exact Nat.add_comm _ _
      | ok u =>
        simp only [gateAnswers]
        split
        · rcases caught_cases (M := M) (T := T) client flight
            (failed "AI_REQUEST_DEADLINE_EXHAUSTED") endedAt with ⟨-, hname, -⟩ | heq
          · exact absurd rfl hname
          · rw [heq]
            exact Nat.add_comm _ _
        · simp only [sentIn, finishedIn, Client.pending, Phase.flight?, Option.map_some, Option.getD_some]
          omega
  | providerAnswers reply endedAt =>
    cases hphase : client.phase with
    | idle => simp only [step, hphase, sentIn, finishedIn]
    | gate flight => simp only [step, hphase, sentIn, finishedIn]
    | provider flight =>
      have hpending : client.pending = flight.sent := by rw [Client.pending, hphase]; rfl
      simp only [step, hphase, hpending]
      rcases settled_providerAnswers options codec client flight reply endedAt with
        ⟨-, heq⟩ | ⟨failure, heq⟩ | ⟨result, heq⟩
      · rw [heq]
        rfl
      · rw [heq]
        exact Nat.add_comm _ _
      · rw [heq]
        exact Nat.add_comm _ _

/-- Every request that has left the client in a run is one of a call that has ended, or of the one that
    is still served. -/
theorem requests_counted (client : Client P C) (events : List (Event P C R M)) :
    ((Journal.steps (next options codec) client events).map fun step' =>
        sentIn (outputs options codec step')).sum + client.pending =
      ((Journal.steps (next options codec) client events).map fun step' =>
        finishedIn (outputs options codec step')).sum +
          (events.foldl (next options codec) client).pending := by
  induction events generalizing client with
  | nil => rfl
  | cons event events ih =>
    have hstep := pending_step options codec client event
    have hrest := ih (next options codec client event)
    rw [Journal.steps, List.map_cons, List.map_cons, List.sum_cons, List.sum_cons, List.foldl_cons]
    simp only [outputs] at hrest ⊢
    omega

/-! ### Two calls that count wrongly -/

namespace CircuitSample

/-- The defaults of the client, with one more attempt. -/
def retrying : AiClientOptions where
  model := "test-model"
  timeoutMs := none
  maxRetries := some 1
  maxRequestBytes := none
  circuitBreakerFailures := none
  circuitBreakerResetMs := none
  inputProfile := some .structured
  requireReturnedModelMatch := none
  timeout_bounds := by decide
  retries_bound := by decide
  bytes_bounds := by decide
  failures_bounds := by decide
  reset_bounds := by decide

/-- No response is read in these runs. -/
def unread : Codec Unit Unit Unit Unit Unit Unit where
  payloadText _ := .ok ""
  chartDataUrl _ := .error (failed "AI_CHART_MISSING")
  requestBody _ _ := ""
  responseText _ := .error (failed "AI_RESPONSE_BODY_MISSING")
  envelope _ := .error (failed "AI_RESPONSE_ENVELOPE_INVALID")
  returnedModel _ := none
  telemetry _ _ _ := .ok ()
  extract _ := .error (failed "AI_RESPONSE_TEXT_MISSING")
  parse _ _ := .ok ⟨false, none, []⟩
  analysisId _ := ""
  symbol _ := ""

def request : AiAnalysisRequest Unit Unit := ⟨"", "XAUUSD", (), none, none⟩

/-- The gate takes 29.5 of the 30 seconds. -/
def slowGate : List (Event Unit Unit Unit Unit) :=
  [.analyze request 0 0, .gateAnswers (.ok ()) 29500 29500]

/-- The provider is unavailable, and the market closes before the second attempt. -/
def closedBetween : List (Event Unit Unit Unit Unit) :=
  [.analyze request 0 0, .gateAnswers (.ok ()) 10 10, .providerAnswers (.response 503 ()) 20,
    .gateAnswers (.error (failed "AI_MARKET_SESSION_CLOSED")) 30 30]

end CircuitSample

open CircuitSample in
/-- A strike without a request, and a failed request without a strike. -/
theorem gate_miscounts :
    (¬ ∀ step' ∈ Journal.steps (next retrying unread) .new slowGate, Lawful retrying unread step') ∧
      ¬ ∀ step' ∈ Journal.steps (next retrying unread) .new closedBetween,
        Lawful retrying unread step' := by
  constructor
  · intro h
    have hcount := (h _ (List.mem_cons_of_mem _ List.mem_cons_self)).counted 0
      (.error (failed "AI_REQUEST_DEADLINE_EXHAUSTED")) (List.mem_singleton.mpr rfl)
    revert hcount
    decide +kernel
  · intro h
    have hcount := (h _ (List.mem_cons_of_mem _ (List.mem_cons_of_mem _ (List.mem_cons_of_mem _
      List.mem_cons_self)))).counted 1 (.error (failed "AI_MARKET_SESSION_CLOSED"))
      (List.mem_singleton.mpr rfl)
    revert hcount
    decide +kernel

open CircuitSample in
theorem circuit_lawful_iff_slowGate :
    (∀ step' ∈ Journal.steps (next retrying unread) .new slowGate, Lawful retrying unread step') ↔
      ∀ step' ∈ Journal.steps (next retrying unread) .new slowGate, GateInTime step' :=
  circuit_lawful_iff retrying unread slowGate (by decide)

end ScalpingBot.Ai
