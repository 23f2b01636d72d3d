import Mathlib.Tactic.Linarith
import ScalpingBot.Depth.Atomic
import ScalpingBot.Library.Journal

/-! What the samples of a window add up to, over every run of messages and reconnects: the changes of
    quotes and depths that no sample records, and the reconnects between two samples, are all that a
    report can miss. -/

namespace ScalpingBot.Depth

variable {D : Type} (A : Arithmetic D)

/-! ### Runs -/

inductive Call where
  | markReconnect
  | apply (payload : Record) (sourceAt receivedAt : Option Instant)

def Call.isMessage : Call → Bool
  | .markReconnect => false
  | .apply .. => true

/-- When a message was received, if its clock says so. -/
def Call.received : Call → Option Instant
  | .markReconnect => none
  | .apply _ _ receivedAt => receivedAt

def next (book : Book D) : Call → Book D
  | .markReconnect => markReconnect book
  | .apply payload sourceAt receivedAt => (apply A book payload sourceAt receivedAt).1

/-- The book after some calls. -/
def run (calls : List Call) : Book D := calls.foldl (next A) .new

abbrev Step (D : Type) := Journal.Step (Book D) Call

/-- The sample that a step leaves: only a message that does not fail leaves one. -/
def sampleAt (step : Step D) : Option (BookSample D) :=
  match step.call with
  | .apply payload (some _) (some received) =>
    match (change A step.before.quotes payload).2 with
    | .ok () => some (sampleOf A (change A step.before.quotes payload).1 received)
    | .error _ => none
  | _ => none

/-- The steps from the first sample of a window. -/
def windowSteps (calls : List Call) (windowMs : Window) (now : Instant) : List (Step D) :=
  (Journal.steps (next A) .new calls).dropWhile fun step =>
    !(sampleAt A step).any fun sample => sample.timestamp ≥ now - windowMs.ms

/-! ### One step -/

variable {A}

theorem apply_of_ok {book : Book D} {payload : Record} {source received : Instant}
    (h : (change A book.quotes payload).2 = .ok ()) :
    (apply A book payload (some source) (some received)).1.quotes =
        (change A book.quotes payload).1.quotes ∧
      (apply A book payload (some source) (some received)).1.samples =
        pushSample book.samples (sampleOf A (change A book.quotes payload).1 received) := by
  simp only [apply, h, and_self]

theorem apply_of_error {book : Book D} {payload : Record} {source received : Instant}
    {reason : Reason} (h : (change A book.quotes payload).2 = .error reason) :
    (apply A book payload (some source) (some received)).1.samples = book.samples := by
  simp only [apply, h]

/-- The samples after a step. -/
theorem samples_next (book : Book D) (call : Call) : (next A book call).samples =
    match sampleAt A ⟨book, call, next A book call⟩ with
    | some sample => pushSample book.samples sample
    | none => book.samples := by
  cases call with
  | markReconnect => rfl
  | apply payload sourceAt receivedAt =>
    by_cases hclocks : sourceAt.isSome ∧ receivedAt.isSome
    · obtain ⟨hsource, hreceived⟩ := hclocks
      obtain ⟨source, rfl⟩ := Option.isSome_iff_exists.mp hsource
      obtain ⟨received, rfl⟩ := Option.isSome_iff_exists.mp hreceived
      cases hend : (change A book.quotes payload).2 with
      | ok u =>
        simp only [next, sampleAt, hend]
        exact (apply_of_ok hend).2
      | error reason =>
        simp only [next, sampleAt, hend]
        exact apply_of_error hend
    · have hsample : sampleAt A ⟨book, .apply payload sourceAt receivedAt,
          next A book (.apply payload sourceAt receivedAt)⟩ = none := by
        cases sourceAt with
        | none => rfl
        | some source =>
          cases receivedAt with
          | none => rfl
          | some received => exact absurd ⟨rfl, rfl⟩ hclocks
      rw [hsample, next, apply_of_invalid hclocks]

theorem size_foldl_delete (progress : Progress D) (ids : List String) :
    (ids.foldl Progress.delete progress).quotes.size +
        (ids.foldl Progress.delete progress).removals =
      progress.quotes.size + progress.removals ∧
    (ids.foldl Progress.delete progress).additions = progress.additions := by
  induction ids generalizing progress with
  | nil => exact ⟨rfl, rfl⟩
  | cons id ids ih =>
    rw [List.foldl_cons]
    obtain ⟨hsize, hadditions⟩ := ih (progress.delete id)
    refine ⟨hsize.trans ?_, hadditions⟩
    have hdelete := progress.quotes.size_delete id
    simp only [Progress.delete]
    omega

theorem size_foldl_put (progress : Progress D) (quotes : List (DepthQuote D)) :
    (quotes.foldl (fun progress quote => progress.put (some quote)) progress).quotes.size +
        progress.additions =
      progress.quotes.size +
        (quotes.foldl (fun progress quote => progress.put (some quote)) progress).additions ∧
    (quotes.foldl (fun progress quote => progress.put (some quote)) progress).removals =
      progress.removals := by
  induction quotes generalizing progress with
  | nil => exact ⟨rfl, rfl⟩
  | cons quote quotes ih =>
    rw [List.foldl_cons]
    obtain ⟨hsize, hremovals⟩ := ih (progress.put (some quote))
    refine ⟨?_, hremovals⟩
    have hset := progress.quotes.size_set quote
    simp only [Progress.put] at hsize ⊢
    omega

/-- A message, whether it fails or not, has counted what it did to the quotes. -/
theorem size_change (quotes : Quotes D) (payload : Record) :
    (change A quotes payload).1.quotes.size + (change A quotes payload).1.removals =
      quotes.size + (change A quotes payload).1.additions := by
  rw [change_eq]
  obtain ⟨hput, hremovals⟩ := size_foldl_put
    ((reachedIds payload).foldl Progress.delete ⟨quotes, 0, 0⟩) (reachedQuotes A payload)
  obtain ⟨hdelete, hadditions⟩ := size_foldl_delete ⟨quotes, 0, 0⟩ (reachedIds payload)
  rw [hadditions] at hput
  simp only at hdelete hput ⊢
  omega

/-- What a step leaves a sample of. -/
theorem sampleAt_eq_some {step : Step D} {sample : BookSample D} (h : sampleAt A step = some sample)
    (hafter : step.after = next A step.before step.call) :
    step.call.received = some sample.timestamp ∧
      sample.bidDepth = depth A (bids A step.after.quotes) ∧
      sample.askDepth = depth A (asks A step.after.quotes) ∧
      (sample.additions : ℤ) - sample.removals =
        step.after.quotes.size - step.before.quotes.size := by
  obtain ⟨before, call, after⟩ := step
  cases call with
  | markReconnect => cases h
  | apply payload sourceAt receivedAt =>
    cases sourceAt with
    | none => cases h
    | some source =>
      cases receivedAt with
      | none => cases h
      | some received =>
        simp only [sampleAt] at h
        split at h
        · rename_i hend
          simp only at hafter
          have hquotes : after.quotes = (change A before.quotes payload).1.quotes := by
            rw [hafter]
            exact (apply_of_ok hend).1
          rw [Option.some.injEq] at h
          subst h
          refine ⟨rfl, ?_, ?_, ?_⟩
          · rw [hquotes]
            rfl
          · rw [hquotes]
            rfl
          · have hsize := size_change (A := A) before.quotes payload
            simp only [hquotes, sampleOf]
            omega
        · cases h

theorem reconnectSequence_apply (book : Book D) (payload : Record)
    (sourceAt receivedAt : Option Instant) :
    (apply A book payload sourceAt receivedAt).1.reconnectSequence = book.reconnectSequence := by
  by_cases hclocks : sourceAt.isSome ∧ receivedAt.isSome
  · obtain ⟨hsource, hreceived⟩ := hclocks
    obtain ⟨source, rfl⟩ := Option.isSome_iff_exists.mp hsource
    obtain ⟨received, rfl⟩ := Option.isSome_iff_exists.mp hreceived
    cases hend : (change A book.quotes payload).2 with
    | ok u => simp only [apply, hend]
    | error reason => simp only [apply, hend]
  · rw [apply_of_invalid hclocks]

/-- Only a reconnect counts as one. -/
theorem reconnectSequence_next (book : Book D) (call : Call) :
    (next A book call).reconnectSequence =
      book.reconnectSequence + (if call.isMessage then 0 else 1) := by
  cases call with
  | markReconnect => rfl
  | apply payload sourceAt receivedAt => exact reconnectSequence_apply book payload sourceAt receivedAt

/-! ### The samples of a run -/

/-- No sample of a window has been trimmed. -/
theorem filter_samples {c : Instant} (book : Book D) (calls : List Call)
    (h : ∀ t ∈ calls.filterMap Call.received, t - 15 * 60000 ≤ c) :
    (calls.foldl (next A) book).samples.filter (fun sample => sample.timestamp ≥ c) =
      (book.samples ++ (Journal.steps (next A) book calls).filterMap (sampleAt A)).filter
        fun sample => sample.timestamp ≥ c := by
  induction calls generalizing book with
  | nil => rw [Journal.steps, List.filterMap_nil, List.append_nil, List.foldl_nil]
  | cons call calls ih =>
    have hcalls : ∀ t ∈ calls.filterMap Call.received, t - 15 * 60000 ≤ c := by
      intro t ht
      obtain ⟨other, hother, hreceived⟩ := List.mem_filterMap.mp ht
      exact h t (List.mem_filterMap.mpr ⟨other, List.mem_cons_of_mem _ hother, hreceived⟩)
    rw [List.foldl_cons, ih (next A book call) hcalls, Journal.steps, List.filter_append,
      samples_next, List.filter_append]
    cases hsample : sampleAt A ⟨book, call, next A book call⟩ with
    | none => rw [List.filterMap_cons_none hsample]
    | some sample =>
      obtain ⟨hreceived, -⟩ := sampleAt_eq_some hsample rfl
      have htime := h sample.timestamp
        (List.mem_filterMap.mpr ⟨call, List.mem_cons_self, hreceived⟩)
      simp only [pushSample]
      rw [List.filterMap_cons_some hsample, Journal.filter_dropWhile, ← List.filter_append,
        ← List.filter_append, List.append_assoc, List.singleton_append]
      intro other _ hother
      simp only [decide_eq_true_eq, ge_iff_le, not_le] at hother ⊢
      linarith

/-- Samples stand in the order in which their messages were received. -/
theorem samples_pairwise (book : Book D) (calls : List Call)
    (h : (calls.filterMap Call.received).Pairwise (· ≤ ·)) :
    ((Journal.steps (next A) book calls).filterMap (sampleAt A)).Pairwise
      fun a b => a.timestamp ≤ b.timestamp := by
  have hmem : ∀ (book : Book D) (calls : List Call),
      ∀ sample ∈ (Journal.steps (next A) book calls).filterMap (sampleAt A),
        sample.timestamp ∈ calls.filterMap Call.received := by
    intro book calls
    induction calls generalizing book with
    | nil => exact fun sample hsample => absurd hsample List.not_mem_nil
    | cons call calls ih =>
      intro sample hsample
      obtain ⟨step, hstep, hsample⟩ := List.mem_filterMap.mp hsample
      rcases List.mem_cons.mp hstep with rfl | hstep
      · obtain ⟨hreceived, -⟩ := sampleAt_eq_some hsample rfl
        exact List.mem_filterMap.mpr ⟨call, List.mem_cons_self, hreceived⟩
      · obtain ⟨other, hother, hreceived⟩ := List.mem_filterMap.mp
          (ih (next A book call) sample (List.mem_filterMap.mpr ⟨step, hstep, hsample⟩))
        exact List.mem_filterMap.mpr ⟨other, List.mem_cons_of_mem _ hother, hreceived⟩
  induction calls generalizing book with
  | nil => exact List.Pairwise.nil
  | cons call calls ih =>
    have hcalls : (calls.filterMap Call.received).Pairwise (· ≤ ·) := by
      cases hreceived : call.received with
      | none => rwa [List.filterMap_cons_none hreceived] at h
      | some t =>
        rw [List.filterMap_cons_some hreceived] at h
        exact h.of_cons
    rw [Journal.steps]
    cases hsample : sampleAt A ⟨book, call, next A book call⟩ with
    | none =>
      rw [List.filterMap_cons_none hsample]
      exact ih (next A book call) hcalls
    | some sample =>
      obtain ⟨hreceived, -⟩ := sampleAt_eq_some hsample rfl
      rw [List.filterMap_cons_some hsample]
      rw [List.filterMap_cons_some hreceived, List.pairwise_cons] at h
      exact List.pairwise_cons.mpr ⟨fun other hother => h.1 _ (hmem _ calls other hother),
        ih (next A book call) hcalls⟩

variable (A) in
/-- The samples of a window are those of the steps from its first one. -/
theorem window_samples {calls : List Call} (windowMs : Window) {now : Instant}
    (hclock : (calls.filterMap Call.received).Pairwise (· ≤ ·))
    (hnow : ∀ t ∈ calls.filterMap Call.received, t ≤ now) :
    (run A calls).samples.filter (fun sample => sample.timestamp ≥ now - windowMs.ms) =
      (windowSteps A calls windowMs now).filterMap (sampleAt A) := by
  have hms : windowMs.ms ≤ 15 * 60000 := by cases windowMs <;> decide
  rw [run, filter_samples .new calls, Book.new, List.nil_append, windowSteps]
  · refine Journal.filter_marks ?_
    refine (samples_pairwise Book.new calls hclock).imp fun hab ha => ?_
    simp only [decide_eq_true_eq, ge_iff_le] at ha ⊢
    linarith
  · intro t ht
    linarith [hnow t ht]

/-! ### What a window accounts for -/

variable (A)

/-- What the steps without a sample have changed in the number of quotes. -/
def drift (journal : List (Step D)) : ℤ :=
  ((journal.filter fun step => (sampleAt A step).isNone).map fun step =>
    (step.after.quotes.size : ℤ) - step.before.quotes.size).sum

/-- The steps after the first sample of a window, up to its last one. -/
def untilLast (later : List (Step D)) : List (Step D) := Journal.upToLast (sampleAt A) later

def bidDepth (book : Book D) : D := depth A (bids A book.quotes)

def askDepth (book : Book D) : D := depth A (asks A book.quotes)

/-- What the messages among some steps have changed in a figure of the book. -/
def messageChanges (value : Book D → ℚ) (journal : List (Step D)) : ℚ :=
  ((journal.filter fun step => step.call.isMessage).map fun step =>
    value step.after - value step.before).sum

/-- A change is reported between two depths of one connection, whose difference, by any measure of
    depths, is the sum of the changes that the messages between them made. -/
structure ReportedOf (depthOf : Book D → D) (change : String) (first : Step D) (later : List (Step D)) :
    Prop where
  reported : change = A.canonical
    (A.minus (depthOf (Journal.final first.after (untilLast A later))) (depthOf first.after))
  connection : ∀ step ∈ untilLast A later,
    step.after.reconnectSequence = first.after.reconnectSequence
  changes : ∀ measure : D → ℚ,
    measure (depthOf (Journal.final first.after (untilLast A later))) - measure (depthOf first.after) =
      messageChanges (fun book => measure (depthOf book)) (untilLast A later)

/-- A report of a window whose first sample is that of a step. -/
structure Accounted (calls : List Call) (windowMs : Window) (now : Instant) (first : Step D)
    (later : List (Step D)) : Prop where
  quotes : ((aggregate A (run A calls) windowMs now).additions : ℤ) -
      (aggregate A (run A calls) windowMs now).removals =
    (run A calls).quotes.size - first.before.quotes.size
  bids : ReportedOf A (bidDepth A) (aggregate A (run A calls) windowMs now).bidLiquidityChange
    first later
  asks : ReportedOf A (askDepth A) (aggregate A (run A calls) windowMs now).askLiquidityChange
    first later

/-- Every report accounts for its window. -/
def Accounts (calls : List Call) (windowMs : Window) (now : Instant) : Prop :=
  ∀ first later, windowSteps A calls windowMs now = first :: later →
    Accounted A calls windowMs now first later

variable {A}

theorem drift_add (journal : List (Step D))
    (h : ∀ step ∈ journal, step.after = next A step.before step.call) :
    ((journal.filterMap (sampleAt A)).map BookSample.additions).sum -
        (((journal.filterMap (sampleAt A)).map BookSample.removals).sum : ℤ) + drift A journal =
      (journal.map fun step => (step.after.quotes.size : ℤ) - step.before.quotes.size).sum := by
  induction journal with
  | nil => rfl
  | cons step journal ih =>
    have ih := ih fun step hstep => h step (List.mem_cons_of_mem _ hstep)
    rw [drift] at ih ⊢
    cases hsample : sampleAt A step with
    | none =>
      rw [List.filterMap_cons_none hsample, List.filter_cons_of_pos (by simp [hsample]), List.map_cons,
        List.map_cons, List.sum_cons, List.sum_cons]
      linarith
    | some sample =>
      obtain ⟨-, -, -, hsize⟩ := sampleAt_eq_some hsample (h step List.mem_cons_self)
      rw [List.filterMap_cons_some hsample, List.filter_cons_of_neg (by simp [hsample]), List.map_cons,
        List.map_cons, List.map_cons, List.sum_cons, List.sum_cons, List.sum_cons, Nat.cast_add,
        Nat.cast_add]
      linarith

/-- A window starts with a step that left a sample, and goes on as the run did. -/
theorem window_starts {calls : List Call} {windowMs : Window} {now : Instant} {first : Step D}
    {later : List (Step D)} (h : windowSteps A calls windowMs now = first :: later) :
    (∃ sample, sampleAt A first = some sample) ∧ first.after = next A first.before first.call ∧
      ∃ rest, later = Journal.steps (next A) first.after rest ∧
        rest.foldl (next A) first.after = run A calls := by
  have hsplit := List.takeWhile_append_dropWhile
    (p := fun step => !(sampleAt A step).any fun sample => sample.timestamp ≥ now - windowMs.ms)
    (l := Journal.steps (next A) .new calls)
  rw [← windowSteps, h] at hsplit
  obtain ⟨t, rest, hrest, hrun⟩ := Journal.of_suffix hsplit.symm
  obtain ⟨-, others, hlater, hothers⟩ := Journal.cons_eq hrest.symm
  refine ⟨?_, Journal.after_eq (hrest ▸ List.mem_cons_self), others, hlater, hothers.trans hrun⟩
  have hhead := List.head?_dropWhile_not
    (fun step => !(sampleAt A step).any fun sample => sample.timestamp ≥ now - windowMs.ms)
    (Journal.steps (next A) .new calls)
  rw [← windowSteps, h] at hhead
  cases hsample : sampleAt A first with
  | none => simp [hsample] at hhead
  | some sample => exact ⟨sample, rfl⟩

/-- The change that a report of depths gives. -/
theorem liquidityChange_eq (depthOf : Book D → D) (sampled : BookSample D → D) {first : Step D}
    {later : List (Step D)} (hfirst : ∃ sample, sampleAt A first = some sample)
    (h : ∀ step ∈ first :: later, ∀ sample, sampleAt A step = some sample →
      sampled sample = depthOf step.after) :
    liquidityChange A sampled ((first :: later).filterMap (sampleAt A)) = A.canonical
      (A.minus (depthOf (Journal.final first.after (untilLast A later))) (depthOf first.after)) := by
  obtain ⟨sample, hsample⟩ := hfirst
  have hdepth := h first List.mem_cons_self sample hsample
  rw [List.filterMap_cons_some hsample, liquidityChange, List.head?_cons, List.getLast?_cons,
    Journal.getLast?_marks, Journal.final, untilLast]
  cases hlast : (Journal.upToLast (sampleAt A) later).getLast? with
  | none => simp [hdepth]
  | some step =>
    obtain ⟨last, hmark⟩ := Option.isSome_iff_exists.mp (Journal.isSome_of_getLast? hlast)
    obtain ⟨rest, hrest, -⟩ := Journal.upToLast_append (sampleAt A) later
    have hstep : step ∈ later := by
      rw [hrest]
      exact List.mem_append_left _ (List.mem_of_getLast? hlast)
    simp [hmark, hdepth, h step (List.mem_cons_of_mem _ hstep) last hmark]

/-- Between messages of one connection the depths change by what the messages did. -/
theorem messageChanges_eq {s : Book D} {calls : List Call} (value : Book D → ℚ)
    (h : ∀ step ∈ Journal.steps (next A) s calls, step.call.isMessage) :
    messageChanges value (Journal.steps (next A) s calls) =
      value (Journal.final s (Journal.steps (next A) s calls)) - value s := by
  rw [messageChanges, List.filter_eq_self.mpr h, Journal.sum_differences, Journal.final_steps]

/-- No reconnect stands among steps exactly when all of them are of the connection they start in. -/
theorem connection_iff {s : Book D} {calls : List Call} :
    (∀ step ∈ Journal.steps (next A) s calls, step.after.reconnectSequence = s.reconnectSequence) ↔
      ∀ step ∈ Journal.steps (next A) s calls, step.call.isMessage := by
  constructor
  · intro h step hstep
    by_contra hmessage
    have hafter := h step hstep
    have hbefore : s.reconnectSequence ≤ step.before.reconnectSequence :=
      Journal.le_before Book.reconnectSequence
        (fun book call => by rw [reconnectSequence_next]; omega) hstep
    rw [Journal.after_eq hstep, reconnectSequence_next, if_neg hmessage] at hafter
    omega
  · intro h
    refine Journal.after_eq_start Book.reconnectSequence fun step hstep => ?_
    rw [Journal.after_eq hstep, reconnectSequence_next, if_pos (h step hstep), Nat.add_zero]

theorem reportedOf_iff {depthOf : Book D → D} {change : String} {first : Step D}
    {later : List (Step D)} {calls : List Call} (hlater : later = Journal.steps (next A) first.after calls)
    (hchange : change = A.canonical
      (A.minus (depthOf (Journal.final first.after (untilLast A later))) (depthOf first.after))) :
    ReportedOf A depthOf change first later ↔ ∀ step ∈ untilLast A later, step.call.isMessage := by
  obtain ⟨rest, hsplit, -⟩ := Journal.upToLast_append (sampleAt A) later
  rw [hlater] at hsplit
  obtain ⟨others, hothers⟩ := Journal.of_prefix hsplit
  rw [← hlater, ← untilLast] at hothers
  constructor
  · intro h
    have hconnection := h.connection
    rw [hothers] at hconnection ⊢
    exact connection_iff.mp hconnection
  · intro h
    refine ⟨hchange, ?_, fun measure => ?_⟩
    · rw [hothers] at h ⊢
      exact connection_iff.mpr h
    · rw [hothers] at h ⊢
      exact (messageChanges_eq (fun book => measure (depthOf book)) h).symm

/-- A report accounts for its window exactly when the steps without a sample since the first one have
    left as many quotes as they found, and no reconnect stands between the first sample and the
    last. -/
theorem accounts_iff (A : Arithmetic D) (calls : List Call) (windowMs : Window) (now : Instant)
    (hclock : (calls.filterMap Call.received).Pairwise (· ≤ ·))
    (hnow : ∀ t ∈ calls.filterMap Call.received, t ≤ now) :
    Accounts A calls windowMs now ↔ ∀ first later, windowSteps A calls windowMs now = first :: later →
      drift A (first :: later) = 0 ∧ ∀ step ∈ untilLast A later, step.call.isMessage := by
  refine forall_congr' fun first => forall_congr' fun later => forall_congr' fun hwindow => ?_
  obtain ⟨hfirst, hafter, rest, hlater, hrun⟩ := window_starts hwindow
  have hsamples := window_samples A windowMs hclock hnow
  rw [hwindow] at hsamples
  have hsteps : ∀ step ∈ first :: later, step.after = next A step.before step.call := by
    intro step hstep
    rcases List.mem_cons.mp hstep with rfl | hstep
    · exact hafter
    · exact Journal.after_eq (hlater ▸ hstep)
  have hbids := liquidityChange_eq (bidDepth A) BookSample.bidDepth hfirst
    fun step hstep sample hsample => (sampleAt_eq_some hsample (hsteps step hstep)).2.1
  have hasks := liquidityChange_eq (askDepth A) BookSample.askDepth hfirst
    fun step hstep sample hsample => (sampleAt_eq_some hsample (hsteps step hstep)).2.2.1
  rw [← hsamples] at hbids hasks
  have hquotes := drift_add (A := A) (first :: later) hsteps
  rw [List.map_cons, List.sum_cons, hlater,
    Journal.sum_differences fun book : Book D => (book.quotes.size : ℤ), hrun, ← hlater,
    ← hsamples] at hquotes
  constructor
  · intro h
    refine ⟨?_, (reportedOf_iff hlater hbids).mp h.bids⟩
    have hbalance := h.quotes
    simp only [aggregate] at hbalance
    linarith
  · rintro ⟨hdrift, hmessages⟩
    refine ⟨?_, (reportedOf_iff hlater hbids).mpr hmessages, (reportedOf_iff hlater hasks).mpr hmessages⟩
    simp only [aggregate]
    linarith

/-- One message, received at noon of the first day, reported at once. -/
theorem accounts_iff_opening :
    Accounts DepthSample.arithmetic [.apply DepthSample.opening (some 43200000) (some 43200000)]
        .oneMinute 43200000 ↔
      ∀ first later, windowSteps DepthSample.arithmetic
          [.apply DepthSample.opening (some 43200000) (some 43200000)] .oneMinute 43200000 =
            first :: later →
        drift DepthSample.arithmetic (first :: later) = 0 ∧
          ∀ step ∈ untilLast DepthSample.arithmetic later, step.call.isMessage :=
  accounts_iff DepthSample.arithmetic [.apply DepthSample.opening (some 43200000) (some 43200000)]
    .oneMinute 43200000 (by decide +kernel) (by decide +kernel)

open DepthSample in
/-- The book is emptied by a reconnect and filled again within a minute: the report counts four
    additions where two quotes have come in, and takes depths of the two connections apart. -/
theorem reconnect_within_window : ¬ Accounts arithmetic
    [.apply opening (some 1000) (some 1000), .markReconnect, .apply opening (some 2000) (some 2000)]
    .oneMinute 3000 := by
  intro h
  have hquotes := (h _ _ rfl).quotes
  revert hquotes
  decide +kernel

end ScalpingBot.Depth
