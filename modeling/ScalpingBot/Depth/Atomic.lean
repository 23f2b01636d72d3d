import Mathlib.Data.Rat.Defs
import ScalpingBot.Depth.Book

/-! Whether a message that fails leaves the book as it was. The clocks, the flag and the samples never
    move; the quotes do not exactly when what stands before the offending place puts back all that it
    takes away and puts nothing else. -/

namespace ScalpingBot.Depth

variable {D : Type} {A : Arithmetic D}

/-! ### What the deletions and the new quotes leave -/

theorem get_foldl_delete (progress : Progress D) (ids : List String) (id : String) :
    (ids.foldl Progress.delete progress).quotes.get id =
      if id ∈ ids then none else progress.quotes.get id := by
  induction ids generalizing progress with
  | nil => rfl
  | cons other ids ih =>
    rw [List.foldl_cons, ih]
    simp only [Progress.delete, Quotes.get_delete, List.mem_cons, eq_comm (a := id)]
    by_cases hother : other = id <;> by_cases hid : id ∈ ids <;> simp [hother, hid]

/-- The last of the quotes for an id. -/
def lastFor (quotes : List (DepthQuote D)) (id : String) : Option (DepthQuote D) :=
  quotes.reverse.find? fun quote => quote.id = id

theorem get_foldl_put (progress : Progress D) (quotes : List (DepthQuote D)) (id : String) :
    (quotes.foldl (fun progress quote => progress.put (some quote)) progress).quotes.get id =
      (lastFor quotes id).or (progress.quotes.get id) := by
  induction quotes using List.reverseRecOn with
  | nil => rfl
  | append_singleton quotes quote ih =>
    rw [List.foldl_append, List.foldl_cons, List.foldl_nil, lastFor, List.reverse_append,
      List.reverse_singleton, List.singleton_append, List.find?_cons]
    rw [Progress.put, Quotes.get_set]
    by_cases hid : quote.id = id
    · simp [hid]
    · simp only [hid, if_false, decide_false]
      exact ih

theorem lastFor_isSome {quotes : List (DepthQuote D)} {id : String} :
    (lastFor quotes id).isSome ↔ id ∈ quotes.map DepthQuote.id := by
  simp [lastFor]

theorem lastFor_eq_none {quotes : List (DepthQuote D)} {id : String} :
    lastFor quotes id = none ↔ id ∉ quotes.map DepthQuote.id := by
  rw [← lastFor_isSome, Option.not_isSome_iff_eq_none]

variable (A) in
/-- The quote of an id after the message, whether it fails or not. -/
theorem get_change (quotes : Quotes D) (payload : Record) (id : String) :
    (change A quotes payload).1.quotes.get id = (lastFor (reachedQuotes A payload) id).or
      (if id ∈ reachedIds payload then none else quotes.get id) := by
  rw [change_eq, get_foldl_put, get_foldl_delete]

/-! ### Atomicity -/

/-- Two books that no reader of quotes, flag, clocks or samples tells apart. -/
structure Same (book other : Book D) : Prop where
  quotes : ∀ id, book.quotes.get id = other.quotes.get id
  discontinuity : book.discontinuity = other.discontinuity
  updatedAt : book.updatedAt = other.updatedAt
  receivedAt : book.receivedAt = other.receivedAt
  samples : book.samples = other.samples

variable (A) in
/-- A call that throws leaves the book as it was. -/
def Atomic (book : Book D) (payload : Record) (sourceAt receivedAt : Option Instant) : Prop :=
  ∀ reason, (apply A book payload sourceAt receivedAt).2 = .error reason →
    Same (apply A book payload sourceAt receivedAt).1 book

variable (A) in
/-- What stands before the offending place puts back each quote that it takes away, and puts no quote
    that the book does not hold. -/
structure Harmless (quotes : Quotes D) (payload : Record) : Prop where
  deleted : ∀ id ∈ reachedIds payload, quotes.has id →
    id ∈ (reachedQuotes A payload).map DepthQuote.id
  put : ∀ quote ∈ reachedQuotes A payload,
    lastFor (reachedQuotes A payload) quote.id = quotes.get quote.id

theorem harmless_iff {quotes : Quotes D} {payload : Record} : Harmless A quotes payload ↔
    ∀ id, (change A quotes payload).1.quotes.get id = quotes.get id := by
  simp only [get_change]
  constructor
  · rintro ⟨hdeleted, hput⟩ id
    by_cases hid : id ∈ (reachedQuotes A payload).map DepthQuote.id
    · obtain ⟨quote, hquote, rfl⟩ := List.mem_map.mp hid
      rw [Option.or_of_isSome (lastFor_isSome.mpr hid), hput quote hquote]
    · rw [lastFor_eq_none.mpr hid, Option.none_or]
      split
      · rename_i hreached
        have hhas : ¬ quotes.has id := fun h => hid (hdeleted id hreached h)
        exact (Option.not_isSome_iff_eq_none.mp hhas).symm
      · rfl
  · intro h
    refine ⟨fun id hreached hhas => ?_, fun quote hquote => ?_⟩
    · by_contra hid
      have hget := h id
      rw [lastFor_eq_none.mpr hid, Option.none_or, if_pos hreached] at hget
      rw [Quotes.has, ← hget] at hhas
      cases hhas
    · rw [← h quote.id, Option.or_of_isSome (lastFor_isSome.mpr (List.mem_map_of_mem hquote))]

/-- A message of invalid clocks is refused before anything is read. -/
theorem apply_of_invalid {book : Book D} {payload : Record} {sourceAt receivedAt : Option Instant}
    (h : ¬ (sourceAt.isSome ∧ receivedAt.isSome)) :
    apply A book payload sourceAt receivedAt = (book, .error .timestampInvalid) := by
  cases sourceAt with
  | none => rfl
  | some source =>
    cases receivedAt with
    | none => rfl
    | some received => exact absurd ⟨rfl, rfl⟩ h

/-- A message that fails after its clocks leaves the quotes where it stopped, and all else alone. -/
theorem apply_of_malformed {book : Book D} {payload : Record} {source received : Instant}
    {reason : Reason} (h : malformed A payload = some reason) :
    apply A book payload (some source) (some received) =
      ({ book with quotes := (change A book.quotes payload).1.quotes }, .error reason) := by
  have hend : (change A book.quotes payload).2 = .error reason := by
    rw [change_eq, Interrupted.ending_eq_error]
    exact h
  simp only [apply, hend]

theorem apply_of_wellFormed {book : Book D} {payload : Record} {source received : Instant}
    (h : malformed A payload = none) :
    (apply A book payload (some source) (some received)).2 = .ok () := by
  have hend : (change A book.quotes payload).2 = .ok () := by
    rw [change_eq, Interrupted.ending_eq_ok]
    exact h
  simp only [apply, hend]

/-- Whatever a failing message does, the clocks, the flag and the samples stay. -/
theorem same_iff {book : Book D} {quotes : Quotes D} :
    Same { book with quotes } book ↔ ∀ id, quotes.get id = book.quotes.get id :=
  ⟨fun h => h.quotes, fun h => ⟨h, rfl, rfl, rfl, rfl⟩⟩

/-- A call is atomic exactly when its clocks are invalid, its message is well formed or what stands
    before the offending place is harmless. -/
theorem atomic_iff (A : Arithmetic D) (book : Book D) (payload : Record)
    (sourceAt receivedAt : Option Instant) : Atomic A book payload sourceAt receivedAt ↔
      (sourceAt.isSome → receivedAt.isSome → (malformed A payload).isSome →
        Harmless A book.quotes payload) := by
  by_cases hclocks : sourceAt.isSome ∧ receivedAt.isSome
  · obtain ⟨hsource, hreceived⟩ := hclocks
    obtain ⟨source, rfl⟩ := Option.isSome_iff_exists.mp hsource
    obtain ⟨received, rfl⟩ := Option.isSome_iff_exists.mp hreceived
    cases hmalformed : malformed A payload with
    | none =>
      refine ⟨fun _ _ _ h => absurd h Bool.false_ne_true, fun _ reason hreason => ?_⟩
      rw [apply_of_wellFormed hmalformed] at hreason
      cases hreason
    | some reason =>
      rw [Atomic, apply_of_malformed hmalformed]
      simp only [same_iff, ← harmless_iff]
      exact ⟨fun h _ _ _ => h reason rfl, fun h _ _ => h rfl rfl rfl⟩
  · rw [Atomic, apply_of_invalid hclocks]
    exact ⟨fun _ hsource hreceived => absurd ⟨hsource, hreceived⟩ hclocks,
      fun _ _ _ => ⟨fun _ => rfl, rfl, rfl, rfl, rfl⟩⟩

/-! ### A message that stops half-way -/

namespace DepthSample

/-- Whole numbers, enough for the records below. -/
def arithmetic : Arithmetic ℚ where
  parse text :=
    if text = "118000000" then some 118000000
    else if text = "118010000" then some 118010000
    else if text = "100000" then some 100000
    else none
  div value n := value / n
  plus := (· + ·)
  minus := (· - ·)
  zero := 0
  comparedTo left right := if left < right then -1 else if left = right then 0 else 1
  canonical _ := ""

def quote (id side price : String) : Value :=
  .object [("id", .string id), (side, .string price), ("size", .string "100000")]

/-- A bid and an ask. -/
def opening : Record :=
  [("newQuotes", .array [quote "1" "bid" "118000000", quote "2" "ask" "118010000"])]

def opened : Book ℚ := (apply arithmetic .new opening (some 1000) (some 1000)).1

/-- The bid is deleted, and the record of the next one has no size. -/
def broken : Record :=
  [("deletedQuotes", .array [.string "1"]),
   ("newQuotes", .array [.object [("id", .string "3"), ("bid", .string "118000000")]])]

end DepthSample

open DepthSample in
/-- The message fails, and the book that goes on as a continuous one has lost its bid. -/
theorem broken_message_deletes_quote : opened.discontinuity = false ∧
    (apply arithmetic opened broken (some 2000) (some 2000)).2 = .error (.fieldInvalid "size") ∧
    (apply arithmetic opened broken (some 2000) (some 2000)).1.discontinuity = false ∧
    ¬ Atomic arithmetic opened broken (some 2000) (some 2000) := by
  refine ⟨by decide +kernel, by decide +kernel, by decide +kernel, fun h => ?_⟩
  have hquotes := (h (.fieldInvalid "size") (by decide +kernel)).quotes "1"
  exact absurd hquotes (by decide +kernel)

end ScalpingBot.Depth
