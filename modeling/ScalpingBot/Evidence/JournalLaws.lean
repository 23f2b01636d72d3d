import ScalpingBot.Evidence.Operational

/-! Which journals `verifyJournal` accepts, and what an accepted journal says. -/

namespace ScalpingBot.Evidence

open Json (Text units byteLength)
open HashChain (Link Body Chain)

variable {P : Platform}

/-! ### The schemas accept what the writer writes -/

theorem units_inj {s t : String} : units s = units t ↔ s = t := by
  unfold units
  rw [List.map_inj_right fun a b h => Char.toNat_inj.mp h]
  exact String.toList_inj

theorem strict_object {keys : List String} {members : List (String × Json)}
    (h : ∀ m ∈ members, m.1 ∈ keys) :
    strict keys (object members) = some (members.map fun m => (units m.1, m.2)) := by
  rw [object, strict, if_pos]
  rw [List.all_eq_true]
  intro m hm
  obtain ⟨m, hmem, rfl⟩ := List.mem_map.mp hm
  rw [List.any_eq_true]
  exact ⟨m.1, h m hmem, by simp⟩

/-- The first member with a key. -/
theorem field_members {key : String} {members : List (String × Json)} :
    field (members.map fun m => (units m.1, m.2)) key =
      (members.find? (·.1 = key)).map Prod.snd := by
  rw [field, List.find?_map]
  simp [Function.comp_def, units_inj]

theorem find_of_mem {members : List (String × Json)} {key : String} {v : Json}
    (hnodup : (members.map Prod.fst).Nodup) (h : (key, v) ∈ members) :
    (members.find? (·.1 = key)).map Prod.snd = some v := by
  induction members with
  | nil => cases h
  | cons m members ih =>
    rw [List.map_cons, List.nodup_cons] at hnodup
    rcases List.mem_cons.mp h with rfl | h
    · simp
    · have hne : m.1 ≠ key := by
        rintro rfl
        exact hnodup.1 (List.mem_map.mpr ⟨_, h, rfl⟩)
      rw [List.find?_cons_of_neg (by simpa using hne)]
      exact ih hnodup.2 h

theorem bind_of_some {α β : Type} {x : Option α} {a : α} (h : x = some a) (f : α → Option β) :
    (x >>= f) = f a := by
  rw [h]
  rfl

theorem literal_text (s : String) : literal s (text s) = some () := if_pos rfl

theorem decodeNat_natural {n max : ℕ} (h : max ≤ maxSafe) :
    decodeNat P max (natural n) = if n ≤ max then some n else none := by
  rw [natural, decodeNat, P.number_ofNat]
  by_cases hn : n ≤ max
  · simp [hn, hn.trans h]
  · rw [if_neg hn]
    split_ifs
    · simpa using hn
    · rfl

theorem decodeText_string {check : Text → Bool} {t : Text} :
    decodeText check (.string t) = if check t then some t else none := rfl

theorem decodeNullable_nullable {α : Type} {decode : Json → Option α} {f : α → Json}
    {check : α → Bool} (hnull : ∀ a, f a ≠ .null)
    (hdecode : ∀ a, decode (f a) = if check a then some a else none) (o : Option α) :
    decodeNullable decode (nullable f o) = if o.all check then some o else none := by
  cases o with
  | none => rfl
  | some a =>
    have hf : decodeNullable decode (f a) = (decode (f a)).map some := by
      cases hfa : f a with
      | null => exact absurd hfa (hnull a)
      | _ => rfl
    rw [nullable, hf, hdecode]
    simp only [Option.all_some]
    split <;> rfl

theorem decodeReasons_array (reasons : List Text) :
    decodeReasons (.array (reasons.map .string)) =
      if reasons.length ≤ 128 ∧ reasons.all isReason then some reasons else none := by
  have hmap : ∀ l : List Text, (l.map Json.string).mapM (decodeText isReason) =
      if l.all isReason then some l else none := by
    intro l
    induction l with
    | nil => rfl
    | cons t l ih =>
      rw [List.map_cons, List.mapM_cons, ih, decodeText_string]
      cases h : isReason t <;> cases h' : l.all isReason <;> simp [h, h']
  rw [decodeReasons, List.length_map, hmap]
  by_cases hlength : reasons.length ≤ 128 <;> simp [hlength]

theorem decodeSession_text (s : Session) : decodeSession (text s.text) = some s := by
  cases s <;> simp [decodeSession, text, Session.text, units_inj]

def validRegistration (P : Platform) (r : Registration) : Bool :=
  P.isDatetime r.startedAt && P.isDatetime r.deadline

theorem decodeRegistration_encode (r : Registration) : decodeRegistration P (encodeRegistration r) =
    if validRegistration P r then some r else none := by
  have hcadence : cadenceMs ≤ maxSafe := by decide
  have hfields : decodeRegistration P (encodeRegistration r) =
      (decodeText P.isDatetime (.string r.startedAt)).bind fun startedAt =>
        (decodeText P.isDatetime (.string r.deadline)).bind fun deadline =>
          (decodeNat P maxSafe (natural cadenceMs)).bind fun cadence =>
            if cadence = cadenceMs then some ⟨startedAt, deadline⟩ else none := by
    rw [decodeRegistration, encodeRegistration, strict_object (by simp)]
    simp only [Option.bind_eq_bind, Option.bind_some, field_members]
    simp [literal_text]
  rw [hfields, decodeText_string, decodeText_string, decodeNat_natural le_rfl, if_pos hcadence]
  cases hstart : P.isDatetime r.startedAt <;> cases hend : P.isDatetime r.deadline <;>
    simp [validRegistration, hstart, hend]

def validSample (P : Platform) (s : EvidenceSample) : Bool :=
  P.isDatetime s.sampledAt && s.closedTrades.all (· ≤ maxSafe) &&
    (s.reasons.length ≤ 128 && s.reasons.all isReason) && s.sessionCheckedAt.all P.isDatetime &&
    s.scheduleFetchedAt.all P.isDatetime

theorem decodeSample_encode (s : EvidenceSample) :
    decodeSample P (encodeSample s) = if validSample P s then some s else none := by
  have hbool : ∀ o : Option Bool, decodeNullable decodeBool (nullable .bool o) = some o := by
    intro o
    cases o <;> rfl
  have htext : ∀ o : Option Text, decodeNullable (decodeText P.isDatetime) (nullable .string o) =
      if o.all P.isDatetime then some o else none :=
    decodeNullable_nullable (by simp) fun _ => rfl
  have hnat : ∀ o : Option ℕ, decodeNullable (decodeNat P maxSafe) (nullable natural o) =
      if o.all (· ≤ maxSafe) then some o else none :=
    decodeNullable_nullable (by simp [natural]) fun n => by simp [decodeNat_natural le_rfl]
  have hfields : decodeSample P (encodeSample s) =
      (decodeText P.isDatetime (.string s.sampledAt)).bind fun sampledAt =>
        (decodeNullable (decodeNat P maxSafe) (nullable natural s.closedTrades)).bind fun closed =>
          (decodeReasons (.array (s.reasons.map .string))).bind fun reasons =>
            (decodeNullable (decodeText P.isDatetime) (nullable .string s.sessionCheckedAt)).bind
              fun checked => (decodeNullable (decodeText P.isDatetime)
                (nullable .string s.scheduleFetchedAt)).bind fun fetched =>
                  some { s with
                    sampledAt := sampledAt
                    closedTrades := closed
                    reasons := reasons
                    sessionCheckedAt := checked
                    scheduleFetchedAt := fetched } := by
    have hfield : ∀ {key : String} {v : Json}, (key, v) ∈ sampleMembers s →
        field ((sampleMembers s).map fun m => (units m.1, m.2)) key = some v := fun h => by
      rw [field_members]
      exact find_of_mem (by simp [sampleMembers]) h
    refine (bind_of_some (strict_object (by simp [sampleMembers])) _).trans ?_
    refine (bind_of_some (hfield (v := text "SAMPLE") (by simp [sampleMembers])) _).trans ?_
    refine (bind_of_some (literal_text _) _).trans ?_
    refine (bind_of_some (hfield (v := .string s.sampledAt) (by simp [sampleMembers])) _).trans ?_
    refine congrArg (Option.bind _) (funext fun sampledAt => ?_)
    refine (bind_of_some (hfield (v := .bool s.available) (by simp [sampleMembers])) _).trans ?_
    refine (bind_of_some (a := s.available) rfl _).trans ?_
    refine (bind_of_some (hfield (v := nullable .bool s.startupReady)
      (by simp [sampleMembers])) _).trans ?_
    refine (bind_of_some (hbool _) _).trans ?_
    refine (bind_of_some (hfield (v := nullable .bool s.operationalReady)
      (by simp [sampleMembers])) _).trans ?_
    refine (bind_of_some (hbool _) _).trans ?_
    refine (bind_of_some (hfield (v := nullable .bool s.tradingEnabled)
      (by simp [sampleMembers])) _).trans ?_
    refine (bind_of_some (hbool _) _).trans ?_
    refine (bind_of_some (hfield (v := nullable natural s.closedTrades)
      (by simp [sampleMembers])) _).trans ?_
    refine congrArg (Option.bind _) (funext fun closed => ?_)
    refine (bind_of_some (hfield (v := .array (s.reasons.map .string))
      (by simp [sampleMembers])) _).trans ?_
    refine congrArg (Option.bind _) (funext fun reasons => ?_)
    refine (bind_of_some (hfield (v := text s.session.text) (by simp [sampleMembers])) _).trans ?_
    refine (bind_of_some (decodeSession_text _) _).trans ?_
    refine (bind_of_some (hfield (v := nullable .string s.sessionCheckedAt)
      (by simp [sampleMembers])) _).trans ?_
    refine congrArg (Option.bind _) (funext fun checked => ?_)
    exact bind_of_some (hfield (v := nullable .string s.scheduleFetchedAt)
      (by simp [sampleMembers])) _
  rw [hfields, decodeText_string, hnat, decodeReasons_array, htext, htext]
  by_cases hvalid : validSample P s = true
  · rw [if_pos hvalid]
    simp only [validSample, Bool.and_eq_true, decide_eq_true_eq] at hvalid
    obtain ⟨⟨⟨⟨hat, hclosed⟩, hreasons⟩, hchecked⟩, hfetched⟩ := hvalid
    rw [if_pos hat, if_pos hclosed, if_pos hreasons, if_pos hchecked, if_pos hfetched]
    rfl
  · rw [if_neg hvalid, Option.eq_none_iff_forall_ne_some]
    intro x hx
    refine hvalid ?_
    simp only [Option.bind_eq_some_iff, Option.ite_none_right_eq_some] at hx
    obtain ⟨_, ⟨hat, -⟩, _, ⟨hclosed, -⟩, _, ⟨hreasons, -⟩, _, ⟨hchecked, -⟩, _, ⟨hfetched, -⟩, -⟩ :=
      hx
    simp only [validSample, Bool.and_eq_true, decide_eq_true_eq]
    exact ⟨⟨⟨⟨hat, hclosed⟩, hreasons⟩, hchecked⟩, hfetched⟩

def validPayload (P : Platform) : Payload → Bool
  | .registration r => validRegistration P r
  | .sample s => validSample P s

/-- `recordSchema`, of a record as it is. -/
def validRecord (P : Platform) (r : EvidenceRecord) : Bool :=
  r.sequence ≤ maxSamples && r.previous.all isSha256 && validPayload P r.payload &&
    isSha256 r.digest

theorem strict_none {keys : List String} {members : List (String × Json)} {m : String × Json}
    (hm : m ∈ members) (h : m.1 ∉ keys) : strict keys (object members) = none := by
  rw [object, strict, if_neg]
  intro hall
  obtain ⟨k, hk, heq⟩ := List.any_eq_true.mp (List.all_eq_true.mp hall _ (List.mem_map_of_mem hm))
  rw [decide_eq_true_eq, units_inj] at heq
  exact h (heq ▸ hk)

theorem decodePayload_encode (p : Payload) :
    decodePayload P (encodePayload p) = if validPayload P p then some p else none := by
  cases p with
  | registration r =>
    have hsample : decodeSample P (encodeRegistration r) = none := by
      rw [decodeSample, encodeRegistration,
        strict_none (m := ("version", text "operational-evidence-1.0")) (by simp) (by simp)]
      rfl
    rw [encodePayload, decodePayload, decodeRegistration_encode, hsample, validPayload]
    split_ifs <;> rfl
  | sample s =>
    have hregistration : decodeRegistration P (encodeSample s) = none := by
      rw [decodeRegistration, encodeSample,
        strict_none (m := ("at", .string s.sampledAt)) (by simp [sampleMembers]) (by simp)]
      rfl
    rw [encodePayload, decodePayload, hregistration, decodeSample_encode, validPayload]
    split_ifs <;> rfl

theorem decodeRecord_encode (r : EvidenceRecord) :
    decodeRecord P (encodeRecord r) = if validRecord P r then some r else none := by
  have hprevious : ∀ o : Option Text, decodeNullable (decodeText isSha256) (nullable .string o) =
      if o.all isSha256 then some o else none :=
    decodeNullable_nullable (by simp) fun _ => rfl
  have hfields : decodeRecord P (encodeRecord r) =
      (decodeNat P maxSamples (natural r.sequence)).bind fun sequence =>
        (decodeNullable (decodeText isSha256) (nullable .string r.previous)).bind fun previous =>
          (decodePayload P (encodePayload r.payload)).bind fun payload =>
            (decodeText isSha256 (.string r.digest)).bind fun sha256 =>
              some ⟨sequence, previous, payload, sha256⟩ := by
    rw [decodeRecord, encodeRecord, strict_object (by simp)]
    simp only [Option.bind_eq_bind, Option.bind_some, field_members]
    simp
  rw [hfields, decodeNat_natural (by decide), hprevious, decodePayload_encode, decodeText_string]
  by_cases hvalid : validRecord P r = true
  · rw [if_pos hvalid]
    simp only [validRecord, Bool.and_eq_true, decide_eq_true_eq] at hvalid
    obtain ⟨⟨⟨hsequence, hall⟩, hpayload⟩, hdigest⟩ := hvalid
    rw [if_pos hsequence, if_pos hall, if_pos hpayload, if_pos hdigest]
    rfl
  · rw [if_neg hvalid, Option.eq_none_iff_forall_ne_some]
    intro x hx
    refine hvalid ?_
    simp only [Option.bind_eq_some_iff, Option.ite_none_right_eq_some] at hx
    obtain ⟨_, ⟨hsequence, -⟩, _, ⟨hall, -⟩, _, ⟨hpayload, -⟩, _, ⟨hdigest, -⟩, -⟩ := hx
    simp only [validRecord, Bool.and_eq_true, decide_eq_true_eq]
    exact ⟨⟨⟨hsequence, hall⟩, hpayload⟩, hdigest⟩

/-! ### Lines -/

theorem not_repeatsKey_object {members : List (String × Json)} (hnodup : (members.map Prod.fst).Nodup)
    (h : ∀ m ∈ members, ¬Json.RepeatsKey m.2) : ¬Json.RepeatsKey (object members) := by
  rw [object, Json.repeatsKey_object]
  rintro (hkeys | ⟨m, hm, hrep⟩)
  · refine hkeys ?_
    rw [List.map_map]
    have hinj := hnodup.map (f := units) fun a b hab => units_inj.mp hab
    simpa [Function.comp_def] using hinj
  · obtain ⟨m, hmem, rfl⟩ := List.mem_map.mp hm
    exact h m hmem hrep

theorem not_repeatsKey_nullable {α : Type} {f : α → Json} (h : ∀ a, ¬Json.RepeatsKey (f a))
    (o : Option α) : ¬Json.RepeatsKey (nullable f o) := by
  cases o with
  | none => exact fun hrep => by cases hrep
  | some a => exact h a

theorem not_repeatsKey_plain {v : Json} (h : ∀ vs, v ≠ .array vs) (h' : ∀ ms, v ≠ .object ms) :
    ¬Json.RepeatsKey v := by
  intro hrep
  cases hrep with
  | here => exact h' _ rfl
  | member => exact h' _ rfl
  | element => exact h _ rfl

theorem not_repeatsKey_payload (p : Payload) : ¬Json.RepeatsKey (encodePayload p) := by
  have htext : ∀ t, ¬Json.RepeatsKey (.string t) := fun _ => Json.not_repeatsKey_string
  have hbool : ∀ b, ¬Json.RepeatsKey (.bool b) := fun b => not_repeatsKey_plain (by simp) (by simp)
  have hnatural : ∀ n, ¬Json.RepeatsKey (natural n) :=
    fun n => not_repeatsKey_plain (by simp [natural]) (by simp [natural])
  cases p with
  | registration r =>
    refine not_repeatsKey_object (by simp) ?_
    simp [text, htext, hnatural]
  | sample s =>
    refine not_repeatsKey_object (by simp [sampleMembers]) ?_
    have hreasons : ¬Json.RepeatsKey (.array (s.reasons.map .string)) := by
      rw [Json.repeatsKey_array]
      simp [htext]
    simp [sampleMembers, text, htext, hbool, hreasons, not_repeatsKey_nullable htext,
      not_repeatsKey_nullable hbool, not_repeatsKey_nullable hnatural]

theorem folded_record (r : EvidenceRecord) : Json.folded (encodeRecord r) = encodeRecord r := by
  refine Json.folded_eq _ (not_repeatsKey_object (by simp) ?_)
  have htext : ∀ t, ¬Json.RepeatsKey (.string t) := fun _ => Json.not_repeatsKey_string
  have hnatural : ∀ n, ¬Json.RepeatsKey (natural n) :=
    fun n => not_repeatsKey_plain (by simp [natural]) (by simp [natural])
  simp [htext, hnatural, not_repeatsKey_nullable htext, not_repeatsKey_payload]

/-- A line is read as the record that it was written for. -/
theorem decodeLine_line {r : EvidenceRecord} (h : validRecord P r = true) :
    decodeLine P (line r) = .ok r := by
  rw [decodeLine, line, Json.parse_write]
  dsimp only
  rw [folded_record, decodeRecord_encode, if_pos h]

/-- Only the record itself has the line of a valid record. -/
theorem eq_of_line {r r' : EvidenceRecord} (h : validRecord P r = true) (hline : line r = line r') :
    r = r' := by
  have hencode := Json.write_injective hline
  have hdecode := decodeRecord_encode (P := P) r
  rw [if_pos h, hencode, decodeRecord_encode] at hdecode
  split_ifs at hdecode
  exact (Option.some.inj hdecode).symm

theorem chainRecord_ok {payload : Payload} {previous : Option EvidenceRecord} {r : EvidenceRecord} :
    chainRecord P payload previous = .ok r ↔
      r = HashChain.next (digest P) previous payload ∧ validRecord P r = true := by
  rw [chainRecord, decodeRecord_encode]
  constructor
  · intro h
    split_ifs at h with hvalid
    cases h
    exact ⟨rfl, hvalid⟩
  · rintro ⟨rfl, hvalid⟩
    rw [if_pos hvalid]

/-! ### The text of a journal -/

theorem newline_not_mem_line (r : EvidenceRecord) : 10 ∉ line r := Json.newline_not_mem_write _

theorem getLast_serialize {records : List EvidenceRecord} (h : records ≠ []) :
    (serialize records).getLast? = some 10 := by
  induction records using List.reverseRecOn with
  | nil => exact absurd rfl h
  | append_singleton records r _ => simp [serialize]

/-- A journal falls into the lines of its records. -/
theorem splitOn_serialize {records : List EvidenceRecord} (h : records ≠ []) :
    (serialize records).dropLast.splitOn 10 = records.map line := by
  induction records with
  | nil => exact absurd rfl h
  | cons r rest ih =>
    cases rest with
    | nil =>
      rw [serialize, List.flatMap_cons, List.flatMap_nil, List.append_nil, List.dropLast_concat]
      exact List.splitOn_eq_singleton (newline_not_mem_line r)
    | cons r' rest =>
      have hne : serialize (r' :: rest) ≠ [] := by
        intro hnil
        have hlast : (serialize (r' :: rest)).getLast? = some 10 := getLast_serialize (by simp)
        rw [hnil] at hlast
        cases hlast
      have hsplit : serialize (r :: r' :: rest) = line r ++ 10 :: serialize (r' :: rest) := by
        simp [serialize]
      rw [hsplit, List.dropLast_append_of_ne_nil (by simp), List.dropLast_cons_of_ne_nil hne,
        List.splitOn_append_cons_self_of_not_mem (newline_not_mem_line r), ih (by simp)]
      rfl

/-! ### The chain -/

/-- Each record is the next one of the record before it, and satisfies the schema. -/
def Linked (P : Platform) : Option EvidenceRecord → List EvidenceRecord → Prop
  | _, [] => True
  | previous, r :: rest => r = HashChain.next (digest P) previous r.payload ∧
      validRecord P r = true ∧ Linked P (some r) rest

theorem linked_append {previous : Option EvidenceRecord} {records more : List EvidenceRecord} :
    Linked P previous (records ++ more) ↔
      Linked P previous records ∧ Linked P (records.getLast?.or previous) more := by
  induction records generalizing previous with
  | nil => simp [Linked]
  | cons r rest ih =>
    rw [List.cons_append, Linked, Linked, ih, List.getLast?_cons]
    cases rest.getLast? <;> simp [and_assoc]

theorem linked_iff {records : List EvidenceRecord} : Linked P none records ↔
    Chain (digest P) records ∧ ∀ r ∈ records, validRecord P r = true := by
  induction records using List.reverseRecOn with
  | nil => simp [Linked, Chain.nil]
  | append_singleton records r ih =>
    rw [linked_append, ih, HashChain.chain_snoc]
    simp only [Linked, and_true, Option.or_none, List.forall_mem_append, List.forall_mem_singleton]
    tauto

/-- The instant of a sample. -/
def time (P : Platform) (s : EvidenceSample) : ℤ := P.parseDate s.sampledAt

/-- Samples in order, before the deadline, with counters that do not fall. -/
def Ordered (P : Platform) (deadline : ℤ) : ℤ → Option ℕ → List EvidenceSample → Prop
  | _, _, [] => True
  | start, most, s :: rest => start ≤ time P s ∧ time P s < deadline ∧
      countable s.closedTrades most = true ∧
      Ordered P deadline (time P s) (s.closedTrades <|> most) rest

/-- What the loop asks of a record. -/
theorem verifyRecord_ok {deadline start : ℤ} {most : Option ℕ} {previous : Option EvidenceRecord}
    {r : EvidenceRecord} {next : ℤ × Option ℕ} :
    verifyRecord P deadline previous start most r = .ok next ↔
      r = HashChain.next (digest P) previous r.payload ∧ validRecord P r = true ∧
        ((previous = none ∧ next = (start, most)) ∨ ∃ s, previous ≠ none ∧ r.payload = .sample s ∧
          start ≤ time P s ∧ time P s < deadline ∧ countable s.closedTrades most = true ∧
          next = (time P s, s.closedTrades <|> most)) := by
  have hlink : (∃ expected, chainRecord P r.payload previous = .ok expected ∧ line expected = line r) ↔
      r = HashChain.next (digest P) previous r.payload ∧ validRecord P r = true := by
    constructor
    · rintro ⟨expected, hexpected, hline⟩
      obtain ⟨rfl, hvalid⟩ := chainRecord_ok.mp hexpected
      rw [← eq_of_line hvalid hline]
      exact ⟨rfl, hvalid⟩
    · intro h
      exact ⟨r, chainRecord_ok.mpr h, rfl⟩
  rw [verifyRecord]
  simp only [bind_ok, require_ok]
  rw [← and_assoc, ← hlink]
  constructor
  · rintro ⟨expected, hexpected, _, hline, h⟩
    refine ⟨⟨expected, hexpected, hline⟩, ?_⟩
    cases previous with
    | none => exact .inl ⟨rfl, (pure_ok.mp h).symm⟩
    | some p =>
      cases hpayload : r.payload with
      | registration _ =>
        rw [if_neg (by simp), hpayload] at h
        cases h
      | sample s =>
        rw [if_neg (by simp), hpayload] at h
        simp only [bind_ok, require_ok, pure_ok] at h
        obtain ⟨_, htimes, _, hcount, rfl⟩ := h
        exact .inr ⟨s, by simp, rfl, htimes.1, htimes.2, hcount, rfl⟩
  · rintro ⟨⟨expected, hexpected, hline⟩, h⟩
    refine ⟨expected, hexpected, (), hline, ?_⟩
    rcases h with ⟨rfl, rfl⟩ | ⟨s, hprevious, hpayload, hstart, hend, hcount, rfl⟩
    · rfl
    · obtain ⟨p, rfl⟩ := Option.ne_none_iff_exists'.mp hprevious
      rw [if_neg (by simp), hpayload]
      simp only [bind_ok, require_ok, pure_ok]
      exact ⟨(), ⟨hstart, hend⟩, (), hcount, rfl⟩

/-- The records after the first. -/
theorem verifyRecords_some {deadline start : ℤ} {most : Option ℕ} {previous : EvidenceRecord}
    {records : List EvidenceRecord} : verifyRecords P deadline (some previous) start most records =
      .ok () ↔ Linked P (some previous) records ∧
        ∃ samples, records.map Link.payload = samples.map .sample ∧
          Ordered P deadline start most samples := by
  induction records generalizing previous start most with
  | nil =>
    rw [verifyRecords]
    exact ⟨fun _ => ⟨trivial, [], rfl, trivial⟩, fun _ => rfl⟩
  | cons r rest ih =>
    rw [verifyRecords, bind_ok]
    constructor
    · rintro ⟨⟨start', most'⟩, hr, hrest⟩
      obtain ⟨hlinked, samples, hsamples, hordered⟩ := ih.mp hrest
      obtain ⟨hnext, hvalid, ⟨hnone, -⟩ | ⟨s, -, hpayload, hstart, hend, hcount, heq⟩⟩ :=
        verifyRecord_ok.mp hr
      · cases hnone
      cases heq
      refine ⟨⟨hnext, hvalid, hlinked⟩, s :: samples, ?_, hstart, hend, hcount, hordered⟩
      rw [List.map_cons, List.map_cons, hpayload, hsamples]
    · rintro ⟨⟨hnext, hvalid, hlinked⟩, samples, hsamples, hordered⟩
      cases samples with
      | nil => cases hsamples
      | cons s samples =>
        rw [List.map_cons, List.map_cons] at hsamples
        obtain ⟨hpayload, hsamples⟩ := List.cons.inj hsamples
        obtain ⟨hstart, hend, hcount, hordered⟩ := hordered
        exact ⟨_, verifyRecord_ok.mpr ⟨hnext, hvalid, .inr ⟨s, by simp, hpayload, hstart, hend, hcount,
          rfl⟩⟩, ih.mpr ⟨hlinked, samples, hsamples, hordered⟩⟩

/-! ### The order of the samples -/

/-- A registration and samples that a collector may have taken one after the other. -/
structure Chronological (P : Platform) (header : Registration) (samples : List EvidenceSample) :
    Prop where
  window : isWindow P header = true
  times : (P.parseDate header.startedAt :: samples.map (time P)).Pairwise (· ≤ ·)
  deadline : ∀ s ∈ samples, time P s < P.parseDate header.deadline
  counters : (samples.filterMap EvidenceSample.closedTrades).Pairwise (· ≤ ·)

theorem pairwise_cons_cons {α : Type} [Preorder α] {a b : α} {l : List α} :
    (a :: b :: l).Pairwise (· ≤ ·) ↔ a ≤ b ∧ (b :: l).Pairwise (· ≤ ·) := by
  rw [← List.isChain_iff_pairwise, ← List.isChain_iff_pairwise, List.isChain_cons_cons]

theorem ordered_iff {deadline start : ℤ} {most : Option ℕ} {samples : List EvidenceSample} :
    Ordered P deadline start most samples ↔ (start :: samples.map (time P)).Pairwise (· ≤ ·) ∧
      (∀ s ∈ samples, time P s < deadline) ∧
      (most.toList ++ samples.filterMap EvidenceSample.closedTrades).Pairwise (· ≤ ·) := by
  induction samples generalizing start most with
  | nil => cases most <;> simp [Ordered]
  | cons s samples ih =>
    have hcounts : (most.toList ++ (s :: samples).filterMap EvidenceSample.closedTrades).Pairwise
        (· ≤ ·) ↔ countable s.closedTrades most = true ∧ ((s.closedTrades <|> most).toList ++
          samples.filterMap EvidenceSample.closedTrades).Pairwise (· ≤ ·) := by
      cases hclosed : s.closedTrades with
      | none =>
        rw [List.filterMap_cons_none hclosed]
        simp [countable]
      | some closed =>
        rw [List.filterMap_cons_some hclosed]
        cases most with
        | none => simp [countable]
        | some m =>
          rw [Option.toList_some, List.singleton_append, pairwise_cons_cons]
          simp [countable]
    rw [Ordered, ih, hcounts, List.map_cons, pairwise_cons_cons, List.forall_mem_cons]
    tauto

theorem chronological_iff {header : Registration} {samples : List EvidenceSample} :
    Chronological P header samples ↔ isWindow P header = true ∧
      Ordered P (P.parseDate header.deadline) (P.parseDate header.startedAt) none samples := by
  rw [ordered_iff]
  constructor
  · intro h
    exact ⟨h.window, h.times, h.deadline, by simpa using h.counters⟩
  · rintro ⟨hwindow, htimes, hdeadline, hcounters⟩
    exact ⟨hwindow, htimes, hdeadline, by simpa using hcounters⟩

/-! ### Accepted journals -/

/-- A journal as the chain of a registration and of samples in order. -/
structure Journal (P : Platform) (records : List EvidenceRecord) : Prop where
  chain : Chain (digest P) records
  valid : ∀ r ∈ records, validRecord P r = true
  payloads : ∃ header samples, records.map Link.payload = .registration header :: samples.map .sample ∧
    Chronological P header samples

/-- What the checks after the reading of the lines ask of the records. -/
theorem verified_iff {records : List EvidenceRecord} {header : Registration}
    (hheader : records.head?.map Link.payload = some (.registration header)) :
    (isWindow P header = true ∧ verifyRecords P (P.parseDate header.deadline) none
      (P.parseDate header.startedAt) none records = .ok ()) ↔ Journal P records := by
  obtain ⟨r, rest, rfl⟩ : ∃ r rest, records = r :: rest := by
    cases records with
    | nil => cases hheader
    | cons r rest => exact ⟨r, rest, rfl⟩
  have hpayload : r.payload = .registration header := by simpa using hheader
  rw [verifyRecords, bind_ok]
  constructor
  · rintro ⟨hwindow, ⟨start, most⟩, hr, hrest⟩
    obtain ⟨hnext, hvalid, ⟨-, heq⟩ | ⟨_, hne, -⟩⟩ := verifyRecord_ok.mp hr
    · cases heq
      obtain ⟨hlinked, samples, hsamples, hordered⟩ := verifyRecords_some.mp hrest
      have hall := linked_iff.mp (show Linked P none (r :: rest) from ⟨hnext, hvalid, hlinked⟩)
      refine ⟨hall.1, hall.2, header, samples, ?_, chronological_iff.mpr ⟨hwindow, hordered⟩⟩
      rw [List.map_cons, hpayload, hsamples]
    · exact absurd rfl hne
  · rintro ⟨hchain, hvalid, header', samples, hpayloads, hchronological⟩
    rw [List.map_cons, hpayload] at hpayloads
    obtain ⟨hsame, hsamples⟩ := List.cons.inj hpayloads
    cases hsame
    obtain ⟨hwindow, hordered⟩ := chronological_iff.mp hchronological
    obtain ⟨hnext, hvalid', hlinked⟩ := linked_iff.mpr ⟨hchain, hvalid⟩
    exact ⟨hwindow, _, verifyRecord_ok.mpr ⟨hnext, hvalid', .inl ⟨rfl, rfl⟩⟩,
      verifyRecords_some.mpr ⟨hlinked, samples, hsamples, hordered⟩⟩

theorem Journal.head {records : List EvidenceRecord} (h : Journal P records) :
    ∃ header, records.head?.map Link.payload = some (.registration header) := by
  obtain ⟨header, samples, hpayloads, -⟩ := h.payloads
  refine ⟨header, ?_⟩
  rw [← List.head?_map, hpayloads]
  rfl

/-- What an accepted text is. -/
theorem verifyJournal_ok {content : Text} {records : List EvidenceRecord} :
    verifyJournal P content = .ok records ↔ byteLength content ≤ maxJournalBytes ∧
      content.getLast? = some 10 ∧ (content.dropLast.splitOn 10).length ≤ maxSamples + 1 ∧
      (content.dropLast.splitOn 10).mapM (decodeLine P) = .ok records ∧ Journal P records := by
  unfold verifyJournal
  simp only [bind_ok, require_ok]
  constructor
  · rintro ⟨_, hsize, _, hend, _, hlines, read, hread, h⟩
    split at h
    · next header hheader =>
      simp only [bind_ok, require_ok, pure_ok] at h
      obtain ⟨_, hwindow, _, hverified, rfl⟩ := h
      exact ⟨hsize, hend, hlines, hread, (verified_iff hheader).mp ⟨hwindow, hverified⟩⟩
    · cases h
  · rintro ⟨hsize, hend, hlines, hread, hjournal⟩
    refine ⟨(), hsize, (), hend, (), hlines, records, hread, ?_⟩
    obtain ⟨header, hheader⟩ := hjournal.head
    obtain ⟨hwindow, hverified⟩ := (verified_iff hheader).mpr hjournal
    rw [hheader]
    simp only [bind_ok, require_ok, pure_ok]
    exact ⟨(), hwindow, (), hverified, trivial⟩

theorem mapM_line {records : List EvidenceRecord} (h : ∀ r ∈ records, validRecord P r = true) :
    (records.map line).mapM (decodeLine P) = .ok records := by
  induction records with
  | nil => rfl
  | cons r rest ih =>
    rw [List.forall_mem_cons] at h
    rw [List.map_cons, List.mapM_cons, decodeLine_line h.1, ok_bind, ih h.2, ok_bind]
    rfl

/-- The records of a journal are numbered from 0, so that the schema bounds their number. -/
theorem Journal.length {records : List EvidenceRecord} (h : Journal P records) :
    records.length ≤ maxSamples + 1 := by
  rcases List.eq_nil_or_concat records with rfl | ⟨front, last, hconcat⟩
  · simp
  rw [List.concat_eq_append] at hconcat
  subst hconcat
  have hsequence := h.chain.sequence_eq
  have hvalid := h.valid last (by simp)
  simp only [validRecord, Bool.and_eq_true, decide_eq_true_eq] at hvalid
  simp only [List.length_append, List.length_singleton]
  omega

/-- A written journal is accepted as what was written. -/
theorem verifyJournal_serialize {records : List EvidenceRecord} :
    (byteLength (serialize records) ≤ maxJournalBytes ∧ Journal P records) →
      verifyJournal P (serialize records) = .ok records := by
  rintro ⟨hsize, hjournal⟩
  have hne : records ≠ [] := by
    rintro rfl
    obtain ⟨_, hhead⟩ := hjournal.head
    cases hhead
  refine verifyJournal_ok.mpr ⟨hsize, getLast_serialize hne, ?_, ?_, hjournal⟩
  · rw [splitOn_serialize hne, List.length_map]
    exact hjournal.length
  · rw [splitOn_serialize hne]
    exact mapM_line hjournal.valid

/-! ### The writer -/

/-- Records written one after the other. -/
def chainRecords (P : Platform) : Option EvidenceRecord → List Payload →
    Except String (List EvidenceRecord)
  | _, [] => .ok []
  | previous, payload :: rest => do
    let record ← chainRecord P payload previous
    let records ← chainRecords P (some record) rest
    return record :: records

theorem chainRecords_ok {previous : Option EvidenceRecord} {payloads : List Payload}
    {records : List EvidenceRecord} : chainRecords P previous payloads = .ok records ↔
      records.map Link.payload = payloads ∧ Linked P previous records := by
  induction payloads generalizing previous records with
  | nil =>
    rw [chainRecords]
    constructor
    · intro h
      cases h
      exact ⟨rfl, trivial⟩
    · rintro ⟨h, -⟩
      rw [List.map_eq_nil_iff.mp h]
  | cons payload rest ih =>
    simp only [chainRecords, bind_ok, pure_ok]
    constructor
    · rintro ⟨r, hr, more, hmore, rfl⟩
      obtain ⟨hnext, hvalid⟩ := chainRecord_ok.mp hr
      obtain ⟨hpayloads, hlinked⟩ := ih.mp hmore
      have hpayload : r.payload = payload := by rw [hnext]; rfl
      refine ⟨by rw [List.map_cons, hpayload, hpayloads], ?_, hvalid, hlinked⟩
      rw [hpayload]
      exact hnext
    · rintro ⟨hpayloads, hlinked⟩
      cases records with
      | nil => cases hpayloads
      | cons r more =>
        obtain ⟨hpayload, hmore⟩ := List.cons.inj hpayloads
        obtain ⟨hnext, hvalid, hlinked⟩ := hlinked
        rw [hpayload] at hnext
        exact ⟨r, chainRecord_ok.mpr ⟨hnext, hvalid⟩, more, ih.mpr ⟨hmore, hlinked⟩, rfl⟩

/-- The journal that `chainRecord` builds from a registration and samples is accepted, as these very
    records, exactly when it is not too large, its window is whole hours up to a week, and its samples
    are in order, before the deadline, with a counter of trades that never falls. -/
theorem chained_journal_verifies (P : Platform) (header : Registration)
    (samples : List EvidenceSample) (records : List EvidenceRecord)
    (hrecords : chainRecords P none (.registration header :: samples.map .sample) = .ok records) :
    verifyJournal P (serialize records) = .ok records ↔
      byteLength (serialize records) ≤ maxJournalBytes ∧ Chronological P header samples := by
  obtain ⟨hpayloads, hlinked⟩ := chainRecords_ok.mp hrecords
  obtain ⟨hchain, hvalid⟩ := linked_iff.mp hlinked
  constructor
  · intro h
    obtain ⟨hsize, -, -, -, hjournal⟩ := verifyJournal_ok.mp h
    obtain ⟨header', samples', hpayloads', hchronological⟩ := hjournal.payloads
    rw [hpayloads] at hpayloads'
    obtain ⟨hheader, hsamples⟩ := List.cons.inj hpayloads'
    cases hheader
    have hsame : samples = samples' := List.map_injective_iff.mpr
      (fun a b h => Payload.sample.inj h) hsamples
    exact ⟨hsize, hsame ▸ hchronological⟩
  · rintro ⟨hsize, hchronological⟩
    exact verifyJournal_serialize ⟨hsize, hchain, hvalid, header, samples, hpayloads, hchronological⟩

/-! A journal of two lines. -/

namespace Sample

def start : Text := units "2026-10-09T00:00:00.000Z"

def deadline : Text := units "2026-10-09T01:00:00.000Z"

def header : Registration := ⟨start, deadline⟩

def missing : EvidenceSample :=
  { sampledAt := start
    available := false
    startupReady := none
    operationalReady := none
    tradingEnabled := none
    closedTrades := none
    reasons := [units "OBSERVATION_STATUS_UNAVAILABLE"]
    session := .unavailable
    sessionCheckedAt := none
    scheduleFetchedAt := none }

def firstDigest : Text := units "918be9195b2f084f22e301ad935394f30659b5142f3b98453c8a7f6a51f486df"

def secondDigest : Text := units "85e83ee3f43fcb0e2f62984602a7f4e1602bacc889973215c3064fdcd79ec0dd"

/-- The platform, as far as these two lines ask it. -/
def platform : Platform where
  number n :=
    if Json.natLiteral (Json.natValue n.literal) = n.literal ∧ Json.natValue n.literal ≤ maxSafe then
      some (Json.natValue n.literal)
    else none
  number_ofNat n := by simp [Json.Number.ofNat, Json.natValue_natLiteral]
  isDatetime t := t = start || t = deadline
  parseDate t := if t = deadline then 1_791_507_600_000 else 1_791_504_000_000
  sha256 t :=
    if t = Json.write (encodeBody (0, none, .registration header)) then firstDigest else secondDigest

def first : EvidenceRecord := HashChain.next (digest platform) none (.registration header)

def second : EvidenceRecord := HashChain.next (digest platform) (some first) (.sample missing)

theorem chained : chainRecords platform none [.registration header, .sample missing] =
    .ok [first, second] :=
  chainRecords_ok.mpr ⟨rfl, rfl, by decide +kernel, rfl, by decide +kernel, trivial⟩

theorem chronological : Chronological platform header [missing] where
  window := by decide +kernel
  times := by decide +kernel
  deadline := by decide +kernel
  counters := by decide +kernel

theorem small : byteLength (serialize [first, second]) ≤ maxJournalBytes := by decide +kernel

theorem verified : verifyJournal platform (serialize [first, second]) = .ok [first, second] := by
  obtain ⟨hpayloads, hlinked⟩ := chainRecords_ok.mp chained
  obtain ⟨hchain, hvalid⟩ := linked_iff.mp hlinked
  exact verifyJournal_serialize ⟨small, hchain, hvalid, _, [missing], hpayloads, chronological⟩

end Sample

theorem chained_journal_verifies_sample :
    verifyJournal Sample.platform (serialize [Sample.first, Sample.second]) =
        .ok [Sample.first, Sample.second] ↔
      byteLength (serialize [Sample.first, Sample.second]) ≤ maxJournalBytes ∧
        Chronological Sample.platform Sample.header [Sample.missing] :=
  chained_journal_verifies _ _ _ _ Sample.chained

/-! ### What the last digest fixes -/

theorem natural_inj {n m : ℕ} (hn : n ≤ maxSamples) (hm : m ≤ maxSamples) (P : Platform)
    (h : natural n = natural m) : n = m := by
  have hdecode : decodeNat P maxSamples (natural n) = some n := by
    rw [decodeNat_natural (by decide), if_pos hn]
  rw [h, decodeNat_natural (by decide), if_pos hm] at hdecode
  exact (Option.some.inj hdecode).symm

theorem nullable_string_inj {o o' : Option Text} (h : nullable Json.string o = nullable .string o') :
    o = o' := by
  cases o <;> cases o' <;> simp_all [nullable]

theorem payload_inj {p p' : Payload} (hp : validPayload P p = true) (hp' : validPayload P p' = true)
    (h : encodePayload p = encodePayload p') : p = p' := by
  have hdecode := decodePayload_encode (P := P) p
  rw [h, decodePayload_encode, if_pos hp, if_pos hp'] at hdecode
  exact (Option.some.inj hdecode).symm

/-- Valid records with one text of their bodies have one body. -/
theorem body_inj {r r' : EvidenceRecord} (hr : validRecord P r = true) (hr' : validRecord P r' = true)
    (h : encodeBody r.body = encodeBody r'.body) : r.body = r'.body := by
  simp only [validRecord, Bool.and_eq_true, decide_eq_true_eq] at hr hr'
  simp only [encodeBody, object, List.map_cons, List.map_nil, Json.object.injEq, List.cons.injEq,
    Prod.mk.injEq, true_and, and_true, Link.body] at h
  obtain ⟨hsequence, hprevious, hpayload⟩ := h
  simp only [Link.body, Prod.mk.injEq]
  exact ⟨natural_inj hr.1.1.1 hr'.1.1.1 P hsequence, nullable_string_inj hprevious,
    payload_inj hr.1.2 hr'.1.2 hpayload⟩

/-- The digests of the lines of two journals tell these lines apart. -/
def NoCollision (P : Platform) (records records' : List EvidenceRecord) : Prop :=
  ∀ r ∈ records, ∀ r' ∈ records', digest P r.body = digest P r'.body →
    Json.write (encodeBody r.body) = Json.write (encodeBody r'.body)

/-- Two accepted journals with the same last digest are one journal, record by record: no record
    before the last can be altered, inserted, removed or moved under a published digest. -/
theorem last_digest_fixes_journal (P : Platform) (content content' : Text)
    (records records' : List EvidenceRecord) (h : verifyJournal P content = .ok records)
    (h' : verifyJournal P content' = .ok records') (hno : NoCollision P records records')
    (hlast : records.getLast?.map Link.digest = records'.getLast?.map Link.digest) :
    records = records' := by
  obtain ⟨-, -, -, -, hjournal⟩ := verifyJournal_ok.mp h
  obtain ⟨-, -, -, -, hjournal'⟩ := verifyJournal_ok.mp h'
  have hsep : HashChain.Separates (digest P) records records' := by
    intro r hr r' hr' hdigest
    exact body_inj (hjournal.valid r hr) (hjournal'.valid r' hr')
      (Json.write_injective (hno r hr r' hr' hdigest))
  rcases List.eq_nil_or_concat records with rfl | ⟨front, last, hconcat⟩
  · obtain ⟨_, hhead⟩ := hjournal.head
    cases hhead
  rcases List.eq_nil_or_concat records' with rfl | ⟨front', last', hconcat'⟩
  · obtain ⟨_, hhead⟩ := hjournal'.head
    cases hhead
  rw [List.concat_eq_append] at hconcat hconcat'
  subst hconcat hconcat'
  exact hjournal.chain.eq_of_last hjournal'.chain hsep (by simpa using hlast)

theorem last_digest_fixes_journal_sample :
    [Sample.first, Sample.second] = [Sample.first, Sample.second] := by
  refine last_digest_fixes_journal Sample.platform _ _ _ _ Sample.verified Sample.verified ?_ rfl
  unfold NoCollision
  decide +kernel

end ScalpingBot.Evidence
