import ScalpingBot.Library.Transition
import ScalpingBot.Store.Redelivery
import ScalpingBot.Store.Reports

/-! Runs of closing executions: the close-deal ledger against the entry fills of a position and
    against the row of the position. -/

namespace ScalpingBot.Store

open Transition

variable {o : PostgresDemoExecutionStoreOptions} {t t' : Tables} {event : DemoExecutionEvent}
  {source : DemoExecutionEvidenceSource} {acknowledgement : Option BrokerAcknowledgement}
  {result : DemoExecutionPersistenceResult} {f : DemoExecutionFill} {d : DemoExecutionCloseDetail}
  {p : DemoExecutionPosition} {v : Decimal} {positionId : ℕ} {replay : Bool}

/-! ### The evidence of one close -/

theorem closeEvidence_ok (h : closeEvidence event = some (f, d, p, v)) :
    event.fill = some f ∧ event.closeDetail = some d ∧ event.position = some p ∧
      d.closedVolume = some v ∧ event.closingOrder ∧
      (event.brokerOrderType = some 1 ∨ event.brokerOrderType = some 4) ∧
      event.brokerPositionId = some p.brokerPositionId ∧ f.volume = v := by
  unfold closeEvidence at h
  split at h
  · next f' d' p' hf hd hp =>
    split at h
    · cases h
    · next v' hv =>
      split at h
      · cases h
      · next hchecks =>
        obtain ⟨rfl, rfl, rfl, rfl⟩ : f' = f ∧ d' = d ∧ p' = p ∧ v' = v := by
          simpa using h
        simp only [not_or, not_not] at hchecks
        obtain ⟨hclosing, htype, -, -, -, -, -, -, -, hposition, hvolume, -⟩ := hchecks
        refine ⟨hf, hd, hp, hv, hclosing, ?_, hposition, hvolume⟩
        cases hkind : event.brokerOrderType with
        | none => simp [hkind] at htype
        | some n => simpa [hkind] using htype
  · cases h

/-- The volume closed so far and the rest, as the proof computes them. -/
def closedWith (t : Tables) (positionId : ℕ) (v : Decimal) : Decimal :=
  Decimal.plus ((t.closeDealsOf positionId).map (·.closedVolume)).sum v

def remainingAfter (t : Tables) (positionId : ℕ) (v : Decimal) : Decimal :=
  Decimal.minus (t.entryVolume positionId) (closedWith t positionId v)

/-- What `provePositionClose` has checked. -/
structure Proved (o : PostgresDemoExecutionStoreOptions) (t : Tables) (event : DemoExecutionEvent)
    (f : DemoExecutionFill) (d : DemoExecutionCloseDetail) (p : DemoExecutionPosition) (v : Decimal)
    (row : PositionRow) : Prop where
  evidence : closeEvidence event = some (f, d, p, v)
  mem : row ∈ t.closablePositions o event p d
  uncounted : ∀ r ∈ t.closeDealsOf row.id, r.brokerDealId ≠ f.brokerFillId
  closed_pos : 0 < closedWith t row.id v
  remaining_nonneg : 0 ≤ remainingAfter t row.id v
  volume : p.volume = remainingAfter t row.id v
  state : p.state = if remainingAfter t row.id v = 0 then .closed else .opened

theorem provePositionClose_ok {aggregate : DemoExecutionCloseDetail}
    (h : provePositionClose o t event = some (positionId, aggregate)) :
    ∃ f d p v row, Proved o t event f d p v row ∧ row.id = positionId ∧
      aggregate = aggregateClose (t.closeDealsOf row.id) d (closedWith t row.id v) := by
  unfold provePositionClose at h
  split at h
  · cases h
  · next f d p v hevidence =>
    split at h
    · next row hrow =>
      simp only [Option.ite_none_left_eq_some, not_or, not_le, not_lt, ne_eq, not_not,
        Option.some.injEq, Prod.mk.injEq] at h
      obtain ⟨⟨huncounted, hpos, hnonneg, hvolume, hstate⟩, rfl, rfl⟩ := h
      refine ⟨f, d, p, v, row, ⟨hevidence, by simp [hrow], ?_, hpos, hnonneg, hvolume, ?_⟩, rfl, rfl⟩
      · intro r hr heq
        exact huncounted (List.any_eq_true.mpr ⟨r, hr, by simpa using heq⟩)
      · rw [remainingAfter, closedWith]
        split at hstate <;> simp_all
    · cases h

/-- The entry of a close in the ledger. -/
structure Entered (deal : CloseDealRow) (positionId : ℕ) (f : DemoExecutionFill)
    (d : DemoExecutionCloseDetail) (v : Decimal) : Prop where
  positionId : deal.positionId = positionId
  brokerDealId : deal.brokerDealId = f.brokerFillId
  closedVolume : deal.closedVolume = v.numeric
  grossProfit : deal.grossProfit = d.grossProfit.numeric
  commission : deal.commission = d.commission.numeric
  swap : deal.swap = d.swap.numeric
  conversionFee : deal.conversionFee = d.pnlConversionFee.numeric

theorem recordPositionClose_ok {external : Bool} {aggregate : DemoExecutionCloseDetail}
    (h : recordPositionClose o t event external = .ok (t', aggregate)) :
    ∃ f d p v row deal, Proved o t event f d p v row ∧ Entered deal row.id f d v ∧
      0 < v.numeric ∧
      aggregate = aggregateClose (t.closeDealsOf row.id) d (closedWith t row.id v) ∧
      t' = { t with closeDeals := t.closeDeals ++ [deal] } := by
  unfold recordPositionClose at h
  split at h
  · next f d p v positionId aggregate' hevidence hproof =>
    split at h
    · cases h
    · next hchecks =>
      obtain ⟨f', d', p', v', row, hproved, rfl, haggregate⟩ := provePositionClose_ok hproof
      obtain ⟨rfl, rfl, rfl, rfl⟩ : f = f' ∧ d = d' ∧ p = p' ∧ v = v' := by
        simpa using hevidence.symm.trans hproved.evidence
      cases h
      rw [not_or, not_le] at hchecks
      exact ⟨f, d, p, v, row, _, hproved, ⟨rfl, rfl, rfl, rfl, rfl, rfl, rfl⟩, hchecks.1, haggregate,
        rfl⟩
  · cases h

/-! ### The transaction of one close -/

/-- What `persist` does with a closing execution that it accepts. -/
structure Accepts (o : PostgresDemoExecutionStoreOptions) (t t' : Tables)
    (event : DemoExecutionEvent) (f : DemoExecutionFill) (d : DemoExecutionCloseDetail)
    (p : DemoExecutionPosition) (v : Decimal) (row : PositionRow) (deal : CloseDealRow) :
    Prop where
  position : event.position = some p
  closeDetail : event.closeDetail = some d
  closedVolume : d.closedVolume = some v
  mem : row ∈ t.positions
  account : row.accountId = o.accountId
  brokerPosition : row.brokerPositionId = some p.brokerPositionId
  uncounted : ∀ r ∈ t.closeDealsOf row.id, r.brokerDealId ≠ f.brokerFillId
  remaining_nonneg : 0 ≤ remainingAfter t row.id v
  volume : p.volume = remainingAfter t row.id v
  state : p.state = if remainingAfter t row.id v = 0 then .closed else .opened
  entered : Entered deal row.id f d v
  volume_pos : 0 < v.numeric
  closeDeals : t'.closeDeals = t.closeDeals ++ [deal]
  positions : ∃ e : PositionRow, e.state = p.state ∧ e.volume = p.volume ∧
    e.updatedAt = p.updatedAt ∧ t'.positions = updateWhere (fun q => q.accountId = o.accountId ∧
      q.brokerPositionId = some p.brokerPositionId) (·.merge e) t.positions
  entryVolume : ∀ id, t'.entryVolume id = t.entryVolume id
  trades : t'.trades = t.trades ∨ ∃ trade : TradeRow, t'.trades = t.trades ++ [trade] ∧
    trade.Realizes (aggregateClose (t.closeDealsOf row.id) d (closedWith t row.id v))

/-- What the ledger is about is as before. -/
structure LedgerKept (t t' : Tables) : Prop where
  closeDeals : t'.closeDeals = t.closeDeals
  positions : t'.positions = t.positions
  fills : t'.fills = t.fills
  trades : t'.trades = t.trades

theorem LedgerKept.refl (t : Tables) : LedgerKept t t := ⟨rfl, rfl, rfl, rfl⟩

theorem insertEvent_kept {order : Option OrderMatch} {position : Option PositionMatch}
    {s : MappingState} {reasons : List String}
    (h : insertEvent o t event order position s reasons = .ok t') : LedgerKept t t' := by
  obtain ⟨-, row, -, -, -, -, -, rfl⟩ := insertEvent_ok h
  exact ⟨rfl, rfl, rfl, rfl⟩

theorem journal_kept {order : Option OrderMatch} {position : Option PositionMatch}
    {s : MappingState} {reason : String}
    (h : journal o t event source acknowledgement order position s reason = .ok (t', result)) :
    LedgerKept t t' := by
  obtain ⟨t1, rows, h1, rfl⟩ := journal_ok h
  obtain ⟨hdeals, hpositions, hfills, htrades⟩ := insertEvent_kept h1
  exact ⟨hdeals, hpositions, hfills, htrades⟩

theorem persistPosition_trades {position : Option PositionMatch} {orderGroupId : ℕ}
    {a : Option DemoExecutionCloseDetail} {p' : Option PositionMatch} {reason : Option String}
    (h : persistPosition o t event position orderGroupId a = .ok (t', p', reason)) :
    t'.trades = t.trades ∨ ∃ (trade : TradeRow) (d : DemoExecutionCloseDetail),
      event.closeDetail = some d ∧ t'.trades = t.trades ++ [trade] ∧
        trade.Realizes (a.getD d) := by
  unfold persistPosition at h
  split at h
  · cases h
    exact .inl rfl
  · obtain ⟨⟨t1, stored⟩, h1, h⟩ := bind_ok.mp h
    have htrades : t1.trades = t.trades := by
      rcases upsertPosition_ok h1 with ⟨r, -, -, -, -, rfl⟩ | ⟨-, -, rfl⟩ <;> rfl
    simp only at h
    split at h
    · next d _ hd =>
      obtain ⟨⟨t2, reason2⟩, h2, h⟩ := bind_ok.mp h
      cases h
      rcases persistClosedTrade_ok h2 with ⟨rfl, -⟩ | ⟨-, row, -, -, hrealizes, rfl⟩
      · exact .inl htrades
      · exact .inr ⟨row, d, hd, by rw [← htrades], hrealizes⟩
    · cases h
      exact .inl htrades

/-- A closing execution that carries its deal and its outcome. -/
structure Closes (event : DemoExecutionEvent) : Prop where
  closingOrder : event.closingOrder
  closeDetail : event.closeDetail.isSome
  fill : event.fill.isSome

/-- The position that the proof found is the one the event was matched with. -/
theorem closable_matched {row : PositionRow} (hmem : row ∈ t.closablePositions o event p d) :
    row ∈ t.positions ∧ row.accountId = o.accountId ∧
      row.brokerPositionId = event.brokerPositionId ∧
      (matchingPositions o t event).head?.isSome := by
  simp only [Tables.closablePositions, List.mem_filter, decide_eq_true_eq] at hmem
  obtain ⟨hrow, haccount, hsymbol, hsome, hposition, -⟩ := hmem
  refine ⟨hrow, haccount, hposition, ?_⟩
  obtain ⟨id, hid⟩ := Option.isSome_iff_exists.mp hsome
  have hmatch : (⟨row.id, row.orderGroupId⟩ : PositionMatch) ∈ matchingPositions o t event := by
    rw [matchingPositions, ← hposition, hid]
    exact List.mem_map.mpr ⟨row, List.mem_filter.mpr ⟨hrow, by simp [haccount, hsymbol, hid]⟩, rfl⟩
  exact List.isSome_head?.mpr (List.ne_nil_of_mem hmatch)

theorem entryVolume_fill {fills : List FillRow} {row : FillRow} (hrow : row.orderId = none)
    (h : t'.fills = fills ++ [row]) (ht : t.fills = fills) (id : ℕ) :
    t'.entryVolume id = t.entryVolume id := by
  simp [Tables.entryVolume, h, ht, List.filter_append, hrow]

/-- A closing execution that is applied is accepted by the ledger. -/
theorem persistMapped_closes {m : Matched} {orderGroupId : ℕ} (hcloses : Closes event)
    (hposition : m.position = (matchingPositions o t event).head?)
    (hkind : event.brokerOrderType = some 4 ∨ m.authorizedMarketClose ∨ m.manualClose)
    (horder : m.order.isSome → brokerGeneratedClosingOrder event m = false)
    (h : persistMapped o t event source acknowledgement m orderGroupId replay = .ok (t', result)) :
    ∃ f d p v row deal, Accepts o t t' event f d p v row deal := by
  obtain ⟨t1, s, t2, a, t3, k, reason, t4, t5, rows, acks, h1, h2, h3, h4, h5, -, rfl⟩ :=
    persistMapped_ok h
  have hkept1 : t1.positions = t.positions ∧ t1.fills = t.fills ∧ t1.closeDeals = t.closeDeals ∧
      t1.trades = t.trades := by
    rcases persistOrder_ok h1 with ⟨rfl, -⟩ | ⟨q, m, time, -, -, -, rfl⟩ <;>
      exact ⟨rfl, rfl, rfl, rfl⟩
  obtain ⟨hpositions1, hfills1, hdeals1, htrades1⟩ := hkept1
  rw [persistCloseDeal, if_pos ⟨hcloses.closeDetail, hcloses.fill, hcloses.closingOrder⟩] at h2
  obtain ⟨⟨t2', aggregate⟩, hrecord, h2⟩ := bind_ok.mp h2
  cases h2
  obtain ⟨f, d, p, v, row, deal, hproved, hentered, hvpos, haggregate, rfl⟩ :=
    recordPositionClose_ok hrecord
  obtain ⟨hfill, hdetail, hp, hv, hclosing, htype, hbroker, -⟩ := closeEvidence_ok hproved.evidence
  obtain ⟨hrow, haccount, hrowBroker, hsome⟩ := closable_matched hproved.mem
  -- the event was matched with the position, so its order is one of the broker's own
  have hnone : m.order = none := by
    by_contra hm
    have hgenerated := horder (Option.isSome_iff_ne_none.mpr hm)
    have hmatched : m.position.isSome := by
      rw [hposition]
      simpa only [matchingPositions, hpositions1] using hsome
    simp [brokerGeneratedClosingOrder, hkind, hclosing, hbroker, hmatched] at hgenerated
  have hfive : t5.closeDeals = t4.closeDeals ∧ t5.positions = t4.positions ∧
      t5.fills = t4.fills ∧ t5.trades = t4.trades := by
    unfold recordMapped at h5
    split at h5
    · cases h5
      exact ⟨rfl, rfl, rfl, rfl⟩
    · obtain ⟨-, row, -, -, -, -, -, rfl⟩ := insertEvent_ok h5
      exact ⟨rfl, rfl, rfl, rfl⟩
  obtain ⟨hdeals5, hpositions5, hfills5, htrades5⟩ := hfive
  have hfour : t4.closeDeals = t3.closeDeals ∧ t4.positions = t3.positions ∧
      t4.trades = t3.trades ∧ ∀ id, t4.entryVolume id = t3.entryVolume id := by
    rcases persistFill_ok h4 with ⟨rfl, -⟩ | ⟨new, -, hid, -, rfl⟩
    · exact ⟨rfl, rfl, rfl, fun _ => rfl⟩
    · refine ⟨rfl, rfl, rfl, entryVolume_fill ?_ rfl rfl⟩
      rw [hid, hnone, Option.map_none]
  obtain ⟨hdeals4, hpositions4, htrades4, hentry4⟩ := hfour
  have hentry : ∀ id, t5.entryVolume id = t3.entryVolume id := by
    intro id
    rw [← hentry4, Tables.entryVolume, hfills5, Tables.entryVolume]
  have hentry1 : ∀ id, t1.entryVolume id = t.entryVolume id := by
    intro id
    rw [Tables.entryVolume, hfills1, Tables.entryVolume]
  have hledger1 : ∀ id, t1.closeDealsOf id = t.closeDealsOf id := by
    intro id
    rw [Tables.closeDealsOf, hdeals1, Tables.closeDealsOf]
  have hclosed1 : closedWith t1 row.id v = closedWith t row.id v := by
    rw [closedWith, hledger1, closedWith]
  have hremaining1 : remainingAfter t1 row.id v = remainingAfter t row.id v := by
    rw [remainingAfter, hentry1, hclosed1, remainingAfter]
  have htrade := persistPosition_trades h3
  rcases persistPosition_ok h3 with ⟨hmissing, -, -⟩ | ⟨p', t6, stored, trades, hp', hup, -, rfl⟩
  · rw [hp] at hmissing
    cases hmissing
  obtain rfl : p = p' := by simpa [hp] using hp'
  rcases upsertPosition_ok hup with ⟨q, -, -, -, -, rfl⟩ | ⟨hunknown, -, -⟩
  · refine ⟨f, d, p, v, row, deal, ⟨hp, hdetail, hv, hpositions1 ▸ hrow, haccount, hrowBroker.trans hbroker,
      ?_, ?_, ?_, ?_, hentered, hvpos, ?_,
      ⟨proposedPosition o { t1 with closeDeals := t1.closeDeals ++ [deal] } p m.position orderGroupId,
        rfl, rfl, rfl, ?_⟩, ?_, ?_⟩⟩
    · rw [← hledger1]
      exact hproved.uncounted
    · rw [← hremaining1]
      exact hproved.remaining_nonneg
    · rw [← hremaining1]
      exact hproved.volume
    · rw [← hremaining1]
      exact hproved.state
    · rw [← hdeals1]
      exact hdeals5.trans hdeals4
    · rw [← hpositions1]
      exact hpositions5.trans hpositions4
    · intro id
      exact (hentry id).trans (hentry1 id)
    · rw [← hledger1, ← hclosed1, ← haggregate]
      rcases htrade with hsame | ⟨trade, d', hd', hnew, hrealizes⟩
      · exact .inl (htrades5.trans (htrades4.trans (hsame.trans htrades1)))
      · refine .inr ⟨trade, ?_, by simpa using hrealizes⟩
        rw [← htrades1]
        exact htrades5.trans (htrades4.trans hnew)
  · exact absurd ⟨haccount, hrowBroker.trans hbroker⟩ (hunknown row hrow)

theorem persistMatched_closes {m : Matched} (hcloses : Closes event)
    (hposition : m.position = (matchingPositions o t event).head?)
    (hkind : event.brokerOrderType = some 4 ∨ m.authorizedMarketClose ∨ m.manualClose)
    (horder : m.order.isSome → brokerGeneratedClosingOrder event m = false)
    (h : persistMatched o t event source acknowledgement m replay = .ok (t', result)) :
    LedgerKept t t' ∨ ∃ f d p v row deal, Accepts o t t' event f d p v row deal := by
  unfold persistMatched at h
  split at h
  · exact .inl (journal_kept h)
  · split at h
    · exact .inl (journal_kept h)
    · unfold persistInGroup at h
      split at h
      · exact .inl (journal_kept h)
      · exact .inr (persistMapped_closes hcloses hposition hkind horder h)

theorem persistAuthorized_closes {m : Matched} (hcloses : Closes event)
    (hposition : m.position = (matchingPositions o t event).head?)
    (hkind : event.brokerOrderType = some 4 ∨ m.authorizedMarketClose ∨ m.manualClose)
    (h : persistAuthorized o t event source acknowledgement m replay = .ok (t', result)) :
    LedgerKept t t' ∨ ∃ f d p v row deal, Accepts o t t' event f d p v row deal := by
  obtain ⟨t1, h1, h⟩ := bind_ok.mp h
  obtain ⟨rows, rfl⟩ := bindCloseOrder_ok h1
  have hbound : LedgerKept { t with protections := rows } t' ∨ ∃ f d p v row deal,
      Accepts o { t with protections := rows } t' event f d p v row deal := by
    split at h
    · split at h
      · exact .inl (journal_kept h)
      · exact persistMatched_closes (m := { m with order := none }) hcloses hposition hkind
          (by simp) h
    · next hgenerated =>
      refine persistMatched_closes hcloses hposition hkind ?_ h
      intro hsome
      exact Bool.eq_false_iff.mpr fun hgen => hgenerated ⟨hsome, hgen⟩
  rcases hbound with hkept | ⟨f, d, p, v, row, deal, haccepts⟩
  · exact .inl ⟨hkept.closeDeals, hkept.positions, hkept.fills, hkept.trades⟩
  · exact .inr ⟨f, d, p, v, row, deal, { haccepts with }⟩

theorem LedgerKept.trans {t1 t2 t3 : Tables} (h : LedgerKept t1 t2) (h' : LedgerKept t2 t3) :
    LedgerKept t1 t3 :=
  ⟨h'.closeDeals.trans h.closeDeals, h'.positions.trans h.positions, h'.fills.trans h.fills,
    h'.trades.trans h.trades⟩

theorem insertVariant_kept (t : Tables) (x : VariantRow) : LedgerKept t (insertVariant t x).1 := by
  unfold insertVariant
  split
  · exact ⟨rfl, rfl, rfl, rfl⟩
  · exact ⟨rfl, rfl, rfl, rfl⟩

theorem recordVariant_kept {duplicate : EventRow}
    (h : recordVariant o t event source acknowledgement duplicate = .ok (t', result)) :
    LedgerKept t t' := by
  rw [recordVariant] at h
  simp only at h
  generalize hfirst : insertVariant t _ = first at h
  have h1 : LedgerKept t first.1 := by
    rw [← hfirst]
    exact insertVariant_kept _ _
  generalize hsecond : insertVariant first.1 _ = second at h
  have h2 : LedgerKept first.1 second.1 := by
    rw [← hsecond]
    exact insertVariant_kept _ _
  have h12 := h1.trans h2
  obtain ⟨t3, h3, h⟩ := bind_ok.mp h
  obtain ⟨acks, rfl⟩ := persistAcknowledgement_ok h3
  obtain rfl := (Prod.mk.inj (Except.ok.inj h)).1
  split
  · exact ⟨h12.closeDeals, h12.positions, h12.fills, h12.trades⟩
  · exact ⟨h12.closeDeals, h12.positions, h12.fills, h12.trades⟩

/-- A closing execution is accepted by the ledger, or leaves it and the positions as they were. -/
theorem persist_closes (hcloses : Closes event)
    (h : persist o t event source acknowledgement = .ok (t', result)) :
    LedgerKept t t' ∨ ∃ f d p v row deal, Accepts o t t' event f d p v row deal := by
  have hevent : ∀ replay, persistEvent o t event source acknowledgement replay = .ok (t', result) →
      LedgerKept t t' ∨ ∃ f d p v row deal, Accepts o t t' event f d p v row deal := by
    intro replay h
    unfold persistEvent at h
    simp only at h
    split at h
    · exact .inl (journal_kept h)
    · split at h
      · exact .inl (journal_kept h)
      · split at h
        · exact .inl (journal_kept h)
        · next hauthorized =>
          refine persistAuthorized_closes hcloses rfl ?_ h
          have hclosing := hcloses.closingOrder
          by_contra hkind
          simp only [not_or, decide_eq_true_eq] at hkind
          exact hauthorized ⟨hclosing, hkind.1, hkind.2.1, hkind.2.2⟩
  unfold persist at h
  split at h
  · exact hevent false h
  · split at h
    · exact .inl (recordVariant_kept h)
    · split at h
      · exact hevent true h
      · obtain ⟨t1, h1, h⟩ := bind_ok.mp h
        obtain ⟨rows, rfl⟩ := persistAcknowledgement_ok h1
        cases h
        exact .inl ⟨rfl, rfl, rfl, rfl⟩

/-! ### The volumes of a position -/

/-- The volume in the ledger of a position. -/
def ledgerVolume (t : Tables) (id : ℕ) : Decimal := ((t.closeDealsOf id).map (·.closedVolume)).sum

/-- Volumes are whole, and the entry volume is small enough for exact differences: the sums of an
    accepted close are the exact ones. -/
theorem closedWith_exact {n m k : ℕ} (hentry : t.entryVolume positionId = n) (hn : n < 10 ^ 39)
    (hledger : ledgerVolume t positionId = m) (hv : v = k)
    (h : 0 ≤ remainingAfter t positionId v) :
    m + k ≤ n ∧ remainingAfter t positionId v = n - (m + k) := by
  have hclosed : closedWith t positionId v = Significant.truncate Decimal.precision (m + k) := by
    rw [closedWith, Decimal.plus, ← hledger, hv, ledgerVolume]
  rw [remainingAfter, hentry, hclosed, Decimal.minus] at h ⊢
  have hsign := Significant.nonneg_of_truncate_nonneg (by decide) h
  have hsmall : m + k < 10 ^ 39 := by
    by_contra hlarge
    have hbig : ((10 ^ 39 : ℕ) : ℚ) ≤ Significant.truncate Decimal.precision (m + k) := by
      refine Significant.le_truncate (n := 10 ^ 39) (k := 0) (by decide) (by positivity)
        (by norm_num) (by decide) ?_
      exact_mod_cast not_lt.mp hlarge
    have : ((10 ^ 39 : ℕ) : ℚ) ≤ n := by linarith
    exact absurd hn (not_lt.mpr (by exact_mod_cast this))
  have hexact : Significant.truncate Decimal.precision (m + k : ℚ) = m + k :=
    Decimal.exact_nat (m + k) 0 (by push_cast; ring) (by omega)
  rw [hexact] at h hsign ⊢
  have hle : m + k ≤ n := by
    have : ((m + k : ℕ) : ℚ) ≤ n := by
      push_cast
      linarith
    exact_mod_cast this
  refine ⟨hle, Decimal.exact_nat (n - (m + k)) 0 ?_ (by omega)⟩
  push_cast [hle]
  ring

/-! ### Runs of closing executions -/

/-- A delivery of a closing execution, whose closed volume is whole as the normalizer ensures. -/
structure Closing (c : Delivery) : Prop where
  closes : Closes c.event
  whole : ∀ d v, c.event.closeDetail = some d → d.closedVolume = some v → ∃ k : ℕ, v = k

/-- The schema's uniqueness of position rows. -/
structure PositionsKeyed (t : Tables) : Prop where
  brokerPosition : t.positions.Pairwise fun p q =>
    ¬ (p.accountId = q.accountId ∧ p.brokerPositionId.isSome ∧
      p.brokerPositionId = q.brokerPositionId)
  id : t.positions.Pairwise fun p q => p.id ≠ q.id

theorem eq_of_pairwise {α : Type} {R : α → α → Prop} (hsymm : ∀ a b, R a b → R b a) {l : List α}
    (hl : l.Pairwise R) {a b : α} (ha : a ∈ l) (hb : b ∈ l) (hab : ¬ R a b) : a = b := by
  have : Std.Symm R := ⟨hsymm⟩
  by_contra hne
  exact hab (hl.forall ha hb hne)

theorem PositionsKeyed.same_broker {q q' : PositionRow} (h : PositionsKeyed t)
    (hq : q ∈ t.positions) (hq' : q' ∈ t.positions) {account id : String}
    (hqSame : q.accountId = account ∧ q.brokerPositionId = some id)
    (hqSame' : q'.accountId = account ∧ q'.brokerPositionId = some id) : q = q' := by
  refine eq_of_pairwise ?_ h.brokerPosition hq hq' ?_
  · rintro a b hab ⟨haccount, hsome, hbroker⟩
    exact hab ⟨haccount.symm, hbroker ▸ hsome, hbroker.symm⟩
  · rw [not_not]
    exact ⟨hqSame.1.trans hqSame'.1.symm, by simp [hqSame.2], hqSame.2.trans hqSame'.2.symm⟩

theorem PositionsKeyed.same_id {q q' : PositionRow} (h : PositionsKeyed t)
    (hq : q ∈ t.positions) (hq' : q' ∈ t.positions) (hid : q.id = q'.id) : q = q' :=
  eq_of_pairwise (fun _ _ hab => Ne.symm hab) h.id hq hq' (by simpa using hid)

theorem PositionsKeyed.update {same : PositionRow → Bool} {e : PositionRow} (h : PositionsKeyed t)
    (ht : t'.positions = updateWhere same (·.merge e) t.positions) : PositionsKeyed t' := by
  constructor
  · rw [ht]
    refine List.pairwise_map.mpr (h.brokerPosition.imp ?_)
    intro q q' hne
    split <;> split <;> exact hne
  · rw [ht]
    refine List.pairwise_map.mpr (h.id.imp ?_)
    intro q q' hne
    split <;> split <;> exact hne

/-- The amounts of a close have at most ten decimal places. -/
structure CloseDealRow.InPlaces (r : CloseDealRow) : Prop where
  grossProfit : Decimal.InPlaces r.grossProfit
  commission : Decimal.InPlaces r.commission
  swap : Decimal.InPlaces r.swap
  conversionFee : Decimal.InPlaces r.conversionFee

theorem Entered.inPlaces {deal : CloseDealRow} {id : ℕ} (h : Entered deal id f d v) :
    deal.InPlaces := by
  obtain ⟨-, -, -, hgross, hcommission, hswap, hfee⟩ := h
  constructor
  · exact hgross ▸ Decimal.numeric_inPlaces _
  · exact hcommission ▸ Decimal.numeric_inPlaces _
  · exact hswap ▸ Decimal.numeric_inPlaces _
  · exact hfee ▸ Decimal.numeric_inPlaces _

/-- What the ledger of a position amounts to, for its entry volume. -/
structure Accounted (t : Tables) (id n : ℕ) : Prop where
  keyed : PositionsKeyed t
  entry : t.entryVolume id = n
  ledger : ∃ m : ℕ, ledgerVolume t id = m ∧ m ≤ n
  nodup : ((t.closeDealsOf id).map (·.brokerDealId)).Nodup
  inPlaces : ∀ r ∈ t.closeDealsOf id, r.InPlaces

/-- The row of the position says what is left of it. -/
def Settled (t : Tables) (id n : ℕ) : Prop :=
  t.closeDealsOf id ≠ [] → ∀ q ∈ t.positions, q.id = id →
    (q.state = .closed ↔ ledgerVolume t id = n) ∧ q.volume = n - ledgerVolume t id

variable {row : PositionRow} {deal : CloseDealRow} {id n : ℕ} {c : Delivery}

theorem LedgerKept.accounted (h : LedgerKept t t') (ht : Accounted t id n) :
    Accounted t' id n := by
  obtain ⟨⟨hbroker, hid⟩, hentry, hledger, hnodup, hplaces⟩ := ht
  refine ⟨⟨h.positions ▸ hbroker, h.positions ▸ hid⟩, ?_, ?_, ?_, ?_⟩
  · rw [← hentry, Tables.entryVolume, h.fills, Tables.entryVolume]
  · rw [ledgerVolume, Tables.closeDealsOf, h.closeDeals]
    exact hledger
  · rw [Tables.closeDealsOf, h.closeDeals]
    exact hnodup
  · rw [Tables.closeDealsOf, h.closeDeals]
    exact hplaces

theorem LedgerKept.settled (h : LedgerKept t t') (ht : Settled t id n) : Settled t' id n := by
  rw [Settled, ledgerVolume, Tables.closeDealsOf, h.closeDeals, h.positions]
  exact ht

/-- The ledgers after an accepted close. -/
theorem Accepts.closeDealsOf (h : Accepts o t t' event f d p v row deal) (id : ℕ) :
    t'.closeDealsOf id = t.closeDealsOf id ++ if row.id = id then [deal] else [] := by
  rw [Tables.closeDealsOf, h.closeDeals, List.filter_append, Tables.closeDealsOf]
  congr 1
  rw [List.filter_singleton, h.entered.positionId]
  split <;> simp_all

/-- One accepted close of the position itself. -/
theorem Accepts.exact (h : Accepts o t t' event f d p v row deal) (ht : Accounted t row.id n)
    (hn : n < 10 ^ 39) (hwhole : ∃ k : ℕ, v = k) :
    ∃ m k : ℕ, ledgerVolume t row.id = m ∧ ledgerVolume t' row.id = (m + k : ℕ) ∧ m + k ≤ n ∧
      remainingAfter t row.id v = n - (m + k : ℕ) := by
  obtain ⟨m, hm, -⟩ := ht.ledger
  obtain ⟨k, rfl⟩ := hwhole
  obtain ⟨hle, hremaining⟩ := closedWith_exact ht.entry hn hm rfl h.remaining_nonneg
  have hnumeric : Decimal.numeric (k : ℚ) = k :=
    Decimal.numeric_eq ⟨k * 10 ^ 10, by push_cast; ring⟩
  refine ⟨m, k, hm, ?_, hle, by rw [hremaining]; push_cast; ring⟩
  rw [ledgerVolume, h.closeDealsOf, if_pos rfl, List.map_append, List.sum_append, ← ledgerVolume, hm]
  simp [h.entered.closedVolume, hnumeric]

theorem Accepts.accounted (h : Accepts o t t' event f d p v row deal) (ht : Accounted t id n)
    (hn : n < 10 ^ 39) (hwhole : ∃ k : ℕ, v = k) : Accounted t' id n := by
  obtain ⟨e, -, -, -, hpositions⟩ := h.positions
  refine ⟨ht.keyed.update hpositions, (h.entryVolume id).trans ht.entry, ?_, ?_, ?_⟩
  · rcases eq_or_ne row.id id with rfl | hne
    · obtain ⟨m, k, -, hledger, hle, -⟩ := h.exact ht hn hwhole
      exact ⟨m + k, hledger, hle⟩
    · rw [ledgerVolume, h.closeDealsOf, if_neg hne, List.append_nil]
      exact ht.ledger
  · rw [h.closeDealsOf]
    split
    · next heq =>
      rw [List.map_append, List.nodup_append]
      refine ⟨ht.nodup, by simp, ?_⟩
      rintro x hx y hy rfl
      obtain ⟨r, hr, rfl⟩ := List.mem_map.mp hx
      have hfill : r.brokerDealId = f.brokerFillId := by
        simpa [h.entered.brokerDealId] using hy
      exact h.uncounted r (heq ▸ hr) hfill
    · rw [List.append_nil]
      exact ht.nodup
  · intro r hr
    rw [h.closeDealsOf, List.mem_append] at hr
    rcases hr with hr | hr
    · exact ht.inPlaces r hr
    · split at hr
      · rw [List.mem_singleton.mp hr]
        exact h.entered.inPlaces
      · cases hr

/-- An accepted close is not older than the stored row of its position. -/
def Fresh (o : PostgresDemoExecutionStoreOptions) (t : Tables) (c : Delivery) : Prop :=
  (deliver o t c).closeDeals ≠ t.closeDeals → ∀ p ∈ c.event.position, ∀ q ∈ t.positions,
    q.accountId = o.accountId → q.brokerPositionId = some p.brokerPositionId →
      q.updatedAt ≤ p.updatedAt

theorem Accepts.settled (h : Accepts o t t' event f d p v row deal) (ht : Accounted t id n)
    (hn : n < 10 ^ 39) (hwhole : ∃ k : ℕ, v = k) (hsettled : Settled t id n)
    (hfresh : row.updatedAt ≤ p.updatedAt) : Settled t' id n := by
  obtain ⟨e, hstate, hvolume, htime, hpositions⟩ := h.positions
  intro hledger q' hq' hid
  rw [hpositions] at hq'
  obtain ⟨q, hq, hmerged⟩ := mem_updateWhere.mp hq'
  split at hmerged
  · next hsame =>
    obtain rfl : row = q := ht.keyed.same_broker h.mem hq ⟨h.account, h.brokerPosition⟩
      (by simpa using hsame)
    subst hmerged
    obtain rfl : row.id = id := hid
    obtain ⟨m, k, -, hafter, hle, hremaining⟩ := h.exact ht hn hwhole
    have hle' : row.updatedAt ≤ e.updatedAt := htime ▸ hfresh
    simp only [PositionRow.merge, if_pos hle', hstate, hvolume, h.state, h.volume, hremaining,
      hafter, and_true]
    have hzero : (n : ℚ) - (m + k : ℕ) = 0 ↔ ((m + k : ℕ) : ℚ) = n := by
      rw [sub_eq_zero, eq_comm]
    by_cases hall : ((m + k : ℕ) : ℚ) = n
    · rw [if_pos (hzero.mpr hall)]
      exact iff_of_true rfl hall
    · rw [if_neg (hzero.not.mpr hall)]
      exact iff_of_false (by decide) hall
  · next hother =>
    subst hmerged
    have hne : row.id ≠ id := by
      intro heq
      obtain rfl := ht.keyed.same_id h.mem hq (heq.trans hid.symm)
      exact hother (by simp [h.account, h.brokerPosition])
    rw [h.closeDealsOf, if_neg hne, List.append_nil] at hledger
    have hsame : ledgerVolume t' id = ledgerVolume t id := by
      rw [ledgerVolume, h.closeDealsOf, if_neg hne, List.append_nil, ledgerVolume]
    rw [hsame]
    exact hsettled hledger q hq hid

theorem deliver_cases (o : PostgresDemoExecutionStoreOptions) (t : Tables) (c : Delivery)
    (hc : Closes c.event) : LedgerKept t (deliver o t c) ∨
      ∃ f d p v row deal, Accepts o t (deliver o t c) c.event f d p v row deal := by
  rw [deliver]
  split
  · next t' result h => exact persist_closes hc h
  · exact .inl (LedgerKept.refl t)

theorem Closing.whole_of (hc : Closing c) (h : Accepts o t t' c.event f d p v row deal)
    (hd : c.event.closeDetail = some d) : ∃ k : ℕ, v = k :=
  hc.whole d v hd h.closedVolume

/-- One closing execution, accepted or not. -/
theorem Closing.step (hc : Closing c) (ht : Accounted t id n) (hn : n < 10 ^ 39) :
    Accounted (deliver o t c) id n ∧
      (Settled t id n → Fresh o t c → Settled (deliver o t c) id n) := by
  rcases deliver_cases o t c hc.closes with hkept | ⟨f, d, p, v, row, deal, haccepts⟩
  · exact ⟨hkept.accounted ht, fun hsettled _ => hkept.settled hsettled⟩
  · have hwhole := hc.whole_of haccepts haccepts.closeDetail
    refine ⟨haccepts.accounted ht hn hwhole, ?_⟩
    intro hsettled hfresh
    refine haccepts.settled ht hn hwhole hsettled ?_
    refine hfresh ?_ p haccepts.position row haccepts.mem haccepts.account haccepts.brokerPosition
    rw [haccepts.closeDeals]
    simp

theorem closing_run {cs : List Delivery} (hcs : ∀ c ∈ cs, Closing c) (ht : Accounted t id n)
    (hn : n < 10 ^ 39) (hrun : run (step o) t cs = some t') :
    Accounted t' id n ∧ (Settled t id n → Guarded (step o) (Fresh o) t cs → Settled t' id n) := by
  induction cs generalizing t with
  | nil =>
    cases hrun
    exact ⟨ht, fun hsettled _ => hsettled⟩
  | cons c cs ih =>
    obtain ⟨u, hu, hrest⟩ := run_cons.mp hrun
    cases hu
    obtain ⟨haccounted, hsettled⟩ := (hcs c (by simp)).step (o := o) ht hn
    obtain ⟨hend, hendSettled⟩ := ih (fun c' hc' => hcs c' (by simp [hc'])) haccounted hrest
    refine ⟨hend, ?_⟩
    rintro hs ⟨hfresh, hlater⟩
    exact hendSettled (hsettled hs hfresh) (hlater _ rfl)

/-! ### The amounts of a position -/

def CloseDealRow.magnitude (r : CloseDealRow) : ℚ :=
  |r.grossProfit| + |r.commission| + |r.swap| + |r.conversionFee|

/-- The amounts of the ledger stay below `10 ^ 30` together. -/
def WithinDigits (deals : List CloseDealRow) : Prop := (deals.map (·.magnitude)).sum < 10 ^ 30

/-- `grossProfit + commission + swap + pnlConversionFee`. -/
def CloseDealRow.net (r : CloseDealRow) : ℚ :=
  r.grossProfit + r.commission + r.swap + r.conversionFee

/-- An aggregate carries the sums of the deals. -/
structure Aggregates (aggregate : DemoExecutionCloseDetail) (deals : List CloseDealRow) : Prop where
  grossProfit : aggregate.grossProfit = (deals.map (·.grossProfit)).sum
  commission : aggregate.commission = (deals.map (·.commission)).sum
  swap : aggregate.swap = (deals.map (·.swap)).sum
  pnlConversionFee : aggregate.pnlConversionFee = (deals.map (·.conversionFee)).sum

/-- The amounts that an event reports have at most ten decimal places. -/
structure DetailInPlaces (d : DemoExecutionCloseDetail) : Prop where
  grossProfit : Decimal.InPlaces d.grossProfit
  commission : Decimal.InPlaces d.commission
  swap : Decimal.InPlaces d.swap
  pnlConversionFee : Decimal.InPlaces d.pnlConversionFee

theorem abs_sum_le {deals : List CloseDealRow} {amount : CloseDealRow → ℚ}
    (h : ∀ r, |amount r| ≤ r.magnitude) :
    |(deals.map amount).sum| ≤ (deals.map (·.magnitude)).sum := by
  induction deals with
  | nil => simp
  | cons r deals ih =>
    rw [List.map_cons, List.sum_cons, List.map_cons, List.sum_cons]
    exact (abs_add_le _ _).trans (add_le_add (h r) ih)

/-- One amount of the aggregate. -/
theorem plus_amount {deals : List CloseDealRow} {deal : CloseDealRow} {amount : CloseDealRow → ℚ}
    {a : Decimal} (hplaces : ∀ r ∈ deals, Decimal.InPlaces (amount r)) (ha : Decimal.InPlaces a)
    (hdeal : amount deal = Decimal.numeric a) (hle : ∀ r, |amount r| ≤ r.magnitude)
    (hwithin : WithinDigits (deals ++ [deal])) :
    Decimal.plus (deals.map amount).sum a = ((deals ++ [deal]).map amount).sum := by
  have hsum : ((deals ++ [deal]).map amount).sum = (deals.map amount).sum + a := by
    rw [List.map_append, List.sum_append, List.map_singleton, List.sum_singleton, hdeal,
      Decimal.numeric_eq ha]
  rw [hsum]
  refine Decimal.InPlaces.plus_eq (Decimal.InPlaces.sum ?_) ha ?_
  · intro b hb
    obtain ⟨r, hr, rfl⟩ := List.mem_map.mp hb
    exact hplaces r hr
  · rw [← hsum]
    exact (abs_sum_le hle).trans_lt hwithin

theorem magnitude_bounds (r : CloseDealRow) : |r.grossProfit| ≤ r.magnitude ∧
    |r.commission| ≤ r.magnitude ∧ |r.swap| ≤ r.magnitude ∧ |r.conversionFee| ≤ r.magnitude := by
  have hgross := abs_nonneg r.grossProfit
  have hcommission := abs_nonneg r.commission
  have hswap := abs_nonneg r.swap
  have hfee := abs_nonneg r.conversionFee
  refine ⟨?_, ?_, ?_, ?_⟩ <;> rw [CloseDealRow.magnitude] <;> linarith

theorem aggregateClose_sums {deals : List CloseDealRow} {deal : CloseDealRow} {closed : Decimal}
    (hplaces : ∀ r ∈ deals, r.InPlaces) (hd : DetailInPlaces d) (hdeal : Entered deal positionId f d v)
    (hwithin : WithinDigits (deals ++ [deal])) :
    Aggregates (aggregateClose deals d closed) (deals ++ [deal]) := by
  constructor
  · exact plus_amount (fun r hr => (hplaces r hr).grossProfit) hd.grossProfit hdeal.grossProfit
      (fun r => (magnitude_bounds r).1) hwithin
  · exact plus_amount (fun r hr => (hplaces r hr).commission) hd.commission hdeal.commission
      (fun r => (magnitude_bounds r).2.1) hwithin
  · exact plus_amount (fun r hr => (hplaces r hr).swap) hd.swap hdeal.swap
      (fun r => (magnitude_bounds r).2.2.1) hwithin
  · exact plus_amount (fun r hr => (hplaces r hr).conversionFee) hd.pnlConversionFee
      hdeal.conversionFee (fun r => (magnitude_bounds r).2.2.2) hwithin

/-- The fees of a deal. -/
def CloseDealRow.fees (r : CloseDealRow) : ℚ := r.swap + r.commission + r.conversionFee

theorem CloseDealRow.partial_le (r : CloseDealRow) : |r.swap + r.commission| ≤ r.magnitude ∧
    |r.fees| ≤ r.magnitude ∧ |r.net| ≤ r.magnitude := by
  have hgross := abs_nonneg r.grossProfit
  have hfee := abs_nonneg r.conversionFee
  have htwo := abs_add_le r.swap r.commission
  have hthree := abs_add_le (r.swap + r.commission) r.conversionFee
  have hfour := abs_add_le r.grossProfit r.fees
  have hnet : r.net = r.grossProfit + r.fees := by
    rw [CloseDealRow.net, CloseDealRow.fees]
    ring
  rw [← CloseDealRow.fees] at hthree
  refine ⟨?_, ?_, ?_⟩
  · rw [CloseDealRow.magnitude]
    linarith
  · rw [CloseDealRow.magnitude]
    linarith
  · rw [hnet, CloseDealRow.magnitude]
    linarith

theorem InPlaces_sum {deals : List CloseDealRow} {amount : CloseDealRow → ℚ}
    (h : ∀ r ∈ deals, Decimal.InPlaces (amount r)) : Decimal.InPlaces (deals.map amount).sum := by
  refine Decimal.InPlaces.sum ?_
  intro a ha
  obtain ⟨r, hr, rfl⟩ := List.mem_map.mp ha
  exact h r hr

/-- The trade of a close carries the sums of its deals. -/
theorem realized {deals : List CloseDealRow} {trade : TradeRow}
    {aggregate : DemoExecutionCloseDetail} (haggregate : Aggregates aggregate deals)
    (hplaces : ∀ r ∈ deals, r.InPlaces) (hwithin : WithinDigits deals)
    (h : trade.Realizes aggregate) : trade.fees = (deals.map (·.fees)).sum ∧
      trade.realizedPnl = (deals.map (·.net)).sum := by
  obtain ⟨hfees, hpnl⟩ := h
  have hgross := InPlaces_sum fun r hr => (hplaces r hr).grossProfit
  have hcommission := InPlaces_sum fun r hr => (hplaces r hr).commission
  have hswap := InPlaces_sum fun r hr => (hplaces r hr).swap
  have hfee := InPlaces_sum fun r hr => (hplaces r hr).conversionFee
  have htwo : (deals.map (·.swap)).sum + (deals.map (·.commission)).sum =
      (deals.map fun r => r.swap + r.commission).sum := List.sum_map_add.symm
  have hthree : (deals.map fun r => r.swap + r.commission).sum +
      (deals.map (·.conversionFee)).sum = (deals.map (·.fees)).sum := List.sum_map_add.symm
  have hfour : (deals.map (·.grossProfit)).sum + (deals.map (·.fees)).sum =
      (deals.map (·.net)).sum := by
    rw [← List.sum_map_add]
    congr 2
    funext r
    rw [CloseDealRow.fees, CloseDealRow.net]
    ring
  have hbelow : ∀ amount : CloseDealRow → ℚ, (∀ r, |amount r| ≤ r.magnitude) →
      |(deals.map amount).sum| < 10 ^ 30 := fun amount hle => (abs_sum_le hle).trans_lt hwithin
  have hfees' : trade.fees = (deals.map (·.fees)).sum := by
    rw [hfees, haggregate.swap, haggregate.commission, haggregate.pnlConversionFee,
      Decimal.InPlaces.plus_eq hswap hcommission, htwo, Decimal.InPlaces.plus_eq _ hfee, hthree]
    · rw [hthree]
      exact hbelow _ fun r => r.partial_le.2.1
    · exact htwo ▸ hswap.add hcommission
    · rw [htwo]
      exact hbelow _ fun r => r.partial_le.1
  refine ⟨hfees', ?_⟩
  rw [hpnl, haggregate.grossProfit, hfees', Decimal.InPlaces.plus_eq hgross, hfour]
  · exact hthree ▸ (htwo ▸ hswap.add hcommission).add hfee
  · rw [hfour]
    exact hbelow _ fun r => r.partial_le.2.2

/-! ### The ledger over a run -/

/-- A position whose closing has not begun, with an entry volume `n`. -/
structure Opened (t : Tables) (id n : ℕ) : Prop where
  keyed : PositionsKeyed t
  entry : t.entryVolume id = n
  bound : n < 10 ^ 39
  unclosed : t.closeDealsOf id = []

theorem Opened.accounted (h : Opened t id n) : Accounted t id n := by
  refine ⟨h.keyed, h.entry, ⟨0, ?_, Nat.zero_le n⟩, ?_, ?_⟩
  · simp [ledgerVolume, h.unclosed]
  · simp [h.unclosed]
  · simp [h.unclosed]

theorem Opened.settled (h : Opened t id n) : Settled t id n := fun hne => absurd h.unclosed hne

/-- The aggregate of one more close of the position. -/
theorem Accounted.aggregates {external : Bool} {aggregate : DemoExecutionCloseDetail}
    (ht : Accounted t id n) (h : recordPositionClose o t event external = .ok (t', aggregate))
    (hchanged : t'.closeDealsOf id ≠ t.closeDealsOf id)
    (hd : ∀ d, event.closeDetail = some d → DetailInPlaces d)
    (hwithin : WithinDigits (t'.closeDealsOf id)) : Aggregates aggregate (t'.closeDealsOf id) := by
  obtain ⟨f, d, p, v, row, deal, hproved, hentered, -, rfl, rfl⟩ := recordPositionClose_ok h
  have hnew : Tables.closeDealsOf { t with closeDeals := t.closeDeals ++ [deal] } id =
      t.closeDealsOf id ++ if row.id = id then [deal] else [] := by
    rw [Tables.closeDealsOf, List.filter_append, Tables.closeDealsOf]
    congr 1
    rw [List.filter_singleton, hentered.positionId]
    split <;> simp_all
  rw [hnew] at hchanged hwithin ⊢
  split at hchanged
  · next hid =>
    subst hid
    rw [if_pos rfl] at hwithin ⊢
    exact aggregateClose_sums ht.inPlaces (hd d (closeEvidence_ok hproved.evidence).2.1) hentered
      hwithin
  · exact absurd (List.append_nil _) hchanged

/-- The trade that one more close of the position makes. -/
theorem Accounted.trade {trade : TradeRow} (ht : Accounted t id n) (hc : Closing c)
    (hchanged : (deliver o t c).closeDealsOf id ≠ t.closeDealsOf id)
    (hd : ∀ d, c.event.closeDetail = some d → DetailInPlaces d)
    (hwithin : WithinDigits ((deliver o t c).closeDealsOf id))
    (htrade : (deliver o t c).trades = t.trades ++ [trade]) :
    trade.fees = (((deliver o t c).closeDealsOf id).map (·.fees)).sum ∧
      trade.realizedPnl = (((deliver o t c).closeDealsOf id).map (·.net)).sum := by
  rcases deliver_cases o t c hc.closes with hkept | ⟨f, d, p, v, row, deal, haccepts⟩
  · refine absurd ?_ hchanged
    rw [Tables.closeDealsOf, hkept.closeDeals, Tables.closeDealsOf]
  · have hnew := haccepts.closeDealsOf id
    rw [hnew] at hchanged hwithin ⊢
    split at hchanged
    · next hid =>
      subst hid
      rw [if_pos rfl] at hwithin ⊢
      have hplaces : ∀ r ∈ t.closeDealsOf row.id ++ [deal], r.InPlaces := by
        intro r hr
        rcases List.mem_append.mp hr with hr | hr
        · exact ht.inPlaces r hr
        · rw [List.mem_singleton.mp hr]
          exact haccepts.entered.inPlaces
      have haggregate : Aggregates (aggregateClose (t.closeDealsOf row.id) d
          (closedWith t row.id v)) (t.closeDealsOf row.id ++ [deal]) :=
        aggregateClose_sums ht.inPlaces (hd d haccepts.closeDetail) haccepts.entered hwithin
      rcases haccepts.trades with hsame | ⟨trade', htrade', hrealizes⟩
      · rw [hsame] at htrade
        have := congrArg List.length htrade
        simp at this
      · obtain rfl : trade' = trade := by
          rw [htrade'] at htrade
          simpa using htrade
        exact realized haggregate hplaces hwithin hrealizes
    · exact absurd (List.append_nil _) hchanged

namespace Sample

/-- A deal that closes 300 and leaves the rest, as of the given time. -/
def partialClose (deal : String) (rest : Decimal) (time : ℕ) : DemoExecutionEvent :=
  { close deal 1 with
    position := some ⟨"9", .buy, if rest = 0 then .closed else .opened, rest, some 10, none, none,
      some 2, if rest = 0 then some 5 else none, time⟩
    fill := some ⟨deal, "7", "9", 11, 300, 0, 5⟩
    closeDetail := some ⟨10, 1, 0, 0, 0, some 300⟩ }

/-- The store after the entry fill of 1000. -/
def opened : Tables := deliver options store { event := entry }

def closes (events : List DemoExecutionEvent) : List Delivery := events.map fun e => { event := e }

/-- The second close reports a position as of a time before the first. -/
def staleCloses : List Delivery := closes [partialClose "2" 700 8, partialClose "3" 400 6]

def freshCloses : List Delivery := closes [partialClose "2" 700 6, partialClose "3" 400 8]

theorem opened_opened : Opened opened 3 1000 where
  keyed := ⟨by decide +kernel, by decide +kernel⟩
  entry := by decide +kernel
  bound := by norm_num
  unclosed := by decide +kernel

theorem partialClose_closing {deal : String} {rest : Decimal} {time : ℕ} :
    Closing { event := partialClose deal rest time } := by
  refine ⟨⟨rfl, rfl, rfl⟩, ?_⟩
  rintro d v ⟨⟩ ⟨⟩
  exact ⟨300, by norm_num⟩

end Sample

theorem run_step (t : Tables) (cs : List Delivery) :
    run (step o) t cs = some (deliverAll o t cs) := by
  induction cs generalizing t with
  | nil => rfl
  | cons c cs ih => exact ih (deliver o t c)

/-- A test that implies freshness. -/
def freshTest (o : PostgresDemoExecutionStoreOptions) (t : Tables) (c : Delivery) : Bool :=
  c.event.position.all fun p => t.positions.all fun q =>
    decide (¬ (q.accountId = o.accountId ∧ q.brokerPositionId = some p.brokerPositionId) ∨
      q.updatedAt ≤ p.updatedAt)

theorem fresh_of_test (h : freshTest o t c = true) : Fresh o t c := by
  intro _ p hp q hq haccount hbroker
  rw [freshTest, Option.mem_def.mp hp, Option.all_some, List.all_eq_true] at h
  rcases of_decide_eq_true (h q hq) with hother | hle
  · exact absurd ⟨haccount, hbroker⟩ hother
  · exact hle

end ScalpingBot.Store
