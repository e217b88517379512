import EnboxDwn.PushPage

/-! What coverage removes. A delivery row goes as covered only when a current write of its own record
was handled at its position or later, by its own link in the same lifetime; page and store agree on
which rows those are. -/
namespace EnboxDwn.Agent
open Level

/-- The same obligation, whatever its attempts have come to. -/
def SyncNextDeliveryObligation.SameObligation (a b : SyncNextDeliveryObligation) : Prop :=
  a.toSyncNextLinkIdentity = b.toSyncNextLinkIdentity ∧
    a.toSyncNextSourceReceipt = b.toSyncNextSourceReceipt ∧ a.writeRecordId = b.writeRecordId ∧
    a.wasLatestBaseState = b.wasLatestBaseState

theorem SyncNextDeliveryObligation.SameObligation.refl (row : SyncNextDeliveryObligation) :
    row.SameObligation row := ⟨rfl, rfl, rfl, rfl⟩

namespace SyncNextProgressStore

/-! ## Dispositions of a valid page -/

theorem assertAhead_eq_ok {source : ProgressToken} {previous : Option ProgressToken}
    {direction : Direction} (h : assertAhead source previous direction = .ok ()) :
    ∀ token ∈ previous, token.Before source := by
  intro token htoken
  cases htoken
  obtain ⟨n, hn, h⟩ := bind_eq_ok h
  split at h
  · cases h
  · next hpositive => exact compareSyncNextPosition_le hn hpositive

theorem validatePageReceipts_ahead {checkpoint : ProgressToken} {previous : Option ProgressToken}
    {direction : Direction} {receipts : List SyncNextSourceReceipt} {page page' : List ReceiptIdentity}
    {positions : List String}
    (h : validatePageReceipts checkpoint previous direction receipts page positions = .ok page') :
    ∀ receipt ∈ receipts, ∀ token ∈ previous, token.Before receipt.source := by
  induction receipts generalizing page positions with
  | nil => simp
  | cons receipt receipts ih =>
    obtain ⟨_, -, h⟩ := bind_eq_ok h
    obtain ⟨_, hahead, h⟩ := bind_eq_ok h
    dsimp only at h
    split at h
    · cases h
    · split at h
      · cases h
      · intro r hr
        obtain rfl | hr := List.mem_cons.mp hr
        · exact assertAhead_eq_ok hahead
        · exact ih h r hr

/-- What is disposed of is of the page: ahead of the checkpoint before it, and not beyond its own. -/
theorem disposed_of_validatePageCommit {checkpoint : ProgressToken}
    {pageReceipts pending settled : List SyncNextSourceReceipt} {previous : Option ProgressToken}
    {direction : Direction}
    (h : validatePageCommit checkpoint pageReceipts pending settled previous direction = .ok ())
    {receipt : SyncNextSourceReceipt} (hreceipt : receipt ∈ pending ++ settled) :
    receipt.source.AtOrBefore checkpoint ∧ ∀ token ∈ previous, token.Before receipt.source := by
  obtain ⟨_, -, h⟩ := bind_eq_ok h
  obtain ⟨page, hpage, h⟩ := bind_eq_ok h
  obtain ⟨seen, hseen, -⟩ := bind_eq_ok h
  have hahead := validatePageReceipts_ahead hpage
  obtain ⟨rfl, hbehind⟩ := validatePageReceipts_eq_ok hpage
  obtain ⟨-, -, hsub⟩ := validatePageDispositions_eq_ok hseen List.nodup_nil
  obtain ⟨r, hr, heq⟩ := List.mem_map.mp (hsub receipt hreceipt)
  have hsame := receiptIdentity_eq_iff.mp heq
  refine ⟨hsame.atOrBefore (hbehind r hr), fun token htoken => ?_⟩
  obtain ⟨x, y, hx, hy, hlt⟩ := hahead r hr token htoken
  exact ⟨x, y, hx, hsame.2.2 ▸ hy, hlt⟩

variable [R : Runtime]

/-! ## Rows behind the checkpoint -/

/-- The link of a delivery row is there, and has pushed beyond the row. -/
def Behind (s : Progress) : Prop :=
  ∀ k row, get s.delivery k = some row → ∃ key link token,
    syncNextLinkKey row.toSyncNextLinkIdentity = .ok key ∧ get s.links key = some link ∧
      link.pushCheckpoint = some token ∧ row.source.AtOrBefore token

section Step
variable {options : Options} {s s' : Progress} {now : Int} {call : Call}

section Pushed
variable {queriedLink link : SyncNextLink} {commit : SyncNextPushPageCommit} {key linkKey : String}
  {handledWrites : HandledWrites} {existing covered : List SyncNextDeliveryObligation}
  {uncovered : List SyncNextDeliveryInput} {k : String} {row : SyncNextDeliveryObligation}

section PushedRow
variable (hkept : Kept s) (hbehind : Behind s)
    (hc : PushCommitted now queriedLink commit s s' key linkKey link handledWrites existing covered
      uncovered) (hrow : get s.delivery k = some row)
include hkept hbehind hc hrow

/-- A page is ahead of the rows that are there: it neither settles nor rewrites one of them. -/
theorem rowKey_ne_of_page {receipt : SyncNextSourceReceipt}
    (hreceipt : receipt ∈ commit.delivery.map (·.toSyncNextSourceReceipt) ++ commit.settled) :
    k ≠ rowKey linkKey receipt := by
  intro heq
  obtain rfl := hkept.linkKey_eq hc.stored hc.linkKey_eq
  obtain ⟨key', hkey', rfl⟩ := hkept.delivery k row hrow
  obtain ⟨rfl, hsame⟩ := rowKey_inj hkey' hc.linkKey_eq heq
  obtain ⟨key'', link', token, hkey'', hlink', htoken, -, x, y, hx, hy, hle⟩ :=
    hbehind _ row hrow
  obtain rfl : key' = key'' := Except.ok.inj (hkey'.symm.trans hkey'')
  rw [hc.stored, Option.some.injEq] at hlink'
  subst hlink'
  obtain ⟨y', x', hy', hx', hlt⟩ :=
    (disposed_of_validatePageCommit hc.valid hreceipt).2 token htoken
  rw [hy, Option.some.injEq] at hy'
  rw [← hsame.2.2, hx, Option.some.injEq] at hx'
  omega

theorem pushed_row :
    get s'.delivery k = some row ∨ get s'.delivery k = none ∧
      syncNextLinkKey row.toSyncNextLinkIdentity = .ok key ∧
      ∃ handled ∈ commit.handledWrites, row.writeRecordId = some handled.recordId ∧
        row.source.AtOrBefore handled.receipt.source := by
  have hnot : ∀ receipt ∈ commit.delivery.map (·.toSyncNextSourceReceipt) ++ commit.settled,
      k ≠ rowKey linkKey receipt := fun receipt => rowKey_ne_of_page hkept hbehind hc hrow
  have hsettled : k ∉ commit.settled.map (rowKey linkKey) := by
    intro hmem
    obtain ⟨receipt, hreceipt, heq⟩ := List.mem_map.mp hmem
    exact hnot receipt (List.mem_append_right _ hreceipt) heq.symm
  have huncovered : ∀ input ∈ uncovered, k ≠ rowKey linkKey input.toSyncNextSourceReceipt := by
    intro input hinput
    have hmem := ((mem_filterThrowing hc.uncovered_eq).mp hinput).1
    exact hnot _ (List.mem_append_left _ (List.mem_map_of_mem hmem))
  have hget : get s'.delivery k =
      if k ∈ covered.map fun e => rowKey linkKey e.toSyncNextSourceReceipt then none else some row := by
    rw [hc.delivery, batch_append, batch_append, get_batch_del, if_neg hsettled]
    obtain ⟨-, hput⟩ | ⟨input, hinput, heq, -⟩ := get_batch_put
      (fun input : SyncNextDeliveryInput => rowKey linkKey input.toSyncNextSourceReceipt)
      (createDelivery link (R.isoString now)) uncovered
      (batch (covered.map fun e => .del (rowKey linkKey e.toSyncNextSourceReceipt)) s.delivery) k
    · rw [hput, get_batch_del, hrow]
    · exact absurd heq.symm (huncovered input hinput)
  split at hget
  · next hcovered =>
    obtain rfl := hkept.linkKey_eq hc.stored hc.linkKey_eq
    obtain ⟨e, he, heq⟩ := List.mem_map.mp hcovered
    obtain ⟨hexisting, htrue⟩ := (mem_filterThrowing hc.covered_eq).mp he
    rw [hc.existing_eq] at hexisting
    have hget' := hkept.get_of_mem_delivery hc.linkKey_eq hexisting
    rw [heq, hrow, Option.some.injEq] at hget'
    subst hget'
    obtain ⟨key', hkey', hk⟩ := hkept.delivery k row hrow
    rw [← heq] at hk
    obtain ⟨rfl, -⟩ := rowKey_inj hc.linkKey_eq hkey' hk
    exact Or.inr ⟨hget, hkey', deliveryIsCovered_eq_true hc.handled_eq htrue⟩
  · exact Or.inl hget

end PushedRow

theorem row_of_pushed (hkept : Kept s)
    (hc : PushCommitted now queriedLink commit s s' key linkKey link handledWrites existing covered
      uncovered) (hrow : get s'.delivery k = some row) :
    get s.delivery k = some row ∨ ∃ input ∈ commit.delivery,
      k = rowKey key input.toSyncNextSourceReceipt ∧
      row = createDelivery link (R.isoString now) input := by
  obtain rfl := hkept.linkKey_eq hc.stored hc.linkKey_eq
  rw [hc.delivery, batch_append, batch_append, get_batch_del] at hrow
  split at hrow
  · cases hrow
  · obtain ⟨-, hput⟩ | ⟨input, hinput, heq, hput⟩ := get_batch_put
      (fun input : SyncNextDeliveryInput => rowKey linkKey input.toSyncNextSourceReceipt)
      (createDelivery link (R.isoString now)) uncovered
      (batch (covered.map fun e => .del (rowKey linkKey e.toSyncNextSourceReceipt)) s.delivery) k
    · rw [hput, get_batch_del] at hrow
      split at hrow
      · cases hrow
      · exact Or.inl hrow
    · rw [hput, Option.some.injEq] at hrow
      exact Or.inr ⟨input, ((mem_filterThrowing hc.uncovered_eq).mp hinput).1, heq.symm, hrow.symm⟩

end Pushed

/-! ## Attempts -/

/-- A row that was removed by an attempt to deliver another one: both are writes of one record, and
the delivered one was its current state, at the same position or later. -/
structure CoveredByAttempt (s : Progress) (key : String) (selected row : SyncNextDeliveryObligation) :
    Prop where
  write : row.writeRecordId ≠ none
  record : row.writeRecordId = selected.writeRecordId
  current : ∃ current, get s.delivery (rowKey key selected.toSyncNextSourceReceipt) = some current ∧
    current.wasLatestBaseState = true ∧ current.writeRecordId = selected.writeRecordId
  before : row.source.AtOrBefore selected.source

section Attempted
variable {key k : String} {selected row : SyncNextDeliveryObligation}
  {outcome : Option SyncNextDeliveryOutcome}

theorem attempted_row (hkept : Kept s)
    (hselected : syncNextLinkKey selected.toSyncNextLinkIdentity = .ok key)
    (ha : Attempted now key selected s outcome s') (hrow : get s.delivery k = some row) :
    (∃ row', get s'.delivery k = some row' ∧ row.SameObligation row') ∨
      get s'.delivery k = none ∧ syncNextLinkKey row.toSyncNextLinkIdentity = .ok key ∧
        (row.toSyncNextSourceReceipt.Same selected.toSyncNextSourceReceipt ∨
          CoveredByAttempt s key selected row) := by
  obtain ⟨rowLink, hrowLink, rfl⟩ := hkept.delivery k row hrow
  cases ha with
  | @delivered linkKey link current covered hstored hlinkKey hcurrent hlatest hwrite hrecord
      hcovered =>
    obtain rfl := hkept.linkKey_eq hstored hlinkKey
    by_cases hmem : rowKey rowLink row.toSyncNextSourceReceipt ∈
        covered.map fun e => rowKey linkKey e.toSyncNextSourceReceipt
    · right
      obtain ⟨e, he, heq⟩ := List.mem_map.mp hmem
      obtain ⟨rfl, -⟩ := rowKey_inj hlinkKey hrowLink heq
      obtain ⟨hexisting, htrue⟩ := (mem_filterThrowing hcovered).mp he
      have hget := hkept.get_of_mem_delivery hlinkKey hexisting
      rw [heq, hrow, Option.some.injEq] at hget
      subst hget
      refine ⟨by rw [get_batch_del, if_pos hmem], hrowLink, ?_⟩
      split at htrue
      · next hsameRecord =>
        -- the row at the selected receipt is of the selected receipt
        obtain ⟨currentKey, hcurrentKey, hat⟩ := hkept.delivery _ _ hcurrent
        have hcurrentSame := (rowKey_inj hlinkKey hcurrentKey hat).2
        obtain ⟨hdomain, x, y, hx, hy, hle⟩ := syncNextSourceAtOrBefore_eq_true htrue
        refine Or.inr ⟨hsameRecord ▸ hwrite, hsameRecord.trans hrecord,
          ⟨current, hcurrent, hlatest, hrecord⟩, ?_⟩
        exact ⟨hdomain.trans hcurrentSame.2.1.symm, x, y, hx, hcurrentSame.2.2 ▸ hy, hle⟩
      · cases htrue
    · refine Or.inl ⟨row, ?_, .refl row⟩
      rw [get_batch_del, if_neg hmem]
      exact hrow
  | deliveredAlone =>
    by_cases heq : rowKey rowLink row.toSyncNextSourceReceipt =
        rowKey key selected.toSyncNextSourceReceipt
    · obtain ⟨rfl, hsame⟩ := rowKey_inj hrowLink hselected heq
      exact Or.inr ⟨by rw [get_batch_del_one, if_pos heq], hrowLink, Or.inl hsame⟩
    · refine Or.inl ⟨row, ?_, .refl row⟩
      rw [get_batch_del_one, if_neg heq]
      exact hrow
  | @rotated current lastAttemptAt outcome hcurrent =>
    left
    by_cases heq : rowKey rowLink row.toSyncNextSourceReceipt =
        rowKey key selected.toSyncNextSourceReceipt
    · rw [← heq, hrow, Option.some.injEq] at hcurrent
      subst hcurrent
      exact ⟨{ row with lastAttemptAt, outcome }, by rw [get_batch_put_one, if_pos heq],
        rfl, rfl, rfl, rfl⟩
    · exact ⟨row, by rw [get_batch_put_one, if_neg heq, hrow], .refl row⟩

theorem row_of_attempted (ha : Attempted now key selected s outcome s')
    (hrow : get s'.delivery k = some row) :
    ∃ row₀, get s.delivery k = some row₀ ∧ row₀.SameObligation row := by
  cases ha with
  | delivered =>
    rw [get_batch_del] at hrow
    split at hrow
    · cases hrow
    · exact ⟨row, hrow, .refl row⟩
  | deliveredAlone =>
    rw [get_batch_del_one] at hrow
    split at hrow
    · cases hrow
    · exact ⟨row, hrow, .refl row⟩
  | @rotated current lastAttemptAt outcome hcurrent =>
    rw [get_batch_put_one] at hrow
    split at hrow
    · next heq =>
      cases hrow
      exact ⟨current, heq ▸ hcurrent, rfl, rfl, rfl, rfl⟩
    · exact ⟨row, hrow, .refl row⟩

end Attempted

/-! ## Rows and their links -/

/-- A row is there after a call because it was there before, and then its link is still there too,
or because the call is a push page of its link. -/
theorem row_effect (hkept : Kept s) (hbehind : Behind s) (he : Effect options now s call s')
    {k : String} {row : SyncNextDeliveryObligation} (hrow : get s'.delivery k = some row) :
    (∃ row₀, get s.delivery k = some row₀ ∧ row₀.SameObligation row ∧
      ∀ key, syncNextLinkKey row.toSyncNextLinkIdentity = .ok key → ∃ link', get s'.links key = some link') ∨
    ∃ queriedLink link commit key linkKey handledWrites existing covered uncovered,
      call = .commitPushPage queriedLink commit ∧ Accepts options s ⟨now, call⟩ ∧
      PushCommitted now queriedLink commit s s' key linkKey link handledWrites existing covered
        uncovered ∧
      ∃ input ∈ commit.delivery, k = rowKey key input.toSyncNextSourceReceipt ∧
        row = createDelivery link (R.isoString now) input := by
  -- the link of a row that was there
  have hlinked : ∀ row₀ key, get s.delivery k = some row₀ → row₀.SameObligation row →
      syncNextLinkKey row.toSyncNextLinkIdentity = .ok key →
        k = rowKey key row.toSyncNextSourceReceipt ∧ ∃ link, get s.links key = some link := by
    intro row₀ key hrow₀ hsame hkey
    rw [← hsame.1] at hkey
    obtain ⟨key', hkey', hk⟩ := hkept.delivery k row₀ hrow₀
    obtain ⟨key'', link, -, hkey'', hlink, -⟩ := hbehind k row₀ hrow₀
    obtain rfl : key = key' := Except.ok.inj (hkey.symm.trans hkey')
    obtain rfl : key = key'' := Except.ok.inj (hkey.symm.trans hkey'')
    rw [← hsame.2.1]
    exact ⟨hk, link, hlink⟩
  -- a link that is deleted takes its rows with it
  have hgone : ∀ key', get (batch ((readKeys (keyRange key') s.delivery).map fun e =>
      .del (rowKey key' e.toSyncNextSourceReceipt)) s.delivery) k = some row →
      ∃ row₀, get s.delivery k = some row₀ ∧ row₀.SameObligation row ∧
        ∀ key, syncNextLinkKey row.toSyncNextLinkIdentity = .ok key →
          ∃ link', get (batch [.del key'] s.links) key = some link' := by
    intro key' hrow
    rw [get_batch_del] at hrow
    split at hrow
    · cases hrow
    · next hnot =>
      refine ⟨row, hrow, .refl row, fun key hkey => ?_⟩
      obtain ⟨hk, link, hlink⟩ := hlinked row key hrow (.refl row) hkey
      refine ⟨link, ?_⟩
      rw [get_batch_del_one, if_neg, hlink]
      rintro rfl
      refine hnot (List.mem_map.mpr ⟨row, ?_, hk.symm⟩)
      refine List.mem_map.mpr ⟨(k, row), mem_entries.mpr ⟨hrow, ?_⟩, rfl⟩
      rw [hk]
      exact (keyRange_rowKey hkey hkey _).mpr rfl
  cases he with
  | unchanged =>
    exact Or.inl ⟨row, hrow, .refl row, fun key hkey => (hlinked row key hrow (.refl row) hkey).2⟩
  | @created _ key' link' =>
    refine Or.inl ⟨row, hrow, .refl row, fun key hkey => ?_⟩
    obtain ⟨-, link, hlink⟩ := hlinked row key hrow (.refl row) hkey
    rw [get_batch_put_one]
    split
    · exact ⟨_, rfl⟩
    · exact ⟨link, hlink⟩
  | @retired _ _ key' hkey' => exact Or.inl (hgone key' hrow)
  | @removed _ _ key' _ hkey' => exact Or.inl (hgone key' hrow)
  | @pulled _ _ _ _ _ key' _ _ _ hc =>
    rw [hc.delivery] at hrow
    refine Or.inl ⟨row, hrow, .refl row, fun key hkey => ?_⟩
    obtain ⟨-, link, hlink⟩ := hlinked row key hrow (.refl row) hkey
    rw [hc.links, get_batch_put_one]
    split
    · exact ⟨_, rfl⟩
    · exact ⟨link, hlink⟩
  | @pushed queriedLink link commit _ key' linkKey handledWrites existing covered uncovered
      haccepts hc =>
    obtain hrow₀ | ⟨input, hinput, hk, hcreated⟩ := row_of_pushed hkept hc hrow
    · refine Or.inl ⟨row, hrow₀, .refl row, fun key hkey => ?_⟩
      obtain ⟨-, link, hlink⟩ := hlinked row key hrow₀ (.refl row) hkey
      rw [hc.links, get_batch_put_one]
      split
      · exact ⟨_, rfl⟩
      · exact ⟨link, hlink⟩
    · exact Or.inr ⟨queriedLink, link, commit, key', linkKey, handledWrites, existing, covered,
        uncovered, rfl, haccepts, hc, input, hinput, hk, hcreated⟩
  | rotated =>
    exact Or.inl ⟨row, hrow, .refl row, fun key hkey => (hlinked row key hrow (.refl row) hkey).2⟩
  | materialized =>
    exact Or.inl ⟨row, hrow, .refl row, fun key hkey => (hlinked row key hrow (.refl row) hkey).2⟩
  | attempted _ _ _ _ _ ha =>
    obtain ⟨row₀, hrow₀, hsame⟩ := row_of_attempted ha hrow
    refine Or.inl ⟨row₀, hrow₀, hsame, fun key hkey => ?_⟩
    obtain ⟨-, link, hlink⟩ := hlinked row₀ key hrow₀ hsame hkey
    refine ⟨link, ?_⟩
    cases ha <;> exact hlink
  | @tenantDeleted tenantDid =>
    change get (Level.clear _ s.delivery) k = some row at hrow
    rw [get_clear] at hrow
    split at hrow
    · cases hrow
    · next hrange =>
      refine Or.inl ⟨row, hrow, .refl row, fun key hkey => ?_⟩
      obtain ⟨hk, link, hlink⟩ := hlinked row key hrow (.refl row) hkey
      refine ⟨link, ?_⟩
      change get (Level.clear _ s.links) key = some link
      rw [get_clear, if_neg, hlink]
      intro hlinkRange
      rw [hk] at hrange
      exact hrange ((tenantRange_rowKey hkey tenantDid _).mpr
        ((tenantRange_linkKey hkey tenantDid).mp hlinkRange))
  | cleared => cases hrow

theorem Behind.effect (hbehind : Behind s) (hkept : Kept s) (he : Effect options now s call s') :
    Behind s' := by
  intro k row hrow
  obtain ⟨row₀, hrow₀, hsame, hstays⟩ |
    ⟨queriedLink, link, commit, key, linkKey, _, _, _, _, -, -, hc, input, hinput, -, rfl⟩ :=
      row_effect hkept hbehind he hrow
  · obtain ⟨key, link, token, hkey, hlink, htoken, hbefore⟩ := hbehind k row₀ hrow₀
    have hsource : row₀.source = row.source := congrArg SyncNextSourceReceipt.source hsame.2.1
    rw [hsame.1] at hkey
    rw [hsource] at hbefore
    obtain ⟨link', hlink'⟩ := hstays key hkey
    obtain ⟨hnone, -⟩ | ⟨link₁, hlink₁, -, hadvances⟩ := link_effect he hlink'
    · rw [hlink] at hnone
      cases hnone
    · rw [hlink, Option.some.injEq] at hlink₁
      subst hlink₁
      obtain ⟨token', htoken', hadvance⟩ := hadvances .push token htoken
      refine ⟨key, link', token', hkey, hlink', htoken', ?_⟩
      obtain rfl | hadvance := hadvance
      · exact hbefore
      · exact hbefore.trans hadvance
  · obtain rfl := hkept.linkKey_eq hc.stored hc.linkKey_eq
    refine ⟨linkKey, Direction.push.withCheckpoint link commit.checkpoint (R.isoString now),
      commit.checkpoint, hc.linkKey_eq, ?_, rfl, ?_⟩
    · rw [hc.links, get_batch_put_one, if_pos rfl]
    · exact (disposed_of_validatePageCommit hc.valid
        (List.mem_append_left _ (List.mem_map_of_mem hinput))).1

theorem Behind.run (hbehind : Behind s) (hkept : Kept s) (calls : List TimedCall) :
    Behind (run options s calls) := by
  induction calls generalizing s with
  | nil => exact hbehind
  | cons c calls ih => exact ih (hbehind.effect hkept (step_effect options s c)) (hkept.step options c)

end Step

/-! ## The lifetime of a row -/

/-- The row was retained by a push page of the link, and the link has been in the same lifetime
ever since. -/
def Stems (options : Options) (s : Progress) (calls : List TimedCall) (key lifetimeId : String)
    (row : SyncNextDeliveryObligation) : Prop :=
  ∃ before now queriedLink commit after,
    calls = before ++ ⟨now, .commitPushPage queriedLink commit⟩ :: after ∧
    Accepts options (run options s before) ⟨now, .commitPushPage queriedLink commit⟩ ∧
    syncNextLinkKey queriedLink.toSyncNextLinkIdentity = .ok key ∧
    queriedLink.lifetimeId = lifetimeId ∧
    (∃ input ∈ commit.delivery, input.toSyncNextSourceReceipt = row.toSyncNextSourceReceipt ∧
      input.writeRecordId = row.writeRecordId ∧
      input.wasLatestBaseState = row.wasLatestBaseState) ∧
    ∀ during, during <+: after →
      Alive (run options s (before ++ ⟨now, .commitPushPage queriedLink commit⟩ :: during)) key
        lifetimeId

section Run
variable {options : Options} {s : Progress}

theorem Stems.alive {calls : List TimedCall} {key lifetimeId : String}
    {row : SyncNextDeliveryObligation} (h : Stems options s calls key lifetimeId row) :
    Alive (run options s calls) key lifetimeId := by
  obtain ⟨before, now, queriedLink, commit, after, rfl, -, -, -, -, halive⟩ := h
  exact halive after List.prefix_rfl

theorem Stems.snoc {calls : List TimedCall} {c : TimedCall} {key lifetimeId : String}
    {row row' : SyncNextDeliveryObligation} (h : Stems options s calls key lifetimeId row)
    (hsame : row.SameObligation row') (halive : Alive (run options s (calls ++ [c])) key lifetimeId) :
    Stems options s (calls ++ [c]) key lifetimeId row' := by
  obtain ⟨before, now, queriedLink, commit, after, rfl, haccepts, hkey, hlifetime,
    ⟨input, hinput, hreceipt, hwrite, hlatest⟩, hduring⟩ := h
  refine ⟨before, now, queriedLink, commit, after ++ [c], by simp, haccepts, hkey, hlifetime,
    ⟨input, hinput, hreceipt.trans hsame.2.1, hwrite.trans hsame.2.2.1, hlatest.trans hsame.2.2.2⟩,
    fun during hinitial => ?_⟩
  obtain heq | hbefore := List.prefix_concat_iff.mp hinitial
  · rw [heq]
    simpa using halive
  · exact hduring during hbefore

/-- Every row of a store that began without any stems from the lifetime its link is in. -/
theorem stems_run (hkept : Kept s) (hnone : ∀ k, get s.delivery k = none) (calls : List TimedCall)
    {k : String} {row : SyncNextDeliveryObligation}
    (hrow : get (run options s calls).delivery k = some row) :
    ∃ key lifetimeId, syncNextLinkKey row.toSyncNextLinkIdentity = .ok key ∧
      Stems options s calls key lifetimeId row := by
  have hbehind : Behind s := fun k row hrow => by
    rw [hnone k] at hrow
    cases hrow
  induction calls using List.reverseRecOn generalizing k row with
  | nil =>
    rw [show run options s [] = s from rfl, hnone k] at hrow
    cases hrow
  | append_singleton calls c ih =>
    have hrun : run options s (calls ++ [c]) = step options (run options s calls) c := run_snoc calls c
    have he := step_effect options (run options s calls) c
    rw [← hrun] at he
    obtain ⟨row₀, hrow₀, hsame, hstays⟩ |
      ⟨queriedLink, link, commit, key, linkKey, _, _, _, _, hcall, haccepts, hc, input, hinput, -,
        rfl⟩ := row_effect (hkept.run options calls) (hbehind.run hkept calls) he hrow
    · obtain ⟨key, lifetimeId, hkey, hstems⟩ := ih hrow₀
      rw [hsame.1] at hkey
      refine ⟨key, lifetimeId, hkey, hstems.snoc hsame ?_⟩
      obtain ⟨link, hlink, hlifetime⟩ := hstems.alive
      obtain ⟨link', hlink'⟩ := hstays key hkey
      obtain ⟨hnone, -⟩ | ⟨link₁, hlink₁, hsameLifetime, -⟩ := link_effect he hlink'
      · rw [hlink] at hnone
        cases hnone
      · rw [hlink, Option.some.injEq] at hlink₁
        subst hlink₁
        exact ⟨link', hlink', hsameLifetime.trans hlifetime⟩
    · obtain ⟨now, call⟩ := c
      obtain rfl : call = .commitPushPage queriedLink commit := hcall
      obtain rfl := (hkept.run options calls).linkKey_eq hc.stored hc.linkKey_eq
      refine ⟨linkKey, link.lifetimeId, hc.linkKey_eq, calls, now, queriedLink, commit, [], rfl,
        haccepts, hc.key_eq, hc.lifetime.symm, ⟨input, hinput, rfl, rfl, rfl⟩, fun during hnil => ?_⟩
      rw [List.prefix_nil.mp hnil]
      refine ⟨Direction.push.withCheckpoint link commit.checkpoint (R.isoString now), ?_, rfl⟩
      rw [hc.links, get_batch_put_one, if_pos rfl]

end Run

/-! ## Page and store -/

omit R in
theorem validateHandledWrites_eq {settled : List SyncNextSourceReceipt}
    {writes : List SyncNextHandledWrite} {byRecordId result : HandledWrites}
    (h : validateHandledWrites settled writes byRecordId = .ok result) :
    result = byRecordId ++ writes.map fun handled => (handled.recordId, handled) := by
  induction writes generalizing byRecordId with
  | nil =>
    cases h
    simp
  | cons handled writes ih =>
    unfold validateHandledWrites at h
    split at h
    · cases h
    · rw [ih h]
      simp

omit R in
theorem validateHandledWrites_values {settled : List SyncNextSourceReceipt}
    {handledWrites byRecordId : HandledWrites} (hids : ∀ e ∈ handledWrites, e.2.recordId = e.1)
    (h : validateHandledWrites settled (handledWrites.map Prod.snd) [] = .ok byRecordId) :
    byRecordId = handledWrites := by
  rw [validateHandledWrites_eq h, List.nil_append, List.map_map]
  conv_rhs => rw [← List.map_id handledWrites]
  apply List.map_congr_left
  intro e he
  exact Prod.ext (hids e he) rfl

omit R in
theorem filterThrowing_idem {α : Type} {f : α → Except Thrown Bool} {xs ys : List α}
    (h : filterThrowing f xs = .ok ys) : filterThrowing f ys = .ok ys := by
  induction xs generalizing ys with
  | nil =>
    cases h
    rfl
  | cons x xs ih =>
    obtain ⟨keep, hkeep, h⟩ := bind_eq_ok h
    obtain ⟨rest, hrest, h⟩ := bind_eq_ok h
    cases h
    cases keep with
    | true =>
      rw [if_pos rfl, filterThrowing, hkeep, ok_bind, ih hrest]
      rfl
    | false =>
      rw [if_neg Bool.false_ne_true]
      exact ih hrest

/-- An obligation that a page found covered: a write of a record, one of whose current writes was
settled with the page at the same position or later. -/
structure CoveredOnPage (entries : List SyncNextPreparedFeedEntry)
    (classified : SyncNextPushPage.ClassifiedPushPage) (input : SyncNextDeliveryInput) : Prop where
  obligation : ∃ p ∈ entries, ∃ outcome m, input = deliveryInput p outcome ∧
    p.message = .recordsWrite m ∧ input.writeRecordId = some m.recordId
  handled : ∃ handled ∈ classified.handledWrites, input.writeRecordId = some handled.recordId ∧
    handled.receipt ∈ classified.settled ∧ SyncNextPushPage.IsCurrentWrite entries handled ∧
    input.source.AtOrBefore handled.receipt.source

/-- What the page made of its obligations: the covered ones were settled, the others are handed to
the store, and the store's own check says the same of each. -/
structure AgreesWithStore (entries : List SyncNextPreparedFeedEntry)
    (classified : SyncNextPushPage.ClassifiedPushPage)
    (delivery covered : List SyncNextDeliveryInput) : Prop where
  settled : ∃ acknowledged, classified.settled =
    acknowledged ++ covered.map (·.toSyncNextSourceReceipt)
  partition : (classified.delivery.map (·.toSyncNextSourceReceipt) ++
    covered.map (·.toSyncNextSourceReceipt)).Perm (delivery.map (·.toSyncNextSourceReceipt))
  obsolete : ∀ input ∈ covered, CoveredOnPage entries classified input
  store : ∀ byRecordId,
    validateHandledWrites classified.settled classified.handledWrites [] = .ok byRecordId →
    filterThrowing (fun e => deliveryIsCovered e.source e.writeRecordId byRecordId) delivery =
      .ok covered ∧
    filterThrowing (fun e => do return !(← deliveryIsCovered e.source e.writeRecordId byRecordId))
      delivery = .ok classified.delivery ∧
    filterThrowing (fun e => do return !(← deliveryIsCovered e.source e.writeRecordId byRecordId))
      classified.delivery = .ok classified.delivery

omit R in
theorem deliveryIsCovered_lookup {source : ProgressToken} {writeRecordId : Option String}
    {handledWrites : HandledWrites} (h : deliveryIsCovered source writeRecordId handledWrites = .ok true) :
    ∃ recordId handled, writeRecordId = some recordId ∧ (recordId, handled) ∈ handledWrites ∧
      source.AtOrBefore handled.receipt.source := by
  unfold deliveryIsCovered at h
  split at h
  · cases h
  · next handled hlookup =>
    obtain ⟨recordId, rfl, hlookup⟩ := Option.bind_eq_some_iff.mp hlookup
    exact ⟨recordId, handled, rfl, mem_of_lookup hlookup, syncNextSourceAtOrBefore_eq_true h⟩

omit R in
theorem agreesWithStore {attempts : Nat → SyncNextPushPage.PushAttempt}
    {entries : List SyncNextPreparedFeedEntry} {classified : SyncNextPushPage.ClassifiedPushPage}
    (h : SyncNextPushPage.classifyPage attempts entries {} = .ok (some classified)) :
    ∃ delivery covered, AgreesWithStore entries classified delivery covered := by
  obtain ⟨done, rest, c, rfl, hc, hfinish⟩ := SyncNextPushPage.classifyPage_eq_ok h .empty
  rw [List.nil_append] at hc
  obtain ⟨⟨receipts, pending⟩, hpartition, hfinish⟩ := bind_eq_ok hfinish
  cases hfinish
  obtain ⟨⟨covered, hcovered, rfl⟩, hpending, hperm⟩ :=
    SyncNextPushPage.partitionCoveredDelivery_eq_ok hpartition
  refine ⟨c.delivery, covered, ⟨c.settled, rfl⟩, hperm, fun input hinput => ?_, ?_⟩
  · obtain ⟨hmem, htrue⟩ := (mem_filterThrowing hcovered).mp hinput
    obtain ⟨p, hp, outcome, hinput⟩ := hc.retained input hmem
    obtain ⟨recordId, handled, hrecord, hhandled, hbefore⟩ := deliveryIsCovered_lookup htrue
    obtain ⟨hid, hsettled, hcurrent⟩ := hc.handled _ hhandled
    refine ⟨⟨p, List.mem_append_left _ hp, outcome, ?_⟩, handled, List.mem_map_of_mem hhandled,
      hrecord.trans (congrArg some hid.symm), List.mem_append_left _ hsettled, hcurrent.mono, hbefore⟩
    have hwrite : recordIdForRecordsWrite p.message = some recordId := by
      rw [hinput] at hrecord
      exact hrecord
    cases hmessage : p.message with
    | recordsWrite m =>
      rw [hmessage] at hwrite
      exact ⟨m, hinput, rfl, hrecord.trans hwrite.symm⟩
    | recordsDelete m =>
      rw [hmessage] at hwrite
      cases hwrite
    | modulesConfigure m =>
      rw [hmessage] at hwrite
      cases hwrite
  · intro byRecordId hvalid
    obtain rfl := validateHandledWrites_values (fun e he => (hc.handled e he).1) hvalid
    exact ⟨hcovered, hpending, filterThrowing_idem hpending⟩

/-! ## Only what is covered -/

/-- What a run of calls removes as covered, and what pages and the store take for covered. -/
structure CoversOnly (options : Options) (s : Progress) (calls : List TimedCall) : Prop where
  pages : ∀ before after now queriedLink commit k row,
    calls = before ++ ⟨now, .commitPushPage queriedLink commit⟩ :: after →
    get (run options s before).delivery k = some row →
    get (run options s (before ++ [⟨now, .commitPushPage queriedLink commit⟩])).delivery k =
        some row ∨
      get (run options s (before ++ [⟨now, .commitPushPage queriedLink commit⟩])).delivery k =
          none ∧
        ∃ key, syncNextLinkKey queriedLink.toSyncNextLinkIdentity = .ok key ∧
          syncNextLinkKey row.toSyncNextLinkIdentity = .ok key ∧
          Stems options s before key queriedLink.lifetimeId row ∧
          ∃ handled ∈ commit.handledWrites, row.writeRecordId = some handled.recordId ∧
            row.source.AtOrBefore handled.receipt.source
  attempts : ∀ before after now queriedLink selected outcome k row,
    calls = before ++ ⟨now, .finishDeliveryAttempt queriedLink selected outcome⟩ :: after →
    get (run options s before).delivery k = some row →
    (∃ row', get (run options s
        (before ++ [⟨now, .finishDeliveryAttempt queriedLink selected outcome⟩])).delivery k =
          some row' ∧ row.SameObligation row') ∨
      get (run options s
          (before ++ [⟨now, .finishDeliveryAttempt queriedLink selected outcome⟩])).delivery k =
          none ∧
        ∃ key, syncNextLinkKey queriedLink.toSyncNextLinkIdentity = .ok key ∧
          syncNextLinkKey row.toSyncNextLinkIdentity = .ok key ∧
          Stems options s before key queriedLink.lifetimeId row ∧
          (row.toSyncNextSourceReceipt.Same selected.toSyncNextSourceReceipt ∨
            CoveredByAttempt (run options s before) key selected row)
  partitions : ∀ handledWrites delivery covered pending,
    SyncNextPushPage.partitionCoveredDelivery handledWrites delivery = .ok (covered, pending) →
    (pending.map (·.toSyncNextSourceReceipt) ++ covered).Perm
        (delivery.map (·.toSyncNextSourceReceipt)) ∧
      ∀ receipt ∈ covered, ∃ input ∈ delivery, input.toSyncNextSourceReceipt = receipt ∧
        ∃ recordId handled, input.writeRecordId = some recordId ∧
          (recordId, handled) ∈ handledWrites ∧ input.source.AtOrBefore handled.receipt.source
  agreement : ∀ attempts entries classified,
    SyncNextPushPage.classifyPage attempts entries {} = .ok (some classified) →
      ∃ delivery covered, AgreesWithStore entries classified delivery covered

section Run
variable {options : Options} {s : Progress}

/-- The link of a row that is removed by a call for the link. -/
theorem stems_of_alive (hkept : Kept s) (hnone : ∀ k, get s.delivery k = none)
    {before : List TimedCall} {k key : String} {row : SyncNextDeliveryObligation} {link : SyncNextLink}
    (hrow : get (run options s before).delivery k = some row)
    (hkey : syncNextLinkKey row.toSyncNextLinkIdentity = .ok key)
    (hlink : get (run options s before).links key = some link) :
    Stems options s before key link.lifetimeId row := by
  obtain ⟨key', lifetimeId, hkey', hstems⟩ := stems_run hkept hnone before hrow
  obtain rfl : key = key' := Except.ok.inj (hkey.symm.trans hkey')
  obtain ⟨link', hlink', rfl⟩ := hstems.alive
  rw [hlink, Option.some.injEq] at hlink'
  rw [hlink']
  exact hstems

/-- Coverage removes only what is covered: whatever calls are made, on a store that began without
delivery rows. -/
theorem run_coversOnly (options : Options) (s : Progress) (calls : List TimedCall) (hkept : Kept s)
    (hnone : ∀ k, get s.delivery k = none) : CoversOnly options s calls where
  pages := by
    intro before after now queriedLink commit k row _ hrow
    have hbehind : Behind s := fun k row hrow => by
      rw [hnone k] at hrow
      cases hrow
    have hkept' := hkept.run options before
    have he := step_effect options (run options s before) ⟨now, .commitPushPage queriedLink commit⟩
    rw [← run_snoc] at he
    generalize run options s (before ++ [⟨now, .commitPushPage queriedLink commit⟩]) = s' at he ⊢
    cases he with
    | unchanged => exact Or.inl hrow
    | pushed haccepts hc =>
      obtain hkeeps | ⟨hgone, hkey, hcovered⟩ :=
        pushed_row hkept' (hbehind.run hkept before) hc hrow
      · exact Or.inl hkeeps
      · refine Or.inr ⟨hgone, _, hc.key_eq, hkey, ?_, hcovered⟩
        rw [← hc.lifetime]
        exact stems_of_alive hkept hnone hrow hkey hc.stored
  attempts := by
    intro before after now queriedLink selected outcome k row _ hrow
    have hkept' := hkept.run options before
    have he := step_effect options (run options s before)
      ⟨now, .finishDeliveryAttempt queriedLink selected outcome⟩
    rw [← run_snoc] at he
    generalize run options s
      (before ++ [⟨now, .finishDeliveryAttempt queriedLink selected outcome⟩]) = s' at he ⊢
    cases he with
    | unchanged => exact Or.inl ⟨row, hrow, .refl row⟩
    | attempted haccepts hkey hselected hstored hlifetime ha =>
      obtain hkeeps | ⟨hgone, hrowKey, hcovered⟩ := attempted_row hkept' hselected ha hrow
      · exact Or.inl hkeeps
      · refine Or.inr ⟨hgone, _, hkey, hrowKey, ?_, hcovered⟩
        rw [← hlifetime]
        exact stems_of_alive hkept hnone hrow hrowKey hstored
  partitions := by
    intro handledWrites delivery covered pending hpartition
    obtain ⟨⟨inputs, hinputs, rfl⟩, -, hperm⟩ :=
      SyncNextPushPage.partitionCoveredDelivery_eq_ok hpartition
    refine ⟨hperm, fun receipt hreceipt => ?_⟩
    obtain ⟨input, hinput, rfl⟩ := List.mem_map.mp hreceipt
    obtain ⟨hmem, htrue⟩ := (mem_filterThrowing hinputs).mp hinput
    exact ⟨input, hmem, rfl, deliveryIsCovered_lookup htrue⟩
  agreement := fun _ _ _ h => agreesWithStore h

end Run

end SyncNextProgressStore

namespace SyncNextProgressStore

local instance : Runtime := Runtime.ofEpoch

/-- The draft that is retained goes when the note is taken, in the lifetime that retained it. -/
theorem run_coversOnly_retriedDelivery :
    CoversOnly {} {} retriedDelivery ∧
    (run {} {} (retriedDelivery.take 2)).delivery.keys.length = 1 ∧
    (run {} {} retriedDelivery).delivery.keys.length = 0 := by
  refine ⟨run_coversOnly {} {} retriedDelivery .empty ?_, by decide +kernel, by decide +kernel⟩
  intro k
  rfl

end SyncNextProgressStore

end EnboxDwn.Agent
