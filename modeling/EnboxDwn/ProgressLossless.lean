import EnboxDwn.ProgressRuns
import Mathlib.Data.List.Perm.Subperm

/-! Receipts of committed pages. While a link lives, a receipt at or before its checkpoint is
settled or still has its row, its checkpoints do not go back, and a refused commit changes
nothing. -/
namespace EnboxDwn

section Lookup
variable {α β : Type} [BEq α] [LawfulBEq α]

theorem mem_of_lookup {l : List (α × β)} {a : α} {b : β} (h : l.lookup a = some b) : (a, b) ∈ l := by
  obtain ⟨l₁, l₂, rfl, -⟩ := List.lookup_eq_some_iff.mp h
  simp

theorem lookup_of_mem {l : List (α × β)} (hdistinct : (l.map Prod.fst).Nodup) {a : α} {b : β}
    (h : (a, b) ∈ l) : l.lookup a = some b := by
  induction l with
  | nil => cases h
  | cons x l ih =>
    obtain ⟨x₁, x₂⟩ := x
    rw [List.map_cons, List.nodup_cons] at hdistinct
    cases List.mem_cons.mp h with
    | inl heq =>
      cases heq
      simp
    | inr h =>
      have hne : (a == x₁) = false := by
        rw [beq_eq_false_iff_ne]
        intro heq
        exact hdistinct.1 (heq ▸ List.mem_map.mpr ⟨_, h, rfl⟩)
      rw [List.lookup_cons, hne]
      exact ih hdistinct.2 h

end Lookup

namespace Agent
open Level

namespace SyncNextProgressStore

/-! ## Lists under checks that may throw -/

section Throwing
variable {α β : Type}

theorem mem_of_mapM {f : α → Except Thrown β} {xs : List α} {ys : List β}
    (h : xs.mapM f = .ok ys) {y : β} (hy : y ∈ ys) : ∃ x ∈ xs, f x = .ok y := by
  induction xs generalizing ys with
  | nil =>
    cases h
    cases hy
  | cons x xs ih =>
    rw [List.mapM_cons] at h
    obtain ⟨y', hy', h⟩ := bind_eq_ok h
    obtain ⟨ys', hys', h⟩ := bind_eq_ok h
    cases h
    obtain rfl | hmem := List.mem_cons.mp hy
    · exact ⟨x, List.mem_cons_self, hy'⟩
    · obtain ⟨x', hx', hfx'⟩ := ih hys' hmem
      exact ⟨x', List.mem_cons_of_mem _ hx', hfx'⟩

theorem exists_of_mapM {f : α → Except Thrown β} {xs : List α} {ys : List β}
    (h : xs.mapM f = .ok ys) {x : α} (hx : x ∈ xs) : ∃ y ∈ ys, f x = .ok y := by
  induction xs generalizing ys with
  | nil => cases hx
  | cons x' xs ih =>
    rw [List.mapM_cons] at h
    obtain ⟨y', hy', h⟩ := bind_eq_ok h
    obtain ⟨ys', hys', h⟩ := bind_eq_ok h
    cases h
    obtain rfl | hmem := List.mem_cons.mp hx
    · exact ⟨y', List.mem_cons_self, hy'⟩
    · obtain ⟨y, hy, hfy⟩ := ih hys' hmem
      exact ⟨y, List.mem_cons_of_mem _ hy, hfy⟩

theorem mem_filterThrowing {f : α → Except Thrown Bool} {xs ys : List α}
    (h : filterThrowing f xs = .ok ys) {x : α} : x ∈ ys ↔ x ∈ xs ∧ f x = .ok true := by
  induction xs generalizing ys with
  | nil =>
    cases h
    simp
  | cons x' xs ih =>
    obtain ⟨keep, hkeep, h⟩ := bind_eq_ok h
    obtain ⟨rest, hrest, h⟩ := bind_eq_ok h
    cases h
    cases keep with
    | true =>
      rw [if_pos rfl, List.mem_cons, List.mem_cons, ih hrest]
      constructor
      · rintro (rfl | hx)
        · exact ⟨Or.inl rfl, hkeep⟩
        · exact ⟨Or.inr hx.1, hx.2⟩
      · rintro ⟨rfl | hx, hfx⟩
        · exact Or.inl rfl
        · exact Or.inr ⟨hx, hfx⟩
    | false =>
      rw [if_neg Bool.false_ne_true, List.mem_cons, ih hrest]
      constructor
      · rintro ⟨hx, hfx⟩
        exact ⟨Or.inr hx, hfx⟩
      · rintro ⟨rfl | hx, hfx⟩
        · rw [hkeep] at hfx
          cases hfx
        · exact ⟨hx, hfx⟩

theorem exists_of_filterThrowing {f : α → Except Thrown Bool} {xs ys : List α}
    (h : filterThrowing f xs = .ok ys) {x : α} (hx : x ∈ xs) : ∃ b, f x = .ok b := by
  induction xs generalizing ys with
  | nil => cases hx
  | cons x' xs ih =>
    obtain ⟨keep, hkeep, h⟩ := bind_eq_ok h
    obtain ⟨rest, hrest, -⟩ := bind_eq_ok h
    obtain rfl | hmem := List.mem_cons.mp hx
    · exact ⟨keep, hkeep⟩
    · exact ih hrest hmem

end Throwing

/-! ## Valid pages -/

theorem receiptIdentity_eq_iff {a b : SyncNextSourceReceipt} :
    receiptIdentity a = receiptIdentity b ↔ a.Same b := by
  unfold receiptIdentity SyncNextSourceReceipt.Same
  rw [domain_eq_iff, ReceiptIdentity.mk.injEq]
  constructor
  · rintro ⟨hstream, hepoch, hposition, hcid⟩
    exact ⟨hcid, ⟨hstream, hepoch⟩, hposition⟩
  · rintro ⟨hcid, ⟨hstream, hepoch⟩, hposition⟩
    exact ⟨hstream, hepoch, hposition, hcid⟩

theorem assertReceiptWithinPage_eq_ok {receipt : SyncNextSourceReceipt} {checkpoint : ProgressToken}
    {direction : Direction} (h : assertReceiptWithinPage receipt checkpoint direction = .ok ()) :
    receipt.source.AtOrBefore checkpoint := by
  obtain ⟨_, -, h⟩ := bind_eq_ok h
  split at h
  · cases h
  · split at h
    · cases h
    · next hdomain =>
      obtain ⟨n, hn, h⟩ := bind_eq_ok h
      obtain ⟨x, y, hx, hy, hle, -⟩ := SyncCheckpoint.comparePosition_eq_ok hn
      split at h
      · cases h
      · next hpositive =>
        refine ⟨domain_eq_iff.mpr (by simpa [not_or] using hdomain), x, y, hx, hy, hle.mp ?_⟩
        omega

theorem validatePageReceipts_eq_ok {checkpoint : ProgressToken} {previous : Option ProgressToken}
    {direction : Direction} {receipts : List SyncNextSourceReceipt} {page page' : List ReceiptIdentity}
    {positions : List String}
    (h : validatePageReceipts checkpoint previous direction receipts page positions = .ok page') :
    page' = page ++ receipts.map receiptIdentity ∧
      ∀ receipt ∈ receipts, receipt.source.AtOrBefore checkpoint := by
  induction receipts generalizing page positions with
  | nil =>
    cases h
    exact ⟨by simp, by simp⟩
  | cons receipt receipts ih =>
    obtain ⟨_, hwithin, h⟩ := bind_eq_ok h
    obtain ⟨_, -, h⟩ := bind_eq_ok h
    dsimp only at h
    split at h
    · cases h
    · split at h
      · cases h
      · obtain ⟨hpage, hreceipts⟩ := ih h
        refine ⟨by rw [hpage, List.append_assoc]; rfl, ?_⟩
        rintro r hr
        obtain rfl | hr := List.mem_cons.mp hr
        · exact assertReceiptWithinPage_eq_ok hwithin
        · exact hreceipts r hr

theorem validatePageDispositions_eq_ok {checkpoint : ProgressToken} {page : List ReceiptIdentity}
    {direction : Direction} {receipts : List SyncNextSourceReceipt} {seen seen' : List ReceiptIdentity}
    (h : validatePageDispositions checkpoint page direction receipts seen = .ok seen')
    (hseen : seen.Nodup) :
    seen' = seen ++ receipts.map receiptIdentity ∧ seen'.Nodup ∧
      ∀ receipt ∈ receipts, receiptIdentity receipt ∈ page := by
  induction receipts generalizing seen with
  | nil =>
    cases h
    exact ⟨by simp, hseen, by simp⟩
  | cons receipt receipts ih =>
    obtain ⟨_, -, h⟩ := bind_eq_ok h
    dsimp only at h
    split at h
    · cases h
    · next hpage =>
      split at h
      · cases h
      · next hnew =>
        obtain ⟨hseen', hnodup, hreceipts⟩ := ih h (List.nodup_append.mpr
          ⟨hseen, List.nodup_singleton _, fun a ha b hb => by
            rintro rfl
            exact hnew (List.mem_singleton.mp hb ▸ ha)⟩)
        refine ⟨by rw [hseen', List.append_assoc]; rfl, hnodup, ?_⟩
        rintro r hr
        obtain rfl | hr := List.mem_cons.mp hr
        · exact not_not.mp hpage
        · exact hreceipts r hr

/-- A valid page gives each of its receipts one disposition, and lies behind its checkpoint. -/
structure PageAccounted (checkpoint : ProgressToken)
    (pageReceipts pending settled : List SyncNextSourceReceipt) : Prop where
  behind : ∀ receipt ∈ pageReceipts, receipt.source.AtOrBefore checkpoint
  disposed : ∀ receipt ∈ pageReceipts, ∃ r ∈ pending ++ settled, r.Same receipt

theorem validatePageCommit_eq_ok {checkpoint : ProgressToken}
    {pageReceipts pending settled : List SyncNextSourceReceipt} {previous : Option ProgressToken}
    {direction : Direction}
    (h : validatePageCommit checkpoint pageReceipts pending settled previous direction = .ok ()) :
    PageAccounted checkpoint pageReceipts pending settled := by
  obtain ⟨_, -, h⟩ := bind_eq_ok h
  obtain ⟨page, hpage, h⟩ := bind_eq_ok h
  obtain ⟨seen, hseen, h⟩ := bind_eq_ok h
  obtain ⟨rfl, hbehind⟩ := validatePageReceipts_eq_ok hpage
  obtain ⟨rfl, hnodup, hsub⟩ := validatePageDispositions_eq_ok hseen List.nodup_nil
  split at h
  · cases h
  · next hlength =>
    refine ⟨hbehind, fun receipt hreceipt => ?_⟩
    -- as many dispositions as receipts, all different and all of the page: none is left out
    have hsubset : [] ++ (pending ++ settled).map receiptIdentity ⊆
        [] ++ pageReceipts.map receiptIdentity := by
      rintro identity hidentity
      rw [List.nil_append] at hidentity
      obtain ⟨r, hr, rfl⟩ := List.mem_map.mp hidentity
      exact hsub r hr
    have hperm := (hnodup.subperm hsubset).perm_of_length_le (by omega)
    have hmem : receiptIdentity receipt ∈ [] ++ (pending ++ settled).map receiptIdentity :=
      hperm.mem_iff.mpr (List.mem_map_of_mem hreceipt)
    obtain ⟨r, hr, heq⟩ := List.mem_map.mp hmem
    exact ⟨r, hr, receiptIdentity_eq_iff.mp heq⟩

theorem mem_validateHandledWrites {settled : List SyncNextSourceReceipt}
    {handledWrites : List SyncNextHandledWrite} {byRecordId result : HandledWrites}
    (h : validateHandledWrites settled handledWrites byRecordId = .ok result)
    {recordId : String} {handled : SyncNextHandledWrite} (hmem : (recordId, handled) ∈ result) :
    (recordId, handled) ∈ byRecordId ∨ handled ∈ handledWrites ∧ handled.recordId = recordId := by
  induction handledWrites generalizing byRecordId with
  | nil =>
    cases h
    exact Or.inl hmem
  | cons write writes ih =>
    unfold validateHandledWrites at h
    split at h
    · cases h
    · obtain hmem | ⟨hmem, hid⟩ := ih h
      · obtain hmem | hmem := List.mem_append.mp hmem
        · exact Or.inl hmem
        · cases List.mem_singleton.mp hmem
          exact Or.inr ⟨List.mem_cons_self, rfl⟩
      · exact Or.inr ⟨List.mem_cons_of_mem _ hmem, hid⟩

/-- What covers a delivery: a handled write of the same record, at the same position or later. -/
theorem deliveryIsCovered_eq_true {settled : List SyncNextSourceReceipt}
    {handledWrites : List SyncNextHandledWrite} {byRecordId : HandledWrites} {source : ProgressToken}
    {writeRecordId : Option String}
    (hhandled : validateHandledWrites settled handledWrites [] = .ok byRecordId)
    (h : deliveryIsCovered source writeRecordId byRecordId = .ok true) :
    ∃ handled ∈ handledWrites, writeRecordId = some handled.recordId ∧
      source.AtOrBefore handled.receipt.source := by
  unfold deliveryIsCovered at h
  split at h
  · cases h
  · next handled hlookup =>
    obtain ⟨recordId, rfl, hlookup⟩ := Option.bind_eq_some_iff.mp hlookup
    obtain hnil | ⟨hmem, rfl⟩ := mem_validateHandledWrites hhandled (mem_of_lookup hlookup)
    · cases hnil
    · exact ⟨handled, hmem, rfl, syncNextSourceAtOrBefore_eq_true h⟩

variable [R : Runtime]

/-! ## Rows of a link -/

theorem identity_of_linkKey {a b : SyncNextLinkIdentity} {key : String}
    (ha : syncNextLinkKey a = .ok key) (hb : syncNextLinkKey b = .ok key) :
    a.tenantDid = b.tenantDid ∧ a.projectionId = b.projectionId := by
  obtain ⟨endpoint, -, rfl⟩ := syncNextLinkKey_eq_ok ha
  obtain ⟨endpoint', -, heq⟩ := syncNextLinkKey_eq_ok hb
  have hparts := encodeParts_inj heq
  simp only [linkParts, List.cons.injEq] at hparts
  exact ⟨hparts.1, hparts.2.2.1⟩

theorem Kept.get_of_mem_delivery {s : Progress} (h : Kept s) {identity : SyncNextLinkIdentity}
    {key : String} (hkey : syncNextLinkKey identity = .ok key) {e : SyncNextDeliveryObligation}
    (he : e ∈ readKeys (keyRange key) s.delivery) :
    get s.delivery (rowKey key e.toSyncNextSourceReceipt) = some e := by
  obtain ⟨⟨k, e'⟩, hmem, rfl⟩ := List.mem_map.mp he
  obtain ⟨hget, hrange⟩ := mem_entries.mp hmem
  obtain ⟨linkKey, hlinkKey, rfl⟩ := h.delivery k e' hget
  rw [(keyRange_rowKey hkey hlinkKey _).mp hrange]
  exact hget

theorem Kept.of_mem_projection {s : Progress} (h : Kept s) {tenantDid projectionId : String}
    {rows : List SyncNextQuarantineEntry}
    (hrows : getQuarantineForProjection tenantDid projectionId s = .ok rows)
    {e : SyncNextQuarantineEntry} (he : e ∈ rows) :
    e.tenantDid = tenantDid ∧ e.projectionId = projectionId := by
  obtain ⟨entries, hentries, hfilter⟩ := bind_eq_ok hrows
  cases hfilter
  obtain ⟨hmem, hprojection⟩ := List.mem_filter.mp he
  obtain ⟨row, hrow, hvalid⟩ := mem_of_mapM hentries hmem
  obtain ⟨⟨k, row'⟩, hentry, rfl⟩ := List.mem_map.mp hrow
  obtain ⟨hget, hrange⟩ := mem_entries.mp hentry
  have hentry : row' = .entry e := by
    cases row' with
    | encrypted => cases hvalid
    | entry e' =>
      change (if _ then _ else _) = _ at hvalid
      split at hvalid
      · cases hvalid
      · rw [Except.ok.inj hvalid]
  obtain ⟨linkKey, hlinkKey, rfl⟩ := h.quarantine k row' hget e hentry
  exact ⟨((tenantRange_rowKey hlinkKey tenantDid _).mp hrange).symm, of_decide_eq_true hprojection⟩

def Quarantined (s : Progress) (key : String) (receipt : SyncNextSourceReceipt) : Prop :=
  ∃ e, get s.quarantine (rowKey key receipt) = some (.entry e) ∧
    e.toSyncNextSourceReceipt.Same receipt

def Owed (s : Progress) (key : String) (receipt : SyncNextSourceReceipt) : Prop :=
  ∃ e, get s.delivery (rowKey key receipt) = some e ∧ e.toSyncNextSourceReceipt.Same receipt

/-- A call settles a receipt that the link pulled: its page lists the receipt as applied, or the
message has been materialized in the projection of the link. -/
inductive SettlesPull (options : Options) (s : Progress) (key : String)
    (receipt : SyncNextSourceReceipt) : TimedCall → Prop
  | page {now : Int} {checked : Bool} {queriedLink : SyncNextLink} {commit : SyncNextPullPageCommit}
      {settled : SyncNextSourceReceipt}
      (haccepts : Accepts options s ⟨now, .commitPullPage checked queriedLink commit⟩)
      (hkey : syncNextLinkKey queriedLink.toSyncNextLinkIdentity = .ok key)
      (hmem : settled ∈ commit.settled) (hsame : settled.Same receipt) :
      SettlesPull options s key receipt ⟨now, .commitPullPage checked queriedLink commit⟩
  | materialized {now : Int} {link : SyncNextLink} {messageCids : List String}
      (hlink : get s.links key = some link) (hmem : receipt.messageCid ∈ messageCids) :
      SettlesPull options s key receipt
        ⟨now, .settleQuarantineForProjection link.tenantDid link.projectionId messageCids⟩

/-- A call settles a receipt that the link owes: its page lists the receipt as applied, a page or a
delivery covers it by a write of the same record that is not before it, or it is delivered. -/
inductive SettlesPush (options : Options) (s : Progress) (key : String)
    (receipt : SyncNextSourceReceipt) : TimedCall → Prop
  | page {now : Int} {queriedLink : SyncNextLink} {commit : SyncNextPushPageCommit}
      {settled : SyncNextSourceReceipt}
      (haccepts : Accepts options s ⟨now, .commitPushPage queriedLink commit⟩)
      (hkey : syncNextLinkKey queriedLink.toSyncNextLinkIdentity = .ok key)
      (hmem : settled ∈ commit.settled) (hsame : settled.Same receipt) :
      SettlesPush options s key receipt ⟨now, .commitPushPage queriedLink commit⟩
  | coveredByPage {now : Int} {queriedLink : SyncNextLink} {commit : SyncNextPushPageCommit}
      {handled : SyncNextHandledWrite}
      (haccepts : Accepts options s ⟨now, .commitPushPage queriedLink commit⟩)
      (hkey : syncNextLinkKey queriedLink.toSyncNextLinkIdentity = .ok key)
      (hmem : handled ∈ commit.handledWrites)
      (hwrite : (∃ e, get s.delivery (rowKey key receipt) = some e ∧
          e.writeRecordId = some handled.recordId) ∨
        ∃ input ∈ commit.delivery, input.toSyncNextSourceReceipt.Same receipt ∧
          input.writeRecordId = some handled.recordId)
      (hbefore : receipt.source.AtOrBefore handled.receipt.source) :
      SettlesPush options s key receipt ⟨now, .commitPushPage queriedLink commit⟩
  | delivered {now : Int} {queriedLink : SyncNextLink} {selected : SyncNextDeliveryObligation}
      (haccepts : Accepts options s ⟨now, .finishDeliveryAttempt queriedLink selected none⟩)
      (hkey : syncNextLinkKey queriedLink.toSyncNextLinkIdentity = .ok key)
      (hsame : selected.toSyncNextSourceReceipt.Same receipt) :
      SettlesPush options s key receipt ⟨now, .finishDeliveryAttempt queriedLink selected none⟩
  | coveredByDelivery {now : Int} {queriedLink : SyncNextLink}
      {selected e : SyncNextDeliveryObligation}
      (haccepts : Accepts options s ⟨now, .finishDeliveryAttempt queriedLink selected none⟩)
      (hkey : syncNextLinkKey queriedLink.toSyncNextLinkIdentity = .ok key)
      (hrow : get s.delivery (rowKey key receipt) = some e) (hwrite : e.writeRecordId ≠ none)
      (hrecord : e.writeRecordId = selected.writeRecordId)
      (hbefore : receipt.source.AtOrBefore selected.source) :
      SettlesPush options s key receipt ⟨now, .finishDeliveryAttempt queriedLink selected none⟩

section Step
variable {options : Options} {s s' : Progress} {now : Int} {call : Call} {key : String}
  {link link' : SyncNextLink} {receipt : SyncNextSourceReceipt}

theorem not_mem_rowKeys {ρ : Type} {identity : SyncNextLinkIdentity} {key' : String}
    (hkey : syncNextLinkKey link.toSyncNextLinkIdentity = .ok key)
    (hkey' : syncNextLinkKey identity = .ok key') (hne : key' ≠ key)
    (f : ρ → SyncNextSourceReceipt) (xs : List ρ) :
    rowKey key receipt ∉ xs.map fun x => rowKey key' (f x) := by
  intro hmem
  obtain ⟨x, -, heq⟩ := List.mem_map.mp hmem
  exact hne (rowKey_inj hkey' hkey heq).1

theorem rowKey_not_tenantRange {tenantDid : String}
    (hkey : syncNextLinkKey link.toSyncNextLinkIdentity = .ok key)
    (hlink' : get (deleteForTenant tenantDid s).links key = some link') :
    ¬ syncNextTenantRange tenantDid (rowKey key receipt) = true := by
  change get (Level.clear _ s.links) key = some link' at hlink'
  rw [get_clear] at hlink'
  intro hrange
  rw [if_pos ((tenantRange_linkKey hkey tenantDid).mpr
    ((tenantRange_rowKey hkey tenantDid receipt).mp hrange))] at hlink'
  cases hlink'

theorem quarantined_pulled {checked : Bool} {queriedLink link₁ : SyncNextLink}
    {commit : SyncNextPullPageCommit} {key' linkKey : String}
    {prepared : List (SyncNextQuarantineInput × Nat)} (hkept : Kept s)
    (hlink : get s.links key = some link)
    (haccepts : Accepts options s ⟨now, .commitPullPage checked queriedLink commit⟩)
    (hc : PullCommitted now queriedLink commit s s' key' linkKey link₁ prepared)
    (hrow : Quarantined s key receipt) :
    Quarantined s' key receipt ∨
      SettlesPull options s key receipt ⟨now, .commitPullPage checked queriedLink commit⟩ := by
  obtain rfl := hkept.linkKey_eq hc.stored hc.linkKey_eq
  have hkey : syncNextLinkKey link.toSyncNextLinkIdentity = .ok key := hkept.links key link hlink
  obtain ⟨e, he, hsame⟩ := hrow
  have hget : get s'.quarantine (rowKey key receipt) =
      if rowKey key receipt ∈ commit.settled.map (rowKey linkKey) then none
      else get (batch ((prepared.map (createQuarantine link₁ (R.isoString now))).map
        fun e => .put (rowKey linkKey e.toSyncNextSourceReceipt) (.entry e)) s.quarantine)
        (rowKey key receipt) := by
    rw [hc.quarantine, batch_append, get_batch_del]
  by_cases hsettled : rowKey key receipt ∈ commit.settled.map (rowKey linkKey)
  · obtain ⟨settled, hmem, heq⟩ := List.mem_map.mp hsettled
    obtain ⟨rfl, hsettledSame⟩ := rowKey_inj hc.linkKey_eq hkey heq
    exact Or.inr (.page haccepts hc.key_eq hmem hsettledSame)
  · rw [if_neg hsettled] at hget
    left
    obtain ⟨-, hput⟩ | ⟨e', -, heq, hput⟩ := get_batch_put
      (fun e : SyncNextQuarantineEntry => rowKey linkKey e.toSyncNextSourceReceipt)
      QuarantineRow.entry (prepared.map (createQuarantine link₁ (R.isoString now))) s.quarantine
      (rowKey key receipt)
    · exact ⟨e, by rw [hget, hput, he], hsame⟩
    · exact ⟨e', by rw [hget, hput], (rowKey_inj hc.linkKey_eq hkey heq).2⟩

/-- A quarantine row of a link that stays is kept, or settled by the call. -/
theorem quarantined_effect (hkept : Kept s) (he : Effect options now s call s')
    (hlink : get s.links key = some link) (hlink' : get s'.links key = some link')
    (hrow : Quarantined s key receipt) :
    Quarantined s' key receipt ∨ SettlesPull options s key receipt ⟨now, call⟩ := by
  have hkey : syncNextLinkKey link.toSyncNextLinkIdentity = .ok key := hkept.links key link hlink
  cases he with
  | unchanged => exact Or.inl hrow
  | created => exact Or.inl hrow
  | retired => exact Or.inl hrow
  | @removed _ _ key' _ hkey' =>
    left
    by_cases hne : key' = key
    · subst hne
      rw [get_batch_del_one, if_pos rfl] at hlink'
      cases hlink'
    · obtain ⟨e, he, hsame⟩ := hrow
      refine ⟨e, ?_, hsame⟩
      rw [get_batch_del, if_neg (not_mem_rowKeys hkey hkey' hne _ _)]
      exact he
  | pulled haccepts hc => exact quarantined_pulled hkept hlink haccepts hc hrow
  | pushed _ hc =>
    left
    unfold Quarantined
    rw [hc.quarantine]
    exact hrow
  | @rotated _ current key' lastAttemptAt hcurrent =>
    left
    obtain ⟨e, he, hsame⟩ := hrow
    by_cases hkey' : rowKey key receipt = key'
    · subst hkey'
      rw [he, Option.some.injEq, QuarantineRow.entry.injEq] at hcurrent
      subst hcurrent
      exact ⟨{ e with lastAttemptAt }, by rw [get_batch_put_one, if_pos rfl], hsame⟩
    · exact ⟨e, by rw [get_batch_put_one, if_neg hkey', he], hsame⟩
  | @materialized tenantDid projectionId messageCids keys rows hrows hkeys =>
    obtain ⟨e, he, hsame⟩ := hrow
    by_cases hmem : rowKey key receipt ∈ keys
    · obtain ⟨e', he', hkeyed⟩ := mem_of_mapM hkeys hmem
      obtain ⟨he', hcid⟩ := List.mem_filter.mp he'
      obtain ⟨htenant, hprojection⟩ := hkept.of_mem_projection hrows he'
      obtain ⟨linkKey, hlinkKey, heq⟩ := bind_eq_ok hkeyed
      obtain ⟨rfl, hsame'⟩ := rowKey_inj hlinkKey hkey (Except.ok.inj heq)
      obtain ⟨htenant', hprojection'⟩ := identity_of_linkKey hlinkKey hkey
      right
      rw [← htenant, ← hprojection, htenant', hprojection']
      exact .materialized hlink (hsame'.1 ▸ of_decide_eq_true hcid)
    · left
      refine ⟨e, ?_, hsame⟩
      have hdel := get_batch_del (fun key : String => key) keys s.quarantine (rowKey key receipt)
      rw [List.map_id', if_neg hmem] at hdel
      rw [hdel, he]
  | attempted _ _ _ _ _ ha =>
    left
    cases ha with
    | delivered => exact hrow
    | deliveredAlone => exact hrow
    | rotated => exact hrow
  | @tenantDeleted tenantDid =>
    left
    obtain ⟨e, he, hsame⟩ := hrow
    refine ⟨e, ?_, hsame⟩
    change get (Level.clear _ s.quarantine) _ = _
    rw [get_clear, if_neg (rowKey_not_tenantRange hkey hlink'), he]
  | cleared => cases hlink'

theorem owed_pushed {queriedLink link₁ : SyncNextLink} {commit : SyncNextPushPageCommit}
    {key' linkKey : String} {handledWrites : HandledWrites}
    {existing covered : List SyncNextDeliveryObligation} {uncovered : List SyncNextDeliveryInput}
    (hkept : Kept s) (hlink : get s.links key = some link)
    (haccepts : Accepts options s ⟨now, .commitPushPage queriedLink commit⟩)
    (hc : PushCommitted now queriedLink commit s s' key' linkKey link₁ handledWrites existing
      covered uncovered) (hrow : Owed s key receipt) :
    Owed s' key receipt ∨
      SettlesPush options s key receipt ⟨now, .commitPushPage queriedLink commit⟩ := by
  obtain rfl := hkept.linkKey_eq hc.stored hc.linkKey_eq
  have hkey : syncNextLinkKey link.toSyncNextLinkIdentity = .ok key := hkept.links key link hlink
  obtain ⟨e, he, hsame⟩ := hrow
  have hget : get s'.delivery (rowKey key receipt) =
      if rowKey key receipt ∈ commit.settled.map (rowKey linkKey) then none
      else get (batch (uncovered.map fun input => .put (rowKey linkKey input.toSyncNextSourceReceipt)
        (createDelivery link₁ (R.isoString now) input))
          (batch (covered.map fun e => .del (rowKey linkKey e.toSyncNextSourceReceipt)) s.delivery))
        (rowKey key receipt) := by
    rw [hc.delivery, batch_append, batch_append, get_batch_del]
  by_cases hsettled : rowKey key receipt ∈ commit.settled.map (rowKey linkKey)
  · obtain ⟨settled, hmem, heq⟩ := List.mem_map.mp hsettled
    obtain ⟨rfl, hsettledSame⟩ := rowKey_inj hc.linkKey_eq hkey heq
    exact Or.inr (.page haccepts hc.key_eq hmem hsettledSame)
  · rw [if_neg hsettled] at hget
    obtain ⟨-, hput⟩ | ⟨input, -, heq, hput⟩ := get_batch_put
      (fun input : SyncNextDeliveryInput => rowKey linkKey input.toSyncNextSourceReceipt)
      (createDelivery link₁ (R.isoString now)) uncovered
      (batch (covered.map fun e => .del (rowKey linkKey e.toSyncNextSourceReceipt)) s.delivery)
      (rowKey key receipt)
    · rw [hput, get_batch_del] at hget
      by_cases hcovered : rowKey key receipt ∈
          covered.map fun e => rowKey linkKey e.toSyncNextSourceReceipt
      · -- the row itself is one of those that a handled write covers
        obtain ⟨e', he', heq⟩ := List.mem_map.mp hcovered
        obtain ⟨rfl, hsame'⟩ := rowKey_inj hc.linkKey_eq hkey heq
        obtain ⟨hexisting, htrue⟩ := (mem_filterThrowing hc.covered_eq).mp he'
        rw [hc.existing_eq] at hexisting
        have hrow' := hkept.get_of_mem_delivery hc.linkKey_eq hexisting
        rw [heq] at hrow'
        obtain ⟨handled, hmem, hwrite, hbefore⟩ :=
          deliveryIsCovered_eq_true hc.handled_eq htrue
        exact Or.inr (.coveredByPage haccepts hc.key_eq hmem (Or.inl ⟨e', hrow', hwrite⟩)
          (hsame'.atOrBefore hbefore))
      · rw [if_neg hcovered] at hget
        exact Or.inl ⟨e, by rw [hget, he], hsame⟩
    · exact Or.inl ⟨_, by rw [hget, hput], (rowKey_inj hc.linkKey_eq hkey heq).2⟩

theorem owed_attempted {queriedLink : SyncNextLink} {selected : SyncNextDeliveryObligation}
    {outcome : Option SyncNextDeliveryOutcome} {key' : String} (hkept : Kept s)
    (hlink : get s.links key = some link)
    (haccepts : Accepts options s ⟨now, .finishDeliveryAttempt queriedLink selected outcome⟩)
    (hkey' : syncNextLinkKey queriedLink.toSyncNextLinkIdentity = .ok key')
    (hselected : syncNextLinkKey selected.toSyncNextLinkIdentity = .ok key')
    (ha : Attempted now key' selected s outcome s') (hrow : Owed s key receipt) :
    Owed s' key receipt ∨
      SettlesPush options s key receipt ⟨now, .finishDeliveryAttempt queriedLink selected outcome⟩ := by
  have hkey : syncNextLinkKey link.toSyncNextLinkIdentity = .ok key := hkept.links key link hlink
  obtain ⟨e, he, hsame⟩ := hrow
  cases ha with
  | @delivered linkKey link₁ current covered hstored hlinkKey hcurrent hlatest hwrite hrecord
      hcovered =>
    obtain rfl := hkept.linkKey_eq hstored hlinkKey
    by_cases hmem : rowKey key receipt ∈
        covered.map fun e => rowKey linkKey e.toSyncNextSourceReceipt
    · obtain ⟨e', he', heq⟩ := List.mem_map.mp hmem
      obtain ⟨rfl, hsame'⟩ := rowKey_inj hlinkKey hkey heq
      obtain ⟨hexisting, htrue⟩ := (mem_filterThrowing hcovered).mp he'
      have hrow' := hkept.get_of_mem_delivery hlinkKey hexisting
      rw [heq] at hrow'
      split at htrue
      · next hsameRecord =>
        -- the row at the selected receipt is of the selected receipt
        obtain ⟨currentKey, hcurrentKey, hat⟩ := hkept.delivery _ _ hcurrent
        have hcurrentSame := (rowKey_inj hlinkKey hcurrentKey hat).2
        have hbefore := syncNextSourceAtOrBefore_eq_true htrue
        refine Or.inr (.coveredByDelivery haccepts hkey' hrow' (hsameRecord ▸ hwrite)
          (hsameRecord.trans hrecord) (hsame'.atOrBefore ?_))
        obtain ⟨hdomain, x, y, hx, hy, hle⟩ := hbefore
        exact ⟨hdomain.trans hcurrentSame.2.1.symm, x, y, hx, hcurrentSame.2.2 ▸ hy, hle⟩
      · cases htrue
    · refine Or.inl ⟨e, ?_, hsame⟩
      rw [get_batch_del, if_neg hmem]
      exact he
  | deliveredAlone =>
    by_cases heq : rowKey key receipt = rowKey key' selected.toSyncNextSourceReceipt
    · obtain ⟨rfl, hsame'⟩ := rowKey_inj hselected hkey heq.symm
      exact Or.inr (.delivered haccepts hkey' hsame')
    · refine Or.inl ⟨e, ?_, hsame⟩
      rw [get_batch_del_one, if_neg heq]
      exact he
  | @rotated current lastAttemptAt outcome hcurrent =>
    by_cases heq : rowKey key receipt = rowKey key' selected.toSyncNextSourceReceipt
    · rw [← heq, he, Option.some.injEq] at hcurrent
      subst hcurrent
      exact Or.inl ⟨{ e with lastAttemptAt, outcome }, by rw [get_batch_put_one, if_pos heq], hsame⟩
    · exact Or.inl ⟨e, by rw [get_batch_put_one, if_neg heq, he], hsame⟩

/-- A delivery row of a link that stays is kept, or settled by the call. -/
theorem owed_effect (hkept : Kept s) (he : Effect options now s call s')
    (hlink : get s.links key = some link) (hlink' : get s'.links key = some link')
    (hrow : Owed s key receipt) :
    Owed s' key receipt ∨ SettlesPush options s key receipt ⟨now, call⟩ := by
  have hkey : syncNextLinkKey link.toSyncNextLinkIdentity = .ok key := hkept.links key link hlink
  cases he with
  | unchanged => exact Or.inl hrow
  | created => exact Or.inl hrow
  | @retired _ _ key' hkey' =>
    left
    by_cases hne : key' = key
    · subst hne
      rw [get_batch_del_one, if_pos rfl] at hlink'
      cases hlink'
    · obtain ⟨e, he, hsame⟩ := hrow
      refine ⟨e, ?_, hsame⟩
      rw [get_batch_del, if_neg (not_mem_rowKeys hkey hkey' hne _ _)]
      exact he
  | @removed _ _ key' _ hkey' =>
    left
    by_cases hne : key' = key
    · subst hne
      rw [get_batch_del_one, if_pos rfl] at hlink'
      cases hlink'
    · obtain ⟨e, he, hsame⟩ := hrow
      refine ⟨e, ?_, hsame⟩
      rw [get_batch_del, if_neg (not_mem_rowKeys hkey hkey' hne _ _)]
      exact he
  | pulled _ hc =>
    left
    unfold Owed
    rw [hc.delivery]
    exact hrow
  | pushed haccepts hc => exact owed_pushed hkept hlink haccepts hc hrow
  | rotated => exact Or.inl hrow
  | materialized => exact Or.inl hrow
  | attempted haccepts hkey' hselected _ _ ha =>
    exact owed_attempted hkept hlink haccepts hkey' hselected ha hrow
  | @tenantDeleted tenantDid =>
    left
    obtain ⟨e, he, hsame⟩ := hrow
    refine ⟨e, ?_, hsame⟩
    change get (Level.clear _ s.delivery) _ = _
    rw [get_clear, if_neg (rowKey_not_tenantRange hkey hlink'), he]
  | cleared => cases hlink'

/-! ## Committed pages -/

/-- A committed pull page leaves each of its receipts settled or quarantined. -/
theorem accounted_pulled {queriedLink link₁ : SyncNextLink} {commit : SyncNextPullPageCommit}
    {linkKey : String} {prepared : List (SyncNextQuarantineInput × Nat)} (hkept : Kept s)
    (hc : PullCommitted now queriedLink commit s s' key linkKey link₁ prepared)
    (hmem : receipt ∈ commit.pageReceipts) :
    Quarantined s' key receipt ∨ ∃ settled ∈ commit.settled, settled.Same receipt := by
  obtain rfl := hkept.linkKey_eq hc.stored hc.linkKey_eq
  obtain ⟨r, hr, hsame⟩ := (validatePageCommit_eq_ok hc.valid).disposed receipt hmem
  obtain hr | hr := List.mem_append.mp hr
  · by_cases hsettled : rowKey linkKey receipt ∈ commit.settled.map (rowKey linkKey)
    · obtain ⟨settled, hsettled, heq⟩ := List.mem_map.mp hsettled
      exact Or.inr ⟨settled, hsettled, (rowKey_inj hc.linkKey_eq hc.linkKey_eq heq).2⟩
    · left
      obtain ⟨input, hinput, rfl⟩ := List.mem_map.mp hr
      obtain ⟨p, hp, hprepare⟩ := exists_of_mapM hc.prepared_eq hinput
      have hp1 : p.1 = input := by
        unfold prepareQuarantineInput at hprepare
        split at hprepare
        · cases hprepare
        · split at hprepare
          · cases hprepare
          · obtain ⟨size, -, heq⟩ := bind_eq_ok hprepare
            rw [← Except.ok.inj heq]
      obtain ⟨hnot, -⟩ | ⟨e, -, heq, hput⟩ := get_batch_put
        (fun e : SyncNextQuarantineEntry => rowKey linkKey e.toSyncNextSourceReceipt)
        QuarantineRow.entry (prepared.map (createQuarantine link₁ (R.isoString now))) s.quarantine
        (rowKey linkKey receipt)
      · refine absurd (List.mem_map.mpr ⟨_, List.mem_map_of_mem hp, ?_⟩) hnot
        subst hp1
        exact hsame.rowKey_eq linkKey
      · refine ⟨e, ?_, (rowKey_inj hc.linkKey_eq hc.linkKey_eq heq).2⟩
        rw [hc.quarantine, batch_append, get_batch_del, if_neg hsettled, hput]
  · exact Or.inr ⟨r, hr, hsame⟩

/-- A committed push page leaves each of its receipts settled, covered or owed. -/
theorem accounted_pushed {queriedLink link₁ : SyncNextLink} {commit : SyncNextPushPageCommit}
    {linkKey : String} {handledWrites : HandledWrites}
    {existing covered : List SyncNextDeliveryObligation} {uncovered : List SyncNextDeliveryInput}
    (hkept : Kept s)
    (hc : PushCommitted now queriedLink commit s s' key linkKey link₁ handledWrites existing covered
      uncovered) (hmem : receipt ∈ commit.pageReceipts) :
    Owed s' key receipt ∨ (∃ settled ∈ commit.settled, settled.Same receipt) ∨
      ∃ handled ∈ commit.handledWrites, ∃ input ∈ commit.delivery,
        input.toSyncNextSourceReceipt.Same receipt ∧ input.writeRecordId = some handled.recordId ∧
          receipt.source.AtOrBefore handled.receipt.source := by
  obtain rfl := hkept.linkKey_eq hc.stored hc.linkKey_eq
  obtain ⟨r, hr, hsame⟩ := (validatePageCommit_eq_ok hc.valid).disposed receipt hmem
  obtain hr | hr := List.mem_append.mp hr
  · obtain ⟨input, hinput, rfl⟩ := List.mem_map.mp hr
    obtain ⟨keep, hkeep⟩ := exists_of_filterThrowing hc.uncovered_eq hinput
    obtain ⟨isCovered, hisCovered, hnot⟩ := bind_eq_ok hkeep
    cases isCovered with
    | true =>
      obtain ⟨handled, hhandled, hwrite, hbefore⟩ :=
        deliveryIsCovered_eq_true hc.handled_eq hisCovered
      exact Or.inr (Or.inr ⟨handled, hhandled, input, hinput, hsame, hwrite,
        hsame.atOrBefore hbefore⟩)
    | false =>
      have huncovered : input ∈ uncovered := by
        refine (mem_filterThrowing hc.uncovered_eq).mpr ⟨hinput, ?_⟩
        rw [hisCovered]
        rfl
      by_cases hsettled : rowKey linkKey receipt ∈ commit.settled.map (rowKey linkKey)
      · obtain ⟨settled, hsettled, heq⟩ := List.mem_map.mp hsettled
        exact Or.inr (Or.inl ⟨settled, hsettled, (rowKey_inj hc.linkKey_eq hc.linkKey_eq heq).2⟩)
      · left
        obtain ⟨hnot, -⟩ | ⟨input', -, heq, hput⟩ := get_batch_put
          (fun input : SyncNextDeliveryInput => rowKey linkKey input.toSyncNextSourceReceipt)
          (createDelivery link₁ (R.isoString now)) uncovered
          (batch (covered.map fun e => .del (rowKey linkKey e.toSyncNextSourceReceipt)) s.delivery)
          (rowKey linkKey receipt)
        · exact absurd (List.mem_map.mpr ⟨input, huncovered, hsame.rowKey_eq linkKey⟩) hnot
        · refine ⟨createDelivery link₁ (R.isoString now) input', ?_,
            (rowKey_inj hc.linkKey_eq hc.linkKey_eq heq).2⟩
          rw [hc.delivery, batch_append, batch_append, get_batch_del, if_neg hsettled, hput]
  · exact Or.inr (Or.inl ⟨r, hr, hsame⟩)

end Step

/-! ## Lifetimes -/

/-- The lifetime ids that are drawn in a run. -/
def lifetimes (calls : List TimedCall) : List String :=
  calls.filterMap fun c =>
    match c.call with
    | .getOrCreateLink _ lifetimeId => some lifetimeId
    | _ => none

omit R in
theorem lifetimes_cons (c : TimedCall) (calls : List TimedCall) :
    lifetimes (c :: calls) = lifetimes [c] ++ lifetimes calls :=
  List.filterMap_append (l := [c])

/-- Random ids: no two links of a run, and none before it, have the same lifetime. -/
structure FreshLifetimes (s : Progress) (calls : List TimedCall) : Prop where
  distinct : (lifetimes calls).Nodup
  fresh : ∀ key link, get s.links key = some link → link.lifetimeId ∉ lifetimes calls

def Alive (s : Progress) (key lifetimeId : String) : Prop :=
  ∃ link, get s.links key = some link ∧ link.lifetimeId = lifetimeId

section Run
variable {options : Options} {s : Progress} {key lifetimeId : String}

theorem alive_of_step {c : TimedCall} (h : Alive (step options s c) key lifetimeId) :
    Alive s key lifetimeId ∨ lifetimeId ∈ lifetimes [c] := by
  obtain ⟨link', hlink', rfl⟩ := h
  obtain ⟨-, input, hcall⟩ | ⟨link, hlink, hlifetime, -⟩ :=
    link_effect (step_effect options s c) hlink'
  · right
    simp [lifetimes, hcall]
  · exact Or.inl ⟨link, hlink, hlifetime.symm⟩

theorem alive_of_run {calls : List TimedCall} (h : Alive (run options s calls) key lifetimeId) :
    Alive s key lifetimeId ∨ lifetimeId ∈ lifetimes calls := by
  induction calls generalizing s with
  | nil => exact Or.inl h
  | cons c calls ih =>
    rw [lifetimes_cons, List.mem_append]
    obtain halive | hmem := ih h
    · obtain halive | hmem := alive_of_step halive
      · exact Or.inl halive
      · exact Or.inr (Or.inl hmem)
    · exact Or.inr (Or.inr hmem)

/-- The lifetime of a link that is there is not drawn again. -/
theorem FreshLifetimes.not_mem {before after : List TimedCall}
    (h : FreshLifetimes s (before ++ after)) (halive : Alive (run options s before) key lifetimeId) :
    lifetimeId ∉ lifetimes after := by
  have happend : lifetimes (before ++ after) = lifetimes before ++ lifetimes after :=
    List.filterMap_append
  obtain ⟨link, hlink, rfl⟩ | hmem := alive_of_run halive
  · have := h.fresh key link hlink
    rw [happend, List.mem_append, not_or] at this
    exact this.2
  · have hdistinct := h.distinct
    rw [happend] at hdistinct
    exact fun hafter => (List.nodup_append.mp hdistinct).2.2 _ hmem _ hafter rfl

/-- A call of the run does what is asked for, in the state it finds. -/
def OccursIn (S : Progress → TimedCall → Prop) (options : Options) (s : Progress)
    (calls : List TimedCall) : Prop :=
  ∃ pre c post, calls = pre ++ c :: post ∧ S (run options s pre) c

/-- What every step keeps or settles while the link lives is kept or settled by a run. -/
theorem persists_run {P : Progress → Prop} {S : Progress → TimedCall → Prop}
    (hstep : ∀ s c link link', Kept s → get s.links key = some link →
      get (step options s c).links key = some link' → P s → P (step options s c) ∨ S s c)
    (hkept : Kept s) {calls : List TimedCall} (hfresh : lifetimeId ∉ lifetimes calls)
    (hlive : Alive s key lifetimeId) (hend : Alive (run options s calls) key lifetimeId) (h : P s) :
    P (run options s calls) ∨ OccursIn S options s calls := by
  induction calls generalizing s with
  | nil => exact Or.inl h
  | cons c calls ih =>
    rw [lifetimes_cons, List.mem_append, not_or] at hfresh
    change Alive (run options (step options s c) calls) key lifetimeId at hend
    have hnext := (alive_of_run hend).resolve_right hfresh.2
    obtain ⟨link, hlink, -⟩ := hlive
    have ⟨link', hlink', _⟩ := hnext
    obtain hp | hs := hstep s c link link' hkept hlink hlink' h
    · obtain hp | ⟨pre, d, post, rfl, hd⟩ := ih (hkept.step options c) hfresh.2 hnext hend hp
      · exact Or.inl hp
      · exact Or.inr ⟨c :: pre, d, post, rfl, hd⟩
    · exact Or.inr ⟨[], c, calls, rfl, hs⟩

/-- The checkpoints of a lifetime only advance. -/
theorem advances_run {calls : List TimedCall} (hfresh : lifetimeId ∉ lifetimes calls)
    {link link' : SyncNextLink} (hlink : get s.links key = some link)
    (hlifetime : link.lifetimeId = lifetimeId)
    (hlink' : get (run options s calls).links key = some link')
    (hlifetime' : link'.lifetimeId = lifetimeId) : Advances link link' := by
  induction calls generalizing s link with
  | nil =>
    rw [show run options s [] = s from rfl, hlink, Option.some.injEq] at hlink'
    subst hlink'
    exact .refl link
  | cons c calls ih =>
    rw [lifetimes_cons, List.mem_append, not_or] at hfresh
    have hend : Alive (run options (step options s c) calls) key lifetimeId :=
      ⟨link', hlink', hlifetime'⟩
    obtain ⟨next, hnext, hnextLifetime⟩ := (alive_of_run hend).resolve_right hfresh.2
    obtain ⟨hnone, -⟩ | ⟨link₀, hlink₀, -, hadvances⟩ :=
      link_effect (step_effect options s c) hnext
    · rw [hlink] at hnone
      cases hnone
    · rw [hlink, Option.some.injEq] at hlink₀
      subst hlink₀
      exact hadvances.trans (ih hfresh.2 hnext hnextLifetime hlink')

end Run

/-! ## Runs -/

def Call.isCommit : Call → Bool
  | .commitPullPage .. => true
  | .commitPushPage .. => true
  | _ => false

/-- What a run does to receipts and checkpoints. The link of a committed page is followed as long
as it is in the lifetime in which the page was committed. -/
structure Lossless (options : Options) (s : Progress) (calls : List TimedCall) : Prop where
  pullReceipts : ∀ before after now checked queriedLink commit key link receipt,
    calls = before ++ ⟨now, .commitPullPage checked queriedLink commit⟩ :: after →
    Accepts options (run options s before) ⟨now, .commitPullPage checked queriedLink commit⟩ →
    syncNextLinkKey queriedLink.toSyncNextLinkIdentity = .ok key →
    get (run options s calls).links key = some link → link.lifetimeId = queriedLink.lifetimeId →
    receipt ∈ commit.pageReceipts →
      (∃ token ∈ link.pullCheckpoint, receipt.source.AtOrBefore token) ∧
      (Quarantined (run options s calls) key receipt ∨
        OccursIn (SettlesPull options · key receipt) options (run options s before)
          (⟨now, .commitPullPage checked queriedLink commit⟩ :: after))
  pushReceipts : ∀ before after now queriedLink commit key link receipt,
    calls = before ++ ⟨now, .commitPushPage queriedLink commit⟩ :: after →
    Accepts options (run options s before) ⟨now, .commitPushPage queriedLink commit⟩ →
    syncNextLinkKey queriedLink.toSyncNextLinkIdentity = .ok key →
    get (run options s calls).links key = some link → link.lifetimeId = queriedLink.lifetimeId →
    receipt ∈ commit.pageReceipts →
      (∃ token ∈ link.pushCheckpoint, receipt.source.AtOrBefore token) ∧
      (Owed (run options s calls) key receipt ∨
        OccursIn (SettlesPush options · key receipt) options (run options s before)
          (⟨now, .commitPushPage queriedLink commit⟩ :: after))
  advancing : ∀ before after key link link', calls = before ++ after →
    get (run options s before).links key = some link →
    get (run options s calls).links key = some link' → link'.lifetimeId = link.lifetimeId →
      Advances link link'
  refused : ∀ before c after, calls = before ++ c :: after → c.call.isCommit = true →
    ¬ Accepts options (run options s before) c →
      run options s (before ++ [c]) = run options s before
  pullKeepsPush : ∀ before after now checked queriedLink commit,
    calls = before ++ ⟨now, .commitPullPage checked queriedLink commit⟩ :: after → ∀ key,
      (get (run options s (before ++ [⟨now, .commitPullPage checked queriedLink commit⟩])).links
        key).map SyncNextLink.pushCheckpoint =
      (get (run options s before).links key).map SyncNextLink.pushCheckpoint
  pushKeepsPull : ∀ before after now queriedLink commit,
    calls = before ++ ⟨now, .commitPushPage queriedLink commit⟩ :: after → ∀ key,
      (get (run options s (before ++ [⟨now, .commitPushPage queriedLink commit⟩])).links
        key).map SyncNextLink.pullCheckpoint =
      (get (run options s before).links key).map SyncNextLink.pullCheckpoint

section Runs
variable {options : Options} {s : Progress}

theorem run_snoc (before : List TimedCall) (c : TimedCall) :
    run options s (before ++ [c]) = step options (run options s before) c :=
  run_append options s before [c]

theorem step_of_invoke {c : TimedCall} {b : Bool} {s' : Progress}
    (h : invoke options c s = .ok (b, s')) : step options s c = s' := by
  unfold step
  rw [h]

theorem step_refused {c : TimedCall} (hcommit : c.call.isCommit = true)
    (h : ¬ Accepts options s c) : step options s c = s := by
  obtain ⟨now, call⟩ := c
  cases hinvoke : invoke options ⟨now, call⟩ s with
  | error e =>
    unfold step
    rw [hinvoke]
  | ok result =>
    obtain ⟨b, s'⟩ := result
    rw [step_of_invoke hinvoke]
    cases call with
    | commitPullPage checked queriedLink commit =>
      obtain ⟨rfl, -⟩ | ⟨rfl, -⟩ := commitPullPage_eq_ok hinvoke
      · rfl
      · exact absurd ⟨s', hinvoke⟩ h
    | commitPushPage queriedLink commit =>
      obtain ⟨rfl, -⟩ | ⟨rfl, -⟩ := commitPushPage_eq_ok hinvoke
      · rfl
      · exact absurd ⟨s', hinvoke⟩ h
    | _ => cases hcommit

theorem step_pull_push (now : Int) (checked : Bool) (queriedLink : SyncNextLink)
    (commit : SyncNextPullPageCommit) (key : String) :
    (get (step options s ⟨now, .commitPullPage checked queriedLink commit⟩).links key).map
        SyncNextLink.pushCheckpoint = (get s.links key).map SyncNextLink.pushCheckpoint := by
  have he := step_effect options s ⟨now, .commitPullPage checked queriedLink commit⟩
  generalize step options s ⟨now, .commitPullPage checked queriedLink commit⟩ = s' at he ⊢
  cases he with
  | unchanged => rfl
  | @pulled _ _ link _ _ key' _ _ _ hc =>
    rw [hc.links, get_batch_put_one]
    split
    · next hkey =>
      subst hkey
      rw [hc.stored]
      rfl
    · rfl

theorem step_push_pull (now : Int) (queriedLink : SyncNextLink) (commit : SyncNextPushPageCommit)
    (key : String) :
    (get (step options s ⟨now, .commitPushPage queriedLink commit⟩).links key).map
        SyncNextLink.pullCheckpoint = (get s.links key).map SyncNextLink.pullCheckpoint := by
  have he := step_effect options s ⟨now, .commitPushPage queriedLink commit⟩
  generalize step options s ⟨now, .commitPushPage queriedLink commit⟩ = s' at he ⊢
  cases he with
  | unchanged => rfl
  | @pushed _ link _ _ key' _ _ _ _ _ _ hc =>
    rw [hc.links, get_batch_put_one]
    split
    · next hkey =>
      subst hkey
      rw [hc.stored]
      rfl
    · rfl

/-- After a committed page, in a run: what lay behind its checkpoint stays behind the checkpoint of
the link, and what was left to be settled is kept or settled as long as the link lives. -/
theorem committed_run {after : List TimedCall} {c : TimedCall} {s' : Progress} {key : String}
    {link link₁ : SyncNextLink} {receipt : SyncNextSourceReceipt} {token : ProgressToken}
    {updatedAt : String} {P : Progress → Prop} {S : Progress → TimedCall → Prop}
    (direction : Direction) (hstep : step options s c = s') (hkept' : Kept s')
    (hfresh : link₁.lifetimeId ∉ lifetimes after)
    (hstored' : get s'.links key = some (direction.withCheckpoint link₁ token updatedAt))
    (hlink : get (run options s (c :: after)).links key = some link)
    (hsame : link.lifetimeId = link₁.lifetimeId) (hbehind : receipt.source.AtOrBefore token)
    (hpersists : ∀ s c link link', Kept s → get s.links key = some link →
      get (step options s c).links key = some link' → P s → P (step options s c) ∨ S s c)
    (hrow : P s' ∨ S s c) :
    (∃ token ∈ direction.checkpoint link, receipt.source.AtOrBefore token) ∧
      (P (run options s (c :: after)) ∨ OccursIn S options s (c :: after)) := by
  subst hstep
  have hlifetime : (direction.withCheckpoint link₁ token updatedAt).lifetimeId =
      link₁.lifetimeId := by
    cases direction <;> rfl
  constructor
  · obtain ⟨token', htoken, hat⟩ := advances_run hfresh hstored' hlifetime hlink hsame direction token
      (by cases direction <;> rfl)
    refine ⟨token', htoken, ?_⟩
    obtain rfl | hat := hat
    · exact hbehind
    · exact hbehind.trans hat
  · obtain hrow | hsettles := hrow
    · obtain hrow | ⟨pre, d, post, rfl, hsettles⟩ := persists_run hpersists hkept' hfresh
        ⟨_, hstored', hlifetime⟩ ⟨link, hlink, hsame⟩ hrow
      · exact Or.inl hrow
      · exact Or.inr ⟨c :: pre, d, post, rfl, hsettles⟩
    · exact Or.inr ⟨[], c, after, rfl, hsettles⟩

/-- A committed pull page in a run: its receipts lie behind the checkpoint of the link and are
settled or quarantined as long as the link lives. -/
theorem pulled_run {after : List TimedCall} {now : Int} {checked : Bool} {queriedLink : SyncNextLink}
    {commit : SyncNextPullPageCommit} {key : String} {link : SyncNextLink}
    {receipt : SyncNextSourceReceipt} (hkept : Kept s)
    (hfresh : ∀ key lifetimeId, Alive s key lifetimeId → lifetimeId ∉ lifetimes after)
    (haccepts : Accepts options s ⟨now, .commitPullPage checked queriedLink commit⟩)
    (hkey : syncNextLinkKey queriedLink.toSyncNextLinkIdentity = .ok key)
    (hlink : get (run options s (⟨now, .commitPullPage checked queriedLink commit⟩ :: after)).links
      key = some link) (hlifetime : link.lifetimeId = queriedLink.lifetimeId)
    (hmem : receipt ∈ commit.pageReceipts) :
    (∃ token ∈ link.pullCheckpoint, receipt.source.AtOrBefore token) ∧
      (Quarantined (run options s (⟨now, .commitPullPage checked queriedLink commit⟩ :: after)) key
          receipt ∨
        OccursIn (SettlesPull options · key receipt) options s
          (⟨now, .commitPullPage checked queriedLink commit⟩ :: after)) := by
  have ⟨s', hinvoke⟩ := haccepts
  obtain ⟨-, hempty⟩ | ⟨-, key', linkKey, link₁, prepared, hc⟩ := commitPullPage_eq_ok hinvoke
  · rw [hempty rfl] at hmem
    cases hmem
  · obtain rfl : key' = key := Except.ok.inj (hc.key_eq.symm.trans hkey)
    refine committed_run .pull (step_of_invoke hinvoke) (hkept.pulled hc)
      (hfresh key' link₁.lifetimeId ⟨link₁, hc.stored, rfl⟩)
      (by rw [hc.links, get_batch_put_one, if_pos rfl]) hlink (hlifetime.trans hc.lifetime.symm)
      ((validatePageCommit_eq_ok hc.valid).behind receipt hmem)
      (fun s c link link' hkept hlink hlink' hrow =>
        quarantined_effect hkept (step_effect options s c) hlink hlink' hrow) ?_
    obtain hrow | ⟨settled, hsettled, hsettledSame⟩ := accounted_pulled hkept hc hmem
    · exact Or.inl hrow
    · exact Or.inr (.page haccepts hkey hsettled hsettledSame)

/-- The same for a push page, whose receipts may also be covered by later writes. -/
theorem pushed_run {after : List TimedCall} {now : Int} {queriedLink : SyncNextLink}
    {commit : SyncNextPushPageCommit} {key : String} {link : SyncNextLink}
    {receipt : SyncNextSourceReceipt} (hkept : Kept s)
    (hfresh : ∀ key lifetimeId, Alive s key lifetimeId → lifetimeId ∉ lifetimes after)
    (haccepts : Accepts options s ⟨now, .commitPushPage queriedLink commit⟩)
    (hkey : syncNextLinkKey queriedLink.toSyncNextLinkIdentity = .ok key)
    (hlink : get (run options s (⟨now, .commitPushPage queriedLink commit⟩ :: after)).links
      key = some link) (hlifetime : link.lifetimeId = queriedLink.lifetimeId)
    (hmem : receipt ∈ commit.pageReceipts) :
    (∃ token ∈ link.pushCheckpoint, receipt.source.AtOrBefore token) ∧
      (Owed (run options s (⟨now, .commitPushPage queriedLink commit⟩ :: after)) key receipt ∨
        OccursIn (SettlesPush options · key receipt) options s
          (⟨now, .commitPushPage queriedLink commit⟩ :: after)) := by
  have ⟨s', hinvoke⟩ := haccepts
  obtain ⟨-, hempty⟩ | ⟨-, key', linkKey, link₁, handledWrites, existing, covered, uncovered, hc⟩ :=
    commitPushPage_eq_ok hinvoke
  · rw [hempty rfl] at hmem
    cases hmem
  · obtain rfl : key' = key := Except.ok.inj (hc.key_eq.symm.trans hkey)
    refine committed_run .push (step_of_invoke hinvoke) (hkept.pushed hc)
      (hfresh key' link₁.lifetimeId ⟨link₁, hc.stored, rfl⟩)
      (by rw [hc.links, get_batch_put_one, if_pos rfl]) hlink (hlifetime.trans hc.lifetime.symm)
      ((validatePageCommit_eq_ok hc.valid).behind receipt hmem)
      (fun s c link link' hkept hlink hlink' hrow =>
        owed_effect hkept (step_effect options s c) hlink hlink' hrow) ?_
    obtain hrow | ⟨settled, hsettled, hsettledSame⟩ |
      ⟨handled, hhandled, input, hinput, hinputSame, hwrite, hbefore⟩ :=
        accounted_pushed hkept hc hmem
    · exact Or.inl hrow
    · exact Or.inr (.page haccepts hkey hsettled hsettledSame)
    · exact Or.inr (.coveredByPage haccepts hkey hhandled
        (Or.inr ⟨input, hinput, hinputSame, hwrite⟩) hbefore)

/-- Whatever calls are made, in whatever order and on whatever links, no receipt of a committed
page is lost while its link lives. -/
theorem run_lossless (options : Options) (s : Progress) (calls : List TimedCall) (hkept : Kept s)
    (hfresh : FreshLifetimes s calls) : Lossless options s calls where
  pullReceipts := by
    rintro before after now checked queriedLink commit key link receipt rfl haccepts hkey hlink
      hlifetime hmem
    rw [run_append] at hlink ⊢
    refine pulled_run (hkept.run options before) (fun key lifetimeId halive => ?_) haccepts hkey hlink
      hlifetime hmem
    have hnot := hfresh.not_mem halive
    rw [lifetimes_cons, List.mem_append, not_or] at hnot
    exact hnot.2
  pushReceipts := by
    rintro before after now queriedLink commit key link receipt rfl haccepts hkey hlink hlifetime hmem
    rw [run_append] at hlink ⊢
    refine pushed_run (hkept.run options before) (fun key lifetimeId halive => ?_) haccepts hkey hlink
      hlifetime hmem
    have hnot := hfresh.not_mem halive
    rw [lifetimes_cons, List.mem_append, not_or] at hnot
    exact hnot.2
  advancing := by
    rintro before after key link link' rfl hlink hlink' hlifetime
    rw [run_append] at hlink'
    exact advances_run (hfresh.not_mem ⟨link, hlink, rfl⟩) hlink rfl hlink' hlifetime
  refused := by
    rintro before c after rfl hcommit hrefused
    rw [run_snoc]
    exact step_refused hcommit hrefused
  pullKeepsPush := by
    rintro before after now checked queriedLink commit rfl key
    rw [run_snoc]
    exact step_pull_push now checked queriedLink commit key
  pushKeepsPull := by
    rintro before after now queriedLink commit rfl key
    rw [run_snoc]
    exact step_push_pull now queriedLink commit key

end Runs

end SyncNextProgressStore

/-! ## A retried delivery -/

/-- The runtime on the one endpoint and the first two milliseconds of the epoch. -/
@[reducible] def Runtime.ofEpoch : Runtime where
  newUrl s :=
    if s = "https://dwn.example.com" ∨ s = "https://dwn.example.com/" then
      some { protocol := "https:", path := "//dwn.example.com/" }
    else none
  dateParse s :=
    if s = "1970-01-01T00:00:00.000Z" then some 0
    else if s = "1970-01-01T00:00:00.001Z" then some 1
    else none
  isoString time := if time = 0 then "1970-01-01T00:00:00.000Z" else "1970-01-01T00:00:00.001Z"
  serializedLength _ := 80

namespace SyncNextProgressStore

local instance : Runtime := Runtime.ofEpoch

def aliceTarget : SyncNextLinkCreate where
  authorizationEpoch := "owner"
  projectionId := "all"
  remoteEndpoint := "https://dwn.example.com"
  tenantDid := "did:alice"
  authorization := .owner
  scope := .full

def aliceLink (pushCheckpoint : Option ProgressToken) : SyncNextLink where
  toSyncNextLinkCreate := aliceTarget
  lifetimeId := "lifetime"
  pushCheckpoint := pushCheckpoint
  updatedAt := "1970-01-01T00:00:00.000Z"

def sourceAt (position messageCid : String) : SyncNextSourceReceipt where
  messageCid := messageCid
  source := { streamId := "did:alice", epoch := "1", position, messageCid := some messageCid }

/-- A write that the remote does not take, and a later write of the same record that it takes. -/
def retriedDelivery : List TimedCall :=
  [⟨0, .getOrCreateLink aliceTarget "lifetime"⟩,
    ⟨0, .commitPushPage (aliceLink none)
      { checkpoint := (sourceAt "1" "draft").source
        pageReceipts := [sourceAt "1" "draft"]
        delivery := [{ sourceAt "1" "draft" with
          outcome := { reason := .remoteIncomplete }, writeRecordId := some "note"
          wasLatestBaseState := false }]
        handledWrites := [], settled := [] }⟩,
    ⟨0, .commitPushPage (aliceLink (some (sourceAt "1" "draft").source))
      { checkpoint := (sourceAt "2" "note").source
        pageReceipts := [sourceAt "2" "note"], delivery := []
        handledWrites := [{ recordId := "note", receipt := sourceAt "2" "note" }]
        settled := [sourceAt "2" "note"] }⟩]

/-- The first write is retained, and then covered by the second one. -/
theorem run_lossless_retriedDelivery :
    Lossless {} {} retriedDelivery ∧
    (run {} {} (retriedDelivery.take 2)).delivery.keys.length = 1 ∧
    (run {} {} retriedDelivery).delivery.keys.length = 0 := by
  refine ⟨run_lossless {} {} retriedDelivery .empty ⟨by decide +kernel, ?_⟩, by decide +kernel,
    by decide +kernel⟩
  intro key link hlink
  cases hlink

end SyncNextProgressStore

end Agent

end EnboxDwn
