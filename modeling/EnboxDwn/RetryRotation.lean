import EnboxDwn.RetryOrder
import Mathlib.Tactic.IntervalCases

/-! Retries of pending rows: which row an attempt takes, what a failed attempt writes, and which row
the next attempt takes. -/
namespace EnboxDwn.Agent
open Level CompareSort

section Retry
variable [R : Runtime]

/-! ## The row of the next attempt -/

/-- The pending rows one retry chooses from: those of a link that owes deliveries, or the
quarantined ones of a projection. -/
inductive RetryQueue where
  | delivery (target : SyncNextLinkIdentity)
  | quarantine (tenantDid projectionId : String)
  deriving DecidableEq, Repr

namespace SyncNextProgressStore

def getLink (identity : SyncNextLinkIdentity) (s : Progress) :
    Except Thrown (Option SyncNextLink) := do
  return get s.links (← syncNextLinkKey identity)

end SyncNextProgressStore

open SyncNextProgressStore

/-- The link of the target and the delivery row its next attempt takes. -/
def selectDelivery (target : SyncNextLinkIdentity) (s : Progress) :
    Except Thrown (Option (SyncNextLink × SyncNextDeliveryObligation)) := do
  match ← SyncNextProgressStore.getLink target s with
  | none => return none
  | some link => do
    let entries ← getDeliveryForLink link.toSyncNextLinkIdentity s
    let sorted ← sortBy (fun a b => compareSyncNextRetryOrder a.pending b.pending) entries
    return sorted.head?.map fun selected => (link, selected)

/-- The quarantined row the next attempt of the projection takes. -/
def selectQuarantined (tenantDid projectionId : String) (s : Progress) :
    Except Thrown (Option SyncNextQuarantineEntry) := do
  let entries ← getQuarantineForProjection tenantDid projectionId s
  let sorted ← sortBy (fun a b => compareSyncNextRetryOrder a.pending b.pending) entries
  return sorted.head?

def RetryQueue.rows (s : Progress) : RetryQueue → Except Thrown (List SyncNextPendingEntry)
  | .delivery target => do
    match ← SyncNextProgressStore.getLink target s with
    | none => return []
    | some link => do
      return (← getDeliveryForLink link.toSyncNextLinkIdentity s).map (·.pending)
  | .quarantine tenantDid projectionId => do
    return (← getQuarantineForProjection tenantDid projectionId s).map (·.pending)

def RetryQueue.select (s : Progress) :
    RetryQueue → Except Thrown (Option SyncNextPendingEntry)
  | .delivery target => do return (← selectDelivery target s).map fun x => x.2.pending
  | .quarantine tenantDid projectionId => do
    return (← selectQuarantined tenantDid projectionId s).map (·.pending)

/-! ## Failed attempts -/

/-- An attempt that fails: the clock when its end is recorded, and why a delivery failed. -/
structure FailedAttempt where
  now : Int
  outcome : SyncNextDeliveryOutcome

/-- Chooses a row and records that its attempt failed. -/
def RetryQueue.failAttempt (s : Progress) (a : FailedAttempt) : RetryQueue → Except Thrown Progress
  | .delivery target => do
    match ← selectDelivery target s with
    | none => return s
    | some (link, selected) => do
      return (← finishDeliveryAttempt a.now link selected (some a.outcome) s).2
  | .quarantine tenantDid projectionId => do
    match ← selectQuarantined tenantDid projectionId s with
    | none => return s
    | some selected => updateQuarantine a.now selected s

/-- An attempt whose end cannot be recorded leaves the rows as they were. -/
def RetryQueue.fail (q : RetryQueue) (s : Progress) (a : FailedAttempt) : Progress :=
  match q.failAttempt s a with
  | .ok s' => s'
  | .error _ => s

def RetryQueue.failAll (q : RetryQueue) (s : Progress) (attempts : List FailedAttempt) : Progress :=
  attempts.foldl q.fail s

/-- The row the next attempt takes, without the time of its last one. -/
def RetryQueue.next (q : RetryQueue) (s : Progress) :
    Except Thrown (Option (SyncNextLinkIdentity × SyncNextSourceReceipt)) := do
  return (← q.select s).map fun row => (row.toSyncNextLinkIdentity, row.toSyncNextSourceReceipt)

/-- No failed attempt of the sequence is followed by an attempt at the same row. -/
def RetryQueue.Rotates (q : RetryQueue) (s : Progress) (attempts : List FailedAttempt) : Prop :=
  ∀ before a after, attempts = before ++ a :: after →
    q.next (q.failAll s (before ++ [a])) ≠ q.next (q.failAll s before)

/-! ## When a failed row steps aside -/

/-- The later of the clock and the last attempt of the row. -/
def SyncNextPendingEntry.latest (row : SyncNextPendingEntry) (now : Int) : Int :=
  match R.dateParse row.lastAttemptAt with
  | none => now
  | some previous => max now previous

/-- The other row was last attempted no later than the clock reading or the last attempt of the
failed row, or one millisecond later and its receipt sorts first. -/
def TakesTurn (now : Int) (failed other : SyncNextPendingEntry) : Prop :=
  other.lastAttempt ≤ (failed.latest now : WithBot Int) ∨
    other.lastAttempt = ((failed.latest now + 1 : Int) : WithBot Int) ∧
      codeUnits other.keyText < codeUnits failed.keyText

/-- Some other row takes its turn, and the millisecond after is still a date. -/
structure StepsAside (rows : List SyncNextPendingEntry) (now : Int)
    (failed : SyncNextPendingEntry) : Prop where
  date : (failed.latest now + 1).natAbs ≤ 8640000000000000
  other : ∃ other ∈ rows, (other.toSyncNextLinkIdentity, other.toSyncNextSourceReceipt) ≠
    (failed.toSyncNextLinkIdentity, failed.toSyncNextSourceReceipt) ∧ TakesTurn now failed other

/-- The row an attempt takes is one that steps aside if it fails at this reading of the clock. -/
def RetryQueue.StepsAside (q : RetryQueue) (s : Progress) (now : Int) : Prop :=
  ∃ rows failed, q.rows s = .ok rows ∧ q.select s = .ok (some failed) ∧
    EnboxDwn.Agent.StepsAside rows now failed

/-! ## The next attempt after a failed one -/

/-- The rows of a queue have keys of their own. -/
structure Keyed (rows : List SyncNextPendingEntry) : Prop where
  keyed : ∀ x ∈ rows, ∃ key, x.key = .ok key
  unique : ∀ x ∈ rows, ∀ y ∈ rows, x.key = y.key → x = y

/-- The choice of a queue: one of its rows that no other comes before, if it has any. -/
structure Chooses (rows : List SyncNextPendingEntry) (choice : Option SyncNextPendingEntry) : Prop where
  none : choice = none → rows = []
  some : ∀ row, choice = some row → row ∈ rows ∧ ∀ x ∈ rows, retryRank row ≤ retryRank x

theorem Keyed.ranksBy {rows : List SyncNextPendingEntry} (h : Keyed rows) :
    RanksBy compareSyncNextRetryOrder retryRank rows := by
  intro x hx y hy
  obtain ⟨xKey, hxKey⟩ := h.keyed x hx
  obtain ⟨yKey, hyKey⟩ := h.keyed y hy
  obtain ⟨n, hn, -, hle⟩ := compare_eq_ok hxKey hyKey
  exact ⟨n, hn, hle⟩

/-- The first row after the sort is the choice. -/
theorem chooses_of_sortBy {α : Type} {pending : α → SyncNextPendingEntry} {entries : List α}
    (h : Keyed (entries.map pending)) :
    ∃ sorted, sortBy (fun a b => compareSyncNextRetryOrder (pending a) (pending b)) entries =
        .ok sorted ∧ sorted.Perm entries ∧
      Chooses (entries.map pending) (sorted.head?.map pending) := by
  have hranks : RanksBy (fun a b => compareSyncNextRetryOrder (pending a) (pending b))
      (fun a => retryRank (pending a)) entries := by
    intro x hx y hy
    exact h.ranksBy _ (List.mem_map_of_mem hx) _ (List.mem_map_of_mem hy)
  obtain ⟨sorted, hsorted, hperm, -⟩ := sortBy_eq_ok hranks
  refine ⟨sorted, hsorted, hperm, ?_, ?_⟩
  · intro hnone
    rw [Option.map_eq_none_iff, List.head?_eq_none_iff] at hnone
    rw [hnone] at hperm
    rw [hperm.nil_eq.symm, List.map_nil]
  · intro row hrow
    obtain ⟨e, he, rfl⟩ := Option.map_eq_some_iff.mp hrow
    obtain ⟨hmem, hleast⟩ := least_of_sortBy hranks hsorted he
    refine ⟨List.mem_map_of_mem hmem, ?_⟩
    intro x hx
    obtain ⟨e', he', rfl⟩ := List.mem_map.mp hx
    exact hleast e' he'

theorem nextAttemptAt_eq (now : Int) (row : SyncNextPendingEntry) :
    nextAttemptAt now row.lastAttemptAt = toISOString (row.latest now + 1) := by
  unfold nextAttemptAt SyncNextPendingEntry.latest
  cases R.dateParse row.lastAttemptAt with
  | none => rfl
  | some previous =>
    change toISOString (max (now + 1) (previous + 1)) = toISOString (max now previous + 1)
    have hmax : max (now + 1) (previous + 1) = max now previous + 1 := by omega
    rw [hmax]

/-- The runtime reads a time back from its text, for every time that is a date. -/
def ReadsDates (R : Runtime) : Prop :=
  ∀ time : Int, time.natAbs ≤ 8640000000000000 → R.dateParse (R.isoString time) = some time

/-- The row as its failed attempt leaves it. -/
def SyncNextPendingEntry.attempted (row : SyncNextPendingEntry) (now : Int) : SyncNextPendingEntry :=
  { row with lastAttemptAt := R.isoString (row.latest now + 1) }

theorem takesTurn_iff (hdates : ReadsDates R) {now : Int} {failed other : SyncNextPendingEntry}
    (hdate : (failed.latest now + 1).natAbs ≤ 8640000000000000) :
    TakesTurn now failed other ↔ retryRank other < retryRank (failed.attempted now) := by
  have htime : (failed.attempted now).lastAttempt = ((failed.latest now + 1 : Int) : WithBot Int) :=
    hdates _ hdate
  have hkey : (failed.attempted now).keyText = failed.keyText := rfl
  unfold TakesTurn retryRank
  rw [Prod.Lex.toLex_lt_toLex, htime, hkey]
  have hle : other.lastAttempt ≤ (failed.latest now : WithBot Int) ↔
      other.lastAttempt < ((failed.latest now + 1 : Int) : WithBot Int) := by
    cases other.lastAttempt with
    | bot => simp
    | coe time => rw [WithBot.coe_le_coe, WithBot.coe_lt_coe, Int.lt_add_one_iff]
  rw [hle]

theorem chooses_ne_iff (hdates : ReadsDates R) {rows rows' : List SyncNextPendingEntry}
    (hkeyed : Keyed rows) {now : Int} {failed row : SyncNextPendingEntry} (hfailed : failed ∈ rows)
    (hdate : (failed.latest now + 1).natAbs ≤ 8640000000000000)
    (hrows : ∀ x, x ∈ rows' ↔ x = failed.attempted now ∨ x ∈ rows ∧ x.key ≠ failed.key)
    (hrow : Chooses rows' (some row)) :
    (row.toSyncNextLinkIdentity, row.toSyncNextSourceReceipt) ≠
        (failed.toSyncNextLinkIdentity, failed.toSyncNextSourceReceipt) ↔
      StepsAside rows now failed := by
  have hsame : ∀ x y : SyncNextPendingEntry,
      (x.toSyncNextLinkIdentity, x.toSyncNextSourceReceipt) =
        (y.toSyncNextLinkIdentity, y.toSyncNextSourceReceipt) → x.key = y.key := by
    intro x y heq
    cases Prod.mk.inj heq with
    | intro hidentity hreceipt => rw [SyncNextPendingEntry.key, hidentity, hreceipt]; rfl
  obtain ⟨hmem, hleast⟩ := hrow.some row rfl
  constructor
  · intro hne
    refine ⟨hdate, row, ?_⟩
    cases (hrows row).mp hmem with
    | inl heq => exact absurd (by rw [heq]; rfl) hne
    | inr hold =>
      refine ⟨hold.1, hne, (takesTurn_iff hdates hdate).mpr ?_⟩
      have hle := hleast _ ((hrows _).mpr (Or.inl rfl))
      obtain ⟨rowKey, hrowKey⟩ := hkeyed.keyed row hold.1
      obtain ⟨failedKey, hfailedKey⟩ := hkeyed.keyed failed hfailed
      have hkeys : rowKey ≠ failedKey := by
        intro heq
        exact hold.2 (by rw [hrowKey, hfailedKey, heq])
      exact lt_of_le_of_ne hle (retryRank_ne hrowKey hfailedKey hkeys)
  · rintro ⟨-, other, hother, hne, hturn⟩ heq
    have hkey : other.key ≠ failed.key := by
      intro hkey
      exact hne (by rw [hkeyed.unique other hother failed hfailed hkey])
    have hrow : row = failed.attempted now := by
      cases (hrows row).mp hmem with
      | inl heq => exact heq
      | inr hold => exact absurd (hsame row failed heq) hold.2
    have hlt := (takesTurn_iff hdates hdate).mp hturn
    have hle := hleast other ((hrows other).mpr (Or.inr ⟨hother, hkey⟩))
    rw [hrow] at hle
    exact absurd hlt (not_lt.mpr hle)

/-! ## Delivery rows -/

section Delivery
variable {s : Progress} {target : SyncNextLinkIdentity} {key : String} {link : SyncNextLink}

theorem mem_deliveryRows (hkept : Kept s) (hkey : syncNextLinkKey target = .ok key)
    {e : SyncNextDeliveryObligation} :
    e ∈ readKeys (keyRange key) s.delivery ↔
      get s.delivery (rowKey key e.toSyncNextSourceReceipt) = some e := by
  constructor
  · exact hkept.get_of_mem_delivery hkey
  · intro hget
    refine List.mem_map.mpr ⟨(_, e), mem_entries.mpr ⟨hget, ?_⟩, rfl⟩
    exact (keyRange_rowKey hkey hkey _).mpr rfl

/-- A row of the link has the key under which it is stored. -/
theorem key_of_mem_delivery (hkept : Kept s) (hkey : syncNextLinkKey target = .ok key)
    {e : SyncNextDeliveryObligation} (he : e ∈ readKeys (keyRange key) s.delivery) :
    syncNextLinkKey e.toSyncNextLinkIdentity = .ok key ∧
      e.pending.key = .ok (rowKey key e.toSyncNextSourceReceipt) := by
  have hget := (mem_deliveryRows hkept hkey).mp he
  obtain ⟨linkKey, hlinkKey, heq⟩ := hkept.delivery _ _ hget
  obtain ⟨rfl, -⟩ := rowKey_inj hkey hlinkKey heq
  exact ⟨hlinkKey, syncNextReceiptKey_eq hlinkKey _⟩

theorem keyed_delivery (hkept : Kept s) (hkey : syncNextLinkKey target = .ok key) :
    Keyed ((readKeys (keyRange key) s.delivery).map (·.pending)) := by
  constructor
  · intro x hx
    obtain ⟨e, he, rfl⟩ := List.mem_map.mp hx
    exact ⟨_, (key_of_mem_delivery hkept hkey he).2⟩
  · intro x hx y hy heq
    obtain ⟨e, he, rfl⟩ := List.mem_map.mp hx
    obtain ⟨e', he', rfl⟩ := List.mem_map.mp hy
    rw [(key_of_mem_delivery hkept hkey he).2, (key_of_mem_delivery hkept hkey he').2,
      Except.ok.injEq] at heq
    have hget := (mem_deliveryRows hkept hkey).mp he
    rw [heq, (mem_deliveryRows hkept hkey).mp he', Option.some.injEq] at hget
    rw [hget]

theorem rows_delivery (hkept : Kept s) (hkey : syncNextLinkKey target = .ok key)
    (hlink : get s.links key = some link) :
    (RetryQueue.delivery target).rows s =
      .ok ((readKeys (keyRange key) s.delivery).map (·.pending)) := by
  have hlinkKey : syncNextLinkKey link.toSyncNextLinkIdentity = .ok key := hkept.links key link hlink
  unfold RetryQueue.rows SyncNextProgressStore.getLink
  dsimp only
  rw [hkey, ok_bind]
  change (match get s.links key with | none => _ | some link => _) = _
  rw [hlink]
  dsimp only
  rw [getDeliveryForLink_eq hlinkKey]
  rfl

theorem selectDelivery_eq (hkept : Kept s) (hkey : syncNextLinkKey target = .ok key)
    (hlink : get s.links key = some link) :
    ∃ sorted : List SyncNextDeliveryObligation, selectDelivery target s = .ok (sorted.head?.map fun selected => (link, selected)) ∧
      sorted.Perm (readKeys (keyRange key) s.delivery) ∧
      Chooses ((readKeys (keyRange key) s.delivery).map (·.pending))
        (sorted.head?.map (·.pending)) := by
  have hlinkKey : syncNextLinkKey link.toSyncNextLinkIdentity = .ok key := hkept.links key link hlink
  obtain ⟨sorted, hsorted, hperm, hchooses⟩ := chooses_of_sortBy (keyed_delivery hkept hkey)
  refine ⟨sorted, ?_, hperm, hchooses⟩
  unfold selectDelivery SyncNextProgressStore.getLink
  rw [hkey, ok_bind]
  change (match get s.links key with | none => _ | some link => _) = _
  rw [hlink]
  dsimp only
  rw [getDeliveryForLink_eq hlinkKey, ok_bind, hsorted]
  rfl

theorem finishDeliveryAttempt_failed (hkept : Kept s) (hkey : syncNextLinkKey target = .ok key)
    (hlink : get s.links key = some link) {selected : SyncNextDeliveryObligation}
    (hselected : selected ∈ readKeys (keyRange key) s.delivery) (now : Int)
    (outcome : SyncNextDeliveryOutcome) :
    finishDeliveryAttempt now link selected (some outcome) s = (do
      let lastAttemptAt ← toISOString (selected.pending.latest now + 1)
      return (true, { s with
        delivery := batch [.put (rowKey key selected.toSyncNextSourceReceipt)
          { selected with lastAttemptAt, outcome }] s.delivery })) := by
  have hlinkKey : syncNextLinkKey link.toSyncNextLinkIdentity = .ok key := hkept.links key link hlink
  have hcurrent : currentLink key link s = some link := currentLink_eq_some.mpr ⟨hlink, rfl⟩
  unfold finishDeliveryAttempt
  rw [hlinkKey, ok_bind, (key_of_mem_delivery hkept hkey hselected).1, ok_bind]
  rw [if_neg (not_not.mpr rfl), hcurrent]
  dsimp only
  rw [(mem_deliveryRows hkept hkey).mp hselected]
  dsimp only
  rw [if_neg (by simp)]
  change (nextAttemptAt now selected.pending.lastAttemptAt >>= _) = _
  rw [nextAttemptAt_eq]

theorem mem_delivery_failed (hkept : Kept s) (hkey : syncNextLinkKey target = .ok key)
    {selected : SyncNextDeliveryObligation}
    (hselected : selected ∈ readKeys (keyRange key) s.delivery) {now : Int}
    {outcome : SyncNextDeliveryOutcome} {s' : Progress} (hkept' : Kept s')
    (hdelivery : s'.delivery = batch [.put (rowKey key selected.toSyncNextSourceReceipt)
      { selected with lastAttemptAt := R.isoString (selected.pending.latest now + 1), outcome }]
        s.delivery) (x : SyncNextPendingEntry) :
    x ∈ (readKeys (keyRange key) s'.delivery).map (·.pending) ↔
      x = selected.pending.attempted now ∨
        x ∈ (readKeys (keyRange key) s.delivery).map (·.pending) ∧ x.key ≠ selected.pending.key := by
  have hselectedKey := (key_of_mem_delivery hkept hkey hselected).2
  constructor
  · intro hx
    obtain ⟨e, he, rfl⟩ := List.mem_map.mp hx
    have hget := (mem_deliveryRows hkept' hkey).mp he
    rw [hdelivery, get_batch_put_one] at hget
    split at hget
    · rw [Option.some.injEq] at hget
      rw [← hget]
      exact Or.inl rfl
    · next hne =>
      have hold := (mem_deliveryRows hkept hkey).mpr hget
      refine Or.inr ⟨List.mem_map_of_mem hold, ?_⟩
      rw [(key_of_mem_delivery hkept hkey hold).2, hselectedKey]
      simpa using hne
  · intro hx
    cases hx with
    | inl heq =>
      subst heq
      refine List.mem_map.mpr ⟨{ selected with
        lastAttemptAt := R.isoString (selected.pending.latest now + 1), outcome }, ?_, rfl⟩
      rw [mem_deliveryRows hkept' hkey, hdelivery, get_batch_put_one]
      exact if_pos rfl
    | inr hold =>
      obtain ⟨e, he, rfl⟩ := List.mem_map.mp hold.1
      refine List.mem_map_of_mem ((mem_deliveryRows hkept' hkey).mpr ?_)
      rw [hdelivery, get_batch_put_one, if_neg, (mem_deliveryRows hkept hkey).mp he]
      intro heq
      apply hold.2
      rw [(key_of_mem_delivery hkept hkey he).2, hselectedKey, heq]

end Delivery

/-! ## Quarantined rows -/

section Quarantine
variable {s : Progress} {tenantDid projectionId : String} {rows : List SyncNextQuarantineEntry}

omit R in
theorem exists_mapM {α β : Type} {f : α → Except Thrown β} {xs : List α}
    (h : ∀ x ∈ xs, ∃ y, f x = .ok y) : ∃ ys, xs.mapM f = .ok ys := by
  induction xs with
  | nil => exact ⟨[], rfl⟩
  | cons x xs ih =>
    obtain ⟨y, hy⟩ := h x List.mem_cons_self
    obtain ⟨ys, hys⟩ := ih fun x' hx' => h x' (List.mem_cons_of_mem _ hx')
    rw [List.mapM_cons, hy, ok_bind, hys]
    exact ⟨y :: ys, rfl⟩

omit R in
theorem validateQuarantineAccounting_eq_ok {row : QuarantineRow} {e : SyncNextQuarantineEntry} :
    validateQuarantineAccounting row = .ok e ↔
      row = .entry e ∧ e.entrySize ≤ maxQuarantineEntryBytes := by
  cases row with
  | encrypted =>
    constructor
    · intro h
      cases h
    · intro h
      cases h.1
  | entry e' =>
    unfold validateQuarantineAccounting
    dsimp only
    split
    · next hlarge =>
      constructor
      · intro h
        cases h
      · rintro ⟨heq, hsize⟩
        cases heq
        exact absurd hsize (not_le.mpr hlarge)
    · next hsmall =>
      constructor
      · intro h
        cases h
        exact ⟨rfl, not_lt.mp hsmall⟩
      · rintro ⟨heq, -⟩
        cases heq
        rfl

/-- A quarantined row of the projection, under the key of its own link. -/
structure InProjection (s : Progress) (tenantDid projectionId : String)
    (e : SyncNextQuarantineEntry) (key : String) : Prop where
  key_eq : e.pending.key = .ok key
  stored : get s.quarantine key = some (.entry e)
  tenant : e.tenantDid = tenantDid
  projection : e.projectionId = projectionId
  size : e.entrySize ≤ maxQuarantineEntryBytes

theorem stored_of_mem (hkept : Kept s) {row : QuarantineRow}
    (hrow : row ∈ readKeys (syncNextTenantRange tenantDid) s.quarantine)
    {e : SyncNextQuarantineEntry} (he : row = .entry e) :
    ∃ key, e.pending.key = .ok key ∧ get s.quarantine key = some (.entry e) ∧
      e.tenantDid = tenantDid := by
  obtain ⟨⟨key, row'⟩, hentry, rfl⟩ := List.mem_map.mp hrow
  obtain ⟨hget, hrange⟩ := mem_entries.mp hentry
  dsimp only at he
  subst he
  obtain ⟨linkKey, hlinkKey, rfl⟩ := hkept.quarantine key _ hget e rfl
  exact ⟨_, syncNextReceiptKey_eq hlinkKey _, hget, ((tenantRange_rowKey hlinkKey _ _).mp hrange).symm⟩

theorem mem_of_stored {key : String} {e : SyncNextQuarantineEntry} (hkey : e.pending.key = .ok key)
    (hget : get s.quarantine key = some (.entry e)) :
    .entry e ∈ readKeys (syncNextTenantRange e.tenantDid) s.quarantine := by
  obtain ⟨linkKey, hlinkKey, heq⟩ := bind_eq_ok hkey
  cases heq
  exact List.mem_map.mpr
    ⟨(_, .entry e), mem_entries.mpr ⟨hget, (tenantRange_rowKey hlinkKey _ _).mpr rfl⟩, rfl⟩

theorem mem_projection (hkept : Kept s)
    (hrows : getQuarantineForProjection tenantDid projectionId s = .ok rows)
    {e : SyncNextQuarantineEntry} :
    e ∈ rows ↔ ∃ key, InProjection s tenantDid projectionId e key := by
  obtain ⟨entries, hentries, hfilter⟩ := bind_eq_ok hrows
  cases hfilter
  rw [List.mem_filter, decide_eq_true_eq]
  constructor
  · rintro ⟨hmem, hprojection⟩
    obtain ⟨row, hrow, hvalid⟩ := mem_of_mapM hentries hmem
    obtain ⟨hentry, hsize⟩ := validateQuarantineAccounting_eq_ok.mp hvalid
    obtain ⟨key, hkey, hget, htenant⟩ := stored_of_mem hkept hrow hentry
    exact ⟨key, hkey, hget, htenant, hprojection, hsize⟩
  · rintro ⟨key, h⟩
    have hmem := mem_of_stored h.key_eq h.stored
    rw [h.tenant] at hmem
    obtain ⟨e', he', hvalid⟩ := exists_of_mapM hentries hmem
    cases (validateQuarantineAccounting_eq_ok.mp hvalid).1
    exact ⟨he', h.projection⟩

theorem keyed_quarantine (hkept : Kept s)
    (hrows : getQuarantineForProjection tenantDid projectionId s = .ok rows) :
    Keyed (rows.map (·.pending)) := by
  constructor
  · intro x hx
    obtain ⟨e, he, rfl⟩ := List.mem_map.mp hx
    obtain ⟨key, hkey⟩ := (mem_projection hkept hrows).mp he
    exact ⟨key, hkey.key_eq⟩
  · intro x hx y hy heq
    obtain ⟨e, he, rfl⟩ := List.mem_map.mp hx
    obtain ⟨e', he', rfl⟩ := List.mem_map.mp hy
    obtain ⟨key, hkey⟩ := (mem_projection hkept hrows).mp he
    obtain ⟨key', hkey'⟩ := (mem_projection hkept hrows).mp he'
    rw [hkey.key_eq, hkey'.key_eq, Except.ok.injEq] at heq
    have hget := hkey.stored
    rw [heq, hkey'.stored, Option.some.injEq, QuarantineRow.entry.injEq] at hget
    rw [hget]

theorem selectQuarantined_eq (hkept : Kept s)
    (hrows : getQuarantineForProjection tenantDid projectionId s = .ok rows) :
    ∃ sorted : List SyncNextQuarantineEntry,
      selectQuarantined tenantDid projectionId s = .ok sorted.head? ∧ sorted.Perm rows ∧
      Chooses (rows.map (·.pending)) (sorted.head?.map (·.pending)) := by
  obtain ⟨sorted, hsorted, hperm, hchooses⟩ := chooses_of_sortBy (keyed_quarantine hkept hrows)
  refine ⟨sorted, ?_, hperm, hchooses⟩
  unfold selectQuarantined
  rw [hrows, ok_bind, hsorted]
  rfl

theorem updateQuarantine_failed {selected : SyncNextQuarantineEntry} {key : String}
    (hselected : InProjection s tenantDid projectionId selected key) (now : Int) :
    updateQuarantine now selected s = (do
      let lastAttemptAt ← toISOString (selected.pending.latest now + 1)
      return { s with
        quarantine := batch [.put key (.entry { selected with lastAttemptAt })] s.quarantine }) := by
  have hkey : syncNextReceiptKey selected.toSyncNextLinkIdentity selected.toSyncNextSourceReceipt =
      .ok key := hselected.key_eq
  unfold updateQuarantine
  rw [hkey, ok_bind, hselected.stored]
  change (nextAttemptAt now selected.pending.lastAttemptAt >>= _) = _
  rw [nextAttemptAt_eq]

theorem projection_failed (hkept : Kept s)
    (hrows : getQuarantineForProjection tenantDid projectionId s = .ok rows)
    {selected : SyncNextQuarantineEntry} {key : String}
    (hselected : InProjection s tenantDid projectionId selected key) {now : Int} {s' : Progress}
    (hkept' : Kept s')
    (hquarantine : s'.quarantine = batch [.put key (.entry { selected with
      lastAttemptAt := R.isoString (selected.pending.latest now + 1) })] s.quarantine) :
    ∃ rows', getQuarantineForProjection tenantDid projectionId s' = .ok rows' ∧
      ∀ x, x ∈ rows'.map (·.pending) ↔ x = selected.pending.attempted now ∨
        x ∈ rows.map (·.pending) ∧ x.key ≠ selected.pending.key := by
  have hvalid : ∀ row ∈ readKeys (syncNextTenantRange tenantDid) s'.quarantine,
      ∃ e, validateQuarantineAccounting row = .ok e := by
    intro row hrow
    obtain ⟨⟨key', row'⟩, hentry, rfl⟩ := List.mem_map.mp hrow
    obtain ⟨hget, hrange⟩ := mem_entries.mp hentry
    rw [hquarantine, get_batch_put_one] at hget
    split at hget
    · cases hget
      exact ⟨_, validateQuarantineAccounting_eq_ok.mpr ⟨rfl, hselected.size⟩⟩
    · obtain ⟨entries, hentries, -⟩ := bind_eq_ok hrows
      obtain ⟨e, -, he⟩ := exists_of_mapM hentries
        (List.mem_map.mpr ⟨(key', row'), mem_entries.mpr ⟨hget, hrange⟩, rfl⟩)
      exact ⟨e, he⟩
  obtain ⟨entries', hentries'⟩ := exists_mapM hvalid
  have hrows' : getQuarantineForProjection tenantDid projectionId s' =
      .ok (entries'.filter fun entry => entry.projectionId = projectionId) := by
    unfold getQuarantineForProjection readQuarantine
    rw [hentries']
    rfl
  refine ⟨_, hrows', ?_⟩
  intro x
  constructor
  · intro hx
    obtain ⟨e, he, rfl⟩ := List.mem_map.mp hx
    obtain ⟨key', hkey'⟩ := (mem_projection hkept' hrows').mp he
    have hget := hkey'.stored
    rw [hquarantine, get_batch_put_one] at hget
    split at hget
    · rw [Option.some.injEq, QuarantineRow.entry.injEq] at hget
      rw [← hget]
      exact Or.inl rfl
    · next hne =>
      have hold : InProjection s tenantDid projectionId e key' := { hkey' with stored := hget }
      refine Or.inr ⟨List.mem_map_of_mem ((mem_projection hkept hrows).mpr ⟨key', hold⟩), ?_⟩
      rw [hkey'.key_eq, hselected.key_eq]
      simpa using hne
  · intro hx
    cases hx with
    | inl heq =>
      subst heq
      refine List.mem_map.mpr ⟨{ selected with
        lastAttemptAt := R.isoString (selected.pending.latest now + 1) }, ?_, rfl⟩
      refine (mem_projection hkept' hrows').mpr ⟨key, hselected.key_eq, ?_, hselected.tenant,
        hselected.projection, hselected.size⟩
      rw [hquarantine, get_batch_put_one]
      exact if_pos rfl
    | inr hold =>
      obtain ⟨e, he, rfl⟩ := List.mem_map.mp hold.1
      obtain ⟨key', hkey'⟩ := (mem_projection hkept hrows).mp he
      refine List.mem_map_of_mem ((mem_projection hkept' hrows').mpr
        ⟨key', { hkey' with stored := ?_ }⟩)
      rw [hquarantine, get_batch_put_one, if_neg, hkey'.stored]
      intro heq
      apply hold.2
      rw [hkey'.key_eq, hselected.key_eq, heq]

end Quarantine

/-! ## One failed attempt -/

/-- What a failed attempt at the chosen row does: nothing if its end is no date, and otherwise it
gives the row its new time and leaves the rest. -/
structure Attempt (q : RetryQueue) (s : Progress) (a : FailedAttempt)
    (rows : List SyncNextPendingEntry) (failed : SyncNextPendingEntry) : Prop where
  rows_eq : q.rows s = .ok rows
  keyed : Keyed rows
  select_eq : q.select s = .ok (some failed)
  mem : failed ∈ rows
  undated : ¬ (failed.latest a.now + 1).natAbs ≤ 8640000000000000 → q.fail s a = s
  dated : (failed.latest a.now + 1).natAbs ≤ 8640000000000000 →
    ∃ rows' choice, q.select (q.fail s a) = .ok choice ∧ Chooses rows' choice ∧
      ∀ x, x ∈ rows' ↔ x = failed.attempted a.now ∨ x ∈ rows ∧ x.key ≠ failed.key

/-- An attempt that finds no row leaves everything as it is. -/
structure Idle (q : RetryQueue) (s : Progress) (a : FailedAttempt) : Prop where
  fail_eq : q.fail s a = s
  select_ne : ∀ failed, q.select s ≠ .ok (some failed)

theorem toISOString_eq (time : Int) :
    toISOString time = if time.natAbs ≤ 8640000000000000 then .ok (R.isoString time)
      else .error (.rangeError "Invalid time value") := rfl

theorem fail_of_ok {q : RetryQueue} {s s' : Progress} {a : FailedAttempt}
    (h : q.failAttempt s a = .ok s') : q.fail s a = s' := by
  unfold RetryQueue.fail
  rw [h]

theorem fail_of_error {q : RetryQueue} {s : Progress} {a : FailedAttempt} {e : Thrown}
    (h : q.failAttempt s a = .error e) : q.fail s a = s := by
  unfold RetryQueue.fail
  rw [h]

theorem idle_of_select {q : RetryQueue} {s : Progress} (a : FailedAttempt)
    (hselect : ∀ failed, q.select s ≠ .ok (some failed)) : Idle q s a := by
  have hattempt : (∃ e, q.failAttempt s a = .error e) ∨ q.failAttempt s a = .ok s := by
    unfold RetryQueue.select at hselect
    unfold RetryQueue.failAttempt
    cases q with
    | delivery target =>
      dsimp only at hselect ⊢
      cases hx : selectDelivery target s with
      | error e => exact Or.inl ⟨e, rfl⟩
      | ok choice =>
        cases choice with
        | none => exact Or.inr rfl
        | some x =>
          rw [hx] at hselect
          exact absurd rfl (hselect x.2.pending)
    | quarantine tenantDid projectionId =>
      dsimp only at hselect ⊢
      cases hx : selectQuarantined tenantDid projectionId s with
      | error e => exact Or.inl ⟨e, rfl⟩
      | ok choice =>
        cases choice with
        | none => exact Or.inr rfl
        | some x =>
          rw [hx] at hselect
          exact absurd rfl (hselect x.pending)
  obtain ⟨e, h⟩ | h := hattempt
  · exact ⟨fail_of_error h, hselect⟩
  · exact ⟨fail_of_ok h, hselect⟩

/-- The attempt at the chosen row records its end, where that is a date. -/
theorem attempt_of_failAttempt {q : RetryQueue} {s : Progress} {a : FailedAttempt}
    {rows : List SyncNextPendingEntry} {failed : SyncNextPendingEntry} {record : String → Progress}
    (hkept : Kept s) (hrows : q.rows s = .ok rows) (hkeyed : Keyed rows)
    (hselect : q.select s = .ok (some failed)) (hmem : failed ∈ rows)
    (hattempt : q.failAttempt s a = (do return record (← toISOString (failed.latest a.now + 1))))
    (hdated : q.fail s a = record (R.isoString (failed.latest a.now + 1)) → Kept (q.fail s a) ∧
      ∃ rows' choice, q.select (q.fail s a) = .ok choice ∧ Chooses rows' choice ∧
        ∀ x, x ∈ rows' ↔ x = failed.attempted a.now ∨ x ∈ rows ∧ x.key ≠ failed.key) :
    Kept (q.fail s a) ∧ Attempt q s a rows failed := by
  rw [toISOString_eq] at hattempt
  by_cases hdate : (failed.latest a.now + 1).natAbs ≤ 8640000000000000
  · rw [if_pos hdate] at hattempt
    obtain ⟨hkept', hrest⟩ := hdated (fail_of_ok hattempt)
    exact ⟨hkept', hrows, hkeyed, hselect, hmem, fun hnot => absurd hdate hnot, fun _ => hrest⟩
  · rw [if_neg hdate] at hattempt
    have hfail := fail_of_error hattempt
    exact ⟨hfail.symm ▸ hkept, hrows, hkeyed, hselect, hmem, fun _ => hfail, fun h => absurd h hdate⟩

section Delivery
variable {s : Progress} {target : SyncNextLinkIdentity} {key : String} {link : SyncNextLink}

theorem select_delivery {l : List SyncNextDeliveryObligation}
    (hselect : selectDelivery target s = .ok (l.head?.map fun selected => (link, selected))) :
    (RetryQueue.delivery target).select s = .ok (l.head?.map (·.pending)) := by
  unfold RetryQueue.select
  dsimp only
  rw [hselect]
  cases l <;> rfl

section Selected
variable (hkept : Kept s) (hkey : syncNextLinkKey target = .ok key)
    (hlink : get s.links key = some link) {selected : SyncNextDeliveryObligation}
    (hselect : selectDelivery target s = .ok (some (link, selected)))
    (hmem : selected ∈ readKeys (keyRange key) s.delivery) (a : FailedAttempt)
include hkept hkey hlink hselect hmem

theorem failAttempt_delivery :
    (RetryQueue.delivery target).failAttempt s a = (do
      let lastAttemptAt ← toISOString (selected.pending.latest a.now + 1)
      return { s with
        delivery := batch [.put (rowKey key selected.toSyncNextSourceReceipt)
          { selected with lastAttemptAt, outcome := a.outcome }] s.delivery }) := by
  unfold RetryQueue.failAttempt
  dsimp only
  rw [hselect, ok_bind]
  dsimp only
  rw [finishDeliveryAttempt_failed hkept hkey hlink hmem]
  cases toISOString (selected.pending.latest a.now + 1) <;> rfl

theorem attempt_delivery_selected :
    Kept ((RetryQueue.delivery target).fail s a) ∧ Attempt (.delivery target) s a
      ((readKeys (keyRange key) s.delivery).map (·.pending)) selected.pending := by
  refine attempt_of_failAttempt hkept (rows_delivery hkept hkey hlink) (keyed_delivery hkept hkey)
    (select_delivery (l := [selected]) hselect) (List.mem_map_of_mem hmem)
    (failAttempt_delivery hkept hkey hlink hselect hmem a) fun hfail => ?_
  have hkept' : Kept ((RetryQueue.delivery target).fail s a) := by
    rw [hfail]
    exact @Kept.attempted _ s _ hkept a.now key selected (some a.outcome)
      (.rotated ((mem_deliveryRows hkept hkey).mp hmem))
  have hlink' : get ((RetryQueue.delivery target).fail s a).links key = some link := by
    rw [hfail]
    exact hlink
  obtain ⟨sorted', hselect', -, hchooses'⟩ := selectDelivery_eq hkept' hkey hlink'
  exact ⟨hkept', _, _, select_delivery hselect', hchooses',
    mem_delivery_failed hkept hkey hmem hkept' (congrArg Progress.delivery hfail)⟩

end Selected

theorem attempt_delivery (hkept : Kept s) {failed : SyncNextPendingEntry}
    (hfailed : (RetryQueue.delivery target).select s = .ok (some failed)) (a : FailedAttempt) :
    Kept ((RetryQueue.delivery target).fail s a) ∧
      ∃ rows failed, Attempt (.delivery target) s a rows failed := by
  obtain ⟨choice, hselect, hchoice⟩ := bind_eq_ok hfailed
  cases choice with
  | none => cases hchoice
  | some x =>
    obtain ⟨link, selected⟩ := x
    obtain ⟨found, hfound, hrest⟩ := bind_eq_ok hselect
    obtain ⟨key, hkey, hget⟩ := bind_eq_ok hfound
    rw [← Except.ok.inj hget] at hrest
    cases hlink : get s.links key with
    | none =>
      rw [hlink] at hrest
      cases hrest
    | some link' =>
      obtain ⟨sorted, hsorted, hperm, -⟩ := selectDelivery_eq hkept hkey hlink
      rw [hsorted, Except.ok.injEq] at hselect
      obtain ⟨e, he, heq⟩ := Option.map_eq_some_iff.mp hselect
      cases heq
      obtain ⟨rest, rfl⟩ := List.head?_eq_some_iff.mp he
      obtain ⟨hkept', hattempt⟩ := attempt_delivery_selected hkept hkey hlink hsorted
        (hperm.mem_iff.mp List.mem_cons_self) a
      exact ⟨hkept', _, _, hattempt⟩

end Delivery

section Quarantine
variable {s : Progress} {tenantDid projectionId : String}

theorem select_quarantine {choice : Option SyncNextQuarantineEntry}
    (hselect : selectQuarantined tenantDid projectionId s = .ok choice) :
    (RetryQueue.quarantine tenantDid projectionId).select s = .ok (choice.map (·.pending)) := by
  unfold RetryQueue.select
  dsimp only
  rw [hselect]
  rfl

theorem rows_quarantine {rows : List SyncNextQuarantineEntry}
    (hrows : getQuarantineForProjection tenantDid projectionId s = .ok rows) :
    (RetryQueue.quarantine tenantDid projectionId).rows s = .ok (rows.map (·.pending)) := by
  unfold RetryQueue.rows
  dsimp only
  rw [hrows]
  rfl

theorem failAttempt_quarantine {selected : SyncNextQuarantineEntry} {key : String}
    (hselect : selectQuarantined tenantDid projectionId s = .ok (some selected))
    (hin : InProjection s tenantDid projectionId selected key) (a : FailedAttempt) :
    (RetryQueue.quarantine tenantDid projectionId).failAttempt s a = (do
      let lastAttemptAt ← toISOString (selected.pending.latest a.now + 1)
      return { s with
        quarantine := batch [.put key (.entry { selected with lastAttemptAt })] s.quarantine }) := by
  unfold RetryQueue.failAttempt
  dsimp only
  rw [hselect, ok_bind]
  exact updateQuarantine_failed hin a.now

theorem attempt_quarantine_selected (hkept : Kept s) {rows : List SyncNextQuarantineEntry}
    (hrows : getQuarantineForProjection tenantDid projectionId s = .ok rows)
    {selected : SyncNextQuarantineEntry}
    (hselect : selectQuarantined tenantDid projectionId s = .ok (some selected))
    (hmem : selected ∈ rows) (a : FailedAttempt) :
    Kept ((RetryQueue.quarantine tenantDid projectionId).fail s a) ∧
      Attempt (.quarantine tenantDid projectionId) s a (rows.map (·.pending)) selected.pending := by
  obtain ⟨key, hin⟩ := (mem_projection hkept hrows).mp hmem
  refine attempt_of_failAttempt hkept (rows_quarantine hrows) (keyed_quarantine hkept hrows)
    (select_quarantine hselect) (List.mem_map_of_mem hmem) (failAttempt_quarantine hselect hin a)
    fun hfail => ?_
  have hkept' : Kept ((RetryQueue.quarantine tenantDid projectionId).fail s a) := by
    rw [hfail]
    refine ⟨hkept.links, hkept.delivery, hkept.quarantine.put ?_⟩
    intro e heq
    cases heq
    exact hkept.quarantine _ _ hin.stored selected rfl
  obtain ⟨rows', hrows', hmem'⟩ := projection_failed hkept hrows hin hkept'
    (congrArg Progress.quarantine hfail)
  obtain ⟨sorted', hselect', -, hchooses'⟩ := selectQuarantined_eq hkept' hrows'
  exact ⟨hkept', _, _, select_quarantine hselect', hchooses', hmem'⟩

theorem attempt_quarantine (hkept : Kept s) {failed : SyncNextPendingEntry}
    (hfailed : (RetryQueue.quarantine tenantDid projectionId).select s = .ok (some failed))
    (a : FailedAttempt) :
    Kept ((RetryQueue.quarantine tenantDid projectionId).fail s a) ∧
      ∃ rows failed, Attempt (.quarantine tenantDid projectionId) s a rows failed := by
  obtain ⟨choice, hselect, hchoice⟩ := bind_eq_ok hfailed
  cases choice with
  | none => cases hchoice
  | some selected =>
    obtain ⟨rows, hrows, -⟩ := bind_eq_ok hselect
    obtain ⟨sorted, hsorted, hperm, -⟩ := selectQuarantined_eq hkept hrows
    have hhead : sorted.head? = some selected := by
      rw [hsorted, Except.ok.injEq] at hselect
      exact hselect
    obtain ⟨rest, rfl⟩ := List.head?_eq_some_iff.mp hhead
    obtain ⟨hkept', hattempt⟩ := attempt_quarantine_selected hkept hrows hselect
      (hperm.mem_iff.mp List.mem_cons_self) a
    exact ⟨hkept', _, _, hattempt⟩

end Quarantine

theorem attempt_cases {s : Progress} (hkept : Kept s) (q : RetryQueue) (a : FailedAttempt) :
    Kept (q.fail s a) ∧ (Idle q s a ∨ ∃ rows failed, Attempt q s a rows failed) := by
  by_cases hidle : ∀ failed, q.select s ≠ .ok (some failed)
  · have hs := idle_of_select a hidle
    exact ⟨hs.fail_eq.symm ▸ hkept, Or.inl hs⟩
  · push Not at hidle
    obtain ⟨failed, hfailed⟩ := hidle
    cases q with
    | delivery target => exact (attempt_delivery hkept hfailed a).imp_right Or.inr
    | quarantine tenantDid projectionId =>
      exact (attempt_quarantine hkept hfailed a).imp_right Or.inr

/-! ## Sequences of failed attempts -/

theorem next_of_select {q : RetryQueue} {s : Progress} {choice : Option SyncNextPendingEntry}
    (h : q.select s = .ok choice) :
    q.next s = .ok (choice.map fun row =>
      (row.toSyncNextLinkIdentity, row.toSyncNextSourceReceipt)) := by
  unfold RetryQueue.next
  rw [h]
  rfl

/-- The next attempt is at another row exactly when the failed one steps aside. -/
theorem next_fail_ne_iff (hdates : ReadsDates R) {s : Progress} (hkept : Kept s) (q : RetryQueue)
    (a : FailedAttempt) : q.next (q.fail s a) ≠ q.next s ↔ q.StepsAside s a.now := by
  cases (attempt_cases hkept q a).2 with
  | inl hidle =>
    rw [hidle.fail_eq]
    constructor
    · intro hne
      exact absurd rfl hne
    · rintro ⟨rows, failed, -, hselect, -⟩
      exact absurd hselect (hidle.select_ne failed)
  | inr hattempt =>
    obtain ⟨rows, failed, h⟩ := hattempt
    have hcondition : q.StepsAside s a.now ↔ StepsAside rows a.now failed := by
      constructor
      · rintro ⟨rows', failed', hrows', hselect', haside⟩
        rw [h.rows_eq] at hrows'
        rw [h.select_eq] at hselect'
        cases hrows'
        cases hselect'
        exact haside
      · intro haside
        exact ⟨rows, failed, h.rows_eq, h.select_eq, haside⟩
    rw [hcondition]
    by_cases hdate : (failed.latest a.now + 1).natAbs ≤ 8640000000000000
    · obtain ⟨rows', choice, hselect', hchooses, hmem⟩ := h.dated hdate
      cases choice with
      | none =>
        have hempty := hchooses.none rfl
        have hrow := (hmem (failed.attempted a.now)).mpr (Or.inl rfl)
        rw [hempty] at hrow
        cases hrow
      | some row =>
        rw [← chooses_ne_iff hdates h.keyed h.mem hdate hmem hchooses, next_of_select hselect',
          next_of_select h.select_eq]
        simp
    · rw [h.undated hdate]
      constructor
      · intro hne
        exact absurd rfl hne
      · intro haside
        exact absurd haside.date hdate

theorem kept_failAll {s : Progress} (hkept : Kept s) (q : RetryQueue)
    (attempts : List FailedAttempt) : Kept (q.failAll s attempts) := by
  induction attempts generalizing s with
  | nil => exact hkept
  | cons a attempts ih => exact ih (attempt_cases hkept q a).1

theorem failAll_snoc (q : RetryQueue) (s : Progress) (before : List FailedAttempt)
    (a : FailedAttempt) : q.failAll s (before ++ [a]) = q.fail (q.failAll s before) a :=
  List.foldl_append

/-- The retry order puts the rows of the queue in line. -/
def RetryQueue.Ordered (q : RetryQueue) (s : Progress) : Prop :=
  ∀ rows, q.rows s = .ok rows →
    IsStrictTotalOrder { row // row ∈ rows } fun a b => RetriedBefore a.1 b.1

theorem Keyed.ordered {rows : List SyncNextPendingEntry} (h : Keyed rows) :
    IsStrictTotalOrder { row // row ∈ rows } fun a b => RetriedBefore a.1 b.1 := by
  have hinj : Function.Injective fun a : { row // row ∈ rows } => retryRank a.1 := by
    intro a b heq
    obtain ⟨aKey, haKey⟩ := h.keyed a.1 a.2
    obtain ⟨bKey, hbKey⟩ := h.keyed b.1 b.2
    have hkey : aKey = bKey := by
      by_contra hne
      exact retryRank_ne haKey hbKey hne heq
    exact Subtype.ext (h.unique a.1 a.2 b.1 b.2 (by rw [haKey, hbKey, hkey]))
  have hrel : ∀ {a b : { row // row ∈ rows }},
      retryRank a.1 < retryRank b.1 ↔ RetriedBefore a.1 b.1 := by
    intro a b
    obtain ⟨aKey, haKey⟩ := h.keyed a.1 a.2
    obtain ⟨bKey, hbKey⟩ := h.keyed b.1 b.2
    exact (retriedBefore_iff haKey hbKey).symm
  exact RelEmbedding.isStrictTotalOrder (s := (· < ·)) ⟨⟨_, hinj⟩, hrel⟩

theorem keyed_rows {s : Progress} (hkept : Kept s) {q : RetryQueue}
    {rows : List SyncNextPendingEntry} (hrows : q.rows s = .ok rows) : Keyed rows := by
  cases q with
  | delivery target =>
    obtain ⟨found, hfound, hrest⟩ := bind_eq_ok hrows
    obtain ⟨key, hkey, hget⟩ := bind_eq_ok hfound
    cases hlink : get s.links key with
    | none =>
      rw [← Except.ok.inj hget, hlink] at hrest
      cases hrest
      exact ⟨fun x hx => absurd hx List.not_mem_nil, fun x hx => absurd hx List.not_mem_nil⟩
    | some link =>
      rw [rows_delivery hkept hkey hlink] at hrows
      cases hrows
      exact keyed_delivery hkept hkey
  | quarantine tenantDid projectionId =>
    obtain ⟨entries, hentries, hrest⟩ := bind_eq_ok hrows
    cases hrest
    exact keyed_quarantine hkept hentries

/-- Every failed attempt of a sequence is followed by an attempt at another row exactly when at
each of them the chosen row steps aside: some other row was last attempted no later than the clock
reads or the chosen row was last attempted, or a millisecond later with an earlier receipt. A clock
that reads earlier than the attempts of all other rows keeps the failed row in front. -/
theorem rotates_iff (hdates : ReadsDates R) {s : Progress} (hkept : Kept s) (q : RetryQueue)
    (attempts : List FailedAttempt) :
    q.Ordered s ∧ (q.Rotates s attempts ↔ ∀ before a after, attempts = before ++ a :: after →
      q.StepsAside (q.failAll s before) a.now) := by
  refine ⟨fun rows hrows => (keyed_rows hkept hrows).ordered, ?_⟩
  have hstep : ∀ before a, q.next (q.failAll s (before ++ [a])) ≠ q.next (q.failAll s before) ↔
      q.StepsAside (q.failAll s before) a.now := by
    intro before a
    rw [failAll_snoc]
    exact next_fail_ne_iff hdates (kept_failAll hkept q before) q a
  constructor
  · intro hrotates before a after hsplit
    exact (hstep before a).mp (hrotates before a after hsplit)
  · intro haside before a after hsplit
    exact (hstep before a).mpr (haside before a after hsplit)

end Retry

/-! ## Two pending deliveries -/

def millisecondTexts : List String :=
  ["1970-01-01T00:00:00.000Z", "1970-01-01T00:00:00.001Z", "1970-01-01T00:00:00.002Z",
    "1970-01-01T00:00:00.003Z", "1970-01-01T00:00:00.004Z", "1970-01-01T00:00:00.005Z"]

/-- A runtime that writes the first milliseconds as dates, and any other time as so many dots. -/
@[reducible]
def Runtime.ofMilliseconds : Runtime where
  newUrl s :=
    if s = "https://dwn.example.com" ∨ s = "https://dwn.example.com/" then
      some { protocol := "https:", path := "//dwn.example.com/" }
    else none
  dateParse s :=
    match millisecondTexts.idxOf? s with
    | some time => some time
    | none =>
      match s.toList with
      | '+' :: dots => some dots.length
      | '-' :: dots => some (-dots.length)
      | _ => none
  isoString time :=
    match millisecondTexts[time.toNat]?.filter fun _ => 0 ≤ time with
    | some text => text
    | none => String.ofList ((if 0 ≤ time then '+' else '-') :: List.replicate time.natAbs '.')
  serializedLength _ := 80

theorem readsDates_ofMilliseconds : ReadsDates Runtime.ofMilliseconds := by
  intro time _
  by_cases hsmall : 0 ≤ time ∧ time < 6
  · obtain ⟨hlower, hupper⟩ := hsmall
    interval_cases time <;> decide
  · have htext : (millisecondTexts[time.toNat]?.filter fun _ => 0 ≤ time) = none := by
      rw [Option.filter_eq_none_iff]
      intro text hget hnonneg
      have hlength := (List.getElem?_eq_some_iff.mp hget).1
      have hnonneg : 0 ≤ time := of_decide_eq_true hnonneg
      change time.toNat < 6 at hlength
      omega
    have hnone : ∀ (c : Char) (dots : List Char), c = '+' ∨ c = '-' →
        millisecondTexts.idxOf? (String.ofList (c :: dots)) = none := by
      intro c dots hc
      rw [List.idxOf?_eq_none_iff]
      intro hmem
      have hall : ∀ text ∈ millisecondTexts, text.toList.head? = some '1' := by decide
      have hhead := hall _ hmem
      rw [String.toList_ofList, List.head?_cons, Option.some.injEq] at hhead
      subst hhead
      cases hc with
      | inl h => cases h
      | inr h => cases h
    unfold Runtime.ofMilliseconds
    dsimp only
    rw [htext]
    dsimp only
    by_cases hnonneg : 0 ≤ time
    · rw [if_pos hnonneg, hnone _ _ (Or.inl rfl)]
      dsimp only
      rw [String.toList_ofList]
      simp [abs_of_nonneg hnonneg]
    · rw [if_neg hnonneg, hnone _ _ (Or.inr rfl)]
      dsimp only
      rw [String.toList_ofList]
      simp [abs_of_neg (not_le.mp hnonneg)]

namespace SyncNextProgressStore

local instance millisecondRuntime : Runtime := Runtime.ofMilliseconds

/-- Two writes that the remote does not take, retained at the given times. -/
def retained (first second : Int) : Progress :=
  run {} {} [⟨first, .getOrCreateLink aliceTarget "lifetime"⟩,
    ⟨first, .commitPushPage (aliceLink none)
      { checkpoint := (sourceAt "1" "draft").source
        pageReceipts := [sourceAt "1" "draft"]
        delivery := [{ sourceAt "1" "draft" with
          outcome := { reason := .remoteIncomplete }, wasLatestBaseState := false }]
        handledWrites := [], settled := [] }⟩,
    ⟨second, .commitPushPage (aliceLink (some (sourceAt "1" "draft").source))
      { checkpoint := (sourceAt "2" "note").source
        pageReceipts := [sourceAt "2" "note"]
        delivery := [{ sourceAt "2" "note" with
          outcome := { reason := .remoteIncomplete }, wasLatestBaseState := true }]
        handledWrites := [], settled := [] }⟩]

def aliceDelivery : RetryQueue := .delivery aliceTarget.toSyncNextLinkIdentity

def failedAt (now : Int) : FailedAttempt := ⟨now, { reason := .transport }⟩

def retainedRow (receipt : SyncNextSourceReceipt) (lastAttemptAt : String) :
    SyncNextPendingEntry where
  toSyncNextLinkIdentity := { aliceTarget.toSyncNextLinkIdentity with
    remoteEndpoint := "https://dwn.example.com" }
  toSyncNextSourceReceipt := receipt
  lastAttemptAt := lastAttemptAt

/-- The older row fails, and the next attempt is at the newer one. -/
theorem rotates_steadyClock :
    aliceDelivery.Ordered (retained 0 1) ∧ aliceDelivery.Rotates (retained 0 1) [failedAt 1] := by
  obtain ⟨hordered, hrotates⟩ := rotates_iff readsDates_ofMilliseconds (s := retained 0 1)
    (Kept.empty.run {} _) aliceDelivery [failedAt 1]
  refine ⟨hordered, hrotates.mpr ?_⟩
  have hrun : aliceDelivery.rows (aliceDelivery.failAll (retained 0 1) []) =
        .ok [retainedRow (sourceAt "1" "draft") "1970-01-01T00:00:00.000Z",
          retainedRow (sourceAt "2" "note") "1970-01-01T00:00:00.001Z"] ∧
      aliceDelivery.select (aliceDelivery.failAll (retained 0 1) []) =
        .ok (some (retainedRow (sourceAt "1" "draft") "1970-01-01T00:00:00.000Z")) := by
    decide +kernel
  intro before a after hsplit
  cases before with
  | cons b before => simp at hsplit
  | nil =>
    cases hsplit
    exact ⟨_, _, hrun.1, hrun.2, by decide +kernel, _,
      List.mem_cons_of_mem _ List.mem_cons_self, by decide, Or.inl (by decide +kernel)⟩

/-- The draft is retained when the clock reads 3, the note after the clock went back to 0. The note
fails, and is taken again. -/
theorem not_rotates_clockStepsBack :
    ¬ (aliceDelivery.Ordered (retained 3 0) ∧
      aliceDelivery.Rotates (retained 3 0) [failedAt 0]) ∧
    aliceDelivery.rows (retained 3 0) =
      .ok [retainedRow (sourceAt "1" "draft") "1970-01-01T00:00:00.003Z",
        retainedRow (sourceAt "2" "note") "1970-01-01T00:00:00.000Z"] := by
  have hrun : aliceDelivery.next (aliceDelivery.failAll (retained 3 0) ([] ++ [failedAt 0])) =
        aliceDelivery.next (aliceDelivery.failAll (retained 3 0) []) ∧
      aliceDelivery.rows (retained 3 0) =
        .ok [retainedRow (sourceAt "1" "draft") "1970-01-01T00:00:00.003Z",
          retainedRow (sourceAt "2" "note") "1970-01-01T00:00:00.000Z"] := by
    decide +kernel
  refine ⟨?_, hrun.2⟩
  rintro ⟨-, hrotates⟩
  exact hrotates [] (failedAt 0) [] rfl hrun.1

end SyncNextProgressStore

end EnboxDwn.Agent
