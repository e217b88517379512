import EnboxDwn.ProgressLossless

/-! Feed pages of a sync link. A reply is checked against the checkpoint it was queried from, every
message is bound to the position it was read at, and a page may be cut after any of its entries. -/
namespace EnboxDwn.Agent

structure MessagesQueryReply where
  status : Status
  entries : Option (List MessagesQueryReplyEntry) := none
  cursor : Option ProgressToken := none
  drained : Option Bool := none
  fingerprint : Option String := none
  deriving DecidableEq

def syncNextPageSize : Nat := 100

inductive SyncNextFeedError where
  /-- Successful transport whose remote feed operation returned a non-success status. -/
  | query (statusCode : Nat) (detail : String)
  | thrown (error : Thrown)
  deriving DecidableEq

structure SyncNextPreparedFeedEntry where
  entry : MessagesQueryReplyEntry
  message : GenericMessage
  receipt : SyncNextSourceReceipt
  deriving DecidableEq

structure SyncNextPreparedFeedPage where
  drained : Bool
  entries : List SyncNextPreparedFeedEntry
  checkpoint : ProgressToken
  pageReceipts : List SyncNextSourceReceipt
  deriving DecidableEq

/-- Return a safely checkpointable prefix, or no page when no entry was handled. -/
def sliceSyncNextFeedPage (page : SyncNextPreparedFeedPage) (entryCount : Nat) :
    Option SyncNextPreparedFeedPage :=
  if entryCount = page.entries.length then some page
  else
    let pageReceipts := page.pageReceipts.take entryCount
    pageReceipts.getLast?.map fun receipt =>
      { drained := false
        entries := page.entries.take entryCount
        checkpoint := receipt.source
        pageReceipts }

/-! ## Preparing a page -/

def failFeed {α : Type} (label message : String) : Except Thrown α :=
  .error (.error (label ++ ": " ++ message))

def successfulPage (reply : MessagesQueryReply) (label target : String) :
    Except SyncNextFeedError (Bool × List MessagesQueryReplyEntry) :=
  if reply.status.code ≠ 200 then
    .error (.query reply.status.code
      (label ++ ": " ++ target ++ " failed: " ++ reply.status.code.repr ++ " " ++
        reply.status.detail))
  else
    match reply.entries with
    | none =>
      .error (.thrown (.typeError (label ++ ": successful query omitted its entries array.")))
    | some entries =>
      match reply.drained with
      | none =>
        .error (.thrown (.typeError
          (label ++ ": successful query requires a boolean drained value.")))
      | some drained =>
        if entries.length > syncNextPageSize then
          .error (.thrown (.rangeError (label ++ ": query returned " ++ entries.length.repr ++
            " entries; maximum is " ++ syncNextPageSize.repr ++ ".")))
        else .ok (drained, entries)

def assertCursorProgress (previous : Option ProgressToken) (next : ProgressToken) (drained : Bool)
    (entryCount : Nat) (label : String) : Except Thrown Unit :=
  if ¬ isValidSyncNextToken next then failFeed label "query returned an invalid cursor."
  else
    match previous with
    | none => .ok ()
    | some previous =>
      if previous.streamId ≠ next.streamId ∨ previous.epoch ≠ next.epoch then
        failFeed label "query cursor changed progress-token domain."
      else do
        let comparison ← compareSyncNextPosition next previous
        if comparison < 0 then failFeed label "query cursor regressed."
        else if comparison = 0 ∧ (drained = false ∨ entryCount > 0) then
          failFeed label "query cursor did not advance."
        else .ok ()

/-- A position of the page that is behind the checkpoint the page was queried from. -/
def assertAheadOfCheckpoint (previous : Option ProgressToken) (source : ProgressToken)
    (messageCid label : String) : Except Thrown Unit :=
  match previous with
  | none => .ok ()
  | some previous => do
    if (← compareSyncNextPosition source previous) ≤ 0 then
      failFeed label ("feed entry " ++ messageCid ++ " is behind its checkpoint.")
    else .ok ()

def sourceReceipt (previous : Option ProgressToken) (cursor : ProgressToken)
    (entry : MessagesQueryReplyEntry) (positions : List String) (label : String) :
    Except Thrown SyncNextSourceReceipt :=
  match entry.messageCid, entry.seq, entry.isLatestBaseState with
  | some messageCid, some seq, some _ => do
    let source : ProgressToken :=
      { epoch := cursor.epoch, messageCid := some messageCid, position := seq
        streamId := cursor.streamId }
    if ¬ isValidSyncNextToken source then
      failFeed label ("feed entry " ++ messageCid ++ " has an invalid source position.")
    else do
      if (← compareSyncNextPosition source cursor) > 0 then
        failFeed label ("feed entry " ++ messageCid ++ " has an invalid source position.")
      else do
        assertAheadOfCheckpoint previous source messageCid label
        if seq ∈ positions then
          failFeed label ("feed page repeats source position " ++ seq ++ ".")
        else .ok { messageCid, source }
  | _, _, _ => .error (.typeError (label ++ ": feed entry has invalid source metadata."))

def assertAscending (receipt : SyncNextSourceReceipt) (priorReceipt : Option SyncNextSourceReceipt)
    (label : String) : Except Thrown Unit :=
  match priorReceipt with
  | none => .ok ()
  | some priorReceipt => do
    if (← compareSyncNextPosition receipt.source priorReceipt.source) ≤ 0 then
      failFeed label "feed entries are not in ascending source order."
    else .ok ()

section Prepare
variable [P : Platform]

def verifiedMessage (entry : MessagesQueryReplyEntry) (label : String) :
    Except Thrown GenericMessage :=
  match entry.message with
  | some message =>
    if some (P.computeCid message).val ≠ entry.messageCid then
      failFeed label ("feed entry " ++ entry.messageCid.getD "undefined" ++ " failed CID verification.")
    else .ok message
  | none =>
    failFeed label ("feed entry " ++ entry.messageCid.getD "undefined" ++ " failed CID verification.")

/-- The entries prepared so far are those before the ones given. -/
def prepareEntries (previous : Option ProgressToken) (checkpoint : ProgressToken) (label : String) :
    List MessagesQueryReplyEntry → List SyncNextPreparedFeedEntry →
      Except Thrown (List SyncNextPreparedFeedEntry)
  | [], prepared => .ok prepared
  | entry :: entries, prepared => do
    let receipt ← sourceReceipt previous checkpoint entry
      (prepared.map fun p => p.receipt.source.position) label
    assertAscending receipt (prepared.getLast?.map (·.receipt)) label
    let message ← verifiedMessage entry label
    prepareEntries previous checkpoint label entries (prepared ++ [{ entry, message, receipt }])

def sameProgressToken (left right : ProgressToken) : Bool := decide (left = right)

def assertCursorReceipt (previous : Option ProgressToken) (cursor : ProgressToken)
    (pageReceipts : List SyncNextSourceReceipt) (label : String) : Except Thrown Unit :=
  if (previous.any fun previous => sameProgressToken previous cursor) && pageReceipts.isEmpty then
    .ok ()
  else if cursor.messageCid ≠ none ∧ ¬ pageReceipts.any fun receipt =>
      receipt.source.position = cursor.position ∧ some receipt.messageCid = cursor.messageCid then
    failFeed label "query cursor CID does not identify its page entry."
  else .ok ()

/-- What is left to do with the entries of a successful reply. -/
def preparePage (label target : String) (previous cursor : Option ProgressToken) (drained : Bool)
    (entries : List MessagesQueryReplyEntry) : Except Thrown SyncNextPreparedFeedPage :=
  match cursor with
  | none => failFeed label (target ++ " returned no cursor for a successful page.")
  | some checkpoint => do
    assertCursorProgress previous checkpoint drained entries.length label
    let preparedEntries ← prepareEntries previous checkpoint label entries []
    let pageReceipts := preparedEntries.map (·.receipt)
    assertCursorReceipt previous checkpoint pageReceipts label
    return { drained, entries := preparedEntries, checkpoint, pageReceipts }

/-- Validate one feed page and bind every verified message to its exact source receipt. -/
def prepareSyncNextFeedPage (label : String) (previous : Option ProgressToken)
    (reply : MessagesQueryReply) (target : String) :
    Except SyncNextFeedError SyncNextPreparedFeedPage := do
  let (drained, entries) ← successfulPage reply label target
  (preparePage label target previous reply.cursor drained entries).mapError .thrown

end Prepare

/-! ## Prepared pages -/

/-- The position of the first token is before that of the second one. -/
def ProgressToken.Before (a b : ProgressToken) : Prop :=
  ∃ x y, bigInt a.position = some x ∧ bigInt b.position = some y ∧ x < y

theorem ProgressToken.Before.position_ne {a b : ProgressToken} (h : a.Before b) :
    a.position ≠ b.position := by
  obtain ⟨x, y, hx, hy, hlt⟩ := h
  intro heq
  rw [heq, hy, Option.some.injEq] at hx
  omega

theorem compareSyncNextPosition_le {a b : ProgressToken} {n : Int}
    (h : compareSyncNextPosition a b = .ok n) (hn : ¬ n ≤ 0) : b.Before a := by
  obtain ⟨x, y, hx, hy, hle, -⟩ := SyncCheckpoint.comparePosition_eq_ok h
  rw [hle] at hn
  exact ⟨y, x, hy, hx, by omega⟩

theorem compareSyncNextPosition_of_before {a b : ProgressToken} (h : a.Before b) :
    compareSyncNextPosition a b = .ok (-1) ∧ compareSyncNextPosition b a = .ok 1 := by
  obtain ⟨x, y, hx, hy, hlt⟩ := h
  have hnot : ¬ y < x := by omega
  simp [compareSyncNextPosition, SyncCheckpoint.comparePosition, hx, hy, hlt, hnot]

theorem compareSyncNextPosition_of_atOrBefore {a b : ProgressToken} (h : a.AtOrBefore b) :
    ∃ n ≤ 0, compareSyncNextPosition a b = .ok n := by
  obtain ⟨-, x, y, hx, hy, hle⟩ := h
  have hnot : ¬ y < x := by omega
  refine ⟨if x < y then -1 else 0, by split <;> omega, ?_⟩
  simp [compareSyncNextPosition, SyncCheckpoint.comparePosition, hx, hy, hnot]

theorem ProgressToken.Before.trans {a b c : ProgressToken} (hab : a.Before b) (hbc : b.Before c) :
    a.Before c := by
  obtain ⟨x, y, hx, hy, hlt⟩ := hab
  obtain ⟨y', z, hy', hz, hlt'⟩ := hbc
  rw [hy, Option.some.injEq] at hy'
  exact ⟨x, z, hx, hz, by omega⟩

theorem assertCursorProgress_eq_ok {previous : Option ProgressToken} {next : ProgressToken}
    {drained : Bool} {entryCount : Nat} {label : String}
    (h : assertCursorProgress previous next drained entryCount label = .ok ()) :
    isValidSyncNextToken next = true ∧ ∀ token ∈ previous, token.domain = next.domain ∧
      (token.Before next ∨ entryCount = 0 ∧ drained = true ∧
        ∃ x, bigInt token.position = some x ∧ bigInt next.position = some x) := by
  unfold assertCursorProgress at h
  split at h
  · cases h
  · next hvalid =>
    refine ⟨by simpa using hvalid, ?_⟩
    rintro token htoken
    cases htoken
    dsimp only at h
    split at h
    · cases h
    · next hdomain =>
      obtain ⟨n, hn, h⟩ := bind_eq_ok h
      obtain ⟨x, y, hx, hy, hle, hzero⟩ := SyncCheckpoint.comparePosition_eq_ok hn
      refine ⟨domain_eq_iff.mpr (by simpa [not_or] using hdomain), ?_⟩
      split at h
      · cases h
      · next hregressed =>
        split at h
        · cases h
        · next hadvanced =>
          by_cases hn0 : n = 0
          · obtain rfl := hzero.mp hn0
            rw [not_and] at hadvanced
            have hrest := hadvanced hn0
            rw [not_or, Bool.not_eq_false] at hrest
            exact Or.inr ⟨by omega, hrest.1, x, hy, hx⟩
          · exact Or.inl (compareSyncNextPosition_le hn (by omega))

theorem assertAheadOfCheckpoint_eq_ok {previous : Option ProgressToken} {source : ProgressToken}
    {messageCid label : String}
    (h : assertAheadOfCheckpoint previous source messageCid label = .ok ()) :
    ∀ token ∈ previous, token.Before source := by
  rintro token htoken
  cases htoken
  obtain ⟨n, hn, h⟩ := bind_eq_ok h
  split at h
  · cases h
  · next hpositive => exact compareSyncNextPosition_le hn hpositive

theorem assertAscending_eq_ok {receipt : SyncNextSourceReceipt}
    {priorReceipt : Option SyncNextSourceReceipt} {label : String}
    (h : assertAscending receipt priorReceipt label = .ok ()) :
    ∀ prior ∈ priorReceipt, prior.source.Before receipt.source := by
  rintro prior hprior
  cases hprior
  obtain ⟨n, hn, h⟩ := bind_eq_ok h
  split at h
  · cases h
  · next hpositive => exact compareSyncNextPosition_le hn hpositive

theorem sourceReceipt_eq_ok {previous : Option ProgressToken} {cursor : ProgressToken}
    {entry : MessagesQueryReplyEntry} {positions : List String} {label : String}
    {receipt : SyncNextSourceReceipt}
    (h : sourceReceipt previous cursor entry positions label = .ok receipt) :
    entry.messageCid = some receipt.messageCid ∧ entry.seq = some receipt.source.position ∧
      receipt.source.messageCid = some receipt.messageCid ∧
      isValidSyncNextToken receipt.source = true ∧ receipt.source.AtOrBefore cursor ∧
      ∀ token ∈ previous, token.Before receipt.source := by
  unfold sourceReceipt at h
  split at h
  · next messageCid seq _ hcid hseq _ =>
    dsimp only at h
    split at h
    · cases h
    · next hvalid =>
      obtain ⟨n, hn, h⟩ := bind_eq_ok h
      obtain ⟨x, y, hx, hy, hle, -⟩ := SyncCheckpoint.comparePosition_eq_ok hn
      split at h
      · cases h
      · next hbehind =>
        obtain ⟨_, hahead, h⟩ := bind_eq_ok h
        split at h
        · cases h
        · cases h
          refine ⟨hcid, hseq, rfl, by simpa using hvalid, ⟨rfl, x, y, hx, hy, hle.mp (by omega)⟩, ?_⟩
          exact assertAheadOfCheckpoint_eq_ok hahead
  · cases h

theorem before_of_getLast {prepared : List SyncNextPreparedFeedEntry} {source : ProgressToken}
    (hpairwise : prepared.Pairwise fun a b => a.receipt.source.Before b.receipt.source)
    (hlast : ∀ prior ∈ prepared.getLast?.map (·.receipt), prior.source.Before source) :
    ∀ p ∈ prepared, p.receipt.source.Before source := by
  rintro p hp
  obtain ⟨front, last, rfl⟩ := (List.eq_nil_or_concat' prepared).resolve_left (List.ne_nil_of_mem hp)
  have hbefore := hlast last.receipt (by simp)
  obtain hp | hp := List.mem_append.mp hp
  · exact ((List.pairwise_append.mp hpairwise).2.2 p hp last (by simp)).trans hbefore
  · rw [List.mem_singleton.mp hp]
    exact hbefore

theorem assertCursorReceipt_eq_ok {previous : Option ProgressToken} {cursor : ProgressToken}
    {pageReceipts : List SyncNextSourceReceipt} {label : String}
    (h : assertCursorReceipt previous cursor pageReceipts label = .ok ()) :
    (previous = some cursor ∧ pageReceipts = []) ∨
      ∀ cid ∈ cursor.messageCid, ∃ receipt ∈ pageReceipts,
        receipt.source.position = cursor.position ∧ receipt.messageCid = cid := by
  unfold assertCursorReceipt at h
  split at h
  · next hreplay =>
    rw [Bool.and_eq_true, List.isEmpty_iff] at hreplay
    cases previous with
    | none => cases hreplay.1
    | some token =>
      have hsame : token = cursor := of_decide_eq_true hreplay.1
      exact Or.inl ⟨congrArg some hsame, hreplay.2⟩
  · split at h
    · cases h
    · next hcid =>
      refine Or.inr fun cid hmem => ?_
      rw [not_and, not_not] at hcid
      have hany := hcid (by rw [Option.mem_def.mp hmem]; simp)
      obtain ⟨receipt, hreceipt, hat⟩ := List.any_eq_true.mp hany
      obtain ⟨hposition, heq⟩ := of_decide_eq_true hat
      rw [Option.mem_def.mp hmem, Option.some.injEq] at heq
      exact ⟨receipt, hreceipt, hposition, heq⟩

variable [P : Platform]

/-- A verified message at a position of the page, ahead of the checkpoint before. -/
structure IsPrepared (previous : Option ProgressToken) (checkpoint : ProgressToken)
    (p : SyncNextPreparedFeedEntry) : Prop where
  cid : p.entry.messageCid = some p.receipt.messageCid
  seq : p.entry.seq = some p.receipt.source.position
  verified : (P.computeCid p.message).val = p.receipt.messageCid
  named : p.receipt.source.messageCid = some p.receipt.messageCid
  valid : isValidSyncNextToken p.receipt.source = true
  behind : p.receipt.source.AtOrBefore checkpoint
  ahead : ∀ token ∈ previous, token.Before p.receipt.source

/-- The cursor stands where the page before ended, and nothing was read. -/
def AtRest (previous : Option ProgressToken) (page : SyncNextPreparedFeedPage) : Prop :=
  page.entries = [] ∧ page.drained = true ∧ ∃ token ∈ previous, ∃ x,
    bigInt token.position = some x ∧ bigInt page.checkpoint.position = some x

structure Prepared (previous : Option ProgressToken) (page : SyncNextPreparedFeedPage) : Prop where
  valid : isValidSyncNextToken page.checkpoint = true
  receipts : page.pageReceipts = page.entries.map (·.receipt)
  entries : ∀ p ∈ page.entries, IsPrepared previous page.checkpoint p
  ascending : page.entries.Pairwise fun a b => a.receipt.source.Before b.receipt.source
  domain : ∀ token ∈ previous, token.domain = page.checkpoint.domain
  progress : (∀ token ∈ previous, token.Before page.checkpoint) ∨ AtRest previous page
  cursor : (previous = some page.checkpoint ∧ page.entries = []) ∨
    ∀ cid ∈ page.checkpoint.messageCid, ∃ receipt ∈ page.pageReceipts,
      receipt.source.position = page.checkpoint.position ∧ receipt.messageCid = cid

theorem verifiedMessage_eq_ok {entry : MessagesQueryReplyEntry} {label : String}
    {message : GenericMessage} (h : verifiedMessage entry label = .ok message) :
    entry.messageCid = some (P.computeCid message).val := by
  unfold verifiedMessage at h
  split at h
  · split at h
    · cases h
    · next hcid =>
      cases h
      exact (not_not.mp hcid).symm
  · cases h

theorem prepareEntries_eq_ok {previous : Option ProgressToken} {checkpoint : ProgressToken}
    {label : String} {entries : List MessagesQueryReplyEntry}
    {prepared result : List SyncNextPreparedFeedEntry}
    (h : prepareEntries previous checkpoint label entries prepared = .ok result)
    (hprepared : ∀ p ∈ prepared, IsPrepared previous checkpoint p)
    (hpairwise : prepared.Pairwise fun a b => a.receipt.source.Before b.receipt.source) :
    (∀ p ∈ result, IsPrepared previous checkpoint p) ∧
      (result.Pairwise fun a b => a.receipt.source.Before b.receipt.source) ∧
      result.map (·.entry) = prepared.map (·.entry) ++ entries := by
  induction entries generalizing prepared with
  | nil =>
    cases h
    exact ⟨hprepared, hpairwise, by simp⟩
  | cons entry entries ih =>
    obtain ⟨receipt, hreceipt, h⟩ := bind_eq_ok h
    obtain ⟨_, hascending, h⟩ := bind_eq_ok h
    obtain ⟨message, hmessage, h⟩ := bind_eq_ok h
    obtain ⟨hcid, hseq, hnamed, hvalid, hbehind, hahead⟩ := sourceReceipt_eq_ok hreceipt
    have hverified := verifiedMessage_eq_ok hmessage
    rw [hcid, Option.some.injEq] at hverified
    obtain ⟨hall, hsorted, hentries⟩ := ih h
      (by
        intro p hp
        obtain hp | hp := List.mem_append.mp hp
        · exact hprepared p hp
        · rw [List.mem_singleton.mp hp]
          exact ⟨hcid, hseq, hverified.symm, hnamed, hvalid, hbehind, hahead⟩)
      (by
        refine List.pairwise_append.mpr ⟨hpairwise, List.pairwise_singleton _ _, fun a ha b hb => ?_⟩
        rw [List.mem_singleton.mp hb]
        exact before_of_getLast hpairwise (assertAscending_eq_ok hascending) a ha)
    exact ⟨hall, hsorted, by rw [hentries]; simp⟩

omit P in
theorem successfulPage_eq_ok {reply : MessagesQueryReply} {label target : String} {drained : Bool}
    {entries : List MessagesQueryReplyEntry}
    (h : successfulPage reply label target = .ok (drained, entries)) :
    reply.entries = some entries ∧ reply.drained = some drained := by
  unfold successfulPage at h
  split at h
  · cases h
  · split at h
    · cases h
    · next hentries =>
      split at h
      · cases h
      · next hdrained =>
        split at h
        · cases h
        · cases h
          exact ⟨hentries, hdrained⟩

theorem prepareSyncNextFeedPage_eq_ok {label target : String} {previous : Option ProgressToken}
    {reply : MessagesQueryReply} {page : SyncNextPreparedFeedPage}
    (h : prepareSyncNextFeedPage label previous reply target = .ok page) :
    Prepared previous page ∧ reply.cursor = some page.checkpoint ∧
      reply.entries = some (page.entries.map (·.entry)) ∧ reply.drained = some page.drained := by
  obtain ⟨⟨drained, entries⟩, hsuccess, h⟩ := bind_eq_ok h
  obtain ⟨hentries, hdrained⟩ := successfulPage_eq_ok hsuccess
  dsimp only at h
  cases hpage : preparePage label target previous reply.cursor drained entries with
  | error e =>
    rw [hpage] at h
    cases h
  | ok prepared =>
    rw [hpage] at h
    obtain rfl : prepared = page := Except.ok.inj h
    unfold preparePage at hpage
    split at hpage
    · cases hpage
    · next checkpoint hcursor =>
      obtain ⟨_, hprogress, hpage⟩ := bind_eq_ok hpage
      obtain ⟨preparedEntries, hprepared, hpage⟩ := bind_eq_ok hpage
      obtain ⟨_, hreceipt, hpage⟩ := bind_eq_ok hpage
      cases hpage
      obtain ⟨hvalid, hprevious⟩ := assertCursorProgress_eq_ok hprogress
      obtain ⟨hall, hsorted, hmap⟩ := prepareEntries_eq_ok hprepared (by simp) .nil
      have hlength : preparedEntries.length = entries.length := by
        simpa using congrArg List.length hmap
      refine ⟨⟨hvalid, rfl, hall, hsorted, fun token htoken => (hprevious token htoken).1, ?_, ?_⟩,
        hcursor, by rw [hentries, hmap]; rfl, hdrained⟩
      · cases previous with
        | none => exact Or.inl (by simp)
        | some token =>
          obtain ⟨-, hbefore | ⟨hzero, hd, x, hx, hy⟩⟩ := hprevious token rfl
          · refine Or.inl fun t ht => ?_
            cases ht
            exact hbefore
          · exact Or.inr ⟨List.length_eq_zero_iff.mp (hlength.trans hzero), hd, token, rfl, x, hx, hy⟩
      · obtain ⟨hsame, hempty⟩ | hcid := assertCursorReceipt_eq_ok hreceipt
        · exact Or.inl ⟨hsame, List.map_eq_nil_iff.mp hempty⟩
        · exact Or.inr hcid

/-! ## Cut pages -/

section Slices
variable {previous : Option ProgressToken} {page page' : SyncNextPreparedFeedPage} {entryCount : Nat}

omit P in
theorem pageReceipts_slice (hreceipts : page.pageReceipts = page.entries.map (·.receipt))
    (h : sliceSyncNextFeedPage page entryCount = some page') :
    page'.entries = page.entries.take entryCount ∧
      page'.pageReceipts = page'.entries.map (·.receipt) ∧
      (page' = page ∧ entryCount = page.entries.length ∨ page'.drained = false ∧
        ∃ p ∈ page.entries, p ∈ page'.entries.getLast? ∧ page'.checkpoint = p.receipt.source) := by
  unfold sliceSyncNextFeedPage at h
  split at h
  · next hcount =>
    cases h
    exact ⟨by rw [hcount, List.take_length], hreceipts, Or.inl ⟨rfl, hcount⟩⟩
  · obtain ⟨receipt, hlast, rfl⟩ := Option.map_eq_some_iff.mp h
    dsimp only
    rw [hreceipts, ← List.map_take] at hlast ⊢
    refine ⟨rfl, rfl, Or.inr ⟨rfl, ?_⟩⟩
    rw [List.getLast?_map] at hlast
    obtain ⟨p, hp, rfl⟩ := Option.map_eq_some_iff.mp hlast
    exact ⟨p, List.mem_of_mem_take (List.mem_of_getLast? hp), hp, rfl⟩

/-- What was prepared stays so when the page is cut. -/
theorem Prepared.slice (h : Prepared previous page)
    (hslice : sliceSyncNextFeedPage page entryCount = some page') : Prepared previous page' := by
  obtain ⟨hentries, hreceipts, ⟨rfl, -⟩ | ⟨hdrained, p, hp, hlast, hcheckpoint⟩⟩ :=
    pageReceipts_slice h.receipts hslice
  · exact h
  · have hprepared := h.entries p hp
    have hdomain : p.receipt.source.domain = page.checkpoint.domain := hprepared.behind.1
    have hsublist : page'.entries.Sublist page.entries := by
      rw [hentries]
      exact List.take_sublist _ _
    have hpairwise := h.ascending.sublist hsublist
    constructor
    · rw [hcheckpoint]
      exact hprepared.valid
    · exact hreceipts
    · intro q hq
      have hq' := h.entries q (hsublist.subset hq)
      have hbehind : q.receipt.source.AtOrBefore page'.checkpoint := by
        have hqdomain : q.receipt.source.domain = page'.checkpoint.domain := by
          rw [hcheckpoint, hdomain]
          exact hq'.behind.1
        obtain ⟨front, heq⟩ := List.getLast?_eq_some_iff.mp hlast
        rw [heq, List.pairwise_append] at hpairwise
        rw [heq] at hq
        obtain hq | hq := List.mem_append.mp hq
        · obtain ⟨x, y, hx, hy, hlt⟩ := hpairwise.2.2 q hq p (by simp)
          exact ⟨hqdomain, x, y, hx, hcheckpoint ▸ hy, hlt.le⟩
        · rw [List.mem_singleton.mp hq] at hqdomain ⊢
          obtain ⟨-, x, y, hx, -⟩ := hprepared.behind
          exact ⟨hqdomain, x, x, hx, hcheckpoint ▸ hx, le_rfl⟩
      exact ⟨hq'.cid, hq'.seq, hq'.verified, hq'.named, hq'.valid, hbehind, hq'.ahead⟩
    · exact hpairwise
    · intro token htoken
      rw [hcheckpoint, hdomain]
      exact h.domain token htoken
    · refine Or.inl fun token htoken => ?_
      rw [hcheckpoint]
      exact hprepared.ahead token htoken
    · refine Or.inr fun cid hcid => ⟨p.receipt, ?_, by rw [hcheckpoint], ?_⟩
      · rw [hreceipts]
        exact List.mem_map_of_mem (List.mem_of_getLast? hlast)
      · rw [hcheckpoint, hprepared.named] at hcid
        exact Option.some.inj hcid

end Slices

/-! ## Pages the store accepts -/

namespace SyncNextProgressStore

section Validators
variable {checkpoint : ProgressToken} {previous : Option ProgressToken} {direction : Direction}
  {receipts : List SyncNextSourceReceipt}

omit P in
theorem validatePageReceipts_of (page : List ReceiptIdentity)
    (hwithin : ∀ r ∈ receipts, assertReceiptWithinPage r checkpoint direction = .ok ())
    (hahead : ∀ r ∈ receipts, assertAhead r.source previous direction = .ok ())
    (hnodup : (page.map ReceiptIdentity.position ++
      receipts.map fun r => r.source.position).Nodup) :
    validatePageReceipts checkpoint previous direction receipts page
      (page.map ReceiptIdentity.position) = .ok (page ++ receipts.map receiptIdentity) := by
  induction receipts generalizing page with
  | nil => simp [validatePageReceipts]
  | cons receipt receipts ih =>
    have hnew : receipt.source.position ∉ page.map ReceiptIdentity.position := by
      intro hmem
      exact (List.nodup_append.mp hnodup).2.2 _ hmem _ (by simp) rfl
    have hidentity : receiptIdentity receipt ∉ page := by
      intro hmem
      exact hnew (List.mem_map_of_mem (f := ReceiptIdentity.position) hmem)
    rw [validatePageReceipts, hwithin receipt (by simp), ok_bind, hahead receipt (by simp), ok_bind,
      if_neg hidentity, if_neg hnew]
    have hstep := ih (page ++ [receiptIdentity receipt])
      (fun r hr => hwithin r (List.mem_cons_of_mem _ hr))
      (fun r hr => hahead r (List.mem_cons_of_mem _ hr))
      (by simpa [receiptIdentity] using hnodup)
    rw [List.map_append] at hstep
    exact hstep.trans (by simp)

omit P in
theorem validatePageDispositions_of (page seen : List ReceiptIdentity)
    (hwithin : ∀ r ∈ receipts, assertReceiptWithinPage r checkpoint direction = .ok ())
    (hpage : ∀ r ∈ receipts, receiptIdentity r ∈ page)
    (hnodup : (seen ++ receipts.map receiptIdentity).Nodup) :
    validatePageDispositions checkpoint page direction receipts seen =
      .ok (seen ++ receipts.map receiptIdentity) := by
  induction receipts generalizing seen with
  | nil => simp [validatePageDispositions]
  | cons receipt receipts ih =>
    have hnew : receiptIdentity receipt ∉ seen := by
      intro hmem
      exact (List.nodup_append.mp hnodup).2.2 _ hmem _ (by simp) rfl
    rw [validatePageDispositions, hwithin receipt (by simp), ok_bind,
      if_neg (not_not.mpr (hpage receipt (by simp))), if_neg hnew]
    rw [ih (seen ++ [receiptIdentity receipt])
      (fun r hr => hwithin r (List.mem_cons_of_mem _ hr))
      (fun r hr => hpage r (List.mem_cons_of_mem _ hr)) (by simpa using hnodup)]
    simp

omit P in
theorem validatePageCommit_of {pending settled : List SyncNextSourceReceipt}
    (hvalid : isValidSyncNextToken checkpoint = true)
    (hwithin : ∀ r ∈ receipts, assertReceiptWithinPage r checkpoint direction = .ok ())
    (hahead : ∀ r ∈ receipts, assertAhead r.source previous direction = .ok ())
    (hnodup : (receipts.map fun r => r.source.position).Nodup)
    (hperm : (pending ++ settled).Perm receipts)
    (hcursor : ∀ cid ∈ checkpoint.messageCid, ∃ receipt ∈ receipts,
      receipt.source.position = checkpoint.position ∧ receipt.messageCid = cid) :
    validatePageCommit checkpoint receipts pending settled previous direction = .ok () := by
  have hidentities : (receipts.map receiptIdentity).Nodup := by
    refine List.Nodup.of_map ReceiptIdentity.position ?_
    rw [List.map_map]
    exact hnodup
  have hreceipts := validatePageReceipts_of [] hwithin hahead (by simpa using hnodup)
  have hdispositions := validatePageDispositions_of (receipts.map receiptIdentity) []
    (fun r hr => hwithin r (hperm.mem_iff.mp hr))
    (fun r hr => List.mem_map_of_mem (hperm.mem_iff.mp hr))
    (by
      rw [List.nil_append]
      exact (hperm.map receiptIdentity).nodup_iff.mpr hidentities)
  rw [List.map_nil, List.nil_append] at hreceipts
  rw [List.nil_append] at hdispositions
  unfold validatePageCommit assertValidToken
  rw [if_pos hvalid, ok_bind, hreceipts, ok_bind, hdispositions, ok_bind, if_neg, if_neg]
  · rintro ⟨hnamed, hnot⟩
    obtain ⟨cid, hcid⟩ := Option.ne_none_iff_exists'.mp hnamed
    obtain ⟨receipt, hreceipt, hposition, rfl⟩ := hcursor cid hcid
    refine hnot (List.any_eq_true.mpr ⟨receipt, hreceipt, ?_⟩)
    exact decide_eq_true ⟨hposition, hcid⟩
  · rw [List.length_map, List.length_map, hperm.length_eq]
    simp

end Validators

end SyncNextProgressStore

section Producers
variable {previous : Option ProgressToken} {page : SyncNextPreparedFeedPage}
open SyncNextProgressStore

theorem IsPrepared.withinPage {checkpoint : ProgressToken} {p : SyncNextPreparedFeedEntry}
    (h : IsPrepared previous checkpoint p) (hcid : ∀ m, (P.computeCid m).val ≠ "")
    (direction : Direction) :
    assertReceiptWithinPage p.receipt checkpoint direction = .ok () := by
  obtain ⟨hstream, hepoch⟩ := domain_eq_iff.mp h.behind.1
  obtain ⟨n, hn, hcompare⟩ := compareSyncNextPosition_of_atOrBefore h.behind
  have hnonempty : p.receipt.messageCid ≠ "" := h.verified ▸ hcid p.message
  have hdomain : ¬ (p.receipt.source.streamId ≠ checkpoint.streamId ∨
      p.receipt.source.epoch ≠ checkpoint.epoch) := by
    simp [hstream, hepoch]
  have hnamed : ¬ (p.receipt.source.messageCid ≠ none ∧
      p.receipt.source.messageCid ≠ some p.receipt.messageCid) := by
    simp [h.named]
  unfold assertReceiptWithinPage assertValidToken
  rw [if_pos h.valid, ok_bind, if_neg hnonempty, if_neg hdomain, hcompare, ok_bind,
    if_neg (not_lt.mpr hn), if_neg hnamed]

theorem IsPrepared.assertAhead {checkpoint : ProgressToken} {p : SyncNextPreparedFeedEntry}
    (h : IsPrepared previous checkpoint p) (direction : Direction) :
    assertAhead p.receipt.source previous direction = .ok () := by
  cases previous with
  | none => rfl
  | some token =>
    have hcompare := (compareSyncNextPosition_of_before (h.ahead token rfl)).2
    simp [SyncNextProgressStore.assertAhead, hcompare]

/-- The replay of a checkpoint that names a message; the store knows it before it validates. -/
def Replays (previous : Option ProgressToken) (page : SyncNextPreparedFeedPage) : Prop :=
  previous = some page.checkpoint ∧ page.entries = [] ∧ page.checkpoint.messageCid ≠ none

/-- A prepared page passes the validation with any dispositions of its receipts, the replay of a
checkpoint apart. -/
theorem Prepared.validatePageCommit (h : Prepared previous page)
    (hcid : ∀ m, (P.computeCid m).val ≠ "") {pending settled : List SyncNextSourceReceipt}
    (hperm : (pending ++ settled).Perm page.pageReceipts) (hreplays : ¬ Replays previous page)
    (direction : Direction) :
    SyncNextProgressStore.validatePageCommit page.checkpoint page.pageReceipts pending settled
      previous direction = .ok () := by
  have hmem : ∀ r ∈ page.pageReceipts, ∃ p ∈ page.entries, p.receipt = r := by
    rw [h.receipts]
    exact fun r hr => List.mem_map.mp hr
  refine validatePageCommit_of h.valid ?_ ?_ ?_ hperm ?_
  · intro r hr
    obtain ⟨p, hp, rfl⟩ := hmem r hr
    exact (h.entries p hp).withinPage hcid direction
  · intro r hr
    obtain ⟨p, hp, rfl⟩ := hmem r hr
    exact (h.entries p hp).assertAhead direction
  · rw [h.receipts, List.map_map]
    exact List.pairwise_map.mpr (h.ascending.imp fun hbefore => hbefore.position_ne)
  · obtain ⟨hsame, hempty⟩ | hcursor := h.cursor
    · intro cid hnamed
      exact absurd ⟨hsame, hempty, by rw [Option.mem_def.mp hnamed]; simp⟩ hreplays
    · exact hcursor

omit P in
/-- The commit recognises the replay and answers it without a validation. -/
theorem Replays.isEmptyReplay (h : Replays previous page)
    (hreceipts : page.pageReceipts = page.entries.map (·.receipt))
    {pending settled : List SyncNextSourceReceipt}
    (hperm : (pending ++ settled).Perm page.pageReceipts) :
    isEmptyReplay previous page.checkpoint page.pageReceipts pending settled = true := by
  obtain ⟨rfl, hempty, -⟩ := h
  rw [hempty, List.map_nil] at hreceipts
  rw [hreceipts] at hperm ⊢
  obtain ⟨rfl, rfl⟩ := List.append_eq_nil_iff.mp hperm.eq_nil
  simp [SyncNextProgressStore.isEmptyReplay, sameToken]

theorem Prepared.canAdvance (h : Prepared previous page) :
    canAdvance previous page.checkpoint = .ok true ∨
      canAdvance previous page.checkpoint = .ok false ∧ AtRest previous page := by
  cases previous with
  | none => exact Or.inl rfl
  | some token =>
    obtain ⟨hstream, hepoch⟩ := domain_eq_iff.mp (h.domain token rfl)
    have hdomain : ¬ (token.streamId ≠ page.checkpoint.streamId ∨
        token.epoch ≠ page.checkpoint.epoch) := by
      simp [hstream, hepoch]
    unfold SyncNextProgressStore.canAdvance
    dsimp only
    rw [if_neg hdomain]
    obtain hbefore | hrest := h.progress
    · rw [(compareSyncNextPosition_of_before (hbefore token rfl)).2]
      exact Or.inl rfl
    · obtain ⟨-, -, token', htoken', x, hx, hy⟩ := id hrest
      cases htoken'
      refine Or.inr ⟨?_, hrest⟩
      simp [compareSyncNextPosition, SyncCheckpoint.comparePosition, hx, hy]

end Producers

end EnboxDwn.Agent
