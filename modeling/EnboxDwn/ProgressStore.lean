import EnboxDwn.ProgressKey
import EnboxDwn.SyncScope
import Mathlib.Algebra.GroupWithZero.Nat

/-! The durable progress of sync links. Successful outcomes are compressed into the checkpoints of
a link; only what was not applied or not delivered occupies a pending row. Every mutation runs
under one lock that all contexts share, so a run is a sequence of calls. -/
namespace EnboxDwn.Agent
open Level

/-! ## Rows -/

inductive SyncAuthorization where
  | owner
  | delegate (delegateDid : String) (permissionGrantIds : List String)
  | role (actorDid moduleRole roleRecordId : String)
  deriving DecidableEq, Repr

structure SyncNextLinkCreate extends SyncNextLinkIdentity where
  authorization : SyncAuthorization
  scope : SyncScope
  deriving DecidableEq, Repr

/-- Durable progress and authority for one exact next-engine replication link. -/
structure SyncNextLink extends SyncNextLinkCreate where
  lifetimeId : String
  pullCheckpoint : Option ProgressToken := none
  pushCheckpoint : Option ProgressToken := none
  updatedAt : String
  deriving DecidableEq, Repr

structure SyncNextQuarantineEntry extends SyncNextLinkIdentity, SyncNextSourceReceipt where
  entry : MessagesQueryReplyEntry
  entrySize : Nat
  lastAttemptAt : String
  deriving DecidableEq, Repr

/-- A row of the quarantine; rows with an encrypted payload are of an older format. -/
inductive QuarantineRow where
  | encrypted
  | entry (e : SyncNextQuarantineEntry)
  deriving DecidableEq, Repr

structure SyncNextQuarantineInput extends SyncNextSourceReceipt where
  entry : MessagesQueryReplyEntry
  deriving DecidableEq, Repr

inductive SyncNextDeliveryReason where
  | authorizationUnresolved | dependency | quota | remoteIncomplete | remoteRejected | transport
  deriving DecidableEq, Repr

inductive BlockScope where
  | endpoint | link
  deriving DecidableEq, Repr

structure SyncNextDeliveryOutcome where
  blockScope : Option BlockScope := none
  reason : SyncNextDeliveryReason
  retryAt : Option Int := none
  deriving DecidableEq, Repr

/-- Pending outbound obligation; message and data remain in the local DWN. -/
structure SyncNextDeliveryObligation extends SyncNextLinkIdentity, SyncNextSourceReceipt where
  lastAttemptAt : String
  outcome : SyncNextDeliveryOutcome
  writeRecordId : Option String := none
  wasLatestBaseState : Bool
  deriving DecidableEq, Repr

structure SyncNextDeliveryInput extends SyncNextSourceReceipt where
  outcome : SyncNextDeliveryOutcome
  writeRecordId : Option String := none
  wasLatestBaseState : Bool
  deriving DecidableEq, Repr

/-- A current RecordsWrite receipt handled by the remote endpoint. -/
structure SyncNextHandledWrite where
  recordId : String
  receipt : SyncNextSourceReceipt
  deriving DecidableEq, Repr

structure SyncNextPullPageCommit where
  checkpoint : ProgressToken
  pageReceipts : List SyncNextSourceReceipt
  quarantine : List SyncNextQuarantineInput
  settled : List SyncNextSourceReceipt
  deriving DecidableEq, Repr

structure SyncNextPushPageCommit where
  delivery : List SyncNextDeliveryInput
  checkpoint : ProgressToken
  handledWrites : List SyncNextHandledWrite
  pageReceipts : List SyncNextSourceReceipt
  settled : List SyncNextSourceReceipt
  deriving DecidableEq, Repr

structure Progress where
  links : Sublevel String SyncNextLink := ∅
  delivery : Sublevel String SyncNextDeliveryObligation := ∅
  quarantine : Sublevel String QuarantineRow := ∅

namespace SyncNextProgressStore

def maxQuarantineEntryBytes : Nat := 1024 * 1024

structure Options where
  maxDeliveryPerLink : Nat := 10000
  maxQuarantineBytesPerTenant : Nat := 64 * 1024 * 1024
  maxQuarantinePerTenant : Nat := 10000

def fail {α : Type} (message : String) : Except Thrown α :=
  .error (.error ("SyncNextProgressStore: " ++ message))

def failType {α : Type} (message : String) : Except Thrown α :=
  .error (.typeError ("SyncNextProgressStore: " ++ message))

/-! ## Page commits -/

inductive Direction where
  | pull | push
  deriving DecidableEq, Repr

def Direction.text : Direction → String
  | pull => "pull"
  | push => "push"

/-- What tells receipts apart: the four texts that are written out as a JSON array. -/
structure ReceiptIdentity where
  streamId : String
  epoch : String
  position : String
  messageCid : String
  deriving DecidableEq, Repr

def receiptIdentity (receipt : SyncNextSourceReceipt) : ReceiptIdentity :=
  ⟨receipt.source.streamId, receipt.source.epoch, receipt.source.position, receipt.messageCid⟩

def hexDigit (n : Nat) : Char := (Nat.digitChar n)

def jsonChar (c : Char) : List Char :=
  if c = '"' then ['\\', '"']
  else if c = '\\' then ['\\', '\\']
  else if c.toNat = 0x08 then ['\\', 'b']
  else if c.toNat = 0x0c then ['\\', 'f']
  else if c = '\n' then ['\\', 'n']
  else if c = '\r' then ['\\', 'r']
  else if c = '\t' then ['\\', 't']
  else if c.toNat < 0x20 then ['\\', 'u', '0', '0', hexDigit (c.toNat / 16), hexDigit (c.toNat % 16)]
  else [c]

def jsonString (s : String) : String := "\"" ++ String.ofList (s.toList.flatMap jsonChar) ++ "\""

def ReceiptIdentity.toJson (identity : ReceiptIdentity) : String :=
  "[" ++ jsonString identity.streamId ++ "," ++ jsonString identity.epoch ++ "," ++
    jsonString identity.position ++ "," ++ jsonString identity.messageCid ++ "]"

def assertValidToken (token : ProgressToken) (label : String) : Except Thrown Unit :=
  if isValidSyncNextToken token then .ok () else fail (label ++ " is invalid.")

def assertReceiptWithinPage (receipt : SyncNextSourceReceipt) (checkpoint : ProgressToken)
    (direction : Direction) : Except Thrown Unit := do
  assertValidToken receipt.source (direction.text ++ " source token")
  if receipt.messageCid = "" then fail "source message CID must not be empty."
  else if receipt.source.streamId ≠ checkpoint.streamId ∨ receipt.source.epoch ≠ checkpoint.epoch then
    fail (direction.text ++ " source token does not match its page domain.")
  else do
    if (← compareSyncNextPosition receipt.source checkpoint) > 0 then
      fail (direction.text ++ " source position exceeds its page checkpoint.")
    else if receipt.source.messageCid ≠ none ∧
        receipt.source.messageCid ≠ some receipt.messageCid then
      fail (direction.text ++ " source token CID does not match its receipt CID.")
    else .ok ()

def assertAhead (source : ProgressToken) (previous : Option ProgressToken) (direction : Direction) :
    Except Thrown Unit :=
  match previous with
  | none => .ok ()
  | some previous => do
    if (← compareSyncNextPosition source previous) ≤ 0 then
      fail (direction.text ++ " source is behind its previous checkpoint.")
    else .ok ()

/-- The identities of the page, collected beside the positions seen so far. -/
def validatePageReceipts (checkpoint : ProgressToken) (previous : Option ProgressToken)
    (direction : Direction) :
    List SyncNextSourceReceipt → List ReceiptIdentity → List String →
      Except Thrown (List ReceiptIdentity)
  | [], page, _ => .ok page
  | receipt :: rest, page, positions => do
    assertReceiptWithinPage receipt checkpoint direction
    assertAhead receipt.source previous direction
    let key := receiptIdentity receipt
    if key ∈ page then fail (direction.text ++ " page repeats source " ++ key.toJson ++ ".")
    else if receipt.source.position ∈ positions then
      fail (direction.text ++ " page assigns more than one CID to position " ++
        receipt.source.position ++ ".")
    else
      validatePageReceipts checkpoint previous direction rest (page ++ [key])
        (positions ++ [receipt.source.position])

def validatePageDispositions (checkpoint : ProgressToken) (page : List ReceiptIdentity)
    (direction : Direction) :
    List SyncNextSourceReceipt → List ReceiptIdentity → Except Thrown (List ReceiptIdentity)
  | [], seen => .ok seen
  | receipt :: rest, seen => do
    assertReceiptWithinPage receipt checkpoint direction
    let key := receiptIdentity receipt
    if key ∉ page then fail (direction.text ++ " source " ++ key.toJson ++ " is not in the page.")
    else if key ∈ seen then
      fail (direction.text ++ " source " ++ key.toJson ++ " has more than one page disposition.")
    else validatePageDispositions checkpoint page direction rest (seen ++ [key])

def validatePageCommit (checkpoint : ProgressToken)
    (pageReceipts pending settled : List SyncNextSourceReceipt) (previous : Option ProgressToken)
    (direction : Direction) : Except Thrown Unit := do
  assertValidToken checkpoint (direction.text ++ " checkpoint")
  let page ← validatePageReceipts checkpoint previous direction pageReceipts [] []
  let seen ← validatePageDispositions checkpoint page direction (pending ++ settled) []
  if seen.length ≠ page.length then
    fail (direction.text ++ " page has a source without a disposition.")
  else if checkpoint.messageCid ≠ none ∧ ¬ pageReceipts.any fun receipt =>
      receipt.source.position = checkpoint.position ∧
        checkpoint.messageCid = some receipt.messageCid then
    fail (direction.text ++ " cursor CID does not match its page entry.")
  else .ok ()

def canAdvance (current : Option ProgressToken) (incoming : ProgressToken) : Except Thrown Bool :=
  match current with
  | none => .ok true
  | some current => do
    if current.streamId ≠ incoming.streamId ∨ current.epoch ≠ incoming.epoch then
      fail "progress token domain changed without an explicit reset."
    else return decide ((← compareSyncNextPosition incoming current) > 0)

def sameToken (left right : Option ProgressToken) : Bool := decide (left = right)

def isEmptyReplay (current : Option ProgressToken) (incoming : ProgressToken)
    (pageReceipts pending settled : List SyncNextSourceReceipt) : Bool :=
  current.isSome && sameToken current (some incoming) &&
    pageReceipts.isEmpty && pending.isEmpty && settled.isEmpty

def Direction.withCheckpoint (direction : Direction) (link : SyncNextLink) (token : ProgressToken)
    (updatedAt : String) : SyncNextLink :=
  match direction with
  | .pull => { link with pullCheckpoint := some token, updatedAt }
  | .push => { link with pushCheckpoint := some token, updatedAt }

def Direction.checkpoint (direction : Direction) (link : SyncNextLink) : Option ProgressToken :=
  match direction with
  | .pull => link.pullCheckpoint
  | .push => link.pushCheckpoint

/-! ## Links -/

section Store
variable [R : Runtime]

/-- `new Date(time).toISOString()`, which throws outside the range of dates. -/
def toISOString (time : Int) : Except Thrown String :=
  if time.natAbs ≤ 8640000000000000 then .ok (R.isoString time)
  else .error (.rangeError "Invalid time value")

def nextAttemptAt (now : Int) (previous : String) : Except Thrown String :=
  match R.dateParse previous with
  | none => toISOString (now + 1)
  | some previousAttempt => toISOString (max (now + 1) (previousAttempt + 1))

def assertSameLinkDefinition (existing : SyncNextLink) (input : SyncNextLinkCreate) :
    Except Thrown Unit :=
  if existing.scope ≠ input.scope ∨ existing.authorization ≠ input.authorization then
    fail "exact link key resolves to a different durable definition."
  else .ok ()

def getOrCreateLink (input : SyncNextLinkCreate) (lifetimeId : String) (now : Int) (s : Progress) :
    Except Thrown (SyncNextLink × Progress) := do
  let remoteEndpoint ← normalizeDwnEndpoint input.remoteEndpoint
  let normalizedInput : SyncNextLinkCreate := { input with remoteEndpoint }
  let key ← syncNextLinkKey normalizedInput.toSyncNextLinkIdentity
  match get s.links key with
  | some existing => do
    assertSameLinkDefinition existing normalizedInput
    return (existing, s)
  | none =>
    let link : SyncNextLink := { normalizedInput with lifetimeId, updatedAt := R.isoString now }
    return (link, { s with links := batch [.put key link] s.links })

def readKeys {ν : Type} (range : String → Bool) (s : Sublevel String ν) : List ν :=
  (entries (fun a b => a ≤ b) range s).map Prod.snd

def getDeliveryForLink (identity : SyncNextLinkIdentity) (s : Progress) :
    Except Thrown (List SyncNextDeliveryObligation) := do
  return readKeys (← syncNextLinkRange identity) s.delivery

/-- Validate only fields used by the progress store; retry owns payload validation. -/
def validateQuarantineAccounting : QuarantineRow → Except Thrown SyncNextQuarantineEntry
  | .encrypted =>
    fail "encrypted quarantine rows are obsolete; clear the complete sync-next progress store."
  | .entry row =>
    if row.entrySize > maxQuarantineEntryBytes then failType "quarantine row has an invalid schema."
    else .ok row

def readQuarantine (range : String → Bool) (s : Progress) :
    Except Thrown (List SyncNextQuarantineEntry) :=
  (readKeys range s.quarantine).mapM validateQuarantineAccounting

def getQuarantineForLink (identity : SyncNextLinkIdentity) (s : Progress) :
    Except Thrown (List SyncNextQuarantineEntry) := do
  readQuarantine (← syncNextLinkRange identity) s

def getQuarantineForProjection (tenantDid projectionId : String) (s : Progress) :
    Except Thrown (List SyncNextQuarantineEntry) := do
  return (← readQuarantine (syncNextTenantRange tenantDid) s).filter fun entry =>
    entry.projectionId = projectionId

/-- Whether the stored link is there and is of the lifetime that was queried. -/
def currentLink (key : String) (queriedLink : SyncNextLink) (s : Progress) : Option SyncNextLink :=
  (get s.links key).filter fun link => link.lifetimeId = queriedLink.lifetimeId

/-- Retire an obsolete binding while preserving inbound recovery input owned by its projection. -/
def retireLink (queriedLink : SyncNextLink) (s : Progress) : Except Thrown Progress := do
  let key ← syncNextLinkKey queriedLink.toSyncNextLinkIdentity
  match currentLink key queriedLink s with
  | none => return s
  | some _ => do
    let delivery ← getDeliveryForLink queriedLink.toSyncNextLinkIdentity s
    return { s with
      links := batch [.del key] s.links
      delivery := batch (delivery.map fun e => .del (rowKey key e.toSyncNextSourceReceipt)) s.delivery }

/-- Explicitly remove one current link and all pending work owned by that exact link. -/
def deleteLinkAndPendingWork (queriedLink : SyncNextLink) (s : Progress) :
    Except Thrown Progress := do
  let key ← syncNextLinkKey queriedLink.toSyncNextLinkIdentity
  match currentLink key queriedLink s with
  | none => return s
  | some _ => do
    let quarantine ← getQuarantineForLink queriedLink.toSyncNextLinkIdentity s
    let delivery ← getDeliveryForLink queriedLink.toSyncNextLinkIdentity s
    return {
      links := batch [.del key] s.links
      delivery := batch (delivery.map fun e => .del (rowKey key e.toSyncNextSourceReceipt)) s.delivery
      quarantine :=
        batch (quarantine.map fun e => .del (rowKey key e.toSyncNextSourceReceipt)) s.quarantine }

/-! ## Pull pages -/

def serializedEntrySize (entry : MessagesQueryReplyEntry) : Except Thrown Nat :=
  let size := R.serializedLength entry
  if size > maxQuarantineEntryBytes then
    fail ("quarantine entry exceeds " ++ maxQuarantineEntryBytes.repr ++ " bytes.")
  else .ok size

def prepareQuarantineInput (input : SyncNextQuarantineInput) :
    Except Thrown (SyncNextQuarantineInput × Nat) := do
  if input.entry.messageCid ≠ some input.messageCid then
    fail "quarantine entry CID does not match its receipt."
  else if input.entry.seq ≠ some input.source.position then
    fail "quarantine entry position does not match its receipt."
  else return (input, ← serializedEntrySize input.entry)

def createQuarantine (link : SyncNextLink) (lastAttemptAt : String)
    (input : SyncNextQuarantineInput × Nat) : SyncNextQuarantineEntry :=
  { link.toSyncNextLinkIdentity, input.1.toSyncNextSourceReceipt with
    entry := input.1.entry, entrySize := input.2, lastAttemptAt }

/-- One-time format check prevents an old encrypted row from outliving its checkpoint. Each store
object remembers the links it has checked. -/
def assertCompatibleQuarantine (checked : Bool) (link : SyncNextLink) (s : Progress) :
    Except Thrown Unit :=
  if checked then .ok ()
  else do
    let _ ← getQuarantineForLink link.toSyncNextLinkIdentity s
    .ok ()

def assertTenantQuarantineCapacity (options : Options) (rows : List SyncNextQuarantineEntry) :
    Except Thrown Unit :=
  if rows.length > options.maxQuarantinePerTenant then
    fail ("tenant quarantine entry capacity " ++ options.maxQuarantinePerTenant.repr ++ " exceeded.")
  else if (rows.map SyncNextQuarantineEntry.entrySize).sum > options.maxQuarantineBytesPerTenant then
    fail ("tenant quarantine byte capacity " ++ options.maxQuarantineBytesPerTenant.repr ++
      " exceeded.")
  else .ok ()

/-- The rows the tenant will hold after a page that adds to them: those it holds, the new ones,
less the settled ones. -/
def assertRetainedCapacity (options : Options) (link : SyncNextLink) (key : String)
    (quarantined : List SyncNextQuarantineEntry) (settled : List SyncNextSourceReceipt)
    (s : Progress) : Except Thrown Unit :=
  if quarantined = [] then .ok ()
  else do
    let rows ← readQuarantine (syncNextTenantRange link.tenantDid) s
    let keyed ← rows.mapM fun e => do
      return (← syncNextReceiptKey e.toSyncNextLinkIdentity e.toSyncNextSourceReceipt, e)
    let retained : Sublevel String SyncNextQuarantineEntry :=
      batch (keyed.map (fun x => .put x.1 x.2) ++
        quarantined.map (fun e => .put (rowKey key e.toSyncNextSourceReceipt) e) ++
        settled.map fun receipt => .del (rowKey key receipt)) ∅
    assertTenantQuarantineCapacity options (readKeys (fun _ => true) retained)

/-- Atomically retain pull exceptions and advance the pull checkpoint. -/
def commitPullPage (options : Options) (checked : Bool) (now : Int) (queriedLink : SyncNextLink)
    (commit : SyncNextPullPageCommit) (s : Progress) : Except Thrown (Bool × Progress) := do
  assertValidToken commit.checkpoint "pull checkpoint"
  let preparedQuarantine ← commit.quarantine.mapM prepareQuarantineInput
  let key ← syncNextLinkKey queriedLink.toSyncNextLinkIdentity
  match currentLink key queriedLink s with
  | none => return (false, s)
  | some link => do
    let linkKey ← syncNextLinkKey link.toSyncNextLinkIdentity
    assertCompatibleQuarantine checked link s
    if ¬ sameToken link.pullCheckpoint queriedLink.pullCheckpoint then return (false, s)
    else if ¬ (← canAdvance link.pullCheckpoint commit.checkpoint) then
      return (isEmptyReplay link.pullCheckpoint commit.checkpoint commit.pageReceipts
        (commit.quarantine.map (·.toSyncNextSourceReceipt)) commit.settled, s)
    else do
      validatePageCommit commit.checkpoint commit.pageReceipts
        (commit.quarantine.map (·.toSyncNextSourceReceipt)) commit.settled link.pullCheckpoint .pull
      let quarantined := preparedQuarantine.map (createQuarantine link (R.isoString now))
      assertRetainedCapacity options link linkKey quarantined commit.settled s
      return (true, { s with
        links := batch
          [.put key (Direction.pull.withCheckpoint link commit.checkpoint (R.isoString now))] s.links
        quarantine := batch
          (quarantined.map (fun e => .put (rowKey linkKey e.toSyncNextSourceReceipt) (.entry e)) ++
            commit.settled.map fun receipt => .del (rowKey linkKey receipt)) s.quarantine })

/-! ## Push pages -/

/-- The handled writes, by the record they are of. -/
abbrev HandledWrites := List (String × SyncNextHandledWrite)

def deliveryIsCovered (source : ProgressToken) (writeRecordId : Option String)
    (handledWrites : HandledWrites) : Except Thrown Bool :=
  match writeRecordId.bind fun recordId => handledWrites.lookup recordId with
  | none => .ok false
  | some handled => syncNextSourceAtOrBefore source handled.receipt.source

def validateDeliveryInputs (delivery : List SyncNextDeliveryInput) : Except Thrown Unit :=
  if delivery.any fun input => input.writeRecordId = some "" then
    failType "delivery write record ID must be a non-empty string."
  else .ok ()

def validateHandledWrites (settled : List SyncNextSourceReceipt) :
    List SyncNextHandledWrite → HandledWrites → Except Thrown HandledWrites
  | [], byRecordId => .ok byRecordId
  | handled :: rest, byRecordId =>
    if handled.recordId = "" ∨ receiptIdentity handled.receipt ∉ settled.map receiptIdentity ∨
        (byRecordId.lookup handled.recordId).isSome then
      failType "handled write state is invalid."
    else validateHandledWrites settled rest (byRecordId ++ [(handled.recordId, handled)])

def createDelivery (link : SyncNextLink) (lastAttemptAt : String) (input : SyncNextDeliveryInput) :
    SyncNextDeliveryObligation :=
  { link.toSyncNextLinkIdentity, input.toSyncNextSourceReceipt with
    lastAttemptAt, outcome := input.outcome, writeRecordId := input.writeRecordId
    wasLatestBaseState := input.wasLatestBaseState }

/-- `filter` by a check that may throw. -/
def filterThrowing {α : Type} (f : α → Except Thrown Bool) : List α → Except Thrown (List α)
  | [] => .ok []
  | x :: xs => do
    let keep ← f x
    let rest ← filterThrowing f xs
    return if keep then x :: rest else rest

/-- The keys the link will hold after the page. -/
def retainedKeys (key : String) (existing covered : List SyncNextDeliveryObligation)
    (uncovered : List SyncNextDeliveryInput) (settled : List SyncNextSourceReceipt) : List String :=
  let kept := (existing.map fun e => rowKey key e.toSyncNextSourceReceipt).filter fun k =>
    k ∉ covered.map fun e => rowKey key e.toSyncNextSourceReceipt
  ((kept ++ uncovered.map fun e => rowKey key e.toSyncNextSourceReceipt).dedup).filter fun k =>
    k ∉ settled.map (rowKey key)

/-- Atomically retain outbound exceptions and advance the push checkpoint. -/
def commitPushPage (options : Options) (now : Int) (queriedLink : SyncNextLink)
    (commit : SyncNextPushPageCommit) (s : Progress) : Except Thrown (Bool × Progress) := do
  assertValidToken commit.checkpoint "push checkpoint"
  let key ← syncNextLinkKey queriedLink.toSyncNextLinkIdentity
  match currentLink key queriedLink s with
  | none => return (false, s)
  | some link => do
    if ¬ sameToken link.pushCheckpoint queriedLink.pushCheckpoint then return (false, s)
    else if ¬ (← canAdvance link.pushCheckpoint commit.checkpoint) then
      return (commit.handledWrites.isEmpty && isEmptyReplay link.pushCheckpoint commit.checkpoint
        commit.pageReceipts (commit.delivery.map (·.toSyncNextSourceReceipt)) commit.settled, s)
    else do
      validatePageCommit commit.checkpoint commit.pageReceipts
        (commit.delivery.map (·.toSyncNextSourceReceipt)) commit.settled link.pushCheckpoint .push
      validateDeliveryInputs commit.delivery
      let handledWrites ← validateHandledWrites commit.settled commit.handledWrites []
      let linkKey ← syncNextLinkKey link.toSyncNextLinkIdentity
      let existingDelivery ← getDeliveryForLink link.toSyncNextLinkIdentity s
      let covered ← filterThrowing
        (fun e => deliveryIsCovered e.source e.writeRecordId handledWrites) existingDelivery
      let uncovered ← filterThrowing
        (fun e => do return !(← deliveryIsCovered e.source e.writeRecordId handledWrites))
        commit.delivery
      if (retainedKeys linkKey existingDelivery covered uncovered commit.settled).length >
          options.maxDeliveryPerLink then
        fail ("delivery obligation capacity " ++ options.maxDeliveryPerLink.repr ++ " exceeded.")
      else
        return (true, { s with
          links := batch
            [.put key (Direction.push.withCheckpoint link commit.checkpoint (R.isoString now))] s.links
          delivery := batch
            (covered.map (fun e => .del (rowKey linkKey e.toSyncNextSourceReceipt)) ++
              uncovered.map (fun input => .put (rowKey linkKey input.toSyncNextSourceReceipt)
                (createDelivery link (R.isoString now) input)) ++
              commit.settled.map fun receipt => .del (rowKey linkKey receipt)) s.delivery })

/-! ## Pending rows -/

def updateQuarantine (now : Int) (entry : SyncNextQuarantineEntry) (s : Progress) :
    Except Thrown Progress := do
  let key ← syncNextReceiptKey entry.toSyncNextLinkIdentity entry.toSyncNextSourceReceipt
  match get s.quarantine key with
  | none => return s
  | some .encrypted => return s
  | some (.entry current) => do
    let lastAttemptAt ← nextAttemptAt now current.lastAttemptAt
    return { s with
      quarantine := batch [.put key (.entry { current with lastAttemptAt })] s.quarantine }

/-- Settle every exact-source receipt satisfied by one verified local materialization. -/
def settleQuarantineForProjection (tenantDid projectionId : String) (messageCids : List String)
    (s : Progress) : Except Thrown Progress := do
  let rows ← getQuarantineForProjection tenantDid projectionId s
  let keys ← (rows.filter fun e => e.messageCid ∈ messageCids).mapM fun e =>
    syncNextReceiptKey e.toSyncNextLinkIdentity e.toSyncNextSourceReceipt
  return { s with quarantine := batch (keys.map .del) s.quarantine }

/-- Settle or rotate one exact outbound row only while its link and attempt are current. -/
def finishDeliveryAttempt (now : Int) (queriedLink : SyncNextLink)
    (selected : SyncNextDeliveryObligation) (outcome : Option SyncNextDeliveryOutcome)
    (s : Progress) : Except Thrown (Bool × Progress) := do
  let linkKey ← syncNextLinkKey queriedLink.toSyncNextLinkIdentity
  if (← syncNextLinkKey selected.toSyncNextLinkIdentity) ≠ linkKey then return (false, s)
  else
    match currentLink linkKey queriedLink s with
    | none => return (false, s)
    | some link =>
      let receiptKey := rowKey linkKey selected.toSyncNextSourceReceipt
      match get s.delivery receiptKey with
      | none => return (false, s)
      | some current => do
        if current.lastAttemptAt ≠ selected.lastAttemptAt ∨
            current.writeRecordId ≠ selected.writeRecordId ∨
            current.wasLatestBaseState ≠ selected.wasLatestBaseState then
          return (false, s)
        else
          match outcome with
          | none => do
            if current.wasLatestBaseState ∧ current.writeRecordId ≠ none then
              let key ← syncNextLinkKey link.toSyncNextLinkIdentity
              let rows ← getDeliveryForLink link.toSyncNextLinkIdentity s
              let covered ← filterThrowing (fun e =>
                if e.writeRecordId = current.writeRecordId then
                  syncNextSourceAtOrBefore e.source current.source
                else .ok false) rows
              return (true, { s with
                delivery := batch
                  (covered.map fun e => .del (rowKey key e.toSyncNextSourceReceipt)) s.delivery })
            else return (true, { s with delivery := batch [.del receiptKey] s.delivery })
          | some outcome => do
            let lastAttemptAt ← nextAttemptAt now current.lastAttemptAt
            return (true, { s with
              delivery := batch [.put receiptKey { current with lastAttemptAt, outcome }] s.delivery })

def deleteForTenant (tenantDid : String) (s : Progress) : Progress where
  links := clear (syncNextTenantRange tenantDid) s.links
  delivery := clear (syncNextTenantRange tenantDid) s.delivery
  quarantine := clear (syncNextTenantRange tenantDid) s.quarantine

end Store

end SyncNextProgressStore

end EnboxDwn.Agent
