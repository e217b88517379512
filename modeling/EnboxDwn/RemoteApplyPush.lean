import EnboxDwn.Indexes
import EnboxDwn.Lib.Routine
import EnboxDwn.Lib.SeparatedText
import EnboxDwn.PullPage

/-! Pushes of local messages to a remote node. The remote may report dependencies as missing; they
are read locally and sent ahead, until the root is acknowledged, fails, or the passes run out. -/
namespace EnboxDwn.Agent
open SeparatedText (Assoc)

/-! ## Dependencies and remote results -/

inductive DependencyTarget where
  | module (module : String)
  | initialWrite (recordId : String) (module : Option String)
  | parent (recordId module : String)
  | ancestor (recordId : String) (module : Option String)
  | role (module modulePath recipient : String) (contextPrefix : Option String)
  | grant (permissionGrantId : String)
  | encryptionControl (module modulePath : String) (recipient : Option String)
  | recordData (recordId dataCid : String) (module : Option String)
  deriving DecidableEq, Repr

/-- A dependency that the remote misses. A terminal one can never be supplied. -/
structure DependencyRef where
  target : DependencyTarget
  messageCid : Option String := none
  terminal : Bool := false
  deriving DecidableEq, Repr

def hasTerminalDependency (refs : List DependencyRef) : Bool := refs.any (·.terminal)

/-- What the remote answers to a message. -/
inductive RemoteApplyResult where
  | applied
  | duplicate
  | superseded
  | deferred (reason : String)
  | incomplete (missing : List DependencyRef)
  | invalid (reason : String)
  deriving DecidableEq, Repr

inductive PushSuccessResolution where
  | applied | superseded
  deriving DecidableEq, Repr

/-- How the remote acknowledges a message, if the result is an acknowledgement. -/
def RemoteApplyResult.resolution? : RemoteApplyResult → Option PushSuccessResolution
  | .applied => some .applied
  | .duplicate => some .applied
  | .superseded => some .superseded
  | _ => none

structure PushAcknowledgement where
  cid : String
  resolution : PushSuccessResolution
  deriving DecidableEq, Repr

/-- A message to send; its payload is opened when it is needed. -/
structure SyncMessageEntry where
  message : GenericMessage
  isLatestBaseState : Option Bool := none
  deriving DecidableEq, Repr

namespace RemoteApplyPushContext

structure FailedFetch where
  dependencyCid : Option String := none
  detail : String
  localDataUnavailable : Bool := false
  localMissing : Bool := false
  localStatusCode : Option Nat := none
  deriving DecidableEq, Repr

inductive FetchDependencyResult where
  | fetched (entries : List SyncMessageEntry)
  | failed (failure : FailedFetch)
  deriving DecidableEq, Repr

/-! ## Operations -/

/-- Errors on the way to the remote: the work was interrupted, a payload is larger than its message
says, the remote is out of quota, the remote refuses for good, or anything else. -/
inductive SendErrorKind where
  | interrupted | dataSizeLimit | quota | terminal | other
  deriving DecidableEq, Repr

structure SendError where
  kind : SendErrorKind
  message : String
  deriving DecidableEq, Repr

/-- A read of the local node that throws. An authorization that will not come back ends the push. -/
structure ReadError where
  message : String
  nonRetryable : Bool
  deriving DecidableEq, Repr

inductive PushOp where
  | bufferSmallStream (entry : SyncMessageEntry)
  | resolvePushPayload (entry : SyncMessageEntry)
  | applyReplicatedMessage (message : GenericMessage) (data ancestryOnly : Bool)
  | fetchDependency (ref : DependencyRef)
  | fetchMessageCid (messageCid : String)
  | fetchMessageFeedEntry (messageCid : String)
  deriving DecidableEq, Repr

/-- A payload is there or not; its bytes decide nothing here. -/
abbrev PushAnswer : PushOp → Type
  | .bufferSmallStream _ => Except SendError Unit
  | .resolvePushPayload _ => Except SendError Bool
  | .applyReplicatedMessage _ _ _ => Except SendError RemoteApplyResult
  | .fetchDependency _ => Except ReadError FetchDependencyResult
  | .fetchMessageCid _ => Except ReadError FetchDependencyResult
  | .fetchMessageFeedEntry _ => Except ReadError FetchDependencyResult

inductive PushThrown where
  | interrupted
  | read (error : ReadError)
  deriving DecidableEq, Repr

/-- What a context remembers of the remote and of the local node. -/
structure Context where
  acknowledgementsByCid : Assoc PushSuccessResolution := []
  fetchedDependencyEntries : Assoc (List SyncMessageEntry) := []
  deriving DecidableEq

abbrev Push := Process.Routine PushOp PushAnswer Context PushThrown

def ask (op : PushOp) : Push (PushAnswer op) := Process.perform op

def bufferSmallStream (entry : SyncMessageEntry) : Push (Except SendError Unit) :=
  ask (.bufferSmallStream entry)

def resolvePushPayload (entry : SyncMessageEntry) : Push (Except SendError Bool) :=
  ask (.resolvePushPayload entry)

def applyReplicatedMessage (message : GenericMessage) (data ancestryOnly : Bool) :
    Push (Except SendError RemoteApplyResult) :=
  ask (.applyReplicatedMessage message data ancestryOnly)

def fetchDependency (ref : DependencyRef) : Push (Except ReadError FetchDependencyResult) :=
  ask (.fetchDependency ref)

def fetchMessageCid (messageCid : String) : Push (Except ReadError FetchDependencyResult) :=
  ask (.fetchMessageCid messageCid)

def fetchMessageFeedEntry (messageCid : String) : Push (Except ReadError FetchDependencyResult) :=
  ask (.fetchMessageFeedEntry messageCid)

def Context.has (s : Context) (cid : String) : Bool := decide (cid ∈ s.acknowledgementsByCid.map Prod.fst)

inductive PushEntryResult where
  | applied
  | retry (entries : List SyncMessageEntry)
  | failed (failure : PushFailure)
  deriving DecidableEq, Repr

inductive PushRootOutcome where
  | succeeded
  | failed (failure : PushFailure)
  deriving DecidableEq, Repr

def maxAdmissionPasses : Nat := 128

/-- How references are written, and the dependencies among messages of one batch. -/
class Environment where
  dependencyKey : DependencyRef → String
  dependencies : Dependencies SyncMessageEntry

/-! ## Failures -/

/-- The detail of a failure that may be of a dependency. -/
def failureDetail (rootCid cid detail : String) : String :=
  if cid = rootCid then detail else "dependency " ++ cid ++ " failed before root push: " ++ detail

def dependencyOf (rootCid cid : String) : Option String := if cid = rootCid then none else some cid

def terminalFailure (rootCid cid detail : String) (kind : PushFailureKind) : PushFailure where
  cid := rootCid
  dependencyCid := dependencyOf rootCid cid
  kind := some kind
  terminal := true
  detail := some (failureDetail rootCid cid detail)

def retryableFailure (rootCid cid detail : String) (kind : Option PushFailureKind := none)
    (reason : Option String := none) (fetch : Option FailedFetch := none) : PushFailure where
  cid := rootCid
  dependencyCid := dependencyOf rootCid cid
  kind := kind
  reason := reason
  tenantInactive := reason = some "tenant-inactive"
  localDataUnavailable := fetch.any (·.localDataUnavailable)
  localMissing := fetch.any (·.localMissing) && cid = rootCid
  localStatusCode := fetch.bind (·.localStatusCode)
  detail := some (failureDetail rootCid cid detail)

def quotaBlockedFailure (rootCid cid detail : String) : PushFailure where
  cid := rootCid
  dependencyCid := dependencyOf rootCid cid
  kind := some .deferred
  reason := some "storage"
  quotaBlocked := true
  detail := some (failureDetail rootCid cid detail)

def localFetchFailure (rootCid : String) (failure : FailedFetch) : PushFailure where
  cid := rootCid
  dependencyCid := failure.dependencyCid.filter (· ≠ rootCid)
  localMissing := failure.localMissing && (failure.dependencyCid.filter (· ≠ rootCid)).isNone
  localDataUnavailable := failure.localDataUnavailable
  localStatusCode := failure.localStatusCode
  detail := some failure.detail

/-! ## One entry -/

section Push
variable [P : Platform] [E : Environment]

def SyncMessageEntry.cid (entry : SyncMessageEntry) : String := (P.computeCid entry.message).val

def recordsWriteRequiresData (message : GenericMessage) : Bool :=
  match message with
  | .recordsWrite _ => true
  | _ => false

def isRequiredPushPayloadMissing (entry : SyncMessageEntry) (data : Bool) : Bool :=
  entry.isLatestBaseState = some true && !data && recordsWriteRequiresData entry.message

def isAncestryOnlyPush (entry : SyncMessageEntry) (data : Bool) : Bool :=
  entry.isLatestBaseState = some false && !data &&
    match entry.message with
    | .recordsWrite m => RecordsWrite.isInitialWrite m
    | _ => false

def missingDependencyDetail (refs : List DependencyRef) : String :=
  String.intercalate ", " (refs.map E.dependencyKey)

/-- The references in turn, each read once; what was read is kept only when all could be read. -/
def fetchDependencies : List DependencyRef → Assoc (List SyncMessageEntry) → List SyncMessageEntry →
    Push (FetchDependencyResult × Assoc (List SyncMessageEntry))
  | [], staged, fetched => pure (.fetched fetched, staged)
  | ref :: refs, staged, fetched => do
    let s ← get
    let key := E.dependencyKey ref
    match Assoc.get s.fetchedDependencyEntries key <|> Assoc.get staged key with
    | some cached => fetchDependencies refs staged (fetched ++ cached)
    | none =>
      match ← fetchDependency ref with
      | .error e =>
        if e.nonRetryable then throw (.read e)
        else
          return (.failed { detail := "local dependency fetch failed for " ++ key ++ ": " ++ e.message },
            staged)
      | .ok (.failed failure) => return (.failed failure, staged)
      | .ok (.fetched entries) =>
        fetchDependencies refs (Assoc.set staged key entries) (fetched ++ entries)

def fetchMissingDependencies (refs : List DependencyRef) : Push FetchDependencyResult := do
  match ← fetchDependencies refs [] [] with
  | (.failed failure, _) => return .failed failure
  | (.fetched entries, staged) => do
    modify fun s => { s with
      fetchedDependencyEntries :=
        staged.foldl (fun o p => Assoc.set o p.1 p.2) s.fetchedDependencyEntries }
    return .fetched entries

def pushResultFromMissingDependencies (rootCid cid : String) (entry : SyncMessageEntry)
    (missing : List DependencyRef) : Push PushEntryResult := do
  if hasTerminalDependency missing then
    let terminalDependencyCid :=
      (missing.find? fun d => d.terminal && d.messageCid.isSome).bind (·.messageCid)
    return .failed (terminalFailure rootCid (terminalDependencyCid.getD cid)
      (missingDependencyDetail missing) .incomplete)
  else
    match ← fetchMissingDependencies missing with
    | .failed failure =>
      return .failed (retryableFailure rootCid (failure.dependencyCid.getD cid) failure.detail
        (some .incomplete) none (some failure))
    | .fetched [] =>
      return .failed (retryableFailure rootCid cid (missingDependencyDetail missing)
        (some .incomplete))
    | .fetched entries => do
      let s ← get
      match entries.filter fun e => !s.has (SyncMessageEntry.cid e) with
      | [] =>
        return .failed (retryableFailure rootCid cid
          ("remote still reports acknowledged dependencies as missing: " ++
            missingDependencyDetail missing) (some .incomplete))
      | unacknowledged => return .retry (unacknowledged ++ [entry])

def acknowledge (cid : String) (resolution : PushSuccessResolution) : Push PushEntryResult := do
  modify fun s => { s with
    acknowledgementsByCid := Assoc.set s.acknowledgementsByCid cid resolution }
  return .applied

def pushResultFromApply (rootCid cid : String) (entry : SyncMessageEntry) :
    RemoteApplyResult → Push PushEntryResult
  | .applied => acknowledge cid .applied
  | .duplicate => acknowledge cid .applied
  | .superseded => acknowledge cid .superseded
  | .deferred reason =>
    return .failed (retryableFailure rootCid cid reason (some .deferred) (some reason))
  | .invalid reason => return .failed (terminalFailure rootCid cid reason .invalid)
  | .incomplete missing => pushResultFromMissingDependencies rootCid cid entry missing

/-- What an error while sending means for the root. -/
def pushResultFromError (rootCid cid : String) (e : SendError) : Push PushEntryResult :=
  match e.kind with
  | .interrupted => throw .interrupted
  | .dataSizeLimit => return .failed (terminalFailure rootCid cid e.message .invalid)
  | .quota => return .failed (quotaBlockedFailure rootCid cid e.message)
  | .terminal => return .failed (terminalFailure rootCid cid e.message .invalid)
  | .other => return .failed (retryableFailure rootCid cid e.message)

/-- What an error while buffering the payload means for the root. -/
def pushResultFromBuffering (rootCid cid : String) (e : SendError) : PushEntryResult :=
  match e.kind with
  | .dataSizeLimit => .failed (terminalFailure rootCid cid e.message .invalid)
  | _ => .failed (retryableFailure rootCid cid e.message)

/-- Sends the message and takes the remote's answer in. -/
def applyEntry (rootCid : String) (entry : SyncMessageEntry) (data : Bool) : Push PushEntryResult := do
  match ← applyReplicatedMessage entry.message data (isAncestryOnlyPush entry data) with
  | .error e => pushResultFromError rootCid (SyncMessageEntry.cid entry) e
  | .ok result => pushResultFromApply rootCid (SyncMessageEntry.cid entry) entry result

/-- Only settled remote outcomes count as acknowledged; a message with missing dependencies may be
sent again. -/
def pushEntry (rootCid : String) (entry : SyncMessageEntry) : Push PushEntryResult := do
  let cid := SyncMessageEntry.cid entry
  let s ← get
  if s.has cid then return .applied
  else
    match ← bufferSmallStream entry with
    | .error e => return pushResultFromBuffering rootCid cid e
    | .ok () =>
      match ← resolvePushPayload entry with
      | .error e => pushResultFromError rootCid cid e
      | .ok data =>
        if isRequiredPushPayloadMissing entry data then
          return .failed (retryableFailure rootCid cid
            "required payload is unavailable for current message" none none
            (some { detail := "", localDataUnavailable := true }))
        else applyEntry rootCid entry data

/-! ## One root -/

/-- One pass: the entries to send again, or the failure of the root. -/
def pushPass (rootCid : String) :
    List SyncMessageEntry → List SyncMessageEntry → Push (Except PushFailure (List SyncMessageEntry))
  | [], retry => return .ok retry
  | entry :: ordered, retry => do
    match ← pushEntry rootCid entry with
    | .applied => pushPass rootCid ordered retry
    | .retry entries => pushPass rootCid ordered (retry ++ entries)
    | .failed failure => return .error failure

/-- A later entry of the same message replaces an earlier one in its place. -/
def dedupeSyncMessageEntries (entries : List SyncMessageEntry) : List SyncMessageEntry :=
  (entries.foldl (fun (byCid : Assoc SyncMessageEntry) e =>
    Assoc.set byCid (SyncMessageEntry.cid e) e) []).map Prod.snd

/-- Passes over what is pending: what is left when they run out, or the failure of the root. -/
def pushPasses (rootCid : String) :
    Nat → List SyncMessageEntry → Push (Except PushFailure (List SyncMessageEntry))
  | 0, pending => return .ok pending
  | passes + 1, pending =>
    if pending = [] then return .ok []
    else do
      match ← pushPass rootCid (orderMessagesForAdmission E.dependencies pending) [] with
      | .error failure => return .error failure
      | .ok retry => pushPasses rootCid passes (dedupeSyncMessageEntries retry)

def pushRoot (rootCid : String) (rootEntry : SyncMessageEntry) : Push PushRootOutcome := do
  match ← pushPasses rootCid maxAdmissionPasses [rootEntry] with
  | .error failure => return .failed failure
  | .ok (_ :: _) =>
    return .failed { cid := rootCid, kind := some .incomplete
                     detail := some "remote dependency apply pass budget exhausted" }
  | .ok [] => do
    let s ← get
    if s.has rootCid then return .succeeded
    else
      return .failed { cid := rootCid, kind := some .incomplete
                       detail := some "remote did not acknowledge the pushed root message" }

/-! ## All roots -/

/-- The roots that succeeded and those that failed, each with the failure that names it. -/
structure Disposition where
  succeeded : List String := []
  failedByRoot : Assoc PushFailure := []
  deriving DecidableEq, Repr

def Disposition.record (d : Disposition) (rootCid : String) : PushRootOutcome → Disposition
  | .succeeded =>
    { succeeded := if rootCid ∈ d.succeeded then d.succeeded else d.succeeded ++ [rootCid]
      failedByRoot := d.failedByRoot.filter fun p => p.1 ≠ rootCid }
  | .failed failure => { d with failedByRoot := Assoc.set d.failedByRoot failure.cid failure }

/-- The roots in turn; one that has failed already is passed over. -/
def pushRoots : List SyncMessageEntry → Disposition → Push Disposition
  | [], d => pure d
  | rootEntry :: rootEntries, d =>
    let rootCid := SyncMessageEntry.cid rootEntry
    if rootCid ∈ d.failedByRoot.map Prod.fst then pushRoots rootEntries d
    else do
      let outcome ← pushRoot rootCid rootEntry
      pushRoots rootEntries (d.record rootCid outcome)

structure PushResult where
  succeeded : List String
  acknowledged : List PushAcknowledgement
  failed : List PushFailure
  deriving DecidableEq, Repr

def pushEntries (rootEntries : List SyncMessageEntry) (failedByRoot : Assoc PushFailure) :
    Push PushResult := do
  let acknowledgedBefore ← get
  let d ← pushRoots (orderMessagesForAdmission E.dependencies rootEntries) { failedByRoot }
  let s ← get
  return {
    succeeded := d.succeeded
    acknowledged := (s.acknowledgementsByCid.filter fun p =>
      !acknowledgedBefore.has p.1 || decide (p.1 ∈ d.succeeded)).map fun p => ⟨p.1, p.2⟩
    failed := d.failedByRoot.map Prod.snd }

/-- The roots that can be read locally, and the failures of the others. -/
def fetchRootEntries : List String → List SyncMessageEntry → Assoc PushFailure →
    Push (List SyncMessageEntry × Assoc PushFailure)
  | [], rootEntries, failedByRoot => pure (rootEntries, failedByRoot)
  | rootCid :: rootCids, rootEntries, failedByRoot => do
    match ← fetchMessageCid rootCid with
    | .error e => throw (.read e)
    | .ok (.failed failure) =>
      fetchRootEntries rootCids rootEntries
        (Assoc.set failedByRoot rootCid (localFetchFailure rootCid failure))
    | .ok (.fetched entries) => fetchRootEntries rootCids (rootEntries ++ entries) failedByRoot

def push (rootCids : List String) : Push PushResult := do
  let (rootEntries, failedByRoot) ← fetchRootEntries rootCids.eraseDups [] []
  pushEntries rootEntries failedByRoot

/-- Push one complete local-feed root alongside any explicitly staged roots. -/
def pushFeedEntry (messageCid : String) (stagedRootCids : List String) : Push PushResult := do
  let (rootEntries, failedByRoot) ← fetchRootEntries stagedRootCids.eraseDups [] []
  match ← fetchMessageFeedEntry messageCid with
  | .error e => throw (.read e)
  | .ok (.failed failure) =>
    pushEntries rootEntries
      (Assoc.set failedByRoot messageCid (localFetchFailure messageCid failure))
  | .ok (.fetched entries) => pushEntries (rootEntries ++ entries) failedByRoot

end Push

end RemoteApplyPushContext

end EnboxDwn.Agent
