import EnboxDwn.Lib.Interaction
import EnboxDwn.PullPage
import EnboxDwn.ReplicationLinkStore

/-! Reconciliation of one link over its two durable feeds. A cycle pulls what the remote has, pushes
what the remote lacks, and commits the checkpoint of a direction page by page. Everything that a
cycle learns of the outside is an answer to one of the operations below. -/
namespace EnboxDwn.Agent

open Interaction

/-! ## Operations -/

inductive FeedSource where
  | localFeed | remoteFeed
  deriving DecidableEq, Repr

def SyncAuthorization.isRole : SyncAuthorization → Bool
  | .role _ _ _ => true
  | .owner | .delegate _ _ => false

def FeedSource.toString : FeedSource → String
  | .localFeed => "local"
  | .remoteFeed => "remote"

structure SyncTarget where
  did : String
  dwnUrl : String
  projectionId : String
  authorizationEpoch : String
  authorization : SyncAuthorization
  deriving DecidableEq, Repr

structure SyncDurableFeedQuery where
  cidsOnly : Bool := false
  cursor : Option ProgressToken := none
  limit : Nat
  source : FeedSource
  deriving DecidableEq, Repr

/-- How the admission of one remote entry ended. -/
inductive FeedEntryAdmission where
  | aborted
  | admitted (handledCids : List String)
  | deadLettered
  | deferred (detail : Option String)
  | echo
  deriving DecidableEq, Repr

/-- The roots that were read, by their addresses. -/
inductive FetchDependencyResult where
  | fetched (rootCids : List String)
  | failed (failure : PushFailure)
  deriving DecidableEq, Repr

/-- What the remote took while a root was pushed, and the failure that stopped it. -/
structure RemoteApplyOutcome where
  acknowledged : List String
  failure : Option PushFailure
  deriving DecidableEq, Repr

structure SyncQuotaBlockState where
  blockedCid : String
  superseded : Bool
  detail : Option String := none
  module : Option String := none
  deriving DecidableEq, Repr

inductive SyncDurableFeedPermissionGrantBootstrapResult where
  | aborted
  | processed (failures : List PushFailure) (quotaBlocked : Bool)
  deriving DecidableEq, Repr

/-- `commitCheckpoint` carries the token that the copy in memory has when it is called; it and
`resetCheckpoint` are answered with the time of the call. -/
inductive FeedOperation where
  | shouldContinue
  | queryFeed (query : SyncDurableFeedQuery)
  | hasDeadLetter (messageCid : String)
  | admitRemoteFeedEntry (entry : MessagesQueryReplyEntry)
  | tryRetireDeferredPull (entry : MessagesQueryReplyEntry) (detail : Option String)
  | trackRemoteFeedHandledCids (messageCids : List String)
  | getState (messageCid : String)
  | hasRecentlyPulled (messageCid : String)
  | getQuotaBlockedInitialCidsForFeedEntry (entry : MessagesQueryReplyEntry)
  | fetchMessageCid (messageCid : String)
  | fetchMessageFeedEntry (entry : MessagesQueryReplyEntry)
  | applyRemoteRoot (rootCid : String)
  | applyPushAcknowledgements (messageCids : List String)
  | recordBlock (messageCid : String) (blockedCid : String)
  | resolveBlock (messageCid : String)
  | clearBlock (messageCid : String)
  | recordTerminalFailure (failure : PushFailure)
  | bootstrapRemotePermissionGrants (forceQuotaProbe : Bool)
  | getActiveBlocksForTarget
  | probeQuotaBlocks (force : Bool) (forceProbeCids : Option (List String))
  | clearResolvedOmissionsForTarget
  | commitCheckpoint (direction : SyncDirection) (token : Option ProgressToken)
  | resetCheckpoint (direction : SyncDirection)
  deriving DecidableEq, Repr

@[reducible] def FeedOperation.Answer : FeedOperation → Type
  | shouldContinue => Bool
  | queryFeed _ => MessagesQueryReply
  | hasDeadLetter _ => Bool
  | admitRemoteFeedEntry _ => FeedEntryAdmission
  | tryRetireDeferredPull _ _ => Bool
  | trackRemoteFeedHandledCids _ => Unit
  | getState _ => Option SyncQuotaBlockState
  | hasRecentlyPulled _ => Bool
  | getQuotaBlockedInitialCidsForFeedEntry _ => List String
  | fetchMessageCid _ => FetchDependencyResult
  | fetchMessageFeedEntry _ => FetchDependencyResult
  | applyRemoteRoot _ => RemoteApplyOutcome
  | applyPushAcknowledgements _ => Unit
  | recordBlock _ _ => SyncQuotaBlockState
  | resolveBlock _ => Unit
  | clearBlock _ => Unit
  | recordTerminalFailure _ => Unit
  | bootstrapRemotePermissionGrants _ => SyncDurableFeedPermissionGrantBootstrapResult
  | getActiveBlocksForTarget => List String
  | probeQuotaBlocks _ _ => Unit
  | clearResolvedOmissionsForTarget => Unit
  | commitCheckpoint _ _ => String
  | resetCheckpoint _ => String

/-- The copy of the link that a cycle works on, the stored links, and the calls that made them. -/
structure FeedState where
  link : ReplicationLinkState
  links : SyncReplicationLinkStore.Links
  calls : List SyncReplicationLinkStore.Call

/-- A cycle stops with what was thrown, or when the model has no fuel for another page. -/
inductive FeedStop where
  | thrown (error : Thrown)
  | outOfFuel
  deriving DecidableEq, Repr

abbrev FeedEvent := Interaction.Event FeedOperation FeedOperation.Answer FeedStop
abbrev FeedWorld := Interaction.World FeedOperation FeedOperation.Answer FeedStop FeedState
abbrev FeedEnvironment := Interaction.Environment FeedOperation FeedOperation.Answer FeedStop
abbrev FeedProgram (α : Type) := Interaction.Program FeedOperation FeedOperation.Answer FeedStop FeedState α

def liftThrown {α : Type} (x : Except Thrown α) : FeedProgram α := compute (x.mapError .thrown)

def MessagesQueryReplyEntry.cid (entry : MessagesQueryReplyEntry) : String := entry.messageCid.getD ""

def MessagesQueryReplyEntry.position (entry : MessagesQueryReplyEntry) : String := entry.seq.getD ""

section Operations
variable (env : FeedEnvironment)

/-! ## The link -/

def getLink : FeedProgram ReplicationLinkState := return (← getState).link

def setLink (link : ReplicationLinkState) : FeedProgram Unit := do
  setState { ← getState with link }

/-- A call of the store of links; one that throws has written nothing. -/
def callLinkStore (call : SyncReplicationLinkStore.Call) : FeedProgram Unit := do
  let state ← getState
  let links ← liftThrown (call.apply state.links)
  setState { state with links, calls := state.calls ++ [call] }

def shouldAbort : FeedProgram Bool := return !(← ask env .shouldContinue)

/-- `commitReconciledCheckpoint` of the engine; the announcement after it changes nothing. -/
def commitCheckpoint (direction : SyncDirection) : FeedProgram Unit := do
  let link ← getLink
  let now ← ask env
    (.commitCheckpoint direction (link.checkpoint direction).contiguousAppliedToken)
  callLinkStore (.persistCheckpoint link direction now)

def resetCheckpoint (direction : SyncDirection) : FeedProgram Unit := do
  let link ← getLink
  let link := link.withCheckpoint (SyncCheckpoint.reset none) direction
  setLink link
  let now ← ask env (.resetCheckpoint direction)
  callLinkStore (.resetCheckpoint link direction none now)

/-! ## Admission of a remote page -/

inductive SyncDurableFeedPageAdmissionResult where
  | aborted
  | deferred (handledCids : List String) (detail : Option String) (messageCid : String)
  | processed (handledCids : List String)
  deriving DecidableEq, Repr

/-- A role link does not skip what it once gave up. -/
def skipsDeadLetter (target : SyncTarget) (messageCid : String) : FeedProgram Bool :=
  if target.authorization.isRole then return false else ask env (.hasDeadLetter messageCid)

/-- The loop of `admitRemoteFeedPage`. A deferred entry stops the page unless it is retired. -/
def admitRemoteFeedEntries (target : SyncTarget) :
    List MessagesQueryReplyEntry → List String → FeedProgram SyncDurableFeedPageAdmissionResult
  | [], handledCids => return .processed handledCids
  | entry :: entries, handledCids => do
    if ← skipsDeadLetter env target entry.cid then
      admitRemoteFeedEntries target entries handledCids
    else
      match ← ask env (.admitRemoteFeedEntry entry) with
      | .aborted => return .aborted
      | .deferred detail =>
        if ← ask env (.tryRetireDeferredPull entry detail) then
          admitRemoteFeedEntries target entries handledCids
        else return .deferred handledCids detail entry.cid
      | .echo | .deadLettered => admitRemoteFeedEntries target entries handledCids
      | .admitted handled => do
        ask env (.trackRemoteFeedHandledCids handled)
        admitRemoteFeedEntries target entries (handledCids ++ handled)

def admitRemoteFeedPage (target : SyncTarget) (entries : List MessagesQueryReplyEntry) :
    FeedProgram SyncDurableFeedPageAdmissionResult :=
  admitRemoteFeedEntries env target entries []

/-! ## Push of a local page -/

/-- The roots in admission order; a root that could not be read is not pushed. -/
def pushRoots : List String → List String → List String → List PushFailure →
    FeedProgram (List String × List String × List PushFailure)
  | [], acknowledged, succeeded, failedByRoot => return (acknowledged, succeeded, failedByRoot)
  | rootCid :: roots, acknowledged, succeeded, failedByRoot => do
    if failedByRoot.any (·.cid = rootCid) then
      pushRoots roots acknowledged succeeded failedByRoot
    else do
      let outcome ← ask env (.applyRemoteRoot rootCid)
      let acknowledged := acknowledged ++ outcome.acknowledged
      match outcome.failure with
      | some failure =>
        pushRoots roots acknowledged succeeded (failedByRoot ++ [{ failure with cid := rootCid }])
      | none =>
        if rootCid ∈ acknowledged then
          pushRoots roots acknowledged (succeeded ++ [rootCid]) failedByRoot
        else
          pushRoots roots acknowledged succeeded (failedByRoot ++
            [{ cid := rootCid, kind := some .incomplete,
               detail := some "remote did not acknowledge the pushed root message" }])

def pushEntries (dependencies : Dependencies String) (rootCids acknowledgedBefore : List String)
    (failedByRoot : List PushFailure) : FeedProgram (PushResult × List String) := do
  let (acknowledged, succeeded, failed) ←
    pushRoots env (orderMessagesForAdmission dependencies rootCids) acknowledgedBefore [] failedByRoot
  let reported := acknowledged.filter fun cid => cid ∉ acknowledgedBefore ∨ cid ∈ succeeded
  return ({ succeeded, acknowledged := reported, failed }, acknowledged)

def fetchRootEntries : List String → List String → List PushFailure →
    FeedProgram (List String × List PushFailure)
  | [], rootEntries, failedByRoot => return (rootEntries, failedByRoot)
  | rootCid :: rootCids, rootEntries, failedByRoot => do
    match ← ask env (.fetchMessageCid rootCid) with
    | .failed failure =>
      fetchRootEntries rootCids rootEntries (failedByRoot ++ [{ failure with cid := rootCid }])
    | .fetched entries => fetchRootEntries rootCids (rootEntries ++ entries) failedByRoot

/-- Push one complete local-feed root alongside any explicitly staged roots. -/
def pushFeedEntry (dependencies : Dependencies String) (entry : MessagesQueryReplyEntry)
    (stagedRootCids acknowledged : List String) : FeedProgram (PushResult × List String) := do
  let (rootEntries, failedByRoot) ← fetchRootEntries env stagedRootCids.eraseDups [] []
  match ← ask env (.fetchMessageFeedEntry entry) with
  | .failed failure =>
    pushEntries env dependencies rootEntries acknowledged
      (failedByRoot.filter (·.cid ≠ entry.cid) ++ [{ failure with cid := entry.cid }])
  | .fetched entries =>
    pushEntries env dependencies (rootEntries ++ entries) acknowledged failedByRoot

def attributeBlockedFeedDependency (result : PushResult) (rootCid : String)
    (stagedDependencyCids : List String) : PushResult :=
  match result.failed.find? fun failure =>
    failure.quotaBlocked && failure.cid ∈ stagedDependencyCids with
  | none => result
  | some blockedDependency =>
    { result with failed := result.failed.map fun failure =>
        if failure.cid ≠ rootCid ∨ failure.quotaBlocked ∨ failure.terminal then failure
        else { failure with
          dependencyCid := some blockedDependency.cid
          kind := some .deferred
          reason := some "storage"
          quotaBlocked := true
          detail := blockedDependency.detail } }

/-- The failure is kept for a retry when nothing was recorded for it. -/
def applyPushFailureOutcome (failure : PushFailure) : FeedProgram (List PushFailure) := do
  if failure.quotaBlocked then
    let _ ← ask env (.recordBlock failure.cid (failure.dependencyCid.getD failure.cid))
    return []
  else
    match ← ask env (.getState failure.cid) with
    | none =>
      if failure.terminal then do
        ask env (.clearBlock failure.cid)
        ask env (.recordTerminalFailure failure)
        return []
      else return [failure]
    | some previousBlock =>
      if previousBlock.superseded then return []
      else if failure.localMissing then do
        ask env (.resolveBlock failure.cid)
        return []
      else if failure.terminal then do
        ask env (.clearBlock failure.cid)
        ask env (.recordTerminalFailure failure)
        return []
      else do
        let _ ← ask env (.recordBlock failure.cid previousBlock.blockedCid)
        return []

/-- The loop of `applyPushResult` over the failures. -/
def applyPushFailures (acknowledged : List String) (module : Option String) :
    List PushFailure → List PushFailure → FeedProgram (List PushFailure)
  | [], retryableFailures => return retryableFailures
  | failure :: failures, retryableFailures => do
    if failure.cid ∈ acknowledged then applyPushFailures acknowledged module failures retryableFailures
    else do
      let retryable ← applyPushFailureOutcome env { failure with module := failure.module <|> module }
      applyPushFailures acknowledged module failures (retryableFailures ++ retryable)

def applyPushResult (result : PushResult) (module : Option String) :
    FeedProgram (List PushFailure) := do
  let acknowledged := result.acknowledged ++ result.succeeded.filter (· ∉ result.acknowledged)
  ask env (.applyPushAcknowledgements acknowledged)
  applyPushFailures env acknowledged module result.failed []

inductive FeedPushEntryResult where
  | aborted
  | failed (failures : List PushFailure)
  | processed
  deriving DecidableEq, Repr

/-- The addresses the remote has acknowledged on this page are passed on from entry to entry. -/
def pushLocalFeedEntry (dependencies : Dependencies String) (entry : MessagesQueryReplyEntry)
    (acknowledged : List String) : FeedProgram (FeedPushEntryResult × List String) := do
  if ← ask env (.hasDeadLetter entry.cid) then return (.processed, acknowledged)
  else if (← ask env (.getState entry.cid)).isSome then return (.processed, acknowledged)
  else if ← ask env (.hasRecentlyPulled entry.cid) then return (.processed, acknowledged)
  else do
    let quotaBlockedInitialCids ← ask env (.getQuotaBlockedInitialCidsForFeedEntry entry)
    let (result, acknowledged) ←
      pushFeedEntry env dependencies entry quotaBlockedInitialCids acknowledged
    if ← shouldAbort env then return (.aborted, acknowledged)
    else do
      let attributedResult :=
        attributeBlockedFeedDependency result entry.cid quotaBlockedInitialCids
      let retryableFailures ← applyPushResult env attributedResult entry.module
      if attributedResult.failed = [] ∨ retryableFailures = [] then
        return (.processed, acknowledged)
      else return (.failed retryableFailures, acknowledged)

inductive SyncDurableFeedPagePushResult where
  | aborted
  | error (error : FeedStop) (failedEntry : MessagesQueryReplyEntry)
  | failed (failedEntry : MessagesQueryReplyEntry) (failures : List PushFailure)
  | processed

/-- What pushing the entry threw is a value to the loop of the page. -/
def tryPushLocalFeedEntry (dependencies : Dependencies String) (entry : MessagesQueryReplyEntry)
    (acknowledged : List String) :
    FeedProgram (Except FeedStop (FeedPushEntryResult × List String)) :=
  tryCatch (do return .ok (← pushLocalFeedEntry env dependencies entry acknowledged))
    fun error => return .error error

def pushLocalFeedEntries (dependencies : Dependencies String) :
    List MessagesQueryReplyEntry → List String → FeedProgram SyncDurableFeedPagePushResult
  | [], _ => return .processed
  | entry :: entries, acknowledged => do
    if ← shouldAbort env then return .aborted
    else
      match ← tryPushLocalFeedEntry env dependencies entry acknowledged with
      | .error error => return .error error entry
      | .ok (.aborted, _) => return .aborted
      | .ok (.failed failures, _) => return .failed entry failures
      | .ok (.processed, acknowledged) => pushLocalFeedEntries dependencies entries acknowledged

def pushLocalFeedPage (dependencies : Dependencies String)
    (entries : List MessagesQueryReplyEntry) : FeedProgram SyncDurableFeedPagePushResult :=
  pushLocalFeedEntries env dependencies entries []

end Operations

/-! ## Pages and checkpoints -/

namespace SyncDurableFeedReconciler

def pageLimit : Nat := 100

structure Options where
  direction : Option SyncDirection := none
  forceQuotaProbe : Bool := false
  verifyConvergence : Bool := false
  deriving DecidableEq, Repr

structure Result where
  aborted : Bool := false
  converged : Option Bool := none
  localFingerprint : Option String := none
  pullDrained : Bool := false
  deferredPull : Option (String × Option String) := none
  paused : Bool := false
  pushFailures : Option (List PushFailure) := none
  quotaBlocked : Bool := false
  remoteFingerprint : Option String := none
  deriving DecidableEq, Repr

inductive FeedCursorAdvanceResult where
  | drained
  | advanced (cursor : ProgressToken)
  deriving DecidableEq, Repr

inductive ProcessFeedPageResult where
  | nextCursor (cursor : ProgressToken)
  | result (result : Result)
  deriving DecidableEq, Repr

def directionLabel : SyncDirection → String
  | .pull => "pull"
  | .push => "push"

def queryLabel : SyncDirection → String
  | .pull => "MessagesQuery"
  | .push => "local MessagesQuery"

def failure (message : String) : Thrown := .error ("SyncDurableFeedReconciler: " ++ message)

def assertQuerySucceeded (reply : MessagesQueryReply) (target : SyncTarget)
    (direction : SyncDirection) : Except Thrown Unit :=
  if reply.status.code ≠ 200 then
    .error (failure (queryLabel direction ++ " failed for " ++ target.did ++ " -> " ++
      target.dwnUrl ++ ": " ++ reply.status.code.repr ++ " " ++ reply.status.detail))
  else .ok ()

def assertCursorProgress (link : ReplicationLinkState) (previousCursor : Option ProgressToken)
    (nextCursor : ProgressToken) (drained : Bool) (dwnUrl : String) (direction : SyncDirection) :
    Except Thrown Unit :=
  let whence := link.tenantDid ++ " -> " ++ dwnUrl
  if !isValidProgressToken nextCursor then
    .error (failure (directionLabel direction ++ " MessagesQuery returned an invalid cursor for " ++
      whence))
  else if !SyncCheckpoint.validateTokenDomain (link.checkpoint direction) nextCursor then
    .error (failure (directionLabel direction ++ " MessagesQuery token domain mismatch for " ++
      whence))
  else
    match previousCursor with
    | none => .ok ()
    | some previousCursor => do
      let comparison ← SyncCheckpoint.comparePosition nextCursor previousCursor
      if comparison < 0 ∨ comparison = 0 ∧ drained = false then
        .error (failure (directionLabel direction ++ " MessagesQuery cursor did not advance for " ++
          whence))
      else .ok ()

def nextEnumerationCursor (reply : MessagesQueryReply) (target : SyncTarget) (source : FeedSource) :
    Except Thrown FeedCursorAdvanceResult :=
  let drained := reply.drained = some true
  match reply.cursor with
  | none =>
    if drained then .ok .drained
    else .error (failure (source.toString ++ " MessagesQuery for " ++ target.did ++ " -> " ++
      target.dwnUrl ++ " returned no cursor before drain"))
  | some cursor =>
    if !isValidProgressToken cursor then
      .error (failure (source.toString ++ " MessagesQuery returned an invalid cursor for " ++
        target.did ++ " -> " ++ target.dwnUrl))
    else if drained then .ok .drained
    else .ok (.advanced cursor)

def entriesMissingFrom (knownCids : List String) (entries : List MessagesQueryReplyEntry) :
    List MessagesQueryReplyEntry :=
  entries.filter fun entry => entry.cid ∉ knownCids

section Pages
variable (env : FeedEnvironment) (dependencies : Dependencies String) (target : SyncTarget)

/-- The token is committed to the copy in memory, then the copy to the store. -/
def commitToken (direction : SyncDirection) (token : ProgressToken) : FeedProgram Unit := do
  let link ← getLink
  let checkpoint ← liftThrown
    (SyncCheckpoint.commitContiguousToken (link.checkpoint direction) token)
  setLink (link.withCheckpoint checkpoint direction)
  commitCheckpoint env direction

def commitPageProgress (direction : SyncDirection) (previousCursor : Option ProgressToken)
    (reply : MessagesQueryReply) : FeedProgram FeedCursorAdvanceResult := do
  let drained := reply.drained = some true
  match reply.cursor with
  | none =>
    if drained then return .drained
    else liftThrown (.error (failure (queryLabel direction ++ " for " ++ target.did ++ " -> " ++
      target.dwnUrl ++ " returned no cursor before drain")))
  | some cursor => do
    liftThrown (assertCursorProgress (← getLink) previousCursor cursor drained target.dwnUrl direction)
    commitToken env direction cursor
    return if drained then .drained else .advanced cursor

/-- Persist the contiguous local-feed prefix preceding one failed push root. -/
def commitPushPrefixProgress (previousCursor : Option ProgressToken) (reply : MessagesQueryReply)
    (failedEntry : MessagesQueryReplyEntry) : FeedProgram Unit := do
  let entries := reply.entries.getD []
  match entries.findIdx? fun entry =>
    entry.seq = failedEntry.seq && entry.messageCid = failedEntry.messageCid with
  | none =>
    liftThrown (.error (failure ("failed push entry " ++ failedEntry.cid ++
      " was not in the local MessagesQuery page for " ++ target.did ++ " -> " ++ target.dwnUrl)))
  | some failedIndex =>
    match entries[failedIndex - 1]?, failedIndex with
    | _, 0 | none, _ => return
    | some precedingEntry, _ + 1 =>
      match reply.cursor with
      | none =>
        liftThrown (.error (failure ("local MessagesQuery for " ++ target.did ++ " -> " ++
          target.dwnUrl ++ " returned no cursor for a processed prefix")))
      | some cursor => do
        let prefixCursor : ProgressToken :=
          { epoch := cursor.epoch
            messageCid := precedingEntry.messageCid
            position := precedingEntry.position
            streamId := cursor.streamId }
        liftThrown (assertCursorProgress (← getLink) previousCursor prefixCursor false
          target.dwnUrl .push)
        commitToken env .push prefixCursor

/-- A gap is answered by a reset once in a loop; the next one is an error of the query. -/
def resetAfterProgressGap (reply : MessagesQueryReply) (direction : SyncDirection)
    (alreadyReset : Bool) : FeedProgram Bool := do
  if reply.status.code ≠ 410 ∨ alreadyReset then return false
  else do
    resetCheckpoint env direction
    return true

/-- Reset corrupt durable progress before it can enter a DWN query. -/
def resetInvalidCheckpoint (direction : SyncDirection) : FeedProgram Unit := do
  match ((← getLink).checkpoint direction).contiguousAppliedToken with
  | none => return
  | some token => if isValidProgressToken token then return else resetCheckpoint env direction

/-- Admit one pull page and advance its checkpoint only after it settles. -/
def processPullPage (cursor : Option ProgressToken) (entries : List MessagesQueryReplyEntry)
    (knownCids : List String) (reply : MessagesQueryReply) :
    FeedProgram (ProcessFeedPageResult × List String) := do
  match ← admitRemoteFeedPage env target entries with
  | .aborted => return (.result { aborted := true }, knownCids)
  | .deferred handledCids detail messageCid =>
    return (.result { deferredPull := some (messageCid, detail) }, knownCids ++ handledCids)
  | .processed handledCids => do
    match ← commitPageProgress env target .pull cursor reply with
    | .drained =>
      return (.result { pullDrained := true, remoteFingerprint := reply.fingerprint },
        knownCids ++ handledCids)
    | .advanced cursor => return (.nextCursor cursor, knownCids ++ handledCids)

/-- Push one local page and persist either its settled prefix or full progress. -/
def processPushPage (cursor : Option ProgressToken) (entries : List MessagesQueryReplyEntry)
    (knownCids : List String) (reply : MessagesQueryReply) :
    FeedProgram (ProcessFeedPageResult × List String) := do
  match ← pushLocalFeedPage env dependencies entries with
  | .aborted => return (.result { aborted := true }, knownCids)
  | .error error failedEntry => do
    commitPushPrefixProgress env target cursor reply failedEntry
    throw error
  | .failed failedEntry failures => do
    commitPushPrefixProgress env target cursor reply failedEntry
    return (.result { pushFailures := some failures }, knownCids)
  | .processed => do
    let knownCids := knownCids ++ entries.map (·.cid)
    match ← commitPageProgress env target .push cursor reply with
    | .drained =>
      return (.result { localFingerprint := reply.fingerprint, pushFailures := some [] }, knownCids)
    | .advanced cursor => return (.nextCursor cursor, knownCids)

end Pages

/-! ## The loops over pages

The fuel bounds the rounds of each loop. -/

section Loops
variable (env : FeedEnvironment) (dependencies : Dependencies String) (target : SyncTarget)

/-- Collect the complete feed inventory from one source, or return nothing if cancelled. -/
def collectFeedCids (source : FeedSource) :
    Nat → Option ProgressToken → List String → FeedProgram (Option (List String))
  | 0, _, _ => throw .outOfFuel
  | fuel + 1, cursor, cids => do
    if ← shouldAbort env then return none
    else do
      let reply ← ask env (.queryFeed { cidsOnly := true, cursor, limit := pageLimit, source })
      liftThrown (assertQuerySucceeded reply target (if source = .localFeed then .push else .pull))
      let cids := cids ++ (reply.entries.getD []).map (·.cid)
      match ← liftThrown (nextEnumerationCursor reply target source) with
      | .drained => return some cids
      | .advanced cursor => collectFeedCids source fuel (some cursor) cids

def pullRemoteDiffPages :
    Nat → Option ProgressToken → Bool → Bool → List String → FeedProgram Result
  | 0, _, _, _, _ => throw .outOfFuel
  | fuel + 1, cursor, alreadyReset, cidsOnly, localCids => do
    if ← shouldAbort env then return { aborted := true }
    else do
      let reply ← ask env
        (.queryFeed { cidsOnly, cursor, limit := pageLimit, source := .remoteFeed })
      if ← resetAfterProgressGap env reply .pull alreadyReset then
        pullRemoteDiffPages fuel none true cidsOnly localCids
      else do
        liftThrown (assertQuerySucceeded reply target .pull)
        let missingEntries := entriesMissingFrom localCids (reply.entries.getD [])
        -- the page is read again with its messages, instead of one message at a time
        if cidsOnly && missingEntries.length > 1 then
          pullRemoteDiffPages fuel cursor alreadyReset false localCids
        else
          match ← processPullPage env target cursor missingEntries localCids reply with
          | (.result result, _) => return result
          | (.nextCursor cursor, localCids) =>
            pullRemoteDiffPages fuel (some cursor) alreadyReset (missingEntries.length ≤ 1) localCids

def pullRemoteDiffWhenUseful (fuel : Nat) : FeedProgram (Option Result) := do
  match ← collectFeedCids env target .localFeed fuel none [] with
  | none => return some { aborted := true }
  | some localCids =>
    if localCids = [] then return none
    else return some (← pullRemoteDiffPages env target fuel none false true localCids)

def pullRemoteOwnerDiffWhenUseful (fuel : Nat) : FeedProgram (Option Result) :=
  if target.authorization.isRole then return none else pullRemoteDiffWhenUseful env target fuel

/-- The loop of `pullRemotePages`; `diffFuel` is for the difference it turns to after a gap. -/
def pullRemotePagesFrom (diffFuel : Nat) :
    Nat → Option ProgressToken → Bool → FeedProgram Result
  | 0, _, _ => throw .outOfFuel
  | fuel + 1, cursor, alreadyReset => do
    if ← shouldAbort env then return { aborted := true }
    else do
      let reply ← ask env (.queryFeed { cursor, limit := pageLimit, source := .remoteFeed })
      if ← resetAfterProgressGap env reply .pull alreadyReset then
        match ← pullRemoteOwnerDiffWhenUseful env target diffFuel with
        | some result => return result
        | none => pullRemotePagesFrom diffFuel fuel none true
      else do
        liftThrown (assertQuerySucceeded reply target .pull)
        match ← processPullPage env target cursor (reply.entries.getD []) [] reply with
        | (.result result, _) => return result
        | (.nextCursor cursor, _) => pullRemotePagesFrom diffFuel fuel (some cursor) alreadyReset

def pullRemotePages (fuel : Nat) : FeedProgram Result := do
  let useful ← (if (← getLink).pull.contiguousAppliedToken = none then
    pullRemoteOwnerDiffWhenUseful env target fuel else return none)
  match useful with
  | some result => return result
  | none =>
    pullRemotePagesFrom env target fuel fuel (← getLink).pull.contiguousAppliedToken false

def queryLocalPage (cursor : Option ProgressToken) : FeedProgram MessagesQueryReply :=
  ask env (.queryFeed { cidsOnly := false, cursor, limit := pageLimit, source := .localFeed })

def pushLocalDiffPages :
    Nat → Option ProgressToken → Bool → List String → FeedProgram Result
  | 0, _, _, _ => throw .outOfFuel
  | fuel + 1, cursor, alreadyReset, remoteCids => do
    if ← shouldAbort env then return { aborted := true }
    else do
      let reply ← queryLocalPage env cursor
      if ← resetAfterProgressGap env reply .push alreadyReset then
        pushLocalDiffPages fuel none true remoteCids
      else do
        liftThrown (assertQuerySucceeded reply target .push)
        let missingEntries := entriesMissingFrom remoteCids (reply.entries.getD [])
        match ← processPushPage env dependencies target cursor missingEntries remoteCids reply with
        | (.result result, _) => return result
        | (.nextCursor cursor, remoteCids) =>
          pushLocalDiffPages fuel (some cursor) alreadyReset remoteCids

def pushLocalDiffWithRemoteInventory (fuel : Nat) (forceQuotaProbe : Bool) :
    FeedProgram Result := do
  match ← ask env (.bootstrapRemotePermissionGrants forceQuotaProbe) with
  | .aborted => return { aborted := true }
  | .processed failures quotaBlocked =>
    if quotaBlocked then return { pushFailures := some [], quotaBlocked := true }
    else if failures ≠ [] then return { pushFailures := some failures }
    else
      match ← collectFeedCids env target .remoteFeed fuel none [] with
      | none => return { aborted := true }
      | some remoteCids => pushLocalDiffPages env dependencies target fuel none false remoteCids

/-- The loop of `pushLocalPages`. -/
def pushLocalPagesFrom (forceQuotaProbe : Bool) (diffFuel : Nat) :
    Nat → Option ProgressToken → FeedProgram Result
  | 0, _ => throw .outOfFuel
  | fuel + 1, cursor => do
    if ← shouldAbort env then return { aborted := true }
    else do
      let reply ← queryLocalPage env cursor
      if ← resetAfterProgressGap env reply .push false then
        pushLocalDiffWithRemoteInventory env dependencies target diffFuel forceQuotaProbe
      else do
        liftThrown (assertQuerySucceeded reply target .push)
        match ← processPushPage env dependencies target cursor (reply.entries.getD []) [] reply with
        | (.result result, _) => return result
        | (.nextCursor cursor, _) => pushLocalPagesFrom forceQuotaProbe diffFuel fuel (some cursor)

def pushLocalPages (fuel : Nat) (forceQuotaProbe : Bool) : FeedProgram Result := do
  match (← getLink).push.contiguousAppliedToken with
  | none => pushLocalDiffWithRemoteInventory env dependencies target fuel forceQuotaProbe
  | some token =>
    pushLocalPagesFrom env dependencies target forceQuotaProbe fuel fuel (some token)

/-! ## Cycles -/

def initialResult (options : Options) : Result where
  converged := if options.verifyConvergence then some true else none
  pushFailures := some []

def mergeResult (accumulator latest : Result) (options : Options) : Result where
  aborted := accumulator.aborted || latest.aborted
  pushFailures := accumulator.pushFailures.map (· ++ latest.pushFailures.getD [])
  deferredPull := latest.deferredPull <|> accumulator.deferredPull
  quotaBlocked := accumulator.quotaBlocked || latest.quotaBlocked
  localFingerprint := latest.localFingerprint <|> accumulator.localFingerprint
  pullDrained := accumulator.pullDrained || latest.pullDrained
  remoteFingerprint := latest.remoteFingerprint <|> accumulator.remoteFingerprint
  paused := accumulator.paused
  converged :=
    if options.verifyConvergence ∧ (latest.converged = some false ∨ latest.quotaBlocked ∨
        latest.pushFailures.getD [] ≠ []) then some false
    else accumulator.converged

def shouldStop (accumulator latest : Result) : Bool :=
  latest.aborted || latest.quotaBlocked || accumulator.pushFailures.getD [] ≠ []

def fingerprintsConverged (result : Result) : Bool :=
  result.pushFailures.getD [] = [] && result.localFingerprint.isSome &&
    result.localFingerprint = result.remoteFingerprint

/-- Pull every missing remote feed entry and persist contiguous progress. -/
def pull (options : Options) (fuel : Nat) : FeedProgram Result := do
  if options.direction = some .push then return {}
  else if ← shouldAbort env then return { aborted := true }
  else do
    resetInvalidCheckpoint env .pull
    pullRemotePages env target fuel

/-- Push every missing local feed entry and persist contiguous progress. -/
def push (options : Options) (fuel : Nat) : FeedProgram Result := do
  if options.direction = some .pull then return {}
  else if ← shouldAbort env then return { aborted := true }
  else do
    resetInvalidCheckpoint env .push
    let forceProbeCids ← (if options.forceQuotaProbe then do
        return some (← ask env .getActiveBlocksForTarget)
      else return none)
    let result ← pushLocalPages env dependencies target fuel options.forceQuotaProbe
    if !result.aborted && !result.quotaBlocked && result.pushFailures.getD [] = [] then
      ask env (.probeQuotaBlocks options.forceQuotaProbe forceProbeCids)
    return result

/-- Compare exact local and remote feed fingerprints after a reconciliation. -/
def verifyConvergence : FeedProgram Result := do
  if ← shouldAbort env then return { aborted := true }
  else do
    let localReply ← ask env (.queryFeed { cidsOnly := true, limit := 1, source := .localFeed })
    let remoteReply ← ask env (.queryFeed { cidsOnly := true, limit := 1, source := .remoteFeed })
    if ← shouldAbort env then return { aborted := true }
    else do
      liftThrown (assertQuerySucceeded localReply target .push)
      liftThrown (assertQuerySucceeded remoteReply target .pull)
      let result : Result :=
        { localFingerprint := localReply.fingerprint
          remoteFingerprint := remoteReply.fingerprint
          pushFailures := some [] }
      if fingerprintsConverged result then
        ask env .clearResolvedOmissionsForTarget
      return { result with converged := some (fingerprintsConverged result) }

def reconcileTarget (options : Options) (fuel : Nat) : FeedProgram Result := do
  if (← getLink).status = .paused then return { initialResult {} with paused := true }
  else do
    let pullResult ← pull env target options fuel
    let result := mergeResult (initialResult options) pullResult options
    if shouldStop result pullResult then return result
    else if ← shouldAbort env then return { result with aborted := true }
    else do
      let pushResult ← push env dependencies target options fuel
      let result := mergeResult result pushResult options
      if shouldStop result pushResult then return result
      else if ← shouldAbort env then return { result with aborted := true }
      else if result.deferredPull.isSome then return { result with converged := none }
      else if options.verifyConvergence then do
        let convergence ← verifyConvergence env target
        return mergeResult result convergence options
      else return result

/-- Runs of one link are serialized, so a cycle is a program of its own. -/
def reconcile (options : Options) (fuel : Nat) : FeedProgram Result := do
  if ← shouldAbort env then return { initialResult options with aborted := true }
  else reconcileTarget env dependencies target options fuel

end Loops

/-! ## Runs

The link may be held in several copies, which are as old as they are. -/

inductive LinkAction where
  | load (holder : Nat) (status : LinkStatus) (connectivity : SyncConnectivityState)
  | reconcile (holder : Nat) (options : Options) (fuel : Nat)
  | resetCheckpoints (holder : Nat) (now : String)
  | setStatus (holder : Nat) (status : LinkStatus) (now : String)

structure LinkRun where
  copies : Nat → ReplicationLinkState
  links : SyncReplicationLinkStore.Links
  calls : List SyncReplicationLinkStore.Call := []
  trace : List FeedEvent := []
  turn : Nat := 0

namespace LinkRun

def call (r : LinkRun) (call : SyncReplicationLinkStore.Call) : LinkRun :=
  { r with links := SyncReplicationLinkStore.step r.links call, calls := r.calls ++ [call] }

def hold (r : LinkRun) (holder : Nat) (link : ReplicationLinkState) : LinkRun :=
  { r with copies := Function.update r.copies holder link }

def world (r : LinkRun) (holder : Nat) : FeedWorld where
  turn := r.turn
  state := { link := r.copies holder, links := r.links, calls := r.calls }
  trace := r.trace

/-- The run after a cycle of the holder, which is the next turn. -/
def resume (r : LinkRun) (holder : Nat) (w : FeedWorld) : LinkRun where
  copies := Function.update r.copies holder w.state.link
  links := w.state.links
  calls := w.state.calls
  trace := w.trace
  turn := r.turn + 1

end LinkRun

section Runs
variable (env : FeedEnvironment) (dependencies : Dependencies String) (target : SyncTarget)
  (key : String)

def step (r : LinkRun) : LinkAction → LinkRun
  | .load holder status connectivity =>
    match r.links key with
    | none => r
    | some row => r.hold holder { row with status, connectivity }
  | .reconcile holder options fuel =>
    r.resume holder ((reconcile env dependencies target options fuel).run (r.world holder)).2
  | .resetCheckpoints holder now =>
    let link := { r.copies holder with pull := SyncCheckpoint.reset none
                                       push := SyncCheckpoint.reset none }
    (r.hold holder link).call (.resetCheckpoints link now)
  | .setStatus holder status now =>
    let link := SyncReplicationLinkStore.assignStatus status (r.copies holder)
    (r.hold holder link).call (.setStatus link status now)

def run (r : LinkRun) (actions : List LinkAction) : LinkRun :=
  actions.foldl (step env dependencies target key) r

end Runs

end SyncDurableFeedReconciler

end EnboxDwn.Agent
