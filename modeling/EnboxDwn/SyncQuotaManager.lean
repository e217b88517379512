import EnboxDwn.Lib.KeyedMap
import EnboxDwn.Lib.Process
import EnboxDwn.PushPage

/-! Quota blocks of replication links: what a remote rejected for quota, when it is tried again, and
which omissions of a feed are thereby explained. Between any two operations on the store other calls
may go on. -/
namespace EnboxDwn.Agent.SyncQuotaManager

/-! ## Rows -/

inductive SyncQuotaBlockSource where
  | feed
  | permissionGrant
  deriving DecidableEq, Repr

/-- Times are in milliseconds. A superseded row only explains an omission: it is neither probed nor
shown as blocked. -/
structure SyncQuotaBlockState where
  attempts : Nat
  authorizationEpoch : String
  blockedCid : String
  detail : Option String
  firstBlockedAt : Nat
  lastBlockedAt : Nat
  linkKey : String
  messageCid : String
  nextProbeAt : Nat
  projectionId : String
  module : Option String
  remoteEndpoint : String
  source : SyncQuotaBlockSource
  supersededAt : Option Nat := none
  tenantDid : String
  deriving DecidableEq, Repr

structure RowKey where
  tenantDid : String
  linkKey : String
  messageCid : String
  deriving DecidableEq, Repr

def SyncQuotaBlockState.key (state : SyncQuotaBlockState) : RowKey :=
  ⟨state.tenantDid, state.linkKey, state.messageCid⟩

structure SyncTarget where
  did : String
  dwnUrl : String
  projectionId : String
  authorizationEpoch : String
  scope : SyncScope
  deriving DecidableEq, Repr

def buildLinkKey (tenantDid remoteEndpoint projectionId authorizationEpoch : String) : String :=
  tenantDid ++ "^" ++ remoteEndpoint ++ "^" ++ projectionId ++ "^" ++ authorizationEpoch

def getLinkKey (target : SyncTarget) : String :=
  buildLinkKey target.did target.dwnUrl target.projectionId target.authorizationEpoch

def SyncTarget.row (target : SyncTarget) (messageCid : String) : RowKey :=
  ⟨target.did, getLinkKey target, messageCid⟩

def modulesForSyncScope : SyncScope → Option (List String)
  | .full => none
  | .context module _ _ => some [module]
  | .moduleSet modules => some modules

inductive PushSuccessResolution where
  | applied
  | superseded
  deriving DecidableEq, Repr

structure PushAcknowledgement where
  cid : String
  resolution : PushSuccessResolution
  deriving DecidableEq, Repr

structure PushResult where
  succeeded : List String
  acknowledged : List PushAcknowledgement
  failed : List PushFailure
  deriving DecidableEq, Repr

/-- A local message, and whether its record data is at hand. -/
structure SyncMessageEntry where
  message : GenericMessage
  data : Bool
  deriving DecidableEq, Repr

/-! ## Operations -/

inductive FeedSource where
  | localFeed
  | remoteFeed
  deriving DecidableEq, Repr

/-- The operations on the store, the effects that the engine injects, and the memory of the probes
under way. -/
inductive Op where
  | get (row : RowKey)
  | put (state : SyncQuotaBlockState)
  | delete (row : RowKey)
  | deleteMany (rows : List RowKey)
  | deleteForTenant (tenantDid : String)
  | clear
  | getForTenant (tenantDid : String)
  | getAll
  | clearDeadLetterForTenant (messageCid : String)
  | collectFeedCids (source : FeedSource)
  | getLocalMessage (messageCid : String)
  | onQuotaBlocked (messageCid : String) (detail : Option String) (nextProbeAt : Nat)
  | onQuotaCleared (messageCid : String) (resolution : PushSuccessResolution)
  | pushEntries (entries : List SyncMessageEntry)
  | pushMessages (messageCids : List String)
  | recordTerminalFailure (failure : PushFailure)
  | shouldAbort
  | joinProbe (row : RowKey)
  | awaitProbe (row : RowKey)
  | endProbe (row : RowKey)

/-- Reads come with the time at which they are answered. -/
abbrev Result : Op → Type
  | .get _ => Option SyncQuotaBlockState × Nat
  | .delete _ => Bool
  | .getForTenant _ => List SyncQuotaBlockState × Nat
  | .getAll => List SyncQuotaBlockState
  | .collectFeedCids _ => Option (List String)
  | .getLocalMessage _ => Option SyncMessageEntry
  | .pushEntries _ => PushResult
  | .pushMessages _ => PushResult
  | .shouldAbort => Bool
  | .joinProbe _ => Bool
  | _ => Unit

/-- Why an operation was rejected. -/
structure Thrown where
  message : String

abbrev Call := Process.Call Op Result Thrown

def ask (op : Op) : Call (Result op) := Process.call op

/-! ## Blocks -/

def blockBackoffMs : List Nat := [30000, 60000, 300000, 900000, 1800000]

def backoff (index : Nat) : Nat :=
  blockBackoffMs.getD (min index (blockBackoffMs.length - 1)) 0

def getState (target : SyncTarget) (messageCid : String) :
    Call (Option SyncQuotaBlockState × Nat) := ask (.get (target.row messageCid))

def blockState (target : SyncTarget) (messageCid : String) (module detail : Option String)
    (source : SyncQuotaBlockSource) (blockedCid : String) (previous : Option SyncQuotaBlockState)
    (now : Nat) : SyncQuotaBlockState where
  attempts := (previous.map SyncQuotaBlockState.attempts).getD 0 + 1
  authorizationEpoch := target.authorizationEpoch
  blockedCid := blockedCid
  detail := detail
  firstBlockedAt := (previous.map SyncQuotaBlockState.firstBlockedAt).getD now
  lastBlockedAt := now
  linkKey := getLinkKey target
  messageCid := messageCid
  nextProbeAt := now + backoff ((previous.map SyncQuotaBlockState.attempts).getD 0)
  projectionId := target.projectionId
  module := module <|> previous.bind SyncQuotaBlockState.module
  remoteEndpoint := target.dwnUrl
  source := source
  tenantDid := target.did

/-- A stale result cannot reactivate an omission that a newer acknowledgement resolved, as far as the
read shows it. -/
def recordBlock (target : SyncTarget) (messageCid : String) (module detail : Option String)
    (source : SyncQuotaBlockSource) (blockedCid : String) : Call SyncQuotaBlockState := do
  let (previous, now) ← getState target messageCid
  match previous with
  | some state =>
    if state.supersededAt.isSome then return state
    else
      let next := blockState target messageCid module detail source blockedCid previous now
      ask (.put next)
      return next
  | none =>
    let next := blockState target messageCid module detail source blockedCid previous now
    ask (.put next)
    return next

def clearBlock (target : SyncTarget) (messageCid : String) : Call Bool :=
  ask (.delete (target.row messageCid))

def getBlocksForTarget (target : SyncTarget) : Call (List SyncQuotaBlockState × Nat) := do
  let (states, now) ← ask (.getForTenant target.did)
  return (states.filter fun state => state.linkKey = getLinkKey target ∧
    (modulesForSyncScope target.scope).all fun modules => state.module.all (modules.contains ·), now)

def getActiveBlocksForTarget (target : SyncTarget) : Call (List SyncQuotaBlockState × Nat) := do
  let (states, now) ← getBlocksForTarget target
  return (states.filter fun state => state.supersededAt = none, now)

def hasBlockChanged (current : Option SyncQuotaBlockState) (expected : SyncQuotaBlockState) : Bool :=
  match current with
  | none => true
  | some state => state.supersededAt.isSome || state.attempts ≠ expected.attempts ||
      state.lastBlockedAt ≠ expected.lastBlockedAt

def markBlockAsSupersededOmission (target : SyncTarget) (messageCid : String)
    (expected : SyncQuotaBlockState) : Call Unit := do
  let (current, now) ← getState target messageCid
  match current with
  | none => return ()
  | some state =>
    if hasBlockChanged current expected then return ()
    else
      ask (.put { state with supersededAt := some now })
      ask (.onQuotaCleared messageCid .superseded)

def resolveBlock (target : SyncTarget) (messageCid : String) (resolution : PushSuccessResolution)
    (preserveSupersededOmission : Bool) : Call Unit := do
  let (current, _) ← getState target messageCid
  match current.filter fun state => preserveSupersededOmission && resolution = .superseded &&
      state.source ≠ .permissionGrant with
  | some state => markBlockAsSupersededOmission target messageCid state
  | none =>
    let existed ← clearBlock target messageCid
    if !existed then return ()
    else if current.any fun state => state.supersededAt.isSome then return ()
    else ask (.onQuotaCleared messageCid resolution)

/-! ## Acknowledgements -/

def recordIdForRecordsMessage : GenericMessage → Option String
  | .recordsWrite m => some m.recordId
  | .recordsDelete m => some m.descriptor.recordId
  | .modulesConfigure _ => none

def isRecordsWriteForRecord (message : GenericMessage) (recordId : String) : Bool :=
  match message with
  | .recordsWrite m => m.recordId = recordId
  | _ => false

def isInitialWriteForRecord (message : GenericMessage) (recordId : String) : Bool :=
  match message with
  | .recordsWrite m =>
    m.recordId = recordId && m.descriptor.dateCreated = m.descriptor.messageTimestamp
  | _ => false

variable [Platform]

/-- A delete supersedes every write of its record, another write the older ones. -/
def acknowledgementSupersedesBlockedWrite (acknowledgement blocked : GenericMessage) : Bool :=
  match recordIdForRecordsMessage acknowledgement with
  | none => false
  | some recordId =>
    isRecordsWriteForRecord blocked recordId &&
      match acknowledgement with
      | .recordsDelete _ => true
      | .recordsWrite _ => !isInitialWriteForRecord acknowledgement recordId &&
          Message.isNewer { message := acknowledgement } { message := blocked }
      | .modulesConfigure _ => false

def resolveBlocksSupersededByAcknowledgement (target : SyncTarget) (acknowledgedCid : String) :
    Call Unit := do
  let (activeBlocks, _) ← getActiveBlocksForTarget target
  if activeBlocks.isEmpty then return ()
  else
    let acknowledged ← ask (.getLocalMessage acknowledgedCid)
    match acknowledged with
    | none => return ()
    | some acknowledged =>
      activeBlocks.forM fun state => do
        if state.messageCid = acknowledgedCid ∨ state.source = .permissionGrant then return ()
        else
          let blockedRoot ← ask (.getLocalMessage state.messageCid)
          match blockedRoot with
          | none => return ()
          | some blockedRoot =>
            if acknowledgementSupersedesBlockedWrite acknowledged.message blockedRoot.message then
              markBlockAsSupersededOmission target state.messageCid state
            else return ()

def applyPushAcknowledgements (target : SyncTarget) (acknowledgements : List PushAcknowledgement) :
    Call Unit := do
  let (activeBlocks, _) ← getActiveBlocksForTarget target
  acknowledgements.forM fun acknowledgement => do
    ask (.clearDeadLetterForTenant acknowledgement.cid)
    resolveBlock target acknowledgement.cid acknowledgement.resolution
      (acknowledgement.resolution = .superseded)
    if activeBlocks.isEmpty then return ()
    else resolveBlocksSupersededByAcknowledgement target acknowledgement.cid

/-! ## Results of pushes -/

structure SyncQuotaPushResultOutcome where
  nextQuotaProbeAt : Option Nat := none
  quotaBlocked : Bool := false
  retryableFailures : List PushFailure := []
  terminalFailures : List PushFailure := []
  deriving DecidableEq, Repr

def earliestTimestamp (current : Option Nat) (candidate : Nat) : Nat :=
  match current with
  | none => candidate
  | some time => if candidate < time then candidate else time

def markOutcomeQuotaBlocked (outcome : SyncQuotaPushResultOutcome) (state : SyncQuotaBlockState) :
    SyncQuotaPushResultOutcome :=
  { outcome with
    quotaBlocked := true
    nextQuotaProbeAt := some (earliestTimestamp outcome.nextQuotaProbeAt state.nextProbeAt) }

def applyPushFailureOutcome (target : SyncTarget) (source : Option SyncQuotaBlockSource)
    (outcome : SyncQuotaPushResultOutcome) (failure : PushFailure) :
    Call SyncQuotaPushResultOutcome := do
  if failure.quotaBlocked then
    let state ← recordBlock target failure.cid failure.module failure.detail (source.getD .feed)
      (failure.dependencyCid.getD failure.cid)
    if state.supersededAt.isSome then return outcome
    else
      ask (.onQuotaBlocked failure.cid failure.detail state.nextProbeAt)
      return markOutcomeQuotaBlocked outcome state
  else
    let (previousBlock, _) ← getState target failure.cid
    if previousBlock.any fun state => state.supersededAt.isSome then return outcome
    else if failure.localMissing ∧ previousBlock.isSome then
      resolveBlock target failure.cid .superseded false
      return outcome
    else if failure.terminal then
      let _ ← clearBlock target failure.cid
      ask (.recordTerminalFailure failure)
      return { outcome with terminalFailures := outcome.terminalFailures ++ [failure] }
    else
      match previousBlock with
      | some previous =>
        let state ← recordBlock target failure.cid failure.module (failure.detail <|> previous.detail)
          previous.source previous.blockedCid
        if state.supersededAt.isSome then return outcome
        else
          ask (.onQuotaBlocked failure.cid state.detail state.nextProbeAt)
          return markOutcomeQuotaBlocked outcome state
      | none => return { outcome with retryableFailures := outcome.retryableFailures ++ [failure] }

/-- A later acknowledgement of the same CID replaces the earlier one in its place. -/
def setAcknowledgement (acknowledgements : List PushAcknowledgement)
    (acknowledgement : PushAcknowledgement) : List PushAcknowledgement :=
  if acknowledgements.any fun a => a.cid = acknowledgement.cid then
    acknowledgements.map fun a => if a.cid = acknowledgement.cid then acknowledgement else a
  else acknowledgements ++ [acknowledgement]

def acknowledgementsByCid (result : PushResult) : List PushAcknowledgement :=
  result.succeeded.foldl (fun acknowledgements cid =>
    if acknowledgements.any fun a => a.cid = cid then acknowledgements
    else acknowledgements ++ [⟨cid, .applied⟩]) (result.acknowledged.foldl setAcknowledgement [])

/-- The failures that count, with the module of the push where they name none. -/
def unacknowledgedFailures (result : PushResult) (module : Option String) : List PushFailure :=
  (result.failed.filter fun failure =>
    !(acknowledgementsByCid result).any fun a => a.cid = failure.cid).map
      fun failure => { failure with module := failure.module <|> module }

def applyPushResult (target : SyncTarget) (result : PushResult) (module : Option String)
    (source : Option SyncQuotaBlockSource) : Call SyncQuotaPushResultOutcome := do
  applyPushAcknowledgements target (acknowledgementsByCid result)
  (unacknowledgedFailures result module).foldlM (applyPushFailureOutcome target source) {}

/-! ## Probes -/

def hasUnmaterializedRecordsWriteData (entry : SyncMessageEntry) : Bool :=
  match entry.message with
  | .recordsWrite m => decide (0 < m.descriptor.dataSize) && !entry.data
  | _ => false

def deferUnmaterializedProbe (target : SyncTarget) (messageCid : String)
    (state : SyncQuotaBlockState) : Call Unit := do
  let (current, now) ← getState target messageCid
  if hasBlockChanged current state then return ()
  else
    let nextProbeAt := now + backoff state.attempts
    ask (.put { state with nextProbeAt })
    ask (.onQuotaBlocked messageCid state.detail nextProbeAt)

/-- The dependency goes along with its root. -/
def blockedDependencyOf (messageCid : String) (state : SyncQuotaBlockState)
    (localEntry : Option SyncMessageEntry) : Call (Option SyncMessageEntry) :=
  if localEntry.isSome ∧ state.blockedCid ≠ messageCid then ask (.getLocalMessage state.blockedCid)
  else pure none

def pushRoot (messageCid : String) (localEntry blockedDependencyEntry : Option SyncMessageEntry) :
    Call PushResult :=
  match localEntry with
  | none => ask (.pushMessages [messageCid])
  | some entry => ask (.pushEntries (blockedDependencyEntry.toList ++ [entry]))

/-- The caller's fence is asked again after each wait. -/
def doProbeBlock (target : SyncTarget) (messageCid : String) (force : Bool) : Call Unit := do
  if ← ask .shouldAbort then return ()
  else
    let (current, now) ← getState target messageCid
    match current with
    | none => return ()
    | some state =>
      if state.source = .permissionGrant ∨ state.supersededAt.isSome ∨
          (force = false ∧ now < state.nextProbeAt) then return ()
      else
        let localEntry ← ask (.getLocalMessage messageCid)
        if ← ask .shouldAbort then return ()
        else if localEntry.any hasUnmaterializedRecordsWriteData then
          deferUnmaterializedProbe target messageCid state
        else
          let blockedDependencyEntry ← blockedDependencyOf messageCid state localEntry
          if ← ask .shouldAbort then return ()
          else
            let result ← pushRoot messageCid localEntry blockedDependencyEntry
            if ← ask .shouldAbort then return ()
            else
              let (currentState, _) ← getState target messageCid
              if hasBlockChanged currentState state then return ()
              else
                let _ ← applyPushResult target result state.module (some state.source)
                return ()

/-- A second probe of a row waits for the first. -/
def probeBlock (target : SyncTarget) (messageCid : String) (force : Bool) : Call Unit := do
  if ← ask (.joinProbe (target.row messageCid)) then ask (.awaitProbe (target.row messageCid))
  else Process.ensuring (doProbeBlock target messageCid force) (ask (.endProbe (target.row messageCid)))

def probeAll (target : SyncTarget) (force : String → Bool) : List String → Call Unit
  | [] => return ()
  | messageCid :: messageCids => do
    if ← ask .shouldAbort then return ()
    else
      probeBlock target messageCid (force messageCid)
      probeAll target force messageCids

def probeBlocksForTarget (target : SyncTarget) (force : Bool)
    (forceProbeCids : Option (List String)) : Call Unit := do
  let (blocks, now) ← getActiveBlocksForTarget target
  let isForced (messageCid : String) : Bool := force && forceProbeCids.all (·.contains messageCid)
  let due := blocks.filter fun state => state.source ≠ .permissionGrant ∧
    (isForced state.messageCid ∨ state.nextProbeAt ≤ now)
  probeAll target isForced (due.map SyncQuotaBlockState.messageCid)

/-! ## Divergence -/

def reconcileBlockAgainstFeed (target : SyncTarget) (localCids remoteCids : List String)
    (state : SyncQuotaBlockState) : Call Unit := do
  let localOnly (cid : String) : Bool := localCids.contains cid && !remoteCids.contains cid
  let blockedDependencyIsLocalOnly := state.blockedCid ≠ state.messageCid && localOnly state.blockedCid
  if state.supersededAt.isSome then
    if !localOnly state.messageCid && !blockedDependencyIsLocalOnly then
      let _ ← clearBlock target state.messageCid
      return ()
    else return ()
  else if !localCids.contains state.messageCid && blockedDependencyIsLocalOnly then
    markBlockAsSupersededOmission target state.messageCid state
  else if !localCids.contains state.messageCid then
    resolveBlock target state.messageCid .superseded false
  else return ()

def collectOmittedCids (blocks : List SyncQuotaBlockState) (localCids : List String) : List String :=
  (blocks.filter fun state => state.source ≠ .permissionGrant).flatMap fun state =>
    if localCids.contains state.blockedCid then [state.messageCid, state.blockedCid]
    else [state.messageCid]

/-- Inventories are sets. -/
def explains (blocks : List SyncQuotaBlockState) (localCids remoteCids : List String) : Bool :=
  if blocks.isEmpty then
    localCids.dedup.length = remoteCids.dedup.length && localCids.all (remoteCids.contains ·)
  else
    let omittedCids := collectOmittedCids blocks localCids
    let localOnly := localCids.filter fun cid => !remoteCids.contains cid
    let remoteOnly := remoteCids.filter fun cid => !localCids.contains cid
    remoteOnly.isEmpty && !localOnly.isEmpty && localOnly.all (omittedCids.contains ·)

def reconcileAndExplainFeedDivergence (target : SyncTarget) (quotaBlocked : Bool) : Call Bool := do
  let (blocks, _) ← getBlocksForTarget target
  if blocks.isEmpty then return false
  else if quotaBlocked && blocks.any fun state => state.source = .permissionGrant then return true
  else
    let localCids ← ask (.collectFeedCids .localFeed)
    let remoteCids ← ask (.collectFeedCids .remoteFeed)
    match localCids, remoteCids with
    | some localCids, some remoteCids =>
      blocks.forM (reconcileBlockAgainstFeed target localCids remoteCids)
      let (blocks, _) ← getBlocksForTarget target
      return explains blocks localCids remoteCids
    | _, _ => return false

/-! ## Removal -/

def clearResolvedOmissionsForTarget (target : SyncTarget) : Call Unit := do
  let (blocks, _) ← getBlocksForTarget target
  blocks.forM fun state =>
    if state.supersededAt.isSome then do
      let _ ← clearBlock target state.messageCid
      return ()
    else return ()

def pruneStaleLinkBlocks (targets : List SyncTarget) : Call Unit := do
  let states ← ask .getAll
  let stale := states.filter fun state => (targets.map SyncTarget.did).contains state.tenantDid &&
    !(targets.map getLinkKey).contains state.linkKey
  if ← ask .shouldAbort then return ()
  else ask (.deleteMany (stale.map SyncQuotaBlockState.key))

end EnboxDwn.Agent.SyncQuotaManager
