import EnboxDwn.RemoteApplyPush
import EnboxDwn.RetryOrder

/-! Work on the links of a sync run. A page or a retry is a program that asks the node and the
progress store, and that makes its remote requests through a runner that may refuse them. -/
namespace EnboxDwn.Agent

/-! ## Requests -/

namespace SyncNextRunner

/-- A resolved target: the feed of a tenant at one remote endpoint, and who reads it. -/
structure SyncTarget where
  did : String
  dwnUrl : String
  delegateDid : Option String := none
  projectionId : String
  scope : SyncScope
  authorization : SyncAuthorization
  authorizationEpoch : String
  permissionGrantIds : List String := []
  deriving DecidableEq, Repr

/-- A query of a message feed; its filters are those of the scope. -/
structure MessageFeedQuery where
  did : String
  authorDid : Option String := none
  cursor : Option ProgressToken := none
  delegateDid : Option String := none
  filters : Option (List MessagesFilter)
  limit : Nat
  moduleRole : Option String := none
  permissionGrantIds : List String := []
  deriving DecidableEq

/-- What is sent to a remote; a retry may read anything there. -/
inductive RemoteRequest where
  | messagesQuery (dwnUrl : String) (query : MessageFeedQuery)
  | applyReplicatedMessage (message : GenericMessage) (data ancestryOnly : Bool)
  | other (request : String)
  deriving DecidableEq

abbrev RemoteReply : RemoteRequest → Type
  | .messagesQuery _ _ => MessagesQueryReply
  | .applyReplicatedMessage _ _ _ => RemoteApplyResult
  | .other _ => String

inductive InterruptReason where
  | budget | stopped
  deriving DecidableEq, Repr

/-- What ends a work: it was interrupted, a feed query was answered with another status than
success, the remote answered with an error, or anything else was thrown. -/
inductive WorkError where
  | interrupted (reason : InterruptReason)
  | feedQuery (statusCode : Nat) (detail : String)
  | rpc (message : String) (terminal quotaExceeded : Bool)
  | dataSizeLimit (message : String)
  | thrown (error : Thrown)
  | value (text : String)
  deriving DecidableEq, Repr

/-- The message of an error; a number that cannot be read is reported in words of the runtime. -/
def thrownMessage : Thrown → String
  | .error message | .typeError message | .rangeError message => message
  | .syntaxError => "SyntaxError"

/-! ## Programs -/

/-- What is asked of the local node and of the progress store. -/
inductive LocalOp where
  | getLink (identity : SyncNextLinkIdentity)
  | processQuery (query : MessageFeedQuery)
  | queryLocalMessageFeed (query : MessageFeedQuery)
  | prepareAdmissionEntries (entries : List SyncNextPreparedFeedEntry)
  | admitClosure (prepared : SyncNextPreparedFeedEntry)
  | commitPullPage (link : SyncNextLink) (commit : SyncNextPullPageCommit)
  | commitPushPage (link : SyncNextLink) (commit : SyncNextPushPageCommit)
  | push (op : RemoteApplyPushContext.PushOp)
  | other (request : String)
  deriving DecidableEq

abbrev LocalAnswer : LocalOp → Type
  | .getLink _ => Except WorkError (Option SyncNextLink)
  | .processQuery _ => Except WorkError Unit
  | .queryLocalMessageFeed _ => Except WorkError MessagesQueryReply
  | .prepareAdmissionEntries _ => Except WorkError Unit
  | .admitClosure _ => Except WorkError SyncNextPullPage.AdmitOutcome
  | .commitPullPage _ _ => Except WorkError Bool
  | .commitPushPage _ _ => Except WorkError Bool
  | .push op => RemoteApplyPushContext.PushAnswer op
  | .other _ => Except WorkError String

/-- What a work can do: remote requests go through the runner that it was given. -/
inductive WorkOp where
  | runRemoteRequest (request : RemoteRequest)
  | shouldContinue
  | ask (op : LocalOp)
  deriving DecidableEq

abbrev WorkAnswer : WorkOp → Type
  | .runRemoteRequest request => Except WorkError (RemoteReply request)
  | .shouldContinue => Bool
  | .ask op => LocalAnswer op

abbrev WorkProgram := Process WorkOp WorkAnswer

abbrev Work := ExceptT WorkError WorkProgram

def runRemoteRequest (request : RemoteRequest) : Work (RemoteReply request) :=
  ExceptT.mk (.ask (.runRemoteRequest request) .done)

def shouldContinue : Work Bool := ExceptT.lift (.ask .shouldContinue .done)

def askLocal (op : LocalOp) : WorkProgram (LocalAnswer op) := .ask (.ask op) .done

/-! ## Pull pages -/

def ofFeedError : SyncNextFeedError → WorkError
  | .query statusCode detail => .feedQuery statusCode detail
  | .thrown error => .thrown error

section Pages
variable [P : Platform] [R : Runtime]

def syncNextLinkIdentity (target : SyncTarget) : Except Thrown SyncNextLinkIdentity := do
  return {
    authorizationEpoch := target.authorizationEpoch
    projectionId := target.projectionId
    remoteEndpoint := ← normalizeDwnEndpoint target.dwnUrl
    tenantDid := target.did }

/-- Pure code inside of a work; what it throws ends the work. -/
def lift {α : Type} (x : Except Thrown α) : Work α := ExceptT.mk (pure (x.mapError .thrown))

inductive PageResult where
  | aborted
  | stale
  | committed (feedDrained : Bool) (blocked : Option SyncNextDeliveryOutcome)
  deriving DecidableEq, Repr

namespace SyncNextPullPage
open EnboxDwn.Agent.SyncNextPullPage (ClassifiedPage)

def pageQuery (target : SyncTarget) (cursor : Option ProgressToken) :
    Except Thrown MessageFeedQuery := do
  let filters ← messageFeedFiltersForSyncScope target.scope
  let (authorDid, moduleRole) :=
    match target.authorization with
    | .role actorDid moduleRole _ => (some actorDid, some moduleRole)
    | _ => (none, none)
  return {
    did := target.did
    authorDid
    cursor
    delegateDid := target.delegateDid
    filters
    limit := syncNextPageSize
    moduleRole
    permissionGrantIds := target.permissionGrantIds }

/-- The query is written locally and sent. -/
def query (target : SyncTarget) (cursor : Option ProgressToken) : Work MessagesQueryReply := do
  let query ← lift (pageQuery target cursor)
  ExceptT.mk (askLocal (.processQuery query))
  runRemoteRequest (.messagesQuery target.dwnUrl query)

def assertRoleRecord (roleRecordId : Option String) (target : SyncTarget) : Except Thrown Unit :=
  match target.authorization with
  | .role _ _ expected =>
    if roleRecordId ≠ some expected then
      .error (.error ("SyncNextPullPage: role feed resolved " ++ roleRecordId.getD "no role" ++
        " instead of " ++ expected ++ "."))
    else .ok ()
  | _ => .ok ()

/-- The entries in turn; none is classified when the work is stopped. -/
def classifyEntries : List SyncNextPreparedFeedEntry → ClassifiedPage → Work (Option ClassifiedPage)
  | [], classified => return some classified
  | prepared :: entries, classified => do
    let outcome ← ExceptT.mk (askLocal (.admitClosure prepared))
    if ¬ (← shouldContinue) then return none
    else
      match outcome with
      | .admitted handledCids =>
        classifyEntries entries { classified with
          settled := classified.settled ++ [prepared.receipt]
          handledCids := classified.handledCids ∪ handledCids }
      | _ =>
        classifyEntries entries { classified with
          quarantine := classified.quarantine ++
            [{ prepared.receipt with entry := prepared.entry }] }

/-- Queries, classifies, and commits exactly one remote feed page. The record of the role that
answered comes with the reply. -/
def run (dependencies : Dependencies SyncNextPreparedFeedEntry)
    (roleRecordId : MessagesQueryReply → Option String) (target : SyncTarget) :
    Work PageResult := do
  let identity ← lift (syncNextLinkIdentity target)
  match ← ExceptT.mk (askLocal (.getLink identity)) with
  | none => return .stale
  | some link => do
    if ¬ (← shouldContinue) then return .aborted
    let reply ← query target link.pullCheckpoint
    if ¬ (← shouldContinue) then return .aborted
    let page ← ExceptT.mk (pure ((prepareSyncNextFeedPage "SyncNextPullPage" link.pullCheckpoint
      reply ("query for " ++ target.did ++ " -> " ++ target.dwnUrl)).mapError ofFeedError))
    lift (assertRoleRecord (roleRecordId reply) target)
    ExceptT.mk (askLocal (.prepareAdmissionEntries page.entries))
    if ¬ (← shouldContinue) then return .aborted
    match ← classifyEntries (orderMessagesForAdmission dependencies page.entries) {} with
    | none => return .aborted
    | some classified => do
      let committed ← ExceptT.mk (askLocal (.commitPullPage link
        { checkpoint := page.checkpoint
          pageReceipts := page.pageReceipts
          quarantine := classified.quarantine
          settled := classified.settled }))
      return if committed then .committed page.drained none else .stale

end SyncNextPullPage

/-! ## Push pages -/

namespace SyncNextPushPage
open EnboxDwn.Agent.SyncNextPushPage
open RemoteApplyPushContext (Context Environment PushOp PushAnswer SendError PushThrown)

def assertNotRole (target : SyncTarget) : Except Thrown Unit :=
  match target.authorization with
  | .role _ _ _ => .error (.error "SyncNextPushPage: role-authorized targets are pull-only.")
  | _ => .ok ()

def query (target : SyncTarget) (cursor : Option ProgressToken) : Work MessagesQueryReply := do
  let filters ← lift (messageFeedFiltersForSyncScope target.scope)
  ExceptT.mk (askLocal (.queryLocalMessageFeed
    { did := target.did
      cursor
      delegateDid := target.delegateDid
      filters
      limit := syncNextPageSize
      permissionGrantIds := target.permissionGrantIds }))

/-- What a push makes of an error on the way to the remote. -/
def sendError : WorkError → SendError
  | .interrupted .budget =>
    ⟨.interrupted, "Sync work yielded because its run budget was exhausted."⟩
  | .interrupted .stopped =>
    ⟨.interrupted, "Sync work stopped before the active root could be classified."⟩
  | .dataSizeLimit message => ⟨.dataSizeLimit, message⟩
  | .rpc message terminal quotaExceeded =>
    ⟨if quotaExceeded then .quota else if terminal then .terminal else .other, message⟩
  | .feedQuery _ detail => ⟨.other, detail⟩
  | .thrown error => ⟨.other, thrownMessage error⟩
  | .value text => ⟨.other, text⟩

/-- The operations of a push: one of them is a remote request. -/
def perform : (op : PushOp) → WorkProgram (PushAnswer op)
  | .applyReplicatedMessage message data ancestryOnly => do
    let result ← (runRemoteRequest (.applyReplicatedMessage message data ancestryOnly)).run
    return result.mapError sendError
  | .bufferSmallStream entry => askLocal (.push (.bufferSmallStream entry))
  | .resolvePushPayload entry => askLocal (.push (.resolvePushPayload entry))
  | .fetchDependency ref => askLocal (.push (.fetchDependency ref))
  | .fetchMessageCid messageCid => askLocal (.push (.fetchMessageCid messageCid))
  | .fetchMessageFeedEntry messageCid => askLocal (.push (.fetchMessageFeedEntry messageCid))

variable [E : Environment]

/-- Nothing when the budget does not allow the push to end. -/
def pushWithinBudget (context : Context) (messageCid : String) :
    Work (Option PushResult × Context) :=
  ExceptT.mk do
    let (result, context) ←
      ((RemoteApplyPushContext.pushFeedEntry messageCid []).run.run context).via perform
    return match result with
      | .ok result =>
        .ok (some {
          succeeded := result.succeeded
          acknowledged := result.acknowledged.map (·.cid)
          failed := result.failed }, context)
      | .error .interrupted => .ok (none, context)
      | .error (.read error) => .error (.thrown (.error error.message))

/-- The entries in turn, pushed by one context; none is classified when the work is stopped. -/
def classifyEntries :
    List SyncNextPreparedFeedEntry → Classification → Context → Work (Option ClassifiedPushPage)
  | [], c, _ => return some (← lift (finishClassifiedPushPage c))
  | prepared :: entries, c, context => do
    if ¬ (← shouldContinue) then return none
    match c.blocked with
    | some blocked =>
      classifyEntries entries
        { c with
          delivery := c.delivery ++ [deliveryInput prepared blocked]
          entryCount := c.entryCount + 1 } context
    | none => do
      let (result, context) ←
        pushWithinBudget context (prepared.entry.messageCid.getD "undefined")
      let continues ← shouldContinue
      match result with
      | none =>
        if continues then return some (← lift (finishClassifiedPushPage c)) else return none
      | some result =>
        if ¬ continues then return none
        else do
          let c ← lift (recordDisposition prepared result c)
          classifyEntries entries c context

/-- Queries, delivers, and commits exactly one local feed page for one endpoint. -/
def run (target : SyncTarget) : Work PageResult := do
  lift (assertNotRole target)
  let identity ← lift (syncNextLinkIdentity target)
  match ← ExceptT.mk (askLocal (.getLink identity)) with
  | none => return .stale
  | some link => do
    if ¬ (← shouldContinue) then return .aborted
    let reply ← query target link.pushCheckpoint
    if ¬ (← shouldContinue) then return .aborted
    let page ← ExceptT.mk (pure ((prepareSyncNextFeedPage "SyncNextPushPage" link.pushCheckpoint
      reply ("local query for " ++ target.did ++ " -> " ++ target.dwnUrl)).mapError ofFeedError))
    match ← classifyEntries page.entries {} {} with
    | none => return .aborted
    | some classified => do
      if ¬ (← shouldContinue) then return .aborted
      match sliceSyncNextFeedPage page classified.entryCount with
      | none => return .aborted
      | some handledPage => do
        let committed ← ExceptT.mk (askLocal (.commitPushPage link
          { checkpoint := handledPage.checkpoint
            delivery := classified.delivery
            handledWrites := classified.handledWrites
            pageReceipts := handledPage.pageReceipts
            settled := classified.settled }))
        return if committed then .committed handledPage.drained classified.blocked else .stale

end SyncNextPushPage

end Pages

end SyncNextRunner

end EnboxDwn.Agent
