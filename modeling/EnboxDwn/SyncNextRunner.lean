import EnboxDwn.SyncNextWork

/-! One request-bounded sync run. All pages go on side by side, then the pending rows are retried,
oldest first. Every remote request is drawn from one budget, of which the pages leave a part to the
retries. -/
namespace EnboxDwn.Agent.SyncNextRunner

/-! ## The shared budget -/

inductive SyncNextWorkKind where
  | delivery | pullPage | pushPage | quarantine
  deriving DecidableEq, Repr

def SyncNextWorkKind.isPage : SyncNextWorkKind → Bool
  | .pullPage | .pushPage => true
  | .delivery | .quarantine => false

structure SyncNextWorkFailure where
  error : WorkError
  target : SyncNextLinkIdentity
  work : SyncNextWorkKind
  deriving DecidableEq, Repr

structure Issued where
  work : SyncNextWorkKind
  endpoint : String
  request : RemoteRequest
  deriving DecidableEq

/-- The names of the locks: requests to one endpoint, and retries of one projection. -/
inductive LockName where
  | endpoint (remoteEndpoint : String)
  | quarantine (tenantDid projectionId : String)
  deriving DecidableEq, Repr

structure RequestBudget where
  limit : Nat
  requests : Nat := 0
  aborted : Bool
  deriving DecidableEq, Repr

/-- What the works of a run share; `issued` lists the requests that were sent. -/
structure Shared where
  budget : RequestBudget
  blockedEndpoints : List String := []
  locks : List LockName := []
  failures : List SyncNextWorkFailure := []
  issued : List Issued := []
  deriving DecidableEq

/-- An error that speaks against the endpoint rather than against one message. -/
def isRemoteRequestFailure : WorkError → Bool
  | .interrupted _ => false
  | .rpc _ terminal quotaExceeded => !terminal && !quotaExceeded
  | .value _ => false
  | .feedQuery _ _ | .dataSizeLimit _ | .thrown _ => true

/-- `issue` checks the budget and sends the request at once; `reply` waits for its end. -/
inductive RunnerOp where
  | acquire (lock : LockName)
  | release (lock : LockName)
  | issue (work : SyncNextWorkKind) (endpoint : String) (request : RemoteRequest)
  | reply (endpoint : String) (request : RemoteRequest)
  | shouldContinue
  | block (endpoint : String)
  | fail (failure : SyncNextWorkFailure)
  | ask (op : LocalOp)
  deriving DecidableEq

abbrev RunnerAnswer : RunnerOp → Type
  | .acquire _ => Except WorkError Unit
  | .release _ => Unit
  | .issue _ _ _ => Except WorkError Unit
  | .reply _ request => Except WorkError (RemoteReply request)
  | .shouldContinue => Bool
  | .block _ => Unit
  | .fail _ => Unit
  | .ask op => LocalAnswer op

def Shared.block (endpoint : String) (s : Shared) : Shared :=
  { s with blockedEndpoints := s.blockedEndpoints.insert endpoint }

def Shared.issue (work : SyncNextWorkKind) (endpoint : String) (request : RemoteRequest)
    (s : Shared) : Except WorkError Unit × Shared :=
  if endpoint ∈ s.blockedEndpoints then (.error (.interrupted .stopped), s)
  else if s.budget.aborted ∨ s.budget.requests ≥ s.budget.limit then
    (.error (.interrupted (if s.budget.aborted then .stopped else .budget)), s)
  else
    (.ok (), { s with
      budget := { s.budget with requests := s.budget.requests + 1 }
      issued := s.issued ++ [{ work, endpoint, request }] })

def Shared.reply {request : RemoteRequest} (endpoint : String)
    (given : Except WorkError (RemoteReply request)) (s : Shared) :
    Except WorkError (RemoteReply request) × Shared :=
  match given with
  | .ok reply => (.ok reply, s)
  | .error e =>
    if s.budget.aborted then (.error (.interrupted .stopped), s)
    else (.error e, if isRemoteRequestFailure e then s.block endpoint else s)

/-- A lock that is held is not given yet. -/
def Shared.acquire (lock : LockName) (given : Except WorkError Unit) (s : Shared) :
    Option (Except WorkError Unit × Shared) :=
  if lock ∈ s.locks then none
  else
    match given with
    | .ok () => some (.ok (), { s with locks := lock :: s.locks })
    | .error e => some (.error e, s)

/-- The replies of the remote, the answers of the node and whether a lock can be asked for at all are
given from outside. -/
def perform : (op : RunnerOp) → RunnerAnswer op → Shared → Option (RunnerAnswer op × Shared)
  | .acquire lock, given, s => s.acquire lock given
  | .release lock, _, s => some ((), { s with locks := s.locks.erase lock })
  | .issue work endpoint request, _, s => some (s.issue work endpoint request)
  | .reply endpoint _, given, s => some (s.reply endpoint given)
  | .shouldContinue, _, s => some (!s.budget.aborted, s)
  | .block endpoint, _, s => some ((), s.block endpoint)
  | .fail failure, _, s => some ((), { s with failures := s.failures ++ [failure] })
  | .ask _, given, s => some (given, s)

/-! ## Works -/

abbrev Program := Process RunnerOp RunnerAnswer

def operation (op : RunnerOp) : Program (RunnerAnswer op) := .ask op .done

/-- The lock is given back however the operation ends. -/
def runWithCrossContextLock {α : Type} (lock : LockName) (inner : Program (Except WorkError α)) :
    Program (Except WorkError α) := do
  match ← operation (.acquire lock) with
  | .error e => return .error e
  | .ok () => do
    let result ← inner
    operation (.release lock)
    return result

/-- One remote request of a work, under the lock of its endpoint. -/
def requestRunner (work : SyncNextWorkKind) (endpoint : String) (request : RemoteRequest) :
    Program (Except WorkError (RemoteReply request)) :=
  runWithCrossContextLock (.endpoint endpoint) do
    match ← operation (.issue work endpoint request) with
    | .error e => return .error e
    | .ok () => operation (.reply endpoint request)

def runOperation (work : SyncNextWorkKind) (endpoint : String) :
    (op : WorkOp) → Program (WorkAnswer op)
  | .runRemoteRequest request => requestRunner work endpoint request
  | .shouldContinue => operation .shouldContinue
  | .ask op => operation (.ask op)

/-- A retry: what it comes to, and what it fetches side by side with that. It can end before all
that it fetches is there. -/
structure Retry (α : Type) where
  main : Work α
  fetches : List (Work Unit) := []

/-- The operations of the runner. Pages are its own unless others are given; how a retry goes about
its row is left open. -/
structure SyncNextRunnerOperations where
  pullPage : Option (SyncTarget → Work PageResult) := none
  pushPage : Option (SyncTarget → Work PageResult) := none
  quarantineRetry : SyncTarget → Retry Unit
  deliveryRetry : SyncTarget → Retry (Option SyncNextDeliveryOutcome)

structure TargetState where
  identity : SyncNextLinkIdentity
  target : SyncTarget
  deriving DecidableEq, Repr

section Works
variable [P : Platform] [R : Runtime] [E : RemoteApplyPushContext.Environment]
variable (dependencies : Dependencies SyncNextPreparedFeedEntry)
  (roleRecordId : MessagesQueryReply → Option String) (operations : SyncNextRunnerOperations)

def pullPage (target : SyncTarget) : Work PageResult :=
  match operations.pullPage with
  | some pullPage => pullPage target
  | none => SyncNextPullPage.run dependencies roleRecordId target

def pushPage (target : SyncTarget) : Work PageResult :=
  match operations.pushPage with
  | some pushPage => pushPage target
  | none => SyncNextPushPage.run target

/-- The work itself, and the outcome that may block its endpoint. -/
def workProgram (state : TargetState) (work : SyncNextWorkKind) :
    Program (Except WorkError (Option SyncNextDeliveryOutcome)) :=
  let run := runOperation work state.identity.remoteEndpoint
  match work with
  | .pullPage => do
    return (← (pullPage dependencies roleRecordId operations state.target).run.via run).map
      fun _ => none
  | .pushPage => do
    return (← (pushPage operations state.target).run.via run).map fun result =>
      match result with
      | .committed _ blocked => blocked
      | _ => none
  | .quarantine => do
    return (← runWithCrossContextLock
      (.quarantine state.identity.tenantDid state.identity.projectionId)
      ((operations.quarantineRetry state.target).main.run.via run)).map fun _ => none
  | .delivery => (operations.deliveryRetry state.target).main.run.via run

/-- The status codes after which no other page of the endpoint is read. -/
def blocksEndpoint (statusCode : Nat) : Bool :=
  statusCode = 408 ∨ statusCode = 429 ∨ statusCode ≥ 500

def runWork (state : TargetState) (work : SyncNextWorkKind) : Program Unit := do
  match ← workProgram dependencies roleRecordId operations state work with
  | .ok (some outcome) =>
    if outcome.blockScope = some .endpoint then
      operation (.block state.identity.remoteEndpoint)
  | .ok none => return ()
  | .error (.interrupted _) => return ()
  | .error error => do
    operation (.fail { error, target := state.identity, work })
    match work, error with
    | .pullPage, .feedQuery statusCode _ =>
      if blocksEndpoint statusCode then operation (.block state.identity.remoteEndpoint)
    | _, _ => return ()

/-- A strand of the run: a work, or something that a retry fetches. -/
structure Strand where
  state : TargetState
  work : SyncNextWorkKind
  fetch : Option (Work Unit) := none

def Strand.program (strand : Strand) : Program Unit :=
  match strand.fetch with
  | none => runWork dependencies roleRecordId operations strand.state strand.work
  | some fetch => do
    let _ ← fetch.run.via (runOperation strand.work strand.state.identity.remoteEndpoint)

def fetches (target : SyncTarget) : SyncNextWorkKind → List (Work Unit)
  | .quarantine => (operations.quarantineRetry target).fetches
  | .delivery => (operations.deliveryRetry target).fetches
  | .pullPage | .pushPage => []

def strands (state : TargetState) (work : SyncNextWorkKind) : List Strand :=
  { state, work } ::
    (fetches operations state.target work).map fun fetch => { state, work, fetch := some fetch }

/-! ## Phases -/

inductive SyncDirection where
  | push | pull
  deriving DecidableEq, Repr

def SyncDirection.page : SyncDirection → SyncNextWorkKind
  | .pull => .pullPage
  | .push => .pushPage

def SyncDirection.retry : SyncDirection → SyncNextWorkKind
  | .pull => .quarantine
  | .push => .delivery

def isRole : SyncAuthorization → Bool
  | .role _ _ _ => true
  | _ => false

/-- The links of the targets, each once. -/
def createStates (direction : SyncDirection) :
    List SyncTarget → List (String × TargetState) → Except Thrown (List TargetState)
  | [], states => .ok (states.map Prod.snd)
  | target :: targets, states =>
    if direction = .push ∧ isRole target.authorization then createStates direction targets states
    else do
      let identity ← syncNextLinkIdentity target
      let key ← syncNextLinkKey identity
      if key ∈ states.map Prod.fst then createStates direction targets states
      else createStates direction targets (states ++ [(key, { identity, target })])

structure RecoveryCandidate where
  entry : SyncNextPendingEntry
  state : TargetState
  deriving DecidableEq

/-- What the progress store answers for the pending rows of a link. -/
abbrev PendingRows := TargetState → Except Thrown (List SyncNextPendingEntry)

/-- The oldest pending row of each link, oldest first. -/
def getRecoveryCandidates (rows : PendingRows) (states : List TargetState) :
    Except Thrown (List RecoveryCandidate) := do
  let pending ← states.mapM fun state => do
    let entries ← CompareSort.sortBy compareSyncNextRetryOrder (← rows state)
    return entries.head?.map fun entry => ({ entry, state } : RecoveryCandidate)
  CompareSort.sortBy (fun left right => compareSyncNextRetryOrder left.entry right.entry)
    (pending.filterMap id)

def minimumRecoveryRequests (candidate : RecoveryCandidate) (work : SyncNextWorkKind) : Nat :=
  if work = .quarantine ∧ isRole candidate.state.target.authorization then 2 else 1

def recoveryReserve (candidates : List RecoveryCandidate) (work : SyncNextWorkKind) : Nat :=
  candidates.foldl (fun reserve candidate => max reserve (minimumRecoveryRequests candidate work)) 0

/-- Preserve capacity for existing pending work without slowing the common queue-empty path. -/
def pageLimit (maxRequests reserve : Nat) : Nat :=
  if reserve > 0 then min ((maxRequests + 1) / 2) (maxRequests - reserve) else maxRequests

inductive Stage where
  | page
  | recovery (rest : List RecoveryCandidate)
  | over
  deriving DecidableEq

structure Run where
  maxRequests : Nat
  direction : SyncDirection
  states : List TargetState
  stage : Stage
  pool : Process.Pool Strand RunnerOp RunnerAnswer Unit Shared

def Run.shared (w : Run) : Shared := w.pool.store

/-- The run goes on with more strands. -/
def Run.begin (strands : List Strand) (w : Run) : Run :=
  { w with
    pool := { w.pool with
      running := w.pool.running ++ strands.map fun strand =>
        ⟨strand, [], strand.program dependencies roleRecordId operations⟩ } }

def exhausted (budget : RequestBudget) : Bool := budget.aborted || budget.requests ≥ budget.limit

/-- The next candidate to retry; a partial role attempt is not started. -/
def nextCandidate (budget : RequestBudget) (work : SyncNextWorkKind) :
    List RecoveryCandidate → Option (RecoveryCandidate × List RecoveryCandidate)
  | [] => none
  | candidate :: rest =>
    if exhausted budget then none
    else if budget.limit - budget.requests < minimumRecoveryRequests candidate work then
      nextCandidate budget work rest
    else some (candidate, rest)

def Run.recover (candidates : List RecoveryCandidate) (w : Run) : Run :=
  match nextCandidate w.shared.budget w.direction.retry candidates with
  | none => { w with stage := .over }
  | some (candidate, rest) =>
    ({ w with stage := .recovery rest } : Run).begin dependencies roleRecordId operations
      (strands operations candidate.state w.direction.retry)

def isDone : Program Unit → Bool
  | .done _ => true
  | .ask _ _ => false

/-- The works that the run waits for are over. -/
def Run.settled (w : Run) : Bool :=
  w.pool.running.all fun running => running.request.fetch.isSome || isDone running.process

def Run.setLimit (limit : Nat) (w : Run) : Run :=
  { w with
    pool := { w.pool with
      store := { w.pool.store with budget := { w.pool.store.budget with limit } } } }

/-- What happens next: an operation of a strand, an abort from outside, or the next step of the run
itself, for which the pending rows are read. -/
inductive RunEvent where
  | advance (n : Nat) (given : (op : RunnerOp) → RunnerAnswer op)
  | abort
  | proceed (rows : PendingRows)

def Run.proceed (rows : PendingRows) (w : Run) : Run :=
  if ¬ w.settled then w
  else
    match w.stage with
    | .page =>
      let w := w.setLimit w.maxRequests
      match getRecoveryCandidates rows w.states with
      | .error _ => { w with stage := .over }
      | .ok candidates => w.recover dependencies roleRecordId operations candidates
    | .recovery rest => w.recover dependencies roleRecordId operations rest
    | .over => w

def Run.step (w : Run) : RunEvent → Run
  | .advance n given =>
    { w with
      pool := Process.Pool.step (Strand.program dependencies roleRecordId operations) perform w.pool
        (.advance n given) }
  | .abort =>
    { w with
      pool := { w.pool with
        store := { w.pool.store with
          budget := { w.pool.store.budget with aborted := true } } } }
  | .proceed rows => w.proceed dependencies roleRecordId operations rows

def Run.steps (w : Run) (events : List RunEvent) : Run :=
  events.foldl (Run.step dependencies roleRecordId operations) w

def defaultMaxRemoteRequests : Int := 32

def maxSafeInteger : Int := 9007199254740991

/-- The answers of the outside while a run is set up. -/
structure Outside where
  ensureLink : TargetState → Except Thrown Unit
  pendingRows : PendingRows

def start (targets : List SyncTarget) (direction : SyncDirection) (maxRemoteRequests : Option Int)
    (aborted : Bool) (outside : Outside) : Except Thrown Run := do
  let maxRequests := maxRemoteRequests.getD defaultMaxRemoteRequests
  if ¬ maxRequests.natAbs ≤ maxSafeInteger ∨ maxRequests < 3 then
    throw (.rangeError "SyncNextRunner: request budget must be an integer of at least 3.")
  let states ← createStates direction targets []
  states.forM outside.ensureLink
  let pendingRecovery ← getRecoveryCandidates outside.pendingRows states
  let limit := pageLimit maxRequests.toNat (recoveryReserve pendingRecovery direction.retry)
  let budget : RequestBudget := { limit, aborted }
  let w : Run :=
    { maxRequests := maxRequests.toNat, direction, states, stage := .page,
      pool := { store := { budget } } }
  return if exhausted budget then w
    else w.begin dependencies roleRecordId operations
      (states.flatMap fun state => strands operations state direction.page)

end Works

end EnboxDwn.Agent.SyncNextRunner
