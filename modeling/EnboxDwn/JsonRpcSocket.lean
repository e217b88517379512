import EnboxDwn.Lib.KeyedMap
import Mathlib.Algebra.Group.Nat.Defs

/-! The JSON RPC socket of a client: requests and subscriptions over one WebSocket after another, with
a heartbeat, on-demand health probes and a reconnect loop. Promises, timers and loops are numbered in
the order in which they begin. -/
namespace EnboxDwn.Clients

inductive JsonRpcId where
  | string (s : String)
  | number (n : Int)
  | null
  deriving DecidableEq, Repr

structure JsonRpcError where
  code : Int
  message : String
  deriving DecidableEq, Repr

structure JsonRpcResponse where
  id : JsonRpcId
  error : Option JsonRpcError := none
  deriving DecidableEq, Repr

structure JsonRpcSocketOptions where
  responseTimeout : Nat := 30000
  autoReconnect : Bool := true
  baseReconnectDelay : Nat := 1000
  maxReconnectDelay : Nat := 30000
  maxReconnectAttempts : Option Nat := none
  heartbeatInterval : Nat := 30000

/-- What the environment answers in one step: a fresh name, the time, the error that `send` throws,
whether the browser is offline, and a random number. -/
structure Given where
  uuid : String
  now : Nat := 0
  sendError : Option String := none
  offline : Bool := false
  random : Nat := 0

/-! ## Requests, subscriptions and pings -/

inductive Outcome where
  | resolved (response : JsonRpcResponse)
  | rejected (message : String)
  deriving DecidableEq, Repr

/-- The promise of a request, the WebSocket it was sent on, and its timer. -/
structure RequestPromise where
  id : JsonRpcId
  socket : Nat
  deadline : Nat
  timer : Bool := true
  outcome : Option Outcome := none

/-- A promise keeps the first outcome. -/
def RequestPromise.settle (r : RequestPromise) (outcome : Outcome) : RequestPromise :=
  { r with timer := false, outcome := r.outcome <|> some outcome }

inductive Handler where
  | request (n : Nat)
  | subscription (n : Nat)
  | heartbeat (pingId : JsonRpcId)
  | probe (n : Nat)
  deriving DecidableEq, Repr

structure Subscription where
  id : JsonRpcId
  request : Nat
  existingHandler : Option Handler
  refreshTimeout : Bool
  /-- The continuation after the opening reply has run. -/
  settled : Bool := false

structure Probe where
  id : JsonRpcId
  timer : Bool := true
  result : Option Bool := none

structure Rpc where
  messageHandlers : KeyedMap JsonRpcId Handler := ∅
  subscriptionHandlerIds : List JsonRpcId := []
  requests : List RequestPromise := []
  subscriptions : List Subscription := []
  heartbeatInterval : Bool := false
  /-- The deadline of the ping with this id is armed. -/
  heartbeatTimeout : Option JsonRpcId := none
  awaitingPong : Bool := false
  heartbeatPingId : Option JsonRpcId := none
  probes : List Probe := []
  healthProbe : Option Nat := none

namespace Rpc
variable (options : JsonRpcSocketOptions)

def setRequest (rpc : Rpc) (n : Nat) (r : RequestPromise) : Rpc :=
  { rpc with requests := rpc.requests.set n r }

def setSubscription (rpc : Rpc) (n : Nat) (sub : Subscription) : Rpc :=
  { rpc with subscriptions := rpc.subscriptions.set n sub }

def setHandler (rpc : Rpc) (id : JsonRpcId) (handler : Handler) : Rpc :=
  { rpc with messageHandlers := rpc.messageHandlers.insert id handler }

def deleteHandler (rpc : Rpc) (id : JsonRpcId) : Rpc :=
  { rpc with messageHandlers := rpc.messageHandlers.erase id }

def deleteSubscriptionHandler (rpc : Rpc) (id : JsonRpcId) : Rpc :=
  { rpc.deleteHandler id with
    subscriptionHandlerIds := rpc.subscriptionHandlerIds.filter (· ≠ id) }

/-- `socket` is the connected WebSocket, if there is one. -/
def requestWithProgress (rpc : Rpc) (socket : Option Nat) (g : Given) (id : Option JsonRpcId) : Rpc :=
  let requestId := id.getD (.string g.uuid)
  match socket with
  | none => { rpc with
      requests := rpc.requests ++ [{
        id := requestId, socket := 0, deadline := 0, timer := false
        outcome := some (.rejected "JsonRpcSocket: request refused — socket is not connected") }] }
  | some socket =>
    let promise : RequestPromise := { id := requestId, socket, deadline := g.now + options.responseTimeout }
    match g.sendError with
    | none => { rpc.setHandler requestId (.request rpc.requests.length) with
        requests := rpc.requests ++ [promise] }
    | some error => { rpc.deleteHandler requestId with
        requests := rpc.requests ++ [promise.settle (.rejected error)] }

def closeSubscription (rpc : Rpc) (socket : Option Nat) (g : Given) : Rpc :=
  rpc.requestWithProgress options socket g none

def expire (rpc : Rpc) (g : Given) (n : Nat) : Rpc :=
  match rpc.requests[n]? with
  | none => rpc
  | some r =>
    if r.timer = false then rpc
    else if g.now < r.deadline then rpc
    else (rpc.deleteHandler r.id).setRequest n (r.settle (.rejected "request timed out"))

/-- A rejected duplicate does not clobber an active subscription. -/
def restoreHandler (rpc : Rpc) (n : Nat) (sub : Subscription) : Rpc :=
  if rpc.messageHandlers.lookup sub.id ≠ some (.subscription n) then rpc
  else
    match sub.existingHandler with
    | some handler => rpc.setHandler sub.id handler
    | none => rpc.deleteSubscriptionHandler sub.id

def addSubscription (rpc : Rpc) (sub : Subscription) : Rpc :=
  { rpc.setHandler sub.id (.subscription rpc.subscriptions.length) with
    subscriptionHandlerIds := sub.id :: rpc.subscriptionHandlerIds
    subscriptions := rpc.subscriptions ++ [sub] }

def subscribe (rpc : Rpc) (socket : Option Nat) (g : Given) (method : String)
    (id subscription : Option JsonRpcId) : Rpc :=
  if method.startsWith "rpc.subscribe." then
    match subscription with
    | none => rpc
    | some subscriptionId =>
      let sub : Subscription :=
        { id := subscriptionId, request := rpc.requests.length
          existingHandler := rpc.messageHandlers.lookup subscriptionId
          refreshTimeout := socket.isSome && g.sendError.isNone }
      (rpc.addSubscription sub).requestWithProgress options socket g id
  else rpc

/-- The continuation of `subscribe`, once the request that opens it has settled. -/
def subscribed (rpc : Rpc) (socket : Option Nat) (g : Given) (n : Nat) : Rpc :=
  match rpc.subscriptions[n]? with
  | none => rpc
  | some sub =>
    match rpc.requests[sub.request]?.bind RequestPromise.outcome with
    | none => rpc
    | some outcome =>
      if sub.settled then rpc
      else
        let rpc := rpc.setSubscription n { sub with refreshTimeout := false, settled := true }
        match outcome with
        | .rejected _ =>
          let rpc := rpc.restoreHandler n sub
          if sub.existingHandler = none then
            (rpc.deleteSubscriptionHandler sub.id).closeSubscription options socket g
          else rpc
        | .resolved response => if response.error.isSome then rpc.restoreHandler n sub else rpc

/-- The close function that `subscribe` returns. -/
def close (rpc : Rpc) (socket : Option Nat) (g : Given) (n : Nat) : Rpc :=
  match rpc.subscriptions[n]? with
  | none => rpc
  | some sub => (rpc.deleteSubscriptionHandler sub.id).closeSubscription options socket g

def clearHeartbeatDeadline (rpc : Rpc) : Rpc :=
  { rpc with
    heartbeatTimeout := none
    messageHandlers := match rpc.heartbeatPingId with
      | some pingId => rpc.messageHandlers.erase pingId
      | none => rpc.messageHandlers
    heartbeatPingId := none
    awaitingPong := false }

def stopHeartbeat (rpc : Rpc) : Rpc :=
  { rpc with heartbeatInterval := false }.clearHeartbeatDeadline

def startHeartbeat (rpc : Rpc) : Rpc :=
  { rpc.stopHeartbeat with heartbeatInterval := decide (0 < options.heartbeatInterval) }

/-- Only the pong of the active ping changes the heartbeat. -/
def handlePong (rpc : Rpc) (pingId : JsonRpcId) : Rpc :=
  let rpc := rpc.deleteHandler pingId
  if rpc.heartbeatPingId ≠ some pingId then rpc
  else { rpc with heartbeatPingId := none, awaitingPong := false, heartbeatTimeout := none }

def settleProbe (rpc : Rpc) (n : Nat) (probe : Probe) (result : Bool) : Rpc :=
  { rpc.deleteHandler probe.id with
    probes := rpc.probes.set n { probe with timer := false, result := probe.result <|> some result } }

/-- The response that a close synthesizes is not a pong. -/
def handleProbe (rpc : Rpc) (n : Nat) (response : JsonRpcResponse) : Rpc :=
  match rpc.probes[n]? with
  | none => rpc
  | some probe =>
    if response.error.isSome then rpc.settleProbe n probe false
    else (rpc.settleProbe n probe true).clearHeartbeatDeadline

/-- What the listener of a subscription does then is left to the calls that follow. -/
def handleSubscription (rpc : Rpc) (socket : Option Nat) (g : Given) (n : Nat)
    (response : JsonRpcResponse) : Rpc :=
  match rpc.subscriptions[n]? with
  | none => rpc
  | some sub =>
    if response.id ≠ sub.id then rpc
    else
      -- replay may outlast an ordinary deadline while it makes progress
      let rpc := match rpc.requests[sub.request]?.filter fun _ => sub.refreshTimeout with
        | some r => rpc.setRequest sub.request { r with deadline := g.now + options.responseTimeout }
        | none => rpc
      if response.error.isSome then
        (rpc.deleteSubscriptionHandler sub.id).closeSubscription options socket g
      else rpc

def handleResponse (rpc : Rpc) (n : Nat) (response : JsonRpcResponse) : Rpc :=
  match rpc.requests[n]? with
  | none => rpc
  | some r =>
    if response.id ≠ r.id then rpc
    else (rpc.deleteHandler r.id).setRequest n (r.settle (.resolved response))

def handle (rpc : Rpc) (socket : Option Nat) (g : Given) (response : JsonRpcResponse) : Handler → Rpc
  | .request n => rpc.handleResponse n response
  | .subscription n => rpc.handleSubscription options socket g n response
  | .heartbeat pingId => rpc.handlePong pingId
  | .probe n => rpc.handleProbe n response

def receive (rpc : Rpc) (socket : Option Nat) (g : Given) (response : JsonRpcResponse) : Rpc :=
  match rpc.messageHandlers.lookup response.id with
  | some handler => rpc.handle options socket g response handler
  | none => rpc

def transportError : JsonRpcError := ⟨-32300, "WebSocket connection closed unexpectedly"⟩

def rejectPendingRequest (socket : Option Nat) (g : Given) (rpc : Rpc) (id : JsonRpcId) : Rpc :=
  match rpc.messageHandlers.lookup id with
  | none => rpc
  | some handler =>
    if id ∈ rpc.subscriptionHandlerIds then rpc
    else (rpc.handle options socket g { id, error := some transportError } handler).deleteHandler id

/-- The handlers of subscriptions survive. -/
def rejectPendingRequests (rpc : Rpc) (socket : Option Nat) (g : Given) : Rpc :=
  rpc.messageHandlers.keys.foldl (rejectPendingRequest options socket g) rpc

/-- The next ping, unless one is pending. -/
def heartbeat (rpc : Rpc) (socket : Option Nat) (g : Given) : Rpc :=
  if rpc.heartbeatInterval = false ∨ socket = none ∨ rpc.awaitingPong then rpc
  else
    let pingId : JsonRpcId := .string ("hb-" ++ g.uuid)
    match g.sendError with
    | none => { rpc.setHandler pingId (.heartbeat pingId) with
        awaitingPong := true, heartbeatPingId := some pingId, heartbeatTimeout := some pingId }
    | some _ => { rpc.deleteHandler pingId with awaitingPong := false, heartbeatPingId := none }

def missPong (rpc : Rpc) (pingId : JsonRpcId) : Rpc :=
  { rpc.deleteHandler pingId with
    heartbeatTimeout := none, heartbeatPingId := none, awaitingPong := false }

def startProbe (rpc : Rpc) (g : Given) : Rpc :=
  let probe : Probe := { id := .string ("hb-probe-" ++ g.uuid) }
  { rpc.setHandler probe.id (.probe rpc.probes.length) with
    probes := rpc.probes ++ [probe], healthProbe := some rpc.probes.length }

end Rpc

/-! ## The connection and its reconnect loops -/

/-- Where a reconnect loop is. The second check of the browser comes after the backoff, and a check
that has waited skips the backoff. -/
inductive Point where
  | offline (again : Bool)
  | woken (again : Bool)
  | pastOffline (again waited : Bool)
  | backoff (delayMs : Nat)
  | pastBackoff
  | connecting (socket : Nat)
  | opened (socket : Nat)
  | failed
  | ended
  deriving DecidableEq, Repr

structure Loop where
  attempt : Nat
  point : Point

def Loop.awaken (loop : Loop) : Loop :=
  match loop.point with
  | .offline again => { loop with point := .woken again }
  | .backoff _ => { loop with point := .pastBackoff }
  | _ => loop

/-- WebSockets are numbered in the order in which they are created. -/
structure Link where
  closedByUser : Bool := false
  reconnecting : Bool := false
  isConnected : Bool := true
  socket : Nat := 0
  /-- The WebSockets with handlers whose close event has not come. -/
  wired : List Nat := [0]
  nextSocket : Nat := 1
  loops : List Loop := []
  /-- The loop whose wait the wake signal ends. -/
  reconnectWake : Option Nat := none

namespace Link
variable (options : JsonRpcSocketOptions)

def connected (l : Link) : Option Nat := if l.isConnected then some l.socket else none

def setLoop (l : Link) (i : Nat) (loop : Loop) : Link := { l with loops := l.loops.set i loop }

def endLoop (l : Link) (i attempt : Nat) : Link :=
  { l.setLoop i ⟨attempt, .ended⟩ with reconnecting := false }

def wakeReconnect (l : Link) : Link :=
  match l.reconnectWake with
  | none => l
  | some i => { l with reconnectWake := none, loops := l.loops.modify i Loop.awaken }

def waitWhileExplicitlyOffline (l : Link) (offline : Bool) (i attempt : Nat)
    (again waited : Bool) : Link :=
  if l.closedByUser = false ∧ offline then
    { l.setLoop i ⟨attempt, .offline again⟩ with reconnectWake := some i }
  else l.setLoop i ⟨attempt, .pastOffline again waited⟩

def tryReconnect (l : Link) (offline : Bool) (i attempt : Nat) : Link :=
  if l.closedByUser then l.endLoop i attempt
  else if options.maxReconnectAttempts.any (· < attempt + 1) then l.endLoop i attempt
  else l.waitWhileExplicitlyOffline offline i attempt false false

def attemptReconnect (l : Link) (offline : Bool) : Link :=
  tryReconnect options { l with reconnecting := true, loops := l.loops ++ [⟨0, .ended⟩] } offline
    l.loops.length 0

/-- The delay doubles with each attempt up to its bound; half of it is random. -/
def backoffDelay (nextAttempt random : Nat) : Nat :=
  let expDelay := min (options.baseReconnectDelay * 2 ^ (nextAttempt - 1)) options.maxReconnectDelay
  let halfExpDelay := expDelay / 2
  halfExpDelay + random % (if halfExpDelay = 0 then 1 else halfExpDelay)

def waitForBackoff (l : Link) (g : Given) (i attempt : Nat) : Link :=
  { l.setLoop i ⟨attempt, .backoff (backoffDelay options (attempt + 1) g.random)⟩ with
    reconnectWake := some i }

def backoffElapsed (l : Link) (i : Nat) : Link :=
  match l.loops[i]? with
  | some ⟨attempt, .backoff _⟩ =>
    { l.setLoop i ⟨attempt, .pastBackoff⟩ with reconnectWake := none }
  | _ => l

def connect (l : Link) (i attempt : Nat) : Link :=
  { l.setLoop i ⟨attempt + 1, .connecting l.nextSocket⟩ with nextSocket := l.nextSocket + 1 }

def connectSettled (l : Link) (i : Nat) (opened : Bool) : Link :=
  match l.loops[i]? with
  | some ⟨attempt, .connecting socket⟩ =>
    l.setLoop i ⟨attempt, if opened then .opened socket else .failed⟩
  | _ => l

def adopt (l : Link) (i attempt socket : Nat) : Link :=
  { l.setLoop i ⟨attempt, .ended⟩ with
    socket, isConnected := true, reconnecting := false, wired := socket :: l.wired }

end Link

/-! ## Steps -/

/-- A handler of the options that is running, and what the socket goes on with after it. -/
inductive Callback where
  | onclose (socket : Nat) (goesOn : Bool)
  | onreconnecting (i : Nat)
  | onreconnected (i : Nat)
  deriving DecidableEq, Repr

structure JsonRpcSocket where
  link : Link := {}
  rpc : Rpc := {}
  callback : Option Callback := none

inductive Call where
  | request (id : Option JsonRpcId)
  | subscribe (method : String) (id subscription : Option JsonRpcId)
  | closeSubscription (n : Nat)
  | checkHealth
  | close

/-- A call, the end of a running handler, an event of a WebSocket, a timer, or the continuation of a
promise that has settled. -/
inductive Action where
  | call (call : Call)
  | callbackEnds (threw : Bool)
  | message (socket : Nat) (response : Option JsonRpcResponse)
  | closed (socket : Nat)
  | heartbeatInterval
  | heartbeatTimeout
  | requestTimeout (n : Nat)
  | probeTimeout (n : Nat)
  | probeSettled (n : Nat)
  | subscribeSettled (n : Nat)
  | backoffTimeout (i : Nat)
  | connectSettled (i : Nat) (opened : Bool)
  | resumeLoop (i : Nat)

structure Event where
  action : Action
  given : Given

namespace JsonRpcSocket
variable (options : JsonRpcSocketOptions)

def close (s : JsonRpcSocket) : JsonRpcSocket :=
  { s with
    link := Link.wakeReconnect { s.link with closedByUser := true, isConnected := false }
    rpc := s.rpc.stopHeartbeat }

/-- Idempotently closes a connection after a completed liveness verdict. -/
def closeDeadConnection (s : JsonRpcSocket) : JsonRpcSocket :=
  if s.link.closedByUser ∨ s.link.isConnected = false then s
  else { s with link := { s.link with isConnected := false }, rpc := s.rpc.stopHeartbeat }

def probeConnection (s : JsonRpcSocket) (g : Given) : JsonRpcSocket :=
  let probed := { s with rpc := s.rpc.startProbe g }
  match g.sendError, probed.rpc.probes[s.rpc.probes.length]? with
  | some _, some probe =>
    { probed with rpc := probed.rpc.settleProbe s.rpc.probes.length probe false }.closeDeadConnection
  | _, _ => probed

def checkHealth (s : JsonRpcSocket) (g : Given) : JsonRpcSocket :=
  if s.link.closedByUser then s
  else if s.link.isConnected = false then
    if s.link.reconnecting then { s with link := s.link.wakeReconnect }
    else if options.autoReconnect then { s with link := s.link.attemptReconnect options g.offline }
    else s
  else
    match s.rpc.healthProbe with
    | some _ => s
    | none => s.probeConnection g

def call (s : JsonRpcSocket) (g : Given) : Call → JsonRpcSocket
  | .request id => { s with rpc := s.rpc.requestWithProgress options s.link.connected g id }
  | .subscribe method id subscription =>
    { s with rpc := s.rpc.subscribe options s.link.connected g method id subscription }
  | .closeSubscription n => { s with rpc := s.rpc.close options s.link.connected g n }
  | .checkHealth => s.checkHealth options g
  | .close => s.close

/-- The close handler of a WebSocket, up to the handler of the options. -/
def closed (s : JsonRpcSocket) (g : Given) (socket : Nat) : JsonRpcSocket :=
  if socket ∈ s.link.wired then
    { link := { s.link with isConnected := false, wired := s.link.wired.filter (· ≠ socket) }
      rpc := s.rpc.stopHeartbeat.rejectPendingRequests options none g
      callback := some (.onclose socket (!s.link.closedByUser)) }
  else s

def heartbeatTimeout (s : JsonRpcSocket) : JsonRpcSocket :=
  match s.rpc.heartbeatTimeout with
  | none => s
  | some pingId => { s with rpc := s.rpc.missPong pingId }.closeDeadConnection

def probeTimeout (s : JsonRpcSocket) (n : Nat) : JsonRpcSocket :=
  match s.rpc.probes[n]? with
  | none => s
  | some probe =>
    if probe.timer = false then s
    else { s with rpc := s.rpc.settleProbe n probe false }.closeDeadConnection

def probeSettled (s : JsonRpcSocket) (n : Nat) : JsonRpcSocket :=
  if s.rpc.healthProbe = some n ∧ (s.rpc.probes[n]?.bind Probe.result).isSome then
    { s with rpc := { s.rpc with healthProbe := none } }
  else s

/-- What a loop does when its last wait is over. -/
def resumeLoop (s : JsonRpcSocket) (g : Given) (i : Nat) : JsonRpcSocket :=
  match s.link.loops[i]? with
  | some ⟨attempt, .woken again⟩ =>
    { s with link := s.link.waitWhileExplicitlyOffline g.offline i attempt again true }
  | some ⟨attempt, .pastOffline false _⟩ =>
    if s.link.closedByUser then { s with link := s.link.endLoop i attempt }
    else { s with callback := some (.onreconnecting i) }
  | some ⟨attempt, .pastBackoff⟩ =>
    { s with link := s.link.waitWhileExplicitlyOffline g.offline i attempt true false }
  | some ⟨attempt, .pastOffline true _⟩ =>
    if s.link.closedByUser then { s with link := s.link.endLoop i attempt }
    else { s with link := s.link.connect i attempt }
  | some ⟨attempt, .opened socket⟩ =>
    -- `close` may have raced the connection establishment
    if s.link.closedByUser then { s with link := s.link.endLoop i attempt }
    else { link := s.link.adopt i attempt socket
           rpc := s.rpc.startHeartbeat options
           callback := some (.onreconnected i) }
  | some ⟨attempt, .failed⟩ => { s with link := s.link.tryReconnect options g.offline i attempt }
  | _ => s

/-- A handler that throws ends the close handler, or the loop with its flag still set; after a
successful reconnection it makes the loop go on. -/
def callbackEnds (s : JsonRpcSocket) (g : Given) (threw : Bool) : Callback → JsonRpcSocket
  | .onclose _ goesOn =>
    if goesOn ∧ threw = false ∧ options.autoReconnect ∧ s.link.reconnecting = false then
      { s with link := s.link.attemptReconnect options g.offline }
    else s
  | .onreconnecting i =>
    match s.link.loops[i]? with
    | some ⟨attempt, .pastOffline false waited⟩ =>
      if threw then { s with link := s.link.setLoop i ⟨attempt, .ended⟩ }
      else if waited then
        { s with link := s.link.waitWhileExplicitlyOffline g.offline i attempt true false }
      else { s with link := s.link.waitForBackoff options g i attempt }
    | _ => s
  | .onreconnected i =>
    match s.link.loops[i]? with
    | some ⟨attempt, _⟩ =>
      if threw then { s with link := s.link.tryReconnect options g.offline i attempt } else s
    | none => s

/-- While a handler of the options runs, only its own calls come through. -/
def step (s : JsonRpcSocket) (e : Event) : JsonRpcSocket :=
  match s.callback, e.action with
  | _, .call call => s.call options e.given call
  | some callback, .callbackEnds threw =>
    { s with callback := none }.callbackEnds options e.given threw callback
  | some _, _ => s
  | none, .callbackEnds _ => s
  | none, .message socket response =>
    match response with
    | some response =>
      if socket ∈ s.link.wired then
        { s with rpc := s.rpc.receive options s.link.connected e.given response }
      else s
    | none => s
  | none, .closed socket => s.closed options e.given socket
  | none, .heartbeatInterval => { s with rpc := s.rpc.heartbeat s.link.connected e.given }
  | none, .heartbeatTimeout => s.heartbeatTimeout
  | none, .requestTimeout n => { s with rpc := s.rpc.expire e.given n }
  | none, .probeTimeout n => s.probeTimeout n
  | none, .probeSettled n => s.probeSettled n
  | none, .subscribeSettled n =>
    { s with rpc := s.rpc.subscribed options s.link.connected e.given n }
  | none, .backoffTimeout i => { s with link := s.link.backoffElapsed i }
  | none, .connectSettled i opened => { s with link := s.link.connectSettled i opened }
  | none, .resumeLoop i => s.resumeLoop options e.given i

def run (s : JsonRpcSocket) (events : List Event) : JsonRpcSocket := events.foldl (step options) s

def initial : JsonRpcSocket := { rpc := Rpc.startHeartbeat options {} }

end JsonRpcSocket

end EnboxDwn.Clients
