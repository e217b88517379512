import EnboxDwn.LogRead

/-! Subscriptions that are fed from the replication log: catch-up to a frozen head, the
switch to live delivery, and the drains that wakes ask for. Tasks run one at a time, from
one await to the next, and commits, wakes and closes fall between them. -/
namespace EnboxDwn
open KeyValues MessageStore

variable [P : Platform]

structure FeedEntry extends EventLogEntry where
  initialWrite : Option GenericMessage := none

structure FeedPage where
  events : List FeedEntry
  cursor : Option ProgressToken
  drained : Bool

structure SubscriptionEvent where
  cursor : ProgressToken
  message : GenericMessage
  initialWrite : Option GenericMessage
  messageCid : Cid
  isLatestBaseState : Bool
  module : Option String
  encodedData : Option P.Data

inductive SubscriptionMessage where
  | event (e : SubscriptionEvent)
  | eose (cursor : ProgressToken)
  | error (cursor : ProgressToken) (code detail : String)

structure DurableSubscription where
  cursor : ProgressToken
  closed : Bool := false
  draining : Bool := false
  liveReady : Bool
  redrainRequested : Bool := false

/-- A page whose entries are being handed to the listener: the listener has `entry`, and
the ones in `rest` wait for it. -/
structure PageDelivery where
  page : FeedPage
  pageCursor : ProgressToken
  entry : FeedEntry
  rest : List FeedEntry

/-- The awaits of a subscribe call with a cursor. A read that has not captured the head
of the log yet has none. -/
inductive CatchUp where
  | bounding (head : Option Nat)
  | validating (frozenCursor : ProgressToken) (head : Option Nat)
  | reading (frozenCursor readCursor : ProgressToken) (head : Option Nat)
  | delivering (frozenCursor : ProgressToken) (delivery : PageDelivery)
  | completing
  | finished

/-- The awaits of the drain that runs, if any. -/
inductive Drain where
  | idle
  | reading (readCursor : ProgressToken) (head : Option Nat)
  | delivering (delivery : PageDelivery)
  | settled
  | failed
  | retrying

namespace DurableEventLog

def needsInitialWrite : GenericMessage → Bool
  | .recordsWrite m => !RecordsWrite.isInitialWrite m
  | .recordsDelete _ => true
  | .modulesConfigure _ => false

def getRecordId : GenericMessage → Option String
  | .recordsWrite m => some m.recordId
  | .recordsDelete m => some m.descriptor.recordId
  | .modulesConfigure _ => none

def attachInitialWrite (log : Log) (entry : EventLogEntry) : FeedEntry where
  toEventLogEntry := entry
  initialWrite :=
    if needsInitialWrite entry.message.message then do
      let recordId ← getRecordId entry.message.message
      let initialWrite ← (query log [[Filters.equalText "entryId" recordId]]).head?
      return initialWrite.message
    else none

def isLatestBaseState (entry : EventLogEntry) : Bool :=
  get entry.indexes "isLatestBaseState" == some (flag true) ||
    get entry.indexes "isLatestBaseState" == some (text "true")

def getModule (entry : EventLogEntry) : Option String :=
  match get entry.indexes "module" with
  | some (.single (.string module)) => some module
  | _ => none

/-- The token of an entry, in the domain of the page it was read with. -/
def entryToken (pageCursor : ProgressToken) (entry : FeedEntry) : ProgressToken :=
  buildToken pageCursor.toStreamDomain entry.position (some entry.messageCid)

def toEvent (pageCursor : ProgressToken) (entry : FeedEntry) : SubscriptionEvent where
  cursor := entryToken pageCursor entry
  message := entry.message.message
  initialWrite := entry.initialWrite
  messageCid := entry.messageCid
  isLatestBaseState := isLatestBaseState entry.toEventLogEntry
  module := getModule entry.toEventLogEntry
  encodedData := entry.message.encodedData

/-- A read whose head was captured before. -/
def read (domain : StreamDomain) (head : Nat) (log : Log) (cursor : Option ProgressToken)
    (limit : Option Int) (filters : Option (List Filter)) : Except Failure FeedPage := do
  FilterUtility.assertValidSubtreeFilters (filters.getD [])
  let result ← logPage domain head log cursor limit filters
  return { events := result.events.map (attachInitialWrite log)
           cursor := result.cursor
           drained := result.drained }

def progressGap (detail : String) : Failure :=
  .dwnError ⟨.other "EventLogProgressGap", "progress token gap: " ++ detail⟩

def isProgressGap : Failure → Bool
  | .dwnError e => e.code == .other "EventLogProgressGap"
  | _ => false

end DurableEventLog

/-- A subscription with everything its listener was handed, beside the log. `reads` counts
the pages asked for. -/
structure Subscribed where
  log : Log
  subscription : DurableSubscription
  catchUp : CatchUp := .finished
  drain : Drain := .idle
  listener : List SubscriptionMessage := []
  reads : Nat := 0

inductive SubscribedAction where
  | commit (call : StoreCall)
  | wake
  | close
  | resumeCatchUp
  | resumeDrain

namespace Subscribed
open DurableEventLog

def deliverMessage (w : Subscribed) (message : SubscriptionMessage) : Subscribed :=
  { w with listener := w.listener ++ [message] }

def closeSubscription (w : Subscribed) : Subscribed :=
  { w with subscription := { w.subscription with closed := true } }

def moveCursor (w : Subscribed) (cursor : ProgressToken) : Subscribed :=
  { w with subscription := { w.subscription with cursor } }

section Machine
variable (domain : StreamDomain) (readLimit : Nat) (filters : Option (List Filter))

def readSubscriptionPage (head : Nat) (log : Log) (cursor : ProgressToken) :
    Except Failure FeedPage := do
  let result ← read domain head log (some cursor) (some (max 1 readLimit : Nat)) filters
  if result.cursor.any fun c => c.toStreamDomain ≠ cursor.toStreamDomain then
    .error (progressGap "stream domain changed during a subscription read")
  else return result

/-! ### Drains -/

/-- The head of the loop of `drainOnce`. -/
def drainOnce (w : Subscribed) : Subscribed :=
  if w.subscription.closed then { w with drain := .settled }
  else { w with drain := .reading w.subscription.cursor none, reads := w.reads + 1 }

/-- The end of the loop of `drainSubscription`. -/
def redrain (w : Subscribed) : Subscribed :=
  if w.subscription.redrainRequested && !w.subscription.closed then
    drainOnce { w with subscription := { w.subscription with redrainRequested := false } }
  else { w with drain := .idle, subscription := { w.subscription with draining := false } }

def drainSubscription (w : Subscribed) : Subscribed :=
  if w.subscription.draining then
    { w with subscription := { w.subscription with redrainRequested := true } }
  else
    drainOnce { w with
      subscription := { w.subscription with draining := true, redrainRequested := false } }

def scheduleDrain (w : Subscribed) : Subscribed :=
  if w.subscription.liveReady then drainSubscription w
  else { w with subscription := { w.subscription with redrainRequested := true } }

def handleWake (w : Subscribed) : Subscribed :=
  if w.subscription.closed then w else scheduleDrain w

def handleDrainError (w : Subscribed) (e : Failure) : Subscribed :=
  if w.subscription.closed then { w with drain := .failed }
  else if isProgressGap e then
    let detail := match e with | .dwnError e => e.detail | _ => ""
    { (w.closeSubscription.deliverMessage
        (.error w.subscription.cursor "ProgressGap" detail)) with drain := .failed }
  else { w with drain := .failed }

def drainEntries (w : Subscribed) (page : FeedPage) (pageCursor : ProgressToken)
    (entries : List FeedEntry) : Subscribed :=
  if w.subscription.closed then { w with drain := .settled }
  else
    match entries with
    | entry :: rest =>
      { w.deliverMessage (.event (toEvent pageCursor entry)) with
        drain := .delivering { page, pageCursor, entry, rest } }
    | [] =>
      let w := w.moveCursor (page.cursor.getD w.subscription.cursor)
      if page.drained then { w with drain := .settled } else drainOnce w

def resumeDrain (w : Subscribed) : Subscribed :=
  match w.drain with
  | .idle => w
  | .reading readCursor none => { w with drain := .reading readCursor (some w.log.head) }
  | .reading readCursor (some head) =>
    match readSubscriptionPage domain readLimit filters head w.log readCursor with
    | .ok page => drainEntries w page (page.cursor.getD readCursor) page.events
    | .error e => handleDrainError w e
  | .delivering d =>
    if w.subscription.closed then { w with drain := .settled }
    else drainEntries (w.moveCursor (entryToken d.pageCursor d.entry)) d.page d.pageCursor d.rest
  | .settled => redrain w
  | .failed =>
    if w.subscription.redrainRequested && !w.subscription.closed then { w with drain := .retrying }
    else redrain w
  | .retrying => redrain w

/-! ### Catch-up -/

/-- The latest token of `logBounds`, from a head captured before. -/
def latestBound (head : Nat) (log : Log) : Option ProgressToken :=
  if head = 0 then none else some (buildToken domain head (getMessageCidAtPosition log head))

def finishCatchUp (w : Subscribed) (frozenCursor : ProgressToken) : Subscribed :=
  let w := w.moveCursor frozenCursor
  if w.subscription.closed then { w with catchUp := .finished }
  else { w.deliverMessage (.eose frozenCursor) with catchUp := .completing }

/-- The head of the loop of `catchUpSubscription`. -/
def catchUpOnce (w : Subscribed) (frozenCursor : ProgressToken) : Subscribed :=
  if !w.subscription.closed && w.subscription.cursor.position < frozenCursor.position then
    { w with catchUp := .reading frozenCursor w.subscription.cursor none, reads := w.reads + 1 }
  else finishCatchUp w frozenCursor

/-- The end of a page in `catchUpSubscription`. -/
def finishCatchUpPage (w : Subscribed) (frozenCursor : ProgressToken) (page : FeedPage)
    (reachedFrozenPosition : Bool) : Subscribed :=
  let resultCursor := page.cursor.getD w.subscription.cursor
  if reachedFrozenPosition || page.drained || frozenCursor.position ≤ resultCursor.position then
    finishCatchUp w frozenCursor
  else catchUpOnce (w.moveCursor resultCursor) frozenCursor

def catchUpEntries (w : Subscribed) (frozenCursor : ProgressToken) (page : FeedPage)
    (pageCursor : ProgressToken) (entries : List FeedEntry) : Subscribed :=
  if w.subscription.closed then { w with catchUp := .finished }
  else
    match entries with
    | entry :: rest =>
      if frozenCursor.position < entry.position then finishCatchUpPage w frozenCursor page true
      else
        { w.deliverMessage (.event (toEvent pageCursor entry)) with
          catchUp := .delivering frozenCursor { page, pageCursor, entry, rest } }
    | [] => finishCatchUpPage w frozenCursor page false

def resumeCatchUp (w : Subscribed) : Subscribed :=
  match w.catchUp with
  | .bounding none => { w with catchUp := .bounding (some w.log.head) }
  | .bounding (some head) =>
    { w with catchUp := .validating ((latestBound domain head w.log).getD w.subscription.cursor) none }
  | .validating frozenCursor none =>
    { w with catchUp := .validating frozenCursor (some w.log.head) }
  | .validating frozenCursor (some head) =>
    match read domain head w.log (some w.subscription.cursor) (some 0) none with
    | .ok _ => catchUpOnce w frozenCursor
    | .error _ => { w.closeSubscription with catchUp := .finished }
  | .reading frozenCursor readCursor none =>
    { w with catchUp := .reading frozenCursor readCursor (some w.log.head) }
  | .reading frozenCursor readCursor (some head) =>
    match readSubscriptionPage domain readLimit filters head w.log readCursor with
    | .ok page => catchUpEntries w frozenCursor page (page.cursor.getD readCursor) page.events
    | .error _ => { w.closeSubscription with catchUp := .finished }
  | .delivering frozenCursor d =>
    if w.subscription.closed then { w with catchUp := .finished }
    else catchUpEntries (w.moveCursor (entryToken d.pageCursor d.entry)) frozenCursor d.page
      d.pageCursor d.rest
  | .completing =>
    if w.subscription.closed then { w with catchUp := .finished }
    else
      let live : Subscribed := { w with catchUp := .finished
                                        subscription := { w.subscription with liveReady := true } }
      if live.subscription.redrainRequested then scheduleDrain live else live
  | .finished => w

/-! ### Runs -/

def step (w : Subscribed) : SubscribedAction → Subscribed
  | .commit call => { w with log := call.apply w.log }
  | .wake => handleWake w
  | .close => w.closeSubscription
  | .resumeCatchUp => resumeCatchUp domain readLimit filters w
  | .resumeDrain => resumeDrain domain readLimit filters w

def run (w : Subscribed) (actions : List SubscribedAction) : Subscribed :=
  actions.foldl (step domain readLimit filters) w

/-- A subscription starts with catch-up from its cursor, or live from the head. Wakes may
be missed, so commits between the look at the head and the registration are commits that
no wake follows. -/
def subscribe (log : Log) (cursor : Option ProgressToken) : Subscribed :=
  match cursor with
  | some cursor => { log, subscription := { cursor, liveReady := false }, catchUp := .bounding none }
  | none =>
    { log
      subscription :=
        { cursor := (latestBound domain log.head log).getD (buildToken domain 0 none)
          liveReady := true } }

end Machine

end Subscribed

end EnboxDwn
