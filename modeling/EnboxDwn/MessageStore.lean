import EnboxDwn.Replication
import Mathlib.Data.List.Sort

/-! The message store at the level of its log rows: one row per stored message, in
the order of insertion, and the head of the log. Every operation is one atomic
mutation of one tenant's log; an operation that throws changes nothing. -/
namespace EnboxDwn
open KeyValues

variable [P : Platform]

structure Row where
  seq : Nat
  message : StoredMessage
  indexes : KeyValues
  fingerprintScopes : List String

namespace Row

def cid (r : Row) : Cid := Message.getCid r.message

/-- The default sort: the indexed message timestamp, then the CID. -/
def sortKey (r : Row) : Timestamp ×ₗ Cid :=
  match get r.indexes "messageTimestamp" with
  | some (.single (.string t)) => toLex (t, r.cid)
  | _ => toLex ("", r.cid)

def isLatest (r : Row) : Bool := get r.indexes "isLatestBaseState" == some (flag true)

end Row

structure Log where
  rows : List Row := []
  head : Nat := 0

inductive PutResult where
  | inserted (position : Nat)
  | duplicate
  deriving DecidableEq, Repr

inductive CompleteDataResult where
  | completed (position : Nat)
  | duplicate
  | superseded
  deriving DecidableEq, Repr

structure Retain where
  messageCid : Cid
  message : StoredMessage
  indexes : KeyValues

/-- One latest-state transition: the new message, the displaced messages kept as
non-latest rows, and the displaced messages removed. -/
structure LatestStateTransition where
  message : StoredMessage
  indexes : KeyValues
  retains : List Retain
  deletes : List Cid

namespace MessageStore

def find? (log : Log) (cid : Cid) : Option Row := log.rows.find? fun r => r.cid = cid

def getLogEntryForMutation (log : Log) (cid : Cid) (code : DwnErrorCode) : Except Failure Row :=
  match find? log cid with
  | some r => .ok r
  | none => .error (.dwnError ⟨code, "no message found with CID " ++ cid.val⟩)

def assertIndexable (indexes : KeyValues) : Except Failure Unit :=
  if indexes.isEmpty then .error (.dwnError ⟨.indexMissingIndexableProperty,
    "Index must include at least one valid indexable property"⟩)
  else .ok ()

def matching (log : Log) (filters : List Filter) : List Row :=
  log.rows.filter fun r => FilterUtility.matchAnyFilter r.indexes filters

/-- The messages that match any of the filters, oldest first. -/
def query (log : Log) (filters : List Filter) : List StoredMessage :=
  ((matching log filters).insertionSort fun a b => a.sortKey ≤ b.sortKey).map Row.message

def newRow (log : Log) (message : StoredMessage) (indexes : KeyValues) : Row where
  seq := log.head + 1
  message := message
  indexes := indexes
  fingerprintScopes := Replication.computeFingerprintScopes message.message indexes

def assertInsertable (log : Log) (indexes : KeyValues) : Except Failure Unit := do
  assertIndexable indexes
  Replication.assertPositionEncodable (log.head + 1)

def put (log : Log) (message : StoredMessage) (indexes : KeyValues) :
    Except Failure (PutResult × Log) :=
  if (find? log (Message.getCid message)).isSome then .ok (.duplicate, log)
  else do
    assertInsertable log indexes
    return (.inserted (log.head + 1),
      { rows := log.rows ++ [newRow log message indexes], head := log.head + 1 })

def assertSameCid (messageCid : Cid) (message : StoredMessage) : Except Failure Unit :=
  if Message.getCid message = messageCid then .ok ()
  else .error (.dwnError ⟨.messageStoreUpdateMessageAndIndexesCidMismatch,
    "replacement message CID " ++ (Message.getCid message).val ++
      " does not match target CID " ++ messageCid.val⟩)

def assertReplaceable (log : Log) (x : Retain) : Except Failure Unit := do
  let row ← getLogEntryForMutation log x.messageCid
    .messageStoreUpdateMessageAndIndexesMessageNotFound
  Replication.assertFingerprintScopesUntouched row.fingerprintScopes x.message.message
    x.messageCid x.indexes
  assertIndexable x.indexes

def applyRetain (r : Row) (x : Retain) : Row :=
  if x.messageCid = r.cid then { r with message := x.message, indexes := x.indexes } else r

def inserts (log : Log) (t : LatestStateTransition) : Bool :=
  (find? log (Message.getCid t.message)).isNone

def assertCommittable (log : Log) (t : LatestStateTransition) : Except Failure Unit := do
  t.retains.forM fun x => assertSameCid x.messageCid x.message
  if inserts log t then assertInsertable log t.indexes
  t.retains.forM (assertReplaceable log)

def displace (rows : List Row) (t : LatestStateTransition) : List Row :=
  (rows.map fun r => t.retains.foldl applyRetain r).filter fun r => r.cid ∉ t.deletes

/-- A duplicate inserts nothing but still applies the retains and the deletes. -/
def commitLatestState (log : Log) (t : LatestStateTransition) :
    Except Failure (PutResult × Log) := do
  assertCommittable log t
  if inserts log t then
    return (.inserted (log.head + 1),
      { rows := displace log.rows t ++ [newRow log t.message t.indexes], head := log.head + 1 })
  else
    return (.duplicate, { log with rows := displace log.rows t })

def updateIndexes (log : Log) (messageCid : Cid) (indexes : KeyValues) :
    Except Failure (Unit × Log) := do
  let row ← getLogEntryForMutation log messageCid .messageStoreUpdateIndexesMessageNotFound
  Replication.assertFingerprintScopesUntouched row.fingerprintScopes row.message.message
    messageCid indexes
  assertIndexable indexes
  return ((), { log with rows := log.rows.map fun r =>
    if messageCid = r.cid then { r with indexes := indexes } else r })

def updateMessageAndIndexes (log : Log) (messageCid : Cid) (message : StoredMessage)
    (indexes : KeyValues) : Except Failure (Unit × Log) := do
  assertSameCid messageCid message
  assertReplaceable log ⟨messageCid, message, indexes⟩
  return ((), { log with rows := log.rows.map fun r => applyRetain r ⟨messageCid, message, indexes⟩ })

def recordFilter (recordId : String) : Filter :=
  [Filters.equalText "interface" "Records", Filters.equalText "recordId" recordId]

/-- Moves a sole dataless write to the end of the log as the latest state. -/
def completeData (log : Log) (messageCid : Cid) (indexes : KeyValues)
    (encodedData : Option P.Data) : Except Failure (CompleteDataResult × Log) := do
  let row ← getLogEntryForMutation log messageCid .messageStoreCompleteDataInvalidTarget
  match row.message.message with
  | .recordsWrite m =>
    if row.isLatest then return (.duplicate, log)
    else if (matching log [recordFilter m.recordId]).any fun r => r.cid ≠ messageCid then
      return (.superseded, log)
    else
      Replication.assertFingerprintScopesUntouched row.fingerprintScopes row.message.message
        messageCid indexes
      assertInsertable log indexes
      let completed : Row :=
        { row with
          seq := log.head + 1
          indexes := indexes
          message := { row.message with
            encodedData := encodedData.or row.message.encodedData } }
      return (.completed (log.head + 1),
        { rows := log.rows.filter (fun r => r.cid ≠ messageCid) ++ [completed],
          head := log.head + 1 })
  | _ => .error (.dwnError ⟨.messageStoreCompleteDataInvalidTarget,
      "message " ++ messageCid.val ++ " is not a RecordsWrite"⟩)

/-- Removing an absent row is a no-op. -/
def delete (log : Log) (messageCid : Cid) : Log :=
  { log with rows := log.rows.filter fun r => r.cid ≠ messageCid }

end MessageStore

end EnboxDwn
