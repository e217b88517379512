import EnboxDwn.DataStore
import EnboxDwn.Lib.Journal

/-! Coordinated mutations of the message store and the data store. Each store call
is one atomic mutation of the journalled program. -/
namespace EnboxDwn
open Journal

variable [P : Platform]

structure Stores where
  messages : Did → Log := fun _ => {}
  data : DataStore := {}

abbrev Task (α : Type) := Program Stores Failure α

namespace Stores

def setLog (s : Stores) (tenant : Did) (log : Log) : Stores :=
  { s with messages := Function.update s.messages tenant log }

@[simp] theorem messages_setLog (s : Stores) (tenant : Did) (log : Log) :
    (s.setLog tenant log).messages tenant = log := by
  simp [setLog]

@[simp] theorem data_setLog (s : Stores) (tenant : Did) (log : Log) :
    (s.setLog tenant log).data = s.data := rfl

/-- A message-store mutation as a step of a task. -/
def withLog {α : Type} (tenant : Did) (f : Log → Except Failure (α × Log)) : Task α :=
  Program.mutate fun s => (f (s.messages tenant)).map fun r => (r.1, s.setLog tenant r.2)

def query (tenant : Did) (filters : List Filter) : Task (List StoredMessage) :=
  Program.read fun s => MessageStore.query (s.messages tenant) filters

def deleteMessage (tenant : Did) (cid : Cid) : Task Unit :=
  withLog tenant fun log => .ok ((), MessageStore.delete log cid)

def putData (ref : DataRef) (dataStream : P.Data) : Task Nat :=
  Program.mutate fun s =>
    .ok ((s.data.put ref dataStream).1, { s with data := (s.data.put ref dataStream).2 })

def deleteData (ref : DataRef) : Task Unit :=
  Program.mutate fun s => .ok ((), { s with data := s.data.delete ref })

section Equations
variable (tenant : Did) (filters : List Filter) (cid : Cid) (ref : DataRef) (data : P.Data)
  (s : Stores)

@[simp] theorem result_query : (query tenant filters).result s =
    .ok (MessageStore.query (s.messages tenant) filters) := rfl
@[simp] theorem trail_query : (query tenant filters).trail s = [] := rfl
@[simp] theorem final_query : (query tenant filters).final s = s := rfl
@[simp] theorem result_deleteMessage : (deleteMessage tenant cid).result s = .ok () := rfl
@[simp] theorem trail_deleteMessage : (deleteMessage tenant cid).trail s =
    [s.setLog tenant (MessageStore.delete (s.messages tenant) cid)] := rfl
@[simp] theorem final_deleteMessage : (deleteMessage tenant cid).final s =
    s.setLog tenant (MessageStore.delete (s.messages tenant) cid) := rfl
@[simp] theorem result_putData : (putData ref data).result s = .ok (s.data.put ref data).1 := rfl
@[simp] theorem final_putData : (putData ref data).final s =
    { s with data := (s.data.put ref data).2 } := rfl
@[simp] theorem result_deleteData : (deleteData ref).result s = .ok () := rfl
@[simp] theorem trail_deleteData : (deleteData ref).trail s =
    [{ s with data := s.data.delete ref }] := rfl
@[simp] theorem final_deleteData : (deleteData ref).final s =
    { s with data := s.data.delete ref } := rfl

theorem runs_query : Program.Runs (query tenant filters) s
    (MessageStore.query (s.messages tenant) filters) s := ⟨rfl, rfl⟩

theorem runs_putData : Program.Runs (putData ref data) s (s.data.put ref data).1
    { s with data := (s.data.put ref data).2 } := ⟨rfl, rfl⟩

end Equations

/-- What holds of the log before and after a mutation of it holds where the mutation leads. -/
theorem leads_withLog {α : Type} {tenant : Did} {f : Log → Except Failure (α × Log)} {log : Log}
    {Q : Log → Prop} (hlog : Q log) (h : ∀ a log', f log = .ok (a, log') → Q log') :
    Program.Leads (fun s => s.messages tenant = log) (fun s => Q (s.messages tenant))
      (withLog tenant f) := by
  refine Program.leads_mutate (fun s hs => by rwa [hs]) fun s a t hs hok => ?_
  rw [hs] at hok
  cases hf : f log with
  | error e => simp [hf, Except.map] at hok
  | ok result =>
    rw [hf] at hok
    cases hok
    rw [messages_setLog]
    exact h _ _ hf

end Stores

/-- The largest data size that is stored inline with the message. -/
def maxDataSizeAllowedToBeEncoded : Nat := 30000

namespace StoredMessage

def asRecordsWrite (m : StoredMessage) : Option RecordsWriteMessage :=
  match m.message with
  | .recordsWrite w => some w
  | _ => none

def isRecordsWrite (m : StoredMessage) : Bool := Records.isRecordsWrite m.message

def isInitialWrite (m : StoredMessage) : Bool := m.asRecordsWrite.any RecordsWrite.isInitialWrite

def isRecordsDelete (m : StoredMessage) : Bool :=
  match m.message with
  | .recordsDelete _ => true
  | _ => false

def recordId (m : StoredMessage) : String :=
  match m.message with
  | .recordsWrite w => w.recordId
  | .recordsDelete d => d.descriptor.recordId
  | .modulesConfigure _ => ""

def stripInlineData (m : StoredMessage) : StoredMessage := { m with encodedData := none }

end StoredMessage

namespace RecordsWrite

/-- A write as a message without inline data. -/
def stored (m : RecordsWriteMessage) : StoredMessage := { message := .recordsWrite m }

def getInitialWrite (messages : List StoredMessage) : Except Failure RecordsWriteMessage :=
  match (messages.find? StoredMessage.isInitialWrite).bind StoredMessage.asRecordsWrite with
  | some m => .ok m
  | none => .error (.dwnError ⟨.recordsWriteGetInitialWriteNotFound, "Initial write is not found."⟩)

end RecordsWrite

namespace RecordsDelete

def stored (m : RecordsDeleteMessage) : StoredMessage := { message := .recordsDelete m }

end RecordsDelete

namespace Records

def getNewestRecordsWrite (messages : List StoredMessage) : Option RecordsWriteMessage :=
  (Message.getNewestMessage (messages.filter StoredMessage.isRecordsWrite)).bind
    StoredMessage.asRecordsWrite

/-- A tombstone displaces any write. Among tombstones a prune beats a plain delete
and within one class the newest wins. -/
def isDeleteBeatenByExistingTombstone (deleteToBePerformed : RecordsDeleteMessage)
    (newestExistingMessage : StoredMessage) : Bool :=
  match newestExistingMessage.message with
  | .recordsDelete existing =>
    if deleteToBePerformed.descriptor.prune ≠ existing.descriptor.prune then
      existing.descriptor.prune
    else
      !Message.isNewer (RecordsDelete.stored deleteToBePerformed) newestExistingMessage
  | _ => false

def getParentContextFromOfContextId (contextId : String) : String :=
  String.ofList ((contextId.toList.reverse.dropWhile (· ≠ '/')).drop 1).reverse

end Records

namespace StorageController

/-- Keeps the data when the newest message still references it. -/
def deleteFromDataStoreIfNeeded (tenant : Did) (newestMessage message : StoredMessage) :
    Task Unit :=
  match message.message with
  | .recordsWrite m =>
    if m.descriptor.dataSize ≤ maxDataSizeAllowedToBeEncoded then pure ()
    else if newestMessage.asRecordsWrite.map (·.descriptor.dataCid) = some m.descriptor.dataCid then
      pure ()
    else Stores.deleteData ⟨tenant, m.recordId, m.descriptor.dataCid⟩
  | _ => pure ()

theorem returns_deleteData (ref : DataRef) : Program.Returns (Stores.deleteData ref) := fun _ =>
  ⟨(), rfl⟩

theorem returns_deleteFromDataStoreIfNeeded (tenant : Did) (newest m : StoredMessage) :
    Program.Returns (deleteFromDataStoreIfNeeded tenant newest m) := by
  unfold deleteFromDataStoreIfNeeded
  split
  · split
    · exact Program.returns_pure ()
    · split
      · exact Program.returns_pure ()
      · exact returns_deleteData _
  · exact Program.returns_pure ()

def shouldKeepAsNonLatestWrite (additionalRetainedRecordsWrites : List RecordsWriteMessage)
    (message : StoredMessage) : Bool :=
  message.isInitialWrite ||
    (additionalRetainedRecordsWrites.map fun m => Message.getCid (RecordsWrite.stored m)).contains
      (Message.getCid message)

/-- Membership is decided by CID: the new message itself is never displaced. -/
def displacedMessages (existingMessages : List StoredMessage) (newMessage : StoredMessage) :
    List StoredMessage :=
  existingMessages.filter fun m => Message.getCid m ≠ Message.getCid newMessage

def retainOf (message : StoredMessage) : Option Retain :=
  message.asRecordsWrite.map fun m =>
    { messageCid := Message.getCid message
      message := message.stripInlineData
      indexes := RecordsWrite.constructIndexes m false }

def planTransition (existingMessages : List StoredMessage) (newMessage : StoredMessage)
    (indexes : KeyValues) (additionalRetainedRecordsWrites : List RecordsWriteMessage) :
    LatestStateTransition :=
  let displaced := displacedMessages existingMessages newMessage
  { message := newMessage
    indexes := indexes
    retains :=
      (displaced.filter (shouldKeepAsNonLatestWrite additionalRetainedRecordsWrites)).filterMap
        retainOf
    deletes :=
      (displaced.filter fun m => !shouldKeepAsNonLatestWrite additionalRetainedRecordsWrites m).map
        Message.getCid }

/-- Stores the new latest message and displaces every other message in one commit;
unreferenced data goes only afterwards. -/
def commitLatestStateTransition (tenant : Did) (existingMessages : List StoredMessage)
    (newMessage : StoredMessage) (indexes : KeyValues)
    (additionalRetainedRecordsWrites : List RecordsWriteMessage) : Task PutResult := do
  let putResult ← Stores.withLog tenant fun log => MessageStore.commitLatestState log
    (planTransition existingMessages newMessage indexes additionalRetainedRecordsWrites)
  Program.forEach (deleteFromDataStoreIfNeeded tenant newMessage)
    (displacedMessages existingMessages newMessage)
  return putResult

/-- The messages of one record each, in the order of first occurrence. -/
def groupByRecordId (messages : List StoredMessage) : List (List StoredMessage) :=
  (messages.map StoredMessage.recordId).eraseDups.map fun recordId =>
    messages.filter fun m => m.recordId = recordId

/-- Hard-deletes the messages of one record, its data first. -/
def purgeRecordMessages (tenant : Did) (recordMessages : List StoredMessage) : Task Unit :=
  match Records.getNewestRecordsWrite recordMessages with
  | none => Program.throw .typeError
  | some newestRecordsWrite => do
    Stores.deleteData ⟨tenant, newestRecordsWrite.recordId, newestRecordsWrite.descriptor.dataCid⟩
    Program.forEach (Stores.deleteMessage tenant) (recordMessages.map Message.getCid)

def childFilter (recordId : String) : Filter :=
  [Filters.equalText "interface" "Records", Filters.equalText "parentId" recordId]

/-- Descends to the leaves before any row of a child goes. The first argument bounds
the depth of the recursion. -/
def purgeRecordDescendants (depth : Nat) (tenant : Did) (recordId : String) : Task Unit :=
  match depth with
  | 0 => Program.throw .stackOverflow
  | depth + 1 => do
    let childMessages ← Stores.query tenant [childFilter recordId]
    let children := (childMessages.map StoredMessage.recordId).eraseDups
    Program.forEach (purgeRecordDescendants depth tenant) children
    Program.forEach (purgeRecordMessages tenant) (groupByRecordId childMessages)

/-- The task after its query: gate, displacement plan, commit and cascade. -/
def performRecordsDeleteOn (tenant : Did) (message : RecordsDeleteMessage)
    (existingMessages : List StoredMessage) : Task (Option PutResult) :=
  match Message.getNewestMessage existingMessages with
  | none => pure none
  | some newestExistingMessage =>
    if Records.isDeleteBeatenByExistingTombstone message newestExistingMessage then pure none
    else do
      let initialWrite ← Program.ofExcept (RecordsWrite.getInitialWrite existingMessages)
      let newestPreDeleteWrite :=
        (Records.getNewestRecordsWrite existingMessages).getD initialWrite
      let indexes := RecordsDelete.constructIndexes message initialWrite newestPreDeleteWrite
      let putResult ← commitLatestStateTransition tenant existingMessages
        (RecordsDelete.stored message) indexes [newestPreDeleteWrite]
      if message.descriptor.prune then
        let depth ← Program.read fun s => (s.messages tenant).rows.length + 1
        purgeRecordDescendants depth tenant message.descriptor.recordId
      return some putResult

def performRecordsDelete (tenant : Did) (message : RecordsDeleteMessage) :
    Task (Option PutResult) := do
  let existingMessages ← Stores.query tenant [MessageStore.recordFilter message.descriptor.recordId]
  performRecordsDeleteOn tenant message existingMessages

def squashFilter (message : RecordsWriteMessage) : Filter :=
  [Filters.equalText "interface" "Records", Filters.equalText "module" message.descriptor.module,
    Filters.equalText "modulePath" message.descriptor.modulePath] ++
  match Records.getParentContextFromOfContextId message.contextId with
  | "" => []
  | parentContextId => [("contextId", .subtree parentContextId)]

/-- Purges every older sibling record at the path and parent context of the squash. -/
def performRecordsSquash (tenant : Did) (message : RecordsWriteMessage) : Task Unit := do
  let siblingMessages ← Stores.query tenant [squashFilter message]
  Program.forEach (fun messages =>
      match Message.getNewestMessage messages with
      | none => pure ()
      | some newestMessage =>
        if newestMessage.recordId = message.recordId then pure ()
        else if newestMessage.message.messageTimestamp < message.descriptor.messageTimestamp then
          purgeRecordMessages tenant messages
        else pure ())
    (groupByRecordId siblingMessages)

end StorageController

end EnboxDwn
