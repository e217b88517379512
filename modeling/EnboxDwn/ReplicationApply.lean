import EnboxDwn.RecordsHandlers

/-! Applying a replicated message: the handler first, and for a write that a tombstone
beats the special path that stores it beside the tombstone. -/
namespace EnboxDwn
open Journal

variable [P : Platform]

inductive ReplicationApplyResult where
  | applied (ancestryOnly : Bool) (position : Option Nat)
  | duplicate (materialized : Bool)
  | superseded (currentWriteMaterialized : Bool)
  | deferred (reason : String)
  | incomplete
  | invalid (reason : String)
  deriving DecidableEq, Repr

inductive ReplicatedWriteState where
  | unconfirmed
  | materialized
  | supersededMaterialized
  | recordDataUnavailable
  deriving DecidableEq, Repr

/-- What replication adds to the handlers: the tenant gate, the hooks of the core
modules, and the classification of the replies that name a missing dependency. -/
structure ReplicationDependencies extends HandlerDependencies where
  isActiveTenant : Did → Bool
  validateMessageIntegrity : GenericMessage → Except Failure Unit
  corePreProcessWrite : Stores → Did → RecordsWriteMessage → Except Failure Unit
  coreValidateRecord : RecordsWriteMessage → P.Data → Except Failure Unit
  coreStatusCode : DwnErrorCode → Option Nat
  handleModulesConfigure : Did → ModulesConfigureMessage → Task Reply
  classifyFailure : Stores → GenericMessage → Reply → ReplicationApplyResult

/-- Dependencies that let every message pass. -/
def ReplicationDependencies.permissive : ReplicationDependencies where
  toHandlerDependencies := .permissive
  isActiveTenant _ := true
  validateMessageIntegrity _ := .ok ()
  corePreProcessWrite _ _ _ := .ok ()
  coreValidateRecord _ _ := .ok ()
  coreStatusCode _ := none
  handleModulesConfigure _ _ := pure { status := { code := 202, detail := "Accepted" } }
  classifyFailure _ _ _ := .incomplete

namespace Records

def getNewestRecordsDelete (messages : List StoredMessage) : Option RecordsDeleteMessage :=
  (Message.getNewestMessage (messages.filter StoredMessage.isRecordsDelete)).bind fun m =>
    match m.message with
    | .recordsDelete d => some d
    | _ => none

end Records

namespace Dwn

def tenantInactive (tenant : Did) : Status :=
  { code := 401, detail := "DID " ++ tenant ++ " is not an active tenant." }

def processMessage (deps : ReplicationDependencies) (tenant : Did) (message : GenericMessage)
    (dataStream : Option P.Data) : Task Reply :=
  if !deps.isActiveTenant tenant then pure { status := tenantInactive tenant }
  else
    match deps.validateMessageIntegrity message with
    | .error e => pure { status := messageReplyFromError e 400 }
    | .ok () =>
      match message with
      | .recordsWrite m =>
        RecordsWriteHandler.handle deps.toHandlerDependencies tenant m dataStream
      | .recordsDelete m => RecordsDeleteHandler.handle deps.toHandlerDependencies tenant m
      | .modulesConfigure m => deps.handleModulesConfigure tenant m

/-- Whether this write, or one that superseded it, is queryable with its data. -/
def replicatedWriteState (tenant : Did) (m : RecordsWriteMessage) (includeSupersedingWrite : Bool)
    (s : Stores) : ReplicatedWriteState :=
  let filter := MessageStore.recordFilter m.recordId ++ [Filters.equalFlag "isLatestBaseState" true]
  match (MessageStore.query (s.messages tenant) [filter]).take 2 with
  | [] => if RecordsWrite.isInitialWrite m then .unconfirmed else .recordDataUnavailable
  | [current] =>
    match current.asRecordsWrite with
    | none => .unconfirmed
    | some w =>
      let isExactWrite := Message.getCid current = Message.getCid (RecordsWrite.stored m)
      let hasData := current.encodedData.isSome ||
        (s.data.get ⟨tenant, w.recordId, w.descriptor.dataCid⟩).any fun (dataSize, _) =>
          dataSize = w.descriptor.dataSize
      if ¬ isExactWrite ∧ !includeSupersedingWrite then .unconfirmed
      else if !hasData then if isExactWrite then .recordDataUnavailable else .unconfirmed
      else if isExactWrite then .materialized else .supersededMaterialized
  | _ => .unconfirmed

def replicationApplyResultFromReply (classify : Reply → ReplicationApplyResult) (reply : Reply) :
    ReplicationApplyResult :=
  if reply.status.code = 202 ∨ reply.status.code = 204 then
    .applied (reply.status.code = 204) reply.position
  else if reply.status.code = 409 then .superseded false
  else if startsWith reply.status.detail "RecordsWriteNotAllowedAfterDelete:" then .superseded false
  else classify reply

def validateReplicatedWriteBeatenByDeleteDataStream (deps : ReplicationDependencies)
    (m : RecordsWriteMessage) (dataStream : P.Data) : Except Failure Unit := do
  RecordsWrite.validateDataIntegrity m.descriptor.dataCid m.descriptor.dataSize
    (P.computeDagPbCid dataStream) (P.byteLength dataStream)
  if m.descriptor.dataSize ≤ maxDataSizeAllowedToBeEncoded then
    deps.coreValidateRecord m dataStream

def validateReplicatedWriteBeatenByDeleteExistingData (tenant : Did) (m : RecordsWriteMessage)
    (existingMessages : List StoredMessage) (s : Stores) : Except Failure Unit :=
  match Message.getNewestMessage (existingMessages.filter StoredMessage.isRecordsWrite) with
  | none => .error (.dwnError ⟨.recordsWriteGetInitialWriteNotFound,
      "initial write is missing for record " ++ m.recordId⟩)
  | some newest =>
    match newest.asRecordsWrite with
    | none => .error .typeError
    | some newestExistingWrite => do
      let _ ← RecordsWriteHandler.processMessageWithoutDataStream tenant m newestExistingWrite
        newest.encodedData s

def validateReplicatedWriteBeatenByDeleteOrThrow (deps : ReplicationDependencies) (tenant : Did)
    (m : RecordsWriteMessage) (existingMessages : List StoredMessage) (dataStream : Option P.Data)
    (s : Stores) : Except Failure Unit := do
  deps.corePreProcessWrite s tenant m
  match dataStream with
  | some data => validateReplicatedWriteBeatenByDeleteDataStream deps m data
  | none =>
    if RecordsWrite.isInitialWrite m then .ok ()
    else validateReplicatedWriteBeatenByDeleteExistingData tenant m existingMessages s

/-- Stores the write as a non-latest row and lets the tombstone show its visibility facts. -/
def storeBesideTombstone (deps : ReplicationDependencies) (tenant : Did) (m : RecordsWriteMessage)
    (existingMessages : List StoredMessage) (initialWrite : RecordsWriteMessage)
    (existingDelete : RecordsDeleteMessage) : Task Unit := do
  Program.ofExcept (RecordsWrite.parse deps.toHandlerDependencies m)
  let _ ← Stores.withLog tenant fun log => MessageStore.put log (RecordsWrite.stored m)
    (RecordsWrite.constructIndexes m false)
  Program.ofExcept (RecordsDelete.parse deps.toHandlerDependencies existingDelete)
  let visibilitySourceWrite :=
    (Records.getNewestRecordsWrite (existingMessages ++ [RecordsWrite.stored m])).getD initialWrite
  Stores.withLog tenant fun log => MessageStore.updateIndexes log
    (Message.getCid (RecordsDelete.stored existingDelete))
    (RecordsDelete.constructIndexes existingDelete initialWrite visibilitySourceWrite)

def storeReplicatedWriteBeatenByDelete (deps : ReplicationDependencies) (tenant : Did)
    (message : GenericMessage) (dataStream : Option P.Data) (reply : Reply) :
    Task (Option ReplicationApplyResult) :=
  match message with
  | .recordsWrite m =>
    if !startsWith reply.status.detail "RecordsWriteNotAllowedAfterDelete:" then pure none
    else do
      let existingMessages ← Stores.query tenant [MessageStore.recordFilter m.recordId]
      let initialWrite ← Program.ofExcept (RecordsWrite.getInitialWrite existingMessages)
      match Records.getNewestRecordsDelete existingMessages with
      | none => return none
      | some existingDelete =>
        match ← Program.read
            (validateReplicatedWriteBeatenByDeleteOrThrow deps tenant m existingMessages
              dataStream) with
        | .error e =>
          let statusCode := match e with
            | .dwnError e => (deps.coreStatusCode e.code).getD 400
            | _ => 400
          let failed : Reply := { status := messageReplyFromError e statusCode }
          Program.read fun s =>
            some (replicationApplyResultFromReply (deps.classifyFailure s message) failed)
        | .ok () => do
          storeBesideTombstone deps tenant m existingMessages initialWrite existingDelete
          return some (.superseded false)
  | _ => pure none

/-- The result for a message that is already stored, when its processing ends there. -/
def resultIfDuplicate (includeMaterializationConfirmation messageAlreadyStored
    isRecordsWriteWithData : Bool) (duplicateState : ReplicatedWriteState) :
    Option ReplicationApplyResult :=
  let materialized := duplicateState == .materialized &&
    (includeMaterializationConfirmation || isRecordsWriteWithData)
  if includeMaterializationConfirmation && duplicateState == .supersededMaterialized then
    some (.superseded true)
  else if isRecordsWriteWithData && duplicateState == .recordDataUnavailable then
    some (.deferred "record-data-unavailable")
  else if messageAlreadyStored && (!isRecordsWriteWithData || materialized) then
    some (.duplicate materialized)
  else none

def duplicateStateOf (tenant : Did) (message : GenericMessage) (dataStream : Option P.Data)
    (includeMaterializationConfirmation : Bool) (s : Stores) : ReplicatedWriteState :=
  match message with
  | .recordsWrite m =>
    if (MessageStore.find? (s.messages tenant) (P.computeCid message)).isSome &&
        (dataStream.isSome || includeMaterializationConfirmation) then
      replicatedWriteState tenant m includeMaterializationConfirmation s
    else .unconfirmed
  | _ => .unconfirmed

def confirmMaterializedSupersession (tenant : Did) (message : GenericMessage)
    (result : ReplicationApplyResult) (requested : Bool) (s : Stores) : ReplicationApplyResult :=
  match result, message with
  | .superseded false, .recordsWrite m =>
    .superseded (requested && replicatedWriteState tenant m true s == .supersededMaterialized)
  | _, _ => result

def applyReplicatedMessage (deps : ReplicationDependencies) (tenant : Did)
    (message : GenericMessage) (dataStream : Option P.Data)
    (includeMaterializationConfirmation : Bool) : Task ReplicationApplyResult :=
  if !deps.isActiveTenant tenant then pure (.deferred "tenant-inactive")
  else
    match deps.validateMessageIntegrity message with
    | .error e => pure (.invalid (messageReplyFromError e 400).detail)
    | .ok () => do
      let messageAlreadyStored ← Program.read fun s =>
        (MessageStore.find? (s.messages tenant) (P.computeCid message)).isSome
      let duplicateState ← Program.read
        (duplicateStateOf tenant message dataStream includeMaterializationConfirmation)
      let isRecordsWriteWithData := Records.isRecordsWrite message && dataStream.isSome
      match resultIfDuplicate includeMaterializationConfirmation messageAlreadyStored
          isRecordsWriteWithData duplicateState with
      | some result => return result
      | none => do
        let reply ← processMessage deps tenant message dataStream
        if messageAlreadyStored && reply.status.code == 409 then return .duplicate false
        else
          match ← storeReplicatedWriteBeatenByDelete deps tenant message dataStream reply with
          | some result =>
            Program.read (confirmMaterializedSupersession tenant message result
              includeMaterializationConfirmation)
          | none =>
            Program.read fun s => confirmMaterializedSupersession tenant message
              (replicationApplyResultFromReply (deps.classifyFailure s message) reply)
              includeMaterializationConfirmation s

end Dwn

end EnboxDwn
