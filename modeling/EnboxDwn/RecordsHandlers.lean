import EnboxDwn.StorageController

/-! The RecordsWrite and RecordsDelete handlers. Signature checks, module policy and
the validation hooks enter through `HandlerDependencies` as functions of the stores;
everything that decides what is stored is written out. -/
namespace EnboxDwn
open Journal

variable [P : Platform]

/-- The part of a module's rule set that admission reads. -/
structure ModuleRuleSet where
  squash : Bool := false

structure HandlerDependencies where
  validateMessageStructure : GenericMessage → Except Failure Unit
  validateSignaturePayload : GenericMessage → Except Failure Unit
  authenticate : GenericMessage → Except Failure Unit
  validateReferentialIntegrity : Stores → Did → RecordsWriteMessage → Except Failure ModuleRuleSet
  authorizeRecordsWrite : Stores → Did → RecordsWriteMessage → Except Failure Unit
  authorizeRecordsDelete :
    Stores → Did → RecordsDeleteMessage → RecordsWriteMessage → Except Failure Unit
  preProcessWrite : Stores → Did → RecordsWriteMessage → Except Failure Unit
  validateRecord : Stores → Did → RecordsWriteMessage → P.Data → Except Failure Unit

/-- Dependencies that let every message pass. -/
def HandlerDependencies.permissive : HandlerDependencies where
  validateMessageStructure _ := .ok ()
  validateSignaturePayload _ := .ok ()
  authenticate _ := .ok ()
  validateReferentialIntegrity _ _ _ := .ok {}
  authorizeRecordsWrite _ _ _ := .ok ()
  authorizeRecordsDelete _ _ _ _ := .ok ()
  preProcessWrite _ _ _ := .ok ()
  validateRecord _ _ _ _ := .ok ()

structure Reply where
  status : Status
  position : Option Nat := none
  deriving DecidableEq, Repr

def PutResult.position : PutResult → Option Nat
  | .inserted position => some position
  | .duplicate => none

namespace EncryptionControl

def isControlMessage (m : RecordsWriteMessage) : Bool :=
  ["$encryption/audience", "$encryption/delivery"].contains m.descriptor.modulePath

end EncryptionControl

namespace RecordsWrite

/-- The creation date of an initial write is its timestamp, and a context root is its
own context. -/
def validateInitialWriteIntegrity (m : RecordsWriteMessage) : Except Failure Unit :=
  let d := m.descriptor
  if !isInitialWrite m then .ok ()
  else if d.messageTimestamp ≠ d.dateCreated then
    .error (.dwnError ⟨.recordsWriteValidateIntegrityDateCreatedMismatch,
      "messageTimestamp " ++ d.messageTimestamp ++ " must match dateCreated " ++ d.dateCreated ++
        " for the initial write"⟩)
  else if d.parentId = none ∧ m.contextId ≠ getEntryId m then
    .error (.dwnError ⟨.recordsWriteValidateIntegrityContextIdMismatch,
      "contextId in message: " ++ m.contextId ++ " does not match deterministic contextId: " ++
        getEntryId m⟩)
  else .ok ()

def parse (deps : HandlerDependencies) (m : RecordsWriteMessage) : Except Failure Unit := do
  deps.validateMessageStructure (.recordsWrite m)
  validateInitialWriteIntegrity m
  deps.validateSignaturePayload (.recordsWrite m)

def validateDataIntegrity (expectedDataCid : String) (expectedDataSize : Nat)
    (actualDataCid : String) (actualDataSize : Nat) : Except Failure Unit :=
  if expectedDataCid ≠ actualDataCid then
    .error (.dwnError ⟨.recordsWriteDataCidMismatch,
      "actual data CID " ++ actualDataCid ++ " does not match dataCid in descriptor: " ++
        expectedDataCid⟩)
  else if expectedDataSize ≠ actualDataSize then
    .error (.dwnError ⟨.recordsWriteDataSizeMismatch,
      "actual data size " ++ toString actualDataSize ++
        " bytes does not match dataSize in descriptor: " ++ toString expectedDataSize⟩)
  else .ok ()

/-- The descriptor with its mutable properties blanked out. -/
def immutableProperties (d : RecordsWriteDescriptor) : RecordsWriteDescriptor :=
  { d with
    dataCid := ""
    dataSize := 0
    dataFormat := ""
    datePublished := none
    published := none
    messageTimestamp := ""
    tags := none }

def verifyEqualityOfImmutableProperties (existing new : RecordsWriteMessage) :
    Except Failure Unit :=
  if immutableProperties existing.descriptor = immutableProperties new.descriptor then .ok ()
  else .error (.dwnError ⟨.recordsWriteImmutablePropertyChanged,
    "immutable RecordsWrite properties cannot be changed."⟩)

end RecordsWrite

namespace PermissionsModule

def revocationPath : String := "grant/revocation"

/-- The messages a revocation purges: those that invoke the grant and whose record
was created at or after the revocation. -/
def grantAuthorizedMessagesFilter (m : RecordsWriteMessage) : Filter :=
  [("permissionGrantId", .equal (.string (m.descriptor.parentId.getD ""))),
    ("dateCreated", .range none (some (.string m.descriptor.messageTimestamp)) none none)]

/-- Only large data of a write is in the data store. -/
def deleteMessageData (tenant : Did) (message : StoredMessage) : Task Unit :=
  match message.asRecordsWrite with
  | some w =>
    if maxDataSizeAllowedToBeEncoded < w.descriptor.dataSize then
      Stores.deleteData ⟨tenant, w.recordId, w.descriptor.dataCid⟩
    else pure ()
  | none => pure ()

def postProcessWrite (tenant : Did) (m : RecordsWriteMessage) : Task Unit :=
  if m.descriptor.modulePath ≠ revocationPath then pure ()
  else do
    let grantAuthorizedMessages ← Stores.query tenant [grantAuthorizedMessagesFilter m]
    Program.forEach (deleteMessageData tenant) grantAuthorizedMessages
    Program.forEach (Stores.deleteMessage tenant) (grantAuthorizedMessages.map Message.getCid)

end PermissionsModule

namespace RecordsWriteHandler

def squashScopeFilter (m : RecordsWriteMessage) : Filter :=
  [Filters.equalText "interface" "Records", Filters.equalText "method" "Write",
    Filters.equalFlag "isLatestBaseState" true, Filters.equalText "module" m.descriptor.module,
    Filters.equalText "modulePath" m.descriptor.modulePath, Filters.equalFlag "squash" true] ++
  match Records.getParentContextFromOfContextId m.contextId with
  | "" => []
  | parentContextId => [("contextId", .subtree parentContextId)]

/-- No write may be older than the latest squash at its path and parent context. -/
def enforceSquashBackstop (s : Stores) (tenant : Did) (m : RecordsWriteMessage)
    (ruleSet : ModuleRuleSet) : Except Failure Unit :=
  if !ruleSet.squash then .ok ()
  else
    match (MessageStore.query (s.messages tenant) [squashScopeFilter m]).getLast? with
    | none => .ok ()
    | some newestSquash =>
      if m.descriptor.messageTimestamp ≤ newestSquash.message.messageTimestamp then
        .error (.dwnError ⟨.moduleAuthorizationSquashBackstop,
          "incoming message timestamp '" ++ m.descriptor.messageTimestamp ++
            "' is not newer than the most recent squash record timestamp '" ++
            newestSquash.message.messageTimestamp ++ "' at module path '" ++
            m.descriptor.modulePath ++ "'."⟩)
      else .ok ()

def getInitialWrite (existingMessages : List StoredMessage) (newMessageIsInitialWrite : Bool) :
    Except Failure (Option RecordsWriteMessage) :=
  if newMessageIsInitialWrite then .ok none
  else (RecordsWrite.getInitialWrite existingMessages).map some

def verifyImmutableProperties (initialWrite : Option RecordsWriteMessage)
    (m : RecordsWriteMessage) : Except Failure Unit :=
  match initialWrite with
  | none => .ok ()
  | some i => RecordsWrite.verifyEqualityOfImmutableProperties i m

/-- A failed check as the reply it is answered with. -/
def orReply {α : Type} (r : Except Failure α) (code : Nat) : Except Reply α :=
  r.mapError fun e => { status := messageReplyFromError e code }

/-- The admission checks before the age comparison, in order. -/
def checkAdmission (deps : HandlerDependencies) (tenant : Did) (m : RecordsWriteMessage)
    (existingMessages : List StoredMessage) (s : Stores) : Except Reply Unit := do
  let initialWrite ←
    orReply (getInitialWrite existingMessages (RecordsWrite.isInitialWrite m)) 400
  let ruleSet ← orReply (deps.validateReferentialIntegrity s tenant m) 400
  orReply (deps.authenticate (.recordsWrite m)) 401
  orReply (deps.authorizeRecordsWrite s tenant m) 401
  orReply (verifyImmutableProperties initialWrite m) 400
  orReply (enforceSquashBackstop s tenant m ruleSet) 409

/-- Small data is validated and travels with the message; large data is stored first,
validated afterwards, and deleted again when it does not validate. -/
def processMessageWithDataStream (deps : HandlerDependencies) (tenant : Did)
    (m : RecordsWriteMessage) (dataStream : P.Data) : Task StoredMessage :=
  let d := m.descriptor
  if d.dataSize ≤ maxDataSizeAllowedToBeEncoded then do
    Program.ofExcept (RecordsWrite.validateDataIntegrity d.dataCid d.dataSize
      (P.computeDagPbCid dataStream) (P.byteLength dataStream))
    Program.check fun s => deps.validateRecord s tenant m dataStream
    return { message := .recordsWrite m, encodedData := some dataStream }
  else do
    let dataSize ← Stores.putData ⟨tenant, m.recordId, d.dataCid⟩ dataStream
    match RecordsWrite.validateDataIntegrity d.dataCid d.dataSize
        (P.computeDagPbCid dataStream) dataSize with
    | .ok () => return RecordsWrite.stored m
    | .error e => do
      Stores.deleteData ⟨tenant, m.recordId, d.dataCid⟩
      Program.throw e

/-- Data may be omitted only when the newest existing write already carries it. -/
def processMessageWithoutDataStream (tenant : Did) (m newestExistingWrite : RecordsWriteMessage)
    (existingData : Option P.Data) (s : Stores) : Except Failure StoredMessage := do
  let d := m.descriptor
  RecordsWrite.validateDataIntegrity d.dataCid d.dataSize
    newestExistingWrite.descriptor.dataCid newestExistingWrite.descriptor.dataSize
  if d.dataSize ≤ maxDataSizeAllowedToBeEncoded then
    match existingData with
    | none => .error (.dwnError ⟨.recordsWriteMissingEncodedDataInPrevious,
        "No dataStream was provided and unable to get data from previous message"⟩)
    | some data => .ok { message := .recordsWrite m, encodedData := some data }
  else if (s.data.get ⟨tenant, newestExistingWrite.recordId, d.dataCid⟩).isNone then
    .error (.dwnError ⟨.recordsWriteMissingDataInPrevious,
      "No dataStream was provided and unable to get data from previous message"⟩)
  else .ok (RecordsWrite.stored m)

/-- The message to store and whether it becomes queryable. -/
def processData (deps : HandlerDependencies) (tenant : Did) (m : RecordsWriteMessage)
    (dataStream : Option P.Data) (newestExistingMessage : Option StoredMessage) :
    Task (StoredMessage × Bool) :=
  match dataStream with
  | some data => do
    let stored ← processMessageWithDataStream deps tenant m data
    return (stored, true)
  | none =>
    if RecordsWrite.isInitialWrite m then pure (RecordsWrite.stored m, false)
    else
      match newestExistingMessage with
      | none => Program.throw .typeError
      | some newest =>
        match newest.asRecordsWrite with
        | none => Program.throw .typeError
        | some newestExistingWrite => do
          let stored ← Program.check
            (processMessageWithoutDataStream tenant m newestExistingWrite newest.encodedData)
          return (stored, true)

def commitRecordsWrite (deps : HandlerDependencies) (tenant : Did) (m : RecordsWriteMessage)
    (dataStream : Option P.Data) (existingMessages : List StoredMessage) : Task PutResult :=
  let newestExistingMessage := Message.getNewestMessage existingMessages
  if newestExistingMessage.any StoredMessage.isRecordsDelete then
    Program.throw (.dwnError ⟨.recordsWriteNotAllowedAfterDelete,
      "RecordsWrite is not allowed after a RecordsDelete."⟩)
  else do
    Program.check fun s => deps.preProcessWrite s tenant m
    if EncryptionControl.isControlMessage m && dataStream.isNone then
      Program.throw (.dwnError ⟨.encryptionControlValidateUnexpectedRecord,
        "encryption control records require data."⟩)
    else do
      let processed ← processData deps tenant m dataStream newestExistingMessage
      StorageController.commitLatestStateTransition tenant existingMessages processed.1
        (RecordsWrite.constructIndexes m processed.2) []

/-- Validation failures a client is told about; every other failure is rethrown. -/
def isClientFacing : DwnErrorCode → Bool
  | .recordsWriteMissingEncodedDataInPrevious => true
  | .recordsWriteMissingDataInPrevious => true
  | .recordsWriteNotAllowedAfterDelete => true
  | .recordsWriteDataCidMismatch => true
  | .recordsWriteDataSizeMismatch => true
  | .encryptionControlValidateUnexpectedRecord => true
  | .other name => ["SchemaValidator", "EncryptionControlValidate", "PermissionsModuleValidate",
      "EncryptionModuleValidate"].any (startsWith name)
  | _ => false

def mapCommitWriteErrorToReply (e : Failure) : Task Reply :=
  match e with
  | .dwnError error =>
    if isClientFacing error.code then pure { status := messageReplyFromError e 400 }
    else Program.throw e
  | _ => Program.throw e

/-- Only a sole, dataless initial write can be completed in place. -/
def canComplete (existingMessage : StoredMessage) (existingMessages : List StoredMessage)
    (tenant : Did) (s : Stores) : Bool :=
  match existingMessage.asRecordsWrite with
  | none => false
  | some w =>
    RecordsWrite.isInitialWrite w && existingMessages.length ≤ 1 &&
      existingMessage.encodedData.isNone &&
      (s.data.get ⟨tenant, w.recordId, w.descriptor.dataCid⟩).isNone

def completeExisting (deps : HandlerDependencies) (tenant : Did) (m : RecordsWriteMessage)
    (dataStream : P.Data) : Task CompleteDataResult := do
  let completed ← processMessageWithDataStream deps tenant m dataStream
  Stores.withLog tenant fun log => MessageStore.completeData log
    (Message.getCid (RecordsWrite.stored m)) (RecordsWrite.constructIndexes m true)
    completed.encodedData

def handleExistingRecordsWrite (deps : HandlerDependencies) (tenant : Did)
    (m : RecordsWriteMessage) (dataStream : Option P.Data) (existingMessage : StoredMessage)
    (existingMessages : List StoredMessage) : Task Reply :=
  match dataStream with
  | none => pure { status := conflict }
  | some data => do
    let completable ← Program.read (canComplete existingMessage existingMessages tenant)
    if !completable then return { status := conflict }
    else
      match ← (completeExisting deps tenant m data).attempt with
      | .ok (.completed position) =>
        return { status := { code := 202, detail := "Accepted" }, position := some position }
      | .ok _ => return { status := conflict }
      | .error e =>
        if e matches .dwnError ⟨.messageStoreCompleteDataInvalidTarget, _⟩ then
          return { status := conflict }
        else mapCommitWriteErrorToReply e

def acceptedStatus (m : RecordsWriteMessage) (dataStream : Option P.Data) : Status :=
  if RecordsWrite.isInitialWrite m && dataStream.isNone then { code := 204, detail := "No Content" }
  else { code := 202, detail := "Accepted" }

/-- Cascading effects of an accepted write. -/
def postProcess (tenant : Did) (m : RecordsWriteMessage) : Task Unit := do
  if m.descriptor.squash = some true then StorageController.performRecordsSquash tenant m
  if m.descriptor.module = permissionsModuleUri then PermissionsModule.postProcessWrite tenant m

/-- The handler after admission: only a message newer than every other is committed. -/
def commitIfNewest (deps : HandlerDependencies) (tenant : Did) (m : RecordsWriteMessage)
    (dataStream : Option P.Data) (existingMessages : List StoredMessage) : Task Reply :=
  if (Message.getNewestMessage existingMessages).any fun n =>
      !Message.isNewer (RecordsWrite.stored m) n then
    pure { status := conflict }
  else do
    match ← (commitRecordsWrite deps tenant m dataStream existingMessages).attempt with
    | .error e => mapCommitWriteErrorToReply e
    | .ok putResult => do
      postProcess tenant m
      return { status := acceptedStatus m dataStream, position := putResult.position }

/-- The handler after its query of the record's messages. -/
def handleOn (deps : HandlerDependencies) (tenant : Did) (m : RecordsWriteMessage)
    (dataStream : Option P.Data) (existingMessages : List StoredMessage) : Task Reply :=
  match existingMessages.find? fun e =>
      Message.getCid e = Message.getCid (RecordsWrite.stored m) with
  | some existingMessage =>
    handleExistingRecordsWrite deps tenant m dataStream existingMessage existingMessages
  | none => do
    match ← Program.read (checkAdmission deps tenant m existingMessages) with
    | .error reply => return reply
    | .ok () => commitIfNewest deps tenant m dataStream existingMessages

def handle (deps : HandlerDependencies) (tenant : Did) (m : RecordsWriteMessage)
    (dataStream : Option P.Data) : Task Reply :=
  match RecordsWrite.parse deps m with
  | .error e => pure { status := messageReplyFromError e 400 }
  | .ok () => do
    let existingMessages ← Stores.query tenant [MessageStore.recordFilter m.recordId]
    handleOn deps tenant m dataStream existingMessages

end RecordsWriteHandler

namespace RecordsDelete

def parse (deps : HandlerDependencies) (m : RecordsDeleteMessage) : Except Failure Unit := do
  deps.validateMessageStructure (.recordsDelete m)
  deps.validateSignaturePayload (.recordsDelete m)

end RecordsDelete

namespace RecordsDeleteHandler

def fetchInitialRecordsWrite (s : Stores) (tenant : Did) (recordId : String) :
    Option RecordsWriteMessage :=
  (MessageStore.query (s.messages tenant) [[Filters.equalText "entryId" recordId]]).head?.bind
    StoredMessage.asRecordsWrite

/-- A record without its initial write fails with a type error, and control records
cannot be deleted. -/
def authorize (deps : HandlerDependencies) (tenant : Did) (m : RecordsDeleteMessage)
    (s : Stores) : Except Failure Unit :=
  match fetchInitialRecordsWrite s tenant m.descriptor.recordId with
  | none => .error .typeError
  | some initialWrite =>
    if EncryptionControl.isControlMessage initialWrite then
      .error (.dwnError ⟨.encryptionControlValidateUnexpectedRecord,
        "encryption control records cannot be deleted."⟩)
    else deps.authorizeRecordsDelete s tenant m initialWrite

def authorizationStatus : Failure → Nat
  | .dwnError ⟨.encryptionControlValidateUnexpectedRecord, _⟩ => 400
  | .dwnError ⟨.other name, _⟩ => if startsWith name "EncryptionControlValidate" then 400 else 401
  | _ => 401

def handle (deps : HandlerDependencies) (tenant : Did) (m : RecordsDeleteMessage) : Task Reply :=
  match RecordsDelete.parse deps m with
  | .error e => pure { status := messageReplyFromError e 400 }
  | .ok () =>
    match deps.authenticate (.recordsDelete m) with
    | .error e => pure { status := messageReplyFromError e 401 }
    | .ok () => do
      let existingMessages ← Stores.query tenant [MessageStore.recordFilter m.descriptor.recordId]
      match Message.getNewestMessage existingMessages with
      | none => return { status := { code := 404, detail := "Not Found" } }
      | some newestExistingMessage =>
        if Records.isDeleteBeatenByExistingTombstone m newestExistingMessage then
          return { status := conflict }
        else
          match ← Program.read (authorize deps tenant m) with
          | .error e => return { status := messageReplyFromError e (authorizationStatus e) }
          | .ok () => do
            let taskResult ← StorageController.performRecordsDelete tenant m
            return { status := { code := 202, detail := "Accepted" }
                     position := taskResult.bind PutResult.position }

end RecordsDeleteHandler

end EnboxDwn
