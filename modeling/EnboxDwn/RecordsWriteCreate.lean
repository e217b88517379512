import EnboxDwn.ContextTree
import EnboxDwn.Lib.SeparatedText

/-! Writes as their author makes them: a descriptor from options, an update from a stored
write. An update is compared with the initial write of its record, property by property. -/
namespace EnboxDwn
open MessageStore StorageController SeparatedText

variable [P : Platform]

/-! ## What parsing checks of a write -/

namespace Records

/-- `^[a-zA-Z0-9]+(\/[a-zA-Z0-9]+)*$`, at most 600 characters. -/
def isContextId (contextId : String) : Bool :=
  contextId.length ≤ 600 &&
    (split contextId '/').all fun segment => segment ≠ "" && segment.toList.all Char.isAlphanum

end Records

def validateSchemaUrlNormalized (normalizeSchemaUrl : NormalizeModuleUrl) (url : String) :
    Except Failure Unit :=
  if normalizeSchemaUrl url = some url then .ok ()
  else .error (.dwnError ⟨.urlSchemaNotNormalized, "Schema URI " ++ url ++ " must be normalized."⟩)

namespace RecordsWrite

def validateContextId (m : RecordsWriteMessage) : Except Failure Unit :=
  if Records.isContextId m.contextId then .ok ()
  else .error (.dwnError ⟨.schemaValidatorFailure, "/contextId: must match pattern"⟩)

def validateUrls (normalizeUrl : NormalizeModuleUrl) (m : RecordsWriteMessage) :
    Except Failure Unit := do
  validateModuleUrlNormalized normalizeUrl m.descriptor.module
  match m.descriptor.schema with
  | none => return ()
  | some schema => validateSchemaUrlNormalized normalizeUrl schema

end RecordsWrite

/-- The node whose message validation holds contexts to their pattern and URLs to their
normal form. -/
def HandlerDependencies.validating (deps : HandlerDependencies)
    (normalizeUrl : NormalizeModuleUrl) : HandlerDependencies :=
  { deps with
    validateMessageStructure := fun g => do
      deps.validateMessageStructure g
      match g with
      | .recordsWrite m => RecordsWrite.validateContextId m
      | _ => return ()
    validateSignaturePayload := fun g => do
      deps.validateSignaturePayload g
      match g with
      | .recordsWrite m => RecordsWrite.validateUrls normalizeUrl m
      | _ => return () }

/-! ## Creation -/

structure MessageSigner where
  keyId : String

def Jws.extractDid (kid : String) : Did := String.ofList (kid.toList.takeWhile (· ≠ '#'))

/-- The attesters signed the CID of the descriptor. -/
structure Attestation where
  descriptorCid : String
  signers : List Did
  deriving DecidableEq

structure RecordsWriteSignaturePayload where
  recordId : String
  descriptorCid : String
  contextId : String
  attestationCid : Option String
  encryptionCid : Option String
  delegatedGrantId : Option String
  permissionGrantId : Option String
  moduleRole : Option String

/-- Encryption, hashing and signing as an author uses them. -/
structure Authoring (Encryption EncryptionInput : Type) where
  buildEncryptionProperty : EncryptionInput → Except Failure Encryption
  computeDescriptorCid : RecordsWriteDescriptor → String
  computeAttestationCid : Attestation → String
  computeEncryptionCid : Encryption → String
  sign : RecordsWriteSignaturePayload → MessageSigner → String

structure RecordsWriteOptions (Encryption EncryptionInput : Type) where
  recipient : Option Did := none
  module : String
  modulePath : String
  moduleRole : Option String := none
  schema : Option String := none
  tags : Option KeyValues := none
  recordId : Option String := none
  parentContextId : Option String := none
  data : Option P.Data := none
  dataCid : Option String := none
  dataSize : Option Nat := none
  dateCreated : Option Timestamp := none
  messageTimestamp : Option Timestamp := none
  published : Option Bool := none
  datePublished : Option Timestamp := none
  dataFormat : String
  signer : Option MessageSigner := none
  delegatedGrant : Option RecordsWriteMessage := none
  attestationSigners : List MessageSigner := []
  encryption : Option Encryption := none
  encryptionInput : Option EncryptionInput := none
  permissionGrantId : Option String := none
  squash : Option Bool := none

/-- A write before and after its signature: only a signed one is complete. -/
structure InternalRecordsWriteMessage (Encryption : Type) where
  recordId : Option String
  contextId : Option String := none
  descriptor : RecordsWriteDescriptor
  attestation : Option Attestation
  encryption : Option Encryption
  authorization : Option AuthorizationModel := none
  deriving DecidableEq

/-- The options of an update, with the encryption of the given message and the role that its
signature payload invokes, which a message does not carry here. -/
structure CreateFromOptions (Encryption EncryptionInput : Type) where
  recordsWriteMessage : RecordsWriteMessage
  sourceEncryption : Option Encryption := none
  sourceModuleRole : Option String := none
  data : Option P.Data := none
  dataFormat : Option String := none
  published : Option Bool := none
  tags : Option KeyValues := none
  messageTimestamp : Option Timestamp := none
  datePublished : Option Timestamp := none
  signer : Option MessageSigner := none
  delegatedGrant : Option RecordsWriteMessage := none
  attestationSigners : List MessageSigner := []
  encryptionInput : Option EncryptionInput := none
  moduleRole : Option String := none

namespace InternalRecordsWriteMessage
variable {Encryption : Type}

def message (m : InternalRecordsWriteMessage Encryption) : Except Failure RecordsWriteMessage :=
  match m.recordId, m.contextId, m.authorization with
  | some recordId, some contextId, some authorization =>
    .ok { recordId, contextId, descriptor := m.descriptor, authorization,
          attesters := (m.attestation.map Attestation.signers).getD [] }
  | _, _, _ =>
    .error (.dwnError ⟨.recordsWriteMissingSigner,
      "This RecordsWrite is not yet signed, JSON message cannot be generated from an " ++
        "incomplete state."⟩)

end InternalRecordsWriteMessage

namespace RecordsWrite
variable {Encryption EncryptionInput : Type}

def validateCreateOptions (o : RecordsWriteOptions Encryption EncryptionInput)
    (requireSignerForDelegatedGrant : Bool) : Except Failure Unit :=
  if o.data.isSome = o.dataCid.isSome then
    .error (.dwnError ⟨.recordsWriteCreateDataAndDataCidMutuallyExclusive,
      "one and only one parameter between \x60data\x60 and \x60dataCid\x60 is required"⟩)
  else if o.dataCid.isSome ≠ o.dataSize.isSome then
    .error (.dwnError ⟨.recordsWriteCreateDataCidAndDataSizeMutuallyInclusive,
      "\x60dataCid\x60 and \x60dataSize\x60 must both be defined or undefined at the same time"⟩)
  else if requireSignerForDelegatedGrant ∧ o.signer.isNone ∧ o.delegatedGrant.isSome then
    .error (.dwnError ⟨.recordsWriteCreateMissingSigner,
      "\x60signer\x60 must be given when \x60delegatedGrant\x60 is given"⟩)
  else if o.encryption.isSome ∧ o.encryptionInput.isSome then
    .error (.dwnError ⟨.recordsWriteCreateEncryptionAndEncryptionInputMutuallyExclusive,
      "\x60encryption\x60 and \x60encryptionInput\x60 cannot both be defined"⟩)
  else .ok ()

/-- A value that is given, or else computed from the data. -/
def givenOrFromData {α : Type} (given : Option α) (compute : P.Data → α) (data : Option P.Data) :
    Except Failure α :=
  match given, data with
  | some a, _ => .ok a
  | none, some bytes => .ok (compute bytes)
  | none, none => .error .typeError

def normalizeUrl (normalizeUrl : NormalizeModuleUrl) (url : String) : Except Failure String :=
  match normalizeUrl url with
  | some normalized => .ok normalized
  | none => .error (.dwnError ⟨.urlModuleNotNormalizable, "Could not normalize module URI"⟩)

def normalizeSchema (normalize : NormalizeModuleUrl) (schema : Option String) :
    Except Failure (Option String) :=
  match schema with
  | none => .ok none
  | some url => some <$> normalizeUrl normalize url

def getRecordIdFromContextId (contextId : Option String) : Option String :=
  contextId.bind fun c => ((split c '/').filter (· ≠ "")).getLast?

def createDescriptor (normalize : NormalizeModuleUrl) (currentTime : Timestamp)
    (o : RecordsWriteOptions Encryption EncryptionInput) :
    Except Failure RecordsWriteDescriptor := do
  validateCreateOptions o false
  let dataCid ← givenOrFromData o.dataCid P.computeDagPbCid o.data
  let dataSize ← givenOrFromData o.dataSize P.byteLength o.data
  let module ← normalizeUrl normalize o.module
  let schema ← normalizeSchema normalize o.schema
  return { module, modulePath := o.modulePath, recipient := o.recipient, schema, tags := o.tags
           parentId := getRecordIdFromContextId o.parentContextId
           dataCid, dataSize
           dateCreated := o.dateCreated.getD currentTime
           messageTimestamp := o.messageTimestamp.getD currentTime
           published := o.published
           datePublished :=
             if o.published = some true ∧ o.datePublished = none then some currentTime
             else o.datePublished
           dataFormat := o.dataFormat, squash := o.squash
           permissionGrantId := o.permissionGrantId }

def createAttestation (descriptorCid : String) (signers : List MessageSigner) :
    Option Attestation :=
  if signers.isEmpty then none
  else some ⟨descriptorCid, signers.map fun signer => Jws.extractDid signer.keyId⟩

def createEncryptionProperty (A : Authoring Encryption EncryptionInput)
    (encryptionInput : Option EncryptionInput) : Except Failure (Option Encryption) :=
  match encryptionInput with
  | none => .ok none
  | some input => some <$> A.buildEncryptionProperty input

def encryptionOf (A : Authoring Encryption EncryptionInput)
    (o : RecordsWriteOptions Encryption EncryptionInput) : Except Failure (Option Encryption) :=
  match o.encryption with
  | some encryption => .ok (some encryption)
  | none => createEncryptionProperty A o.encryptionInput

/-- A record without a parent is its own context. -/
def contextIdUnder (parentContextId : Option String) (recordId : String) : String :=
  match parentContextId with
  | none => recordId
  | some parent => if parent = "" then recordId else parent ++ "/" ++ recordId

def sign (A : Authoring Encryption EncryptionInput) (signer : MessageSigner)
    (delegatedGrant : Option RecordsWriteMessage) (permissionGrantId moduleRole : Option String)
    (parentContextId : Option String) (m : InternalRecordsWriteMessage Encryption) :
    InternalRecordsWriteMessage Encryption :=
  let authorDid := match delegatedGrant with
    | none => Jws.extractDid signer.keyId
    | some grant => grant.authorization.signer
  let recordId := m.recordId.getD (P.computeEntryId authorDid m.descriptor)
  let contextId := contextIdUnder parentContextId recordId
  let payload : RecordsWriteSignaturePayload :=
    { recordId, contextId, permissionGrantId, moduleRole
      descriptorCid := A.computeDescriptorCid m.descriptor
      attestationCid := m.attestation.map A.computeAttestationCid
      encryptionCid := m.encryption.map A.computeEncryptionCid
      delegatedGrantId := delegatedGrant.map fun grant => (P.computeCid (.recordsWrite grant)).val }
  { m with
    recordId := some recordId
    contextId := some contextId
    authorization := some
      { signature := A.sign payload signer, signer := Jws.extractDid signer.keyId
        authorDelegatedGrantSigner := delegatedGrant.map fun grant => grant.authorization.signer
        permissionGrantId } }

def create (A : Authoring Encryption EncryptionInput) (normalize : NormalizeModuleUrl)
    (currentTime : Timestamp) (o : RecordsWriteOptions Encryption EncryptionInput) :
    Except Failure (InternalRecordsWriteMessage Encryption) := do
  validateCreateOptions o true
  let descriptor ← createDescriptor normalize currentTime o
  let attestation := createAttestation (A.computeDescriptorCid descriptor) o.attestationSigners
  let encryption ← encryptionOf A o
  let m : InternalRecordsWriteMessage Encryption :=
    { recordId := o.recordId, descriptor, attestation, encryption }
  match o.signer with
  | none => return m
  | some signer =>
    return sign A signer o.delegatedGrant o.permissionGrantId o.moduleRole o.parentContextId m

/-- The published state of an update: an explicit date publishes, an explicit state is taken,
and otherwise the state of the source is inherited. -/
def publishedFrom (o : CreateFromOptions Encryption EncryptionInput) : Option Bool :=
  o.published <|>
    if (o.datePublished.filter (· ≠ "")).isSome then some true
    else o.recordsWriteMessage.descriptor.published

def datePublishedFrom (currentTime : Timestamp) (o : CreateFromOptions Encryption EncryptionInput) :
    Option Timestamp :=
  let d := o.recordsWriteMessage.descriptor
  match o.datePublished.filter (· ≠ "") with
  | some datePublished => some datePublished
  | none =>
    if publishedFrom o = some true then
      if d.published = some true then d.datePublished else some currentTime
    else none

/-- The options for the update: what is immutable comes from the source. -/
def optionsFrom (currentTime : Timestamp) (o : CreateFromOptions Encryption EncryptionInput) :
    RecordsWriteOptions Encryption EncryptionInput :=
  let m := o.recordsWriteMessage
  let d := m.descriptor
  { recipient := d.recipient
    recordId := some m.recordId
    dateCreated := some d.dateCreated
    module := d.module
    modulePath := d.modulePath
    schema := d.schema
    parentContextId := some (Records.getParentContextFromOfContextId m.contextId)
    messageTimestamp := some (o.messageTimestamp.getD currentTime)
    published := publishedFrom o
    datePublished := datePublishedFrom currentTime o
    tags := o.tags
    data := o.data
    dataCid := if o.data.isSome then none else some d.dataCid
    dataSize := if o.data.isSome then none else some d.dataSize
    dataFormat := o.dataFormat.getD d.dataFormat
    moduleRole := o.moduleRole <|> o.sourceModuleRole
    delegatedGrant := o.delegatedGrant
    signer := o.signer
    attestationSigners := o.attestationSigners
    encryption :=
      if o.encryptionInput.isNone ∧ o.data.isNone then o.sourceEncryption else none
    encryptionInput := o.encryptionInput }

/-- The clock is read by the update and again by the creation. -/
def createFrom (deps : HandlerDependencies) (A : Authoring Encryption EncryptionInput)
    (normalize : NormalizeModuleUrl) (currentTime creationTime : Timestamp)
    (o : CreateFromOptions Encryption EncryptionInput) :
    Except Failure (InternalRecordsWriteMessage Encryption) := do
  parse deps o.recordsWriteMessage
  create A normalize creationTime (optionsFrom currentTime o)

end RecordsWrite

end EnboxDwn
