import EnboxDwn.Lib.SeparatedText
import Mathlib.Algebra.GroupWithZero.Nat

/-! The did:dht method: documents as `create` builds them, their encoding as a DNS packet and the
decoding of such a packet. -/
namespace EnboxDwn.DidDht
open SeparatedText

inductive Failure where
  | didError (code message : String)
  | error (message : String)
  | typeError
  deriving DecidableEq, Repr

/-! ## Keys -/

structure Jwk where
  kty : String
  crv : String
  x : String
  y : Option String := none
  kid : Option String := none
  alg : Option String := none
  deriving DecidableEq, Repr

/-- The algorithm names that a verification method can be created with. -/
inductive Algorithm where
  | ed25519 | es256k | es256 | p256 | secp256k1 | secp256r1 | x25519
  deriving DecidableEq, Repr

inductive DidDhtRegisteredKeyType where
  | ed25519 | secp256k1 | secp256r1 | x25519
  deriving DecidableEq, Repr

namespace DidDhtRegisteredKeyType

def number : DidDhtRegisteredKeyType → Nat
  | ed25519 => 0
  | secp256k1 => 1
  | secp256r1 => 2
  | x25519 => 3

def name : DidDhtRegisteredKeyType → String
  | ed25519 => "Ed25519"
  | secp256k1 => "secp256k1"
  | secp256r1 => "secp256r1"
  | x25519 => "X25519"

def ofName : String → Option DidDhtRegisteredKeyType
  | "Ed25519" => some ed25519
  | "secp256k1" => some secp256k1
  | "secp256r1" => some secp256r1
  | "X25519" => some x25519
  | _ => none

def ofNumber : Nat → Option DidDhtRegisteredKeyType
  | 0 => some ed25519
  | 1 => some secp256k1
  | 2 => some secp256r1
  | 3 => some x25519
  | _ => none

end DidDhtRegisteredKeyType

def algorithmToKeyTypeMap : String → Option DidDhtRegisteredKeyType
  | "Ed25519" => some .ed25519
  | "ES256K" => some .secp256k1
  | "ES256" => some .secp256r1
  | "P-256" => some .secp256r1
  | "secp256k1" => some .secp256k1
  | "secp256r1" => some .secp256r1
  | "X25519" => some .x25519
  | _ => none

def keyTypeToDefaultAlgorithmMap : DidDhtRegisteredKeyType → String
  | .ed25519 => "EdDSA"
  | .secp256k1 => "ES256K"
  | .secp256r1 => "ES256"
  | .x25519 => "ECDH-ES+A256KW"

inductive Curve where
  | ed25519 | p256 | secp256k1 | x25519
  deriving DecidableEq, Repr

def keyConverter (curve : Option String) : Except Failure Curve :=
  match curve with
  | some "Ed25519" => .ok .ed25519
  | some "P-256" => .ok .p256
  | some "secp256k1" => .ok .secp256k1
  | some "X25519" => .ok .x25519
  | _ => .error (.didError "invalidPublicKeyType" ("Unsupported curve: " ++ curve.getD "undefined"))

structure PreviousDidProof where
  previousDid : String
  signature : String

/-- Key conversion, base64url, thumbprints, the z-base-32 identifier of a key, the verification of
a previous DID's signature and the parsing of gateway URIs. -/
class Crypto where
  Bytes : Type
  publicKeyToBytes : Curve → Jwk → Bytes
  bytesToPublicKey : Curve → Bytes → Jwk
  toBase64Url : Bytes → String
  ofBase64Url : String → Bytes
  computeJwkThumbprint : Jwk → String
  toBase32Z : Bytes → String
  verifyPreviousDidProof : String → PreviousDidProof → Bool
  getGatewayNsTarget : String → Option String

variable [C : Crypto]

/-- The random part of a generated key. -/
structure KeyMaterial where
  x : String
  y : String
  deriving DecidableEq, Repr

/-- The public key the local key manager returns for a key generated with the algorithm. -/
def getPublicKey (algorithm : Algorithm) (key : KeyMaterial) : Jwk :=
  let jwk : Jwk := match algorithm with
    | .ed25519 => { kty := "OKP", crv := "Ed25519", x := key.x, alg := some "EdDSA" }
    | .es256k | .secp256k1 =>
      { kty := "EC", crv := "secp256k1", x := key.x, y := some key.y, alg := some "ES256K" }
    | .es256 | .p256 | .secp256r1 =>
      { kty := "EC", crv := "P-256", x := key.x, y := some key.y, alg := some "ES256" }
    | .x25519 => { kty := "OKP", crv := "X25519", x := key.x }
  { jwk with kid := some (C.computeJwkThumbprint jwk) }

/-! ## Documents -/

inductive DidVerificationRelationship where
  | authentication | assertionMethod | keyAgreement | capabilityInvocation | capabilityDelegation
  deriving DecidableEq, Repr

namespace DidVerificationRelationship

def all : List DidVerificationRelationship :=
  [authentication, assertionMethod, keyAgreement, capabilityInvocation, capabilityDelegation]

def recordName : DidVerificationRelationship → String
  | authentication => "auth"
  | assertionMethod => "asm"
  | keyAgreement => "agm"
  | capabilityInvocation => "inv"
  | capabilityDelegation => "del"

end DidVerificationRelationship

inductive Controller where
  | one (did : String)
  | many (dids : List String)
  deriving DecidableEq, Repr

structure DidVerificationMethod where
  id : String
  type : String
  controller : String
  publicKeyJwk : Option Jwk := none
  deriving DecidableEq, Repr

/-- A service endpoint; an object is given by the text it is written as. -/
inductive DidServiceEndpoint where
  | uri (text : String)
  | object (text : String)
  deriving DecidableEq, Repr

inductive ServiceEndpoints where
  | one (endpoint : DidServiceEndpoint)
  | many (endpoints : List DidServiceEndpoint)
  deriving DecidableEq, Repr

/-- A property of a service; a value that is neither text nor a list of texts is given by the text
it is written as. -/
inductive PropertyValue where
  | text (value : String)
  | texts (values : List String)
  | other (text : String)
  deriving DecidableEq, Repr

/-- The properties of a service besides its id, type and endpoint. -/
structure CustomProperties where
  entries : Assoc PropertyValue := []
  nodup : (entries.map Prod.fst).Nodup := by simp
  custom : ∀ p ∈ entries, p.1 ∉ ["id", "type", "serviceEndpoint"] := by simp
  deriving DecidableEq, Repr

structure DidService where
  id : String
  type : String
  serviceEndpoint : ServiceEndpoints
  customProperties : CustomProperties := {}
  deriving DecidableEq, Repr

@[ext] structure DidDocument where
  id : String
  alsoKnownAs : Option (List String) := none
  controller : Option Controller := none
  verificationMethod : Option (List DidVerificationMethod) := none
  relationship : DidVerificationRelationship → Option (List String) := fun _ => none
  service : Option (List DidService) := none

inductive DidDhtRegisteredDidType where
  | discoverable | organization | government | corporation | localBusiness | softwarePackage
  | webApp | financialInstitution
  deriving DecidableEq, Repr

def DidDhtRegisteredDidType.number : DidDhtRegisteredDidType → Nat
  | discoverable => 0
  | organization => 1
  | government => 2
  | corporation => 3
  | localBusiness => 4
  | softwarePackage => 5
  | webApp => 6
  | financialInstitution => 7

/-- A DID type can be specified by its number or by its name. -/
inductive DidType where
  | integer (type : DidDhtRegisteredDidType)
  | name (type : DidDhtRegisteredDidType)
  deriving DecidableEq, Repr

def DidType.toInteger : DidType → Nat
  | integer type => type.number
  | name type => type.number

/-! ## Creating a DID -/

structure DidCreateVerificationMethod where
  algorithm : Algorithm
  id : Option String := none
  controller : Option String := none
  purposes : List DidVerificationRelationship := []
  deriving DecidableEq, Repr

structure DidDhtCreateOptions where
  alsoKnownAs : Option (List String) := none
  controllers : Option Controller := none
  verificationMethods : List DidCreateVerificationMethod := []
  services : List DidService := []
  types : Option (List DidType) := none

structure BearerDid where
  uri : String
  document : DidDocument
  types : Option (List DidType) := none

def fragment (id : String) : String := (split id '#').getLast (split_ne_nil id '#')

def extractDidFragment (input : String) : Option String :=
  if input = "" then none else some (fragment input)

def isIdentityKey (vm : DidCreateVerificationMethod) : Bool := vm.id.any fun id => fragment id = "0"

def identityMethod : DidCreateVerificationMethod where
  algorithm := .ed25519
  id := some "0"
  purposes := [.authentication, .assertionMethod, .capabilityDelegation, .capabilityInvocation]

def verificationMethodsToAdd (options : DidDhtCreateOptions) : List DidCreateVerificationMethod :=
  if options.verificationMethods.any isIdentityKey then options.verificationMethods
  else identityMethod :: options.verificationMethods

/-- Key managers omit `alg` on some keys. -/
def canonicalize (publicKey : Jwk) : Jwk :=
  { publicKey with
    alg := publicKey.alg <|> (algorithmToKeyTypeMap publicKey.crv).map keyTypeToDefaultAlgorithmMap }

/-- The method that is added for an option; `key` is the key generated for it. -/
def createMethod (didUri : String) (identityKey : Jwk) (key : KeyMaterial)
    (vm : DidCreateVerificationMethod) : DidVerificationMethod :=
  let publicKey := canonicalize (if isIdentityKey vm then identityKey else getPublicKey vm.algorithm key)
  let methodId := (vm.id <|> publicKey.kid).getD (C.computeJwkThumbprint publicKey)
  { id := didUri ++ "#" ++ (extractDidFragment methodId).getD "undefined"
    type := "JsonWebKey"
    controller := vm.controller.getD didUri
    publicKeyJwk := some publicKey }

def DidDocument.addPurpose (document : DidDocument) (methodId : String)
    (purpose : DidVerificationRelationship) : DidDocument :=
  { document with
    relationship := fun p =>
      if p = purpose then some ((document.relationship p).getD [] ++ [methodId])
      else document.relationship p }

def DidDocument.addMethod (document : DidDocument) (method : DidVerificationMethod)
    (purposes : List DidVerificationRelationship) : DidDocument :=
  purposes.foldl (fun document purpose => document.addPurpose method.id purpose)
    { document with verificationMethod := some (document.verificationMethod.getD [] ++ [method]) }

/-- Adds the methods; `keys` are the keys generated from here on. -/
def addMethods (identityKey : Jwk) (document : DidDocument) (keys : Nat → KeyMaterial) :
    List DidCreateVerificationMethod → DidDocument
  | [] => document
  | vm :: vms =>
    addMethods identityKey
      (document.addMethod (createMethod document.id identityKey (keys 0) vm) vm.purposes)
      (fun n => keys (n + 1)) vms

def createService (didUri : String) (service : DidService) : DidService :=
  { service with id := didUri ++ "#" ++ fragment service.id }

def identityKeyToIdentifier (identityKey : Jwk) : String :=
  "did:dht:" ++ C.toBase32Z (C.publicKeyToBytes .ed25519 identityKey)

def hasRequiredProperties (service : DidService) : Bool :=
  service.id ≠ "" && service.type ≠ "" && service.serviceEndpoint ≠ .one (.uri "")

/-- `create` with publishing disabled; `keys` are the keys that get generated, the identity key
first. -/
def create (options : DidDhtCreateOptions) (keys : Nat → KeyMaterial) : Except Failure BearerDid := do
  if ¬ (options.verificationMethods.filterMap DidCreateVerificationMethod.id).Nodup then
    .error (.error "One or more verification method IDs are not unique")
  if ¬ options.services.all hasRequiredProperties then
    .error (.error "One or more services are missing required properties")
  let identityKey := getPublicKey .ed25519 (keys 0)
  let didUri := identityKeyToIdentifier identityKey
  let document : DidDocument :=
    { id := didUri
      alsoKnownAs := options.alsoKnownAs
      controller := if options.controllers = some (.one "") then none else options.controllers }
  let document := addMethods identityKey document (fun n => keys (n + 1))
    (verificationMethodsToAdd options)
  let document :=
    if options.services = [] then document
    else { document with service := some (options.services.map (createService didUri)) }
  .ok { uri := didUri, document, types := options.types }

/-! ## TXT records -/

def dnsRecordTtl : Nat := 7200

def propertySeparator : Char := ';'

def valueSeparator : Char := ','

def txtSegmentMaxBytes : Nat := 255

def authoritativeAnswer : Nat := 1024

inductive TxtData where
  | text (data : String)
  | chunks (data : List String)
  deriving DecidableEq, Repr

inductive Answer where
  | txt (name : String) (ttl : Nat) (data : TxtData)
  | ns (name : String) (ttl : Nat) (data : String)
  deriving DecidableEq, Repr

structure Packet where
  id : Nat := 0
  type : String := "response"
  flags : Nat := authoritativeAnswer
  answers : List Answer
  deriving DecidableEq, Repr

def createTxtRecord (name : String) (data : TxtData) : Answer := .txt name dnsRecordTtl data

def parseTxtDataToString : TxtData → String
  | .text data => data
  | .chunks data => data.foldl (· ++ ·) ""

/-- An object never takes a property named `__proto__` by assignment. -/
def assign (o : Assoc (Option String)) (pair : String × Option String) : Assoc (Option String) :=
  if pair.1 = "__proto__" then o else Assoc.set o pair.1 pair.2

def parseTxtDataToObject (txtData : TxtData) : Assoc (Option String) :=
  ((split (parseTxtDataToString txtData) propertySeparator).map readPair).foldl assign []

/-- A property of a parsed object; a pair without `=` reads as undefined. -/
def property (o : Assoc (Option String)) (key : String) : Option String := (Assoc.get o key).join

def utf8Length (chars : List Char) : Nat := (chars.map Char.utf8Size).sum

/-- Whole code points go into segments of limited size. -/
def chunk (segment : List Char) : List Char → List String
  | [] => [String.ofList segment]
  | char :: data =>
    if txtSegmentMaxBytes < utf8Length (segment ++ [char]) then
      String.ofList segment :: chunk [char] data
    else chunk (segment ++ [char]) data

def chunkDataIfNeeded (data : String) : TxtData :=
  if utf8Length data.toList ≤ txtSegmentMaxBytes then .text data
  else .chunks (chunk [] data.toList)

/-! ## From a document to a packet -/

/-- The pairs of a method record: the id, the algorithm and the controller may be left out. -/
def methodPairs (id a c : Option String) (t k : String) : List (String × String) :=
  (id.map fun v => ("id", v)).toList ++ [("t", t), ("k", k)] ++ (a.map fun v => ("a", v)).toList ++
    (c.map fun v => ("c", v)).toList

/-- The pairs for a method. The id of the identity key and a thumbprint can be inferred, the
algorithm is set if it differs from the default of the key type, the controller if it is not the
DID subject. -/
def methodEntries (didUri : String) (verificationMethod : DidVerificationMethod) (publicKey : Jwk)
    (curve : Curve) : List (String × String) :=
  let methodId := fragment verificationMethod.id
  let keyType := DidDhtRegisteredKeyType.ofName publicKey.crv
  methodPairs
    (if methodId ≠ "0" ∧ C.computeJwkThumbprint publicKey ≠ methodId then some methodId else none)
    (publicKey.alg.filter fun alg => some alg ≠ keyType.map keyTypeToDefaultAlgorithmMap)
    (if verificationMethod.controller ≠ didUri then some verificationMethod.controller else none)
    ((keyType.map fun keyType => toString keyType.number).getD "undefined")
    (C.toBase64Url (C.publicKeyToBytes curve publicKey))

def methodData (didUri : String) (verificationMethod : DidVerificationMethod) (publicKey : Jwk)
    (curve : Curve) : TxtData :=
  .text (join ((methodEntries didUri verificationMethod publicKey curve).map writePair)
    propertySeparator)

/-- The record of a method and the fragment of its id. -/
def processVerificationMethodForDnsPacket (didDocument : DidDocument) (index : Nat)
    (verificationMethod : DidVerificationMethod) : Except Failure (String × Answer) := do
  let dnsRecordId := "k" ++ toString index
  let methodId := fragment verificationMethod.id
  let crv := (verificationMethod.publicKeyJwk.map Jwk.crv).getD ""
  match verificationMethod.publicKeyJwk, algorithmToKeyTypeMap crv with
  | some publicKey, some _ =>
    let curve ← keyConverter (some publicKey.crv)
    return (methodId, createTxtRecord ("_" ++ dnsRecordId ++ "._did.")
      (methodData didDocument.id verificationMethod publicKey curve))
  | _, _ => .error (.didError "invalidPublicKeyType" ("Verification method '" ++
      verificationMethod.id ++ "' contains an unsupported key type: " ++
      if crv = "" then "undefined" else crv))

def DidServiceEndpoint.toText : DidServiceEndpoint → String
  | uri text => text
  | object text => text

def ServiceEndpoints.toText : ServiceEndpoints → String
  | one endpoint => endpoint.toText
  | many endpoints => join (endpoints.map DidServiceEndpoint.toText) ','

def PropertyValue.toText : PropertyValue → String
  | text value => value
  | texts values => join values ','
  | other written => written

/-- The pairs of a service; a custom property can take the place of `t` or `se`. -/
def serviceEntries (service : DidService) : Assoc String :=
  Assoc.setAll
    [("id", (extractDidFragment service.id).getD "undefined"), ("t", service.type),
      ("se", service.serviceEndpoint.toText)]
    (service.customProperties.entries.map fun p => (p.1, p.2.toText))

def processServiceForDnsPacket (service : DidService) (index : Nat) : Answer :=
  createTxtRecord ("_s" ++ toString index ++ "._did.")
    (chunkDataIfNeeded (join ((serviceEntries service).map writePair) propertySeparator))

def appendVerificationRelationshipToRootRecord (didDocument : DidDocument) (idLookup : Assoc String)
    (relationship : DidVerificationRelationship) : List (String × String) :=
  match didDocument.relationship relationship with
  | none => []
  | some ids =>
    [(relationship.recordName,
      join (ids.map fun id => (Assoc.get idLookup (fragment id)).getD "") valueSeparator)]

def getUniqueDidSuffix (did : String) : String := ((split did ':')[2]?).getD "undefined"

def recordIds (methodIds : List String) : List (String × String) :=
  methodIds.zipIdx.map fun p => (p.1, "k" ++ toString p.2)

def serviceIds (didDocument : DidDocument) : List String :=
  (didDocument.service.getD []).zipIdx.map fun p => "s" ++ toString p.2

def rootRecord (didDocument : DidDocument) (methodIds : List String) : List (String × String) :=
  [("v", "0")] ++
    (if recordIds methodIds = [] then []
      else [("vm", join ((recordIds methodIds).map Prod.snd) valueSeparator)]) ++
    DidVerificationRelationship.all.flatMap
      (appendVerificationRelationshipToRootRecord didDocument
        (Assoc.setAll [] (recordIds methodIds))) ++
    (if serviceIds didDocument = [] then []
      else [("svc", join (serviceIds didDocument) valueSeparator)])

def alsoKnownAsRecord (didDocument : DidDocument) : List Answer :=
  match didDocument.alsoKnownAs with
  | none => []
  | some alsoKnownAs =>
    [createTxtRecord "_aka._did." (.text (join alsoKnownAs valueSeparator))]

def controllerRecord (didDocument : DidDocument) : List Answer :=
  match didDocument.controller with
  | none => []
  | some (.one controller) =>
    if controller = "" then [] else [createTxtRecord "_cnt._did." (.text controller)]
  | some (.many controllers) =>
    [createTxtRecord "_cnt._did." (.text (join controllers valueSeparator))]

def typesRecord (types : Option (List DidType)) : List Answer :=
  match types with
  | none => []
  | some [] => []
  | some types => [createTxtRecord "_typ._did."
      (.text (writePair ("id", join (types.map fun type => toString type.toInteger) valueSeparator)))]

def previousDidRecord (didDocument : DidDocument) :
    Option PreviousDidProof → Except Failure (List Answer)
  | none => .ok []
  | some proof =>
    if C.verifyPreviousDidProof didDocument.id proof then
      .ok [createTxtRecord "_prv._did."
        (.text ("id=" ++ proof.previousDid ++ ";s=" ++ proof.signature))]
    else .error (.didError "invalidPreviousDidProof" "The previous DID proof is invalid.")

def toDnsPacket (didDocument : DidDocument) (types : Option (List DidType))
    (authoritativeGatewayUris : List String := [])
    (previousDidProof : Option PreviousDidProof := none) : Except Failure Packet := do
  let previous ← previousDidRecord didDocument previousDidProof
  let methods ← (didDocument.verificationMethod.getD []).zipIdx.mapM fun p =>
    processVerificationMethodForDnsPacket didDocument p.2 p.1
  let services := (didDocument.service.getD []).zipIdx.map fun p =>
    processServiceForDnsPacket p.1 p.2
  let rootName := "_did." ++ getUniqueDidSuffix didDocument.id ++ "."
  let root := createTxtRecord rootName
    (.text (join ((rootRecord didDocument (methods.map Prod.fst)).map writePair) propertySeparator))
  let ns := (authoritativeGatewayUris.filterMap C.getGatewayNsTarget).map fun target =>
    Answer.ns rootName dnsRecordTtl target
  return { answers := previous ++ alsoKnownAsRecord didDocument ++ controllerRecord didDocument ++
      methods.map Prod.snd ++ services ++ typesRecord types ++ [root] ++ ns }

/-! ## From a packet to a document -/

/-- `Number` on texts of decimal digits; any other text is not a number here. -/
def number (text : String) : Option Nat :=
  if text.toList.all Char.isDigit then
    some (text.toList.foldl (fun n c => 10 * n + (c.toNat - '0'.toNat)) 0)
  else none

structure Resolution where
  didDocument : DidDocument
  types : Option (List (Option Nat)) := none
  idLookup : Assoc String := []

def applyAlsoKnownAsRecord (didDocument : DidDocument) (data : TxtData) : DidDocument :=
  { didDocument with alsoKnownAs := some (split (parseTxtDataToString data) valueSeparator) }

def readController (data : String) : Controller :=
  if Lacks valueSeparator data then .one data else .many (split data valueSeparator)

def applyControllerRecord (didDocument : DidDocument) (data : TxtData) : DidDocument :=
  { didDocument with controller := some (readController (parseTxtDataToString data)) }

def readVerificationMethod (didUri dnsRecordId : String) (data : TxtData) :
    Except Failure DidVerificationMethod := do
  let o := parseTxtDataToObject data
  let publicKeyBytes ← match property o "k" with
    | none => .error .typeError
    | some k => .ok (C.ofBase64Url k)
  let keyType := ((property o "t").bind number).bind DidDhtRegisteredKeyType.ofNumber
  let curve ← keyConverter (keyType.map DidDhtRegisteredKeyType.name)
  let publicKey := C.bytesToPublicKey curve publicKeyBytes
  let alg := match property o "a" with
    | none | some "" | some "undefined" => keyType.map keyTypeToDefaultAlgorithmMap
    | some a => some a
  let publicKey := { publicKey with alg }
  let vmId := if dnsRecordId = "k0" then "0"
    else (property o "id").getD (C.computeJwkThumbprint publicKey)
  return {
    id := didUri ++ "#" ++ vmId
    type := "JsonWebKey"
    controller := (property o "c").getD didUri
    publicKeyJwk := some publicKey }

def applyVerificationMethodRecord (didUri dnsRecordId : String) (r : Resolution) (data : TxtData) :
    Except Failure Resolution := do
  let method ← readVerificationMethod didUri dnsRecordId data
  return { r with
    didDocument := { r.didDocument with
      verificationMethod := some (r.didDocument.verificationMethod.getD [] ++ [method]) }
    idLookup := Assoc.set r.idLookup dnsRecordId method.id }

def readPropertyValue (v : String) : PropertyValue :=
  if Lacks valueSeparator v then .text v else .texts (split v valueSeparator)

/-- A single value is a list too. -/
def readEndpoints (se : String) : ServiceEndpoints :=
  .many ((if Lacks valueSeparator se then [se] else split se valueSeparator).map .uri)

/-- What is left of a parsed service besides the properties a service always has. -/
def customEntries (o : Assoc (Option String)) : Assoc (Option String) :=
  o.filter fun p => p.1 ∉ ["id", "t", "se", "type", "serviceEndpoint"]

omit C in
theorem nodup_parse (pairs : List (String × Option String)) {o : Assoc (Option String)}
    (h : (o.map Prod.fst).Nodup) : ((pairs.foldl assign o).map Prod.fst).Nodup := by
  induction pairs generalizing o with
  | nil => exact h
  | cons pair pairs ih =>
    refine ih ?_
    unfold assign
    split
    · exact h
    · exact Assoc.nodup_set h _ _

def readCustomProperties (txtData : TxtData) : CustomProperties where
  entries := (customEntries (parseTxtDataToObject txtData)).map fun p =>
    (p.1, readPropertyValue (p.2.getD ""))
  nodup := by
    have h := nodup_parse ((split (parseTxtDataToString txtData) propertySeparator).map readPair)
      (o := []) (by simp)
    rw [List.map_map]
    exact (List.Sublist.map Prod.fst List.filter_sublist).nodup h
  custom := by
    intro p hp
    obtain ⟨q, hq, rfl⟩ := List.mem_map.mp hp
    have hkey := of_decide_eq_true (List.mem_filter.mp hq).2
    have hsub : ["id", "type", "serviceEndpoint"] ⊆ ["id", "t", "se", "type", "serviceEndpoint"] := by
      simp
    exact fun hmem => hkey (hsub hmem)

/-- The service that a record describes; a property without value cannot be read. -/
def readService (didUri : String) (data : TxtData) : Except Failure DidService :=
  let o := parseTxtDataToObject data
  match property o "se" with
  | none => .error .typeError
  | some se =>
    if (o.filter fun p => p.1 ∉ ["id", "t", "se"]).any fun p => p.2.isNone then .error .typeError
    else .ok
      { id := didUri ++ "#" ++ (property o "id").getD "undefined"
        type := (property o "t").getD "undefined"
        serviceEndpoint := readEndpoints se
        customProperties := readCustomProperties data }

def applyServiceRecord (didUri : String) (r : Resolution) (data : TxtData) :
    Except Failure Resolution := do
  let service ← readService didUri data
  return { r with
    didDocument := { r.didDocument with
      service := some (r.didDocument.service.getD [] ++ [service]) } }

def applyDidTypesRecord (r : Resolution) (data : TxtData) : Except Failure Resolution :=
  match property (parseTxtDataToObject data) "id" with
  | none => .error .typeError
  | some types => .ok { r with types := some ((split types valueSeparator).map number) }

def recordIdsToMethodIds (idLookup : Assoc String) (data : String) : List String :=
  (split data valueSeparator).filterMap (Assoc.get idLookup)

/-- Relationships without record ids are left as they are. -/
def applyVerificationRelationshipsRecord (r : Resolution) (data : TxtData) : Resolution :=
  let o := parseTxtDataToObject data
  { r with
    didDocument := { r.didDocument with
      relationship := fun relationship =>
        match property o relationship.recordName with
        | none | some "" => r.didDocument.relationship relationship
        | some ids => some (recordIdsToMethodIds r.idLookup ids) } }

/-- The record identifier in the name of an answer. -/
def dnsRecordIdOf (name : String) : String :=
  String.ofList (((split name '.').head (split_ne_nil name '.')).toList.drop 1)

def startsWith (text start : String) : Bool := start.toList.isPrefixOf text.toList

def applyAnswer (didUri : String) (r : Resolution) : Answer → Except Failure Resolution
  | .ns _ _ _ => .ok r
  | .txt name _ data =>
    let dnsRecordId := dnsRecordIdOf name
    if startsWith dnsRecordId "aka" then
      .ok { r with didDocument := applyAlsoKnownAsRecord r.didDocument data }
    else if startsWith dnsRecordId "cnt" then
      .ok { r with didDocument := applyControllerRecord r.didDocument data }
    else if startsWith dnsRecordId "k" then
      applyVerificationMethodRecord didUri dnsRecordId r data
    else if startsWith dnsRecordId "s" then applyServiceRecord didUri r data
    else if startsWith dnsRecordId "typ" then applyDidTypesRecord r data
    else if startsWith dnsRecordId "did" then .ok (applyVerificationRelationshipsRecord r data)
    else .ok r

def fromDnsPacket (didUri : String) (dnsPacket : Packet) : Except Failure Resolution :=
  dnsPacket.answers.foldlM (applyAnswer didUri) { didDocument := { id := didUri } }

end EnboxDwn.DidDht
