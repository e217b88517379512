import Mathlib.Data.Prod.Lex
import Mathlib.Data.String.Basic
import EnboxDwn.Lib.Selection

/-! Messages of the decentralized web node, their identity and their order.
Content hashing belongs to third-party packages and is a parameter here: the
class `Platform` names the functions the node calls and assumes nothing of them. -/
namespace EnboxDwn

abbrev Did := String
abbrev Timestamp := String

/-- A CID in its canonical text form, which never contains the index delimiter. -/
abbrev Cid := { s : String // '\x00' ∉ s.toList }

instance lawfulBEq_cid : LawfulBEq Cid := inferInstance

/-- A primitive value of a descriptor, a tag or an index. -/
inductive Value where
  | string (s : String)
  | number (n : Int)
  | boolean (b : Bool)
  deriving DecidableEq, Repr

/-- The right-hand side of a tag or of an index property. -/
inductive IndexValue where
  | single (v : Value)
  | array (vs : List Value)
  deriving DecidableEq, Repr

abbrev KeyValues := List (String × IndexValue)

structure RecordsWriteDescriptor where
  module : String
  modulePath : String
  recipient : Option Did := none
  schema : Option String := none
  tags : Option KeyValues := none
  parentId : Option String := none
  dataCid : String
  dataSize : Nat
  dataFormat : String
  dateCreated : Timestamp
  messageTimestamp : Timestamp
  published : Option Bool := none
  datePublished : Option Timestamp := none
  permissionGrantId : Option String := none
  squash : Option Bool := none
  deriving DecidableEq, Repr

structure RecordsDeleteDescriptor where
  messageTimestamp : Timestamp
  recordId : String
  prune : Bool
  permissionGrantId : Option String := none
  deriving DecidableEq, Repr

structure ModulesConfigureDescriptor where
  messageTimestamp : Timestamp
  definitionModule : String
  definitionPublished : Bool
  permissionGrantId : Option String := none
  deriving DecidableEq, Repr

/-- The parts of `authorization` the node reads: the DIDs behind the signatures
and the grant invoked by the author's signature payload. -/
structure AuthorizationModel where
  signature : String
  signer : Did
  authorDelegatedGrantSigner : Option Did := none
  ownerSigner : Option Did := none
  ownerDelegatedGrantSigner : Option Did := none
  permissionGrantId : Option String := none
  deriving DecidableEq, Repr

structure RecordsWriteMessage where
  recordId : String
  contextId : String
  descriptor : RecordsWriteDescriptor
  authorization : AuthorizationModel
  attesters : List Did := []
  deriving DecidableEq, Repr

structure RecordsDeleteMessage where
  descriptor : RecordsDeleteDescriptor
  authorization : AuthorizationModel
  deriving DecidableEq, Repr

structure ModulesConfigureMessage where
  descriptor : ModulesConfigureDescriptor
  authorization : AuthorizationModel
  deriving DecidableEq, Repr

inductive GenericMessage where
  | recordsWrite (m : RecordsWriteMessage)
  | recordsDelete (m : RecordsDeleteMessage)
  | modulesConfigure (m : ModulesConfigureMessage)
  deriving DecidableEq, Repr

inductive DwnInterfaceName where
  | records | modules
  deriving DecidableEq, Repr

inductive DwnMethodName where
  | write | delete | configure
  deriving DecidableEq, Repr

/-- Third-party services: CID computation over canonical encodings, the UnixFS
importer's root CID, the exporter that reads a root back from the streams imported
into a block partition, and the digest behind fingerprints. -/
class Platform where
  computeCid : GenericMessage → Cid
  computeEntryId : Did → RecordsWriteDescriptor → String
  Data : Type
  decidableEqData : DecidableEq Data
  byteLength : Data → Nat
  computeDagPbCid : Data → String
  exporter : String → List Data → Option Data
  sha256 : Cid → Fin 32 → UInt8

instance [P : Platform] : DecidableEq P.Data := P.decidableEqData

/-- A platform over text: data is its own address, signatures identify messages, and
data that starts with `L` stands for forty thousand bytes more than it is long. -/
@[reducible] def Platform.ofText : Platform where
  computeCid m :=
    let signature := match m with
      | .recordsWrite m => m.authorization.signature
      | .recordsDelete m => m.authorization.signature
      | .modulesConfigure m => m.authorization.signature
    ⟨String.ofList (signature.toList.filter (· ≠ '\x00')), by simp⟩
  computeEntryId author d := author ++ d.messageTimestamp
  Data := String
  decidableEqData := inferInstance
  byteLength data := if data.toList.head? = some 'L' then 40000 + data.length else data.length
  computeDagPbCid data := data
  exporter cid streams := streams.find? (· == cid)
  sha256 c i := ((c.val.toList.map fun x => x.val.toUInt8).getD i 0)

namespace GenericMessage

def messageTimestamp : GenericMessage → Timestamp
  | .recordsWrite m => m.descriptor.messageTimestamp
  | .recordsDelete m => m.descriptor.messageTimestamp
  | .modulesConfigure m => m.descriptor.messageTimestamp

def interface : GenericMessage → DwnInterfaceName
  | .recordsWrite _ => .records
  | .recordsDelete _ => .records
  | .modulesConfigure _ => .modules

def method : GenericMessage → DwnMethodName
  | .recordsWrite _ => .write
  | .recordsDelete _ => .delete
  | .modulesConfigure _ => .configure

def authorization : GenericMessage → AuthorizationModel
  | .recordsWrite m => m.authorization
  | .recordsDelete m => m.authorization
  | .modulesConfigure m => m.authorization

end GenericMessage

def DwnInterfaceName.toString : DwnInterfaceName → String
  | .records => "Records"
  | .modules => "Modules"

def DwnMethodName.toString : DwnMethodName → String
  | .write => "Write"
  | .delete => "Delete"
  | .configure => "Configure"

/-- A message as the store holds it: small record data travels inline beside it. -/
structure StoredMessage [P : Platform] where
  message : GenericMessage
  encodedData : Option P.Data := none

instance [Platform] : DecidableEq StoredMessage := fun a b =>
  decidable_of_iff (a.message = b.message ∧ a.encodedData = b.encodedData)
    (by cases a; cases b; simp)

namespace Message
variable [P : Platform]

/-- The signer of the delegated grant, when there is one, else the signer itself. -/
def getAuthor (a : AuthorizationModel) : Did := a.authorDelegatedGrantSigner.getD a.signer

/-- Inline data is storage metadata and does not contribute to message identity. -/
def getCid (m : StoredMessage) : Cid := P.computeCid m.message

def compareCid (a b : StoredMessage) : Int :=
  if getCid a < getCid b then -1 else if getCid b < getCid a then 1 else 0

def compareMessageTimestamp (a b : StoredMessage) : Int :=
  if b.message.messageTimestamp < a.message.messageTimestamp then 1
  else if a.message.messageTimestamp < b.message.messageTimestamp then -1
  else compareCid a b

def isNewer (a b : StoredMessage) : Bool := compareMessageTimestamp a b > 0

def getNewestMessage (messages : List StoredMessage) : Option StoredMessage :=
  Selection.selectBy isNewer messages

/-- The order `isNewer` decides: timestamp first, then CID. -/
def age (m : StoredMessage) : Timestamp ×ₗ Cid := toLex (m.message.messageTimestamp, getCid m)

theorem isNewer_iff (a b : StoredMessage) : isNewer a b = true ↔ age b < age a := by
  simp only [isNewer, compareMessageTimestamp, compareCid, age, Prod.Lex.toLex_lt_toLex]
  rcases lt_trichotomy a.message.messageTimestamp b.message.messageTimestamp with h | h | h
  · simp [h, h.not_gt, h.ne']
  · rcases lt_trichotomy (getCid a) (getCid b) with hc | hc | hc
    · simp [h, hc, hc.not_gt]
    · simp [h, hc]
    · simp [h, hc, hc.not_gt]
  · simp [h]

theorem isNewer_eq_false (a b : StoredMessage) : isNewer a b = false ↔ age a ≤ age b := by
  rw [← not_lt, ← isNewer_iff, Bool.not_eq_true]

theorem getCid_eq_of_age_eq {a b : StoredMessage} (h : age a = age b) : getCid a = getCid b :=
  congrArg Prod.snd (toLex.injective h)

theorem getNewestMessage_eq_some {l : List StoredMessage} {m : StoredMessage}
    (h : getNewestMessage l = some m) : m ∈ l ∧ ∀ x ∈ l, age x ≤ age m :=
  Selection.selectBy_eq_some isNewer_iff h

theorem getNewestMessage_eq_none {l : List StoredMessage} :
    getNewestMessage l = none ↔ l = [] :=
  Selection.selectBy_eq_none isNewer_iff

theorem getNewestMessage_eq_of_greatest {l : List StoredMessage} {m : StoredMessage}
    (hm : m ∈ l) (hmax : ∀ x ∈ l, age x ≤ age m) (hinj : ∀ x ∈ l, getCid x = getCid m → x = m) :
    getNewestMessage l = some m :=
  Selection.selectBy_eq_of_greatest isNewer_iff hm hmax
    fun x hx h => hinj x hx (getCid_eq_of_age_eq h)

end Message

end EnboxDwn
