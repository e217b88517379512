import EnboxDwn.Lib.Expiring
import EnboxDwn.Reply

/-! The server's delivery service: endpoints read from DID documents, the de-duplication cache
and the two ways a processed message leaves the node. Sending is fire-and-forget; what counts here
is which endpoint is handed which message, for which target. -/
namespace EnboxDwn.DeliveryService

structure DwnServerConfig where
  baseUrl : String
  forwardingEnabled : Bool := true
  deliveryEnabled : Bool := true
  deliveryMaxConcurrency : Nat := 10
  deliveryEndpointCacheTtlSeconds : Nat := 300
  forwardingDeduplicationTtlSeconds : Nat := 60

namespace DwnServerConfig

def dedupTtlMs (config : DwnServerConfig) : Nat := config.forwardingDeduplicationTtlSeconds * 1000

def endpointTtlMs (config : DwnServerConfig) : Nat := config.deliveryEndpointCacheTtlSeconds * 1000

end DwnServerConfig

structure DwnEndpoint where
  url : String
  isFull : Bool
  deriving DecidableEq, Repr

/-! ## Endpoints of a DID document -/

def stripTrailingSlashes (value : String) : String :=
  String.ofList (value.toList.reverse.dropWhile (· == '/')).reverse

/-- An entry of a `serviceEndpoint` array, or the map at its top level. -/
structure MapEntry where
  url : Option String := none
  dataRetention : Option String := none
  deriving DecidableEq, Repr

inductive EndpointEntry where
  | text (url : String)
  | map (entry : MapEntry)
  deriving DecidableEq, Repr

inductive ServiceEndpoint where
  | text (url : String)
  | array (entries : List EndpointEntry)
  | object (nodes : Option (List String)) (entry : MapEntry)
  deriving DecidableEq, Repr

structure DidService where
  type : String
  serviceEndpoint : ServiceEndpoint
  deriving DecidableEq, Repr

structure DidDocument where
  service : List DidService := []
  deriving DecidableEq, Repr

def extractMapEndpoint (entry : MapEntry) : List DwnEndpoint :=
  match entry.url with
  | none => []
  | some url => [⟨stripTrailingSlashes url, entry.dataRetention != some "cache"⟩]

def extractTextEndpoint (url : String) : List DwnEndpoint := [⟨stripTrailingSlashes url, true⟩]

def extractEndpointsFromArray (entries : List EndpointEntry) : List DwnEndpoint :=
  entries.flatMap fun entry =>
    match entry with
    | .text url => extractTextEndpoint url
    | .map entry => extractMapEndpoint entry

def extractEndpointsFromService (service : DidService) : List DwnEndpoint :=
  if service.type != "DecentralizedWebNode" then []
  else match service.serviceEndpoint with
    | .text url => extractTextEndpoint url
    | .array entries => extractEndpointsFromArray entries
    | .object nodes entry =>
      (nodes.getD []).flatMap extractTextEndpoint ++ extractMapEndpoint entry

def extractDwnEndpoints (document : DidDocument) : List DwnEndpoint :=
  document.service.flatMap extractEndpointsFromService

/-! ## De-duplication and sending -/

def evictionBound : Nat := 10000

def isRecentlyForwarded (key : String) (now : Nat) (cache : Expiring.Cache String) :
    Bool × Expiring.Cache String :=
  Expiring.check key now cache

def markForwarded (config : DwnServerConfig) (key : String) (now : Nat)
    (cache : Expiring.Cache String) : Expiring.Cache String :=
  Expiring.mark evictionBound config.dedupTtlMs key now cache

section Batches
variable {α : Type}

/-- The loop over slices of at most `concurrency` elements, from index `i` on. With a batch size
of zero the index never advances and nothing is ever sent. -/
def batchesFrom (concurrency : Nat) (l : List α) : Nat → Nat → List α
  | 0, _ => []
  | fuel + 1, i =>
    if i < l.length then (l.drop i).take concurrency ++ batchesFrom concurrency l fuel (i + concurrency)
    else []

def inBatches (concurrency : Nat) (l : List α) : List α := batchesFrom concurrency l l.length 0

theorem batchesFrom_eq_drop {concurrency : Nat} (h : 0 < concurrency) (l : List α) (fuel i : Nat)
    (hfuel : l.length ≤ fuel + i) : batchesFrom concurrency l fuel i = l.drop i := by
  induction fuel generalizing i with
  | zero =>
    rw [List.drop_eq_nil_of_le (by omega)]
    rfl
  | succ fuel ih =>
    unfold batchesFrom
    split
    · rw [ih (i + concurrency) (by omega), ← List.drop_drop, List.take_append_drop]
    next hi => rw [List.drop_eq_nil_of_le (by omega)]

theorem batchesFrom_zero (l : List α) (fuel i : Nat) : batchesFrom 0 l fuel i = [] := by
  induction fuel generalizing i with
  | zero => rfl
  | succ fuel ih =>
    unfold batchesFrom
    split
    · rw [ih, List.take_zero, List.nil_append]
    · rfl

/-- A positive batch size sends everything, in order. -/
theorem inBatches_eq {concurrency : Nat} (h : 0 < concurrency) (l : List α) :
    inBatches concurrency l = l := by
  unfold inBatches
  rw [batchesFrom_eq_drop h l _ _ (by omega), List.drop_zero]

theorem inBatches_zero (l : List α) : inBatches 0 l = [] := batchesFrom_zero l _ _

end Batches

/-- What the dispatcher takes for the CID of the message: the record id of a write. A
`RecordsDelete` carries its record id in the descriptor only. -/
def dispatchCid : GenericMessage → String
  | .recordsWrite m => m.recordId
  | _ => ""

end EnboxDwn.DeliveryService
