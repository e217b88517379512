import EnboxDwn.DeliveryService
import Mathlib.Data.List.Sort

/-! Endpoint forwarding over whole runs: every accepted write or delete starts a forwarding that
waits for the tenant's endpoints, and any number of them are under way at once. The state carries
what was accepted, forwarded and handed to the sender so far. -/
namespace EnboxDwn.DeliveryService
variable [P : Platform]

structure CachedEndpoints where
  endpoints : List DwnEndpoint
  expiresAt : Nat

/-- A forwarding under way; without endpoints it still waits for the resolver. -/
structure Forwarding where
  tenant : Did
  message : GenericMessage
  endpoints : Option (List DwnEndpoint)

/-- A message of a tenant at the time something happened to it. -/
structure Handled where
  tenant : Did
  message : GenericMessage
  time : Nat
  deriving DecidableEq

/-- One call of `#sendMessage`. -/
structure Send where
  url : String
  target : Did
  message : GenericMessage
  deriving DecidableEq

structure Service where
  endpointCache : Did → Option CachedEndpoints := fun _ => none
  forwardedCids : Expiring.Cache String := []
  running : List Forwarding := []
  accepted : List (Did × GenericMessage) := []
  finished : List Handled := []
  forwarded : List Handled := []
  sends : List Send := []

/-- What happens next: a processed message is dispatched, the resolver answers a waiting
forwarding, or a forwarding goes on with its endpoints. -/
inductive Action where
  | dispatch (tenant : Did) (message : GenericMessage) (statusCode : Nat)
  | resolved (i : Nat) (document : Option DidDocument)
  | proceed (i : Nat)

def isForwardable (message : GenericMessage) : Bool :=
  message.interface == .records && (message.method == .write || message.method == .delete)

def forwardKey (tenant : Did) (message : GenericMessage) : String :=
  "fwd:" ++ tenant ++ ":" ++ dispatchCid message

def selfBaseUrl (config : DwnServerConfig) : String := stripTrailingSlashes config.baseUrl

def peerEndpoints (config : DwnServerConfig) (endpoints : List DwnEndpoint) : List DwnEndpoint :=
  endpoints.filter fun ep => !startsWith ep.url (selfBaseUrl config)

/-- Full endpoints first, otherwise in the order of the document. -/
def sortFullFirst (endpoints : List DwnEndpoint) : List DwnEndpoint :=
  endpoints.insertionSort fun a b => a.isFull = true ∨ b.isFull = false

namespace Service

/-- A fresh cache entry answers at once. -/
def cachedEndpoints (now : Nat) (did : Did) (s : Service) : Option (List DwnEndpoint) :=
  match s.endpointCache did with
  | none => none
  | some cached => if now < cached.expiresAt then some cached.endpoints else none

def dispatch (config : DwnServerConfig) (now : Nat) (tenant : Did) (message : GenericMessage)
    (statusCode : Nat) (s : Service) : Service :=
  if statusCode = 202 && isForwardable message then
    { s with
      accepted := s.accepted ++ [(tenant, message)]
      running :=
        if config.forwardingEnabled then
          s.running ++ [⟨tenant, message, s.cachedEndpoints now tenant⟩]
        else s.running }
  else s

/-- A document is extracted and cached; a failed resolution yields no endpoints and no entry. -/
def resolved (config : DwnServerConfig) (now : Nat) (i : Nat) (document : Option DidDocument)
    (s : Service) : Service :=
  match s.running[i]? with
  | some ⟨tenant, message, none⟩ =>
    match document with
    | none => { s with running := s.running.set i ⟨tenant, message, some []⟩ }
    | some document =>
      let endpoints := extractDwnEndpoints document
      { s with
        running := s.running.set i ⟨tenant, message, some endpoints⟩
        endpointCache := fun did =>
          if did = tenant then some ⟨endpoints, now + config.endpointTtlMs⟩
          else s.endpointCache did }
  | _ => s

def finish (now : Nat) (i : Nat) (forwarding : Forwarding) (s : Service) : Service :=
  { s with
    running := s.running.eraseIdx i
    finished := s.finished ++ [⟨forwarding.tenant, forwarding.message, now⟩] }

/-- The rest of `#forwardToEndpoints`, once the endpoints are there. -/
def forwardToEndpoints (config : DwnServerConfig) (now : Nat) (forwarding : Forwarding)
    (endpoints : List DwnEndpoint) (s : Service) : Service :=
  let peers := peerEndpoints config endpoints
  if peers.isEmpty then s
  else
    let key := forwardKey forwarding.tenant forwarding.message
    let (recent, cache) := isRecentlyForwarded key now s.forwardedCids
    if recent then { s with forwardedCids := cache }
    else
      { s with
        forwardedCids := markForwarded config key now cache
        forwarded := s.forwarded ++ [⟨forwarding.tenant, forwarding.message, now⟩]
        sends := s.sends ++ (inBatches config.deliveryMaxConcurrency (sortFullFirst peers)).map
          fun ep => ⟨ep.url, forwarding.tenant, forwarding.message⟩ }

def proceed (config : DwnServerConfig) (now : Nat) (i : Nat) (s : Service) : Service :=
  match s.running[i]? with
  | some forwarding =>
    match forwarding.endpoints with
    | some endpoints => (forwardToEndpoints config now forwarding endpoints s).finish now i forwarding
    | none => s
  | none => s

def step (config : DwnServerConfig) (now : Nat) : Action → Service → Service
  | .dispatch tenant message statusCode, s => s.dispatch config now tenant message statusCode
  | .resolved i document, s => s.resolved config now i document
  | .proceed i, s => s.proceed config now i

def run (config : DwnServerConfig) : List (Nat × Action) → Service → Service
  | [], s => s
  | (now, action) :: rest, s => run config rest (s.step config now action)

end Service

/-! ## What forwarding promises -/

/-- This server's own endpoint: its base URL, or a path below it. -/
def IsOwn (config : DwnServerConfig) (url : String) : Prop :=
  url = selfBaseUrl config ∨ startsWith url (selfBaseUrl config ++ "/") = true

section Promise
variable (config : DwnServerConfig) (document : Did → DidDocument)

/-- The message was handed to the sender for the endpoint. -/
def Service.Sent (s : Service) (tenant : Did) (message : GenericMessage) (url : String) : Prop :=
  ⟨url, tenant, message⟩ ∈ s.sends

/-- A message with the same CID was forwarded for the tenant within the period that ends then. -/
def Service.Deduplicated (s : Service) (handled : Handled) : Prop :=
  ∃ earlier ∈ s.forwarded, earlier.tenant = handled.tenant ∧
    P.computeCid earlier.message = P.computeCid handled.message ∧
    handled.time ≤ earlier.time + config.dedupTtlMs

/-- No accepted message is lost: each is still under way or has reached every endpoint that is
not the server's own, and nothing else is sent. -/
structure Service.Lossless (s : Service) : Prop where
  balance : s.accepted.Perm (s.running.map (fun f => (f.tenant, f.message)) ++
    s.finished.map fun d => (d.tenant, d.message))
  handed : ∀ d ∈ s.finished, ∀ ep ∈ extractDwnEndpoints (document d.tenant),
    ¬ IsOwn config ep.url → s.Sent d.tenant d.message ep.url ∨ s.Deduplicated config d
  peersOnly : ∀ send ∈ s.sends, ¬ IsOwn config send.url ∧
    ∃ ep ∈ extractDwnEndpoints (document send.target), ep.url = send.url

/-- The steps that keep the promise. The resolver answers with the tenant's document; where a
forwarding goes on, only the server's own endpoints start with its base URL, no other message
under the same key was forwarded within the period, and batches advance. -/
def Service.Meets (now : Nat) : Action → Service → Prop
  | .dispatch _ _ _, _ => True
  | .resolved i answer, s => ∀ f ∈ s.running[i]?, answer = some (document f.tenant)
  | .proceed i, s => ∀ f ∈ s.running[i]?, 0 < config.deliveryMaxConcurrency ∧
      (∀ ep ∈ extractDwnEndpoints (document f.tenant),
        startsWith ep.url (selfBaseUrl config) = true → IsOwn config ep.url) ∧
      (∀ g ∈ s.forwarded, forwardKey g.tenant g.message = forwardKey f.tenant f.message →
        now ≤ g.time + config.dedupTtlMs →
          g.tenant = f.tenant ∧ P.computeCid g.message = P.computeCid f.message)

instance (config : DwnServerConfig) (url : String) : Decidable (IsOwn config url) :=
  inferInstanceAs (Decidable (_ ∨ _))

instance Service.decidableMeets (now : Nat) (action : Action) (s : Service) :
    Decidable (s.Meets config document now action) :=
  match action with
  | .dispatch _ _ _ => inferInstanceAs (Decidable True)
  | .resolved i answer =>
    inferInstanceAs (Decidable (∀ f ∈ s.running[i]?, answer = some (document f.tenant)))
  | .proceed i => inferInstanceAs (Decidable (∀ f ∈ s.running[i]?,
      0 < config.deliveryMaxConcurrency ∧
      (∀ ep ∈ extractDwnEndpoints (document f.tenant),
        startsWith ep.url (selfBaseUrl config) = true → IsOwn config ep.url) ∧
      (∀ g ∈ s.forwarded, forwardKey g.tenant g.message = forwardKey f.tenant f.message →
        now ≤ g.time + config.dedupTtlMs →
          g.tenant = f.tenant ∧ P.computeCid g.message = P.computeCid f.message)))

def Service.MeetsAll : List (Nat × Action) → Service → Prop
  | [], _ => True
  | (now, action) :: rest, s =>
    s.Meets config document now action ∧ MeetsAll rest (s.step config now action)

instance Service.decidableMeetsAll : (steps : List (Nat × Action)) → (s : Service) →
    Decidable (s.MeetsAll config document steps)
  | [], _ => inferInstanceAs (Decidable True)
  | (now, action) :: rest, s =>
    haveI := Service.decidableMeetsAll rest (s.step config now action)
    inferInstanceAs (Decidable (s.Meets config document now action ∧
      MeetsAll config document rest (s.step config now action)))

end Promise

/-! ## One step -/

omit P in
theorem mem_sortFullFirst {ep : DwnEndpoint} {endpoints : List DwnEndpoint} :
    ep ∈ sortFullFirst endpoints ↔ ep ∈ endpoints :=
  (List.perm_insertionSort _ _).mem_iff

omit P in
theorem startsWith_of_isOwn {config : DwnServerConfig} {url : String} (h : IsOwn config url) :
    startsWith url (selfBaseUrl config) = true := by
  unfold startsWith
  rw [List.isPrefixOf_iff_prefix]
  cases h with
  | inl h => exact h ▸ List.prefix_rfl
  | inr h =>
    unfold startsWith at h
    rw [List.isPrefixOf_iff_prefix, String.toList_append] at h
    exact (List.prefix_append _ _).trans h

omit P in
theorem not_isOwn_of_mem_peerEndpoints {config : DwnServerConfig} {endpoints : List DwnEndpoint}
    {ep : DwnEndpoint} (h : ep ∈ peerEndpoints config endpoints) : ¬ IsOwn config ep.url := by
  intro hown
  have hnot := (List.mem_filter.mp h).2
  rw [startsWith_of_isOwn hown] at hnot
  cases hnot

namespace Service
variable {config : DwnServerConfig} {document : Did → DidDocument} {s : Service} {now : Nat}

/-- What a step relies on: the caches hold what the documents and the forwards so far say. -/
structure Consistent (config : DwnServerConfig) (document : Did → DidDocument) (s : Service) :
    Prop where
  keyed : Expiring.Keyed s.forwardedCids
  marked : ∀ key expiry, s.forwardedCids.lookup key = some expiry →
    ∃ g ∈ s.forwarded, forwardKey g.tenant g.message = key ∧ expiry = g.time + config.dedupTtlMs
  cached : ∀ did c, s.endpointCache did = some c → c.endpoints = extractDwnEndpoints (document did)
  known : ∀ f ∈ s.running, ∀ eps, f.endpoints = some eps →
    eps = extractDwnEndpoints (document f.tenant)
  lossless : s.Lossless config document

theorem consistent_initial : Consistent config document {} where
  keyed := List.nodup_nil
  marked := by simp
  cached := by simp
  known := by simp
  lossless := ⟨by simp, by simp, by simp⟩

theorem cachedEndpoints_eq (h : s.Consistent config document) {did : Did}
    {eps : List DwnEndpoint} (hcached : s.cachedEndpoints now did = some eps) :
    eps = extractDwnEndpoints (document did) := by
  unfold cachedEndpoints at hcached
  split at hcached
  · cases hcached
  next c hc =>
    split at hcached
    · cases hcached
      exact h.cached did c hc
    · cases hcached

theorem Consistent.dispatch (h : s.Consistent config document)
    (henabled : config.forwardingEnabled = true) (tenant : Did) (message : GenericMessage)
    (statusCode : Nat) :
    (s.dispatch config now tenant message statusCode).Consistent config document := by
  unfold Service.dispatch
  simp only [henabled, if_true]
  split
  · refine ⟨h.keyed, h.marked, h.cached, ?_, ⟨?_, h.lossless.handed, h.lossless.peersOnly⟩⟩
    · intro f hf eps heps
      cases List.mem_append.mp hf with
      | inl hf => exact h.known f hf eps heps
      | inr hf =>
        cases List.mem_singleton.mp hf
        exact cachedEndpoints_eq h heps
    · -- The new forwarding balances the message that was accepted.
      have hbalance := h.lossless.balance.append_right [(tenant, message)]
      rw [List.append_assoc] at hbalance
      rw [List.map_append, List.append_assoc]
      exact hbalance.trans (List.perm_append_comm.append_left _)
  · exact h

omit P in
/-- Replacing a forwarding by one for the same message keeps the balance. -/
theorem map_set_running {i : Nat} {f : Forwarding} (h : s.running[i]? = some f)
    (endpoints : Option (List DwnEndpoint)) :
    (s.running.set i ⟨f.tenant, f.message, endpoints⟩).map (fun f => (f.tenant, f.message)) =
      s.running.map fun f => (f.tenant, f.message) := by
  apply List.ext_getElem?
  intro j
  rw [List.getElem?_map, List.getElem?_set, List.getElem?_map]
  split
  next heq =>
    have hi := (List.getElem?_eq_some_iff.mp h).1
    rw [← heq, h, if_pos hi]
    rfl
  · rfl

theorem Consistent.resolved (h : s.Consistent config document) {i : Nat}
    {answer : Option DidDocument} (hmeets : s.Meets config document now (.resolved i answer)) :
    (s.resolved config now i answer).Consistent config document := by
  unfold Service.resolved
  split
  next tenant message hrunning =>
    cases hmeets _ hrunning
    refine ⟨h.keyed, h.marked, ?_, ?_, ⟨?_, h.lossless.handed, h.lossless.peersOnly⟩⟩
    · intro did c hc
      dsimp only at hc
      split at hc
      next heq =>
        cases hc
        rw [heq]
      · exact h.cached did c hc
    · intro f hf eps heps
      cases List.mem_or_eq_of_mem_set hf with
      | inl hf => exact h.known f hf eps heps
      | inr hf =>
        cases hf
        cases heps
        rfl
    · dsimp only
      rw [map_set_running hrunning]
      exact h.lossless.balance
  · exact h

omit P in
/-- What a forwarding does once it has its endpoints: nothing without peers, nothing but a look
when the key is recent, else a mark and a send for each peer. -/
theorem forwardToEndpoints_cases (config : DwnServerConfig) (now : Nat) (f : Forwarding)
    (endpoints : List DwnEndpoint) (s : Service) :
    (peerEndpoints config endpoints = [] ∧ forwardToEndpoints config now f endpoints s = s) ∨
    (Expiring.Recent s.forwardedCids now (forwardKey f.tenant f.message) ∧
      forwardToEndpoints config now f endpoints s = { s with
        forwardedCids := (Expiring.check (forwardKey f.tenant f.message) now s.forwardedCids).2 }) ∨
    (forwardToEndpoints config now f endpoints s = { s with
        forwardedCids := markForwarded config (forwardKey f.tenant f.message) now
          (Expiring.check (forwardKey f.tenant f.message) now s.forwardedCids).2
        forwarded := s.forwarded ++ [⟨f.tenant, f.message, now⟩]
        sends := s.sends ++ (inBatches config.deliveryMaxConcurrency
          (sortFullFirst (peerEndpoints config endpoints))).map
            fun ep => ⟨ep.url, f.tenant, f.message⟩ }) := by
  simp only [forwardToEndpoints, isRecentlyForwarded]
  by_cases hpeers : (peerEndpoints config endpoints).isEmpty = true
  · left
    exact ⟨List.isEmpty_iff.mp hpeers, if_pos hpeers⟩
  · right
    rw [if_neg hpeers]
    by_cases hrecent :
        (Expiring.check (forwardKey f.tenant f.message) now s.forwardedCids).1 = true
    · left
      exact ⟨(Expiring.check_recent _ _ _).mp hrecent, if_pos hrecent⟩
    · right
      exact if_neg hrecent

/-- Every endpoint of the tenant that is not the server's own got the message, or a message with
its CID was forwarded recently. -/
def Handed (config : DwnServerConfig) (document : Did → DidDocument) (d : Handled) (s : Service) :
    Prop :=
  ∀ ep ∈ extractDwnEndpoints (document d.tenant), ¬ IsOwn config ep.url →
    s.Sent d.tenant d.message ep.url ∨ s.Deduplicated config d

theorem Consistent.forward (h : s.Consistent config document) {i : Nat} {f : Forwarding}
    (hf : s.running[i]? = some f) {endpoints : List DwnEndpoint}
    (hendpoints : f.endpoints = some endpoints)
    (hmeets : s.Meets config document now (.proceed i)) :
    (forwardToEndpoints config now f endpoints s).Consistent config document ∧
      Handed config document ⟨f.tenant, f.message, now⟩
        (forwardToEndpoints config now f endpoints s) := by
  obtain ⟨hpositive, hown, hkeys⟩ := hmeets f hf
  have hdocument : endpoints = extractDwnEndpoints (document f.tenant) :=
    h.known f (List.mem_of_getElem? hf) endpoints hendpoints
  -- An endpoint that is not the server's own survives the prefix test.
  have hpeer : ∀ ep ∈ endpoints, ¬ IsOwn config ep.url → ep ∈ peerEndpoints config endpoints := by
    intro ep hep hnot
    apply List.mem_filter.mpr
    refine ⟨hep, ?_⟩
    cases hstarts : startsWith ep.url (selfBaseUrl config) with
    | false => rfl
    | true => exact absurd (hown ep (hdocument ▸ hep) hstarts) hnot
  obtain ⟨hpeers, heq⟩ | ⟨hrecent, heq⟩ | heq := forwardToEndpoints_cases config now f endpoints s
  · rw [heq]
    refine ⟨h, fun ep hep hnot => ?_⟩
    have hmem := hpeer ep (hdocument ▸ hep) hnot
    rw [hpeers] at hmem
    cases hmem
  · rw [heq]
    refine ⟨⟨h.keyed.check _ _, ?_, h.cached, h.known, h.lossless.balance, h.lossless.handed,
      h.lossless.peersOnly⟩, fun ep _ _ => Or.inr ?_⟩
    · intro key expiry hlookup
      exact h.marked key expiry (Expiring.lookup_check hlookup)
    · obtain ⟨expiry, hlookup, hle⟩ := hrecent
      obtain ⟨g, hg, hkey, rfl⟩ := h.marked _ _ hlookup
      obtain ⟨htenant, hcid⟩ := hkeys g hg hkey hle
      exact ⟨g, hg, htenant, hcid, hle⟩
  · rw [heq, inBatches_eq hpositive]
    refine ⟨⟨(h.keyed.check _ _).mark _ _ _ _, ?_, h.cached, h.known, ⟨h.lossless.balance, ?_, ?_⟩⟩, ?_⟩
    · intro key expiry hlookup
      obtain ⟨rfl, rfl⟩ | ⟨-, hlookup⟩ := Expiring.lookup_mark (h.keyed.check _ _) hlookup
      · exact ⟨⟨f.tenant, f.message, now⟩, by simp, rfl, rfl⟩
      · obtain ⟨g, hg, hkey, hexpiry⟩ := h.marked key expiry (Expiring.lookup_check hlookup)
        exact ⟨g, List.mem_append_left _ hg, hkey, hexpiry⟩
    · intro d hd ep hep hnot
      cases h.lossless.handed d hd ep hep hnot with
      | inl hsent => exact Or.inl (List.mem_append_left _ hsent)
      | inr hdedup =>
        obtain ⟨g, hg, hrest⟩ := hdedup
        exact Or.inr ⟨g, List.mem_append_left _ hg, hrest⟩
    · intro send hsend
      cases List.mem_append.mp hsend with
      | inl hsend => exact h.lossless.peersOnly send hsend
      | inr hsend =>
        obtain ⟨ep, hep, rfl⟩ := List.mem_map.mp hsend
        have hpeer := mem_sortFullFirst.mp hep
        refine ⟨not_isOwn_of_mem_peerEndpoints hpeer, ep, ?_, rfl⟩
        exact hdocument ▸ List.mem_of_mem_filter hpeer
    · intro ep hep hnot
      left
      apply List.mem_append_right
      apply List.mem_map.mpr
      exact ⟨ep, mem_sortFullFirst.mpr (hpeer ep (hdocument ▸ hep) hnot), rfl⟩

theorem Consistent.finish (h : s.Consistent config document) {i : Nat} {f : Forwarding}
    (hf : s.running[i]? = some f)
    (hhanded : Handed config document ⟨f.tenant, f.message, now⟩ s) :
    (s.finish now i f).Consistent config document := by
  refine ⟨h.keyed, h.marked, h.cached, ?_, ⟨?_, ?_, h.lossless.peersOnly⟩⟩
  · intro g hg eps heps
    exact h.known g (List.mem_of_mem_eraseIdx hg) eps heps
  · -- The forwarding moves from the running ones to the finished ones.
    obtain ⟨hi, hget⟩ := List.getElem?_eq_some_iff.mp hf
    have hperm := (List.getElem_cons_eraseIdx_perm hi).map fun f => (f.tenant, f.message)
    rw [hget, List.map_cons] at hperm
    simp only [Service.finish, List.map_append, List.map_cons, List.map_nil]
    apply h.lossless.balance.trans
    apply (hperm.symm.append_right _).trans
    rw [List.cons_append, ← List.append_assoc]
    exact (List.perm_append_singleton _ _).symm
  · intro d hd
    cases List.mem_append.mp hd with
    | inl hd => exact h.lossless.handed d hd
    | inr hd =>
      cases List.mem_singleton.mp hd
      exact hhanded

theorem Consistent.proceed (h : s.Consistent config document) {i : Nat}
    (hmeets : s.Meets config document now (.proceed i)) :
    (s.proceed config now i).Consistent config document := by
  unfold Service.proceed
  split
  next f hf =>
    split
    next endpoints hendpoints =>
      obtain ⟨hconsistent, hhanded⟩ := h.forward hf hendpoints hmeets
      apply hconsistent.finish _ hhanded
      obtain ⟨-, heq⟩ | ⟨-, heq⟩ | heq := forwardToEndpoints_cases config now f endpoints s
      · rw [heq]
        exact hf
      · rw [heq]
        exact hf
      · rw [heq]
        exact hf
    · exact h
  · exact h

theorem Consistent.step (h : s.Consistent config document)
    (henabled : config.forwardingEnabled = true) {action : Action}
    (hmeets : s.Meets config document now action) :
    (s.step config now action).Consistent config document := by
  cases action with
  | dispatch tenant message statusCode => exact h.dispatch henabled tenant message statusCode
  | resolved i answer => exact h.resolved hmeets
  | proceed i => exact h.proceed hmeets

theorem Consistent.run (h : s.Consistent config document)
    (henabled : config.forwardingEnabled = true) (steps : List (Nat × Action))
    (hmeets : s.MeetsAll config document steps) :
    (s.run config steps).Consistent config document := by
  induction steps generalizing s with
  | nil => exact h
  | cons step rest ih =>
    obtain ⟨now, action⟩ := step
    exact ih (h.step henabled hmeets.1) hmeets.2

end Service

/-- With forwarding enabled, every state of a run whose steps meet the condition has lost no
message. -/
theorem forwarding_lossless (config : DwnServerConfig) (document : Did → DidDocument)
    (steps : List (Nat × Action)) (henabled : config.forwardingEnabled = true)
    (hmeets : ({} : Service).MeetsAll config document steps) :
    (({} : Service).run config steps).Lossless config document :=
  (Service.consistent_initial.run henabled steps hmeets).lossless

end EnboxDwn.DeliveryService

namespace EnboxDwn.DeliveryService
local instance : Platform := Platform.ofText

def serverAndPeer (_ : Did) : DidDocument where
  service := [⟨"DecentralizedWebNode",
    .array [.text "https://self.example/", .text "https://peer.example"]⟩]

def writeOf (recordId signature : String) : GenericMessage :=
  .recordsWrite
    { recordId := recordId, contextId := recordId
      descriptor :=
        { module := "https://notes.example", modulePath := "note", dataCid := "data", dataSize := 4
          dataFormat := "text/plain", dateCreated := "2025-01-01"
          messageTimestamp := "2025-01-01" }
      authorization := { signature := signature, signer := "did:alice" } }

def deleteOf (recordId signature : String) : GenericMessage :=
  .recordsDelete
    { descriptor := { messageTimestamp := "2025-01-01", recordId := recordId, prune := false }
      authorization := { signature := signature, signer := "did:alice" } }

/-- A write, and a second later the deletion of another record. -/
def writeThenDelete : List (Nat × Action) :=
  [(0, .dispatch "did:alice" (writeOf "one" "w1") 202),
    (0, .resolved 0 (some (serverAndPeer "did:alice"))), (0, .proceed 0),
    (1000, .dispatch "did:alice" (deleteOf "two" "d2") 202), (1000, .proceed 0)]

theorem forwarding_lossless_writeThenDelete :
    (({} : Service).run { baseUrl := "https://self.example" } writeThenDelete).Lossless
        { baseUrl := "https://self.example" } serverAndPeer ∧
      (({} : Service).run { baseUrl := "https://self.example" } writeThenDelete).sends =
        [⟨"https://peer.example", "did:alice", writeOf "one" "w1"⟩,
          ⟨"https://peer.example", "did:alice", deleteOf "two" "d2"⟩] :=
  ⟨forwarding_lossless _ serverAndPeer writeThenDelete rfl (by decide), by decide⟩

/-- Two deletions of different records within the period. -/
def twoDeletes : List (Nat × Action) :=
  [(0, .dispatch "did:alice" (deleteOf "one" "d1") 202),
    (0, .resolved 0 (some (serverAndPeer "did:alice"))), (0, .proceed 0),
    (1000, .dispatch "did:alice" (deleteOf "two" "d2") 202), (1000, .proceed 0)]

/-- Deletes carry no record id where the dispatcher looks for one, so all deletes of a tenant
share one key and the second is taken for a duplicate of the first. -/
theorem second_delete_not_forwarded :
    ¬ (({} : Service).run { baseUrl := "https://self.example" } twoDeletes).Lossless
      { baseUrl := "https://self.example" } serverAndPeer := by
  intro h
  have hhanded := h.handed ⟨"did:alice", deleteOf "two" "d2", 1000⟩ (by decide)
    ⟨"https://peer.example", true⟩ (by decide) (by decide)
  simp only [Service.Sent, Service.Deduplicated] at hhanded
  revert hhanded
  decide

end EnboxDwn.DeliveryService
