import EnboxDwn.DeliveryService

/-! Record delivery: the participants of a record at a path with `$delivery: direct`, their
endpoints, and the sends one accepted write causes. The endpoints are flattened into one list and
one map from URL to participant before the de-duplication filter runs over them. -/
namespace EnboxDwn.DeliveryService

structure DeliveryTarget where
  did : Did
  endpoints : List DwnEndpoint
  deriving DecidableEq, Repr

/-- What the node and the resolver answer while a message is delivered: the DIDs found for each
`$actions` rule of the record's node when its path says `$delivery: direct`, and the endpoints of
a DID. -/
structure Directory where
  directActionRecipients : Did → RecordsWriteMessage → Option (List (List Did))
  resolveDwnEndpoints : Did → List DwnEndpoint

/-- A set of DIDs in the order of insertion. -/
def addTarget (dids : List Did) (did : Did) : List Did := if did ∈ dids then dids else dids ++ [did]

def collectTargetDids (recipient : Option Did) (actionRecipients : List (List Did)) : List Did :=
  ((recipient.filter (· != "")).toList ++ actionRecipients.flatten).foldl addTarget []

def resolveDeliveryTargets (directory : Directory) (dids : List Did) : List DeliveryTarget :=
  dids.filterMap fun did =>
    let endpoints := directory.resolveDwnEndpoints did
    if 0 < endpoints.length then some ⟨did, endpoints⟩ else none

def targetPairs (targets : List DeliveryTarget) : List (DwnEndpoint × Did) :=
  targets.flatMap fun target => target.endpoints.map fun ep => (ep, target.did)

/-- `endpointTargetMap.get(url)`: a later target overwrites an earlier one. -/
def endpointTarget (targets : List DeliveryTarget) (url : String) : Option Did :=
  ((targetPairs targets).reverse.find? fun pair => pair.1.url = url).map Prod.snd

def deliveryKey (did : Did) (messageCid : String) : String := "dlv:" ++ did ++ ":" ++ messageCid

/-- The stateful filter over the flattened endpoints, within one turn of the event loop. -/
def uniqueEndpoints (config : DwnServerConfig) (now : Nat) (targetOf : String → Did)
    (messageCid : String) :
    List DwnEndpoint → Expiring.Cache String → List DwnEndpoint × Expiring.Cache String
  | [], cache => ([], cache)
  | ep :: rest, cache =>
    let key := deliveryKey (targetOf ep.url) messageCid
    let (recent, cache) := isRecentlyForwarded key now cache
    if recent then uniqueEndpoints config now targetOf messageCid rest cache
    else
      let (kept, cache) := uniqueEndpoints config now targetOf messageCid rest
        (markForwarded config key now cache)
      (ep :: kept, cache)

/-- The sends of one delivery, as pairs of an endpoint URL and the target DID. -/
def deliverToTargets (config : DwnServerConfig) (now : Nat) (messageCid : String)
    (targets : List DeliveryTarget) (cache : Expiring.Cache String) :
    List (String × Did) × Expiring.Cache String :=
  let targetOf := fun url => (endpointTarget targets url).getD ""
  let (kept, cache) := uniqueEndpoints config now targetOf messageCid
    ((targetPairs targets).map Prod.fst) cache
  ((inBatches config.deliveryMaxConcurrency kept).map fun ep => (ep.url, targetOf ep.url), cache)

def deliverToParticipants (config : DwnServerConfig) (directory : Directory) (tenant : Did)
    (now : Nat) (message : RecordsWriteMessage) (messageCid : String)
    (cache : Expiring.Cache String) : List (String × Did) × Expiring.Cache String :=
  match directory.directActionRecipients tenant message with
  | none => ([], cache)
  | some actionRecipients =>
    let targets := resolveDeliveryTargets directory
      (collectTargetDids message.descriptor.recipient actionRecipients)
    deliverToTargets config now messageCid (targets.filter fun target => target.did ≠ tenant) cache

/-- The delivery half of `dispatchIfNeeded`. -/
def dispatchDelivery (config : DwnServerConfig) (directory : Directory) (tenant : Did) (now : Nat)
    (message : GenericMessage) (statusCode : Nat) (cache : Expiring.Cache String) :
    List (String × Did) × Expiring.Cache String :=
  match message with
  | .recordsWrite m =>
    if statusCode = 202 && config.deliveryEnabled then
      deliverToParticipants config directory tenant now m (dispatchCid message) cache
    else ([], cache)
  | _ => ([], cache)

/-! ## The participants -/

theorem foldl_addTarget (dids acc : List Did) (hacc : acc.Nodup) :
    (dids.foldl addTarget acc).Nodup ∧
      ∀ did, did ∈ dids.foldl addTarget acc ↔ did ∈ acc ∨ did ∈ dids := by
  induction dids generalizing acc with
  | nil => simp [hacc]
  | cons did rest ih =>
    have hadd : (addTarget acc did).Nodup := by
      unfold addTarget
      split
      · exact hacc
      next hnot =>
        apply List.Nodup.append hacc (List.nodup_singleton did)
        simpa using hnot
    have hmem (d : Did) : d ∈ addTarget acc did ↔ d ∈ acc ∨ d = did := by
      unfold addTarget
      split
      next h =>
        constructor
        · exact Or.inl
        · rintro (h' | rfl)
          · exact h'
          · exact h
      · simp
    obtain ⟨hnodup, hiff⟩ := ih (addTarget acc did) hadd
    refine ⟨hnodup, fun d => ?_⟩
    rw [List.foldl_cons, hiff, hmem, List.mem_cons, or_assoc]

/-- A participant is the record's recipient or is found by one of the `$actions` rules; the
tenant already has the record. -/
def IsParticipant (directory : Directory) (tenant : Did) (message : RecordsWriteMessage)
    (did : Did) : Prop :=
  did ≠ tenant ∧ ∃ actionRecipients,
    directory.directActionRecipients tenant message = some actionRecipients ∧
      ((message.descriptor.recipient = some did ∧ did ≠ "") ∨
        ∃ dids ∈ actionRecipients, did ∈ dids)

theorem mem_collectTargetDids {recipient : Option Did} {actionRecipients : List (List Did)}
    {did : Did} : did ∈ collectTargetDids recipient actionRecipients ↔
      (recipient = some did ∧ did ≠ "") ∨ ∃ dids ∈ actionRecipients, did ∈ dids := by
  unfold collectTargetDids
  rw [(foldl_addTarget _ [] List.nodup_nil).2]
  simp [Option.filter_eq_some_iff]

/-! ## The flattened endpoints -/

/-- The pairs a delivery is for: each target with each of its endpoint URLs. -/
def Owed (targets : List DeliveryTarget) (pair : String × Did) : Prop :=
  ∃ target ∈ targets, target.did = pair.2 ∧ ∃ ep ∈ target.endpoints, ep.url = pair.1

theorem mem_targetPairs {targets : List DeliveryTarget} {ep : DwnEndpoint} {did : Did} :
    (ep, did) ∈ targetPairs targets ↔
      ∃ target ∈ targets, target.did = did ∧ ep ∈ target.endpoints := by
  constructor
  · intro h
    obtain ⟨target, htarget, hpair⟩ := List.mem_flatMap.mp h
    obtain ⟨ep', hep, heq⟩ := List.mem_map.mp hpair
    cases heq
    exact ⟨target, htarget, rfl, hep⟩
  · rintro ⟨target, htarget, rfl, hep⟩
    exact List.mem_flatMap.mpr ⟨target, htarget, List.mem_map.mpr ⟨ep, hep, rfl⟩⟩

theorem endpointTarget_some {targets : List DeliveryTarget} {ep : DwnEndpoint} {did : Did}
    (h : (ep, did) ∈ targetPairs targets) :
    ∃ ep' owner, endpointTarget targets ep.url = some owner ∧ ep'.url = ep.url ∧
      (ep', owner) ∈ targetPairs targets := by
  cases hfind : (targetPairs targets).reverse.find? (fun pair => pair.1.url = ep.url) with
  | none =>
    have hnone := List.find?_eq_none.mp hfind (ep, did) (List.mem_reverse.mpr h)
    simp at hnone
  | some pair =>
    obtain ⟨ep', owner⟩ := pair
    have hurl := List.find?_some hfind
    have hmem := List.mem_reverse.mp (List.mem_of_find?_eq_some hfind)
    refine ⟨ep', owner, ?_, by simpa using hurl, hmem⟩
    simp [endpointTarget, hfind]

/-! ## The filter -/

theorem deliveryKey_inj {did did' : Did} {messageCid : String} :
    deliveryKey did messageCid = deliveryKey did' messageCid ↔ did = did' := by
  constructor
  · intro h
    have hlist := congrArg String.toList h
    simp only [deliveryKey, String.toList_append, List.append_cancel_left_eq,
      List.append_cancel_right_eq] at hlist
    exact String.toList_inj.mp hlist
  · rintro rfl
    rfl

section Filter
variable (config : DwnServerConfig) (now : Nat) (targetOf : String → Did) (messageCid : String)

/-- What the filter keeps: endpoints of the list, no two for one target, none for a target that
was recent, and one for every target that was not. -/
structure Kept (eps : List DwnEndpoint) (cache : Expiring.Cache String)
    (kept : List DwnEndpoint) : Prop where
  subset : kept ⊆ eps
  distinct : (kept.map fun ep => targetOf ep.url).Nodup
  fresh : ∀ ep ∈ kept, ¬ Expiring.Recent cache now (deliveryKey (targetOf ep.url) messageCid)
  served : ∀ ep ∈ eps, ¬ Expiring.Recent cache now (deliveryKey (targetOf ep.url) messageCid) →
    ∃ ep' ∈ kept, targetOf ep'.url = targetOf ep.url

variable {now targetOf messageCid}

theorem Kept.skip {eps kept : List DwnEndpoint} {cache cache' : Expiring.Cache String}
    {ep : DwnEndpoint} (h : Kept now targetOf messageCid eps cache' kept)
    (hsame : ∀ key, Expiring.Recent cache' now key ↔ Expiring.Recent cache now key)
    (hrecent : Expiring.Recent cache now (deliveryKey (targetOf ep.url) messageCid)) :
    Kept now targetOf messageCid (ep :: eps) cache kept where
  subset := fun x hx => List.mem_cons_of_mem _ (h.subset hx)
  distinct := h.distinct
  fresh := fun x hx hr => h.fresh x hx ((hsame _).mpr hr)
  served := by
    intro x hx hfresh
    cases List.mem_cons.mp hx with
    | inl heq =>
      subst heq
      exact absurd hrecent hfresh
    | inr hx => exact h.served x hx fun hr => hfresh ((hsame _).mp hr)

theorem Kept.take {eps kept : List DwnEndpoint} {cache cache' : Expiring.Cache String}
    {ep : DwnEndpoint} (h : Kept now targetOf messageCid eps cache' kept)
    (hmark : ∀ key, Expiring.Recent cache' now key ↔
      key = deliveryKey (targetOf ep.url) messageCid ∨ Expiring.Recent cache now key)
    (hfresh : ¬ Expiring.Recent cache now (deliveryKey (targetOf ep.url) messageCid)) :
    Kept now targetOf messageCid (ep :: eps) cache (ep :: kept) where
  subset := List.cons_subset_cons ep h.subset
  distinct := by
    rw [List.map_cons, List.nodup_cons]
    refine ⟨?_, h.distinct⟩
    intro hmem
    obtain ⟨x, hx, heq⟩ := List.mem_map.mp hmem
    apply h.fresh x hx
    rw [hmark, heq]
    exact Or.inl rfl
  fresh := by
    intro x hx hr
    cases List.mem_cons.mp hx with
    | inl heq =>
      subst heq
      exact hfresh hr
    | inr hx => exact h.fresh x hx ((hmark _).mpr (Or.inr hr))
  served := by
    intro x hx hx'
    cases List.mem_cons.mp hx with
    | inl heq => exact ⟨ep, by simp, by rw [heq]⟩
    | inr hx =>
      by_cases heq : targetOf x.url = targetOf ep.url
      · exact ⟨ep, by simp, heq.symm⟩
      · have hother : ¬ Expiring.Recent cache' now (deliveryKey (targetOf x.url) messageCid) := by
          rw [hmark, deliveryKey_inj]
          rintro (h | h)
          · exact heq h
          · exact hx' h
        obtain ⟨y, hy, hty⟩ := h.served x hx hother
        exact ⟨y, List.mem_cons_of_mem _ hy, hty⟩

theorem kept_uniqueEndpoints (eps : List DwnEndpoint) (cache : Expiring.Cache String)
    (hkeyed : Expiring.Keyed cache) :
    Kept now targetOf messageCid eps cache
      (uniqueEndpoints config now targetOf messageCid eps cache).1 := by
  -- The cache that reaches the rest of the list differs by the one key that was marked.
  induction eps generalizing cache with
  | nil => exact ⟨List.Subset.refl _, List.nodup_nil, by simp [uniqueEndpoints], by simp⟩
  | cons ep rest ih =>
    generalize hkey : deliveryKey (targetOf ep.url) messageCid = key
    have hcheck := Expiring.check_recent key now cache
    have hafter := fun k => Expiring.recent_check key k now cache
    have hkeyed' := hkeyed.check key now
    simp only [uniqueEndpoints, isRecentlyForwarded, markForwarded, hkey]
    generalize Expiring.check key now cache = looked at hcheck hafter hkeyed'
    by_cases hrecent : looked.1 = true
    · rw [if_pos hrecent]
      apply (ih looked.2 hkeyed').skip hafter
      rw [hkey]
      exact hcheck.mp hrecent
    · rw [if_neg hrecent]
      apply (ih _ (hkeyed'.mark _ _ _ _)).take
      · intro k
        rw [Expiring.recent_mark hkeyed', hafter, hkey]
      · rw [hkey, ← hcheck]
        exact hrecent

end Filter

/-! ## One delivery -/

/-- The sends are the owed pairs, each once. -/
def Complete (owed : String × Did → Prop) (sends : List (String × Did)) : Prop :=
  sends.Nodup ∧ ∀ pair, pair ∈ sends ↔ owed pair

/-- Owed pairs the flattening does not confuse: one URL for each target, shared with no other
target, no target reached recently, and batches that advance. -/
structure Separable (config : DwnServerConfig) (now : Nat) (messageCid : String)
    (cache : Expiring.Cache String) (owed : String × Did → Prop) : Prop where
  advances : (∃ pair, owed pair) → 0 < config.deliveryMaxConcurrency
  fresh : ∀ url did, owed (url, did) → ¬ Expiring.Recent cache now (deliveryKey did messageCid)
  single : ∀ url url' did, owed (url, did) → owed (url', did) → url = url'
  unshared : ∀ url did did', owed (url, did) → owed (url, did') → did = did'

section Delivery
variable {config : DwnServerConfig} {now : Nat} {messageCid : String}
  {targets : List DeliveryTarget} {cache : Expiring.Cache String}

theorem owed_of_mem_targetPairs {ep : DwnEndpoint} {did : Did}
    (h : (ep, did) ∈ targetPairs targets) : Owed targets (ep.url, did) := by
  obtain ⟨target, htarget, hdid, hep⟩ := mem_targetPairs.mp h
  exact ⟨target, htarget, hdid, ep, hep, rfl⟩

theorem exists_mem_targetPairs {url : String} {did : Did} (h : Owed targets (url, did)) :
    ∃ ep, ep.url = url ∧ (ep, did) ∈ targetPairs targets := by
  obtain ⟨target, htarget, hdid, ep, hep, hurl⟩ := h
  exact ⟨ep, hurl, mem_targetPairs.mpr ⟨target, htarget, hdid, hep⟩⟩

/-- The owner the map names for the URL of a flattened endpoint is owed that URL. -/
theorem owed_endpointTarget {ep : DwnEndpoint} (h : ep ∈ (targetPairs targets).map Prod.fst) :
    Owed targets (ep.url, (endpointTarget targets ep.url).getD "") := by
  obtain ⟨⟨_, did⟩, hpair, rfl⟩ := List.mem_map.mp h
  obtain ⟨ep', owner, howner, hurl, hmem⟩ := endpointTarget_some hpair
  rw [howner, Option.getD_some, ← hurl]
  exact owed_of_mem_targetPairs hmem

theorem exists_kept (config : DwnServerConfig) (now : Nat) (messageCid : String)
    (targets : List DeliveryTarget) (hkeyed : Expiring.Keyed cache) :
    ∃ (kept : List DwnEndpoint) (targetOf : String → Did),
      (deliverToTargets config now messageCid targets cache).1 =
        (inBatches config.deliveryMaxConcurrency kept).map (fun ep => (ep.url, targetOf ep.url)) ∧
      (∀ ep ∈ (targetPairs targets).map Prod.fst, Owed targets (ep.url, targetOf ep.url)) ∧
      Kept now targetOf messageCid ((targetPairs targets).map Prod.fst) cache kept :=
  ⟨_, fun url => (endpointTarget targets url).getD "", rfl,
    fun _ hep => owed_endpointTarget hep, kept_uniqueEndpoints config _ cache hkeyed⟩

theorem Separable.complete (h : Separable config now messageCid cache (Owed targets))
    (hkeyed : Expiring.Keyed cache) :
    Complete (Owed targets) (deliverToTargets config now messageCid targets cache).1 := by
  obtain ⟨kept, targetOf, hsends, howed, hkept⟩ := exists_kept config now messageCid targets hkeyed
  have hbatches : inBatches config.deliveryMaxConcurrency kept = kept := by
    cases kept with
    | nil => rfl
    | cons ep rest =>
      have hep : ep ∈ (targetPairs targets).map Prod.fst := hkept.subset (by simp)
      exact inBatches_eq (h.advances ⟨_, howed ep hep⟩) _
  rw [hsends, hbatches]
  constructor
  · -- Two sends for one pair would be two kept endpoints of one target.
    apply List.Nodup.of_map Prod.snd
    rw [List.map_map]
    exact hkept.distinct
  · rintro ⟨url, did⟩
    constructor
    · intro hmem
      obtain ⟨ep, hep, heq⟩ := List.mem_map.mp hmem
      rw [← heq]
      exact howed ep (hkept.subset hep)
    · intro hpair
      obtain ⟨ep, rfl, hep⟩ := exists_mem_targetPairs hpair
      have hmem : ep ∈ (targetPairs targets).map Prod.fst := List.mem_map.mpr ⟨_, hep, rfl⟩
      have howner : targetOf ep.url = did := h.unshared ep.url _ _ (howed ep hmem) hpair
      have hfresh := h.fresh ep.url did hpair
      rw [← howner] at hfresh
      obtain ⟨ep', hep', htarget⟩ := hkept.served ep hmem hfresh
      have hpair' := howed ep' (hkept.subset hep')
      rw [htarget, howner] at hpair'
      apply List.mem_map.mpr
      refine ⟨ep', hep', ?_⟩
      rw [htarget, howner, h.single _ _ did hpair' hpair]

theorem Separable.of_complete (hkeyed : Expiring.Keyed cache)
    (h : Complete (Owed targets) (deliverToTargets config now messageCid targets cache).1) :
    Separable config now messageCid cache (Owed targets) := by
  obtain ⟨kept, targetOf, hsends, -, hkept⟩ := exists_kept config now messageCid targets hkeyed
  rw [hsends] at h
  -- A pair that is sent comes from a kept endpoint with its URL and its owner.
  have hsent : ∀ url did, Owed targets (url, did) → 0 < config.deliveryMaxConcurrency ∧
      ∃ ep ∈ kept, ep.url = url ∧ targetOf ep.url = did := by
    intro url did hpair
    have hmem := (h.2 (url, did)).mpr hpair
    obtain hzero | hpos := Nat.eq_zero_or_pos config.deliveryMaxConcurrency
    · rw [hzero, inBatches_zero] at hmem
      cases hmem
    · rw [inBatches_eq hpos] at hmem
      obtain ⟨ep, hep, heq⟩ := List.mem_map.mp hmem
      cases heq
      exact ⟨hpos, ep, hep, rfl, rfl⟩
  constructor
  · rintro ⟨⟨url, did⟩, hpair⟩
    exact (hsent url did hpair).1
  · intro url did hpair
    obtain ⟨-, ep, hep, -, rfl⟩ := hsent url did hpair
    exact hkept.fresh ep hep
  · intro url url' did hpair hpair'
    obtain ⟨-, ep, hep, rfl, hdid⟩ := hsent url did hpair
    obtain ⟨-, ep', hep', rfl, hdid'⟩ := hsent url' did hpair'
    have heq : ep = ep' := List.inj_on_of_nodup_map hkept.distinct hep hep' (hdid.trans hdid'.symm)
    rw [heq]
  · intro url did did' hpair hpair'
    obtain ⟨-, ep, -, hurl, rfl⟩ := hsent url did hpair
    obtain ⟨-, ep', -, hurl', rfl⟩ := hsent url did' hpair'
    rw [hurl, hurl']

end Delivery

/-! ## One accepted write -/

/-- The pairs an accepted write is owed to: each participant with each of its endpoint URLs. -/
def OwedTo (directory : Directory) (tenant : Did) (message : RecordsWriteMessage)
    (pair : String × Did) : Prop :=
  IsParticipant directory tenant message pair.2 ∧
    ∃ ep ∈ directory.resolveDwnEndpoints pair.2, ep.url = pair.1

/-- The targets of a delivery are owed what the participants are owed. -/
theorem owed_iff {directory : Directory} {tenant : Did} {message : RecordsWriteMessage}
    {actionRecipients : List (List Did)}
    (h : directory.directActionRecipients tenant message = some actionRecipients)
    (pair : String × Did) :
    Owed ((resolveDeliveryTargets directory (collectTargetDids message.descriptor.recipient
      actionRecipients)).filter fun target => target.did ≠ tenant) pair ↔
      OwedTo directory tenant message pair := by
  obtain ⟨url, did⟩ := pair
  constructor
  · rintro ⟨target, htarget, rfl, ep, hep, hurl⟩
    obtain ⟨htarget, htenant⟩ := List.mem_filter.mp htarget
    obtain ⟨did, hdid, heq⟩ := List.mem_filterMap.mp htarget
    dsimp only at heq
    split at heq
    · cases heq
      exact ⟨⟨of_decide_eq_true htenant, actionRecipients, h, mem_collectTargetDids.mp hdid⟩, ep, hep,
        hurl⟩
    · cases heq
  · rintro ⟨⟨htenant, actionRecipients', h', hfound⟩, ep, hep, hurl⟩
    cases h.symm.trans h'
    refine ⟨⟨did, directory.resolveDwnEndpoints did⟩, ?_, rfl, ep, hep, hurl⟩
    apply List.mem_filter.mpr
    refine ⟨List.mem_filterMap.mpr ⟨did, mem_collectTargetDids.mpr hfound, ?_⟩, by simpa using htenant⟩
    dsimp only
    rw [if_pos (List.length_pos_of_mem hep)]

structure DedupState where
  forwardedCids : Expiring.Cache String := []
  keyed : Expiring.Keyed forwardedCids := by exact List.nodup_nil

/-- An accepted write at a directly delivered path reaches exactly the endpoints of its
participants, each once, if and only if every participant with an endpoint has a single URL that
no other participant has, and none of them was reached for this record recently. -/
theorem dispatchDelivery_complete_iff (config : DwnServerConfig) (directory : Directory)
    (tenant : Did) (now : Nat) (message : RecordsWriteMessage) (state : DedupState)
    (henabled : config.deliveryEnabled = true)
    (hdirect : (directory.directActionRecipients tenant message).isSome = true) :
    Complete (OwedTo directory tenant message)
      (dispatchDelivery config directory tenant now (.recordsWrite message) 202
        state.forwardedCids).1 ↔
      Separable config now message.recordId state.forwardedCids
        (OwedTo directory tenant message) := by
  obtain ⟨actionRecipients, hactions⟩ := Option.isSome_iff_exists.mp hdirect
  have howed := owed_iff hactions
  have hsends : (dispatchDelivery config directory tenant now (.recordsWrite message) 202
      state.forwardedCids).1 = (deliverToTargets config now message.recordId
        ((resolveDeliveryTargets directory (collectTargetDids message.descriptor.recipient
          actionRecipients)).filter fun target => target.did ≠ tenant) state.forwardedCids).1 := by
    simp only [dispatchDelivery, henabled, deliverToParticipants, hactions, dispatchCid]
    rfl
  rw [hsends]
  generalize (resolveDeliveryTargets directory (collectTargetDids message.descriptor.recipient
    actionRecipients)).filter (fun target => target.did ≠ tenant) = targets at howed
  have hsame : OwedTo directory tenant message = Owed targets := by
    funext pair
    exact propext (howed pair).symm
  rw [hsame]
  constructor
  · intro h
    exact Separable.of_complete state.keyed h
  · intro h
    exact h.complete state.keyed

/-- A post of the tenant `did:alice`, addressed to nobody in particular. -/
def post : RecordsWriteMessage where
  recordId := "post"
  contextId := "post"
  descriptor :=
    { module := "https://forum.example", modulePath := "post", dataCid := "data", dataSize := 4
      dataFormat := "text/plain", dateCreated := "2025-01-01", messageTimestamp := "2025-01-01" }
  authorization := { signature := "post", signer := "did:alice" }

/-- One `$actions` rule whose role is held by the DIDs of the list. -/
def directoryOf (endpoints : List (Did × List String)) : Directory where
  directActionRecipients := fun _ _ => some [endpoints.map Prod.fst]
  resolveDwnEndpoints := fun did => ((endpoints.lookup did).getD []).map fun url => ⟨url, true⟩

def bobAndCarol : Directory :=
  directoryOf [("did:bob", ["https://bob.example"]), ("did:carol", ["https://carol.example"])]

theorem owedTo_bobAndCarol {pair : String × Did} (h : OwedTo bobAndCarol "did:alice" post pair) :
    pair = ("https://bob.example", "did:bob") ∨ pair = ("https://carol.example", "did:carol") := by
  obtain ⟨url, did⟩ := pair
  obtain ⟨⟨-, actionRecipients, hactions, hfound⟩, ep, hep, rfl⟩ := h
  cases hactions
  have hdid : did = "did:bob" ∨ did = "did:carol" := by
    simpa [post, bobAndCarol, directoryOf] using hfound
  obtain rfl | rfl := hdid
  · left
    rw [List.mem_singleton.mp (show ep ∈ [⟨"https://bob.example", true⟩] from hep)]
  · right
    rw [List.mem_singleton.mp (show ep ∈ [⟨"https://carol.example", true⟩] from hep)]

theorem dispatchDelivery_complete_bobAndCarol :
    Complete (OwedTo bobAndCarol "did:alice" post)
      (dispatchDelivery { baseUrl := "https://alice.example" } bobAndCarol "did:alice" 0
        (.recordsWrite post) 202 ({} : DedupState).forwardedCids).1 := by
  apply (dispatchDelivery_complete_iff _ _ _ _ _ {} rfl rfl).mpr
  constructor
  · intro _
    decide
  · intro url did _ hrecent
    obtain ⟨expiry, hlookup, -⟩ := hrecent
    cases hlookup
  · intro url url' did h h'
    have hpair := owedTo_bobAndCarol h
    have hpair' := owedTo_bobAndCarol h'
    simp only [Prod.mk.injEq] at hpair hpair'
    obtain ⟨rfl, rfl⟩ | ⟨rfl, rfl⟩ := hpair
    · simpa [eq_comm] using hpair'
    · simpa [eq_comm] using hpair'
  · intro url did did' h h'
    have hpair := owedTo_bobAndCarol h
    have hpair' := owedTo_bobAndCarol h'
    simp only [Prod.mk.injEq] at hpair hpair'
    obtain ⟨rfl, rfl⟩ | ⟨rfl, rfl⟩ := hpair
    · simpa [eq_comm] using hpair'
    · simpa [eq_comm] using hpair'

/-- A participant with a second endpoint: the de-duplication key names the participant only, so
its second endpoint is dropped as a duplicate of the first. -/
theorem second_endpoint_dropped :
    ¬ Complete (OwedTo (directoryOf [("did:bob", ["https://one.example", "https://two.example"])])
        "did:alice" post)
      (dispatchDelivery { baseUrl := "https://alice.example" }
        (directoryOf [("did:bob", ["https://one.example", "https://two.example"])]) "did:alice" 0
        (.recordsWrite post) 202 []).1 := by
  intro h
  have howed : OwedTo (directoryOf [("did:bob", ["https://one.example", "https://two.example"])])
      "did:alice" post ("https://two.example", "did:bob") := by
    refine ⟨⟨by decide, [["did:bob"]], rfl, Or.inr ⟨["did:bob"], by simp, by simp⟩⟩, ?_⟩
    exact ⟨⟨"https://two.example", true⟩, by decide, rfl⟩
  have hsent := (h.2 _).mpr howed
  revert hsent
  decide

end EnboxDwn.DeliveryService
