import EnboxDwn.DidDhtRecords

/-! Which did:dht documents are read back from their DNS packet as they were. -/
namespace EnboxDwn.DidDht
open SeparatedText

variable [C : Crypto]

/-! ## Created documents -/

def createdMethods (didUri : String) (identityKey : Jwk) (keys : Nat → KeyMaterial) :
    List DidCreateVerificationMethod → List DidVerificationMethod
  | [] => []
  | vm :: vms => createMethod didUri identityKey (keys 0) vm ::
      createdMethods didUri identityKey (fun n => keys (n + 1)) vms

/-- Every relationship lists ids of methods of the document, and at least one. -/
def DidDocument.Related (document : DidDocument) : Prop :=
  ∀ relationship ids, document.relationship relationship = some ids →
    ids ≠ [] ∧ ∀ id ∈ ids, ∃ method ∈ document.verificationMethod.getD [], method.id = id

omit C in
theorem related_addMethod {document : DidDocument} (h : document.Related)
    (method : DidVerificationMethod) (purposes : List DidVerificationRelationship) :
    (document.addMethod method purposes).Related ∧
      (document.addMethod method purposes).verificationMethod =
        some (document.verificationMethod.getD [] ++ [method]) ∧
      (document.addMethod method purposes).id = document.id ∧
      (document.addMethod method purposes).alsoKnownAs = document.alsoKnownAs ∧
      (document.addMethod method purposes).controller = document.controller ∧
      (document.addMethod method purposes).service = document.service := by
  have hstart : DidDocument.Related { document with
      verificationMethod := some (document.verificationMethod.getD [] ++ [method]) } := by
    intro relationship ids hids
    obtain ⟨hne, hall⟩ := h relationship ids hids
    refine ⟨hne, fun id hid => ?_⟩
    obtain ⟨m, hm, heq⟩ := hall id hid
    exact ⟨m, List.mem_append_left _ hm, heq⟩
  have hfold : ∀ (purposes : List DidVerificationRelationship) (d : DidDocument), d.Related →
      (∃ m ∈ d.verificationMethod.getD [], m.id = method.id) →
      let d' := purposes.foldl (fun d purpose => d.addPurpose method.id purpose) d
      d'.Related ∧ d'.verificationMethod = d.verificationMethod ∧ d'.id = d.id ∧
        d'.alsoKnownAs = d.alsoKnownAs ∧ d'.controller = d.controller ∧ d'.service = d.service := by
    intro purposes
    induction purposes with
    | nil => exact fun d hd _ => ⟨hd, rfl, rfl, rfl, rfl, rfl⟩
    | cons purpose purposes ih =>
      intro d hd hown
      refine ih (d.addPurpose method.id purpose) ?_ hown
      intro relationship ids hids
      simp only [DidDocument.addPurpose] at hids
      split at hids
      · rw [Option.some.injEq] at hids
        subst hids
        refine ⟨by simp, fun id hid => ?_⟩
        cases List.mem_append.mp hid with
        | inl hid =>
          cases hbefore : d.relationship relationship with
          | none => simp [hbefore] at hid
          | some ids =>
            rw [hbefore, Option.getD_some] at hid
            exact (hd relationship ids hbefore).2 id hid
        | inr hid =>
          rw [List.mem_singleton.mp hid]
          exact hown
      · exact hd relationship ids hids
  exact hfold purposes _ hstart ⟨method, by simp, rfl⟩

theorem addMethods_spec (identityKey : Jwk) {document : DidDocument} (h : document.Related)
    (keys : Nat → KeyMaterial) (vms : List DidCreateVerificationMethod) :
    (addMethods identityKey document keys vms).Related ∧
      (addMethods identityKey document keys vms).verificationMethod.getD [] =
        document.verificationMethod.getD [] ++
          createdMethods document.id identityKey keys vms ∧
      (vms ≠ [] → (addMethods identityKey document keys vms).verificationMethod.isSome = true) ∧
      (document.verificationMethod.isSome = true →
        (addMethods identityKey document keys vms).verificationMethod.isSome = true) ∧
      (addMethods identityKey document keys vms).id = document.id ∧
      (addMethods identityKey document keys vms).alsoKnownAs = document.alsoKnownAs ∧
      (addMethods identityKey document keys vms).controller = document.controller ∧
      (addMethods identityKey document keys vms).service = document.service := by
  induction vms generalizing document keys with
  | nil => exact ⟨h, by simp [addMethods, createdMethods], by simp, id, rfl, rfl, rfl, rfl⟩
  | cons vm vms ih =>
    obtain ⟨hrelated, hmethods, hid, haka, hcontroller, hservice⟩ := related_addMethod h
      (createMethod document.id identityKey (keys 0) vm) vm.purposes
    obtain ⟨hrelated', hmethods', -, hsome, hid', haka', hcontroller', hservice'⟩ :=
      ih hrelated fun n => keys (n + 1)
    rw [hid] at hmethods' hid'
    rw [hmethods, Option.getD_some] at hmethods'
    refine ⟨hrelated', ?_, fun _ => hsome (by rw [hmethods]; rfl), fun _ => hsome (by rw [hmethods]; rfl),
      hid', haka'.trans haka, hcontroller'.trans hcontroller, hservice'.trans hservice⟩
    rw [addMethods, hmethods', createdMethods]
    simp

/-- No text in the options contains a separator. -/
structure DidDhtCreateOptions.Plain (options : DidDhtCreateOptions) : Prop where
  alsoKnownAs : ∀ ids ∈ options.alsoKnownAs, ∀ id ∈ ids, Lacks ';' id ∧ Lacks ',' id
  controller : ∀ did, options.controllers = some (.one did) → Lacks ';' did ∧ Lacks ',' did
  controllers : ∀ dids, options.controllers = some (.many dids) →
    ∀ did ∈ dids, Lacks ';' did ∧ Lacks ',' did
  methodId : ∀ vm ∈ options.verificationMethods, ∀ id ∈ vm.id, Lacks ';' id ∧ Lacks ',' id
  methodController : ∀ vm ∈ options.verificationMethods, ∀ did ∈ vm.controller,
    Lacks ';' did ∧ Lacks ',' did
  serviceId : ∀ service ∈ options.services, Lacks ';' service.id ∧ Lacks ',' service.id
  services : ∀ service ∈ options.services, service.Plain

/-- The options whose documents are read back: no empty list of aliases, no list of fewer than two
controllers, no identity key after the first method, no key on P-256, and canonical services. -/
structure DidDhtCreateOptions.Canonical (options : DidDhtCreateOptions) : Prop where
  alsoKnownAs : options.alsoKnownAs ≠ some []
  controllers : ∀ dids, options.controllers = some (.many dids) → 2 ≤ dids.length
  identity : ∀ vm ∈ options.verificationMethods.tail, isIdentityKey vm = false
  curve : ∀ vm ∈ options.verificationMethods, isIdentityKey vm = false →
    vm.algorithm.isP256 = false
  services : ∀ service ∈ options.services, service.Canonical

def methodFragment (keys : Nat → KeyMaterial) (n : Nat) (vm : DidCreateVerificationMethod) : String :=
  match vm.id with
  | some id => (extractDidFragment id).getD "undefined"
  | none => C.computeJwkThumbprint (getPublicKey vm.algorithm (keys n))

def keyOf (n : Nat) (vm : DidCreateVerificationMethod) : Algorithm × Nat :=
  if isIdentityKey vm then (.ed25519, 0) else (vm.algorithm, n)

section Created
variable {keys : Nat → KeyMaterial}

omit C in
theorem lacks_fragment (id : String) : Lacks '#' (fragment id) ∧
    ∀ c, Lacks c id → Lacks c (fragment id) :=
  lacks_of_mem_split (List.getLast_mem (split_ne_nil id '#'))

omit C in
theorem fragment_of_lacks {text : String} (h : Lacks '#' text) : fragment text = text := by
  simp [fragment, split_of_lacks h]

theorem kid_getPublicKey (h : Faithful keys) (algorithm : Algorithm) (key : KeyMaterial) :
    (getPublicKey algorithm key).kid =
      some (C.computeJwkThumbprint (getPublicKey algorithm key)) := by
  unfold getPublicKey
  exact congrArg some (h.thumbprint _ _ _).symm

theorem createMethod_eq (h : Faithful keys) (didUri : String) (n : Nat)
    (vm : DidCreateVerificationMethod) :
    createMethod didUri (getPublicKey .ed25519 (keys 0)) (keys n) vm =
      generatedMethod didUri (methodFragment keys n vm) (vm.controller.getD didUri)
        (getPublicKey (keyOf n vm).1 (keys (keyOf n vm).2)) := by
  unfold createMethod methodFragment keyOf generatedMethod
  cases hid : vm.id with
  | some id =>
    by_cases hidentity : isIdentityKey vm = true
    · simp [hidentity]
    · simp [hidentity]
  | none =>
    have hidentity : isIdentityKey vm = false := by simp [isIdentityKey, hid]
    have hkid : (canonicalize (getPublicKey vm.algorithm (keys n))).kid =
        some (C.computeJwkThumbprint (getPublicKey vm.algorithm (keys n))) :=
      kid_getPublicKey h vm.algorithm (keys n)
    obtain ⟨⟨hne, -⟩, hhash, -⟩ := h.thumbprintText n vm.algorithm
    simp [hidentity, hkid, extractDidFragment, hne, fragment_of_lacks hhash]

theorem methodFragment_eq_zero (h : Faithful keys) (n : Nat) (vm : DidCreateVerificationMethod) :
    methodFragment keys n vm = "0" ↔ isIdentityKey vm = true := by
  unfold methodFragment isIdentityKey
  cases hid : vm.id with
  | none => simpa using (h.thumbprintText n vm.algorithm).1.2
  | some id =>
    by_cases hempty : id = ""
    · subst hempty
      dsimp only
      decide
    · simp [extractDidFragment, hempty]

theorem lacks_methodFragment (h : Faithful keys) (n : Nat) {vm : DidCreateVerificationMethod}
    (hplain : ∀ id ∈ vm.id, Lacks ';' id ∧ Lacks ',' id) :
    Lacks '#' (methodFragment keys n vm) ∧ Lacks propertySeparator (methodFragment keys n vm) := by
  unfold methodFragment
  cases hid : vm.id with
  | none => exact (h.thumbprintText n vm.algorithm).2
  | some id =>
    by_cases hempty : id = ""
    · subst hempty
      dsimp only
      decide
    · obtain ⟨hhash, hchars⟩ := lacks_fragment id
      simp only [extractDidFragment, hempty, if_false, Option.getD_some]
      exact ⟨hhash, hchars ';' (hplain id (by simp [hid])).1⟩

end Created

def curveOf : Algorithm → Curve
  | .ed25519 => .ed25519
  | .es256k | .secp256k1 => .secp256k1
  | .es256 | .p256 | .secp256r1 => .p256
  | .x25519 => .x25519

def createdMethod (didUri : String) (keys : Nat → KeyMaterial) (p : DidCreateVerificationMethod × Nat) :
    DidVerificationMethod :=
  createMethod didUri (getPublicKey .ed25519 (keys 0)) (keys (p.2 + 1)) p.1

def createdKey (keys : Nat → KeyMaterial) (p : DidCreateVerificationMethod × Nat) : Jwk :=
  getPublicKey (keyOf (p.2 + 1) p.1).1 (keys (keyOf (p.2 + 1) p.1).2)

def createdData (didUri : String) (keys : Nat → KeyMaterial) (p : DidCreateVerificationMethod × Nat) :
    TxtData :=
  methodData didUri (createdMethod didUri keys p) (canonicalize (createdKey keys p))
    (curveOf (keyOf (p.2 + 1) p.1).1)

theorem keyConverter_curveOf (algorithm : Algorithm) (key : KeyMaterial) :
    keyConverter (some (getPublicKey algorithm key).crv) = .ok (curveOf algorithm) ∧
      (algorithmToKeyTypeMap (getPublicKey algorithm key).crv).isSome = true := by
  cases algorithm <;> exact ⟨rfl, rfl⟩

section Methods
variable {keys : Nat → KeyMaterial} {p : DidCreateVerificationMethod × Nat}

theorem createdMethods_eq (didUri : String) (identityKey : Jwk) (keys : Nat → KeyMaterial) (k : Nat)
    (vms : List DidCreateVerificationMethod) :
    createdMethods didUri identityKey (fun n => keys (n + k + 1)) vms =
      (vms.zipIdx k).map fun p => createMethod didUri identityKey (keys (p.2 + 1)) p.1 := by
  induction vms generalizing k with
  | nil => rfl
  | cons vm vms ih =>
    rw [createdMethods, List.zipIdx_cons, List.map_cons, ← ih]
    have hshift : (fun n => keys (n + 1 + k + 1)) = fun n => keys (n + (k + 1) + 1) := by
      funext n
      congr 1
      omega
    rw [hshift]
    simp

theorem process_created (h : Faithful keys) (didDocument : DidDocument)
    (hplain : ∀ id ∈ p.1.id, Lacks ';' id ∧ Lacks ',' id) :
    processVerificationMethodForDnsPacket didDocument p.2 (createdMethod didDocument.id keys p) =
      .ok (methodFragment keys (p.2 + 1) p.1,
        methodRecord p.2 (createdData didDocument.id keys p)) := by
  obtain ⟨hcurve, htype⟩ := keyConverter_curveOf (keyOf (p.2 + 1) p.1).1
    (keys (keyOf (p.2 + 1) p.1).2)
  obtain ⟨keyType, htype⟩ := Option.isSome_iff_exists.mp htype
  have heq := createMethod_eq h didDocument.id (p.2 + 1) p.1
  have hkey : (createdMethod didDocument.id keys p).publicKeyJwk =
      some (canonicalize (createdKey keys p)) := by
    rw [createdMethod, heq]
    rfl
  have hfragment : fragment (createdMethod didDocument.id keys p).id =
      methodFragment keys (p.2 + 1) p.1 := by
    rw [createdMethod, heq]
    exact fragment_append _ (lacks_methodFragment h (p.2 + 1) hplain).1
  rw [process_eq p.2 hkey htype hcurve, hfragment]
  rfl

omit C in
theorem recordId_injective {m n : Nat} (h : "k" ++ toString m = "k" ++ toString n) : m = n := by
  have hlist : Nat.toDigits 10 m = Nat.toDigits 10 n := by
    simpa [Nat.repr] using congrArg String.toList h
  have hnumber := congrArg (fun digits => Nat.ofDigitChars 10 digits 0) hlist
  rwa [Nat.ofDigitChars_toDigits (by decide) (by decide),
    Nat.ofDigitChars_toDigits (by decide) (by decide)] at hnumber

omit C in
theorem recordId_eq_k0 (n : Nat) : "k" ++ toString n = "k0" ↔ n = 0 := by
  constructor
  · exact fun h => recordId_injective (n := 0) h
  · rintro rfl
    rfl

omit C in
theorem generatedMethod_inj {didUri f f' controller : String} {publicKey : Jwk} :
    generatedMethod didUri f controller publicKey = generatedMethod didUri f' controller publicKey ↔
      f = f' := by
  constructor
  · intro h
    have hid : didUri ++ "#" ++ f = didUri ++ "#" ++ f' := congrArg DidVerificationMethod.id h
    apply String.toList_inj.mp
    simpa using congrArg String.toList hid
  · rintro rfl
    rfl

/-- A created method is read back if its key is not on P-256 and it is the identity key exactly
when it is the first method. -/
theorem readVerificationMethod_created (h : Faithful keys) (didUri : String)
    (hplain : ∀ id ∈ p.1.id, Lacks ';' id ∧ Lacks ',' id)
    (hcontroller : ∀ did ∈ p.1.controller, Lacks ';' did ∧ Lacks ',' did) :
    readVerificationMethod didUri ("k" ++ toString p.2) (createdData didUri keys p) =
        .ok (createdMethod didUri keys p) ↔
      (keyOf (p.2 + 1) p.1).1.isP256 = false ∧ (p.2 = 0 ↔ isIdentityKey p.1 = true) := by
  obtain ⟨hhash, hsep⟩ := lacks_methodFragment h (p.2 + 1) hplain
  have hcsep : p.1.controller.getD didUri ≠ didUri →
      Lacks propertySeparator (p.1.controller.getD didUri) := by
    cases hc : p.1.controller with
    | none => exact fun hne => absurd rfl hne
    | some did => exact fun _ => (hcontroller did (by simp [hc])).1
  have heq : createdMethod didUri keys p = generatedMethod didUri (methodFragment keys (p.2 + 1) p.1)
      (p.1.controller.getD didUri) (createdKey keys p) := createMethod_eq h didUri (p.2 + 1) p.1
  unfold createdData
  rw [heq]
  unfold createdKey
  cases hp256 : (keyOf (p.2 + 1) p.1).1.isP256 with
  | true =>
    have hcurve : curveOf (keyOf (p.2 + 1) p.1).1 = .p256 := by
      revert hp256
      generalize (keyOf (p.2 + 1) p.1).1 = algorithm
      cases algorithm <;> simp [Algorithm.isP256, curveOf]
    rw [hcurve, readVerificationMethod_p256 h didUri hhash hsep hcsep hp256]
    simp
  | false =>
    rw [readVerificationMethod_methodData h didUri hhash hsep hcsep hp256
      (keyConverter_curveOf _ _).1, Except.ok.injEq, generatedMethod_inj]
    have hthumb := (h.thumbprintText (keyOf (p.2 + 1) p.1).2 (keyOf (p.2 + 1) p.1).1).1.2
    simp only [recordId_eq_k0, ← methodFragment_eq_zero h (p.2 + 1) p.1, true_and]
    by_cases hfirst : p.2 = 0
    · simp only [hfirst, if_true, true_iff]
      exact eq_comm
    · simp only [hfirst, if_false, false_iff]
      by_cases hzero : methodFragment keys (p.2 + 1) p.1 = "0"
      · simpa [hzero] using hthumb
      · simp [hzero]

end Methods

/-! ## Relationships -/

section Root
variable (document : DidDocument) (methodIds : List String)

omit C in
theorem recordName_injective : Function.Injective DidVerificationRelationship.recordName := by
  intro a b h
  cases a <;> cases b <;> first | rfl | (exact absurd h (by decide))

omit C in
theorem key_relationship {relationship : DidVerificationRelationship} {lookup : Assoc String}
    {p : String × String}
    (hp : p ∈ appendVerificationRelationshipToRootRecord document lookup relationship) :
    p.1 = relationship.recordName := by
  unfold appendVerificationRelationshipToRootRecord at hp
  cases hids : document.relationship relationship with
  | none => simp [hids] at hp
  | some ids =>
    simp only [hids, List.mem_singleton] at hp
    rw [hp]

omit C in
theorem lacks_recordIds {p : String × String} (hp : p ∈ recordIds methodIds) {c : Char}
    (hc : c.isDigit = false) (hk : c ≠ 'k') : Lacks c p.2 := by
  obtain ⟨q, -, rfl⟩ := List.mem_map.mp hp
  exact lacks_append.mpr ⟨by simpa [Lacks] using hk, toString_lacks q.2 hc⟩

omit C in
theorem keys_relationship (lookup : Assoc String) (relationship : DidVerificationRelationship) :
    List.Sublist
      ((appendVerificationRelationshipToRootRecord document lookup relationship).map Prod.fst)
      [relationship.recordName] := by
  unfold appendVerificationRelationshipToRootRecord
  cases document.relationship relationship with
  | none => simp
  | some ids => simp

omit C in
theorem keys_rootRecord : List.Sublist ((rootRecord document methodIds).map Prod.fst)
    (["v"] ++ ["vm"] ++ ["auth", "asm", "agm", "inv", "del"] ++ ["svc"]) := by
  unfold rootRecord
  simp only [List.map_append]
  refine ((List.Sublist.append (List.Sublist.refl _) ?_).append ?_).append ?_
  · split <;> simp
  · have hkeys := keys_relationship document
      (Assoc.setAll [] (recordIds methodIds))
    simp only [DidVerificationRelationship.all, List.flatMap_cons, List.flatMap_nil, List.map_append]
    exact (hkeys .authentication).append ((hkeys .assertionMethod).append ((hkeys .keyAgreement).append
      ((hkeys .capabilityInvocation).append ((hkeys .capabilityDelegation).append
        (List.Sublist.refl _)))))
  · split <;> simp

omit C in
theorem lacks_lookup (key : String) {c : Char} (hc : c.isDigit = false) (hk : c ≠ 'k') :
    Lacks c ((Assoc.get (Assoc.setAll [] (recordIds methodIds)) key).getD "") := by
  cases hget : Assoc.get (Assoc.setAll [] (recordIds methodIds)) key with
  | none => simp [Lacks]
  | some value =>
    have hmem := (Assoc.mem_setAll (Assoc.mem_of_get hget)).resolve_left (by simp)
    exact lacks_recordIds methodIds hmem hc hk

omit C in
theorem writable_rootRecord : Writable (rootRecord document methodIds) := by
  refine ⟨(keys_rootRecord document methodIds).nodup (by decide), ?_, ?_⟩
  · intro p hp
    have hmem := (keys_rootRecord document methodIds).subset (List.mem_map_of_mem hp)
    revert hmem
    generalize p.1 = key
    revert key
    decide
  · intro p hp
    simp only [rootRecord, List.mem_append, List.mem_flatMap] at hp
    obtain ((hp | hp) | ⟨relationship, -, hp⟩) | hp := hp
    · rw [List.mem_singleton.mp hp]
      simp only
      decide
    · split at hp
      · cases hp
      · rw [List.mem_singleton.mp hp]
        refine lacks_join (by decide) fun value hvalue => ?_
        obtain ⟨q, hq, rfl⟩ := List.mem_map.mp hvalue
        exact lacks_recordIds methodIds hq (by decide) (by decide)
    · unfold appendVerificationRelationshipToRootRecord at hp
      cases hids : document.relationship relationship with
      | none => simp [hids] at hp
      | some ids =>
        simp only [hids, List.mem_singleton] at hp
        rw [hp]
        refine lacks_join (by decide) fun value hvalue => ?_
        obtain ⟨id, -, rfl⟩ := List.mem_map.mp hvalue
        exact lacks_lookup methodIds (fragment id) (by decide) (by decide)
    · split at hp
      · cases hp
      · rw [List.mem_singleton.mp hp]
        refine lacks_join (by decide) fun value hvalue => ?_
        obtain ⟨q, -, rfl⟩ := List.mem_map.mp hvalue
        exact lacks_append.mpr ⟨by decide, toString_lacks q.2 (by decide)⟩

def rootData : TxtData :=
  .text (join ((rootRecord document methodIds).map writePair) propertySeparator)

omit C in
theorem property_rootData (relationship : DidVerificationRelationship) :
    property (parseTxtDataToObject (rootData document methodIds)) relationship.recordName =
      (document.relationship relationship).map fun ids => join (ids.map fun id =>
        (Assoc.get (Assoc.setAll [] (recordIds methodIds)) (fragment id)).getD "") valueSeparator := by
  rw [rootData, property_parse (writable_rootRecord document methodIds) (by simp [rootRecord])]
  have hfixed : ∀ key ∈ ["v", "vm", "svc"], key ≠ relationship.recordName := by
    cases relationship <;> decide
  have hvm : Assoc.get (if recordIds methodIds = [] then []
      else [("vm", join ((recordIds methodIds).map Prod.snd) valueSeparator)])
      relationship.recordName = none := by
    split
    · rfl
    · rw [Assoc.get_cons, if_neg (hfixed "vm" (by simp))]
      rfl
  have hsvc : Assoc.get (if serviceIds document = [] then []
      else [("svc", join (serviceIds document) valueSeparator)]) relationship.recordName = none := by
    split
    · rfl
    · rw [Assoc.get_cons, if_neg (hfixed "svc" (by simp))]
      rfl
  have hall : relationship ∈ DidVerificationRelationship.all := by cases relationship <;> decide
  rw [rootRecord, Assoc.get_append_or, Assoc.get_append_or, Assoc.get_append_or, hvm, hsvc,
    Assoc.get_cons, if_neg (hfixed "v" (by simp)),
    Assoc.get_flatMap recordName_injective fun _ _ hp => key_relationship document hp, if_pos hall]
  unfold appendVerificationRelationshipToRootRecord
  cases document.relationship relationship with
  | none => rfl
  | some ids =>
    rw [Assoc.get_cons, if_pos rfl]
    rfl

end Root

section Relationships
variable {didUri : String} {methods : List DidVerificationMethod}

def methodIdLookup (methods : List DidVerificationMethod) : Assoc String :=
  Assoc.setAll [] (methods.zipIdx.map fun p => ("k" ++ toString p.2, p.1.id))

omit C in
theorem lookup_lookup (hids : ∀ method ∈ methods, method.id = didUri ++ "#" ++ fragment method.id)
    {method : DidVerificationMethod} (hmethod : method ∈ methods) :
    ∃ recordId, Assoc.get (Assoc.setAll [] (recordIds (methods.map fun m => fragment m.id)))
        (fragment method.id) = some recordId ∧ recordId ≠ "" ∧
      Assoc.get (methodIdLookup methods) recordId = some method.id := by
  have hmem : fragment method.id ∈ (recordIds (methods.map fun m => fragment m.id)).map Prod.fst := by
    have hkeys : (recordIds (methods.map fun m => fragment m.id)).map Prod.fst =
        methods.map fun m => fragment m.id := by
      simp [recordIds, Function.comp_def]
    rw [hkeys]
    exact List.mem_map_of_mem hmethod
  obtain ⟨recordId, hrecord, hget⟩ := Assoc.get_setAll (o := []) hmem
  obtain ⟨⟨f, j⟩, hj, heq⟩ := List.mem_map.mp hrecord
  obtain ⟨rfl, rfl⟩ : f = fragment method.id ∧ "k" ++ toString j = recordId := by simpa using heq
  refine ⟨"k" ++ toString j, hget, by simp [← String.toList_inj], ?_⟩
  -- Methods with one fragment have one id.
  obtain ⟨other, hother, hfragment⟩ : ∃ other, methods[j]? = some other ∧
      fragment other.id = fragment method.id := by
    have := List.mem_zipIdx_iff_getElem?.mp hj
    simpa using this
  have hkey : "k" ++ toString j ∈
      (methods.zipIdx.map fun p => ("k" ++ toString p.2, p.1.id)).map Prod.fst := by
    rw [List.map_map]
    refine List.mem_map.mpr ⟨(other, j), List.mem_zipIdx_iff_getElem?.mpr hother, rfl⟩
  obtain ⟨id, hid, hgetId⟩ := Assoc.get_setAll (o := []) hkey
  obtain ⟨⟨found, i⟩, hi, heqId⟩ := List.mem_map.mp hid
  obtain ⟨hij, rfl⟩ : "k" ++ toString i = "k" ++ toString j ∧ found.id = id := by simpa using heqId
  obtain rfl := recordId_injective hij
  have hfound := List.mem_zipIdx_iff_getElem?.mp hi
  rw [hother, Option.some.injEq] at hfound
  subst hfound
  rw [methodIdLookup, hgetId, hids other (List.mem_of_getElem? hother), hfragment,
    ← hids method hmethod]

omit C in
theorem relationship_readBack {document : DidDocument} {r : Resolution} (hrelated : document.Related)
    (hmethods : document.verificationMethod.getD [] = methods)
    (hids : ∀ method ∈ methods, method.id = didUri ++ "#" ++ fragment method.id)
    (hnone : ∀ relationship, r.didDocument.relationship relationship = none)
    (hlookup : r.idLookup = methodIdLookup methods) :
    (applyVerificationRelationshipsRecord r
      (rootData document (methods.map fun m => fragment m.id))).didDocument.relationship =
      document.relationship := by
  funext relationship
  simp only [applyVerificationRelationshipsRecord, property_rootData, hnone, hlookup]
  cases hrel : document.relationship relationship with
  | none => rfl
  | some ids =>
    obtain ⟨hne, hall⟩ := hrelated relationship ids hrel
    have hback : ∀ id ∈ ids, ∃ recordId,
        Assoc.get (Assoc.setAll [] (recordIds (methods.map fun m => fragment m.id)))
          (fragment id) = some recordId ∧ recordId ≠ "" ∧
        Assoc.get (methodIdLookup methods) recordId = some id := by
      intro id hid
      obtain ⟨method, hmethod, rfl⟩ := hall id hid
      exact lookup_lookup hids (hmethods ▸ hmethod)
    have hsplit : split (join (ids.map fun id =>
        (Assoc.get (Assoc.setAll [] (recordIds (methods.map fun m => fragment m.id)))
          (fragment id)).getD "") valueSeparator) valueSeparator = ids.map fun id =>
        (Assoc.get (Assoc.setAll [] (recordIds (methods.map fun m => fragment m.id)))
          (fragment id)).getD "" := by
      refine split_join (by simpa using hne) fun part hpart => ?_
      obtain ⟨id, -, rfl⟩ := List.mem_map.mp hpart
      exact lacks_lookup _ _ (by decide) (by decide)
    rw [Option.map_some]
    generalize join (ids.map fun id =>
      (Assoc.get (Assoc.setAll [] (recordIds (methods.map fun m => fragment m.id)))
        (fragment id)).getD "") valueSeparator = value at hsplit
    have hvalue : value ≠ "" := by
      rintro rfl
      obtain ⟨id, hid⟩ := List.exists_mem_of_ne_nil ids hne
      obtain ⟨recordId, hget, hrecord, -⟩ := hback id hid
      have hmem := List.mem_map_of_mem (f := fun id =>
        (Assoc.get (Assoc.setAll [] (recordIds (methods.map fun m => fragment m.id)))
          (fragment id)).getD "") hid
      rw [← hsplit, hget] at hmem
      exact hrecord (List.mem_singleton.mp hmem)
    have hread : recordIdsToMethodIds (methodIdLookup methods) value = ids := by
      rw [recordIdsToMethodIds, hsplit, List.filterMap_map]
      conv_rhs => rw [← List.filterMap_some (l := ids)]
      refine List.filterMap_congr fun id hid => ?_
      obtain ⟨recordId, hget, -, hid⟩ := hback id hid
      rw [Function.comp_apply, hget, Option.getD_some, hid]
    split
    · next heq => cases heq
    · next heq => exact absurd (Option.some.inj heq) hvalue
    · next heq => rw [← Option.some.inj heq, hread]

end Relationships

/-! ## Whole packets -/

omit C in
theorem Resolution.addMethods_eq (r : Resolution) (read : List (String × DidVerificationMethod)) :
    r.addMethods read =
      { r with
        didDocument := { r.didDocument with
          verificationMethod := if read = [] then r.didDocument.verificationMethod
            else some (r.didDocument.verificationMethod.getD [] ++ read.map Prod.snd) }
        idLookup := Assoc.setAll r.idLookup (read.map fun p => (p.1, p.2.id)) } := by
  induction read generalizing r with
  | nil => rfl
  | cons p read ih =>
    have hstep : r.addMethods (p :: read) = Resolution.addMethods { r with
        didDocument := { r.didDocument with
          verificationMethod := some (r.didDocument.verificationMethod.getD [] ++ [p.2]) }
        idLookup := Assoc.set r.idLookup p.1 p.2.id } read := rfl
    rw [hstep, ih]
    by_cases hnil : read = []
    · subst hnil
      rfl
    · simp [hnil, Assoc.setAll]

omit C in
theorem Resolution.addServices_eq (r : Resolution) (read : List DidService) :
    r.addServices read =
      { r with
        didDocument := { r.didDocument with
          service := if read = [] then r.didDocument.service
            else some (r.didDocument.service.getD [] ++ read) } } := by
  induction read generalizing r with
  | nil => rfl
  | cons service read ih =>
    have hstep : r.addServices (service :: read) = Resolution.addServices { r with
        didDocument := { r.didDocument with
          service := some (r.didDocument.service.getD [] ++ [service]) } } read := rfl
    rw [hstep, ih]
    by_cases hnil : read = []
    · subst hnil
      rfl
    · simp [hnil]

section Packet
variable (didUri : String) (r : Resolution)

def readBackController : Option Controller → Option Controller
  | none => none
  | some (.one controller) => if controller = "" then none else some (readController controller)
  | some (.many controllers) => some (readController (join controllers valueSeparator))

theorem applyAnswer_prv (data : TxtData) :
    applyAnswer didUri r (createTxtRecord "_prv._did." data) = .ok r := by
  have hid : dnsRecordIdOf "_prv._did." = "prv" := by decide
  simp only [createTxtRecord, applyAnswer, hid]
  rfl

theorem applyAnswer_aka (data : TxtData) :
    applyAnswer didUri r (createTxtRecord "_aka._did." data) =
      .ok { r with didDocument := applyAlsoKnownAsRecord r.didDocument data } := by
  have hid : dnsRecordIdOf "_aka._did." = "aka" := by decide
  simp only [createTxtRecord, applyAnswer, hid]
  rfl

theorem applyAnswer_cnt (data : TxtData) :
    applyAnswer didUri r (createTxtRecord "_cnt._did." data) =
      .ok { r with didDocument := applyControllerRecord r.didDocument data } := by
  have hid : dnsRecordIdOf "_cnt._did." = "cnt" := by decide
  simp only [createTxtRecord, applyAnswer, hid]
  rfl

theorem applyAnswer_typ (data : TxtData) :
    applyAnswer didUri r (createTxtRecord "_typ._did." data) = applyDidTypesRecord r data := by
  have hid : dnsRecordIdOf "_typ._did." = "typ" := by decide
  simp only [createTxtRecord, applyAnswer, hid]
  simp [startsWith]

theorem foldlM_previous {document : DidDocument} {proof : Option PreviousDidProof}
    {previous : List Answer} (h : previousDidRecord document proof = .ok previous) :
    previous.foldlM (applyAnswer didUri) r = .ok r := by
  unfold previousDidRecord at h
  cases proof with
  | none =>
    cases h
    rfl
  | some proof =>
    dsimp only at h
    split at h
    · cases h
      rw [List.foldlM_cons, applyAnswer_prv]
      rfl
    · cases h

theorem foldlM_alsoKnownAs (document : DidDocument)
    (hnone : r.didDocument.alsoKnownAs = none) :
    (alsoKnownAsRecord document).foldlM (applyAnswer didUri) r =
      .ok { r with didDocument := { r.didDocument with
        alsoKnownAs := document.alsoKnownAs.map fun ids =>
          split (join ids valueSeparator) valueSeparator } } := by
  unfold alsoKnownAsRecord
  cases document.alsoKnownAs with
  | none =>
    change Except.ok r = _
    rw [Option.map_none, ← hnone]
  | some ids =>
    rw [List.foldlM_cons, applyAnswer_aka]
    rfl

theorem foldlM_controller (document : DidDocument) (hnone : r.didDocument.controller = none) :
    (controllerRecord document).foldlM (applyAnswer didUri) r =
      .ok { r with didDocument := { r.didDocument with
        controller := readBackController document.controller } } := by
  have hsame : Except.ok (ε := Failure) r = .ok { r with didDocument := { r.didDocument with
      controller := none } } := by
    rw [← hnone]
  unfold controllerRecord readBackController
  cases document.controller with
  | none => exact hsame
  | some controller =>
    cases controller with
    | one did =>
      by_cases hempty : did = ""
      · simp only [hempty, if_true]
        exact hsame
      · simp only [hempty, if_false, List.foldlM_cons, applyAnswer_cnt]
        rfl
    | many dids =>
      simp only [List.foldlM_cons, applyAnswer_cnt]
      rfl

omit C in
theorem number_type (type : DidType) : number (toString type.toInteger) = some type.toInteger := by
  cases type with
  | integer type => cases type <;> decide
  | name type => cases type <;> decide

/-- What is read of the types; no type is written as no record. -/
def readBackTypes : Option (List DidType) → Option (List (Option Nat))
  | none => none
  | some [] => none
  | some types => some (types.map fun type => some type.toInteger)

omit C in
theorem getD_readBackTypes (types : Option (List DidType)) :
    (readBackTypes types).getD [] = (types.getD []).map fun type => some type.toInteger := by
  unfold readBackTypes
  split <;> rfl

theorem applyAnswer_types {types : List DidType} (hne : types ≠ []) :
    applyAnswer didUri r (createTxtRecord "_typ._did." (.text (writePair ("id",
        join (types.map fun type => toString type.toInteger) valueSeparator)))) =
      .ok { r with types := some (types.map fun type => some type.toInteger) } := by
  have hwritable : Writable [("id",
      join (types.map fun type => toString type.toInteger) valueSeparator)] := by
    refine ⟨by simp, ?_, ?_⟩
    · intro p hp
      rw [List.mem_singleton.mp hp]
      simp only
      decide
    · intro p hp
      rw [List.mem_singleton.mp hp]
      refine lacks_join (by decide) fun value hvalue => ?_
      obtain ⟨type, -, rfl⟩ := List.mem_map.mp hvalue
      exact toString_lacks _ (by decide)
  have hparse := property_parse hwritable (by simp) "id"
  rw [List.map_cons, List.map_nil, join_singleton] at hparse
  have hsplit : split (join (types.map fun type => toString type.toInteger) valueSeparator)
      valueSeparator = types.map fun type => toString type.toInteger := by
    refine split_join (by simpa using hne) fun part hpart => ?_
    obtain ⟨type, -, rfl⟩ := List.mem_map.mp hpart
    exact toString_lacks _ (by decide)
  have hnumbers : (types.map fun type => toString type.toInteger).map number =
      types.map fun type => some type.toInteger := by
    rw [List.map_map]
    exact List.map_congr_left fun type _ => number_type type
  rw [applyAnswer_typ, applyDidTypesRecord, hparse, Assoc.get_cons, if_pos rfl]
  dsimp only
  rw [hsplit, hnumbers]

theorem foldlM_types (types : Option (List DidType)) (hnone : r.types = none) :
    (typesRecord types).foldlM (applyAnswer didUri) r =
      .ok { r with types := readBackTypes types } := by
  cases types with
  | none =>
    rw [readBackTypes, ← hnone]
    rfl
  | some types =>
    cases types with
    | nil =>
      rw [readBackTypes, ← hnone]
      rfl
    | cons type types =>
      rw [typesRecord, List.foldlM_cons, applyAnswer_types didUri r (List.cons_ne_nil type types)]
      · rfl
      · simp

theorem foldlM_ns (name : String) (targets : List String) :
    (targets.map fun target => Answer.ns name dnsRecordTtl target).foldlM (applyAnswer didUri) r =
      .ok r := by
  induction targets with
  | nil => rfl
  | cons target targets ih =>
    rw [List.map_cons, List.foldlM_cons]
    exact ih

end Packet

/-! ## The round trip -/

section Fields
variable {options : DidDhtCreateOptions}

omit C in
/-- Only the empty list of aliases is not read back. -/
theorem alsoKnownAs_readBack (hplain : options.Plain) :
    (options.alsoKnownAs.map fun ids => split (join ids valueSeparator) valueSeparator) =
      options.alsoKnownAs ↔ options.alsoKnownAs ≠ some [] := by
  cases haka : options.alsoKnownAs with
  | none => simp
  | some ids =>
    simp only [Option.map_some, Option.some.injEq, ne_eq]
    constructor
    · rintro h rfl
      exact split_ne_nil _ _ h
    · intro hne
      exact split_join hne fun id hid => (hplain.alsoKnownAs ids (by simp [haka]) id hid).2

omit C in
theorem readController_join {dids : List String} (h : ∀ did ∈ dids, Lacks ',' did) :
    readController (join dids valueSeparator) = .many dids ↔ 2 ≤ dids.length := by
  unfold readController
  constructor
  · intro heq
    split at heq
    · cases heq
    · next hcomma =>
      rw [← Controller.many.inj heq]
      exact two_le_length_split hcomma
  · intro htwo
    have hne : dids ≠ [] := by
      rintro rfl
      simp at htwo
    have hsplit : split (join dids valueSeparator) valueSeparator = dids := split_join hne h
    have hcomma : ¬ Lacks valueSeparator (join dids valueSeparator) := by
      intro hlacks
      rw [split_of_lacks hlacks] at hsplit
      rw [← hsplit] at htwo
      simp at htwo
    rw [if_neg hcomma, hsplit]

def createdController (options : DidDhtCreateOptions) : Option Controller :=
  if options.controllers = some (.one "") then none else options.controllers

omit C in
/-- Only lists of fewer than two controllers are not read back. -/
theorem controller_readBack (hplain : options.Plain) :
    readBackController (createdController options) = createdController options ↔
      ∀ dids, options.controllers = some (.many dids) → 2 ≤ dids.length := by
  unfold createdController
  cases hcontrollers : options.controllers with
  | none => simp [readBackController]
  | some controller =>
    cases controller with
    | one did =>
      by_cases hempty : did = ""
      · simp [hempty, readBackController]
      · have hlacks := (hplain.controller did hcontrollers).2
        have hread : readController did = .one did := if_pos hlacks
        simp [hempty, readBackController, hread]
    | many dids =>
      have hjoin := readController_join fun did hdid =>
        (hplain.controllers dids hcontrollers did hdid).2
      simpa [readBackController] using hjoin

end Fields

section Lists
variable {α β ε σ : Type}

omit C in
theorem mapM_eq_ok {f : α → Except ε β} {g : α → β} {l : List α} (h : ∀ x ∈ l, f x = .ok (g x)) :
    l.mapM f = .ok (l.map g) := by
  induction l with
  | nil => rfl
  | cons x l ih =>
    rw [List.mapM_cons, h x List.mem_cons_self, ih fun y hy => h y (List.mem_cons_of_mem _ hy)]
    rfl

omit C in
theorem foldlM_append_eq_ok {f : σ → α → Except ε σ} {l l' : List α} {s s' : σ} :
    (l ++ l').foldlM f s = .ok s' ↔ ∃ t, l.foldlM f s = .ok t ∧ l'.foldlM f t = .ok s' := by
  rw [List.foldlM_append]
  cases l.foldlM f s with
  | error e =>
    constructor
    · intro h
      cases h
    · rintro ⟨t, ht, -⟩
      cases ht
  | ok t =>
    constructor
    · exact fun h => ⟨t, rfl, h⟩
    · rintro ⟨t', ht, h⟩
      cases ht
      exact h

omit C in
theorem foldlM_append_of_ok {f : σ → α → Except ε σ} {l : List α} {s t : σ}
    (h : l.foldlM f s = .ok t) (l' : List α) : (l ++ l').foldlM f s = l'.foldlM f t := by
  rw [List.foldlM_append, h]
  rfl

omit C in
theorem zipIdx_map_zipIdx (f : α × Nat → β) (l : List α) (k : Nat) :
    ((l.zipIdx k).map f).zipIdx k = (l.zipIdx k).map fun p => (f p, p.2) := by
  induction l generalizing k with
  | nil => rfl
  | cons x l ih => simp [List.zipIdx_cons, ih]

omit C in
theorem forall₂_snd {γ : Type} {read : α → Except ε β} {key : α → γ} {l : List α}
    {values : List (γ × β)}
    (h : List.Forall₂ (fun a b => (read a).map (fun value => (key a, value)) = .ok b) l values) :
    List.Forall₂ (fun a b => read a = .ok b) l (values.map Prod.snd) := by
  rw [List.forall₂_map_right_iff]
  refine h.imp fun a b hab => ?_
  cases hread : read a with
  | error e =>
    rw [hread] at hab
    cases hab
  | ok value =>
    rw [hread] at hab
    cases hab
    rfl

end Lists

theorem create_spec {options : DidDhtCreateOptions} {keys : Nat → KeyMaterial} {did : BearerDid}
    (h : create options keys = .ok did) :
    did.uri = did.document.id ∧ did.types = options.types ∧
      did.document.alsoKnownAs = options.alsoKnownAs ∧
      did.document.controller = createdController options ∧
      did.document.verificationMethod =
        some ((verificationMethodsToAdd options).zipIdx.map (createdMethod did.uri keys)) ∧
      did.document.service = (if options.services = [] then none
        else some (options.services.map (createService did.uri))) ∧
      did.document.Related := by
  unfold create at h
  by_cases hids : (options.verificationMethods.filterMap DidCreateVerificationMethod.id).Nodup
  · by_cases hservices : options.services.all hasRequiredProperties = true
    · rw [if_neg (not_not.mpr hids), if_neg (not_not.mpr hservices)] at h
      have hdid := (Except.ok.inj h).symm
      have hne : verificationMethodsToAdd options ≠ [] := by
        unfold verificationMethodsToAdd
        split
        · next hany =>
          rintro hnil
          simp [hnil] at hany
        · simp
      have hmethods := createdMethods_eq did.uri (getPublicKey .ed25519 (keys 0)) keys 0
        (verificationMethodsToAdd options)
      have hstart : DidDocument.Related
          { id := identityKeyToIdentifier (getPublicKey .ed25519 (keys 0))
            alsoKnownAs := options.alsoKnownAs
            controller := createdController options } := by
        intro relationship ids hids
        cases hids
      obtain ⟨hrelated, hlist, hsome, -, hid, haka, hcontroller, hservice⟩ := addMethods_spec
        (getPublicKey .ed25519 (keys 0)) hstart (fun n => keys (n + 1))
        (verificationMethodsToAdd options)
      subst hdid
      obtain ⟨methods, hsome⟩ := Option.isSome_iff_exists.mp (hsome hne)
      rw [hsome, Option.getD_some] at hlist
      have hlist : methods = (verificationMethodsToAdd options).zipIdx.map
          (createdMethod (identityKeyToIdentifier (getPublicKey .ed25519 (keys 0))) keys) :=
        hlist.trans hmethods
      rw [hlist] at hsome
      by_cases hnil : options.services = []
      · rw [if_pos hnil, if_pos hnil]
        exact ⟨hid.symm, rfl, haka, hcontroller, hsome, hservice, hrelated⟩
      · rw [if_neg hnil, if_neg hnil]
        exact ⟨hid.symm, rfl, haka, hcontroller, hsome, rfl, hrelated⟩
    · rw [if_neg (not_not.mpr hids), if_pos hservices] at h
      cases h
  · rw [if_pos hids] at h
    cases h

/-- The packet is read back as the document, with the same types. -/
def BearerDid.RoundTrips (did : BearerDid) (authoritativeGatewayUris : List String)
    (previousDidProof : Option PreviousDidProof) : Prop :=
  ∃ packet r, toDnsPacket did.document did.types authoritativeGatewayUris previousDidProof =
      .ok packet ∧ fromDnsPacket did.uri packet = .ok r ∧ r.didDocument = did.document ∧
    r.types.getD [] = (did.types.getD []).map fun type => some type.toInteger

section Main
variable {options : DidDhtCreateOptions} {keys : Nat → KeyMaterial} {did : BearerDid}
  {authoritativeGatewayUris : List String} {previousDidProof : Option PreviousDidProof}

omit C in
theorem plain_methods (hplain : options.Plain) {vm : DidCreateVerificationMethod}
    (hvm : vm ∈ verificationMethodsToAdd options) :
    (∀ id ∈ vm.id, Lacks ';' id ∧ Lacks ',' id) ∧
      ∀ did ∈ vm.controller, Lacks ';' did ∧ Lacks ',' did := by
  have hoption : vm ∈ options.verificationMethods ∨ vm = identityMethod := by
    unfold verificationMethodsToAdd at hvm
    split at hvm
    · exact Or.inl hvm
    · exact (List.mem_cons.mp hvm).symm
  cases hoption with
  | inl hmem => exact ⟨hplain.methodId vm hmem, hplain.methodController vm hmem⟩
  | inr heq =>
    subst heq
    simp [identityMethod]
    decide

def methodAnswers (didUri : String) (keys : Nat → KeyMaterial) (options : DidDhtCreateOptions) :
    List Answer :=
  ((verificationMethodsToAdd options).zipIdx.map fun p => (p.2, createdData didUri keys p)).map
    fun q => methodRecord q.1 q.2

def serviceAnswers (document : DidDocument) : List Answer :=
  ((document.service.getD []).zipIdx.map fun p => (p.2, serviceData p.1)).map
    fun q => serviceRecord q.1 q.2

def rootAnswer (document : DidDocument) : Answer :=
  createTxtRecord ("_did." ++ getUniqueDidSuffix document.id ++ ".")
    (rootData document ((document.verificationMethod.getD []).map fun m => fragment m.id))

def createdPacket (keys : Nat → KeyMaterial) (options : DidDhtCreateOptions) (did : BearerDid)
    (previous : List Answer) (name : String) (targets : List String) : Packet where
  answers := previous ++ (alsoKnownAsRecord did.document ++ (controllerRecord did.document ++
    (methodAnswers did.uri keys options ++ (serviceAnswers did.document ++ (typesRecord did.types ++
      ([rootAnswer did.document] ++
        targets.map fun target => Answer.ns name dnsRecordTtl target))))))

theorem toDnsPacket_create (authoritativeGatewayUris : List String) (h : Faithful keys) (hplain : options.Plain)
    (hcreate : create options keys = .ok did) {previous : List Answer}
    (hprevious : previousDidRecord did.document previousDidProof = .ok previous) :
    ∃ name targets,
      toDnsPacket did.document did.types authoritativeGatewayUris previousDidProof =
        .ok (createdPacket keys options did previous name targets) := by
  obtain ⟨huri, -, -, -, hmethods, -, -⟩ := create_spec hcreate
  have hplainVm : ∀ p ∈ (verificationMethodsToAdd options).zipIdx,
      ∀ id ∈ p.1.id, Lacks ';' id ∧ Lacks ',' id := fun p hp =>
    (plain_methods hplain (List.fst_mem_of_mem_zipIdx hp)).1
  have hprocess : (did.document.verificationMethod.getD []).zipIdx.mapM (fun p =>
      processVerificationMethodForDnsPacket did.document p.2 p.1) =
      .ok ((verificationMethodsToAdd options).zipIdx.map fun p =>
        (methodFragment keys (p.2 + 1) p.1, methodRecord p.2 (createdData did.uri keys p))) := by
    rw [hmethods, Option.getD_some, zipIdx_map_zipIdx, huri, List.mapM_map]
    exact mapM_eq_ok fun p hp => process_created h did.document (hplainVm p hp)
  have hfragments : (did.document.verificationMethod.getD []).map (fun m => fragment m.id) =
      (verificationMethodsToAdd options).zipIdx.map fun p => methodFragment keys (p.2 + 1) p.1 := by
    rw [hmethods, Option.getD_some, List.map_map]
    refine List.map_congr_left fun p hp => ?_
    have heq := createMethod_eq h did.uri (p.2 + 1) p.1
    rw [Function.comp_apply, createdMethod, heq]
    exact fragment_append _ (lacks_methodFragment h (p.2 + 1) (hplainVm p hp)).1
  refine ⟨"_did." ++ getUniqueDidSuffix did.document.id ++ ".",
    authoritativeGatewayUris.filterMap C.getGatewayNsTarget, ?_⟩
  unfold toDnsPacket
  rw [hprevious, hprocess]
  have hservices : (did.document.service.getD []).zipIdx.map (fun p =>
      processServiceForDnsPacket p.1 p.2) = serviceAnswers did.document := by
    rw [serviceAnswers, List.map_map]
    refine List.map_congr_left fun p _ => ?_
    rw [Function.comp_apply, processServiceForDnsPacket, serviceRecord, serviceData]
  have hrecords : ((verificationMethodsToAdd options).zipIdx.map fun p =>
      (methodFragment keys (p.2 + 1) p.1, methodRecord p.2 (createdData did.uri keys p))).map
        Prod.snd = methodAnswers did.uri keys options := by
    rw [methodAnswers, List.map_map, List.map_map]
    rfl
  have hids : ((verificationMethodsToAdd options).zipIdx.map fun p =>
      (methodFragment keys (p.2 + 1) p.1, methodRecord p.2 (createdData did.uri keys p))).map
        Prod.fst = (did.document.verificationMethod.getD []).map fun m => fragment m.id := by
    rw [hfragments, List.map_map]
    rfl
  change Except.ok (ε := Failure) (Packet.mk _ _ _ _) = _
  simp only [hservices, hrecords, hids, createdPacket, rootAnswer, rootData, List.append_assoc]

def readHead (did : BearerDid) : Resolution where
  didDocument :=
    { id := did.uri
      alsoKnownAs := did.document.alsoKnownAs.map fun ids =>
        split (join ids valueSeparator) valueSeparator
      controller := readBackController did.document.controller }

/-- The resolution of a packet, given the methods and services that were read. -/
def readResolution (did : BearerDid) (methods : List (String × DidVerificationMethod))
    (services : List DidService) : Resolution :=
  applyVerificationRelationshipsRecord
    { didDocument :=
        { (readHead did).didDocument with
          verificationMethod := if methods = [] then none else some (methods.map Prod.snd)
          service := if services = [] then none else some services }
      types := readBackTypes did.types
      idLookup := Assoc.setAll [] (methods.map fun p => (p.1, p.2.id)) }
    (rootData did.document ((did.document.verificationMethod.getD []).map fun m => fragment m.id))

/-- What is read of the packet: the methods and services on their own, then the relationships. -/
theorem fromDnsPacket_eq_ok {previous : List Answer}
    (hprevious : previousDidRecord did.document previousDidProof = .ok previous)
    (name : String) (targets : List String) {r : Resolution} :
    fromDnsPacket did.uri (createdPacket keys options did previous name targets) = .ok r ↔
    ∃ methods services, List.Forall₂ (fun p q =>
        (readVerificationMethod did.uri ("k" ++ toString p.1) p.2).map
          (fun method => ("k" ++ toString p.1, method)) = .ok q)
        ((verificationMethodsToAdd options).zipIdx.map fun p => (p.2, createdData did.uri keys p))
        methods ∧
      List.Forall₂ (fun p service => readService did.uri p.2 = .ok service)
        ((did.document.service.getD []).zipIdx.map fun p => (p.2, serviceData p.1)) services ∧
      r = readResolution did methods services := by
  have hrest : ∀ methods services, (typesRecord did.types ++ ([rootAnswer did.document] ++
      targets.map fun target => Answer.ns name dnsRecordTtl target)).foldlM (applyAnswer did.uri)
        (((readHead did).addMethods methods).addServices services) =
      .ok (readResolution did methods services) := by
    intro methods services
    rw [Resolution.addMethods_eq, Resolution.addServices_eq,
      foldlM_append_of_ok (foldlM_types did.uri _ did.types rfl)]
    refine (foldlM_append_of_ok ?_ _).trans (foldlM_ns did.uri _ name targets)
    rw [List.foldlM_cons, rootAnswer, applyAnswer_root]
    rfl
  have hhead : fromDnsPacket did.uri (createdPacket keys options did previous name targets) =
      (methodAnswers did.uri keys options ++ (serviceAnswers did.document ++ (typesRecord did.types ++
        ([rootAnswer did.document] ++
          targets.map fun target => Answer.ns name dnsRecordTtl target)))).foldlM
        (applyAnswer did.uri) (readHead did) := by
    unfold fromDnsPacket createdPacket
    rw [foldlM_append_of_ok (foldlM_previous did.uri _ hprevious),
      foldlM_append_of_ok (foldlM_alsoKnownAs did.uri _ did.document rfl),
      foldlM_append_of_ok (foldlM_controller did.uri _ did.document rfl)]
    rfl
  rw [hhead]
  constructor
  · intro h
    obtain ⟨r', hmethods, h⟩ := foldlM_append_eq_ok.mp h
    obtain ⟨methods, hread, rfl⟩ := (foldlM_methods did.uri).mp hmethods
    obtain ⟨r', hservices, h⟩ := foldlM_append_eq_ok.mp h
    obtain ⟨services, hreadServices, rfl⟩ := (foldlM_services did.uri).mp hservices
    rw [hrest methods services] at h
    exact ⟨methods, services, hread, hreadServices, (Except.ok.inj h).symm⟩
  · rintro ⟨methods, services, hread, hreadServices, rfl⟩
    rw [methodAnswers, serviceAnswers,
      foldlM_append_of_ok ((foldlM_methods did.uri).mpr ⟨methods, hread, rfl⟩),
      foldlM_append_of_ok ((foldlM_services did.uri).mpr ⟨services, hreadServices, rfl⟩)]
    exact hrest methods services

omit C in
theorem forall_zipIdx_iff {α : Type} {q : α → Bool} (x : α) (l : List α) :
    (∀ p ∈ (x :: l).zipIdx, p.2 = 0 ↔ q p.1 = true) ↔ q x = true ∧ ∀ y ∈ l, q y = false := by
  simp only [List.zipIdx_cons, List.mem_cons, forall_eq_or_imp, true_iff, Nat.zero_add]
  refine and_congr_right fun _ => ?_
  constructor
  · intro h y hy
    refine Bool.eq_false_iff.mpr fun hq => ?_
    obtain ⟨i, hi⟩ := List.mem_iff_getElem?.mp hy
    have hmem : (y, i + 1) ∈ l.zipIdx 1 := by
      rw [List.mem_zipIdx_iff_le_and_getElem?_sub]
      exact ⟨by omega, by simpa using hi⟩
    exact absurd ((h (y, i + 1) hmem).mpr hq) (by simp)
  · intro h p hp
    obtain ⟨hle, -⟩ := List.mem_zipIdx_iff_le_and_getElem?_sub.mp hp
    rw [h p.1 (List.fst_mem_of_mem_zipIdx hp)]
    exact ⟨fun hzero => by omega, fun hq => by cases hq⟩

omit C in
/-- The first method is the identity key and no other, exactly if the options name no identity key
after their first method. -/
theorem identity_iff :
    (∀ p ∈ (verificationMethodsToAdd options).zipIdx, p.2 = 0 ↔ isIdentityKey p.1 = true) ↔
      ∀ vm ∈ options.verificationMethods.tail, isIdentityKey vm = false := by
  unfold verificationMethodsToAdd
  by_cases hany : options.verificationMethods.any isIdentityKey = true
  · rw [if_pos hany]
    cases hlist : options.verificationMethods with
    | nil => simp [hlist] at hany
    | cons vm vms =>
      rw [forall_zipIdx_iff, List.tail_cons]
      refine and_iff_right_iff_imp.mpr fun hrest => ?_
      rw [hlist, List.any_cons, Bool.or_eq_true] at hany
      refine hany.resolve_right fun htail => ?_
      obtain ⟨vm', hmem, hidentity⟩ := List.any_eq_true.mp htail
      rw [hrest vm' hmem] at hidentity
      cases hidentity
  · rw [if_neg hany, forall_zipIdx_iff]
    have hnone : ∀ vm ∈ options.verificationMethods, isIdentityKey vm = false := by
      intro vm hvm
      by_contra hidentity
      exact hany (List.any_eq_true.mpr ⟨vm, hvm, by simpa using hidentity⟩)
    refine iff_of_true ⟨by decide, hnone⟩ ?_
    exact fun vm hvm => hnone vm (List.mem_of_mem_tail hvm)

omit C in
theorem curve_iff :
    (∀ p ∈ (verificationMethodsToAdd options).zipIdx, (keyOf (p.2 + 1) p.1).1.isP256 = false) ↔
      ∀ vm ∈ options.verificationMethods, isIdentityKey vm = false →
        vm.algorithm.isP256 = false := by
  have hkey : ∀ (n : Nat) (vm : DidCreateVerificationMethod), (keyOf n vm).1.isP256 = false ↔
      (isIdentityKey vm = false → vm.algorithm.isP256 = false) := by
    intro n vm
    unfold keyOf
    by_cases hidentity : isIdentityKey vm = true
    · simp [hidentity, Algorithm.isP256]
    · simp [hidentity]
  constructor
  · intro h vm hvm
    have hmem : vm ∈ verificationMethodsToAdd options := by
      unfold verificationMethodsToAdd
      split
      · exact hvm
      · exact List.mem_cons_of_mem _ hvm
    obtain ⟨i, hi⟩ := List.mem_iff_getElem?.mp hmem
    exact (hkey (i + 1) vm).mp (h (vm, i) (List.mem_zipIdx_iff_getElem?.mpr hi))
  · intro h p hp
    rw [hkey]
    have hmem := List.fst_mem_of_mem_zipIdx hp
    unfold verificationMethodsToAdd at hmem
    split at hmem
    · exact h p.1 hmem
    · cases List.mem_cons.mp hmem with
      | inl heq =>
        rw [heq]
        decide
      | inr hmem => exact h p.1 hmem

omit C in
theorem readService_created (didUri : String) {service : DidService} (hplain : service.Plain)
    (hid : Lacks ';' service.id) :
    readService didUri (serviceData (createService didUri service)) =
        .ok (createService didUri service) ↔ service.Canonical := by
  obtain ⟨hhash, hchars⟩ := lacks_fragment service.id
  constructor
  · intro h
    obtain ⟨hendpoint, hkey, hvalue⟩ := canonical_readService h
    exact ⟨hendpoint, hkey, hvalue⟩
  · rintro ⟨hendpoint, hkey, hvalue⟩
    have hcreated : (createService didUri service).Plain :=
      ⟨hplain.type, hplain.uris, hplain.key, hplain.text, hplain.texts⟩
    exact readService_serviceData hcreated ⟨hendpoint, hkey, hvalue⟩ hhash (hchars ';' hid) rfl

theorem id_created (h : Faithful keys) (hplain : options.Plain)
    (hcreate : create options keys = .ok did) :
    ∀ method ∈ did.document.verificationMethod.getD [],
      method.id = did.uri ++ "#" ++ fragment method.id := by
  obtain ⟨-, -, -, -, hmethods, -, -⟩ := create_spec hcreate
  intro method hmethod
  rw [hmethods, Option.getD_some] at hmethod
  obtain ⟨p, hp, rfl⟩ := List.mem_map.mp hmethod
  have hlacks := (lacks_methodFragment h (p.2 + 1)
    (plain_methods hplain (List.fst_mem_of_mem_zipIdx hp)).1).1
  rw [createdMethod, createMethod_eq h did.uri (p.2 + 1) p.1]
  change did.uri ++ "#" ++ methodFragment keys (p.2 + 1) p.1 =
    did.uri ++ "#" ++ fragment (did.uri ++ "#" ++ methodFragment keys (p.2 + 1) p.1)
  rw [fragment_append did.uri hlacks]

def createdRead (didUri : String) (keys : Nat → KeyMaterial) (options : DidDhtCreateOptions) :
    List (String × DidVerificationMethod) :=
  (verificationMethodsToAdd options).zipIdx.map fun p =>
    ("k" ++ toString p.2, createdMethod didUri keys p)

theorem readMethod_iff (h : Faithful keys) (hplain : options.Plain) (didUri : String) :
    (∀ p ∈ (verificationMethodsToAdd options).zipIdx,
      readVerificationMethod didUri ("k" ++ toString p.2) (createdData didUri keys p) =
        .ok (createdMethod didUri keys p)) ↔
      (∀ vm ∈ options.verificationMethods, isIdentityKey vm = false →
        vm.algorithm.isP256 = false) ∧
      ∀ vm ∈ options.verificationMethods.tail, isIdentityKey vm = false := by
  rw [← identity_iff, ← curve_iff, ← forall₂_and]
  refine forall₂_congr fun p hp => ?_
  obtain ⟨hid, hdid⟩ := plain_methods hplain (List.fst_mem_of_mem_zipIdx hp)
  exact readVerificationMethod_created h didUri hid hdid

theorem service_created (hcreate : create options keys = .ok did) :
    did.document.service.getD [] = options.services.map (createService did.uri) := by
  obtain ⟨-, -, -, -, -, hservice, -⟩ := create_spec hcreate
  rw [hservice]
  by_cases hnil : options.services = []
  · simp [hnil]
  · simp [hnil]

theorem readService_iff (hplain : options.Plain) (hcreate : create options keys = .ok did) :
    (∀ p ∈ (did.document.service.getD []).zipIdx,
      readService did.uri (serviceData p.1) = .ok p.1) ↔
      ∀ service ∈ options.services, service.Canonical := by
  rw [service_created hcreate]
  constructor
  · intro hall service hmem
    obtain ⟨i, hi⟩ := List.mem_iff_getElem?.mp (List.mem_map_of_mem (f := createService did.uri) hmem)
    exact (readService_created did.uri (hplain.services service hmem)
      (hplain.serviceId service hmem).1).mp (hall (_, i) (List.mem_zipIdx_iff_getElem?.mpr hi))
  · intro hall p hp
    obtain ⟨service, hmem, heq⟩ := List.mem_map.mp (List.fst_mem_of_mem_zipIdx hp)
    rw [← heq]
    exact (readService_created did.uri (hplain.services service hmem)
      (hplain.serviceId service hmem).1).mpr (hall service hmem)

/-- A packet that is read as the document was written from canonical options. -/
theorem canonical_of_read (h : Faithful keys) (hplain : options.Plain)
    (hcreate : create options keys = .ok did) {methods : List (String × DidVerificationMethod)}
    {services : List DidService}
    (hreadMethods : List.Forall₂ (fun p q =>
        (readVerificationMethod did.uri ("k" ++ toString p.1) p.2).map
          (fun method => ("k" ++ toString p.1, method)) = .ok q)
        ((verificationMethodsToAdd options).zipIdx.map fun p => (p.2, createdData did.uri keys p))
        methods)
    (hreadServices : List.Forall₂ (fun p service => readService did.uri p.2 = .ok service)
        ((did.document.service.getD []).zipIdx.map fun p => (p.2, serviceData p.1)) services)
    (hdocument : (readResolution did methods services).didDocument = did.document) :
    options.Canonical := by
  obtain ⟨-, -, haka, hcontroller, hmethods, -, -⟩ := create_spec hcreate
  have hreadAka : (did.document.alsoKnownAs.map fun ids =>
      split (join ids valueSeparator) valueSeparator) = did.document.alsoKnownAs :=
    congrArg DidDocument.alsoKnownAs hdocument
  have hreadController : readBackController did.document.controller = did.document.controller :=
    congrArg DidDocument.controller hdocument
  have hsameMethods : (if methods = [] then none else some (methods.map Prod.snd)) =
      did.document.verificationMethod := congrArg DidDocument.verificationMethod hdocument
  have hsameServices : (if services = [] then none else some services) = did.document.service :=
    congrArg DidDocument.service hdocument
  rw [haka] at hreadAka
  rw [hcontroller] at hreadController
  have hlist : methods.map Prod.snd =
      (verificationMethodsToAdd options).zipIdx.map (createdMethod did.uri keys) := by
    rw [hmethods] at hsameMethods
    split at hsameMethods
    · cases hsameMethods
    · exact Option.some.inj hsameMethods
  obtain ⟨hcurve, hidentity⟩ := (readMethod_iff h hplain did.uri).mp (by
    have hforall := forall₂_snd hreadMethods
    rw [hlist, List.forall₂_map_left_iff, List.forall₂_map_right_iff, List.forall₂_same] at hforall
    exact hforall)
  have hlistServices : services = (did.document.service.getD []).zipIdx.map Prod.fst := by
    rw [List.zipIdx_map_fst, ← hsameServices]
    by_cases hnil : services = []
    · simp [hnil]
    · simp [hnil]
  rw [hlistServices, List.forall₂_map_left_iff, List.forall₂_map_right_iff,
    List.forall₂_same] at hreadServices
  dsimp only at hreadServices
  exact
    { alsoKnownAs := (alsoKnownAs_readBack hplain).mp hreadAka
      controllers := (controller_readBack hplain).mp hreadController
      identity := hidentity
      curve := hcurve
      services := (readService_iff hplain hcreate).mp hreadServices }

theorem createdRead_forall₂ {didUri : String} (hall : ∀ p ∈ (verificationMethodsToAdd options).zipIdx,
    readVerificationMethod didUri ("k" ++ toString p.2) (createdData didUri keys p) =
      .ok (createdMethod didUri keys p)) :
    List.Forall₂ (fun p q => (readVerificationMethod didUri ("k" ++ toString p.1) p.2).map
        (fun method => ("k" ++ toString p.1, method)) = .ok q)
      ((verificationMethodsToAdd options).zipIdx.map fun p => (p.2, createdData didUri keys p))
      (createdRead didUri keys options) := by
  unfold createdRead
  rw [List.forall₂_map_left_iff, List.forall₂_map_right_iff]
  refine List.forall₂_same.mpr fun p hp => ?_
  simp only [hall p hp]
  rfl

/-- With every method and service read as it was created, the document is the created one. -/
theorem readResolution_created (h : Faithful keys) (hplain : options.Plain)
    (hcanonical : options.Canonical) (hcreate : create options keys = .ok did) :
    (readResolution did (createdRead did.uri keys options)
      (did.document.service.getD [])).didDocument = did.document := by
  obtain ⟨huri, -, haka, hcontroller, hmethods, hservice, hrelated⟩ := create_spec hcreate
  have hlookup : Assoc.setAll [] ((createdRead did.uri keys options).map fun p => (p.1, p.2.id)) =
      methodIdLookup (did.document.verificationMethod.getD []) := by
    rw [methodIdLookup, hmethods, Option.getD_some, zipIdx_map_zipIdx, createdRead, List.map_map,
      List.map_map]
    rfl
  have hread : (createdRead did.uri keys options).map Prod.snd =
      (verificationMethodsToAdd options).zipIdx.map (createdMethod did.uri keys) := by
    rw [createdRead, List.map_map]
    rfl
  have hne : createdRead did.uri keys options ≠ [] := by
    unfold createdRead verificationMethodsToAdd
    split
    · next hany =>
      intro hnil
      rw [List.map_eq_nil_iff, List.zipIdx_eq_nil_iff] at hnil
      simp [hnil] at hany
    · simp
  refine DidDocument.ext huri ?_ ?_ ?_ ?_ ?_
  · change (did.document.alsoKnownAs.map fun ids =>
      split (join ids valueSeparator) valueSeparator) = did.document.alsoKnownAs
    rw [haka]
    exact (alsoKnownAs_readBack hplain).mpr hcanonical.alsoKnownAs
  · change readBackController did.document.controller = did.document.controller
    rw [hcontroller]
    exact (controller_readBack hplain).mpr hcanonical.controllers
  · change (if createdRead did.uri keys options = [] then none
      else some ((createdRead did.uri keys options).map Prod.snd)) = did.document.verificationMethod
    rw [if_neg hne, hread, hmethods]
  · unfold readResolution
    exact relationship_readBack hrelated rfl (id_created h hplain hcreate) (fun _ => rfl) hlookup
  · change (if did.document.service.getD [] = [] then none
      else some (did.document.service.getD [])) = did.document.service
    rw [service_created hcreate, hservice]
    by_cases hnil : options.services = []
    · simp [hnil]
    · simp [hnil]

/-- A created document is read back from its packet exactly if the options are canonical. -/
theorem roundTrips_iff (h : Faithful keys) (hplain : options.Plain)
    (hcreate : create options keys = .ok did)
    (hproof : ∀ proof ∈ previousDidProof, C.verifyPreviousDidProof did.uri proof = true) :
    did.RoundTrips authoritativeGatewayUris previousDidProof ↔ options.Canonical := by
  obtain ⟨huri, -, -, -, -, -, -⟩ := create_spec hcreate
  obtain ⟨previous, hprevious⟩ : ∃ previous,
      previousDidRecord did.document previousDidProof = .ok previous := by
    cases previousDidProof with
    | none => exact ⟨[], rfl⟩
    | some proof => exact ⟨_, if_pos (huri ▸ hproof proof rfl)⟩
  obtain ⟨name, targets, hpacket⟩ :=
    toDnsPacket_create authoritativeGatewayUris h hplain hcreate hprevious
  constructor
  · rintro ⟨packet, r, hwrite, hread, hdocument, -⟩
    obtain rfl := Except.ok.inj (hpacket.symm.trans hwrite)
    obtain ⟨methods, services, hreadMethods, hreadServices, rfl⟩ :=
      (fromDnsPacket_eq_ok hprevious name targets).mp hread
    exact canonical_of_read h hplain hcreate hreadMethods hreadServices hdocument
  · intro hcanonical
    have hreadMethods := createdRead_forall₂
      ((readMethod_iff h hplain did.uri).mpr ⟨hcanonical.curve, hcanonical.identity⟩)
    have hreadServices : List.Forall₂ (fun p service => readService did.uri p.2 = .ok service)
        ((did.document.service.getD []).zipIdx.map fun p => (p.2, serviceData p.1))
        (did.document.service.getD []) := by
      have hforall := (readService_iff hplain hcreate).mpr hcanonical.services
      rw [List.forall₂_map_left_iff]
      conv => arg 3; rw [← List.zipIdx_map_fst 0 (did.document.service.getD [])]
      rw [List.forall₂_map_right_iff, List.forall₂_same]
      dsimp only
      exact hforall
    exact ⟨_, _, hpacket, (fromDnsPacket_eq_ok hprevious name targets).mpr
      ⟨_, _, hreadMethods, hreadServices, rfl⟩,
      readResolution_created h hplain hcanonical hcreate, getD_readBackTypes did.types⟩

end Main

end EnboxDwn.DidDht

/-! ## One kind of key -/

namespace EnboxDwn.DidDht.Example
open SeparatedText

/-- Key conversion for the one pair of coordinates that all keys have here. -/
instance : Crypto where
  Bytes := String
  publicKeyToBytes _ jwk := jwk.x ++ jwk.y.getD ""
  bytesToPublicKey curve bytes :=
    let jwk : Jwk := match curve with
      | .ed25519 => { kty := "OKP", crv := "Ed25519", x := bytes }
      | .secp256k1 => { kty := "EC", crv := "secp256k1", x := "x", y := some "y" }
      | .p256 => { kty := "EC", crv := "P-256", x := "x", y := some "y" }
      | .x25519 => { kty := "OKP", crv := "X25519", x := bytes }
    { jwk with kid := some (jwk.crv ++ jwk.x) }
  toBase64Url bytes := bytes
  ofBase64Url text := text
  computeJwkThumbprint jwk := jwk.crv ++ jwk.x
  toBase32Z bytes := bytes
  verifyPreviousDidProof _ _ := true
  getGatewayNsTarget _ := none

def keys (_ : Nat) : KeyMaterial := ⟨"x", "y"⟩

theorem faithful_keys : Faithful keys where
  convert n algorithm curve hcurve := by
    cases algorithm <;> cases curve <;> first | rfl | cases hcurve
  base64Url n algorithm curve := by
    rw [show keys n = ⟨"x", "y"⟩ from rfl]
    cases algorithm <;> cases curve <;> decide
  thumbprint jwk kid alg := rfl
  thumbprintText n algorithm := by
    rw [show keys n = ⟨"x", "y"⟩ from rfl]
    cases algorithm <;> decide

def canonicalOptions : DidDhtCreateOptions where
  alsoKnownAs := some ["did:example:alias"]
  controllers := some (.many ["did:example:a", "did:example:b"])
  verificationMethods :=
    [{ algorithm := .x25519, id := some "enc", controller := some "did:example:a",
       purposes := [.keyAgreement] }]
  services := [{ id := "dwn", type := "DecentralizedWebNode",
                 serviceEndpoint := .many [.uri "https://example.com"] }]
  types := some [.name .organization]

theorem plain_canonicalOptions : canonicalOptions.Plain := by
  constructor <;> simp [canonicalOptions]
  any_goals decide
  constructor <;> simp <;> decide

theorem canonical_canonicalOptions : canonicalOptions.Canonical := by
  constructor <;> simp [canonicalOptions]
  · decide
  · exact ⟨⟨["https://example.com"], by simp, rfl⟩, by simp, by simp⟩

theorem roundTrips_canonicalOptions : ∃ did, create canonicalOptions keys = .ok did ∧
    did.RoundTrips [] none :=
  ⟨_, rfl, (roundTrips_iff faithful_keys plain_canonicalOptions rfl (by simp)).mpr
    canonical_canonicalOptions⟩

def p256Options : DidDhtCreateOptions where
  verificationMethods := [{ algorithm := .secp256r1, purposes := [.authentication] }]

def readBack (options : DidDhtCreateOptions) : Except Failure Resolution := do
  let did ← create options keys
  let packet ← toDnsPacket did.document did.types [] none
  fromDnsPacket did.uri packet

/-- The key type of a key on P-256 is written as `undefined`, and its record is not read. -/
theorem not_roundTrips_p256Options : Faithful keys ∧ p256Options.Plain ∧
    ∃ did, create p256Options keys = .ok did ∧ ¬ did.RoundTrips [] none := by
  obtain ⟨did, hcreate⟩ : ∃ did, create p256Options keys = .ok did := ⟨_, rfl⟩
  refine ⟨faithful_keys, by constructor <;> simp [p256Options], did, hcreate, ?_⟩
  rintro ⟨packet, r, hwrite, hread, -⟩
  have hfails : (readBack p256Options).isOk = false := by decide
  have hok : readBack p256Options = .ok r := by
    unfold readBack
    rw [hcreate]
    change (toDnsPacket did.document did.types [] none >>= fromDnsPacket did.uri) = _
    rw [hwrite]
    exact hread
  rw [hok] at hfails
  cases hfails

end EnboxDwn.DidDht.Example
