import EnboxDwn.DidDhtDns

/-! The single records of a did:dht packet: when a method and a service are read back as they were
written. -/
namespace EnboxDwn.DidDht
open SeparatedText

/-! ## Reading what was written -/

theorem foldl_chunk (segment data : List Char) (before : String) :
    (chunk segment data).foldl (· ++ ·) before = before ++ String.ofList (segment ++ data) := by
  induction data generalizing segment before with
  | nil => simp [chunk]
  | cons char data ih =>
    rw [chunk]
    split
    · rw [List.foldl_cons, ih]
      apply String.toList_inj.mp
      simp
    · rw [ih, List.append_assoc]
      rfl

theorem parseTxtDataToString_chunk (data : String) :
    parseTxtDataToString (chunkDataIfNeeded data) = data := by
  unfold chunkDataIfNeeded
  split
  · rfl
  · rw [parseTxtDataToString, foldl_chunk]
    apply String.toList_inj.mp
    simp

/-- Pairs that separators do not cut and that an object can hold. -/
structure Writable (pairs : List (String × String)) : Prop where
  nodup : (pairs.map Prod.fst).Nodup
  key : ∀ p ∈ pairs, Lacks '=' p.1 ∧ Lacks propertySeparator p.1 ∧ p.1 ≠ "__proto__"
  value : ∀ p ∈ pairs, Lacks propertySeparator p.2

theorem foldl_assign {pairs : List (String × String)} {o : Assoc (Option String)}
    (hnodup : (o.map Prod.fst ++ pairs.map Prod.fst).Nodup)
    (hproto : ∀ p ∈ pairs, p.1 ≠ "__proto__") :
    (pairs.map fun p => (p.1, some p.2)).foldl assign o =
      o ++ pairs.map fun p => (p.1, some p.2) := by
  induction pairs generalizing o with
  | nil => simp
  | cons p pairs ih =>
    have hfresh : p.1 ∉ o.map Prod.fst := by
      intro hmem
      exact (List.nodup_append.mp hnodup).2.2 _ hmem _ (by simp) rfl
    have hassign : assign o (p.1, some p.2) = o ++ [(p.1, some p.2)] := by
      rw [assign, if_neg (hproto p List.mem_cons_self), Assoc.set_of_fresh hfresh]
    rw [List.map_cons, List.foldl_cons, hassign, ih]
    · simp
    · simpa using hnodup
    · exact fun q hq => hproto q (List.mem_cons_of_mem _ hq)

/-- An object is read back from its pairs. -/
theorem parse_join {pairs : List (String × String)} (h : Writable pairs) (hne : pairs ≠ [])
    {data : TxtData}
    (hdata : parseTxtDataToString data = join (pairs.map writePair) propertySeparator) :
    parseTxtDataToObject data = pairs.map fun p => (p.1, some p.2) := by
  have hlacks : ∀ text ∈ pairs.map writePair, Lacks propertySeparator text := by
    intro text ht
    obtain ⟨p, hp, rfl⟩ := List.mem_map.mp ht
    have heq : Lacks propertySeparator "=" := by decide
    exact lacks_append.mpr ⟨lacks_append.mpr ⟨(h.key p hp).2.1, heq⟩, h.value p hp⟩
  have hread : (pairs.map writePair).map readPair = pairs.map fun p => (p.1, some p.2) := by
    rw [List.map_map]
    exact List.map_congr_left fun p hp => readPair_writePair (h.key p hp).1
  rw [parseTxtDataToObject, hdata, split_join (by simpa using hne) hlacks, hread]
  have hassign := foldl_assign (o := []) (by simpa using h.nodup) fun p hp => (h.key p hp).2.2
  rwa [List.nil_append] at hassign

theorem property_map (pairs : List (String × String)) (key : String) :
    property (pairs.map fun p => (p.1, some p.2)) key = Assoc.get pairs key := by
  unfold property
  induction pairs with
  | nil => rfl
  | cons p pairs ih =>
    rw [List.map_cons, Assoc.get_cons, Assoc.get_cons]
    by_cases h : p.1 = key
    · simp [h]
    · simpa [h] using ih

theorem property_parse {pairs : List (String × String)} (h : Writable pairs) (hne : pairs ≠ [])
    (key : String) :
    property (parseTxtDataToObject (.text (join (pairs.map writePair) propertySeparator))) key =
      Assoc.get pairs key := by
  rw [parse_join h hne rfl, property_map]

/-- Records that are read on their own and whose readings are added to the state. -/
theorem foldlM_eq_ok {α β σ ε : Type} {f : σ → α → Except ε σ} {read : α → Except ε β}
    {add : σ → β → σ} (hf : ∀ s a, f s a = (read a).map (add s)) {records : List α} {s s' : σ} :
    records.foldlM f s = .ok s' ↔
      ∃ values, List.Forall₂ (fun a b => read a = .ok b) records values ∧ s' = values.foldl add s := by
  induction records generalizing s with
  | nil =>
    simp only [List.foldlM_nil, List.forall₂_nil_left_iff, exists_eq_left]
    exact ⟨fun h => (Except.ok.inj h).symm, fun h => congrArg Except.ok h.symm⟩
  | cons a records ih =>
    rw [List.foldlM_cons, hf]
    cases hread : read a with
    | error e =>
      constructor
      · intro h
        cases h
      · rintro ⟨values, hall, -⟩
        cases hall with
        | cons hhead _ =>
          rw [hread] at hhead
          cases hhead
    | ok b =>
      refine Iff.trans ih ?_
      constructor
      · rintro ⟨values, hall, rfl⟩
        exact ⟨b :: values, .cons hread hall, rfl⟩
      · rintro ⟨values, hall, rfl⟩
        cases hall with
        | cons hhead htail =>
          rename_i b' values
          rw [hread, Except.ok.injEq] at hhead
          exact ⟨values, htail, by rw [hhead]; rfl⟩

/-! ## The names of records -/

/-- The record identifier is what stands before the first dot. -/
theorem dnsRecordIdOf_cut {recordId : String} (h : Lacks '.' recordId) (rest : String) :
    dnsRecordIdOf ("_" ++ recordId ++ "." ++ rest) = recordId := by
  have hcut : split ("_" ++ recordId ++ "." ++ rest) '.' = ("_" ++ recordId) :: split rest '.' :=
    split_of_cut (lacks_append.mpr ⟨by decide, h⟩) rest
  unfold dnsRecordIdOf
  simp only [hcut, List.head_cons]
  apply String.toList_inj.mp
  simp

theorem dnsRecordIdOf_did {recordId : String} (h : Lacks '.' recordId) :
    dnsRecordIdOf ("_" ++ recordId ++ "._did.") = recordId := by
  have hdot : "._did." = "." ++ "_did." := by decide
  rw [hdot, ← String.append_assoc]
  exact dnsRecordIdOf_cut h "_did."

variable [C : Crypto]

def methodRecord (index : Nat) (data : TxtData) : Answer :=
  createTxtRecord ("_" ++ ("k" ++ toString index) ++ "._did.") data

def serviceRecord (index : Nat) (data : TxtData) : Answer :=
  createTxtRecord ("_s" ++ toString index ++ "._did.") data

section Answers
variable (didUri : String) (r : Resolution) (data : TxtData)

theorem applyAnswer_method (index : Nat) :
    applyAnswer didUri r (methodRecord index data) =
      applyVerificationMethodRecord didUri ("k" ++ toString index) r data := by
  have hid : dnsRecordIdOf ("_" ++ ("k" ++ toString index) ++ "._did.") = "k" ++ toString index :=
    dnsRecordIdOf_did (lacks_append.mpr ⟨by decide, toString_lacks index (by decide)⟩)
  simp only [methodRecord, createTxtRecord, applyAnswer, hid]
  simp [startsWith]

theorem applyAnswer_service (index : Nat) :
    applyAnswer didUri r (serviceRecord index data) = applyServiceRecord didUri r data := by
  have hid : dnsRecordIdOf ("_s" ++ toString index ++ "._did.") = "s" ++ toString index := by
    have hname : "_s" ++ toString index = "_" ++ ("s" ++ toString index) := by
      apply String.toList_inj.mp
      simp
    rw [hname]
    exact dnsRecordIdOf_did (lacks_append.mpr ⟨by decide, toString_lacks index (by decide)⟩)
  simp only [serviceRecord, createTxtRecord, applyAnswer, hid]
  simp [startsWith]

theorem applyAnswer_root (suffix : String) :
    applyAnswer didUri r (createTxtRecord ("_did." ++ suffix ++ ".") data) =
      .ok (applyVerificationRelationshipsRecord r data) := by
  have hid : dnsRecordIdOf ("_did." ++ (suffix ++ ".")) = "did" :=
    dnsRecordIdOf_cut (show Lacks '.' "did" by decide) _
  simp only [createTxtRecord, applyAnswer, String.append_assoc, hid]
  rfl

end Answers

/-! ## Whole packets -/

namespace Resolution

def addMethods (r : Resolution) (methods : List (String × DidVerificationMethod)) : Resolution :=
  methods.foldl (fun r p =>
    { r with
      didDocument := { r.didDocument with
        verificationMethod := some (r.didDocument.verificationMethod.getD [] ++ [p.2]) }
      idLookup := Assoc.set r.idLookup p.1 p.2.id }) r

def addServices (r : Resolution) (services : List DidService) : Resolution :=
  services.foldl (fun r service =>
    { r with
      didDocument := { r.didDocument with
        service := some (r.didDocument.service.getD [] ++ [service]) } }) r

end Resolution

section Folds
variable (didUri : String)

theorem foldlM_methods {methods : List (Nat × TxtData)} {r r' : Resolution} :
    (methods.map fun p => methodRecord p.1 p.2).foldlM (applyAnswer didUri) r = .ok r' ↔
      ∃ read, List.Forall₂ (fun p q => (readVerificationMethod didUri ("k" ++ toString p.1) p.2).map
          (fun method => ("k" ++ toString p.1, method)) = .ok q) methods read ∧
        r' = r.addMethods read := by
  rw [List.foldlM_map]
  refine foldlM_eq_ok fun r p => ?_
  rw [applyAnswer_method, applyVerificationMethodRecord]
  cases readVerificationMethod didUri ("k" ++ toString p.1) p.2 with
  | error e => rfl
  | ok method => rfl

theorem foldlM_services {services : List (Nat × TxtData)} {r r' : Resolution} :
    (services.map fun p => serviceRecord p.1 p.2).foldlM (applyAnswer didUri) r = .ok r' ↔
      ∃ read, List.Forall₂ (fun p service => readService didUri p.2 = .ok service) services read ∧
        r' = r.addServices read := by
  rw [List.foldlM_map]
  refine foldlM_eq_ok fun r p => ?_
  rw [applyAnswer_service, applyServiceRecord]
  cases readService didUri p.2 with
  | error e => rfl
  | ok service => rfl

end Folds

/-! ## Methods -/

/-- What is relied on of the key conversion, the thumbprints and the text encodings, for the keys
that get generated. -/
structure Faithful (keys : Nat → KeyMaterial) : Prop where
  convert : ∀ n algorithm curve,
    keyConverter (some (getPublicKey algorithm (keys n)).crv) = .ok curve →
      C.bytesToPublicKey curve (C.ofBase64Url (C.toBase64Url
        (C.publicKeyToBytes curve (canonicalize (getPublicKey algorithm (keys n)))))) =
        { getPublicKey algorithm (keys n) with alg := none }
  base64Url : ∀ n algorithm curve, Lacks propertySeparator (C.toBase64Url
    (C.publicKeyToBytes curve (canonicalize (getPublicKey algorithm (keys n)))))
  thumbprint : ∀ (jwk : Jwk) (kid alg : Option String),
    C.computeJwkThumbprint { jwk with kid, alg } = C.computeJwkThumbprint jwk
  thumbprintText : ∀ n algorithm,
    (C.computeJwkThumbprint (getPublicKey algorithm (keys n)) ≠ "" ∧
      C.computeJwkThumbprint (getPublicKey algorithm (keys n)) ≠ "0") ∧
    Lacks '#' (C.computeJwkThumbprint (getPublicKey algorithm (keys n))) ∧
    Lacks propertySeparator (C.computeJwkThumbprint (getPublicKey algorithm (keys n)))

def Algorithm.isP256 : Algorithm → Bool
  | es256 | p256 | secp256r1 => true
  | _ => false

theorem keyType_of_supported {algorithm : Algorithm} (h : algorithm.isP256 = false)
    (key : KeyMaterial) :
    ∃ keyType curve,
      algorithmToKeyTypeMap (getPublicKey algorithm key).crv = some keyType ∧
      DidDhtRegisteredKeyType.ofName (getPublicKey algorithm key).crv = some keyType ∧
      keyConverter (some (getPublicKey algorithm key).crv) = .ok curve ∧
      keyConverter (some keyType.name) = .ok curve ∧
      (canonicalize (getPublicKey algorithm key)).alg =
        some (keyTypeToDefaultAlgorithmMap keyType) := by
  cases algorithm with
  | ed25519 => exact ⟨.ed25519, .ed25519, rfl, rfl, rfl, rfl, rfl⟩
  | es256k => exact ⟨.secp256k1, .secp256k1, rfl, rfl, rfl, rfl, rfl⟩
  | secp256k1 => exact ⟨.secp256k1, .secp256k1, rfl, rfl, rfl, rfl, rfl⟩
  | x25519 => exact ⟨.x25519, .x25519, rfl, rfl, rfl, rfl, rfl⟩
  | es256 => cases h
  | p256 => cases h
  | secp256r1 => cases h

/-- The enumeration of key types has no member `P-256`. -/
theorem keyType_of_p256 {algorithm : Algorithm} (h : algorithm.isP256 = true) (key : KeyMaterial) :
    algorithmToKeyTypeMap (getPublicKey algorithm key).crv = some .secp256r1 ∧
      DidDhtRegisteredKeyType.ofName (getPublicKey algorithm key).crv = none ∧
      keyConverter (some (getPublicKey algorithm key).crv) = .ok .p256 ∧
      (canonicalize (getPublicKey algorithm key)).alg = some "ES256" := by
  cases algorithm with
  | es256 => exact ⟨rfl, rfl, rfl, rfl⟩
  | p256 => exact ⟨rfl, rfl, rfl, rfl⟩
  | secp256r1 => exact ⟨rfl, rfl, rfl, rfl⟩
  | ed25519 => cases h
  | es256k => cases h
  | secp256k1 => cases h
  | x25519 => cases h

omit C in
theorem number_keyType (keyType : DidDhtRegisteredKeyType) :
    (number (toString keyType.number)).bind DidDhtRegisteredKeyType.ofNumber = some keyType := by
  cases keyType <;> decide

section MethodPairs
variable {id a c : Option String} {t k : String}

omit C in
theorem get_methodPairs :
    Assoc.get (methodPairs id a c t k) "id" = id ∧ Assoc.get (methodPairs id a c t k) "t" = some t ∧
      Assoc.get (methodPairs id a c t k) "k" = some k ∧ Assoc.get (methodPairs id a c t k) "a" = a ∧
      Assoc.get (methodPairs id a c t k) "c" = c := by
  cases id <;> cases a <;> cases c <;> exact ⟨rfl, rfl, rfl, rfl, rfl⟩

omit C in
theorem mem_methodPairs {p : String × String} (hp : p ∈ methodPairs id a c t k) :
    p.1 = "id" ∧ p.2 ∈ id ∨ p = ("t", t) ∨ p = ("k", k) ∨ p.1 = "a" ∧ p.2 ∈ a ∨
      p.1 = "c" ∧ p.2 ∈ c := by
  simp only [methodPairs, List.mem_append, Option.mem_toList, Option.map_eq_some_iff,
    List.mem_cons, List.not_mem_nil, or_false] at hp
  obtain ((⟨v, hv, rfl⟩ | rfl | rfl) | ⟨v, hv, rfl⟩) | ⟨v, hv, rfl⟩ := hp
  · exact Or.inl ⟨rfl, hv⟩
  · exact Or.inr (Or.inl rfl)
  · exact Or.inr (Or.inr (Or.inl rfl))
  · exact Or.inr (Or.inr (Or.inr (Or.inl ⟨rfl, hv⟩)))
  · exact Or.inr (Or.inr (Or.inr (Or.inr ⟨rfl, hv⟩)))

omit C in
theorem writable_methodPairs (hid : ∀ v ∈ id, Lacks propertySeparator v)
    (ha : ∀ v ∈ a, Lacks propertySeparator v) (hc : ∀ v ∈ c, Lacks propertySeparator v)
    (ht : Lacks propertySeparator t) (hk : Lacks propertySeparator k) :
    Writable (methodPairs id a c t k) where
  nodup := by cases id <;> cases a <;> cases c <;> simp [methodPairs]
  key := by
    intro p hp
    obtain ⟨hkey, -⟩ | rfl | rfl | ⟨hkey, -⟩ | ⟨hkey, -⟩ := mem_methodPairs hp
    · rw [hkey]
      decide
    · simp only
      decide
    · simp only
      decide
    · rw [hkey]
      decide
    · rw [hkey]
      decide
  value := by
    intro p hp
    obtain ⟨-, hv⟩ | rfl | rfl | ⟨-, hv⟩ | ⟨-, hv⟩ := mem_methodPairs hp
    · exact hid _ hv
    · exact ht
    · exact hk
    · exact ha _ hv
    · exact hc _ hv

end MethodPairs

omit C in
/-- The fragment of an id is what was put behind its last `#`. -/
theorem fragment_append (didUri : String) {f : String} (hf : Lacks '#' f) :
    fragment (didUri ++ "#" ++ f) = f := by
  have hsplit : split (didUri ++ "#" ++ f) '#' = split didUri '#' ++ [f] := by
    have htext : (didUri ++ "#" ++ f).toList = didUri.toList ++ '#' :: f.toList := by simp
    rw [← split_of_lacks hf, split, htext, List.splitOn_append_cons_self, List.map_append]
    rfl
  simp [fragment, hsplit]

theorem process_eq {didDocument : DidDocument} {method : DidVerificationMethod} {publicKey : Jwk}
    {keyType : DidDhtRegisteredKeyType} {curve : Curve} (index : Nat)
    (hkey : method.publicKeyJwk = some publicKey)
    (htype : algorithmToKeyTypeMap publicKey.crv = some keyType)
    (hcurve : keyConverter (some publicKey.crv) = .ok curve) :
    processVerificationMethodForDnsPacket didDocument index method =
      .ok (fragment method.id,
        methodRecord index (methodData didDocument.id method publicKey curve)) := by
  unfold processVerificationMethodForDnsPacket
  simp only [hkey, Option.map_some, Option.getD_some, htype, hcurve]
  rfl

def generatedMethod (didUri f controller : String) (publicKey : Jwk) : DidVerificationMethod where
  id := didUri ++ "#" ++ f
  type := "JsonWebKey"
  controller := controller
  publicKeyJwk := some (canonicalize publicKey)

section Method
variable {keys : Nat → KeyMaterial} {f controller : String}

section Keyed
variable (h : Faithful keys) (didUri : String)
    {algorithm : Algorithm} {n : Nat} (hf : Lacks '#' f) (hsep : Lacks propertySeparator f)
    (hcsep : controller ≠ didUri → Lacks propertySeparator controller)
include h hf hsep hcsep

theorem writable_methodEntries (curve : Curve) :
    Writable (methodEntries didUri
      (generatedMethod didUri f controller (getPublicKey algorithm (keys n)))
      (canonicalize (getPublicKey algorithm (keys n))) curve) := by
  have hfrag : fragment (generatedMethod didUri f controller (getPublicKey algorithm (keys n))).id = f :=
    fragment_append didUri hf
  unfold methodEntries
  rw [hfrag]
  refine writable_methodPairs ?_ ?_ ?_ ?_ (h.base64Url n algorithm curve)
  · intro v hv
    split at hv
    · cases hv
      exact hsep
    · cases hv
  · intro v hv
    have halg : (canonicalize (getPublicKey algorithm (keys n))).alg = some v :=
      (Option.filter_eq_some_iff.mp hv).1
    cases algorithm <;> cases halg <;> decide
  · intro v hv
    split at hv
    · next hne =>
      cases hv
      exact hcsep hne
    · cases hv
  · generalize DidDhtRegisteredKeyType.ofName
      (canonicalize (getPublicKey algorithm (keys n))).crv = keyType
    cases keyType with
    | none => decide
    | some keyType => cases keyType <;> decide

theorem property_methodData (curve : Curve) :
    let publicKey := canonicalize (getPublicKey algorithm (keys n))
    let o := parseTxtDataToObject
      (methodData didUri (generatedMethod didUri f controller (getPublicKey algorithm (keys n)))
        publicKey curve)
    let keyType := DidDhtRegisteredKeyType.ofName publicKey.crv
    property o "id" =
        (if f ≠ "0" ∧ C.computeJwkThumbprint publicKey ≠ f then some f else none) ∧
      property o "t" = some ((keyType.map fun keyType => toString keyType.number).getD "undefined") ∧
      property o "k" = some (C.toBase64Url (C.publicKeyToBytes curve publicKey)) ∧
      property o "a" =
        publicKey.alg.filter (fun alg => some alg ≠ keyType.map keyTypeToDefaultAlgorithmMap) ∧
      property o "c" = if controller ≠ didUri then some controller else none := by
  intro publicKey o keyType
  have hfrag : fragment (generatedMethod didUri f controller (getPublicKey algorithm (keys n))).id = f :=
    fragment_append didUri hf
  have hget : ∀ key, property o key = Assoc.get (methodEntries didUri
      (generatedMethod didUri f controller (getPublicKey algorithm (keys n))) publicKey curve) key :=
    property_parse (writable_methodEntries h didUri hf hsep hcsep curve)
      (by simp [methodEntries, methodPairs])
  rw [hget, hget, hget, hget, hget, methodEntries, hfrag]
  exact get_methodPairs

/-- A method is read back with its key; the first method as the identity key, the others under
their own id unless this is `0`. -/
theorem readVerificationMethod_methodData (hsupported : algorithm.isP256 = false) {curve : Curve}
    (hcurve : keyConverter (some (getPublicKey algorithm (keys n)).crv) = .ok curve)
    (dnsRecordId : String) :
    readVerificationMethod didUri dnsRecordId
        (methodData didUri (generatedMethod didUri f controller (getPublicKey algorithm (keys n)))
          (canonicalize (getPublicKey algorithm (keys n))) curve) =
      .ok (generatedMethod didUri
        (if dnsRecordId = "k0" then "0"
          else if f = "0" then C.computeJwkThumbprint (getPublicKey algorithm (keys n)) else f)
        controller (getPublicKey algorithm (keys n))) := by
  obtain ⟨keyType, curve', -, hname, hcurve', htype, halg⟩ := keyType_of_supported hsupported (keys n)
  obtain rfl : curve' = curve := Except.ok.inj (hcurve'.symm.trans hcurve)
  obtain ⟨hid, ht, hk, ha, hc⟩ := property_methodData h didUri hf hsep hcsep curve'
  have hcrv : (canonicalize (getPublicKey algorithm (keys n))).crv =
      (getPublicKey algorithm (keys n)).crv := rfl
  have hthumb : C.computeJwkThumbprint (canonicalize (getPublicKey algorithm (keys n))) =
      C.computeJwkThumbprint (getPublicKey algorithm (keys n)) :=
    h.thumbprint (getPublicKey algorithm (keys n)) _ _
  rw [hcrv, hname] at ht ha
  rw [halg] at ha
  simp only [Option.map_some, Option.getD_some, ne_eq, decide_not, Option.filter_some,
    decide_true, Bool.not_true, Bool.false_eq_true, if_false] at ht ha
  have hkeyType : ((some (toString keyType.number)).bind number).bind
      DidDhtRegisteredKeyType.ofNumber = some keyType := number_keyType keyType
  have hkey : ({ C.bytesToPublicKey curve' (C.ofBase64Url (C.toBase64Url (C.publicKeyToBytes curve'
        (canonicalize (getPublicKey algorithm (keys n)))))) with
      alg := some (keyTypeToDefaultAlgorithmMap keyType) } : Jwk) =
      canonicalize (getPublicKey algorithm (keys n)) := by
    rw [h.convert n algorithm curve' hcurve', ← halg]
    rfl
  -- An id that is left out is the thumbprint, or the `0` that only the first method may have.
  have hmethodId : (if f ≠ "0" ∧ C.computeJwkThumbprint (getPublicKey algorithm (keys n)) ≠ f then
        some f else none).getD (C.computeJwkThumbprint (getPublicKey algorithm (keys n))) =
      if f = "0" then C.computeJwkThumbprint (getPublicKey algorithm (keys n)) else f := by
    by_cases hzero : f = "0"
    · simp [hzero]
    · by_cases hself : C.computeJwkThumbprint (getPublicKey algorithm (keys n)) = f
      · simp [hzero, hself]
      · simp [hzero, hself]
  have hcontroller : (if controller ≠ didUri then some controller else none).getD didUri =
      controller := by
    by_cases hself : controller = didUri
    · simp [hself]
    · simp [hself]
  unfold readVerificationMethod
  simp only [hid, ht, hk, ha, hc, hkeyType, Option.map_some, htype, hcontroller]
  change Except.ok _ = Except.ok _
  simp only [hkey, hthumb, hmethodId]
  rfl

/-- The record of a key on P-256 names no key type and cannot be read. -/
theorem readVerificationMethod_p256 (hp256 : algorithm.isP256 = true)
    (dnsRecordId : String) :
    readVerificationMethod didUri dnsRecordId
        (methodData didUri (generatedMethod didUri f controller (getPublicKey algorithm (keys n)))
          (canonicalize (getPublicKey algorithm (keys n))) .p256) =
      .error (.didError "invalidPublicKeyType" "Unsupported curve: undefined") := by
  obtain ⟨-, hname, -, -⟩ := keyType_of_p256 hp256 (keys n)
  obtain ⟨-, ht, hk, -, -⟩ := property_methodData h didUri hf hsep hcsep .p256
  have hcrv : (canonicalize (getPublicKey algorithm (keys n))).crv =
      (getPublicKey algorithm (keys n)).crv := rfl
  rw [hcrv, hname] at ht
  have hnumber : number "undefined" = none := by decide
  unfold readVerificationMethod
  simp only [ht, hk, Option.map_none, Option.getD_none, Option.bind_some, hnumber, Option.bind_none]
  rfl

end Keyed

end Method

/-! ## Services -/

/-- No text of the service contains a separator, its id apart. -/
structure DidService.Plain (service : DidService) : Prop where
  type : Lacks ';' service.type
  uris : ∀ endpoints, service.serviceEndpoint = .many endpoints → ∀ uri, .uri uri ∈ endpoints →
    Lacks ';' uri ∧ Lacks ',' uri
  key : ∀ p ∈ service.customProperties.entries, Lacks ';' p.1
  text : ∀ p ∈ service.customProperties.entries, ∀ value, p.2 = .text value →
    Lacks ';' value ∧ Lacks ',' value
  texts : ∀ p ∈ service.customProperties.entries, ∀ values, p.2 = .texts values →
    ∀ value ∈ values, Lacks ';' value ∧ Lacks ',' value

/-- The property can be told from the others and from a single text. -/
def PropertyValue.Canonical : PropertyValue → Prop
  | text _ => True
  | texts values => 2 ≤ values.length
  | other _ => False

/-- The services whose records are read back: the endpoint is a list of at least one URI, and the
custom properties have names of their own without `=` and values that are texts or lists of at
least two. -/
structure DidService.Canonical (service : DidService) : Prop where
  endpoint : ∃ uris, uris ≠ [] ∧ service.serviceEndpoint = .many (uris.map .uri)
  key : ∀ p ∈ service.customProperties.entries, p.1 ∉ ["t", "se", "__proto__"] ∧ Lacks '=' p.1
  value : ∀ p ∈ service.customProperties.entries, p.2.Canonical

omit C in
theorem lacks_join {c sep : Char} {parts : List String} (hsep : c ≠ sep)
    (h : ∀ p ∈ parts, Lacks c p) : Lacks c (join parts sep) := by
  induction parts with
  | nil => simp [Lacks]
  | cons p parts ih =>
    have hp := h p List.mem_cons_self
    have hrest := ih fun q hq => h q (List.mem_cons_of_mem _ hq)
    by_cases hnil : parts = []
    · simpa [hnil] using hp
    · rw [join_cons p hnil]
      exact lacks_append.mpr ⟨lacks_append.mpr ⟨hp, by simpa [Lacks] using hsep⟩, hrest⟩

omit C in
theorem readEndpoints_join {uris : List String} (hne : uris ≠ [])
    (h : ∀ uri ∈ uris, Lacks ',' uri) :
    readEndpoints (join uris ',') = .many (uris.map .uri) := by
  have hsplit : split (join uris ',') ',' = uris := split_join hne h
  unfold readEndpoints
  by_cases hlacks : Lacks valueSeparator (join uris ',')
  · rw [if_pos hlacks, ← split_of_lacks hlacks]
    exact congrArg (fun l => ServiceEndpoints.many (l.map .uri)) hsplit
  · rw [if_neg hlacks]
    exact congrArg (fun l => ServiceEndpoints.many (l.map .uri)) hsplit

omit C in
theorem readPropertyValue_toText {value : PropertyValue} (hcanonical : value.Canonical)
    (htext : ∀ v, value = .text v → Lacks ',' v)
    (htexts : ∀ vs, value = .texts vs → ∀ v ∈ vs, Lacks ',' v) :
    readPropertyValue value.toText = value := by
  cases value with
  | text v => exact if_pos (htext v rfl)
  | other v => exact hcanonical.elim
  | texts vs =>
    have htwo : 2 ≤ vs.length := hcanonical
    have hne : vs ≠ [] := by
      rintro rfl
      simp at htwo
    have hsplit : split (join vs ',') ',' = vs := split_join hne (htexts vs rfl)
    have hcomma : ¬ Lacks valueSeparator (join vs ',') := by
      intro hlacks
      have hone : [join vs ','] = vs := (split_of_lacks hlacks).symm.trans hsplit
      rw [← hone] at htwo
      simp at htwo
    unfold readPropertyValue PropertyValue.toText
    rw [if_neg hcomma]
    exact congrArg PropertyValue.texts hsplit

omit C in
theorem canonical_readPropertyValue (v : String) : (readPropertyValue v).Canonical := by
  unfold readPropertyValue
  by_cases hlacks : Lacks valueSeparator v
  · rw [if_pos hlacks]
    exact trivial
  · rw [if_neg hlacks]
    exact two_le_length_split hlacks

omit C in
theorem key_parse {data : TxtData} {p : String × Option String}
    (hp : p ∈ parseTxtDataToObject data) : Lacks '=' p.1 ∧ p.1 ≠ "__proto__" := by
  have hfold : ∀ (pairs : List (String × Option String)) (o : Assoc (Option String)),
      (∀ q ∈ pairs, Lacks '=' q.1) → (∀ q ∈ o, Lacks '=' q.1 ∧ q.1 ≠ "__proto__") →
      ∀ q ∈ pairs.foldl assign o, Lacks '=' q.1 ∧ q.1 ≠ "__proto__" := by
    intro pairs
    induction pairs with
    | nil => exact fun o _ ho => ho
    | cons pair pairs ih =>
      intro o hpairs ho
      refine ih _ (fun q hq => hpairs q (List.mem_cons_of_mem _ hq)) ?_
      intro q hq
      unfold assign at hq
      split at hq
      · exact ho q hq
      · next hproto =>
        cases Assoc.mem_set hq with
        | inl hq => exact ho q hq
        | inr heq =>
          rw [heq]
          exact ⟨hpairs pair List.mem_cons_self, hproto⟩
  refine hfold _ [] ?_ (by simp) p hp
  intro q hq
  obtain ⟨text, -, rfl⟩ := List.mem_map.mp hq
  exact lacks_readPair text

omit C in
theorem canonical_readService {didUri : String} {data : TxtData} {service : DidService}
    (h : readService didUri data = .ok service) : service.Canonical := by
  unfold readService at h
  cases hse : property (parseTxtDataToObject data) "se" with
  | none =>
    simp only [hse] at h
    cases h
  | some se =>
    simp only [hse] at h
    split at h
    · cases h
    · rw [Except.ok.injEq] at h
      subst h
      refine ⟨?_, ?_, ?_⟩
      · refine ⟨_, ?_, rfl⟩
        split
        · simp
        · exact split_ne_nil se valueSeparator
      · intro p hp
        obtain ⟨q, hq, rfl⟩ := List.mem_map.mp hp
        obtain ⟨hmem, hkey⟩ := List.mem_filter.mp hq
        obtain ⟨hlacks, hproto⟩ := key_parse hmem
        refine ⟨?_, hlacks⟩
        simp only [List.mem_cons, List.not_mem_nil, or_false, not_or, decide_eq_true_eq] at hkey ⊢
        exact ⟨hkey.2.1, hkey.2.2.1, hproto⟩
      · intro p hp
        obtain ⟨q, -, rfl⟩ := List.mem_map.mp hp
        exact canonical_readPropertyValue _

section Service
variable {didUri : String} {service : DidService}

omit C in
theorem DidService.Canonical.key_not_fixed (h : service.Canonical) {p : String × PropertyValue}
    (hp : p ∈ service.customProperties.entries) : p.1 ∉ ["id", "t", "se"] := by
  have hreserved := service.customProperties.custom p hp
  have hown := (h.key p hp).1
  simp only [List.mem_cons, List.not_mem_nil, or_false, not_or] at hreserved hown ⊢
  exact ⟨hreserved.1, hown.1, hown.2.1⟩

omit C in
theorem serviceEntries_eq (h : service.Canonical) :
    serviceEntries service =
      [("id", (extractDidFragment service.id).getD "undefined"), ("t", service.type),
        ("se", service.serviceEndpoint.toText)] ++
      service.customProperties.entries.map fun p => (p.1, p.2.toText) := by
  refine Assoc.setAll_of_fresh ?_
  rw [List.map_map]
  refine List.nodup_append.mpr ⟨by simp, service.customProperties.nodup, ?_⟩
  rintro a ha b hb rfl
  obtain ⟨p, hp, rfl⟩ := List.mem_map.mp hb
  exact h.key_not_fixed hp ha

omit C in
theorem toText_lacks (hplain : service.Plain) (h : service.Canonical)
    {p : String × PropertyValue} (hp : p ∈ service.customProperties.entries) :
    Lacks ';' p.2.toText := by
  cases hvalue : p.2 with
  | text v => exact (hplain.text p hp v hvalue).1
  | texts vs => exact lacks_join (by decide) fun v hv => (hplain.texts p hp vs hvalue v hv).1
  | other v => exact (hvalue ▸ h.value p hp : (PropertyValue.other v).Canonical).elim

omit C in
theorem writable_serviceEntries (hplain : service.Plain) (h : service.Canonical)
    (hid : Lacks ';' ((extractDidFragment service.id).getD "undefined")) :
    Writable (serviceEntries service) := by
  rw [serviceEntries_eq h]
  have hse : Lacks ';' service.serviceEndpoint.toText := by
    obtain ⟨uris, -, heq⟩ := h.endpoint
    rw [heq, ServiceEndpoints.toText, List.map_map]
    refine lacks_join (by decide) fun uri huri => ?_
    obtain ⟨uri', huri', rfl⟩ := List.mem_map.mp huri
    exact (hplain.uris _ heq uri' (List.mem_map_of_mem huri')).1
  refine ⟨?_, ?_, ?_⟩
  · have hnodup := service.customProperties.nodup
    rw [List.map_append, List.map_map]
    refine List.nodup_append.mpr ⟨by simp, hnodup, ?_⟩
    rintro a ha b hb rfl
    obtain ⟨p, hp, rfl⟩ := List.mem_map.mp hb
    exact h.key_not_fixed hp ha
  · intro p hp
    cases List.mem_append.mp hp with
    | inl hp =>
      simp only [List.mem_cons, List.not_mem_nil, or_false] at hp
      obtain rfl | rfl | rfl := hp
      · simp only
        decide
      · simp only
        decide
      · simp only
        decide
    | inr hp =>
      obtain ⟨q, hq, rfl⟩ := List.mem_map.mp hp
      obtain ⟨hown, hlacks⟩ := h.key q hq
      simp only [List.mem_cons, List.not_mem_nil, or_false, not_or] at hown
      exact ⟨hlacks, hplain.key q hq, hown.2.2⟩
  · intro p hp
    cases List.mem_append.mp hp with
    | inl hp =>
      simp only [List.mem_cons, List.not_mem_nil, or_false] at hp
      obtain rfl | rfl | rfl := hp
      · exact hid
      · exact hplain.type
      · exact hse
    | inr hp =>
      obtain ⟨q, hq, rfl⟩ := List.mem_map.mp hp
      exact toText_lacks hplain h hq

def serviceData (service : DidService) : TxtData :=
  chunkDataIfNeeded (join ((serviceEntries service).map writePair) propertySeparator)

omit C in
theorem extractDidFragment_append {f : String} (hf : Lacks '#' f) :
    (extractDidFragment (didUri ++ "#" ++ f)).getD "undefined" = f := by
  have hne : didUri ++ "#" ++ f ≠ "" := by
    intro h
    have := congrArg String.toList h
    simp at this
  simp [extractDidFragment, hne, fragment_append didUri hf]

omit C in
theorem readService_serviceData (hplain : service.Plain) (h : service.Canonical) {f : String}
    (hf : Lacks '#' f) (hsep : Lacks ';' f) (hid : service.id = didUri ++ "#" ++ f) :
    readService didUri (serviceData service) = .ok service := by
  have hfrag : (extractDidFragment service.id).getD "undefined" = f := by
    rw [hid, extractDidFragment_append hf]
  have hobject : parseTxtDataToObject (serviceData service) =
      (serviceEntries service).map fun p => (p.1, some p.2) :=
    parse_join (writable_serviceEntries hplain h (hfrag ▸ hsep))
      (by simp [serviceEntries_eq h]) (parseTxtDataToString_chunk _)
  have hcustom : ((serviceEntries service).map fun p => (p.1, some p.2)).filter
      (fun p => p.1 ∉ ["id", "t", "se", "type", "serviceEndpoint"]) =
      service.customProperties.entries.map fun p => (p.1, some p.2.toText) := by
    rw [serviceEntries_eq h, List.map_append, List.filter_append, List.map_map]
    have hnone : (List.map (fun p : String × String => (p.1, some p.2))
        [("id", (extractDidFragment service.id).getD "undefined"), ("t", service.type),
          ("se", service.serviceEndpoint.toText)]).filter
        (fun p => p.1 ∉ ["id", "t", "se", "type", "serviceEndpoint"]) = [] := by
      simp
    rw [hnone, List.nil_append, List.filter_eq_self.mpr]
    · rfl
    · intro p hp
      obtain ⟨q, hq, rfl⟩ := List.mem_map.mp hp
      have hfixed := h.key_not_fixed hq
      have hreserved := service.customProperties.custom q hq
      simp only [List.mem_cons, List.not_mem_nil, or_false, not_or, Function.comp_apply,
        decide_eq_true_eq] at hfixed hreserved ⊢
      exact ⟨hfixed.1, hfixed.2.1, hfixed.2.2, hreserved.2.1, hreserved.2.2⟩
  have hcustoms : readCustomProperties (serviceData service) = service.customProperties := by
    have hentries : (readCustomProperties (serviceData service)).entries =
        service.customProperties.entries := by
      simp only [readCustomProperties, customEntries, hobject, hcustom, List.map_map]
      conv_rhs => rw [← List.map_id service.customProperties.entries]
      refine List.map_congr_left fun p hp => ?_
      refine Prod.ext rfl ?_
      refine readPropertyValue_toText (h.value p hp) (fun v hv => (hplain.text p hp v hv).2) ?_
      exact fun vs hvs v hv => (hplain.texts p hp vs hvs v hv).2
    cases hread : readCustomProperties (serviceData service)
    cases hown : service.customProperties
    simp only [hread, hown] at hentries
    subst hentries
    rfl
  have hget : ∀ key, property (parseTxtDataToObject (serviceData service)) key =
      Assoc.get (serviceEntries service) key := by
    intro key
    rw [hobject, property_map]
  have hdefined : ((parseTxtDataToObject (serviceData service)).filter
      fun p => p.1 ∉ ["id", "t", "se"]).any (fun p => p.2.isNone) = false := by
    rw [hobject, List.any_eq_false]
    intro p hp
    obtain ⟨q, -, rfl⟩ := List.mem_map.mp (List.mem_filter.mp hp).1
    simp
  obtain ⟨uris, hne, hendpoint⟩ := h.endpoint
  have hread : readEndpoints service.serviceEndpoint.toText = service.serviceEndpoint := by
    have huris : (uris.map DidServiceEndpoint.uri).map DidServiceEndpoint.toText = uris := by
      rw [List.map_map]
      exact List.map_id uris
    rw [hendpoint, ServiceEndpoints.toText, huris]
    exact readEndpoints_join hne fun uri huri =>
      (hplain.uris _ hendpoint uri (List.mem_map_of_mem huri)).2
  unfold readService
  simp only [hget, hdefined, hcustoms, serviceEntries_eq h, Assoc.get_cons, hfrag,
    List.cons_append]
  simp only [reduceIte, String.reduceEq, hread, Option.getD_some, Bool.false_eq_true, ← hid]

end Service

end EnboxDwn.DidDht
