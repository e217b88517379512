import EnboxDwn.DidDhtRoundTrip
import Mathlib.Data.List.Perm.Lattice
import Mathlib.Data.List.Induction

/-! What the order of the answers of a packet changes in the document. The decoder resolves the
references of a root record through the method records that it has read before. -/
namespace EnboxDwn.DidDht
open SeparatedText

variable [C : Crypto]

/-! ## What one answer describes -/

inductive RecordKind where
  | alsoKnownAs | controller | verificationMethod | service | types | root | other
  deriving DecidableEq, Repr

def recordKind (dnsRecordId : String) : RecordKind :=
  if startsWith dnsRecordId "aka" then .alsoKnownAs
  else if startsWith dnsRecordId "cnt" then .controller
  else if startsWith dnsRecordId "k" then .verificationMethod
  else if startsWith dnsRecordId "s" then .service
  else if startsWith dnsRecordId "typ" then .types
  else if startsWith dnsRecordId "did" then .root
  else .other

theorem applyAnswer_txt (didUri : String) (r : Resolution) (name : String) (ttl : Nat)
    (data : TxtData) :
    applyAnswer didUri r (.txt name ttl data) =
      match recordKind (dnsRecordIdOf name) with
      | .alsoKnownAs => .ok { r with didDocument := applyAlsoKnownAsRecord r.didDocument data }
      | .controller => .ok { r with didDocument := applyControllerRecord r.didDocument data }
      | .verificationMethod =>
        applyVerificationMethodRecord didUri (dnsRecordIdOf name) r data
      | .service => applyServiceRecord didUri r data
      | .types => applyDidTypesRecord r data
      | .root => .ok (applyVerificationRelationshipsRecord r data)
      | .other => .ok r := by
  unfold applyAnswer recordKind
  dsimp only
  split_ifs <;> rfl

/-- The record id and the method of a method record. -/
def describedMethod (didUri : String) : Answer → Option (String × DidVerificationMethod)
  | .ns _ _ _ => none
  | .txt name _ data =>
    if recordKind (dnsRecordIdOf name) = .verificationMethod then
      (readVerificationMethod didUri (dnsRecordIdOf name) data).toOption.map fun method =>
        (dnsRecordIdOf name, method)
    else none

def describedService (didUri : String) : Answer → Option DidService
  | .ns _ _ _ => none
  | .txt name _ data =>
    if recordKind (dnsRecordIdOf name) = .service then (readService didUri data).toOption else none

omit C in
/-- The record ids that a root record lists under a relationship, as the text they are written as. -/
def listedIds (relationship : DidVerificationRelationship) : Answer → Option String
  | .ns _ _ _ => none
  | .txt name _ data =>
    if recordKind (dnsRecordIdOf name) = .root then
      (property (parseTxtDataToObject data) relationship.recordName).filter fun ids => ids ≠ ""
    else none

def Readable (didUri : String) (a : Answer) : Prop :=
  ∃ r, applyAnswer didUri { didDocument := { id := didUri } } a = .ok r

structure Effect (didUri : String) (a : Answer) (r r' : Resolution) : Prop where
  methods : r'.didDocument.verificationMethod.getD [] =
    r.didDocument.verificationMethod.getD [] ++ ((describedMethod didUri a).map Prod.snd).toList
  services : r'.didDocument.service.getD [] =
    r.didDocument.service.getD [] ++ (describedService didUri a).toList
  idLookup : r'.idLookup = match describedMethod didUri a with
    | some (dnsRecordId, method) => Assoc.set r.idLookup dnsRecordId method.id
    | none => r.idLookup
  relationship : ∀ relationship, r'.didDocument.relationship relationship =
    match listedIds relationship a with
    | some ids => some (recordIdsToMethodIds r.idLookup ids)
    | none => r.didDocument.relationship relationship

theorem applyAnswer_effect {didUri : String} {a : Answer} {r r' : Resolution}
    (h : applyAnswer didUri r a = .ok r') : Effect didUri a r r' := by
  cases a with
  | ns name ttl data =>
    cases h
    exact ⟨by simp [describedMethod], by simp [describedService], rfl, fun _ => rfl⟩
  | txt name ttl data =>
    rw [applyAnswer_txt] at h
    cases hkind : recordKind (dnsRecordIdOf name) with
    | verificationMethod =>
      simp only [hkind] at h
      unfold applyVerificationMethodRecord at h
      cases hread : readVerificationMethod didUri (dnsRecordIdOf name) data with
      | error e =>
        rw [hread] at h
        cases h
      | ok method =>
        rw [hread] at h
        cases h
        constructor <;> simp [describedMethod, describedService, listedIds, hkind, hread,
          Except.toOption]
    | service =>
      simp only [hkind] at h
      unfold applyServiceRecord at h
      cases hread : readService didUri data with
      | error e =>
        rw [hread] at h
        cases h
      | ok service =>
        rw [hread] at h
        cases h
        constructor <;> simp [describedMethod, describedService, listedIds, hkind, hread,
          Except.toOption]
    | types =>
      simp only [hkind] at h
      unfold applyDidTypesRecord at h
      split at h
      · cases h
      · cases h
        constructor <;> simp [describedMethod, describedService, listedIds, hkind]
    | root =>
      simp only [hkind] at h
      cases h
      constructor
      · simp [describedMethod, hkind, applyVerificationRelationshipsRecord]
      · simp [describedService, hkind, applyVerificationRelationshipsRecord]
      · simp [describedMethod, hkind, applyVerificationRelationshipsRecord]
      · intro relationship
        simp only [applyVerificationRelationshipsRecord, listedIds, hkind]
        cases property (parseTxtDataToObject data) relationship.recordName with
        | none => rfl
        | some ids =>
          by_cases hempty : ids = ""
          · subst hempty
            rfl
          · simp [Option.filter, hempty]
    | alsoKnownAs | controller | other =>
      simp only [hkind] at h
      cases h
      constructor <;> simp [describedMethod, describedService, listedIds, hkind,
        applyAlsoKnownAsRecord, applyControllerRecord]

theorem readable_iff {didUri : String} {a : Answer} (r : Resolution) :
    Readable didUri a ↔ ∃ r', applyAnswer didUri r a = .ok r' := by
  unfold Readable
  cases a with
  | ns name ttl data => exact ⟨fun _ => ⟨r, rfl⟩, fun _ => ⟨_, rfl⟩⟩
  | txt name ttl data =>
    simp only [applyAnswer_txt]
    cases recordKind (dnsRecordIdOf name) with
    | verificationMethod =>
      simp only [applyVerificationMethodRecord]
      cases readVerificationMethod didUri (dnsRecordIdOf name) data with
      | error e => simp
      | ok method => exact ⟨fun _ => ⟨_, rfl⟩, fun _ => ⟨_, rfl⟩⟩
    | service =>
      simp only [applyServiceRecord]
      cases readService didUri data with
      | error e => simp
      | ok service => exact ⟨fun _ => ⟨_, rfl⟩, fun _ => ⟨_, rfl⟩⟩
    | types =>
      simp only [applyDidTypesRecord]
      cases property (parseTxtDataToObject data) "id" with
      | none => simp
      | some types => exact ⟨fun _ => ⟨_, rfl⟩, fun _ => ⟨_, rfl⟩⟩
    | alsoKnownAs | controller | root | other => exact ⟨fun _ => ⟨_, rfl⟩, fun _ => ⟨_, rfl⟩⟩

/-! ## A whole packet -/

def readAnswers (didUri : String) (answers : List Answer) : Except Failure Resolution :=
  fromDnsPacket didUri { answers }

theorem readAnswers_concat (didUri : String) (answers : List Answer) (a : Answer) :
    readAnswers didUri (answers ++ [a]) =
      (readAnswers didUri answers >>= fun r => applyAnswer didUri r a) := by
  unfold readAnswers fromDnsPacket
  rw [List.foldlM_append]
  congr 1
  funext r
  rw [List.foldlM_cons]
  exact bind_pure _

theorem readAnswers_ok_iff {didUri : String} {answers : List Answer} :
    (∃ r, readAnswers didUri answers = .ok r) ↔ ∀ a ∈ answers, Readable didUri a := by
  induction answers using List.reverseRecOn with
  | nil => exact ⟨fun _ a ha => absurd ha List.not_mem_nil, fun _ => ⟨_, rfl⟩⟩
  | append_singleton answers a ih =>
    rw [readAnswers_concat]
    simp only [List.mem_append, List.mem_singleton, or_imp, forall_and, forall_eq, ← ih]
    constructor
    · rintro ⟨r', hread⟩
      cases hbefore : readAnswers didUri answers with
      | error e =>
        rw [hbefore] at hread
        cases hread
      | ok r =>
        rw [hbefore] at hread
        exact ⟨⟨r, rfl⟩, (readable_iff r).mpr ⟨r', hread⟩⟩
    · rintro ⟨⟨r, hbefore⟩, hreadable⟩
      obtain ⟨r', hread⟩ := (readable_iff r).mp hreadable
      exact ⟨r', by rw [hbefore]; exact hread⟩

structure Reads (didUri : String) (answers : List Answer) (r : Resolution) : Prop where
  methods : r.didDocument.verificationMethod.getD [] =
    (answers.filterMap (describedMethod didUri)).map Prod.snd
  services : r.didDocument.service.getD [] = answers.filterMap (describedService didUri)
  known : ∀ dnsRecordId, (Assoc.get r.idLookup dnsRecordId).isSome = true ↔
    dnsRecordId ∈ (answers.filterMap (describedMethod didUri)).map Prod.fst

theorem reads_of_ok {didUri : String} {answers : List Answer} {r : Resolution}
    (h : readAnswers didUri answers = .ok r) : Reads didUri answers r := by
  induction answers using List.reverseRecOn generalizing r with
  | nil =>
    cases h
    exact ⟨rfl, rfl, fun dnsRecordId => by simp [Assoc.get]⟩
  | append_singleton answers a ih =>
    rw [readAnswers_concat] at h
    cases hbefore : readAnswers didUri answers with
    | error e =>
      rw [hbefore] at h
      cases h
    | ok before =>
      rw [hbefore] at h
      have hreads := ih hbefore
      have heffect := applyAnswer_effect h
      constructor
      · rw [heffect.methods, hreads.methods]
        cases hmethod : describedMethod didUri a <;> simp [hmethod]
      · rw [heffect.services, hreads.services]
        cases hservice : describedService didUri a <;> simp [hservice]
      · intro dnsRecordId
        rw [heffect.idLookup]
        cases hmethod : describedMethod didUri a with
        | none =>
          rw [List.filterMap_append]
          simpa [hmethod] using hreads.known dnsRecordId
        | some described =>
          obtain ⟨described, method⟩ := described
          rw [List.filterMap_append]
          by_cases hsame : dnsRecordId = described
          · subst hsame
            simp [hmethod, Assoc.get_set_self]
          · have hknown := hreads.known dnsRecordId
            simp only [Assoc.get_set_of_ne _ _ hsame, hknown]
            simp [hmethod, hsame]

/-! ## Relationships -/

/-- No root record lists a method record of the packet. -/
def ResolvesNothing (didUri : String) (answers : List Answer) : Prop :=
  ∀ a ∈ answers, ∀ relationship ids, listedIds relationship a = some ids →
    ∀ dnsRecordId ∈ split ids valueSeparator,
      dnsRecordId ∉ (answers.filterMap (describedMethod didUri)).map Prod.fst

omit C in
theorem recordIdsToMethodIds_eq_nil {idLookup : Assoc String} {ids : String} :
    recordIdsToMethodIds idLookup ids = [] ↔
      ∀ dnsRecordId ∈ split ids valueSeparator, (Assoc.get idLookup dnsRecordId).isSome = false := by
  simp [recordIdsToMethodIds, List.filterMap_eq_nil_iff]

theorem ResolvesNothing.of_concat {didUri : String} {answers : List Answer} {a : Answer}
    (h : ResolvesNothing didUri (answers ++ [a])) : ResolvesNothing didUri answers := by
  intro b hb relationship ids hids dnsRecordId hlisted hmem
  apply h b (List.mem_append_left _ hb) relationship ids hids dnsRecordId hlisted
  rw [List.filterMap_append, List.map_append]
  exact List.mem_append_left _ hmem

theorem relationship_of_resolvesNothing {didUri : String} {answers : List Answer} {r : Resolution}
    (h : readAnswers didUri answers = .ok r) (hnothing : ResolvesNothing didUri answers)
    (relationship : DidVerificationRelationship) :
    r.didDocument.relationship relationship =
      if answers.any fun a => (listedIds relationship a).isSome then some [] else none := by
  induction answers using List.reverseRecOn generalizing r with
  | nil =>
    cases h
    rfl
  | append_singleton answers a ih =>
    rw [readAnswers_concat] at h
    cases hbefore : readAnswers didUri answers with
    | error e =>
      rw [hbefore] at h
      cases h
    | ok before =>
      rw [hbefore] at h
      have hrelationship := (applyAnswer_effect h).relationship relationship
      rw [ih hbefore hnothing.of_concat] at hrelationship
      rw [hrelationship, List.any_append]
      cases hids : listedIds relationship a with
      | none => simp [hids]
      | some ids =>
        have hempty : recordIdsToMethodIds before.idLookup ids = [] := by
          rw [recordIdsToMethodIds_eq_nil]
          intro dnsRecordId hlisted
          rw [Bool.eq_false_iff]
          intro hknown
          apply hnothing a (by simp) relationship ids hids dnsRecordId hlisted
          rw [List.filterMap_append, List.map_append]
          exact List.mem_append_left _ (((reads_of_ok hbefore).known dnsRecordId).mp hknown)
        simp [hids, hempty]

theorem relationship_append {didUri : String} {answers rest : List Answer} {r : Resolution}
    {relationship : DidVerificationRelationship}
    (h : readAnswers didUri (answers ++ rest) = .ok r)
    (hrest : ∀ a ∈ rest, listedIds relationship a = none) :
    ∃ before, readAnswers didUri answers = .ok before ∧
      r.didDocument.relationship relationship = before.didDocument.relationship relationship := by
  induction rest using List.reverseRecOn generalizing r with
  | nil => exact ⟨r, by rwa [List.append_nil] at h, rfl⟩
  | append_singleton rest a ih =>
    rw [← List.append_assoc, readAnswers_concat] at h
    cases hmiddle : readAnswers didUri (answers ++ rest) with
    | error e =>
      rw [hmiddle] at h
      cases h
    | ok middle =>
      rw [hmiddle] at h
      have hrelationship := (applyAnswer_effect h).relationship relationship
      rw [hrest a (by simp)] at hrelationship
      obtain ⟨before, hbefore, hsame⟩ :=
        ih hmiddle fun b hb => hrest b (List.mem_append_left _ hb)
      exact ⟨before, hbefore, hrelationship.trans hsame⟩

def isRoot : Answer → Bool
  | .ns _ _ _ => false
  | .txt name _ _ => recordKind (dnsRecordIdOf name) = .root

theorem describedMethod_of_isRoot {didUri : String} {a : Answer} (h : isRoot a = true) :
    describedMethod didUri a = none := by
  cases a with
  | ns name ttl data => rfl
  | txt name ttl data =>
    have hkind : recordKind (dnsRecordIdOf name) = .root := by simpa [isRoot] using h
    simp [describedMethod, hkind]

omit C in
theorem listedIds_of_not_isRoot {a : Answer} (h : isRoot a = false)
    (relationship : DidVerificationRelationship) : listedIds relationship a = none := by
  cases a with
  | ns name ttl data => rfl
  | txt name ttl data =>
    have hkind : recordKind (dnsRecordIdOf name) ≠ .root := by simpa [isRoot] using h
    simp [listedIds, hkind]

theorem relationship_of_roots_first {didUri : String} {answers : List Answer} {r : Resolution}
    (h : readAnswers didUri (answers.filter isRoot ++ answers.filter fun a => !isRoot a) = .ok r)
    {relationship : DidVerificationRelationship} {a : Answer} (ha : a ∈ answers)
    (hids : (listedIds relationship a).isSome = true) :
    r.didDocument.relationship relationship = some [] := by
  have hroot : isRoot a = true := by
    by_contra hnot
    rw [listedIds_of_not_isRoot (by simpa using hnot)] at hids
    cases hids
  obtain ⟨before, hbefore, hsame⟩ := relationship_append h (by
    intro b hb
    exact listedIds_of_not_isRoot (by simpa using (List.mem_filter.mp hb).2) relationship)
  have hnone : (answers.filter isRoot).filterMap (describedMethod didUri) = [] := by
    apply List.filterMap_eq_nil_iff.mpr
    intro b hb
    exact describedMethod_of_isRoot (List.mem_filter.mp hb).2
  have hnothing : ResolvesNothing didUri (answers.filter isRoot) := by
    intro b hb relationship' ids' hids' dnsRecordId hlisted
    rw [hnone]
    exact List.not_mem_nil
  rw [hsame, relationship_of_resolvesNothing hbefore hnothing, if_pos]
  exact List.any_eq_true.mpr ⟨a, List.mem_filter.mpr ⟨ha, hroot⟩, hids⟩

/-- With the root record last, what it lists of the packet is resolved. -/
theorem relationship_of_root_last {didUri : String} {answers : List Answer} {a : Answer}
    {r : Resolution} (h : readAnswers didUri (answers ++ [a]) = .ok r)
    {relationship : DidVerificationRelationship} {ids dnsRecordId : String}
    (hids : listedIds relationship a = some ids)
    (hlisted : dnsRecordId ∈ split ids valueSeparator)
    (hmem : dnsRecordId ∈ (answers.filterMap (describedMethod didUri)).map Prod.fst) :
    r.didDocument.relationship relationship ≠ some [] := by
  rw [readAnswers_concat] at h
  cases hbefore : readAnswers didUri answers with
  | error e =>
    rw [hbefore] at h
    cases h
  | ok before =>
    rw [hbefore] at h
    rw [(applyAnswer_effect h).relationship relationship, hids]
    intro hempty
    have hnone := recordIdsToMethodIds_eq_nil.mp (Option.some.inj hempty) dnsRecordId hlisted
    rw [((reads_of_ok hbefore).known dnsRecordId).mpr hmem] at hnone
    cases hnone

/-! ## The order of the answers -/

/-- The same methods and services as sets and the same relationships, or no document at all. -/
def SameDocument : Except Failure Resolution → Except Failure Resolution → Prop
  | .ok r, .ok r' =>
    (∀ method, method ∈ r.didDocument.verificationMethod.getD [] ↔
      method ∈ r'.didDocument.verificationMethod.getD []) ∧
    (∀ service, service ∈ r.didDocument.service.getD [] ↔
      service ∈ r'.didDocument.service.getD []) ∧
    ∀ relationship, r.didDocument.relationship relationship =
      r'.didDocument.relationship relationship
  | .error _, .error _ => True
  | _, _ => False

theorem exists_error_of_unreadable {didUri : String} {answers : List Answer} {a : Answer}
    (ha : a ∈ answers) (h : ¬ Readable didUri a) : ∃ e, readAnswers didUri answers = .error e := by
  cases hread : readAnswers didUri answers with
  | error e => exact ⟨e, rfl⟩
  | ok r => exact absurd (readAnswers_ok_iff.mp ⟨r, hread⟩ a ha) h

theorem sameDocument_of_resolvesNothing {didUri : String} {answers answers' : List Answer}
    (hperm : answers'.Perm answers) (hreadable : ∀ a ∈ answers, Readable didUri a)
    (hnothing : ResolvesNothing didUri answers) :
    SameDocument (readAnswers didUri answers) (readAnswers didUri answers') := by
  obtain ⟨r, hr⟩ := readAnswers_ok_iff.mpr hreadable
  obtain ⟨r', hr'⟩ := readAnswers_ok_iff.mpr fun a ha => hreadable a (hperm.mem_iff.mp ha)
  have hnothing' : ResolvesNothing didUri answers' := by
    intro a ha relationship ids hids dnsRecordId hlisted hmem
    apply hnothing a (hperm.mem_iff.mp ha) relationship ids hids dnsRecordId hlisted
    exact ((hperm.filterMap _).map Prod.fst).mem_iff.mp hmem
  have hreads := reads_of_ok hr
  have hreads' := reads_of_ok hr'
  rw [hr, hr']
  refine ⟨?_, ?_, ?_⟩
  · intro method
    rw [hreads.methods, hreads'.methods]
    exact ((hperm.filterMap _).map Prod.snd).symm.mem_iff
  · intro service
    rw [hreads.services, hreads'.services]
    exact (hperm.filterMap _).symm.mem_iff
  · intro relationship
    rw [relationship_of_resolvesNothing hr hnothing, relationship_of_resolvesNothing hr' hnothing']
    have hany : (answers'.any fun a => (listedIds relationship a).isSome) =
        answers.any fun a => (listedIds relationship a).isSome := by
      rw [Bool.eq_iff_iff, List.any_eq_true, List.any_eq_true]
      simp only [hperm.mem_iff]
    rw [hany]

/-- The order of the answers is immaterial exactly if the packet cannot be read or no root record
lists a method record of it. -/
theorem answer_order_immaterial_iff (didUri : String) (dnsPacket : Packet) :
    (∀ answers : List Answer, answers.Perm dnsPacket.answers →
      SameDocument (fromDnsPacket didUri dnsPacket)
        (fromDnsPacket didUri { dnsPacket with answers })) ↔
    (∃ a ∈ dnsPacket.answers, ¬ Readable didUri a) ∨ ResolvesNothing didUri dnsPacket.answers := by
  change (∀ answers : List Answer, answers.Perm dnsPacket.answers →
    SameDocument (readAnswers didUri dnsPacket.answers) (readAnswers didUri answers)) ↔ _
  generalize dnsPacket.answers = answers
  constructor
  · intro hsame
    by_cases hreadable : ∀ a ∈ answers, Readable didUri a
    · apply Or.inr
      intro a ha relationship ids hids dnsRecordId hlisted hmem
      obtain ⟨r, hr⟩ := readAnswers_ok_iff.mpr hreadable
      -- the same packet with its root records first, and with this one last
      have hfirst : (answers.filter isRoot ++ answers.filter fun b => !isRoot b).Perm answers :=
        List.filter_append_perm _ _
      have hlast : (answers.erase a ++ [a]).Perm answers :=
        (List.perm_append_singleton a _).trans (List.perm_cons_erase ha).symm
      obtain ⟨first, hreadFirst⟩ := readAnswers_ok_iff.mpr
        fun b hb => hreadable b (hfirst.mem_iff.mp hb)
      obtain ⟨last, hreadLast⟩ := readAnswers_ok_iff.mpr
        fun b hb => hreadable b (hlast.mem_iff.mp hb)
      have hsameFirst := hsame _ hfirst
      have hsameLast := hsame _ hlast
      rw [hr, hreadFirst] at hsameFirst
      rw [hr, hreadLast] at hsameLast
      have hempty := relationship_of_roots_first hreadFirst ha (by rw [hids]; rfl)
      have hothers : dnsRecordId ∈ ((answers.erase a).filterMap (describedMethod didUri)).map
          Prod.fst := by
        have hall := ((hlast.filterMap (describedMethod didUri)).map Prod.fst).mem_iff.mpr hmem
        have hroot : isRoot a = true := by
          by_contra hnot
          rw [listedIds_of_not_isRoot (by simpa using hnot)] at hids
          cases hids
        simpa [List.filterMap_append, describedMethod_of_isRoot hroot] using hall
      apply relationship_of_root_last hreadLast hids hlisted hothers
      rw [← hsameLast.2.2 relationship, hsameFirst.2.2 relationship, hempty]
    · push Not at hreadable
      exact Or.inl hreadable
  · rintro (⟨a, ha, hunreadable⟩ | hnothing) answers' hperm
    · obtain ⟨e, he⟩ := exists_error_of_unreadable ha hunreadable
      obtain ⟨e', he'⟩ := exists_error_of_unreadable (hperm.mem_iff.mpr ha) hunreadable
      rw [he, he']
      trivial
    · by_cases hreadable : ∀ a ∈ answers, Readable didUri a
      · exact sameDocument_of_resolvesNothing hperm hreadable hnothing
      · push Not at hreadable
        obtain ⟨a, ha, hunreadable⟩ := hreadable
        obtain ⟨e, he⟩ := exists_error_of_unreadable ha hunreadable
        obtain ⟨e', he'⟩ := exists_error_of_unreadable (hperm.mem_iff.mpr ha) hunreadable
        rw [he, he']
        trivial

end EnboxDwn.DidDht

namespace EnboxDwn.DidDht.Example

def identityRecord : Answer := createTxtRecord "_k0._did." (.text "t=0;k=x")

def identityRoot : Answer :=
  createTxtRecord "_did.x." (.text "v=0;vm=k0;auth=k0;asm=k0;inv=k0;del=k0")

def authentication (answers : List Answer) : Option (Option (List String)) :=
  (fromDnsPacket "did:dht:x" { answers }).toOption.map fun r =>
    r.didDocument.relationship .authentication

/-- With the root record first, the identity key authenticates nothing. -/
theorem not_sameDocument_rootFirst :
    [identityRoot, identityRecord].Perm [identityRecord, identityRoot] ∧
      ¬ SameDocument (fromDnsPacket "did:dht:x" { answers := [identityRecord, identityRoot] })
        (fromDnsPacket "did:dht:x" { answers := [identityRoot, identityRecord] }) := by
  refine ⟨.swap _ _ _, ?_⟩
  intro h
  have hlast : authentication [identityRecord, identityRoot] = some (some ["did:dht:x#0"]) := by
    decide
  have hfirst : authentication [identityRoot, identityRecord] = some (some []) := by
    decide
  unfold authentication at hlast hfirst
  cases hr : fromDnsPacket "did:dht:x" { answers := [identityRecord, identityRoot] } with
  | error e =>
    rw [hr] at hlast
    cases hlast
  | ok r =>
    cases hr' : fromDnsPacket "did:dht:x" { answers := [identityRoot, identityRecord] } with
    | error e =>
      rw [hr'] at hfirst
      cases hfirst
    | ok r' =>
      rw [hr, hr'] at h
      rw [hr] at hlast
      rw [hr'] at hfirst
      have hsame : some ["did:dht:x#0"] = some ([] : List String) :=
        (Option.some.inj hlast).symm.trans ((h.2.2 .authentication).trans (Option.some.inj hfirst))
      cases hsame

end EnboxDwn.DidDht.Example
