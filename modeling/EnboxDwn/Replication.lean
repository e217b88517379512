import EnboxDwn.Query

/-! Fingerprint domains: which accumulators a stored message contributes to. -/
namespace EnboxDwn
open KeyValues

def permissionsModuleUri : String := "https://identity.foundation/dwn/permissions"
def encryptionModuleUri : String := "https://identity.foundation/dwn/modules/encryption"

/-- `descriptor.tags?.[name]`, which only a RecordsWrite can have. -/
def GenericMessage.descriptorTag (m : GenericMessage) (name : String) : Option IndexValue :=
  match m with
  | .recordsWrite m => get (m.descriptor.tags.getD []) name
  | _ => none

namespace Replication

def globalDomain : String := ""
def moduleDomain (moduleUri : String) : String := "module:" ++ moduleUri
def permissionDomain (moduleUri : String) : String := "perm:" ++ moduleUri
def encryptionDomain (moduleUri : String) : String := "enc:" ++ moduleUri

def isCoreModuleUri (moduleUri : String) : Bool :=
  moduleUri == permissionsModuleUri || moduleUri == encryptionModuleUri

/-- The domain a core-module message adds for the module its `module` tag names. -/
def taggedDomains (module : String) : Option IndexValue → List String
  | some (.single (.string tagged)) =>
    if module = permissionsModuleUri then [permissionDomain tagged]
    else if module = encryptionModuleUri then [encryptionDomain tagged]
    else []
  | _ => []

def computeFingerprintScopes (message : GenericMessage) (indexes : KeyValues) : List String :=
  match get indexes "module" with
  | some (.single (.string module)) =>
    globalDomain :: moduleDomain module ::
      taggedDomains module ((get indexes "tag.module").or (message.descriptorTag "module"))
  | _ => [globalDomain]

def scopeSetsMatch (left right : List String) : Bool :=
  left.length == right.length && right.all left.contains

def assertFingerprintScopesUntouched (persistedScopes : List String) (message : GenericMessage)
    (messageCid : Cid) (newIndexes : KeyValues) : Except Failure Unit :=
  if scopeSetsMatch persistedScopes (computeFingerprintScopes message newIndexes) then .ok ()
  else .error (.dwnError ⟨.messageStoreFingerprintScopeMutation,
    "index replacement for message " ++ messageCid.val ++
      " would change its persisted fingerprint scopes"⟩)

/-- Log positions are keyed by twenty decimal digits. -/
def positionLimit : Nat := 10 ^ 20

def assertPositionEncodable (position : Nat) : Except Failure Unit :=
  if position < positionLimit then .ok ()
  else .error (.dwnError ⟨.messageStoreReplicationPositionOverflow,
    "log position " ++ toString position ++ " cannot be encoded within 20 digits"⟩)

theorem scopeSetsMatch_self (scopes : List String) : scopeSetsMatch scopes scopes = true := by
  simp [scopeSetsMatch]

theorem taggedDomains_cases (module : String) (tag : Option IndexValue) :
    taggedDomains module tag = [] ∨
      ∃ x, taggedDomains module tag = [x] ∧ x ≠ globalDomain ∧
        ∀ m, x ≠ moduleDomain m := by
  have hne (pre rest : String) (c : Char) (hpre : pre.toList.head? = some c) (hc : c ≠ 'm') :
      pre ++ rest ≠ globalDomain ∧ ∀ m, pre ++ rest ≠ moduleDomain m := by
    have hhead : (pre ++ rest).toList.head? = some c := by
      rw [String.toList_append, List.head?_append, hpre, Option.some_or]
    refine ⟨fun h => ?_, fun m h => hc ?_⟩
    · rw [h] at hhead
      cases hhead
    · rw [h, moduleDomain, String.toList_append, List.head?_append] at hhead
      exact (Option.some.inj hhead).symm
  unfold taggedDomains
  split
  · split
    · exact Or.inr ⟨_, rfl, hne _ _ _ (by rfl) (by decide)⟩
    · split
      · exact Or.inr ⟨_, rfl, hne _ _ _ (by rfl) (by decide)⟩
      · exact Or.inl rfl
  · exact Or.inl rfl

theorem nodup_computeFingerprintScopes (message : GenericMessage) (indexes : KeyValues) :
    (computeFingerprintScopes message indexes).Nodup := by
  unfold computeFingerprintScopes
  split
  · next module _ =>
    have hne : globalDomain ≠ moduleDomain module := by
      intro h
      have hlength := congrArg String.length h
      have hpos : 0 < "module:".length := by decide
      rw [moduleDomain, String.length_append, globalDomain, String.length_empty] at hlength
      omega
    obtain h | ⟨x, h, hglobal, hmodule⟩ := taggedDomains_cases module
      ((get indexes "tag.module").or (message.descriptorTag "module"))
    · simp [h, hne]
    · simp [h, hne, hglobal.symm, (hmodule module).symm]
  · simp

end Replication

end EnboxDwn
