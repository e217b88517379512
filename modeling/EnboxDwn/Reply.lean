import EnboxDwn.Message

/-! Errors and replies. A reply built from a node error carries the error's code
beside the prose `code: message`. -/
namespace EnboxDwn

section Except
variable {ε α β : Type}

@[simp] theorem ok_bind (a : α) (f : α → Except ε β) : (Except.ok a >>= f) = f a := rfl

@[simp] theorem error_bind (e : ε) (f : α → Except ε β) : (Except.error e >>= f) = .error e := rfl

theorem bind_eq_ok {x : Except ε α} {f : α → Except ε β} {b : β} (h : (x >>= f) = .ok b) :
    ∃ a, x = .ok a ∧ f a = .ok b := by
  cases x with
  | error e => cases h
  | ok a => exact ⟨a, rfl, h⟩

theorem bind_eq_error {x : Except ε α} {f : α → Except ε β} {e : ε} (h : (x >>= f) = .error e) :
    x = .error e ∨ ∃ a, x = .ok a ∧ f a = .error e := by
  cases x with
  | error e' =>
    cases h
    exact Or.inl rfl
  | ok a => exact Or.inr ⟨a, rfl, h⟩

theorem forM_eq_error {l : List α} {f : α → Except ε Unit} {e : ε} (h : l.forM f = .error e) :
    ∃ x ∈ l, f x = .error e := by
  induction l with
  | nil => cases h
  | cons x xs ih =>
    rw [List.forM_eq_forM, List.forM_cons] at h
    obtain h | ⟨-, -, h⟩ := bind_eq_error h
    · exact ⟨x, by simp, h⟩
    · obtain ⟨y, hy, hfy⟩ := ih h
      exact ⟨y, by simp [hy], hfy⟩

theorem forM_eq_ok {l : List α} {f : α → Except ε Unit} (h : l.forM f = .ok ()) :
    ∀ x ∈ l, f x = .ok () := by
  induction l with
  | nil => simp
  | cons x xs ih =>
    rw [List.forM_eq_forM, List.forM_cons] at h
    obtain ⟨_, hx, hxs⟩ := bind_eq_ok h
    intro y hy
    cases List.mem_cons.mp hy with
    | inl heq => exact heq ▸ hx
    | inr hy => exact ih hxs y hy

theorem forM_ok {l : List α} {f : α → Except ε Unit} (h : ∀ x ∈ l, f x = .ok ()) :
    l.forM f = .ok () := by
  induction l with
  | nil => rfl
  | cons x xs ih =>
    rw [List.forM_eq_forM, List.forM_cons, h x (by simp), ok_bind]
    exact ih fun x' hx' => h x' (by simp [hx'])

end Except

/-- The codes raised by the modelled functions; `other` stands for the codes of
components that enter the model only through their outcome. -/
inductive DwnErrorCode where
  | encryptionControlValidateUnexpectedRecord
  | indexMissingIndexableProperty
  | messageStoreCompleteDataInvalidTarget
  | messageStoreFingerprintScopeMutation
  | messageStoreReplicationPositionOverflow
  | messageStoreUpdateIndexesMessageNotFound
  | messageStoreUpdateMessageAndIndexesCidMismatch
  | messageStoreUpdateMessageAndIndexesMessageNotFound
  | moduleAuthorizationIncorrectContextId
  | moduleAuthorizationIncorrectModulePath
  | moduleAuthorizationInvalidType
  | moduleAuthorizationModuleNotFound
  | moduleAuthorizationParentlessIncorrectModulePath
  | moduleAuthorizationParentRecordNotFound
  | moduleAuthorizationRefNodeWriteNotAllowed
  | moduleAuthorizationSquashBackstop
  | modulesConfigureComposedModuleNotInstalled
  | modulesConfigureDuplicateActorInRuleSet
  | modulesConfigureDuplicateRefTarget
  | modulesConfigureDuplicateRoleInRuleSet
  | modulesConfigureDuplicateUsesModule
  | modulesConfigureEncryptionPolicyImmutable
  | modulesConfigureIncompatibleContractUpdate
  | modulesConfigureInvalidActionOfNotAnAncestor
  | modulesConfigureInvalidEncryptedRoleMissingKeyAgreement
  | modulesConfigureInvalidRefAlias
  | modulesConfigureInvalidRefModulePath
  | modulesConfigureInvalidRefNotAtRoot
  | modulesConfigureInvalidRefTargetSquash
  | modulesConfigureInvalidRoleAncestor
  | modulesConfigureInvalidRuleSetRecordType
  | modulesConfigureInvalidUsesCycle
  | modulesConfigureInvalidUsesModuleUrl
  | modulesConfigureInvalidUsesUpdate
  | modulesConfigureMaxDepthExceeded
  | modulesConfigureRoleDoesNotExistAtGivenPath
  | recordsWriteCreateDataAndDataCidMutuallyExclusive
  | recordsWriteCreateDataCidAndDataSizeMutuallyInclusive
  | recordsWriteCreateEncryptionAndEncryptionInputMutuallyExclusive
  | recordsWriteCreateMissingSigner
  | recordsWriteDataCidMismatch
  | recordsWriteDataSizeMismatch
  | recordsWriteGetInitialWriteNotFound
  | recordsWriteImmutablePropertyChanged
  | recordsWriteMissingDataInPrevious
  | recordsWriteMissingEncodedDataInPrevious
  | recordsWriteMissingSigner
  | recordsWriteNotAllowedAfterDelete
  | recordsWriteValidateIntegrityContextIdMismatch
  | recordsWriteValidateIntegrityDateCreatedMismatch
  | schemaValidatorFailure
  | urlModuleNotNormalizable
  | urlModuleNotNormalized
  | urlSchemaNotNormalized
  | other (name : String)
  deriving DecidableEq, Repr

def DwnErrorCode.toString : DwnErrorCode → String
  | encryptionControlValidateUnexpectedRecord => "EncryptionControlValidateUnexpectedRecord"
  | indexMissingIndexableProperty => "IndexMissingIndexableProperty"
  | messageStoreCompleteDataInvalidTarget => "MessageStoreCompleteDataInvalidTarget"
  | messageStoreFingerprintScopeMutation => "MessageStoreFingerprintScopeMutation"
  | messageStoreReplicationPositionOverflow => "MessageStoreReplicationPositionOverflow"
  | messageStoreUpdateIndexesMessageNotFound => "MessageStoreUpdateIndexesMessageNotFound"
  | messageStoreUpdateMessageAndIndexesCidMismatch =>
    "MessageStoreUpdateMessageAndIndexesCidMismatch"
  | messageStoreUpdateMessageAndIndexesMessageNotFound =>
    "MessageStoreUpdateMessageAndIndexesMessageNotFound"
  | moduleAuthorizationIncorrectContextId => "ModuleAuthorizationIncorrectContextId"
  | moduleAuthorizationIncorrectModulePath => "ModuleAuthorizationIncorrectModulePath"
  | moduleAuthorizationInvalidType => "ModuleAuthorizationInvalidType"
  | moduleAuthorizationModuleNotFound => "ModuleAuthorizationModuleNotFound"
  | moduleAuthorizationParentlessIncorrectModulePath =>
    "ModuleAuthorizationParentlessIncorrectModulePath"
  | moduleAuthorizationParentRecordNotFound => "ModuleAuthorizationParentRecordNotFound"
  | moduleAuthorizationRefNodeWriteNotAllowed => "ModuleAuthorizationRefNodeWriteNotAllowed"
  | moduleAuthorizationSquashBackstop => "ModuleAuthorizationSquashBackstop"
  | modulesConfigureComposedModuleNotInstalled => "ModulesConfigureComposedModuleNotInstalled"
  | modulesConfigureDuplicateActorInRuleSet => "ModulesConfigureDuplicateActorInRuleSet"
  | modulesConfigureDuplicateRefTarget => "ModulesConfigureDuplicateRefTarget"
  | modulesConfigureDuplicateRoleInRuleSet => "ModulesConfigureDuplicateRoleInRuleSet"
  | modulesConfigureDuplicateUsesModule => "ModulesConfigureDuplicateUsesModule"
  | modulesConfigureEncryptionPolicyImmutable => "ModulesConfigureEncryptionPolicyImmutable"
  | modulesConfigureIncompatibleContractUpdate => "ModulesConfigureIncompatibleContractUpdate"
  | modulesConfigureInvalidActionOfNotAnAncestor => "ModulesConfigureInvalidActionOfNotAnAncestor"
  | modulesConfigureInvalidEncryptedRoleMissingKeyAgreement =>
    "ModulesConfigureInvalidEncryptedRoleMissingKeyAgreement"
  | modulesConfigureInvalidRefAlias => "ModulesConfigureInvalidRefAlias"
  | modulesConfigureInvalidRefModulePath => "ModulesConfigureInvalidRefModulePath"
  | modulesConfigureInvalidRefNotAtRoot => "ModulesConfigureInvalidRefNotAtRoot"
  | modulesConfigureInvalidRefTargetSquash => "ModulesConfigureInvalidRefTargetSquash"
  | modulesConfigureInvalidRoleAncestor => "ModulesConfigureInvalidRoleAncestor"
  | modulesConfigureInvalidRuleSetRecordType => "ModulesConfigureInvalidRuleSetRecordType"
  | modulesConfigureInvalidUsesCycle => "ModulesConfigureInvalidUsesCycle"
  | modulesConfigureInvalidUsesModuleUrl => "ModulesConfigureInvalidUsesModuleUrl"
  | modulesConfigureInvalidUsesUpdate => "ModulesConfigureInvalidUsesUpdate"
  | modulesConfigureMaxDepthExceeded => "ModulesConfigureMaxDepthExceeded"
  | modulesConfigureRoleDoesNotExistAtGivenPath => "ModulesConfigureRoleDoesNotExistAtGivenPath"
  | recordsWriteCreateDataAndDataCidMutuallyExclusive =>
    "RecordsWriteCreateDataAndDataCidMutuallyExclusive"
  | recordsWriteCreateDataCidAndDataSizeMutuallyInclusive =>
    "RecordsWriteCreateDataCidAndDataSizeMutuallyInclusive"
  | recordsWriteCreateEncryptionAndEncryptionInputMutuallyExclusive =>
    "RecordsWriteCreateEncryptionAndEncryptionInputMutuallyExclusive"
  | recordsWriteCreateMissingSigner => "RecordsWriteCreateMissingSigner"
  | recordsWriteDataCidMismatch => "RecordsWriteDataCidMismatch"
  | recordsWriteDataSizeMismatch => "RecordsWriteDataSizeMismatch"
  | recordsWriteGetInitialWriteNotFound => "RecordsWriteGetInitialWriteNotFound"
  | recordsWriteImmutablePropertyChanged => "RecordsWriteImmutablePropertyChanged"
  | recordsWriteMissingDataInPrevious => "RecordsWriteMissingDataInPrevious"
  | recordsWriteMissingEncodedDataInPrevious => "RecordsWriteMissingEncodedDataInPrevious"
  | recordsWriteMissingSigner => "RecordsWriteMissingSigner"
  | recordsWriteNotAllowedAfterDelete => "RecordsWriteNotAllowedAfterDelete"
  | recordsWriteValidateIntegrityContextIdMismatch =>
    "RecordsWriteValidateIntegrityContextIdMismatch"
  | recordsWriteValidateIntegrityDateCreatedMismatch =>
    "RecordsWriteValidateIntegrityDateCreatedMismatch"
  | schemaValidatorFailure => "SchemaValidatorFailure"
  | urlModuleNotNormalizable => "UrlModuleNotNormalizable"
  | urlModuleNotNormalized => "UrlModuleNotNormalized"
  | urlSchemaNotNormalized => "UrlSchemaNotNormalized"
  | other name => name

structure DwnError where
  code : DwnErrorCode
  message : String
  deriving DecidableEq, Repr

/-- What can be thrown: a coded node error, the runtime's own type error, or the end
of the stack in a recursion that has no end. -/
inductive Failure where
  | dwnError (e : DwnError)
  | typeError
  | stackOverflow
  deriving DecidableEq, Repr

def startsWith (s pre : String) : Bool := pre.toList.isPrefixOf s.toList

def DwnError.detail (e : DwnError) : String := e.code.toString ++ ": " ++ e.message

structure Status where
  code : Nat
  detail : String
  errorCode : Option DwnErrorCode := none
  deriving DecidableEq, Repr

def messageReplyFromError (e : Failure) (code : Nat) : Status :=
  match e with
  | .dwnError e => { code, detail := e.detail, errorCode := some e.code }
  | .typeError => { code, detail := "TypeError" }
  | .stackOverflow => { code, detail := "RangeError" }

def conflict : Status := { code := 409, detail := "Conflict" }

end EnboxDwn
