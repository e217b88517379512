import EnboxDwn.WellFormed

/-! What a write leaves behind when its data fails the integrity check. -/
namespace EnboxDwn
open Journal

variable [P : Platform]

/-- The two errors of `RecordsWrite.validateDataIntegrity`. -/
def DwnErrorCode.isDataIntegrity : DwnErrorCode → Bool
  | .recordsWriteDataCidMismatch => true
  | .recordsWriteDataSizeMismatch => true
  | _ => false

def Failure.isDataIntegrity : Failure → Bool
  | .dwnError e => e.code.isDataIntegrity
  | _ => false

/-- An error reply that reports failed data integrity. -/
def Reply.reportsDataIntegrity (r : Reply) : Bool :=
  r.status.errorCode.any DwnErrorCode.isDataIntegrity

omit P in
theorem reportsDataIntegrity_error (e : Failure) (code : Nat) (position : Option Nat) :
    Reply.reportsDataIntegrity { status := messageReplyFromError e code, position := position } =
      e.isDataIntegrity := by
  cases e <;> simp [Reply.reportsDataIntegrity, messageReplyFromError, Failure.isDataIntegrity]

/-- No dependency of the handler raises the integrity errors, which belong to
`RecordsWrite.validateDataIntegrity` alone. -/
structure HandlerDependencies.RaisesNoDataIntegrity (deps : HandlerDependencies) : Prop where
  validateMessageStructure : ∀ m e, deps.validateMessageStructure m = .error e →
    e.isDataIntegrity = false
  validateSignaturePayload : ∀ m e, deps.validateSignaturePayload m = .error e →
    e.isDataIntegrity = false
  authenticate : ∀ m e, deps.authenticate m = .error e → e.isDataIntegrity = false
  validateReferentialIntegrity : ∀ s t m e, deps.validateReferentialIntegrity s t m = .error e →
    e.isDataIntegrity = false
  authorizeRecordsWrite : ∀ s t m e, deps.authorizeRecordsWrite s t m = .error e →
    e.isDataIntegrity = false
  preProcessWrite : ∀ s t m e, deps.preProcessWrite s t m = .error e → e.isDataIntegrity = false
  validateRecord : ∀ s t m data e, deps.validateRecord s t m data = .error e →
    e.isDataIntegrity = false

abbrev ThrowsNoDataIntegrity {α : Type} (p : Task α) : Prop :=
  Program.Throws (fun e => e.isDataIntegrity = false) p

namespace MessageStore

omit P in
theorem assertIndexable_error {indexes : KeyValues} {e : Failure}
    (h : assertIndexable indexes = .error e) : e.isDataIntegrity = false := by
  unfold assertIndexable at h
  split at h
  · cases h; rfl
  · cases h

theorem assertInsertable_error {log : Log} {indexes : KeyValues} {e : Failure}
    (h : assertInsertable log indexes = .error e) : e.isDataIntegrity = false := by
  obtain h | ⟨-, -, h⟩ := bind_eq_error h
  · exact assertIndexable_error h
  · unfold Replication.assertPositionEncodable at h
    split at h
    · cases h
    · cases h; rfl

theorem getLogEntryForMutation_error {log : Log} {cid : Cid} {code : DwnErrorCode} {e : Failure}
    (h : getLogEntryForMutation log cid code = .error e) :
    e.isDataIntegrity = code.isDataIntegrity := by
  unfold getLogEntryForMutation at h
  split at h
  · cases h
  · cases h; rfl

omit P in
theorem assertFingerprintScopesUntouched_error {scopes : List String} {m : GenericMessage}
    {cid : Cid} {indexes : KeyValues} {e : Failure}
    (h : Replication.assertFingerprintScopesUntouched scopes m cid indexes = .error e) :
    e.isDataIntegrity = false := by
  unfold Replication.assertFingerprintScopesUntouched at h
  split at h
  · cases h
  · cases h; rfl

theorem assertReplaceable_error {log : Log} {x : Retain} {e : Failure}
    (h : assertReplaceable log x = .error e) : e.isDataIntegrity = false := by
  obtain h | ⟨row, -, h⟩ := bind_eq_error h
  · rw [getLogEntryForMutation_error h]
    rfl
  · obtain h | ⟨-, -, h⟩ := bind_eq_error h
    · exact assertFingerprintScopesUntouched_error h
    · exact assertIndexable_error h

theorem assertCommittable_error {log : Log} {t : LatestStateTransition} {e : Failure}
    (h : assertCommittable log t = .error e) : e.isDataIntegrity = false := by
  obtain h | ⟨-, -, h⟩ := bind_eq_error h
  · obtain ⟨x, -, h⟩ := forM_eq_error h
    unfold assertSameCid at h
    split at h
    · cases h
    · cases h; rfl
  · by_cases hins : inserts log t = true
    · simp only [hins, if_true] at h
      obtain h | ⟨-, -, h⟩ := bind_eq_error h
      · exact assertInsertable_error h
      · obtain ⟨x, -, h⟩ := forM_eq_error h
        exact assertReplaceable_error h
    · simp only [hins] at h
      obtain ⟨x, -, h⟩ := forM_eq_error h
      exact assertReplaceable_error h

theorem commitLatestState_error {log : Log} {t : LatestStateTransition} {e : Failure}
    (h : commitLatestState log t = .error e) : e.isDataIntegrity = false := by
  obtain h | ⟨-, -, h⟩ := bind_eq_error h
  · exact assertCommittable_error h
  · split at h <;> cases h

theorem completeData_error {log : Log} {cid : Cid} {indexes : KeyValues} {data : Option P.Data}
    {e : Failure} (h : completeData log cid indexes data = .error e) :
    e.isDataIntegrity = false := by
  obtain h | ⟨row, -, h⟩ := bind_eq_error h
  · rw [getLogEntryForMutation_error h]
    rfl
  · split at h
    · split at h
      · cases h
      · split at h
        · cases h
        · obtain h | ⟨-, -, h⟩ := bind_eq_error h
          · exact assertFingerprintScopesUntouched_error h
          · obtain h | ⟨-, -, h⟩ := bind_eq_error h
            · exact assertInsertable_error h
            · cases h
    · cases h; rfl

end MessageStore

namespace StorageController

theorem throws_withLog {α : Type} {Q : Failure → Prop} {tenant : Did}
    {f : Log → Except Failure (α × Log)} (h : ∀ log e, f log = .error e → Q e) :
    Program.Throws Q (Stores.withLog tenant f) := by
  refine Program.throws_mutate fun s e he => ?_
  cases hf : f (s.messages tenant) with
  | ok r => simp [hf, Except.map] at he
  | error e' =>
    simp only [hf, Except.map, Except.error.injEq] at he
    exact he ▸ h _ e' hf

theorem throws_commitLatestStateTransition (tenant : Did) (existing : List StoredMessage)
    (newMessage : StoredMessage) (indexes : KeyValues) (additional : List RecordsWriteMessage) :
    ThrowsNoDataIntegrity
      (commitLatestStateTransition tenant existing newMessage indexes additional) := by
  refine Program.throws_bind (throws_withLog fun log e h => MessageStore.commitLatestState_error h)
    fun putResult => Program.throws_of_returns ?_
  refine Program.returns_bind (Program.returns_forEach ?_ _) fun _ => Program.returns_pure _
  exact returns_deleteFromDataStoreIfNeeded tenant newMessage

end StorageController

namespace RecordsWriteHandler

/-- The stores after the data of a write was refused: a large stream was put and
deleted again under the reference the message names. -/
def afterRejection (tenant : Did) (m : RecordsWriteMessage) (dataStream : Option P.Data)
    (s : Stores) : Stores :=
  match dataStream with
  | none => s
  | some data =>
    if m.descriptor.dataSize ≤ maxDataSizeAllowedToBeEncoded then s
    else
      let ref : DataRef := ⟨tenant, m.recordId, m.descriptor.dataCid⟩
      { s with data := (s.data.put ref data).2.delete ref }

variable {deps : HandlerDependencies} {tenant : Did} {m : RecordsWriteMessage} {s : Stores}

theorem processMessageWithDataStream_error {data : P.Data} {e : Failure}
    (h : (processMessageWithDataStream deps tenant m data).result s = .error e) :
    (processMessageWithDataStream deps tenant m data).final s =
      afterRejection tenant m (some data) s := by
  unfold processMessageWithDataStream at h ⊢
  by_cases hsmall : m.descriptor.dataSize ≤ maxDataSizeAllowedToBeEncoded
  · simp only [hsmall, if_true, afterRejection] at h ⊢
    obtain ⟨-, hf⟩ | ⟨_, -, h, hf⟩ := Program.bind_eq_error h
    · exact hf
    · obtain ⟨-, hf'⟩ | ⟨_, -, h, -⟩ := Program.bind_eq_error h
      · exact hf.trans hf'
      · cases h
  · simp only [hsmall, if_false, afterRejection] at h ⊢
    obtain ⟨h, -⟩ | ⟨dataSize, -, h, hf⟩ := Program.bind_eq_error h
    · cases h
    · rw [hf]
      split at h
      · cases h
      · rfl

theorem processData_error {dataStream : Option P.Data} {newest : Option StoredMessage}
    {e : Failure} (h : (processData deps tenant m dataStream newest).result s = .error e) :
    (processData deps tenant m dataStream newest).final s =
      afterRejection tenant m dataStream s := by
  unfold processData at h ⊢
  cases dataStream with
  | some data =>
    obtain ⟨h, hf⟩ | ⟨_, -, h, -⟩ := Program.bind_eq_error h
    · exact hf.trans (processMessageWithDataStream_error h)
    · cases h
  | none =>
    by_cases hinitial : RecordsWrite.isInitialWrite m = true
    · rw [if_pos hinitial] at h
      cases h
    · rw [if_neg hinitial] at h ⊢
      cases newest with
      | none => rfl
      | some newest =>
        cases hwrite : newest.asRecordsWrite with
        | none =>
          simp only [hwrite]
          rfl
        | some newestExistingWrite =>
          simp only [hwrite] at h ⊢
          obtain ⟨-, hf⟩ | ⟨_, -, h, -⟩ := Program.bind_eq_error h
          · exact hf
          · cases h

theorem mapCommitWriteErrorToReply_ok {e : Failure} {reply : Reply}
    (h : (mapCommitWriteErrorToReply e).result s = .ok reply) :
    reply = { status := messageReplyFromError e 400 } ∧
      (mapCommitWriteErrorToReply e).final s = s := by
  unfold mapCommitWriteErrorToReply at h ⊢
  cases e with
  | dwnError error =>
    by_cases hc : isClientFacing error.code = true
    · simp only [hc, if_true] at h ⊢
      cases h
      exact ⟨rfl, rfl⟩
    · simp only [hc] at h
      cases h
  | typeError => cases h
  | stackOverflow => cases h

theorem handleExistingRecordsWrite_integrity {dataStream : Option P.Data} {existing : StoredMessage}
    {existingMessages : List StoredMessage} {reply : Reply}
    (h : (handleExistingRecordsWrite deps tenant m dataStream existing existingMessages).result s =
      .ok reply) (hreply : reply.reportsDataIntegrity = true) :
    (handleExistingRecordsWrite deps tenant m dataStream existing existingMessages).final s =
        afterRejection tenant m dataStream s := by
  unfold handleExistingRecordsWrite at h ⊢
  cases dataStream with
  | none =>
    cases h
    cases hreply
  | some data =>
    dsimp only at h ⊢
    obtain ⟨completable, -, h, hf⟩ := Program.bind_eq_ok h
    rw [hf]
    cases completable with
    | false =>
      cases h
      cases hreply
    | true =>
      simp only [Bool.not_true, Bool.false_eq_true, if_false] at h ⊢
      obtain ⟨outcome, hout, h, hf⟩ := Program.bind_eq_ok h
      rw [hf]
      split at h
      · cases h
        cases hreply
      · cases h
        cases hreply
      · next e =>
        split at h
        · cases h
          cases hreply
        · simp only [Bool.false_eq_true, if_false] at h ⊢
          obtain ⟨rfl, hf⟩ := mapCommitWriteErrorToReply_ok h
          rw [reportsDataIntegrity_error] at hreply
          rw [hf]
          have herr : (completeExisting deps tenant m data).result s = .error e := by
            simpa using hout
          obtain ⟨h, hf⟩ | ⟨completed, -, h, -⟩ := Program.bind_eq_error herr
          · exact hf.trans (processMessageWithDataStream_error h)
          · have := StorageController.throws_withLog
              (fun log e h => MessageStore.completeData_error h) _ _ h
            exact absurd hreply (by simp [this])

theorem commitRecordsWrite_integrity {dataStream : Option P.Data}
    (hdeps : deps.RaisesNoDataIntegrity) {existing : List StoredMessage} {e : Failure}
    (h : (commitRecordsWrite deps tenant m dataStream existing).result s = .error e)
    (he : e.isDataIntegrity = true) :
    (commitRecordsWrite deps tenant m dataStream existing).final s =
      afterRejection tenant m dataStream s := by
  unfold commitRecordsWrite at h ⊢
  dsimp only at h ⊢
  by_cases hdel : (Message.getNewestMessage existing).any StoredMessage.isRecordsDelete = true
  · rw [if_pos hdel] at h
    cases h
    cases he
  · rw [if_neg hdel] at h ⊢
    obtain ⟨h, -⟩ | ⟨_, -, h, hf⟩ := Program.bind_eq_error h
    · exact absurd he (by simp [hdeps.preProcessWrite _ _ _ _ h])
    · rw [hf]
      by_cases hcontrol : (EncryptionControl.isControlMessage m && dataStream.isNone) = true
      · rw [if_pos hcontrol] at h
        cases h
        cases he
      · rw [if_neg hcontrol] at h ⊢
        obtain ⟨h, hf⟩ | ⟨processed, -, h, -⟩ := Program.bind_eq_error h
        · rw [hf]
          exact processData_error h
        · have := StorageController.throws_commitLatestStateTransition _ _ _ _ _ _ _ h
          exact absurd he (by simp [this])

theorem parse_error (hdeps : deps.RaisesNoDataIntegrity) {e : Failure}
    (h : RecordsWrite.parse deps m = .error e) : e.isDataIntegrity = false := by
  obtain h | ⟨-, -, h⟩ := bind_eq_error h
  · exact hdeps.validateMessageStructure _ _ h
  · obtain h | ⟨-, -, h⟩ := bind_eq_error h
    · unfold RecordsWrite.validateInitialWriteIntegrity at h
      dsimp only at h
      split at h
      · cases h
      · split at h
        · cases h; rfl
        · split at h
          · cases h; rfl
          · cases h
    · exact hdeps.validateSignaturePayload _ _ h

omit P in
theorem orReply_eq_error {α : Type} {r : Except Failure α} {code : Nat} {reply : Reply}
    (h : orReply r code = .error reply) :
    ∃ e, r = .error e ∧ reply.reportsDataIntegrity = e.isDataIntegrity := by
  cases r with
  | ok a => cases h
  | error e =>
    cases h
    exact ⟨e, rfl, reportsDataIntegrity_error e code none⟩

theorem getInitialWrite_error {existing : List StoredMessage} {isInitial : Bool} {e : Failure}
    (h : getInitialWrite existing isInitial = .error e) : e.isDataIntegrity = false := by
  unfold getInitialWrite at h
  cases isInitial with
  | true => cases h
  | false =>
    unfold RecordsWrite.getInitialWrite at h
    cases hfind : (existing.find? StoredMessage.isInitialWrite).bind
        StoredMessage.asRecordsWrite with
    | some i => simp [hfind, Except.map] at h
    | none =>
      simp only [hfind, Except.map, Bool.false_eq_true, if_false, Except.error.injEq] at h
      rw [← h]
      rfl

omit P in
theorem verifyImmutableProperties_error {i : Option RecordsWriteMessage} {e : Failure}
    (h : verifyImmutableProperties i m = .error e) : e.isDataIntegrity = false := by
  cases i with
  | none => cases h
  | some i =>
    unfold verifyImmutableProperties RecordsWrite.verifyEqualityOfImmutableProperties at h
    dsimp only at h
    split at h
    · cases h
    · cases h; rfl

theorem enforceSquashBackstop_error {ruleSet : ModuleRuleSet} {e : Failure}
    (h : enforceSquashBackstop s tenant m ruleSet = .error e) : e.isDataIntegrity = false := by
  unfold enforceSquashBackstop at h
  split at h
  · cases h
  · split at h
    · cases h
    · split at h
      · cases h; rfl
      · cases h

theorem checkAdmission_error (hdeps : deps.RaisesNoDataIntegrity) {existing : List StoredMessage}
    {reply : Reply} (h : checkAdmission deps tenant m existing s = .error reply) :
    reply.reportsDataIntegrity = false := by
  obtain h | ⟨initialWrite, -, h⟩ := bind_eq_error h
  · obtain ⟨e, h, hr⟩ := orReply_eq_error h
    exact hr.trans (getInitialWrite_error h)
  obtain h | ⟨ruleSet, -, h⟩ := bind_eq_error h
  · obtain ⟨e, h, hr⟩ := orReply_eq_error h
    exact hr.trans (hdeps.validateReferentialIntegrity _ _ _ _ h)
  obtain h | ⟨-, -, h⟩ := bind_eq_error h
  · obtain ⟨e, h, hr⟩ := orReply_eq_error h
    exact hr.trans (hdeps.authenticate _ _ h)
  obtain h | ⟨-, -, h⟩ := bind_eq_error h
  · obtain ⟨e, h, hr⟩ := orReply_eq_error h
    exact hr.trans (hdeps.authorizeRecordsWrite _ _ _ _ h)
  obtain h | ⟨-, -, h⟩ := bind_eq_error h
  · obtain ⟨e, h, hr⟩ := orReply_eq_error h
    exact hr.trans (verifyImmutableProperties_error h)
  · obtain ⟨e, h, hr⟩ := orReply_eq_error h
    exact hr.trans (enforceSquashBackstop_error h)

/-- Every reply that reports failed integrity leaves the stores as the refused data does. -/
theorem handle_integrity (hdeps : deps.RaisesNoDataIntegrity) {dataStream : Option P.Data}
    {reply : Reply} (h : (handle deps tenant m dataStream).result s = .ok reply)
    (hreply : reply.reportsDataIntegrity = true) :
    (handle deps tenant m dataStream).final s = afterRejection tenant m dataStream s := by
  unfold handle at h ⊢
  cases hparse : RecordsWrite.parse deps m with
  | error e =>
    simp only [hparse] at h
    cases h
    rw [reportsDataIntegrity_error, parse_error hdeps hparse] at hreply
    cases hreply
  | ok _ =>
    simp only [hparse] at h ⊢
    obtain ⟨existing, -, h, hf⟩ := Program.bind_eq_ok h
    rw [hf]
    unfold handleOn at h ⊢
    split at h
    · exact handleExistingRecordsWrite_integrity h hreply
    · obtain ⟨admitted, hadmission, h, hf⟩ := Program.bind_eq_ok h
      rw [hf]
      cases admitted with
      | error refusal =>
        cases h
        rw [checkAdmission_error hdeps (Except.ok.inj hadmission)] at hreply
        cases hreply
      | ok _ =>
        dsimp only at h ⊢
        unfold commitIfNewest at h ⊢
        by_cases hold : ((Message.getNewestMessage existing).any fun n =>
            !Message.isNewer (RecordsWrite.stored m) n) = true
        · rw [if_pos hold] at h
          cases h
          cases hreply
        · rw [if_neg hold] at h ⊢
          obtain ⟨outcome, hout, h, hf⟩ := Program.bind_eq_ok h
          rw [hf]
          cases outcome with
          | error e =>
            obtain ⟨rfl, hf⟩ := mapCommitWriteErrorToReply_ok h
            rw [reportsDataIntegrity_error] at hreply
            exact hf.trans (commitRecordsWrite_integrity hdeps (Except.ok.inj hout) hreply)
          | ok putResult =>
            obtain ⟨_, -, h, -⟩ := Program.bind_eq_ok h
            cases h
            unfold acceptedStatus Reply.reportsDataIntegrity at hreply
            dsimp only at hreply
            split at hreply <;> cases hreply

/-- Whether the refused data left every reference readable as before. -/
theorem get_afterRejection_iff (hdata : s.data.Counted) (dataStream : Option P.Data) :
    (∀ ref, (afterRejection tenant m dataStream s).data.get ref = s.data.get ref) ↔
      dataStream = none ∨ m.descriptor.dataSize ≤ maxDataSizeAllowedToBeEncoded ∨
        s.data.get ⟨tenant, m.recordId, m.descriptor.dataCid⟩ = none := by
  cases dataStream with
  | none => simp [afterRejection]
  | some data =>
    by_cases hsmall : m.descriptor.dataSize ≤ maxDataSizeAllowedToBeEncoded
    · simp [afterRejection, hsmall]
    · simp only [afterRejection, hsmall, if_false, false_or, reduceCtorEq]
      generalize (⟨tenant, m.recordId, m.descriptor.dataCid⟩ : DataRef) = ref
      cases href : s.data.refs ref with
      | none => simp [DataStore.delete_put hdata href, DataStore.get, href]
      | some n =>
        have hput : (s.data.put ref data).2 = s.data := by simp [DataStore.put, href]
        rw [hput]
        constructor
        · intro h
          rw [← h ref, DataStore.get_delete_self]
        · intro h ref'
          by_cases heq : ref' = ref
          · rw [heq, h, DataStore.get_delete_self]
          · exact DataStore.get_delete_of_ne hdata heq

/-- The message log is the same and every data reference reads the same. -/
def Unchanged (s t : Stores) : Prop := t.messages = s.messages ∧ ∀ ref, t.data.get ref = s.data.get ref

/-- A write refused for its data leaves the stores unchanged exactly when it brought no
large stream or its reference held no data before. -/
theorem handle_rejected_unchanged_iff (hdeps : deps.RaisesNoDataIntegrity)
    (hdata : s.data.Reachable) {dataStream : Option P.Data} {reply : Reply}
    (h : (handle deps tenant m dataStream).result s = .ok reply)
    (hreply : reply.reportsDataIntegrity = true) :
    Unchanged s ((handle deps tenant m dataStream).final s) ↔
      dataStream = none ∨ m.descriptor.dataSize ≤ maxDataSizeAllowedToBeEncoded ∨
        s.data.get ⟨tenant, m.recordId, m.descriptor.dataCid⟩ = none := by
  rw [Unchanged, handle_integrity hdeps h hreply, get_afterRejection_iff hdata.counted]
  refine and_iff_right ?_
  unfold afterRejection
  cases dataStream with
  | none => rfl
  | some data =>
    dsimp only
    split <;> rfl

end RecordsWriteHandler

end EnboxDwn

namespace EnboxDwn.RecordsWriteHandler
open Journal

local instance : Platform := Platform.ofText

def largeWrite (signature : String) (messageTimestamp : Timestamp) : RecordsWriteMessage where
  recordId := "alice1"
  contextId := "alice1"
  descriptor :=
    { module := "notes", modulePath := "note", dataCid := "L1", dataSize := 40002,
      dataFormat := "text/plain", dateCreated := "1", messageTimestamp }
  authorization := { signature, signer := "alice" }

def storesWithLargeWrite : Stores :=
  (handle .permissive "alice" (largeWrite "a" "1") (some "L1")).final {}

theorem reachable_storesWithLargeWrite : storesWithLargeWrite.data.Reachable :=
  DataStore.Reachable.put .empty ⟨"alice", "alice1", "L1"⟩ "L1"

theorem raisesNoDataIntegrity_permissive : HandlerDependencies.permissive.RaisesNoDataIntegrity := by
  constructor <;> intros <;> contradiction

/-- An update that names the stored data but streams other data takes the stored data
away with its own. -/
theorem handle_rejected_loses_data :
    (handle .permissive "alice" (largeWrite "b" "2") (some "L2")).result storesWithLargeWrite =
      .ok { status := messageReplyFromError (.dwnError ⟨.recordsWriteDataCidMismatch,
        "actual data CID L2 does not match dataCid in descriptor: L1"⟩) 400 } ∧
    storesWithLargeWrite.data.get ⟨"alice", "alice1", "L1"⟩ = some (40002, "L1") ∧
    ¬ Unchanged storesWithLargeWrite
      ((handle .permissive "alice" (largeWrite "b" "2") (some "L2")).final
        storesWithLargeWrite) := by
  refine ⟨by decide, by decide, fun h => ?_⟩
  have hget := h.2 ⟨"alice", "alice1", "L1"⟩
  revert hget
  decide

/-- Another record may name the same data: its failed stream leaves no trace. -/
theorem handle_rejected_unchanged_otherRecord :
    Unchanged storesWithLargeWrite
      ((handle .permissive "alice" { largeWrite "b" "2" with
        recordId := "alice2", contextId := "alice2",
        descriptor := { (largeWrite "b" "2").descriptor with dateCreated := "2" } }
        (some "L2")).final storesWithLargeWrite) := by
  have hresult : (handle .permissive "alice" { largeWrite "b" "2" with
      recordId := "alice2", contextId := "alice2",
      descriptor := { (largeWrite "b" "2").descriptor with dateCreated := "2" } }
      (some "L2")).result storesWithLargeWrite =
        .ok { status := messageReplyFromError (.dwnError ⟨.recordsWriteDataCidMismatch,
          "actual data CID L2 does not match dataCid in descriptor: L1"⟩) 400 } := by
    decide
  refine (handle_rejected_unchanged_iff raisesNoDataIntegrity_permissive
    reachable_storesWithLargeWrite hresult rfl).mpr (Or.inr (Or.inr ?_))
  decide

end EnboxDwn.RecordsWriteHandler
