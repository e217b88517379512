import EnboxDwn.RecordRun

/-! Concurrent runs on one record: each run queries the record's messages, and later
commits a transition planned on what its query returned. -/
namespace EnboxDwn
open KeyValues Journal MessageStore StorageController

variable [P : Platform]

/-! ## A commit on a stale snapshot -/

/-- What a query of the record returned at some time. -/
structure Recalled (known : GenericMessage → Prop) (recordId : String)
    (existing : List StoredMessage) : Prop where
  nodup : (existing.map Message.getCid).Nodup
  belongs : ∀ m ∈ existing, m.belongsTo recordId = true
  origin : ∀ m ∈ existing, known m.message

/-- The record has at most one row that is indexed as the latest base state, and all rows
hold known messages. -/
structure Single (known : GenericMessage → Prop) (recordId : String) (log : Log) : Prop where
  wf : log.WellFormed
  origin : ∀ r ∈ log.rows, known r.message.message
  one : ∀ r ∈ recordRows log recordId, ∀ r' ∈ recordRows log recordId,
    r.isLatest = true → r'.isLatest = true → r = r'

theorem Single.recalled {known : GenericMessage → Prop} {recordId : String} {log : Log}
    (h : Single known recordId log) :
    Recalled known recordId (query log [recordFilter recordId]) where
  nodup := nodup_query h.wf _
  belongs := by
    intro m hm
    obtain ⟨r, hr, rfl⟩ := (mem_query_record h.wf).mp hm
    exact (mem_recordRows.mp hr).2
  origin := by
    intro m hm
    obtain ⟨r, hr, rfl⟩ := (mem_query_record h.wf).mp hm
    exact h.origin r (mem_recordRows.mp hr).1

section Stale
variable {known : GenericMessage → Prop} {recordId : String} {log log' : Log}
  {existing : List StoredMessage} {newMessage : StoredMessage} {indexes : KeyValues} {additional : List RecordsWriteMessage}
  {result : PutResult}

theorem displaceRow_cases {r r' : Row}
    (h : displaceRow existing newMessage additional r = some r') :
    (r' = r ∧ (r.cid ∉ existing.map Message.getCid ∨ r.cid = Message.getCid newMessage)) ∨
    ∃ m ∈ existing, Message.getCid m = r.cid ∧ r.cid ≠ Message.getCid newMessage ∧
      shouldKeepAsNonLatestWrite additional m = true ∧ r' = demote r m := by
  unfold displaceRow at h
  cases hfind : existing.find? fun m => Message.getCid m = r.cid with
  | none =>
    have habsent : r.cid ∉ existing.map Message.getCid := by
      intro hmem
      obtain ⟨m, hm, hc⟩ := List.mem_map.mp hmem
      have := List.find?_eq_none.mp hfind m hm
      simp [hc] at this
    rw [hfind] at h
    cases h
    exact Or.inl ⟨rfl, Or.inl habsent⟩
  | some m =>
    have hm : m ∈ existing := List.mem_of_find?_eq_some hfind
    have hc : Message.getCid m = r.cid := by simpa using List.find?_some hfind
    rw [hfind] at h
    by_cases hnew : r.cid = Message.getCid newMessage
    · simp only [hnew, if_true, Option.some.injEq] at h
      exact Or.inl ⟨h.symm, Or.inr hnew⟩
    · by_cases hkeep : shouldKeepAsNonLatestWrite additional m = true
      · simp only [hnew, hkeep, if_true, if_false, Option.some.injEq] at h
        exact Or.inr ⟨m, hm, hc, hnew, hkeep, h.symm⟩
      · simp [hnew, hkeep] at h

/-- The log a commit leaves: the displaced rows, then the new row unless it is stored. -/
theorem commitLatestState_eq_ok (hnodup : (existing.map Message.getCid).Nodup)
    (hok : commitLatestState log (planTransition existing newMessage indexes additional) =
      .ok (result, log')) :
    assertCommittable log (planTransition existing newMessage indexes additional) = .ok () ∧
      log'.rows = log.rows.filterMap (displaceRow existing newMessage additional) ++
        (if (find? log (Message.getCid newMessage)).isNone then [newRow log newMessage indexes]
          else []) := by
  unfold commitLatestState at hok
  obtain ⟨_, hassert, hok⟩ := bind_eq_ok hok
  refine ⟨hassert, ?_⟩
  rw [displace_planTransition hnodup] at hok
  by_cases hnew : (find? log (Message.getCid newMessage)).isNone = true
  · have hins : inserts log (planTransition existing newMessage indexes additional) = true := hnew
    rw [if_pos hins] at hok
    cases hok
    rw [if_pos hnew]
    rfl
  · have hins : ¬ inserts log (planTransition existing newMessage indexes additional) = true := hnew
    rw [if_neg hins] at hok
    cases hok
    rw [if_neg hnew, List.append_nil]

theorem mem_commitLatestState (hnodup : (existing.map Message.getCid).Nodup)
    (hok : commitLatestState log (planTransition existing newMessage indexes additional) =
      .ok (result, log')) {r' : Row} :
    r' ∈ log'.rows ↔
      (∃ r ∈ log.rows, displaceRow existing newMessage additional r = some r') ∨
      ((∀ r ∈ log.rows, r.cid ≠ Message.getCid newMessage) ∧
        r' = newRow log newMessage indexes) := by
  rw [(commitLatestState_eq_ok hnodup hok).2, List.mem_append, List.mem_filterMap]
  refine or_congr_right ?_
  have hnone : (find? log (Message.getCid newMessage)).isNone = true ↔
      ∀ r ∈ log.rows, r.cid ≠ Message.getCid newMessage := by
    rw [Option.isNone_iff_eq_none, ← Option.not_isSome_iff_eq_none, find?_isSome]
    simp
  rw [← hnone]
  split
  · next h => simp [h]
  · next h => simp [h]

theorem assertReplaceable_of_committable {t : LatestStateTransition}
    (h : assertCommittable log t = .ok ()) : ∀ x ∈ t.retains, assertReplaceable log x = .ok () := by
  unfold assertCommittable at h
  obtain ⟨_, -, h⟩ := bind_eq_ok h
  by_cases hins : inserts log t = true
  · simp only [hins, if_true] at h
    obtain ⟨_, -, h⟩ := bind_eq_ok h
    exact forM_eq_ok h
  · simp only [hins, if_false, Bool.false_eq_true] at h
    exact forM_eq_ok h

theorem scoped_demote_of_commit (wf : log.WellFormed)
    (hassert : assertCommittable log (planTransition existing newMessage indexes additional) =
      .ok ()) {r : Row} (hr : r ∈ log.rows) {m : StoredMessage} (hm : m ∈ existing)
    (hc : Message.getCid m = r.cid) (hne : r.cid ≠ Message.getCid newMessage)
    (hkeep : shouldKeepAsNonLatestWrite additional m = true) : (demote r m).Scoped := by
  unfold demote
  cases hw : m.asRecordsWrite with
  | none => exact wf.scopes r hr
  | some w =>
    have hx : (⟨Message.getCid m, m.stripInlineData, RecordsWrite.constructIndexes w false⟩ :
        Retain) ∈ (planTransition existing newMessage indexes additional).retains :=
      mem_retains.mpr ⟨m, hm, by rwa [hc], hkeep, by simp [retainOf, hw]⟩
    have hreplace := assertReplaceable_of_committable hassert _ hx
    have hfind : find? log r.cid = some r := Selection.find?_of_nodup_map wf.distinct hr
    simp only [assertReplaceable, getLogEntryForMutation, hc, hfind, ok_bind] at hreplace
    obtain ⟨_, hscopes, -⟩ := bind_eq_ok hreplace
    unfold Replication.assertFingerprintScopesUntouched at hscopes
    unfold Row.Scoped
    by_contra hmatch
    rw [if_neg hmatch] at hscopes
    cases hscopes

theorem wellFormed_commit (wf : log.WellFormed) (hnodup : (existing.map Message.getCid).Nodup)
    (hindexed : (newRow log newMessage indexes).Indexed)
    (hok : commitLatestState log (planTransition existing newMessage indexes additional) =
      .ok (result, log')) : log'.WellFormed := by
  have hmem := @mem_commitLatestState _ log log' existing newMessage indexes additional result
    hnodup hok
  obtain ⟨hassert, hrows⟩ := commitLatestState_eq_ok hnodup hok
  refine ⟨?_, fun r' hr' => ?_, fun r' hr' => ?_⟩
  · rw [hrows, List.map_append]
    refine List.nodup_append.mpr ⟨nodup_filterMap_displaceRow wf.distinct, ?_, ?_⟩
    · split <;> simp
    · intro c hc c' hc' heq
      obtain ⟨r', hr', rfl⟩ := List.mem_map.mp hc
      obtain ⟨r, hr, hdis⟩ := List.mem_filterMap.mp hr'
      split at hc'
      · next hnone =>
        rw [List.map_cons, List.map_nil, List.mem_singleton] at hc'
        rw [Option.isNone_iff_eq_none, ← Option.not_isSome_iff_eq_none, find?_isSome] at hnone
        exact hnone ⟨r, hr, by rw [← cid_of_displaceRow hdis, heq, hc']; rfl⟩
      · cases hc'
  · obtain ⟨r, hr, hdis⟩ | ⟨-, rfl⟩ := hmem.mp hr'
    · obtain ⟨rfl, -⟩ | ⟨m, hm, hc, -, -, rfl⟩ := displaceRow_cases hdis
      · exact wf.indexed r' hr
      · unfold demote
        cases hw : m.asRecordsWrite with
        | none => exact wf.indexed r hr
        | some w =>
          have hmsg : m.stripInlineData.message = .recordsWrite w := asRecordsWrite_eq_some.mp hw
          simp only [Row.Indexed, hmsg]
          exact ⟨false, rfl⟩
    · exact hindexed
  · obtain ⟨r, hr, hdis⟩ | ⟨-, rfl⟩ := hmem.mp hr'
    · obtain ⟨rfl, -⟩ | ⟨m, hm, hc, hne, hkeep, rfl⟩ := displaceRow_cases hdis
      · exact wf.scopes r' hr
      · exact scoped_demote_of_commit wf hassert hr hm hc hne hkeep
    · exact Replication.scopeSetsMatch_self _

def RetainsWrites (existing : List StoredMessage) (additional : List RecordsWriteMessage) : Prop :=
  ∀ m ∈ existing, shouldKeepAsNonLatestWrite additional m = true → m.isRecordsWrite = true

theorem isLatest_demote_of_write {r : Row} {m : StoredMessage} (h : m.isRecordsWrite = true) :
    (demote r m).isLatest = false := by
  unfold demote
  cases hm : m.message with
  | recordsWrite w => simp [StoredMessage.asRecordsWrite, hm, Row.isLatest, flag]
  | recordsDelete d => simp [StoredMessage.isRecordsWrite, Records.isRecordsWrite, hm] at h
  | modulesConfigure c => simp [StoredMessage.isRecordsWrite, Records.isRecordsWrite, hm] at h

/-- The latest rows after a commit: those the snapshot did not know, and the new row. -/
theorem latest_of_commit (hnodup : (existing.map Message.getCid).Nodup)
    (hretains : RetainsWrites existing additional)
    (hok : commitLatestState log (planTransition existing newMessage indexes additional) =
      .ok (result, log')) {r' : Row} (hr' : r' ∈ log'.rows) (hlatest : r'.isLatest = true) :
    (r' ∈ log.rows ∧
      (r'.cid ∉ existing.map Message.getCid ∨ r'.cid = Message.getCid newMessage)) ∨
    ((∀ r ∈ log.rows, r.cid ≠ Message.getCid newMessage) ∧ r' = newRow log newMessage indexes) := by
  obtain ⟨r, hr, hdis⟩ | hnew := (mem_commitLatestState hnodup hok).mp hr'
  · obtain ⟨rfl, hcid⟩ | ⟨m, hm, -, -, hkeep, rfl⟩ := displaceRow_cases hdis
    · exact Or.inl ⟨hr, hcid⟩
    · rw [isLatest_demote_of_write (hretains m hm hkeep)] at hlatest
      cases hlatest
  · exact Or.inr hnew

/-- A commit keeps the latest row single when it adds no latest row or its snapshot knows
every latest row but the message's own. -/
theorem Single.commit (h : Single known recordId log) (hsnap : Recalled known recordId existing)
    (hretains : RetainsWrites existing additional) (hknown : known newMessage.message)
    (hindexed : (newRow log newMessage indexes).Indexed)
    (hsafe : (∃ r ∈ log.rows, r.cid = Message.getCid newMessage) ∨
      get indexes "isLatestBaseState" = some (flag false) ∨
      ∀ r ∈ recordRows log recordId, r.isLatest = true → r.cid ≠ Message.getCid newMessage →
        r.cid ∈ existing.map Message.getCid)
    (hok : commitLatestState log (planTransition existing newMessage indexes additional) =
      .ok (result, log')) : Single known recordId log' := by
  have wf' := wellFormed_commit h.wf hsnap.nodup hindexed hok
  refine ⟨wf', fun r' hr' => ?_, ?_⟩
  · obtain ⟨r, hr, hdis⟩ | ⟨-, rfl⟩ := (mem_commitLatestState hsnap.nodup hok).mp hr'
    · obtain ⟨rfl, -⟩ | ⟨m, hm, -, -, -, rfl⟩ := displaceRow_cases hdis
      · exact h.origin r' hr
      · unfold demote
        split
        · exact hsnap.origin m hm
        · exact h.origin r hr
    · exact hknown
  intro r hr r' hr' hl hl'
  obtain ⟨hr, hb⟩ := mem_recordRows.mp hr
  obtain ⟨hr', hb'⟩ := mem_recordRows.mp hr'
  have hold := @latest_of_commit _ log log' existing newMessage indexes additional result
    hsnap.nodup hretains hok
  obtain hstored | hflag | hknown := hsafe
  · obtain ⟨r₀, hr₀, hc⟩ := hstored
    obtain ⟨hr, -⟩ | ⟨habsent, -⟩ := hold hr hl
    · obtain ⟨hr', -⟩ | ⟨habsent, -⟩ := hold hr' hl'
      · exact h.one r (mem_recordRows.mpr ⟨hr, hb⟩) r' (mem_recordRows.mpr ⟨hr', hb'⟩) hl hl'
      · exact absurd hc (habsent r₀ hr₀)
    · exact absurd hc (habsent r₀ hr₀)
  · have hnotNew : ∀ x : Row, x.isLatest = true → x ≠ newRow log newMessage indexes := by
      rintro x hx rfl
      simp [Row.isLatest, newRow, hflag, flag] at hx
    obtain ⟨hr, -⟩ | ⟨-, heq⟩ := hold hr hl
    · obtain ⟨hr', -⟩ | ⟨-, heq⟩ := hold hr' hl'
      · exact h.one r (mem_recordRows.mpr ⟨hr, hb⟩) r' (mem_recordRows.mpr ⟨hr', hb'⟩) hl hl'
      · exact absurd heq (hnotNew r' hl')
    · exact absurd heq (hnotNew r hl)
  · have hcid : ∀ x ∈ log'.rows, x.message.belongsTo recordId = true → x.isLatest = true →
        x.cid = Message.getCid newMessage := by
      intro x hx hxb hxl
      obtain ⟨hx, hxc⟩ | ⟨-, rfl⟩ := hold hx hxl
      · by_contra hne
        exact hxc.elim (fun habsent => habsent (hknown x (mem_recordRows.mpr ⟨hx, hxb⟩) hxl hne))
          hne
      · rfl
    exact wf'.eq_of_cid hr hr' ((hcid r hr hb hl).trans (hcid r' hr' hb' hl').symm)

section Completion
variable {m : RecordsWriteMessage} {encodedData : Option P.Data}
    {completed : CompleteDataResult}
    (hok : completeData log (Message.getCid (RecordsWrite.stored m))
      (RecordsWrite.constructIndexes m true) encodedData = .ok (completed, log'))
include hok

/-- A completion keeps a log well-formed when the completed row holds the message itself. -/
theorem wellFormed_completeData (wf : log.WellFormed)
    (hsame : ∀ r ∈ log.rows, r.cid = Message.getCid (RecordsWrite.stored m) →
      r.message.message = .recordsWrite m) :
    log'.WellFormed := by
  obtain rfl | ⟨row, w, row', hrow, hcid, hmsg, -, hscopes, hmsg', hindexes, hfp, -, -, -,
      hrows⟩ := completeData_eq_ok hok
  · exact wf
  have hw := hmsg.symm.trans (hsame row hrow hcid)
  cases hw
  have hmem : ∀ r ∈ log'.rows, r ∈ log.rows ∨ r = row' := by
    intro r hr
    rw [hrows, List.mem_append, List.mem_filter, List.mem_singleton] at hr
    exact hr.imp And.left id
  refine ⟨?_, fun r hr => ?_, fun r hr => ?_⟩
  · rw [hrows, List.map_append]
    refine List.nodup_append.mpr ⟨wf.distinct.sublist (List.filter_sublist.map _), by simp, ?_⟩
    intro c hc c' hc' heq
    obtain ⟨r, hr, rfl⟩ := List.mem_map.mp hc
    rw [List.map_cons, List.map_nil, List.mem_singleton] at hc'
    refine of_decide_eq_true (List.mem_filter.mp hr).2 (heq.trans (hc'.trans ?_))
    simp only [Row.cid, Message.getCid, hmsg', RecordsWrite.stored]
  · obtain hr | rfl := hmem r hr
    · exact wf.indexed r hr
    · simp only [Row.Indexed, hmsg']
      exact ⟨true, hindexes⟩
  · obtain hr | rfl := hmem r hr
    · exact wf.scopes r hr
    · rwa [Row.Scoped, hmsg', hindexes, hfp]

theorem Single.complete
    (hinj : ∀ a b, known a → known b → P.computeCid a = P.computeCid b → a = b)
    (h : Single known recordId log) (hknown : known (.recordsWrite m)) :
    Single known recordId log' := by
  have hsame : ∀ r ∈ log.rows, r.cid = Message.getCid (RecordsWrite.stored m) →
      r.message.message = .recordsWrite m := fun r hr hc => hinj _ _ (h.origin r hr) hknown hc
  have wf' := wellFormed_completeData hok h.wf hsame
  obtain rfl | ⟨row, w, row', hrow, hcid, hmsg, halone, -, hmsg', -, -, -, -, -, hrows⟩ :=
    completeData_eq_ok hok
  · exact h
  have hw := hmsg.symm.trans (hsame row hrow hcid)
  cases hw
  have hmem : ∀ r ∈ log'.rows,
      (r ∈ log.rows ∧ r.cid ≠ Message.getCid (RecordsWrite.stored m)) ∨ r = row' := by
    intro r hr
    rw [hrows, List.mem_append, List.mem_filter, List.mem_singleton] at hr
    exact hr.imp (fun h => ⟨h.1, of_decide_eq_true h.2⟩) id
  refine ⟨wf', fun r hr => ?_, ?_⟩
  · obtain ⟨hr, -⟩ | rfl := hmem r hr
    · exact h.origin r hr
    · rwa [hmsg']
  · -- an old row beside the completed one would have been found by the completion
    have hmixed : ∀ r ∈ log.rows, r.cid ≠ Message.getCid (RecordsWrite.stored m) →
        r.message.belongsTo recordId = true → row'.message.belongsTo recordId = true → False := by
      intro r hr hne hb hb'
      have hrecord : m.recordId = recordId := by
        simpa [StoredMessage.belongsTo, hmsg'] using hb'
      refine hne (halone r ?_)
      rw [matching_record h.wf]
      exact mem_recordRows.mpr ⟨hr, by rwa [hrecord]⟩
    intro r hr r' hr' hl hl'
    obtain ⟨hr, hb⟩ := mem_recordRows.mp hr
    obtain ⟨hr', hb'⟩ := mem_recordRows.mp hr'
    obtain ⟨hold, hne⟩ | rfl := hmem r hr
    · obtain ⟨hold', -⟩ | rfl := hmem r' hr'
      · exact h.one r (mem_recordRows.mpr ⟨hold, hb⟩) r' (mem_recordRows.mpr ⟨hold', hb'⟩) hl hl'
      · exact (hmixed r hold hne hb hb').elim
    · obtain ⟨hold', hne'⟩ | rfl := hmem r' hr'
      · exact (hmixed r' hold' hne' hb' hb).elim
      · rfl

end Completion

end Stale

/-! ## What a run does after its query -/

namespace Purging
variable {Inv : Stores → Prop} {tenant : Did}
  (hmessage : ∀ cid, Program.Preserves Inv (Stores.deleteMessage tenant cid))
  (hdata : ∀ ref, Program.Preserves Inv (Stores.deleteData ref))
include hmessage hdata

theorem purgeRecordMessages (messages : List StoredMessage) :
    Program.Preserves Inv (StorageController.purgeRecordMessages tenant messages) := by
  unfold StorageController.purgeRecordMessages
  split
  · exact Program.moves_throw _
  · exact Program.moves_bind (hdata _) fun _ => Program.moves_forEach hmessage _

theorem purgeRecordDescendants (depth : Nat) (recordId : String) :
    Program.Preserves Inv (StorageController.purgeRecordDescendants depth tenant recordId) := by
  induction depth generalizing recordId with
  | zero => exact Program.moves_throw _
  | succ depth ih =>
    refine Program.moves_bind (Program.moves_read _) fun messages => ?_
    refine Program.moves_bind (Program.moves_forEach ih _) fun _ => ?_
    exact Program.moves_forEach (purgeRecordMessages hmessage hdata) _

theorem performRecordsSquash (m : RecordsWriteMessage) :
    Program.Preserves Inv (StorageController.performRecordsSquash tenant m) := by
  refine Program.moves_bind (Program.moves_read _) fun messages => ?_
  refine Program.moves_forEach (fun group => ?_) _
  split
  · exact Program.moves_pure ()
  · split
    · exact Program.moves_pure ()
    · split
      · exact purgeRecordMessages hmessage hdata _
      · exact Program.moves_pure ()

theorem postProcess (m : RecordsWriteMessage) :
    Program.Preserves Inv (RecordsWriteHandler.postProcess tenant m) := by
  have hrevoke : Program.Preserves Inv (PermissionsModule.postProcessWrite tenant m) := by
    unfold PermissionsModule.postProcessWrite
    split
    · exact Program.moves_pure ()
    · refine Program.moves_bind (Program.moves_read _) fun messages => ?_
      refine Program.moves_bind
        (Program.moves_forEach (preserves_deleteMessageData hdata tenant) _) fun _ => ?_
      exact Program.moves_forEach hmessage _
  unfold RecordsWriteHandler.postProcess
  by_cases hsquash : m.descriptor.squash = some true
  · simp only [hsquash, if_true]
    refine Program.moves_bind (performRecordsSquash hmessage hdata m) fun _ => ?_
    split
    · exact hrevoke
    · exact Program.moves_pure ()
  · simp only [hsquash, if_false]
    split
    · exact hrevoke
    · exact Program.moves_pure ()

end Purging

/-- A run on a record: the handler of a write, or the task of a delete. -/
inductive RecordTask where
  | write (m : RecordsWriteMessage) (dataStream : Option P.Data)
  | delete (m : RecordsDeleteMessage)

namespace RecordTask

def message : RecordTask → GenericMessage
  | .write m _ => .recordsWrite m
  | .delete m => .recordsDelete m

def recordId : RecordTask → String
  | .write m _ => m.recordId
  | .delete m => m.descriptor.recordId

def cid (task : RecordTask) : Cid := P.computeCid task.message

/-- Everything the run does once its query has returned. -/
def resume (deps : HandlerDependencies) (tenant : Did) (existing : List StoredMessage) :
    RecordTask → Task Unit
  | .write m dataStream => do
    let _ ← RecordsWriteHandler.handleOn deps tenant m dataStream existing
  | .delete m => do
    let _ ← performRecordsDeleteOn tenant m existing

/-- The writes a run retains besides the initial write. -/
def additional (existing : List StoredMessage) : RecordTask → List RecordsWriteMessage
  | .write _ _ => []
  | .delete _ => (Records.getNewestRecordsWrite existing).toList

/-- What the query returned makes the run refuse its message, or complete it in place. -/
def RefusedOn (existing : List StoredMessage) : RecordTask → Prop
  | .write m _ => Message.getCid (RecordsWrite.stored m) ∈ existing.map Message.getCid ∨
      ∃ n, Message.getNewestMessage existing = some n ∧
        (Message.isNewer (RecordsWrite.stored m) n = false ∨ n.isRecordsDelete = true)
  | .delete m => ∀ n, Message.getNewestMessage existing = some n →
      Records.isDeleteBeatenByExistingTombstone m n = true

/-- A write the run would retain is no longer stored, so that its commit is refused. -/
def MissesRetained (log : Log) (existing : List StoredMessage) (task : RecordTask) : Prop :=
  ∃ m ∈ existing, Message.getCid m ≠ task.cid ∧
    shouldKeepAsNonLatestWrite (task.additional existing) m = true ∧
    ∀ r ∈ log.rows, r.cid ≠ Message.getCid m

/-- The run adds no latest row: its message is stored, or is an initial write without data. -/
def AddsNoLatest (log : Log) (task : RecordTask) : Prop :=
  (∃ r ∈ log.rows, r.cid = task.cid) ∨
    ∃ m, task = .write m none ∧ RecordsWrite.isInitialWrite m = true

/-- The query returned every row that is now the latest, but for the message's own. -/
def KnowsLatest (log : Log) (existing : List StoredMessage) (task : RecordTask) : Prop :=
  ∀ r ∈ recordRows log task.recordId, r.isLatest = true → r.cid ≠ task.cid →
    r.cid ∈ existing.map Message.getCid

instance (log : Log) (existing : List StoredMessage) (task : RecordTask) :
    Decidable (task.KnowsLatest log existing) :=
  inferInstanceAs (Decidable (∀ r ∈ recordRows log task.recordId, _))

/-- A run that can go on without a second latest row. -/
def Safe (log : Log) (existing : List StoredMessage) (task : RecordTask) : Prop :=
  task.RefusedOn existing ∨ task.MissesRetained log existing ∨ task.AddsNoLatest log ∨
    task.KnowsLatest log existing

end RecordTask

section Resume
variable {known : GenericMessage → Prop} {recordId : String} {log : Log} {tenant : Did}
  {deps : HandlerDependencies} {existing : List StoredMessage}

theorem preserves_single_deleteMessage (cid : Cid) :
    Program.Preserves (fun s : Stores => Single known recordId (s.messages tenant))
      (Stores.deleteMessage tenant cid) := by
  intro s t ht h
  rw [Stores.trail_deleteMessage, List.mem_singleton] at ht
  subst ht
  rw [Stores.messages_setLog]
  refine ⟨wellFormed_delete h.wf cid, fun r hr => h.origin r (List.mem_filter.mp hr).1, ?_⟩
  intro r hr r' hr' hl hl'
  obtain ⟨hr, hb⟩ := mem_recordRows.mp hr
  obtain ⟨hr', hb'⟩ := mem_recordRows.mp hr'
  exact h.one r (mem_recordRows.mpr ⟨(List.mem_filter.mp hr).1, hb⟩) r'
    (mem_recordRows.mpr ⟨(List.mem_filter.mp hr').1, hb'⟩) hl hl'

theorem preserves_messages_deleteData {Q : (Did → Log) → Prop} (ref : DataRef) :
    Program.Preserves (fun s : Stores => Q s.messages) (Stores.deleteData ref) := by
  refine Program.preserves_mutate fun s a t h hs => ?_
  cases h
  exact hs

theorem preserves_messages_putData {Q : (Did → Log) → Prop} (ref : DataRef) (data : P.Data) :
    Program.Preserves (fun s : Stores => Q s.messages) (Stores.putData ref data) := by
  refine Program.preserves_mutate fun s a t h hs => ?_
  cases h
  exact hs

theorem preserves_messages_processMessageWithDataStream {Q : (Did → Log) → Prop}
    (m : RecordsWriteMessage) (data : P.Data) :
    Program.Preserves (fun s : Stores => Q s.messages)
      (RecordsWriteHandler.processMessageWithDataStream deps tenant m data) := by
  unfold RecordsWriteHandler.processMessageWithDataStream
  dsimp only
  split
  · refine Program.moves_bind (Program.moves_ofExcept _) fun _ => ?_
    exact Program.moves_bind (Program.moves_check _) fun _ => Program.moves_pure _
  · refine Program.moves_bind (preserves_messages_putData _ _) fun size => ?_
    split
    · exact Program.moves_pure _
    · exact Program.moves_bind (preserves_messages_deleteData _) fun _ => Program.moves_throw _

theorem preserves_messages_processData {Q : (Did → Log) → Prop} (m : RecordsWriteMessage)
    (dataStream : Option P.Data) (newest : Option StoredMessage) :
    Program.Preserves (fun s : Stores => Q s.messages)
      (RecordsWriteHandler.processData deps tenant m dataStream newest) := by
  unfold RecordsWriteHandler.processData
  split
  · exact Program.moves_bind (preserves_messages_processMessageWithDataStream m _)
      fun _ => Program.moves_pure _
  · split
    · exact Program.moves_pure _
    · split
      · exact Program.moves_throw _
      · split
        · exact Program.moves_throw _
        · exact Program.moves_bind (Program.moves_check _) fun _ => Program.moves_pure _

theorem yields_processMessageWithDataStream (m : RecordsWriteMessage) (data : P.Data) :
    Program.Yields (fun stored => stored.message = .recordsWrite m)
      (RecordsWriteHandler.processMessageWithDataStream deps tenant m data) := by
  unfold RecordsWriteHandler.processMessageWithDataStream
  dsimp only
  split
  · refine Program.yields_bind (fun _ _ _ => trivial) fun _ _ => ?_
    exact Program.yields_bind (fun _ _ _ => trivial) fun _ _ => Program.yields_pure rfl
  · refine Program.yields_bind (fun _ _ _ => trivial) fun size _ => ?_
    split
    · exact Program.yields_pure rfl
    · exact Program.yields_bind (fun _ _ _ => trivial) fun _ _ => Program.yields_throw _

theorem message_of_processMessageWithoutDataStream {m w : RecordsWriteMessage}
    {existingData : Option P.Data} {s : Stores} {stored : StoredMessage}
    (h : RecordsWriteHandler.processMessageWithoutDataStream tenant m w existingData s =
      .ok stored) : stored.message = .recordsWrite m := by
  unfold RecordsWriteHandler.processMessageWithoutDataStream at h
  obtain ⟨_, -, h⟩ := bind_eq_ok h
  split at h
  · split at h
    · cases h
    · cases h
      rfl
  · split at h
    · cases h
    · cases h
      rfl

/-- What is stored is the message, and an initial write without data is not queryable. -/
theorem yields_processData (m : RecordsWriteMessage) (dataStream : Option P.Data)
    (newest : Option StoredMessage) :
    Program.Yields (fun processed => processed.1.message = .recordsWrite m ∧
        (dataStream = none → RecordsWrite.isInitialWrite m = true → processed.2 = false))
      (RecordsWriteHandler.processData deps tenant m dataStream newest) := by
  unfold RecordsWriteHandler.processData
  split
  · refine Program.yields_bind (yields_processMessageWithDataStream m _) fun stored h => ?_
    exact Program.yields_pure ⟨h, by simp⟩
  · split
    · exact Program.yields_pure ⟨rfl, fun _ _ => rfl⟩
    · next hupdate =>
      split
      · exact Program.yields_throw _
      · split
        · exact Program.yields_throw _
        · refine Program.yields_bind (Program.yields_check fun _ _ =>
            message_of_processMessageWithoutDataStream) fun stored h => ?_
          exact Program.yields_pure ⟨h, fun _ hinitial => absurd hinitial hupdate⟩

theorem commit_refused_of_missing {newMessage m : StoredMessage} {indexes : KeyValues}
    {additional : List RecordsWriteMessage} {result : PutResult × Log}
    (hretains : RetainsWrites existing additional) (hm : m ∈ existing)
    (hne : Message.getCid m ≠ Message.getCid newMessage)
    (hkeep : shouldKeepAsNonLatestWrite additional m = true)
    (hgone : ∀ r ∈ log.rows, r.cid ≠ Message.getCid m) :
    commitLatestState log (planTransition existing newMessage indexes additional) ≠ .ok result := by
  intro hok
  obtain ⟨_, hassert, -⟩ := bind_eq_ok hok
  have hwrite := hretains m hm hkeep
  obtain ⟨w, hw⟩ : ∃ w, m.asRecordsWrite = some w := by
    unfold StoredMessage.isRecordsWrite Records.isRecordsWrite at hwrite
    unfold StoredMessage.asRecordsWrite
    cases hmsg : m.message <;> simp [hmsg] at hwrite ⊢
  have hx : (⟨Message.getCid m, m.stripInlineData, RecordsWrite.constructIndexes w false⟩ : Retain) ∈
      (planTransition existing newMessage indexes additional).retains :=
    mem_retains.mpr ⟨m, hm, hne, hkeep, by simp [retainOf, hw]⟩
  have hreplace := assertReplaceable_of_committable hassert _ hx
  have hfind : find? log (Message.getCid m) = none := by
    rw [← Option.not_isSome_iff_eq_none, find?_isSome]
    intro hr
    obtain ⟨r, hr, hc⟩ := hr
    exact hgone r hr hc
  simp [assertReplaceable, getLogEntryForMutation, hfind] at hreplace

theorem leads_commit {newMessage : StoredMessage} {indexes : KeyValues}
    {additional : List RecordsWriteMessage} (h : Single known recordId log)
    (hsnap : Recalled known recordId existing) (hretains : RetainsWrites existing additional)
    (hknown : known newMessage.message) (hindexed : (newRow log newMessage indexes).Indexed)
    (hsafe : (∃ m ∈ existing, Message.getCid m ≠ Message.getCid newMessage ∧
        shouldKeepAsNonLatestWrite additional m = true ∧
        ∀ r ∈ log.rows, r.cid ≠ Message.getCid m) ∨
      (∃ r ∈ log.rows, r.cid = Message.getCid newMessage) ∨
      get indexes "isLatestBaseState" = some (flag false) ∨
      ∀ r ∈ recordRows log recordId, r.isLatest = true → r.cid ≠ Message.getCid newMessage →
        r.cid ∈ existing.map Message.getCid) :
    Program.Leads (fun s : Stores => s.messages tenant = log)
      (fun s => Single known recordId (s.messages tenant))
      (commitLatestStateTransition tenant existing newMessage indexes additional) := by
  have hcommit : Program.Leads (fun s : Stores => s.messages tenant = log)
      (fun s => Single known recordId (s.messages tenant))
      (Stores.withLog tenant fun log => commitLatestState log
        (planTransition existing newMessage indexes additional)) := by
    refine Stores.leads_withLog h fun result log' hok => ?_
    obtain ⟨m, hm, hne, hkeep, hgone⟩ | hsafe := hsafe
    · exact absurd hok (commit_refused_of_missing hretains hm hne hkeep hgone)
    · exact h.commit hsnap hretains hknown hindexed hsafe hok
  refine Program.leads_bind hcommit (fun s hs => hs) fun result => Program.Preserves.leads ?_
  refine Program.moves_bind (Program.moves_forEach (fun m => ?_) _) fun _ => Program.moves_pure _
  unfold deleteFromDataStoreIfNeeded
  split
  · split
    · exact Program.moves_pure ()
    · split
      · exact Program.moves_pure ()
      · exact preserves_messages_deleteData (Q := fun logs => Single known recordId (logs tenant)) _
  · exact Program.moves_pure ()

theorem retainsWrites_nil (existing : List StoredMessage) : RetainsWrites existing [] := by
  intro m _ hkeep
  have hinitial : m.isInitialWrite = true := by
    simpa [shouldKeepAsNonLatestWrite] using hkeep
  unfold StoredMessage.isInitialWrite StoredMessage.asRecordsWrite at hinitial
  unfold StoredMessage.isRecordsWrite Records.isRecordsWrite
  cases hm : m.message <;> simp [hm] at hinitial ⊢

theorem retainsWrites_singleton (hsnap : Recalled known recordId existing) {v : RecordsWriteMessage}
    {x : StoredMessage} (hx : x ∈ existing) (hv : x.message = .recordsWrite v) :
    RetainsWrites existing [v] := by
  intro m hm hkeep
  obtain hinitial | hc : m.isInitialWrite = true ∨
      Message.getCid m = Message.getCid (RecordsWrite.stored v) := by
    simpa [shouldKeepAsNonLatestWrite] using hkeep
  · exact retainsWrites_nil existing m hm (by simp [shouldKeepAsNonLatestWrite, hinitial])
  · have hxv : Message.getCid x = Message.getCid (RecordsWrite.stored v) := by
      simp only [Message.getCid, hv, RecordsWrite.stored]
    have heq : m = x := List.inj_on_of_nodup_map hsnap.nodup hm hx (hc.trans hxv.symm)
    simp [heq, StoredMessage.isRecordsWrite, hv, Records.isRecordsWrite]

theorem preserves_single_deleteData (ref : DataRef) :
    Program.Preserves (fun s : Stores => Single known recordId (s.messages tenant))
      (Stores.deleteData ref) :=
  preserves_messages_deleteData (Q := fun logs => Single known recordId (logs tenant)) ref

theorem preserves_mapCommitWriteErrorToReply {Inv : Stores → Prop} (e : Failure) :
    Program.Preserves Inv (RecordsWriteHandler.mapCommitWriteErrorToReply e) := by
  unfold RecordsWriteHandler.mapCommitWriteErrorToReply
  split
  · split
    · exact Program.moves_pure _
    · exact Program.moves_throw _
  · exact Program.moves_throw _

section Write
variable {m : RecordsWriteMessage} {dataStream : Option P.Data}
  (h : Single known recordId log) (hknown : known (.recordsWrite m))
include h hknown

theorem leads_handleExistingRecordsWrite
    (hinj : ∀ a b, known a → known b → P.computeCid a = P.computeCid b → a = b)
    (existingMessage : StoredMessage) :
    Program.Leads (fun s : Stores => s.messages tenant = log)
      (fun s => Single known recordId (s.messages tenant))
      (RecordsWriteHandler.handleExistingRecordsWrite deps tenant m dataStream existingMessage
        existing) := by
  have hkeep : ∀ s : Stores, s.messages tenant = log → Single known recordId (s.messages tenant) :=
    fun s hs => by rwa [hs]
  unfold RecordsWriteHandler.handleExistingRecordsWrite
  split
  · exact hkeep
  · next data =>
    refine Program.leads_bind (Program.Preserves.leads (Program.moves_read _)) hkeep fun ok => ?_
    split
    · exact hkeep
    · have hcomplete : Program.Leads (fun s : Stores => s.messages tenant = log)
          (fun s => Single known recordId (s.messages tenant))
          (RecordsWriteHandler.completeExisting deps tenant m data) := by
        refine Program.leads_bind (Program.Preserves.leads
          (preserves_messages_processMessageWithDataStream (Q := fun logs => logs tenant = log)
            m data)) hkeep fun completed => ?_
        exact Stores.leads_withLog h fun result log' hok => h.complete hok hinj hknown
      refine Program.leads_bind hcomplete (fun s hs => hs) fun outcome => Program.Preserves.leads ?_
      split
      · exact Program.moves_pure _
      · exact Program.moves_pure _
      · repeat' split
        all_goals first | exact Program.moves_pure _ | exact preserves_mapCommitWriteErrorToReply _

theorem leads_commitIfNewest (hsnap : Recalled known recordId existing)
    (hsafe : (∃ n, Message.getNewestMessage existing = some n ∧
        (Message.isNewer (RecordsWrite.stored m) n = false ∨ n.isRecordsDelete = true)) ∨
      (RecordTask.write m dataStream).MissesRetained log existing ∨
      (RecordTask.write m dataStream).AddsNoLatest log ∨
      (RecordTask.write m dataStream).KnowsLatest log existing)
    (hrecord : m.recordId = recordId) :
    Program.Leads (fun s : Stores => s.messages tenant = log)
      (fun s => Single known recordId (s.messages tenant))
      (RecordsWriteHandler.commitIfNewest deps tenant m dataStream existing) := by
  have hkeep : ∀ s : Stores, s.messages tenant = log → Single known recordId (s.messages tenant) :=
    fun s hs => by rwa [hs]
  unfold RecordsWriteHandler.commitIfNewest
  split
  · exact hkeep
  · next hnewest =>
    have hcommit : Program.Leads (fun s : Stores => s.messages tenant = log)
        (fun s => Single known recordId (s.messages tenant))
        (RecordsWriteHandler.commitRecordsWrite deps tenant m dataStream existing) := by
      unfold RecordsWriteHandler.commitRecordsWrite
      dsimp only
      split
      · exact hkeep
      · next hdelete =>
        refine Program.leads_bind (Program.Preserves.leads (Program.moves_check _)) hkeep
          fun _ => ?_
        split
        · exact hkeep
        · refine Program.leads_bind_of_yields (Program.Preserves.leads
            (preserves_messages_processData (Q := fun logs => logs tenant = log) m dataStream _))
            (yields_processData m dataStream _) hkeep fun processed hprocessed => ?_
          obtain ⟨hmsg, hinitial⟩ := hprocessed
          have hcid : Message.getCid processed.1 = (RecordTask.write m dataStream).cid := by
            simp only [Message.getCid, hmsg, RecordTask.cid, RecordTask.message]
          refine leads_commit h hsnap (retainsWrites_nil existing) (by rwa [hmsg])
            (by simp [Row.Indexed, newRow, hmsg]) ?_
          obtain ⟨n, hn, hrefused⟩ | ⟨x, hx, hne, hretained, hgone⟩ | hadds | hknows := hsafe
          · rw [hn] at hnewest hdelete
            obtain hold | htomb := hrefused
            · simp [hold] at hnewest
            · simp [htomb] at hdelete
          · exact Or.inl ⟨x, hx, by rwa [hcid], hretained, hgone⟩
          · obtain hstored | ⟨m', heq, hi⟩ := hadds
            · exact Or.inr (Or.inl (by rwa [hcid]))
            · cases heq
              refine Or.inr (Or.inr (Or.inl ?_))
              rw [RecordsWrite.get_isLatestBaseState, hinitial rfl hi]
          · refine Or.inr (Or.inr (Or.inr ?_))
            rw [hcid]
            have hrecord' : (RecordTask.write m dataStream).recordId = recordId := hrecord
            rw [RecordTask.KnowsLatest, hrecord'] at hknows
            exact hknows
    refine Program.leads_bind hcommit (fun s hs => hs) fun outcome => Program.Preserves.leads ?_
    split
    · exact preserves_mapCommitWriteErrorToReply _
    · refine Program.moves_bind ?_ fun _ => Program.moves_pure _
      exact Purging.postProcess preserves_single_deleteMessage preserves_single_deleteData m

/-- The handler of a write keeps the latest row single when it is safe to go on. -/
theorem leads_handleOn (hinj : ∀ a b, known a → known b → P.computeCid a = P.computeCid b → a = b)
    (hsnap : Recalled known recordId existing) (hrecord : m.recordId = recordId)
    (hsafe : (RecordTask.write m dataStream).Safe log existing) :
    Program.Leads (fun s : Stores => s.messages tenant = log)
      (fun s => Single known recordId (s.messages tenant))
      (RecordsWriteHandler.handleOn deps tenant m dataStream existing) := by
  have hkeep : ∀ s : Stores, s.messages tenant = log → Single known recordId (s.messages tenant) :=
    fun s hs => by rwa [hs]
  unfold RecordsWriteHandler.handleOn
  split
  · exact leads_handleExistingRecordsWrite h hknown hinj _
  · next hfind =>
    refine Program.leads_bind (Program.Preserves.leads (Program.moves_read _)) hkeep fun result => ?_
    split
    · exact hkeep
    · refine leads_commitIfNewest h hknown hsnap ?_ hrecord
      refine hsafe.imp (fun hrefused => ?_) id
      refine hrefused.resolve_left fun hmem => ?_
      obtain ⟨x, hx, hc⟩ := List.mem_map.mp hmem
      exact absurd (decide_eq_true hc) (List.find?_eq_none.mp hfind x hx)

end Write

theorem mem_of_getInitialWrite {i : RecordsWriteMessage}
    (h : RecordsWrite.getInitialWrite existing = .ok i) :
    ∃ x ∈ existing, x.message = .recordsWrite i := by
  unfold RecordsWrite.getInitialWrite at h
  cases hfind : existing.find? StoredMessage.isInitialWrite with
  | none => simp [hfind] at h
  | some x =>
    refine ⟨x, List.mem_of_find?_eq_some hfind, asRecordsWrite_eq_some.mp ?_⟩
    cases hx : x.asRecordsWrite with
    | none => simp [hfind, hx] at h
    | some w => simpa [hfind, hx] using h

theorem exists_newestRecordsWrite {x : StoredMessage} {w : RecordsWriteMessage} (hx : x ∈ existing)
    (hw : x.message = .recordsWrite w) : ∃ v, Records.getNewestRecordsWrite existing = some v := by
  have hmem : x ∈ existing.filter StoredMessage.isRecordsWrite :=
    List.mem_filter.mpr ⟨hx, by simp [StoredMessage.isRecordsWrite, hw, Records.isRecordsWrite]⟩
  obtain ⟨n, hn⟩ := Option.ne_none_iff_exists'.mp
    (mt Message.getNewestMessage_eq_none.mp (List.ne_nil_of_mem hmem))
  have hwrite := (List.mem_filter.mp (Message.getNewestMessage_eq_some hn).1).2
  unfold Records.getNewestRecordsWrite
  rw [hn]
  unfold StoredMessage.isRecordsWrite Records.isRecordsWrite at hwrite
  cases hmsg : n.message <;> simp [hmsg, StoredMessage.asRecordsWrite] at hwrite ⊢

/-- The task of a delete keeps the latest row single when it is safe to go on. -/
theorem leads_performRecordsDeleteOn {d : RecordsDeleteMessage} (h : Single known recordId log)
    (hsnap : Recalled known recordId existing) (hknown : known (.recordsDelete d))
    (hrecord : d.descriptor.recordId = recordId)
    (hsafe : (RecordTask.delete d).Safe log existing) :
    Program.Leads (fun s : Stores => s.messages tenant = log)
      (fun s => Single known recordId (s.messages tenant))
      (performRecordsDeleteOn tenant d existing) := by
  have hkeep : ∀ s : Stores, s.messages tenant = log → Single known recordId (s.messages tenant) :=
    fun s hs => by rwa [hs]
  unfold performRecordsDeleteOn
  split
  · exact hkeep
  · next n hn =>
    split
    · exact hkeep
    · next hbeaten =>
      cases hinitial : RecordsWrite.getInitialWrite existing with
      | error e => exact hkeep
      | ok i =>
        refine Program.leads_bind_of_yields (Q := fun i' => i' = i)
          (Program.Preserves.leads (Program.moves_ofExcept _)) ?_ hkeep fun i' hi' => ?_
        · intro s a ha
          cases ha
          rfl
        subst hi'
        obtain ⟨x, hx, hi⟩ := mem_of_getInitialWrite hinitial
        obtain ⟨v, hv⟩ := exists_newestRecordsWrite hx hi
        obtain ⟨y, hy, hyv⟩ := mem_of_getNewestRecordsWrite hv
        have hrecordId : i'.recordId = d.descriptor.recordId := by
          have := hsnap.belongs x hx
          rw [hrecord]
          simpa [StoredMessage.belongsTo, hi] using this
        rw [hv, Option.getD_some]
        refine Program.leads_bind (leads_commit h hsnap (retainsWrites_singleton hsnap hy hyv)
          hknown ?_ ?_) (fun s hs => hs) fun result => Program.Preserves.leads ?_
        · simp only [Row.Indexed, newRow, RecordsDelete.stored]
          exact ⟨i', v, hrecordId, rfl⟩
        · obtain hrefused | hmisses | hadds | hknows := hsafe
          · exact absurd (hrefused n hn) hbeaten
          · obtain ⟨z, hz, hne, hretained, hgone⟩ := hmisses
            rw [RecordTask.additional, hv] at hretained
            exact Or.inl ⟨z, hz, hne, hretained, hgone⟩
          · obtain hstored | ⟨m', heq, -⟩ := hadds
            · exact Or.inr (Or.inl hstored)
            · cases heq
          · refine Or.inr (Or.inr (Or.inr ?_))
            have hrecord' : (RecordTask.delete d).recordId = recordId := hrecord
            rw [RecordTask.KnowsLatest, hrecord'] at hknows
            exact hknows
        · split
          · refine Program.moves_bind (Program.moves_read _) fun depth => ?_
            refine Program.moves_bind ?_ fun _ => Program.moves_pure _
            exact Purging.purgeRecordDescendants preserves_single_deleteMessage
              preserves_single_deleteData depth _
          · exact Program.moves_pure _

end Resume

/-! ## Interleavings -/

/-- The stores, and the runs whose query has returned with what it returned. -/
structure World where
  stores : Stores := {}
  pending : List (RecordTask × List StoredMessage) := []

/-- A run starts with its query, or a waiting run goes on. -/
inductive Action where
  | start (task : RecordTask)
  | resume (n : Nat)

namespace World

def step (deps : HandlerDependencies) (tenant : Did) (w : World) : Action → World
  | .start task => { w with pending := w.pending ++
      [(task, query (w.stores.messages tenant) [recordFilter task.recordId])] }
  | .resume n =>
    match w.pending[n]? with
    | none => w
    | some (task, existing) =>
      { stores := (task.resume deps tenant existing).final w.stores
        pending := w.pending.eraseIdx n }

def run (deps : HandlerDependencies) (tenant : Did) (w : World) (actions : List Action) : World :=
  actions.foldl (step deps tenant) w

def Allows (tenant : Did) (w : World) : Action → Prop
  | .start _ => True
  | .resume n => ∀ task existing, w.pending[n]? = some (task, existing) →
      task.Safe (w.stores.messages tenant) existing

/-- The messages of an interleaving: those stored when it begins and those of its runs. -/
def Involves (tenant : Did) (w : World) (actions : List Action) (g : GenericMessage) : Prop :=
  (∃ r ∈ (w.stores.messages tenant).rows, r.message.message = g) ∨
    ∃ task, .start task ∈ actions ∧ task.message = g

end World

theorem Single.length_latestCids {known : GenericMessage → Prop} {recordId : String} {log : Log}
    (h : Single known recordId log) : (latestCids log recordId).length ≤ 1 := by
  have hnodup : ((recordRows log recordId).filter Row.isLatest).Nodup :=
    ((List.Nodup.of_map _ h.wf.distinct).filter _).filter _
  rw [latestCids, List.length_map]
  by_contra hlt
  rw [not_le] at hlt
  obtain ⟨r, r', l, hl⟩ : ∃ r r' l, (recordRows log recordId).filter Row.isLatest = r :: r' :: l := by
    match hrows : (recordRows log recordId).filter Row.isLatest with
    | [] => simp [hrows] at hlt
    | [r] => simp [hrows] at hlt
    | r :: r' :: l => exact ⟨r, r', l, rfl⟩
  have hr := List.mem_filter.mp (hl ▸ List.mem_cons_self : r ∈ _)
  have hr' := List.mem_filter.mp
    (hl ▸ List.mem_cons_of_mem _ List.mem_cons_self : r' ∈ _)
  rw [hl] at hnodup
  have heq := h.one r hr.1 r' hr'.1 hr.2 hr'.2
  simp [heq] at hnodup

theorem single_of_length {known : GenericMessage → Prop} {recordId : String} {log : Log}
    (wf : log.WellFormed) (horigin : ∀ r ∈ log.rows, known r.message.message)
    (hlength : (latestCids log recordId).length ≤ 1) : Single known recordId log := by
  refine ⟨wf, horigin, fun r hr r' hr' hl hl' => ?_⟩
  rw [latestCids, List.length_map] at hlength
  have hmem := List.mem_filter.mpr ⟨hr, hl⟩
  have hmem' := List.mem_filter.mpr ⟨hr', hl'⟩
  generalize (recordRows log recordId).filter Row.isLatest = rows at hlength hmem hmem'
  match rows with
  | [] => cases hmem
  | [x] => rw [List.mem_singleton.mp hmem, List.mem_singleton.mp hmem']
  | x :: y :: l => simp at hlength

namespace World
variable {deps : HandlerDependencies} {tenant : Did} {recordId : String}
  {known : GenericMessage → Prop} {w : World} {actions : List Action}

structure Consistent (known : GenericMessage → Prop) (recordId : String) (tenant : Did)
    (w : World) : Prop where
  single : Single known recordId (w.stores.messages tenant)
  recalled : ∀ p ∈ w.pending, Recalled known recordId p.2 ∧ p.1.recordId = recordId ∧
    known p.1.message

variable (deps) in
theorem Consistent.step
    (hinj : ∀ a b, known a → known b → P.computeCid a = P.computeCid b → a = b)
    (h : Consistent known recordId tenant w) {action : Action}
    (hstart : ∀ task, action = .start task → task.recordId = recordId ∧ known task.message)
    (hallows : w.Allows tenant action) :
    Consistent known recordId tenant (w.step deps tenant action) := by
  cases action with
  | start task =>
    obtain ⟨hrecord, hknown⟩ := hstart task rfl
    refine ⟨h.single, fun p hp => ?_⟩
    obtain hp | hp := List.mem_append.mp hp
    · exact h.recalled p hp
    · rw [List.mem_singleton.mp hp]
      refine ⟨?_, hrecord, hknown⟩
      rw [hrecord]
      exact h.single.recalled
  | resume n =>
    cases hp : w.pending[n]? with
    | none =>
      simp only [World.step, hp]
      exact h
    | some p =>
      obtain ⟨task, existing⟩ := p
      simp only [World.step, hp]
      obtain ⟨hsnap, hrecord, hknown⟩ := h.recalled _ (List.mem_of_getElem? hp)
      have hsafe := hallows task existing hp
      refine ⟨?_, fun p hp => h.recalled p (List.mem_of_mem_eraseIdx hp)⟩
      cases task with
      | write m dataStream =>
        have hlead : Program.Leads _ _ (RecordsWriteHandler.handleOn deps tenant m dataStream
            existing) := leads_handleOn h.single hknown hinj hsnap hrecord hsafe
        have hfinal : ((RecordTask.write m dataStream).resume deps tenant existing).final w.stores =
            (RecordsWriteHandler.handleOn deps tenant m dataStream existing).final w.stores :=
          Program.final_bind_silent fun _ _ => rfl
        rw [hfinal]
        exact hlead w.stores rfl
      | delete d =>
        have hlead : Program.Leads _ _ (performRecordsDeleteOn tenant d existing) :=
          leads_performRecordsDeleteOn h.single hsnap hknown hrecord hsafe
        have hfinal : ((RecordTask.delete d).resume deps tenant existing).final w.stores =
            (performRecordsDeleteOn tenant d existing).final w.stores :=
          Program.final_bind_silent fun _ _ => rfl
        rw [hfinal]
        exact hlead w.stores rfl

/-- In every interleaving whose runs are safe when they go on, every state has at most one
latest row of the record. -/
theorem length_latestCids_le_one (hpending : w.pending = [])
    (wf : (w.stores.messages tenant).WellFormed)
    (hlength : (latestCids (w.stores.messages tenant) recordId).length ≤ 1)
    (hinj : ∀ a b, w.Involves tenant actions a → w.Involves tenant actions b →
      P.computeCid a = P.computeCid b → a = b)
    (hrecord : ∀ task, .start task ∈ actions → task.recordId = recordId)
    (hsafe : ∀ l action, l ++ [action] <+: actions → (w.run deps tenant l).Allows tenant action)
    {l : List Action} (hl : l <+: actions) :
    (latestCids ((w.run deps tenant l).stores.messages tenant) recordId).length ≤ 1 := by
  have hconsistent : Consistent (w.Involves tenant actions) recordId tenant
      (w.run deps tenant l) := by
    induction l using List.reverseRecOn with
    | nil =>
      refine ⟨single_of_length wf (fun r hr => Or.inl ⟨r, hr, rfl⟩) hlength, fun p hp => ?_⟩
      rw [run, List.foldl_nil, hpending] at hp
      cases hp
    | append_singleton l action ih =>
      have hmem : action ∈ actions := hl.subset (by simp)
      have hstep := (ih ((List.prefix_append l _).trans hl)).step deps hinj
        (fun task htask => ?_) (hsafe l action hl)
      · rwa [run, List.foldl_append]
      · rw [htask] at hmem
        exact ⟨hrecord task hmem, Or.inr ⟨task, hmem, rfl⟩⟩
  exact hconsistent.single.length_latestCids

end World

end EnboxDwn

namespace EnboxDwn.World
open MessageStore

local instance : Platform := Platform.ofText

def memo (signature : String) (messageTimestamp : Timestamp) : RecordsWriteMessage where
  recordId := "alice1"
  contextId := "alice1"
  descriptor :=
    { module := "notes", modulePath := "note", dataCid := "text", dataSize := 4,
      dataFormat := "text/plain", dateCreated := "1", messageTimestamp }
  authorization := { signature, signer := "alice" }

def memoStored : World where
  stores := (RecordsWriteHandler.handle .permissive "alice" (memo "i" "1") (some "text")).final {}

def memoUpdates : List Action :=
  [.start (.write (memo "w" "2") (some "text")), .start (.write (memo "x" "3") (some "text")),
    .resume 0, .resume 0]

/-- Two updates that both queried the record before either committed are both the latest. -/
theorem two_latest_of_memoUpdates :
    latestCids ((memoStored.run .permissive "alice" memoUpdates).stores.messages "alice") "alice1" =
      [Message.getCid (RecordsWrite.stored (memo "w" "2")),
        Message.getCid (RecordsWrite.stored (memo "x" "3"))] := by
  decide

def memoHistory : List Action :=
  [.start (.write (memo "i" "1") (some "text")), .resume 0,
    .start (.write (memo "w" "2") (some "text")), .resume 0]

theorem allows_memoHistory {l : List Action} {action : Action} (hl : l ++ [action] <+: memoHistory) :
    (run .permissive "alice" {} l).Allows "alice" action := by
  have hknows : ∀ n, ∀ p ∈ (run .permissive "alice" {} (memoHistory.take (2 * n + 1))).pending,
      n < 2 → p.1.KnowsLatest ((run .permissive "alice" {}
        (memoHistory.take (2 * n + 1))).stores.messages "alice") p.2 := by
    intro n
    match n with
    | 0 => decide
    | 1 => decide
    | n + 2 => exact fun _ _ h => absurd h (by omega)
  have hresume : ∀ n < 2, (run .permissive "alice" {} (memoHistory.take (2 * n + 1))).Allows "alice"
      (.resume 0) := by
    intro n hn task existing hp
    exact Or.inr (Or.inr (Or.inr (hknows n _ (List.mem_of_getElem? hp) hn)))
  obtain ⟨t, ht⟩ := hl
  match l with
  | [] =>
    simp only [memoHistory, List.nil_append, List.cons_append, List.cons.injEq] at ht
    rw [ht.1]
    trivial
  | [a] =>
    simp only [memoHistory, List.nil_append, List.cons_append, List.cons.injEq] at ht
    rw [ht.1, ht.2.1]
    exact hresume 0 (by omega)
  | [a, b] =>
    simp only [memoHistory, List.nil_append, List.cons_append, List.cons.injEq] at ht
    rw [ht.2.2.1]
    trivial
  | [a, b, c] =>
    simp only [memoHistory, List.nil_append, List.cons_append, List.cons.injEq] at ht
    rw [ht.1, ht.2.1, ht.2.2.1, ht.2.2.2.1]
    exact hresume 1 (by omega)
  | a :: b :: c :: d :: l =>
    simp [memoHistory] at ht

/-- One after the other, they leave one latest row at a time. -/
theorem one_latest_of_memoHistory :
    latestCids ((run .permissive "alice" {} memoHistory).stores.messages "alice") "alice1" =
      [Message.getCid (RecordsWrite.stored (memo "w" "2"))] ∧
    ∀ l, l <+: memoHistory →
      (latestCids ((run .permissive "alice" {} l).stores.messages "alice") "alice1").length ≤ 1 := by
  refine ⟨by decide, fun l hl => ?_⟩
  refine length_latestCids_le_one rfl Log.WellFormed.empty (by decide) ?_ ?_
    (fun l action => allows_memoHistory) hl
  · have hcases : ∀ g, Involves "alice" {} memoHistory g →
        g = .recordsWrite (memo "i" "1") ∨ g = .recordsWrite (memo "w" "2") := by
      intro g hg
      obtain ⟨r, hr, -⟩ | ⟨task, htask, rfl⟩ := hg
      · cases hr
      · obtain rfl | rfl : task = .write (memo "i" "1") (some "text") ∨
            task = .write (memo "w" "2") (some "text") := by
          simpa [memoHistory] using htask
        · exact Or.inl rfl
        · exact Or.inr rfl
    have hne : Platform.computeCid (.recordsWrite (memo "i" "1")) ≠
        Platform.computeCid (.recordsWrite (memo "w" "2")) := by
      decide
    intro a b ha hb hc
    obtain rfl | rfl := hcases a ha
    · obtain rfl | rfl := hcases b hb
      · rfl
      · exact absurd hc hne
    · obtain rfl | rfl := hcases b hb
      · exact absurd hc.symm hne
      · rfl
  · intro task htask
    obtain rfl | rfl : task = .write (memo "i" "1") (some "text") ∨
        task = .write (memo "w" "2") (some "text") := by
      simpa [memoHistory] using htask
    · rfl
    · rfl

end EnboxDwn.World
