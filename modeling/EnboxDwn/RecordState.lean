import EnboxDwn.RecordRun

/-! The stores while the messages of one record are processed: each handler either
refuses a message or takes one step of the tombstone machine. -/
namespace EnboxDwn
open KeyValues Journal MessageStore StorageController TombstoneMachine

variable [P : Platform]

/-- The stores while the messages of one record are processed: its rows are known messages
and show the machine state, and the pending messages are not stored and find room in the
log. -/
structure RecordState (known : GenericMessage → Prop) (i : RecordsWriteMessage)
    (queryable : Bool) (rank : String → Nat) (tenant : Did) (pending : List Cid) (s : Stores)
    (st : State Age) : Prop where
  shows : Shows i queryable (s.messages tenant) st
  origin : ∀ r ∈ recordRows (s.messages tenant) i.recordId, known r.message.message
  ranked : (s.messages tenant).Ranked rank
  sound : s.data.Sound
  unstored : ∀ r ∈ (s.messages tenant).rows, r.cid ∉ pending
  room : (s.messages tenant).head + pending.length < Replication.positionLimit

/-- A revocation that invokes the grant it revokes. -/
def PermissionsModule.RevokesItself (m : RecordsWriteMessage) : Prop :=
  m.descriptor.module = permissionsModuleUri ∧ m.descriptor.modulePath = revocationPath ∧
    m.descriptor.permissionGrantId = some (m.descriptor.parentId.getD "")

instance (m : RecordsWriteMessage) : Decidable (PermissionsModule.RevokesItself m) :=
  inferInstanceAs (Decidable (_ ∧ _ ∧ _))

/-- What an update shares with the initial write of its record. -/
structure IsUpdateOf (i m : RecordsWriteMessage) : Prop where
  recordId_eq : m.recordId = i.recordId
  not_initial : RecordsWrite.isInitialWrite m = false
  immutable : RecordsWrite.immutableProperties m.descriptor =
    RecordsWrite.immutableProperties i.descriptor

section Immutable
omit P
variable {d e : RecordsWriteDescriptor}
  (h : RecordsWrite.immutableProperties d = RecordsWrite.immutableProperties e)
include h

theorem module_eq_of_immutable : d.module = e.module := by
  simp only [RecordsWrite.immutableProperties, RecordsWriteDescriptor.mk.injEq] at h
  exact h.1

theorem modulePath_eq_of_immutable : d.modulePath = e.modulePath := by
  simp only [RecordsWrite.immutableProperties, RecordsWriteDescriptor.mk.injEq] at h
  exact h.2.1

theorem parentId_eq_of_immutable : d.parentId = e.parentId := by
  simp only [RecordsWrite.immutableProperties, RecordsWriteDescriptor.mk.injEq] at h
  tauto

theorem permissionGrantId_eq_of_immutable : d.permissionGrantId = e.permissionGrantId := by
  simp only [RecordsWrite.immutableProperties, RecordsWriteDescriptor.mk.injEq] at h
  tauto

theorem dateCreated_eq_of_immutable : d.dateCreated = e.dateCreated := by
  simp only [RecordsWrite.immutableProperties, RecordsWriteDescriptor.mk.injEq] at h
  tauto

theorem squash_eq_of_immutable : d.squash = e.squash := by
  simp only [RecordsWrite.immutableProperties, RecordsWriteDescriptor.mk.injEq] at h
  tauto

end Immutable

/-! ## One request -/

section Step
variable {deps : HandlerDependencies} {tenant : Did} {rank : String → Nat} {queryable : Bool}
  {known : GenericMessage → Prop}
  {i m : RecordsWriteMessage} {d : RecordsDeleteMessage} {pending : List Cid} {s : Stores}
  {st : State Age} {events : List (Event Age)}

theorem Shows.congr {log log' : Log} (h : Shows i queryable log st) (wf : log'.WellFormed)
    (hrows : recordRows log' i.recordId = recordRows log i.recordId) :
    Shows i queryable log' st := by
  obtain ⟨-, h₁, h₂, h₃, h₄, h₅, h₆⟩ := h
  refine ⟨wf, ?_, ?_, ?_, ?_, ?_, ?_⟩ <;> rw [hrows] <;> assumption

section Preserved
variable {α : Type} {p : Task α}
    (h : RecordState known i queryable rank tenant pending s st)
    (hp : Program.Preserves (Untouched rank tenant i.recordId
      (recordRows (s.messages tenant) i.recordId) (s.messages tenant).head pending) p)
include h hp

theorem RecordState.preserved :
    RecordState known i queryable rank tenant pending (p.final s) st := by
  have hend := hp.of_final ⟨h.shows.wf, h.ranked, rfl, rfl, h.sound, h.unstored⟩
  refine ⟨h.shows.congr hend.wf hend.rows_eq, ?_, hend.ranked, hend.sound, hend.unstored, ?_⟩
  · rw [hend.rows_eq]
    exact h.origin
  · rw [hend.head_eq]
    exact h.room

theorem RecordState.rows_preserved :
    recordRows ((p.final s).messages tenant) i.recordId =
      recordRows (s.messages tenant) i.recordId :=
  (hp.of_final ⟨h.shows.wf, h.ranked, rfl, rfl, h.sound, h.unstored⟩).rows_eq

end Preserved

theorem Sourced.congr {log log' : Log} {v : RecordsWriteMessage} (h : Sourced i log v)
    (hrows : recordRows log' i.recordId = recordRows log i.recordId) : Sourced i log' v := by
  unfold Sourced
  rw [hrows]
  exact h

theorem RecordState.tail {c : Cid} (h : RecordState known i queryable rank tenant (c :: pending) s st) :
    RecordState known i queryable rank tenant pending s st := by
  refine ⟨h.shows, h.origin, h.ranked, h.sound, fun r hr hc => h.unstored r hr (by simp [hc]), ?_⟩
  have hroom := h.room
  rw [List.length_cons] at hroom
  omega

theorem RecordState.of_perm {pending' : List Cid}
    (h : RecordState known i queryable rank tenant pending s st) (hp : pending'.Perm pending) :
    RecordState known i queryable rank tenant pending' s st := by
  refine ⟨h.shows, h.origin, h.ranked, h.sound, fun r hr hc => ?_, ?_⟩
  · exact h.unstored r hr (hp.mem_iff.mp hc)
  · rw [hp.length_eq]
    exact h.room

theorem ranked_demote {r : Row} (hindexed : r.Indexed)
    (h : ∀ p, get r.indexes "parentId" = some (text p) → rank p < rank r.message.recordId) :
    ∀ p, get (demote r r.message).indexes "parentId" = some (text p) →
      rank p < rank (demote r r.message).message.recordId := by
  intro p hp
  cases hm : r.message.message with
  | recordsWrite w =>
    simp only [Row.Indexed, hm] at hindexed
    obtain ⟨latest, hlatest⟩ := hindexed
    rw [demote_of_write hm] at hp ⊢
    refine h p ?_
    rw [hlatest, RecordsWrite.get_parentId]
    rwa [RecordsWrite.get_parentId] at hp
  | recordsDelete d =>
    simp only [demote, StoredMessage.asRecordsWrite, hm] at hp ⊢
    exact h p hp
  | modulesConfigure c =>
    simp only [demote, StoredMessage.asRecordsWrite, hm] at hp ⊢
    exact h p hp

theorem recordState_committed {log : Log} {recordId : String} {existing : List StoredMessage}
    {newMessage : StoredMessage} {indexes : KeyValues} {additional : List RecordsWriteMessage}
    {data : DataStore} (wf : log.WellFormed) (snap : Snapshot log recordId existing)
    (hranked : log.Ranked rank)
    (hunstored : ∀ r ∈ log.rows, r.cid ∉ Message.getCid newMessage :: pending)
    (hroom : log.head + (pending.length + 1) < Replication.positionLimit) (hsound : data.Sound)
    (hpending : Message.getCid newMessage ∉ pending)
    (hparent : ∀ p, get indexes "parentId" = some (text p) → rank p < rank newMessage.recordId)
    (horigin : ∀ r ∈ recordRows log i.recordId, known r.message.message)
    (hnew : known newMessage.message)
    (hshows : Shows i queryable (committed log existing newMessage indexes additional) st) :
    RecordState known i queryable rank tenant pending
      { s.setLog tenant (committed log existing newMessage indexes additional) with data := data }
      st := by
  have hlog := s.messages_setLog tenant (committed log existing newMessage indexes additional)
  have hfresh : ∀ r ∈ log.rows, r.cid ≠ Message.getCid newMessage := fun r hr h =>
    hunstored r hr (by simp [h])
  constructor
  case shows =>
    rw [hlog]
    exact hshows
  case origin =>
    rw [hlog]
    intro r' hr'
    obtain ⟨hr', hb⟩ := mem_recordRows.mp hr'
    obtain rfl | ⟨hr, -⟩ | ⟨r, hr, -, rfl⟩ := (mem_committed wf snap hfresh).mp hr'
    · exact hnew
    · exact horigin r' (mem_recordRows.mpr ⟨hr, hb⟩)
    · rw [demote_message]
      refine horigin r (mem_recordRows.mpr ⟨(mem_recordRows.mp hr).1, ?_⟩)
      rwa [belongsTo_demote] at hb
  case ranked =>
    rw [hlog]
    intro r' hr'
    obtain rfl | ⟨hr, -⟩ | ⟨r, hr, -, rfl⟩ := (mem_committed wf snap hfresh).mp hr'
    · exact hparent
    · exact hranked r' hr
    · have hrow := (mem_recordRows.mp hr).1
      exact ranked_demote (wf.indexed r hrow) (hranked r hrow)
  case sound => exact hsound
  case unstored =>
    rw [hlog]
    intro r' hr'
    obtain rfl | ⟨hr, -⟩ | ⟨r, hr, -, rfl⟩ := (mem_committed wf snap hfresh).mp hr'
    · exact hpending
    · exact fun h => hunstored r' hr (by simp [h])
    · rw [cid_demote]
      exact fun h => hunstored r (mem_recordRows.mp hr).1 (by simp [h])
  case room =>
    rw [hlog]
    simp only [committed]
    omega

/-- The revocation filter matches no write of the record unless it revokes itself. -/
theorem matchFilter_grantAuthorized {w : RecordsWriteMessage} {latest : Bool}
    (hw : RecordsWrite.immutableProperties w.descriptor =
      RecordsWrite.immutableProperties i.descriptor)
    (hm : RecordsWrite.immutableProperties m.descriptor =
      RecordsWrite.immutableProperties i.descriptor)
    (hself : ¬ PermissionsModule.RevokesItself i)
    (hmodule : m.descriptor.module = permissionsModuleUri)
    (hpath : m.descriptor.modulePath = PermissionsModule.revocationPath) :
    FilterUtility.matchFilter (RecordsWrite.constructIndexes w latest)
      (PermissionsModule.grantAuthorizedMessagesFilter m) = false := by
  have hne : w.descriptor.permissionGrantId ≠ some (m.descriptor.parentId.getD "") := by
    intro h
    refine hself ⟨?_, ?_, ?_⟩
    · rw [← module_eq_of_immutable hm, hmodule]
    · rw [← modulePath_eq_of_immutable hm, hpath]
    · rw [← permissionGrantId_eq_of_immutable hw, h, parentId_eq_of_immutable hm]
  cases hgrant : w.descriptor.permissionGrantId with
  | none => simp [PermissionsModule.grantAuthorizedMessagesFilter, hgrant]
  | some g =>
    rw [hgrant, ne_eq, Option.some.injEq] at hne
    simp [PermissionsModule.grantAuthorizedMessagesFilter, hgrant, hne]

/-- The cascading effects of a write that neither squashes nor revokes itself leave a
record without a tombstone alone. -/
theorem preserves_postProcess {rows : List Row} {head : Nat}
    (hsquash : i.descriptor.squash ≠ some true)
    (hm : RecordsWrite.immutableProperties m.descriptor =
      RecordsWrite.immutableProperties i.descriptor)
    (hself : ¬ PermissionsModule.RevokesItself i)
    (hrows : ∀ r ∈ rows, ∃ w latest, r.indexes = RecordsWrite.constructIndexes w latest ∧
      RecordsWrite.immutableProperties w.descriptor =
        RecordsWrite.immutableProperties i.descriptor) :
    Program.Preserves (Untouched rank tenant i.recordId rows head pending)
      (RecordsWriteHandler.postProcess tenant m) := by
  have hsquash' : m.descriptor.squash ≠ some true := by
    rw [squash_eq_of_immutable hm]
    exact hsquash
  unfold RecordsWriteHandler.postProcess
  simp only [hsquash', if_false]
  split
  · next hmodule =>
    refine preserves_postProcessWrite fun hpath r hr => ?_
    obtain ⟨w, latest, hindexes, hw⟩ := hrows r hr
    rw [hindexes]
    exact matchFilter_grantAuthorized hw hm hself hmodule hpath
  · exact Program.moves_pure ()

theorem returns_postProcess (tenant : Did) (hsquash : m.descriptor.squash ≠ some true) :
    Program.Returns (RecordsWriteHandler.postProcess tenant m) := by
  unfold RecordsWriteHandler.postProcess
  simp only [hsquash, if_false]
  split
  · unfold PermissionsModule.postProcessWrite
    split
    · exact Program.returns_pure ()
    · refine Program.returns_bind (fun s => ⟨_, rfl⟩) fun messages => ?_
      exact Program.returns_bind (Program.returns_forEach (returns_deleteMessageData tenant) _)
        fun _ => Program.returns_forEach (fun c s => ⟨(), rfl⟩) _
  · exact Program.returns_pure ()

/-- Without a tombstone the rows are writes of the record. -/
theorem Shows.indexes_of_no_tomb {log : Log} (h : Shows i queryable log st) (hnone : st.tomb = none) :
    ∀ r ∈ recordRows log i.recordId, ∃ w latest,
      r.indexes = RecordsWrite.constructIndexes w latest ∧
      RecordsWrite.immutableProperties w.descriptor =
        RecordsWrite.immutableProperties i.descriptor := by
  intro r hr
  obtain ⟨w, hw⟩ | ⟨d, hd⟩ := message_cases hr
  · have hindexed := h.wf.indexed r (mem_recordRows.mp hr).1
    simp only [Row.Indexed, hw] at hindexed
    obtain ⟨latest, hlatest⟩ := hindexed
    exact ⟨w, latest, hlatest, h.immutable r hr w hw⟩
  · have htomb := (h.tomb _).mpr ⟨r, hr, d, hd, rfl⟩
    rw [hnone] at htomb
    cases htomb

/-- A committed write is answered as accepted; what follows are its cascading effects. -/
theorem commitIfNewest_committed {dataStream : Option P.Data} {existing : List StoredMessage}
    {t : Stores} {putResult : PutResult} (hsquash : m.descriptor.squash ≠ some true)
    (hnewest : ((Message.getNewestMessage existing).any fun n =>
      !Message.isNewer (RecordsWrite.stored m) n) = false)
    (hcommit : Program.Runs (RecordsWriteHandler.commitRecordsWrite deps tenant m dataStream
      existing) s putResult t) :
    (RecordsWriteHandler.commitIfNewest deps tenant m dataStream existing).result s =
        .ok { status := RecordsWriteHandler.acceptedStatus m dataStream,
              position := putResult.position } ∧
      (RecordsWriteHandler.commitIfNewest deps tenant m dataStream existing).final s =
        (RecordsWriteHandler.postProcess tenant m).final t := by
  have hpost := (returns_postProcess tenant hsquash).result_unit t
  unfold RecordsWriteHandler.commitIfNewest
  simp only [hnewest, Bool.false_eq_true, if_false]
  constructor
  · rw [Program.result_bind_ok hcommit.attempt.result_eq, hcommit.attempt.final_eq]
    dsimp only
    rw [Program.result_bind_ok hpost]
    rfl
  · rw [hcommit.attempt.final_bind]
    dsimp only
    rw [Program.final_bind_ok hpost, Program.final_pure]

/-- The cascading effects leave the record as the commit left it. -/
theorem RecordState.of_committed {dataStream : Option P.Data} {existing : List StoredMessage}
    {t : Stores} {putResult : PutResult}
    (h : RecordState known i queryable rank tenant pending t st) (hnone : st.tomb = none)
    (hsquash : i.descriptor.squash ≠ some true) (hself : ¬ PermissionsModule.RevokesItself i)
    (hm : RecordsWrite.immutableProperties m.descriptor =
      RecordsWrite.immutableProperties i.descriptor)
    (hnewest : ((Message.getNewestMessage existing).any fun n =>
      !Message.isNewer (RecordsWrite.stored m) n) = false)
    (hcommit : Program.Runs (RecordsWriteHandler.commitRecordsWrite deps tenant m dataStream
      existing) s putResult t) :
    (RecordsWriteHandler.commitIfNewest deps tenant m dataStream existing).result s =
        .ok { status := RecordsWriteHandler.acceptedStatus m dataStream,
              position := putResult.position } ∧
    RecordState known i queryable rank tenant pending
      ((RecordsWriteHandler.commitIfNewest deps tenant m dataStream existing).final s) st := by
  have hsquash' : m.descriptor.squash ≠ some true := by
    rw [squash_eq_of_immutable hm]
    exact hsquash
  obtain ⟨hresult, hfinal⟩ := commitIfNewest_committed hsquash' hnewest hcommit
  refine ⟨hresult, ?_⟩
  rw [hfinal]
  exact h.preserved (preserves_postProcess hsquash hm hself (h.shows.indexes_of_no_tomb hnone))

/-- What is answered to a write that comes after a newer tombstone. -/
def notAllowedAfterDelete : Failure :=
  .dwnError ⟨.recordsWriteNotAllowedAfterDelete,
    "RecordsWrite is not allowed after a RecordsDelete."⟩

/-- An admissible update of a stored record is decided by its age. -/
theorem Shows.handle_update {data : P.Data} (h : Shows i queryable (s.messages tenant) st)
    (hi : RecordsWrite.isInitialWrite i = true) (hm : IsUpdateOf i m)
    (hfresh : ∀ r ∈ (s.messages tenant).rows, r.cid ≠ Message.getCid (RecordsWrite.stored m))
    (hadm : WriteAdmissible deps tenant m (some data) s) :
    RecordsWriteHandler.handle deps tenant m (some data) s =
      RecordsWriteHandler.commitIfNewest deps tenant m (some data)
        (Shows.existing i (s.messages tenant)) s := by
  have hnew : ∀ e ∈ query (s.messages tenant) [recordFilter m.recordId],
      Message.getCid e ≠ Message.getCid (RecordsWrite.stored m) := by
    intro e he
    obtain ⟨r, hr, rfl⟩ := (mem_query_record h.wf).mp he
    exact hfresh r (mem_recordRows.mp hr).1
  have hinitial : RecordsWriteHandler.getInitialWrite
      (query (s.messages tenant) [recordFilter m.recordId]) (RecordsWrite.isInitialWrite m) =
      .ok (some i) := by
    rw [hm.recordId_eq, hm.not_initial, RecordsWriteHandler.getInitialWrite,
      h.getInitialWrite_existing hi]
    rfl
  have himmutable : RecordsWriteHandler.verifyImmutableProperties (some i) m = .ok () := by
    simp [RecordsWriteHandler.verifyImmutableProperties,
      RecordsWrite.verifyEqualityOfImmutableProperties, hm.immutable]
  have hadmitted := handle_admitted (some i) hadm hnew hinitial himmutable
  rwa [hm.recordId_eq] at hadmitted

/-- The three outcomes of an admissible update: refused as older, refused after a delete,
or committed as the new latest state. -/
theorem RecordState.handle_write {data : P.Data}
    (h : RecordState known i queryable rank tenant (Message.getCid (RecordsWrite.stored m) :: pending) s st)
    (hst : Reached (RecordsWrite.age i) events st) (hi : RecordsWrite.isInitialWrite i = true)
    (hm : IsUpdateOf i m) (hsquash : i.descriptor.squash ≠ some true)
    (hself : ¬ PermissionsModule.RevokesItself i)
    (hparent : ∀ p, i.descriptor.parentId = some p → rank p < rank i.recordId)
    (hpending : Message.getCid (RecordsWrite.stored m) ∉ pending)
    (hdata : CarriesData m data) (hsize : DataStore.SizedByCid (P := P))
    (hknown : known (.recordsWrite m)) (hadm : WriteAdmissible deps tenant m (some data) s) :
    ((RecordsWrite.age m ≤ st.newest ∨ ∃ t, st.tomb = some t ∧ RecordsWrite.age m ≤ t.2) ∧
      Program.Runs (RecordsWriteHandler.handle deps tenant m (some data)) s
        { status := conflict } s) ∨
    ((∃ t, st.tomb = some t ∧ st.newest < t.2 ∧ t.2 < RecordsWrite.age m) ∧
      Program.Runs (RecordsWriteHandler.handle deps tenant m (some data)) s
        { status := messageReplyFromError notAllowedAfterDelete 400 } s) ∨
    (st.newest < RecordsWrite.age m ∧ (∀ t, st.tomb = some t → t.2 < st.newest) ∧
      (∃ position, (RecordsWriteHandler.handle deps tenant m (some data)).result s =
        .ok { status := { code := 202, detail := "Accepted" }, position := position }) ∧
      RecordState known i queryable rank tenant pending
        ((RecordsWriteHandler.handle deps tenant m (some data)).final s)
        ⟨{RecordsWrite.age i, RecordsWrite.age m}, RecordsWrite.age m, none⟩) := by
  have hfresh : ∀ r ∈ (s.messages tenant).rows, r.cid ≠ Message.getCid (RecordsWrite.stored m) :=
    fun r hr heq => h.unstored r hr (by simp [heq])
  have hhandle := h.shows.handle_update hi hm hfresh hadm
  obtain ⟨n, hn, hcases⟩ := h.shows.getNewestMessage_existing hst
  by_cases hnewer : Message.isNewer (RecordsWrite.stored m) n = true
  case neg =>
    refine Or.inl ⟨?_, Program.Runs.of_apply hhandle ?_⟩
    · rw [Bool.not_eq_true, Message.isNewer_eq_false] at hnewer
      obtain ⟨t, d, ht, -, hd, rfl⟩ | ⟨-, w, hw, hage⟩ := hcases
      · rw [age_of_delete hd] at hnewer
        exact Or.inr ⟨_, ht, hnewer⟩
      · rw [age_of_write hw, hage] at hnewer
        exact Or.inl hnewer
    · unfold RecordsWriteHandler.commitIfNewest
      rw [hn, if_pos (by simpa using hnewer)]
      exact Program.runs_pure _ _
  case pos =>
    have hlt := (Message.isNewer_iff _ _).mp hnewer
    have hnotold : ¬ (Option.any (fun n => !Message.isNewer (RecordsWrite.stored m) n)
        (some n) = true) := by simp [hnewer]
    obtain ⟨t, d, ht, hdel, hd, rfl⟩ | ⟨hold, w, hw, hage⟩ := hcases
    · rw [age_of_delete hd] at hlt
      refine Or.inr (Or.inl ⟨⟨_, ht, hdel, hlt⟩, Program.Runs.of_apply hhandle ?_⟩)
      unfold RecordsWriteHandler.commitIfNewest RecordsWriteHandler.commitRecordsWrite
      rw [hn, if_neg hnotold]
      have hisDelete : Option.any StoredMessage.isRecordsDelete (some n) = true := by
        simp [StoredMessage.isRecordsDelete, hd]
      simp only [hisDelete, if_true]
      exact Program.Runs.bind ⟨rfl, rfl⟩ (Program.runs_pure _ _)
    · rw [age_of_write hw, hage] at hlt
      refine Or.inr (Or.inr ⟨hlt, hold, ?_⟩)
      have hnotDelete : (Message.getNewestMessage (Shows.existing i (s.messages tenant))).any
          StoredMessage.isRecordsDelete = false := by
        rw [hn]
        simp [StoredMessage.isRecordsDelete, hw]
      have hsnap : Snapshot (s.messages tenant) m.recordId
          (Shows.existing i (s.messages tenant)) := by
        rw [hm.recordId_eq]
        exact h.shows.snapshot
      have hroom := h.room
      rw [List.length_cons] at hroom
      obtain ⟨stored, data', hstored, hsound, hcommit⟩ := commitRecordsWrite_ok hadm
        (by simpa using hdata) (by simp) hsize h.sound hnotDelete h.shows.wf hsnap hfresh (by omega)
      have hcid : Message.getCid stored = Message.getCid (RecordsWrite.stored m) := by
        simp only [Message.getCid, hstored, RecordsWrite.stored]
      have hcommitted : RecordState known i queryable rank tenant pending
          { s.setLog tenant (committed (s.messages tenant) (Shows.existing i (s.messages tenant))
            stored (RecordsWrite.constructIndexes m true) []) with data := data' }
          ⟨{RecordsWrite.age i, RecordsWrite.age m}, RecordsWrite.age m, none⟩ := by
        refine recordState_committed h.shows.wf hsnap h.ranked (by rw [hcid]; exact h.unstored) hroom
          hsound (by rwa [hcid]) ?_ h.origin (by rwa [hstored]) ?_
        · intro p hp
          rw [RecordsWrite.get_parentId, parentId_eq_of_immutable hm.immutable] at hp
          cases hpar : i.descriptor.parentId with
          | none => simp [hpar] at hp
          | some p' =>
            have hpp : p' = p := by simpa [hpar, text] using hp
            have := hparent p' hpar
            simpa [StoredMessage.recordId, hstored, hm.recordId_eq, ← hpp] using this
        · exact h.shows.commitWrite hi hst hstored hm.recordId_eq hm.not_initial hm.immutable
            (by rwa [hcid]) hlt
      have hnewest : ((Message.getNewestMessage (Shows.existing i (s.messages tenant))).any fun n =>
          !Message.isNewer (RecordsWrite.stored m) n) = false := by
        rw [hn, ← Bool.not_eq_true]
        exact hnotold
      obtain ⟨hresult, hfinal⟩ :=
        hcommitted.of_committed rfl hsquash hself hm.immutable hnewest hcommit
      refine ⟨⟨some ((s.messages tenant).head + 1), ?_⟩, ?_⟩
      · have haccepted : RecordsWriteHandler.acceptedStatus m (some data) =
            { code := 202, detail := "Accepted" } := by
          simp [RecordsWriteHandler.acceptedStatus]
        rw [haccepted] at hresult
        rw [Program.result, hhandle]
        exact hresult
      · rw [Program.final, Program.trail, hhandle]
        exact hfinal

theorem final_handle_update_unknown (wf : (s.messages tenant).WellFormed)
    (hunknown : recordRows (s.messages tenant) i.recordId = []) (hm : IsUpdateOf i m)
    (dataStream : Option P.Data) :
    (RecordsWriteHandler.handle deps tenant m dataStream).final s = s := by
  have hquery := query_unknown wf hunknown
  unfold RecordsWriteHandler.handle
  split
  · rfl
  · rw [(Stores.runs_query _ _ _).final_bind, hm.recordId_eq, hquery]
    unfold RecordsWriteHandler.handleOn
    rw [List.find?_nil, (Program.runs_read _ _).final_bind]
    have hrefused : RecordsWriteHandler.checkAdmission deps tenant m [] s = .error
        { status := messageReplyFromError (.dwnError ⟨.recordsWriteGetInitialWriteNotFound,
          "Initial write is not found."⟩) 400 } := by
      simp [RecordsWriteHandler.checkAdmission, RecordsWriteHandler.getInitialWrite,
        hm.not_initial, RecordsWrite.getInitialWrite, RecordsWriteHandler.orReply, Except.map,
        Except.mapError]
    rw [hrefused]
    rfl

/-- The initial write of a stored record is found by its entry id. -/
theorem Shows.fetchInitialRecordsWrite_isSome (h : Shows i queryable (s.messages tenant) st)
    (hi : RecordsWrite.isInitialWrite i = true) :
    (RecordsDeleteHandler.fetchInitialRecordsWrite s tenant i.recordId).isSome = true := by
  have hwrites : ∀ m ∈ query (s.messages tenant) [[Filters.equalText "entryId" i.recordId]],
      m.asRecordsWrite.isSome = true := by
    intro m hm
    obtain ⟨r, hr, rfl⟩ := mem_query.mp hm
    obtain ⟨hr, hmatch⟩ := List.mem_filter.mp hr
    have hindexed := h.wf.indexed r hr
    unfold Row.Indexed at hindexed
    cases hmsg : r.message.message with
    | recordsWrite w => simp [StoredMessage.asRecordsWrite, hmsg]
    | recordsDelete d =>
      simp only [hmsg] at hindexed
      obtain ⟨_, _, -, hindexed⟩ := hindexed
      simp [hindexed, Filters.equalText] at hmatch
    | modulesConfigure c =>
      simp only [hmsg] at hindexed
      obtain ⟨_, hindexed⟩ := hindexed
      simp [hindexed, Filters.equalText, ModulesConfigure.constructIndexes] at hmatch
  obtain ⟨ri, hri, hmsg⟩ := h.initialStored
  have hrow := (mem_recordRows.mp hri).1
  have hentry : RecordsWrite.getEntryId i = i.recordId := by
    simpa [RecordsWrite.isInitialWrite] using hi
  have hmem : ri.message ∈
      query (s.messages tenant) [[Filters.equalText "entryId" i.recordId]] := by
    have hindexed := h.wf.indexed ri hrow
    simp only [Row.Indexed, hmsg] at hindexed
    obtain ⟨latest, hlatest⟩ := hindexed
    refine mem_query.mpr ⟨ri, List.mem_filter.mpr ⟨hrow, ?_⟩, rfl⟩
    simp [hlatest, Filters.equalText, hentry]
  unfold RecordsDeleteHandler.fetchInitialRecordsWrite
  generalize query (s.messages tenant) [[Filters.equalText "entryId" i.recordId]] = found
    at hwrites hmem
  cases found with
  | nil => cases hmem
  | cons m found => simpa using hwrites m (by simp)

omit P in
theorem rank_le_iff {p p' : Bool} {k k' : Age} :
    TombstoneMachine.rank (p, k) ≤ TombstoneMachine.rank (p', k') ↔
      p < p' ∨ p = p' ∧ k ≤ k' :=
  Prod.Lex.toLex_le_toLex

/-- The gate of a delete compares ranks. -/
theorem isDeleteBeaten_iff {n : StoredMessage} {d' : RecordsDeleteMessage}
    (hn : n.message = .recordsDelete d') :
    Records.isDeleteBeatenByExistingTombstone d n = true ↔
      TombstoneMachine.rank (d.descriptor.prune, RecordsDelete.age d) ≤
        TombstoneMachine.rank (d'.descriptor.prune, RecordsDelete.age d') := by
  rw [rank_le_iff, ← age_of_delete hn]
  unfold Records.isDeleteBeatenByExistingTombstone
  simp only [hn]
  by_cases hprune : d.descriptor.prune = d'.descriptor.prune
  · simp [hprune, Message.isNewer_eq_false, RecordsDelete.age]
  · cases hp : d.descriptor.prune <;> cases hp' : d'.descriptor.prune <;>
      simp_all

section Delete
variable
    (h : RecordState known i queryable rank tenant
      (Message.getCid (RecordsDelete.stored d) :: pending) s st)
    (hst : Reached (RecordsWrite.age i) events st) (hi : RecordsWrite.isInitialWrite i = true)
    (hrecord : d.descriptor.recordId = i.recordId)
    (hparent : ∀ p, i.descriptor.parentId = some p → rank p < rank i.recordId)
    (hpending : Message.getCid (RecordsDelete.stored d) ∉ pending)
    (hknown : known (.recordsDelete d))
include h hst hi hrecord hparent hpending hknown

/-- A delete that is performed commits its tombstone; the cascade of a prune leaves the
record itself alone. -/
theorem RecordState.performed {n : StoredMessage}
    (hn : Message.getNewestMessage (Shows.existing i (s.messages tenant)) = some n)
    (hbeaten : Records.isDeleteBeatenByExistingTombstone d n = false) :
    RecordState known i queryable rank tenant pending
        ((performRecordsDeleteOn tenant d (Shows.existing i (s.messages tenant))).final s)
        ⟨{RecordsWrite.age i, st.newest}, st.newest,
          some (d.descriptor.prune, RecordsDelete.age d)⟩ ∧
      ∃ v, RecordsWrite.age v = st.newest ∧ Sourced i (((performRecordsDeleteOn tenant d
        (Shows.existing i (s.messages tenant))).final s).messages tenant) v := by
  have hfresh : ∀ r ∈ (s.messages tenant).rows, r.cid ≠ Message.getCid (RecordsDelete.stored d) :=
    fun r hr heq => h.unstored r hr (by simp [heq])
  obtain ⟨rv, hrv, v, hv, hage, hnewest⟩ := h.shows.getNewestRecordsWrite_existing hst
  have hroom := h.room
  rw [List.length_cons] at hroom
  have hcommit := commitLatestStateTransition_runs (RecordsDelete.stored d)
    (RecordsDelete.constructIndexes d i v) [v] h.shows.wf h.shows.snapshot rfl hfresh (by omega)
  have hsound := DataStore.deleteAll_sound h.sound ((displacedMessages
    (Shows.existing i (s.messages tenant)) (RecordsDelete.stored d)).filterMap
      (releasedRef tenant (RecordsDelete.stored d)))
  rw [← released] at hsound
  generalize released tenant (RecordsDelete.stored d) (displacedMessages
    (Shows.existing i (s.messages tenant)) (RecordsDelete.stored d)) s.data = data at hcommit hsound
  have hcommitted : RecordState known i queryable rank tenant pending
      { s.setLog tenant (committed (s.messages tenant) (Shows.existing i (s.messages tenant))
        (RecordsDelete.stored d) (RecordsDelete.constructIndexes d i v) [v]) with data := data }
      ⟨{RecordsWrite.age i, st.newest}, st.newest,
        some (d.descriptor.prune, RecordsDelete.age d)⟩ := by
    refine recordState_committed h.shows.wf h.shows.snapshot h.ranked h.unstored hroom hsound
      hpending ?_ h.origin hknown (h.shows.commitDelete hi hrecord hfresh hrv hv hage)
    intro p hp
    rw [RecordsDelete.get_parentId] at hp
    cases hpar : i.descriptor.parentId with
    | none => simp [hpar] at hp
    | some p' =>
      have hpp : p' = p := by simpa [hpar, text] using hp
      have := hparent p' hpar
      simpa [StoredMessage.recordId, RecordsDelete.stored, hrecord, ← hpp] using this
  unfold performRecordsDeleteOn
  simp only [hn, hbeaten, Bool.false_eq_true, if_false]
  rw [(Program.runs_ofExcept (h.shows.getInitialWrite_existing hi) s).final_bind, hnewest,
    Option.getD_some, hcommit.final_bind]
  have hsourced : Sourced i ((s.setLog tenant (committed (s.messages tenant)
      (Shows.existing i (s.messages tenant)) (RecordsDelete.stored d)
      (RecordsDelete.constructIndexes d i v) [v])).messages tenant) v := by
    rw [Stores.messages_setLog]
    exact h.shows.sourced_commitDelete hi hrecord hfresh hrv hv
  suffices hcascade : Program.Preserves (Untouched rank tenant i.recordId _ _ pending) _ from
    ⟨hcommitted.preserved hcascade, v, hage,
      hsourced.congr (hcommitted.rows_preserved hcascade)⟩
  split
  · refine Program.preserves_read_bind fun t _ => ?_
    refine Program.moves_bind (preserves_purgeRecordDescendants _ ?_) fun _ => Program.moves_pure _
    rw [hrecord]
  · exact Program.moves_pure _

/-- The two outcomes of an admissible delete: beaten by a tombstone that is the newest
message, or committed beside the initial and the newest write. -/
theorem RecordState.handle_delete (hadm : DeleteAdmissible deps tenant d s) :
    ((∃ u, st.tomb = some u ∧ st.newest < u.2 ∧
        TombstoneMachine.rank (d.descriptor.prune, RecordsDelete.age d) ≤
          TombstoneMachine.rank u) ∧
      Program.Runs (RecordsDeleteHandler.handle deps tenant d) s { status := conflict } s) ∨
    ((∀ u, st.tomb = some u → st.newest < u.2 → ¬ TombstoneMachine.rank
        (d.descriptor.prune, RecordsDelete.age d) ≤ TombstoneMachine.rank u) ∧
      RecordState known i queryable rank tenant pending
        ((RecordsDeleteHandler.handle deps tenant d).final s)
        ⟨{RecordsWrite.age i, st.newest}, st.newest,
          some (d.descriptor.prune, RecordsDelete.age d)⟩ ∧
      ∃ v, RecordsWrite.age v = st.newest ∧
        Sourced i (((RecordsDeleteHandler.handle deps tenant d).final s).messages tenant) v) := by
  obtain ⟨n, hn, hcases⟩ := h.shows.getNewestMessage_existing hst
  have hn' : Message.getNewestMessage
      (query (s.messages tenant) [recordFilter d.descriptor.recordId]) = some n := by
    rw [hrecord]
    exact hn
  cases hbeaten : Records.isDeleteBeatenByExistingTombstone d n with
  | true =>
    refine Or.inl ⟨?_, handle_delete_beaten hadm hn' hbeaten⟩
    obtain ⟨t, d', ht, hlt, hd', rfl⟩ | ⟨-, w, hw, -⟩ := hcases
    · exact ⟨_, ht, hlt, (isDeleteBeaten_iff hd').mp hbeaten⟩
    · simp [Records.isDeleteBeatenByExistingTombstone, hw] at hbeaten
  | false =>
    refine Or.inr ⟨?_, ?_⟩
    · intro u hu hlt hle
      obtain ⟨t, d', ht, -, hd', rfl⟩ | ⟨hold, -⟩ := hcases
      · rw [hu, Option.some.injEq] at ht
        rw [ht] at hle
        rw [(isDeleteBeaten_iff hd').mpr hle] at hbeaten
        cases hbeaten
      · exact absurd hlt (hold u hu).not_gt
    · have hinitial : (RecordsDeleteHandler.fetchInitialRecordsWrite s tenant
          d.descriptor.recordId).isSome = true := by
        rw [hrecord]
        exact h.shows.fetchInitialRecordsWrite_isSome hi
      have hhandle := handle_delete_admitted hadm hn' hbeaten hinitial
      rw [Program.final, Program.trail, hhandle, ← Program.trail, ← Program.final,
        Program.final_bind_pure, hrecord]
      exact h.performed hst hi hrecord hparent hpending hknown hn hbeaten

end Delete

end Step

/-! ## A revocation that revokes itself -/

section Revoked
variable {deps : HandlerDependencies} {tenant : Did} {queryable : Bool} {i : RecordsWriteMessage}
  {s : Stores} {st : State Age}

theorem dateCreated_of_parse (hparsed : RecordsWrite.parse deps i = .ok ())
    (hi : RecordsWrite.isInitialWrite i = true) :
    i.descriptor.dateCreated = i.descriptor.messageTimestamp := by
  obtain ⟨_, -, hparsed⟩ := bind_eq_ok hparsed
  obtain ⟨_, hintegrity, -⟩ := bind_eq_ok hparsed
  by_contra hne
  simp [RecordsWrite.validateInitialWriteIntegrity, hi, Ne.symm hne] at hintegrity

/-- The cascading effects of such a write purge all writes of its record. -/
theorem Shows.unknown_of_revokesItself (h : Shows i queryable (s.messages tenant) st)
    (hnone : st.tomb = none) (hsquash : i.descriptor.squash ≠ some true)
    (hself : PermissionsModule.RevokesItself i)
    (hdates : i.descriptor.dateCreated = i.descriptor.messageTimestamp) :
    (((RecordsWriteHandler.postProcess tenant i).final s).messages tenant).WellFormed ∧
      recordRows (((RecordsWriteHandler.postProcess tenant i).final s).messages tenant)
        i.recordId = [] := by
  have hpost : RecordsWriteHandler.postProcess tenant i =
      PermissionsModule.postProcessWrite tenant i := by
    unfold RecordsWriteHandler.postProcess
    simp only [hsquash, if_false, hself.1, if_true]
  rw [hpost, messages_postProcessWrite h.wf hself.2.1]
  refine ⟨h.wf.restrict _, List.filter_eq_nil_iff.mpr fun r hr hb => ?_⟩
  obtain ⟨hr, hmatch⟩ := List.mem_filter.mp hr
  obtain ⟨w, latest, hindexes, hw⟩ := h.indexes_of_no_tomb hnone r (mem_recordRows.mpr ⟨hr, hb⟩)
  have hgrant := (permissionGrantId_eq_of_immutable hw).trans hself.2.2
  have hcreated : i.descriptor.messageTimestamp ≤ w.descriptor.dateCreated := by
    rw [dateCreated_eq_of_immutable hw, hdates]
  simp [hindexes, PermissionsModule.grantAuthorizedMessagesFilter, hgrant,
    (FilterUtility.matchProperty_gte_text _ _).mpr hcreated] at hmatch

end Revoked

end EnboxDwn
