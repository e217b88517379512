import EnboxDwn.RecordLog

/-! Processing the messages of one record one at a time: each request is one step of
the tombstone machine. -/
namespace EnboxDwn
open KeyValues Journal MessageStore StorageController TombstoneMachine

variable [P : Platform]

theorem mem_of_getNewestRecordsWrite {existing : List StoredMessage} {v : RecordsWriteMessage}
    (h : Records.getNewestRecordsWrite existing = some v) :
    ∃ x ∈ existing, x.message = .recordsWrite v := by
  obtain ⟨x, hx, hv⟩ := Option.bind_eq_some_iff.mp h
  exact ⟨x, (List.mem_filter.mp (Message.getNewestMessage_eq_some hx).1).1,
    asRecordsWrite_eq_some.mp hv⟩

/-! ## Purges leave the record alone -/

/-- Parents come before their children, as content addresses make sure of. -/
def Log.Ranked (rank : String → Nat) (log : Log) : Prop :=
  ∀ r ∈ log.rows, ∀ p, get r.indexes "parentId" = some (text p) → rank p < rank r.message.recordId

/-- The record's rows are as given while other rows and data may go; the messages still
to come are not stored. -/
structure Untouched (rank : String → Nat) (tenant : Did) (recordId : String) (rows : List Row)
    (head : Nat) (pending : List Cid) (s : Stores) : Prop where
  wf : (s.messages tenant).WellFormed
  ranked : (s.messages tenant).Ranked rank
  rows_eq : recordRows (s.messages tenant) recordId = rows
  head_eq : (s.messages tenant).head = head
  sound : s.data.Sound
  unstored : ∀ r ∈ (s.messages tenant).rows, r.cid ∉ pending

theorem wellFormed_delete {log : Log} (wf : log.WellFormed) (cid : Cid) :
    (MessageStore.delete log cid).WellFormed where
  distinct := wf.distinct.sublist (List.filter_sublist.map _)
  indexed := fun r hr => wf.indexed r (List.mem_filter.mp hr).1
  scopes := fun r hr => wf.scopes r (List.mem_filter.mp hr).1

theorem returns_deleteMessageData (tenant : Did) (m : StoredMessage) :
    Program.Returns (PermissionsModule.deleteMessageData tenant m) := by
  unfold PermissionsModule.deleteMessageData
  split
  · split
    · exact returns_deleteData _
    · exact Program.returns_pure ()
  · exact Program.returns_pure ()

/-- What every deletion of data keeps is kept when the data of a message goes. -/
theorem preserves_deleteMessageData {Inv : Stores → Prop}
    (h : ∀ ref, Program.Preserves Inv (Stores.deleteData ref)) (tenant : Did) (m : StoredMessage) :
    Program.Preserves Inv (PermissionsModule.deleteMessageData tenant m) := by
  unfold PermissionsModule.deleteMessageData
  split
  · split
    · exact h _
    · exact Program.moves_pure ()
  · exact Program.moves_pure ()

section Purge
variable {rank : String → Nat} {tenant : Did} {recordId : String} {rows : List Row} {head : Nat}
  {pending : List Cid}

theorem preserves_deleteData (ref : DataRef) :
    Program.Preserves (Untouched rank tenant recordId rows head pending) (Stores.deleteData ref) := by
  refine Program.preserves_mutate fun s a t h hs => ?_
  cases h
  exact ⟨hs.wf, hs.ranked, hs.rows_eq, hs.head_eq, DataStore.delete_sound hs.sound ref, hs.unstored⟩

theorem preserves_deleteMessage {cid : Cid} (hcid : ∀ r ∈ rows, r.cid ≠ cid) :
    Program.Preserves (Untouched rank tenant recordId rows head pending)
      (Stores.deleteMessage tenant cid) := by
  intro s t ht hs
  rw [Stores.trail_deleteMessage, List.mem_singleton] at ht
  subst ht
  have hlog : (s.setLog tenant (MessageStore.delete (s.messages tenant) cid)).messages tenant =
      MessageStore.delete (s.messages tenant) cid := by simp [Stores.setLog]
  refine ⟨?_, ?_, ?_, ?_, hs.sound, ?_⟩
  · rw [hlog]
    exact wellFormed_delete hs.wf cid
  · rw [hlog]
    exact fun r hr => hs.ranked r (List.mem_filter.mp hr).1
  · rw [hlog, recordRows, MessageStore.delete, List.filter_filter]
    refine Eq.trans (List.filter_congr fun r hr => ?_) hs.rows_eq
    by_cases hb : r.message.belongsTo recordId = true
    · have hne : r.cid ≠ cid := hcid r (hs.rows_eq ▸ mem_recordRows.mpr ⟨hr, hb⟩)
      simp [hb, hne]
    · simp [hb]
  · rw [hlog]
    exact hs.head_eq
  · rw [hlog]
    exact fun r hr => hs.unstored r (List.mem_filter.mp hr).1

theorem preserves_purgeRecordMessages {messages : List StoredMessage}
    (h : ∀ m ∈ messages, ∀ r ∈ rows, r.cid ≠ Message.getCid m) :
    Program.Preserves (Untouched rank tenant recordId rows head pending)
      (purgeRecordMessages tenant messages) := by
  unfold purgeRecordMessages
  split
  · exact Program.moves_throw _
  · refine Program.moves_bind (preserves_deleteData _) fun _ => ?_
    refine Program.preserves_forEach_mem fun c hc => ?_
    obtain ⟨m, hm, rfl⟩ := List.mem_map.mp hc
    exact preserves_deleteMessage (h m hm)

theorem recordId_of_belongsTo {m : StoredMessage} (h : m.belongsTo recordId = true) :
    m.recordId = recordId := by
  unfold StoredMessage.belongsTo at h
  unfold StoredMessage.recordId
  cases hm : m.message with
  | recordsWrite w => simpa [hm] using h
  | recordsDelete d => simpa [hm] using h
  | modulesConfigure c => simp [hm] at h

theorem Row.Indexed.parentId {r : Row} (h : r.Indexed) :
    ∃ p : Option String, get r.indexes "parentId" = p.map text := by
  unfold Row.Indexed at h
  split at h
  · obtain ⟨latest, h⟩ := h
    exact ⟨_, by rw [h, RecordsWrite.get_parentId]⟩
  · obtain ⟨i, v, -, h⟩ := h
    exact ⟨_, by rw [h, RecordsDelete.get_parentId]⟩
  · obtain ⟨latest, h⟩ := h
    exact ⟨none, by simp [h, ModulesConfigure.constructIndexes]⟩

theorem mem_query_child {log : Log} (wf : log.WellFormed) {parent : String} {m : StoredMessage}
    (hm : m ∈ query log [childFilter parent]) :
    ∃ r ∈ log.rows, r.message = m ∧ get r.indexes "parentId" = some (text parent) := by
  obtain ⟨r, hr, rfl⟩ := mem_query.mp hm
  obtain ⟨hr, hmatch⟩ := List.mem_filter.mp hr
  obtain ⟨p, hp⟩ := (wf.indexed r hr).parentId
  simp only [FilterUtility.matchAnyFilter_singleton, childFilter, Filters.equalText,
    FilterUtility.matchFilter_cons, Bool.and_eq_true, hp] at hmatch
  cases p with
  | none => simp at hmatch
  | some p =>
    have heq : p = parent := by simpa using hmatch.2.1
    exact ⟨r, hr, rfl, by rw [hp, heq]; rfl⟩

theorem cid_ne_of_child {s : Stores} (hs : Untouched rank tenant recordId rows head pending s)
    {parent : String} (hrank : rank recordId ≤ rank parent) {m : StoredMessage}
    (hm : m ∈ query (s.messages tenant) [childFilter parent]) :
    rank recordId ≤ rank m.recordId ∧ ∀ r ∈ rows, r.cid ≠ Message.getCid m := by
  obtain ⟨r', hr', rfl, hparent⟩ := mem_query_child hs.wf hm
  have hlt := hs.ranked r' hr' parent hparent
  refine ⟨by omega, fun r hr heq => ?_⟩
  rw [← hs.rows_eq] at hr
  obtain ⟨hr, hb⟩ := mem_recordRows.mp hr
  rw [hs.wf.eq_of_cid hr hr' heq] at hb
  have := recordId_of_belongsTo hb
  rw [this] at hlt
  omega

/-- The cascade below a record does not reach the record itself. -/
theorem preserves_purgeRecordDescendants (depth : Nat) {parent : String}
    (hrank : rank recordId ≤ rank parent) :
    Program.Preserves (Untouched rank tenant recordId rows head pending)
      (purgeRecordDescendants depth tenant parent) := by
  induction depth generalizing parent with
  | zero => exact Program.moves_throw _
  | succ depth ih =>
    refine Program.preserves_read_bind fun s hs => ?_
    refine Program.moves_bind ?_ fun _ => ?_
    · refine Program.preserves_forEach_mem fun c hc => ?_
      obtain ⟨m, hm, rfl⟩ := List.mem_map.mp (List.mem_eraseDups.mp hc)
      exact ih (cid_ne_of_child hs hrank hm).1
    · refine Program.preserves_forEach_mem fun group hgroup => ?_
      obtain ⟨c, -, rfl⟩ := List.mem_map.mp hgroup
      refine preserves_purgeRecordMessages fun m hm => ?_
      exact (cid_ne_of_child hs hrank (List.mem_filter.mp hm).1).2

/-- A revocation purges only messages its filter matches. -/
theorem preserves_postProcessWrite {m : RecordsWriteMessage}
    (h : m.descriptor.modulePath = PermissionsModule.revocationPath → ∀ r ∈ rows,
      FilterUtility.matchFilter r.indexes (PermissionsModule.grantAuthorizedMessagesFilter m) =
        false) :
    Program.Preserves (Untouched rank tenant recordId rows head pending)
      (PermissionsModule.postProcessWrite tenant m) := by
  unfold PermissionsModule.postProcessWrite
  by_cases hpath : m.descriptor.modulePath = PermissionsModule.revocationPath
  · rw [if_neg (not_not.mpr hpath)]
    refine Program.preserves_read_bind fun s hs => ?_
    refine Program.moves_bind ?_ fun _ => ?_
    · exact Program.moves_forEach (preserves_deleteMessageData preserves_deleteData tenant) _
    · refine Program.preserves_forEach_mem fun c hc => ?_
      obtain ⟨x, hx, rfl⟩ := List.mem_map.mp hc
      obtain ⟨r', hr', rfl⟩ := mem_query.mp hx
      obtain ⟨hr', hmatch⟩ := List.mem_filter.mp hr'
      refine preserves_deleteMessage fun r hr heq => ?_
      have hrow := hr
      rw [← hs.rows_eq] at hrow
      rw [← hs.wf.eq_of_cid (mem_recordRows.mp hrow).1 hr' heq,
        FilterUtility.matchAnyFilter_singleton, h hpath r hr] at hmatch
      cases hmatch
  · rw [if_pos hpath]
    exact Program.moves_pure ()

end Purge

/-! ## What a revocation leaves -/

def Log.restrict (log : Log) (keep : Row → Bool) : Log :=
  { log with rows := log.rows.filter keep }

theorem Log.WellFormed.restrict {log : Log} (wf : log.WellFormed) (keep : Row → Bool) :
    (log.restrict keep).WellFormed where
  distinct := wf.distinct.sublist (List.filter_sublist.map _)
  indexed := fun r hr => wf.indexed r (List.mem_filter.mp hr).1
  scopes := fun r hr => wf.scopes r (List.mem_filter.mp hr).1

section Revocation
variable {tenant : Did} {s : Stores}

theorem final_forEach_deleteMessage (tenant : Did) (cids : List Cid) (s : Stores) :
    (Program.forEach (Stores.deleteMessage tenant) cids).final s =
      s.setLog tenant ((s.messages tenant).restrict fun r => r.cid ∉ cids) := by
  induction cids generalizing s with
  | nil => simp [Program.forEach, Stores.setLog, Log.restrict]
  | cons c cids ih =>
    rw [Program.forEach, Program.final_bind_ok (Stores.result_deleteMessage tenant c s),
      Stores.final_deleteMessage, ih]
    simp only [Stores.setLog, MessageStore.delete, Function.update_self, Function.update_idem,
      Log.restrict, List.filter_filter, List.mem_cons, not_or]
    congr 4
    funext r
    simp [Bool.and_comm]

theorem mem_map_getCid_query {log : Log} (wf : log.WellFormed) (filter : Filter) {r : Row}
    (hr : r ∈ log.rows) :
    r.cid ∈ (query log [filter]).map Message.getCid ↔
      FilterUtility.matchFilter r.indexes filter = true := by
  rw [List.mem_map]
  constructor
  · intro ⟨m, hm, hc⟩
    obtain ⟨r', hr', rfl⟩ := mem_query.mp hm
    obtain ⟨hr', hmatch⟩ := List.mem_filter.mp hr'
    rw [wf.eq_of_cid hr' hr hc] at hmatch
    simpa using hmatch
  · intro hmatch
    exact ⟨r.message, mem_query.mpr ⟨r, List.mem_filter.mpr ⟨hr, by simpa using hmatch⟩, rfl⟩, rfl⟩

/-- The data a purged message takes along. -/
def PermissionsModule.purgedRef (tenant : Did) (message : StoredMessage) : Option DataRef :=
  message.asRecordsWrite.bind fun w =>
    if maxDataSizeAllowedToBeEncoded < w.descriptor.dataSize then
      some ⟨tenant, w.recordId, w.descriptor.dataCid⟩
    else none

theorem final_forEach_deleteMessageData (tenant : Did) (l : List StoredMessage) (s : Stores) :
    (Program.forEach (PermissionsModule.deleteMessageData tenant) l).final s =
      { s with data := s.data.deleteAll (l.filterMap (PermissionsModule.purgedRef tenant)) } := by
  induction l generalizing s with
  | nil => rfl
  | cons m l ih =>
    rw [Program.forEach, Program.final_bind_ok ((returns_deleteMessageData tenant m).result_unit s),
      ih]
    unfold PermissionsModule.deleteMessageData
    cases hw : m.asRecordsWrite with
    | none => simp [PermissionsModule.purgedRef, hw]
    | some w =>
      by_cases hlarge : maxDataSizeAllowedToBeEncoded < w.descriptor.dataSize
      · simp [PermissionsModule.purgedRef, hw, hlarge, DataStore.deleteAll]
      · simp [PermissionsModule.purgedRef, hw, hlarge]

/-- A revocation removes exactly the rows its filter matches, with their data. -/
theorem final_postProcessWrite (wf : (s.messages tenant).WellFormed) {m : RecordsWriteMessage}
    (hpath : m.descriptor.modulePath = PermissionsModule.revocationPath) :
    (PermissionsModule.postProcessWrite tenant m).final s =
      { s.setLog tenant ((s.messages tenant).restrict fun r => !FilterUtility.matchFilter r.indexes
          (PermissionsModule.grantAuthorizedMessagesFilter m)) with
        data := s.data.deleteAll ((query (s.messages tenant)
          [PermissionsModule.grantAuthorizedMessagesFilter m]).filterMap
            (PermissionsModule.purgedRef tenant)) } := by
  have hrestrict : ((s.messages tenant).restrict fun r => r.cid ∉ (query (s.messages tenant)
      [PermissionsModule.grantAuthorizedMessagesFilter m]).map Message.getCid) =
      (s.messages tenant).restrict fun r => !FilterUtility.matchFilter r.indexes
        (PermissionsModule.grantAuthorizedMessagesFilter m) := by
    unfold Log.restrict
    congr 1
    refine List.filter_congr fun r hr => ?_
    rw [Bool.eq_iff_iff, decide_eq_true_iff, mem_map_getCid_query wf _ hr]
    simp
  unfold PermissionsModule.postProcessWrite
  rw [if_neg (not_not.mpr hpath), (Stores.runs_query _ _ _).final_bind]
  have hreturns := Program.returns_forEach (returns_deleteMessageData tenant)
    (query (s.messages tenant) [PermissionsModule.grantAuthorizedMessagesFilter m])
  rw [Program.final_bind_ok (hreturns.result_unit s), final_forEach_deleteMessageData,
    final_forEach_deleteMessage]
  dsimp only
  rw [hrestrict]
  rfl

theorem messages_postProcessWrite (wf : (s.messages tenant).WellFormed) {m : RecordsWriteMessage}
    (hpath : m.descriptor.modulePath = PermissionsModule.revocationPath) :
    ((PermissionsModule.postProcessWrite tenant m).final s).messages tenant =
      (s.messages tenant).restrict fun r => !FilterUtility.matchFilter r.indexes
        (PermissionsModule.grantAuthorizedMessagesFilter m) := by
  rw [final_postProcessWrite wf hpath]
  exact s.messages_setLog tenant _

end Revocation

/-! ## One commit -/

section Commit
variable {tenant : Did} {s : Stores}

/-- The reference that goes with a displaced message: that of large data which the new
message does not share. -/
def releasedRef (tenant : Did) (newestMessage message : StoredMessage) : Option DataRef :=
  match message.message with
  | .recordsWrite m =>
    if m.descriptor.dataSize ≤ maxDataSizeAllowedToBeEncoded then none
    else if newestMessage.asRecordsWrite.map (·.descriptor.dataCid) = some m.descriptor.dataCid then
      none
    else some ⟨tenant, m.recordId, m.descriptor.dataCid⟩
  | _ => none

theorem final_deleteFromDataStoreIfNeeded (newest m : StoredMessage) (s : Stores) :
    (deleteFromDataStoreIfNeeded tenant newest m).final s =
      { s with data := s.data.deleteAll (releasedRef tenant newest m).toList } := by
  unfold deleteFromDataStoreIfNeeded releasedRef
  cases m.message with
  | recordsWrite w =>
    dsimp only
    by_cases hsmall : w.descriptor.dataSize ≤ maxDataSizeAllowedToBeEncoded
    · simp [hsmall, DataStore.deleteAll]
    · by_cases hshared : newest.asRecordsWrite.map (·.descriptor.dataCid) =
          some w.descriptor.dataCid
      · simp [hsmall, hshared, DataStore.deleteAll]
      · simp [hsmall, hshared, DataStore.deleteAll]
  | recordsDelete d => rfl
  | modulesConfigure c => rfl

/-- The data store after the displaced messages have let go of their data. -/
def released (tenant : Did) (newest : StoredMessage) (displaced : List StoredMessage)
    (d : DataStore) : DataStore :=
  d.deleteAll (displaced.filterMap (releasedRef tenant newest))

theorem final_forEach_deleteFromDataStoreIfNeeded (newest : StoredMessage)
    (l : List StoredMessage) (s : Stores) :
    (Program.forEach (deleteFromDataStoreIfNeeded tenant newest) l).final s =
      { s with data := released tenant newest l s.data } := by
  induction l generalizing s with
  | nil => rfl
  | cons m l ih =>
    rw [Program.forEach, Program.final_bind_ok
      ((returns_deleteFromDataStoreIfNeeded tenant newest m).result_unit s),
      final_deleteFromDataStoreIfNeeded, ih]
    unfold released
    cases h : releasedRef tenant newest m with
    | none => simp [h, DataStore.deleteAll]
    | some ref => simp [h, DataStore.deleteAll]

theorem commitLatestStateTransition_runs {recordId : String} {existing : List StoredMessage}
    (newMessage : StoredMessage) (indexes : KeyValues) (additional : List RecordsWriteMessage)
    (wf : (s.messages tenant).WellFormed) (snap : Snapshot (s.messages tenant) recordId existing)
    (hindexes : indexes.isEmpty = false)
    (hfresh : ∀ r ∈ (s.messages tenant).rows, r.cid ≠ Message.getCid newMessage)
    (hroom : (s.messages tenant).head + 1 < Replication.positionLimit) :
    Program.Runs (commitLatestStateTransition tenant existing newMessage indexes additional) s
      (.inserted ((s.messages tenant).head + 1))
      { s.setLog tenant (committed (s.messages tenant) existing newMessage indexes additional)
        with data := released tenant newMessage (displacedMessages existing newMessage) s.data } := by
  have hcommit : (commitLatestState (s.messages tenant)
      (planTransition existing newMessage indexes additional)).map
        (fun r => (r.1, s.setLog tenant r.2)) = .ok (.inserted ((s.messages tenant).head + 1),
      s.setLog tenant (committed (s.messages tenant) existing newMessage indexes additional)) := by
    rw [commitLatestState_fresh wf snap hindexes hfresh hroom]
    rfl
  have hdeletes := (Program.returns_forEach (returns_deleteFromDataStoreIfNeeded tenant newMessage)
    (displacedMessages existing newMessage)).result_unit
  refine (Program.runs_mutate hcommit).bind (Program.Runs.bind ⟨hdeletes _, ?_⟩
    (Program.runs_pure _ _))
  exact final_forEach_deleteFromDataStoreIfNeeded newMessage _ _

end Commit

/-! ## Admissible messages -/

/-- Processes writes that carry their data one at a time, in order. -/
def processWrites (deps : HandlerDependencies) (tenant : Did)
    (order : List (RecordsWriteMessage × P.Data)) (s : Stores) : Stores :=
  order.foldl (fun s x => (RecordsWriteHandler.handle deps tenant x.1 (some x.2)).final s) s

/-- Everything a write is checked for besides its age and its data. -/
structure WriteAdmissible (deps : HandlerDependencies) (tenant : Did) (m : RecordsWriteMessage)
    (dataStream : Option P.Data) (s : Stores) : Prop where
  parsed : RecordsWrite.parse deps m = .ok ()
  authenticated : deps.authenticate (.recordsWrite m) = .ok ()
  authorized : deps.authorizeRecordsWrite s tenant m = .ok ()
  referential : ∃ ruleSet, deps.validateReferentialIntegrity s tenant m = .ok ruleSet ∧
    RecordsWriteHandler.enforceSquashBackstop s tenant m ruleSet = .ok ()
  preProcessed : deps.preProcessWrite s tenant m = .ok ()
  validated : ∀ data, dataStream = some data →
    m.descriptor.dataSize ≤ maxDataSizeAllowedToBeEncoded →
    deps.validateRecord s tenant m data = .ok ()
  control : EncryptionControl.isControlMessage m = true → dataStream.isSome = true

structure DeleteAdmissible (deps : HandlerDependencies) (tenant : Did) (m : RecordsDeleteMessage)
    (s : Stores) : Prop where
  parsed : RecordsDelete.parse deps m = .ok ()
  authenticated : deps.authenticate (.recordsDelete m) = .ok ()
  authorized : ∀ i, RecordsDeleteHandler.fetchInitialRecordsWrite s tenant m.descriptor.recordId =
    some i → EncryptionControl.isControlMessage i = false ∧
      deps.authorizeRecordsDelete s tenant m i = .ok ()

/-- The data is what the descriptor says. -/
def CarriesData (m : RecordsWriteMessage) (data : P.Data) : Prop :=
  P.computeDagPbCid data = m.descriptor.dataCid ∧ P.byteLength data = m.descriptor.dataSize

namespace RecordsWriteHandler

def storedWith (m : RecordsWriteMessage) (data : P.Data) : StoredMessage where
  message := .recordsWrite m
  encodedData := if m.descriptor.dataSize ≤ maxDataSizeAllowedToBeEncoded then some data else none

def putLarge (tenant : Did) (m : RecordsWriteMessage) (data : P.Data) (d : DataStore) : DataStore :=
  if m.descriptor.dataSize ≤ maxDataSizeAllowedToBeEncoded then d
  else (d.put ⟨tenant, m.recordId, m.descriptor.dataCid⟩ data).2

end RecordsWriteHandler

section Handler
open RecordsWriteHandler
variable {deps : HandlerDependencies} {tenant : Did} {m : RecordsWriteMessage} {s : Stores}

omit P in
theorem validateDataIntegrity_self (cid : String) (size : Nat) :
    RecordsWrite.validateDataIntegrity cid size cid size = .ok () := by
  simp [RecordsWrite.validateDataIntegrity]

theorem processMessageWithDataStream_runs {data : P.Data} (hdata : CarriesData m data)
    (hsize : DataStore.SizedByCid (P := P)) (hsound : s.data.Sound)
    (hvalid : m.descriptor.dataSize ≤ maxDataSizeAllowedToBeEncoded →
      deps.validateRecord s tenant m data = .ok ()) :
    (putLarge tenant m data s.data).Sound ∧
      Program.Runs (processMessageWithDataStream deps tenant m data) s (storedWith m data)
        { s with data := putLarge tenant m data s.data } := by
  obtain ⟨hcid, hlen⟩ := hdata
  unfold processMessageWithDataStream putLarge storedWith
  by_cases hsmall : m.descriptor.dataSize ≤ maxDataSizeAllowedToBeEncoded
  · simp only [hsmall, if_true, hcid, hlen, validateDataIntegrity_self]
    refine ⟨hsound, ?_⟩
    exact (Program.runs_ofExcept rfl s).bind
      ((Program.runs_check (fun s => deps.validateRecord s tenant m data) (hvalid hsmall)).bind
        (Program.runs_pure _ s))
  · obtain ⟨hput, hsound'⟩ := DataStore.put_spec hsound hsize
      ⟨tenant, m.recordId, m.descriptor.dataCid⟩ hcid
    simp only [hsmall, if_false]
    refine ⟨hsound', (Stores.runs_putData _ data s).bind ?_⟩
    rw [hput, hcid, hlen, validateDataIntegrity_self]
    exact Program.runs_pure _ _

/-- The message a write is stored as, and the data store beside it. -/
theorem processData_ok {dataStream : Option P.Data} (newest : Option StoredMessage)
    (hadm : WriteAdmissible deps tenant m dataStream s)
    (hdata : ∀ data, dataStream = some data → CarriesData m data)
    (hnone : dataStream = none → RecordsWrite.isInitialWrite m = true)
    (hsize : DataStore.SizedByCid (P := P)) (hsound : s.data.Sound) :
    ((dataStream.map fun data => putLarge tenant m data s.data).getD s.data).Sound ∧
      Program.Runs (processData deps tenant m dataStream newest) s
        ((dataStream.map (storedWith m)).getD (RecordsWrite.stored m), dataStream.isSome)
        { s with data := (dataStream.map fun data => putLarge tenant m data s.data).getD s.data } := by
  unfold processData
  cases dataStream with
  | none =>
    rw [hnone rfl]
    exact ⟨hsound, Program.runs_pure _ s⟩
  | some data =>
    obtain ⟨hd, hrun⟩ := processMessageWithDataStream_runs (hdata data rfl) hsize hsound
      (hadm.validated data rfl)
    exact ⟨hd, hrun.bind (Program.runs_pure _ _)⟩

section Commit
variable {dataStream : Option P.Data} {existing : List StoredMessage}
    (hadm : WriteAdmissible deps tenant m dataStream s)
    (hdata : ∀ data, dataStream = some data → CarriesData m data)
    (hnone : dataStream = none → RecordsWrite.isInitialWrite m = true)
    (hsize : DataStore.SizedByCid (P := P)) (hsound : s.data.Sound)
    (hnewest : (Message.getNewestMessage existing).any StoredMessage.isRecordsDelete = false)
    (wf : (s.messages tenant).WellFormed)
    (snap : Snapshot (s.messages tenant) m.recordId existing)
    (hfresh : ∀ r ∈ (s.messages tenant).rows, r.cid ≠ Message.getCid (RecordsWrite.stored m))
    (hroom : (s.messages tenant).head + 1 < Replication.positionLimit)
include hadm hdata hnone hsize hsound hnewest wf snap hfresh hroom

/-- An admissible write that is newer than everything stored is committed. -/
theorem commitRecordsWrite_runs {stored : StoredMessage} {d : DataStore}
    (hstored : (dataStream.map (storedWith m)).getD (RecordsWrite.stored m) = stored)
    (hd : released tenant stored (displacedMessages existing stored)
      ((dataStream.map fun data => putLarge tenant m data s.data).getD s.data) = d) :
    stored.message = .recordsWrite m ∧ d.Sound ∧
      Program.Runs (commitRecordsWrite deps tenant m dataStream existing) s
        (.inserted ((s.messages tenant).head + 1))
        { s.setLog tenant (committed (s.messages tenant) existing stored
            (RecordsWrite.constructIndexes m dataStream.isSome) []) with data := d } := by
  obtain ⟨hput, hprocess⟩ :=
    processData_ok (Message.getNewestMessage existing) hadm hdata hnone hsize hsound
  rw [hstored] at hprocess
  have hmsg : stored.message = .recordsWrite m := by
    rw [← hstored]
    cases dataStream <;> rfl
  have hcid : Message.getCid stored = Message.getCid (RecordsWrite.stored m) := by
    simp only [Message.getCid, hmsg, RecordsWrite.stored]
  have hcommit := commitLatestStateTransition_runs
    (s := { s with data := (dataStream.map fun data => putLarge tenant m data s.data).getD s.data })
    stored (RecordsWrite.constructIndexes m dataStream.isSome) [] wf snap
    (constructIndexes_ne_nil _ _) (by rwa [hcid]) hroom
  have hcontrol : (EncryptionControl.isControlMessage m && dataStream.isNone) = false := by
    cases hc : EncryptionControl.isControlMessage m with
    | false => rfl
    | true => simpa using hadm.control hc
  refine ⟨hmsg, ?_, ?_⟩
  · rw [← hd]
    exact DataStore.deleteAll_sound hput _
  · unfold commitRecordsWrite
    simp only [hnewest, hcontrol, Bool.false_eq_true, if_false]
    refine (Program.runs_check (fun s => deps.preProcessWrite s tenant m) hadm.preProcessed).bind
      (hprocess.bind ?_)
    rw [← hd]
    exact hcommit

theorem commitRecordsWrite_ok :
    ∃ stored d, stored.message = .recordsWrite m ∧ d.Sound ∧
      Program.Runs (commitRecordsWrite deps tenant m dataStream existing) s
        (.inserted ((s.messages tenant).head + 1))
        { s.setLog tenant (committed (s.messages tenant) existing stored
            (RecordsWrite.constructIndexes m dataStream.isSome) []) with data := d } := by
  exact ⟨_, _, commitRecordsWrite_runs hadm hdata hnone hsize hsound hnewest wf snap hfresh hroom
    rfl rfl⟩

end Commit

theorem checkAdmission_ok {dataStream : Option P.Data} {existing : List StoredMessage}
    {initialWrite : Option RecordsWriteMessage}
    (hadm : WriteAdmissible deps tenant m dataStream s)
    (hinitial : getInitialWrite existing (RecordsWrite.isInitialWrite m) = .ok initialWrite)
    (himmutable : verifyImmutableProperties initialWrite m = .ok ()) :
    checkAdmission deps tenant m existing s = .ok () := by
  obtain ⟨ruleSet, hreferential, hbackstop⟩ := hadm.referential
  simp [checkAdmission, orReply, hinitial, hreferential, hadm.authenticated, hadm.authorized,
    himmutable, hbackstop, Except.mapError]

/-- An admitted write that is not stored yet is decided by its age. -/
theorem handle_admitted {dataStream : Option P.Data} (initialWrite : Option RecordsWriteMessage)
    (hadm : WriteAdmissible deps tenant m dataStream s)
    (hnew : ∀ e ∈ query (s.messages tenant) [recordFilter m.recordId],
      Message.getCid e ≠ Message.getCid (RecordsWrite.stored m))
    (hinitial : getInitialWrite (query (s.messages tenant) [recordFilter m.recordId])
      (RecordsWrite.isInitialWrite m) = .ok initialWrite)
    (himmutable : verifyImmutableProperties initialWrite m = .ok ()) :
    handle deps tenant m dataStream s = commitIfNewest deps tenant m dataStream
      (query (s.messages tenant) [recordFilter m.recordId]) s := by
  have hfind : (query (s.messages tenant) [recordFilter m.recordId]).find? (fun e =>
      Message.getCid e = Message.getCid (RecordsWrite.stored m)) = none := by
    simpa using hnew
  unfold handle
  simp only [hadm.parsed]
  rw [Stores.query, Program.read_bind]
  unfold handleOn
  simp only [hfind]
  rw [Program.read_bind, checkAdmission_ok hadm hinitial himmutable]

section Delete
open RecordsDeleteHandler

section Newest
variable {d : RecordsDeleteMessage} (hadm : DeleteAdmissible deps tenant d s)
    {newest : StoredMessage}
    (hnewest : Message.getNewestMessage
      (query (s.messages tenant) [recordFilter d.descriptor.recordId]) = some newest)
include hadm hnewest

theorem handle_delete_admitted
    (hbeaten : Records.isDeleteBeatenByExistingTombstone d newest = false)
    (hinitial : (fetchInitialRecordsWrite s tenant d.descriptor.recordId).isSome = true) :
    RecordsDeleteHandler.handle deps tenant d s =
      (performRecordsDeleteOn tenant d
          (query (s.messages tenant) [recordFilter d.descriptor.recordId]) >>= fun taskResult =>
        (pure { status := { code := 202, detail := "Accepted" }
                position := taskResult.bind PutResult.position } : Task Reply)) s := by
  obtain ⟨i, hi⟩ := Option.isSome_iff_exists.mp hinitial
  obtain ⟨hcontrol, hauthorized⟩ := hadm.authorized i hi
  have hauth : authorize deps tenant d s = .ok () := by
    simp [authorize, hi, hcontrol, hauthorized]
  unfold RecordsDeleteHandler.handle
  simp only [hadm.parsed, hadm.authenticated]
  rw [Stores.query, Program.read_bind]
  simp only [hnewest, hbeaten, Bool.false_eq_true, if_false]
  rw [Program.read_bind, hauth]
  refine Program.bind_congr_left s ?_ _
  rw [performRecordsDelete, Stores.query, Program.read_bind]

theorem handle_delete_beaten
    (hbeaten : Records.isDeleteBeatenByExistingTombstone d newest = true) :
    Program.Runs (RecordsDeleteHandler.handle deps tenant d) s { status := conflict } s := by
  unfold RecordsDeleteHandler.handle
  simp only [hadm.parsed, hadm.authenticated]
  refine (Stores.runs_query _ _ _).bind ?_
  simp only [hnewest, hbeaten, if_true]
  exact Program.runs_pure _ _

end Newest

end Delete

end Handler

end EnboxDwn
