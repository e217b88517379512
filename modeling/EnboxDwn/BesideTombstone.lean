import EnboxDwn.RecordState
import EnboxDwn.ReplicationApply

/-! The path of replication that stores a write beside the tombstone that beats it: the
write becomes a non-latest row, and the tombstone then shows its visibility facts. -/
namespace EnboxDwn
open KeyValues Journal MessageStore StorageController TombstoneMachine

variable [P : Platform]

/-! ## Delivering one message -/

namespace Dwn
variable {deps : ReplicationDependencies} {tenant : Did} {message : GenericMessage}
  {dataStream : Option P.Data} {confirm : Bool} {s : Stores}

structure Passes (deps : ReplicationDependencies) (tenant : Did) (message : GenericMessage) :
    Prop where
  active : deps.isActiveTenant tenant = true
  intact : deps.validateMessageIntegrity message = .ok ()

/-- A message that is not stored yet goes through its handler and then, if a tombstone
beats it, through the path beside the tombstone. -/
theorem final_applyReplicatedMessage (hpass : Passes deps tenant message)
    (hunstored : ∀ r ∈ (s.messages tenant).rows, r.cid ≠ P.computeCid message) :
    (applyReplicatedMessage deps tenant message dataStream confirm).final s =
      (processMessage deps tenant message dataStream >>=
        storeReplicatedWriteBeatenByDelete deps tenant message dataStream).final s := by
  have hfind : (find? (s.messages tenant) (P.computeCid message)).isSome = false := by
    rw [← Bool.not_eq_true, find?_isSome]
    intro ⟨r, hr, hc⟩
    exact hunstored r hr hc
  have hstate : duplicateStateOf tenant message dataStream confirm s = .unconfirmed := by
    unfold duplicateStateOf
    cases message <;> simp [hfind]
  have hnone (isRecordsWriteWithData : Bool) :
      resultIfDuplicate confirm false isRecordsWriteWithData .unconfirmed = none := by
    cases confirm <;> cases isRecordsWriteWithData <;> rfl
  unfold applyReplicatedMessage
  simp only [hpass.active, hpass.intact, Bool.not_true, Bool.false_eq_true, if_false]
  rw [(Program.runs_read _ _).final_bind, (Program.runs_read _ _).final_bind, hfind, hstate, hnone]
  dsimp only [Bool.false_and]
  cases hresult : (processMessage deps tenant message dataStream).result s with
  | error e => rw [Program.final_bind_error hresult, Program.final_bind_error hresult]
  | ok reply =>
    rw [Program.final_bind_ok hresult, Program.final_bind_ok hresult]
    refine Program.final_bind_silent fun result t => ?_
    cases result <;> rfl

theorem final_applyReplicatedMessage_unchanged
    (hhandle : (processMessage deps tenant message dataStream).final s = s)
    (hstore : ∀ reply,
      (storeReplicatedWriteBeatenByDelete deps tenant message dataStream reply).final s = s) :
    (applyReplicatedMessage deps tenant message dataStream confirm).final s = s := by
  unfold applyReplicatedMessage
  split
  · rfl
  split
  · rfl
  rw [(Program.runs_read _ _).final_bind, (Program.runs_read _ _).final_bind]
  dsimp only
  split
  · rfl
  cases hresult : (processMessage deps tenant message dataStream).result s with
  | error e => rw [Program.final_bind_error hresult, hhandle]
  | ok reply =>
    rw [Program.final_bind_ok hresult, hhandle]
    split
    · rfl
    · rw [Program.final_bind_silent fun result t => ?_, hstore]
      cases result <;> rfl

/-- Only the reply to a write after a delete leads beside the tombstone. -/
theorem final_storeReplicatedWriteBeatenByDelete_other (reply : Reply)
    (hreply : startsWith reply.status.detail "RecordsWriteNotAllowedAfterDelete:" = false) :
    (storeReplicatedWriteBeatenByDelete deps tenant message dataStream reply).final s = s := by
  unfold storeReplicatedWriteBeatenByDelete
  cases message with
  | recordsWrite m =>
    simp only [hreply, Bool.not_false, if_true]
    rfl
  | recordsDelete d => rfl
  | modulesConfigure c => rfl

theorem processMessage_write (hpass : Passes deps tenant (.recordsWrite m)) :
    processMessage deps tenant (.recordsWrite m) dataStream =
      RecordsWriteHandler.handle deps.toHandlerDependencies tenant m dataStream := by
  simp [processMessage, hpass.active, hpass.intact]

theorem processMessage_delete (hpass : Passes deps tenant (.recordsDelete d)) :
    processMessage deps tenant (.recordsDelete d) dataStream =
      RecordsDeleteHandler.handle deps.toHandlerDependencies tenant d := by
  simp [processMessage, hpass.active, hpass.intact]

end Dwn

/-! ## Beside the tombstone -/

/-- The fingerprint scopes of a tombstone of the record of `i` that shows `v`. -/
def tombScopes (i v : RecordsWriteMessage) : List String :=
  Replication.globalDomain :: Replication.moduleDomain i.descriptor.module ::
    Replication.taggedDomains i.descriptor.module (get (v.descriptor.tags.getD []) "module")

omit P in
theorem scopes_tombstone (d : RecordsDeleteMessage) (i v : RecordsWriteMessage) :
    Replication.computeFingerprintScopes (.recordsDelete d) (RecordsDelete.constructIndexes d i v) =
      tombScopes i v := by
  have htag : get (RecordsDelete.constructIndexes d i v) "tag.module" =
      get (v.descriptor.tags.getD []) "module" := RecordsDelete.get_tag d i v "module"
  simp [Replication.computeFingerprintScopes, text, htag, GenericMessage.descriptorTag, tombScopes]

omit P in
/-- Scopes of tombstones of one record match only when they are the same. -/
theorem scopeSetsMatch_tombScopes (i v w : RecordsWriteMessage) :
    Replication.scopeSetsMatch (tombScopes i v) (tombScopes i w) = true ↔
      tombScopes i v = tombScopes i w := by
  constructor
  · intro h
    simp only [Replication.scopeSetsMatch, Bool.and_eq_true, beq_iff_eq, List.all_eq_true,
      List.contains_iff_mem] at h
    obtain ⟨hlength, hsub⟩ := h
    unfold tombScopes at hlength hsub ⊢
    obtain hw | ⟨x, hw, hglobal, hmodule⟩ := Replication.taggedDomains_cases
      i.descriptor.module (get (w.descriptor.tags.getD []) "module")
    · rw [hw] at hlength ⊢
      simp only [List.length_cons, List.length_nil, Nat.add_eq_right, List.length_eq_zero_iff,
        Nat.add_right_cancel_iff] at hlength
      rw [hlength]
    · have hx := hsub x (by simp [hw])
      simp only [List.mem_cons, hglobal, hmodule, false_or] at hx
      obtain hv | ⟨y, hv, -⟩ := Replication.taggedDomains_cases
        i.descriptor.module (get (v.descriptor.tags.getD []) "module")
      · simp [hv] at hx
      · rw [hv, List.mem_singleton] at hx
        rw [hv, hw, hx]
  · intro h
    rw [h]
    exact Replication.scopeSetsMatch_self _

section Beside
variable {deps : ReplicationDependencies} {tenant : Did} {rank : String → Nat} {queryable : Bool}
  {known : GenericMessage → Prop} {i m v : RecordsWriteMessage} {d : RecordsDeleteMessage}
  {pending : List Cid} {s : Stores} {log : Log} {st : State Age} {events : List (Event Age)}

def besideLog (log : Log) (m : RecordsWriteMessage) : Log where
  rows := log.rows ++
    [newRow log (RecordsWrite.stored m) (RecordsWrite.constructIndexes m false)]
  head := log.head + 1

theorem put_beside (hfresh : ∀ r ∈ log.rows, r.cid ≠ Message.getCid (RecordsWrite.stored m))
    (hroom : log.head + 1 < Replication.positionLimit) :
    MessageStore.put log (RecordsWrite.stored m) (RecordsWrite.constructIndexes m false) =
      .ok (.inserted (log.head + 1), besideLog log m) := by
  have hfind : (find? log (Message.getCid (RecordsWrite.stored m))).isSome = false := by
    rw [← Bool.not_eq_true, find?_isSome]
    intro ⟨r, hr, hc⟩
    exact hfresh r hr hc
  simp [MessageStore.put, hfind, assertInsertable, assertIndexable, constructIndexes_ne_nil,
    Replication.assertPositionEncodable, hroom, besideLog, pure, Except.pure]

theorem mem_recordRows_putBeside (hrecord : m.recordId = i.recordId) {r' : Row} :
    r' ∈ recordRows (besideLog log m) i.recordId ↔ r' ∈ recordRows log i.recordId ∨
      r' = newRow log (RecordsWrite.stored m) (RecordsWrite.constructIndexes m false) := by
  have hnew : (newRow log (RecordsWrite.stored m) (RecordsWrite.constructIndexes m false)
      ).message.belongsTo i.recordId = true := by
    simp [newRow, StoredMessage.belongsTo, RecordsWrite.stored, hrecord]
  simp only [mem_recordRows, besideLog, List.mem_append, List.mem_singleton]
  constructor
  · intro h
    obtain ⟨h, hb⟩ := h
    exact h.imp (fun h => ⟨h, hb⟩) id
  · intro h
    obtain ⟨h, hb⟩ | rfl := h
    · exact ⟨Or.inl h, hb⟩
    · exact ⟨Or.inr rfl, hnew⟩

theorem wellFormed_putBeside (wf : log.WellFormed)
    (hfresh : ∀ r ∈ log.rows, r.cid ≠ Message.getCid (RecordsWrite.stored m)) :
    (besideLog log m).WellFormed where
  distinct := by
    rw [besideLog, List.map_append]
    refine List.nodup_append.mpr ⟨wf.distinct, by simp, ?_⟩
    intro c hc c' hc' heq
    obtain ⟨r, hr, rfl⟩ := List.mem_map.mp hc
    rw [List.map_cons, List.map_nil, List.mem_singleton] at hc'
    exact hfresh r hr (heq.trans hc')
  indexed := by
    intro r hr
    obtain hr | hr := List.mem_append.mp hr
    · exact wf.indexed r hr
    · rw [List.mem_singleton.mp hr]
      exact ⟨false, rfl⟩
  scopes := by
    intro r hr
    obtain hr | hr := List.mem_append.mp hr
    · exact wf.scopes r hr
    · rw [List.mem_singleton.mp hr]
      exact Replication.scopeSetsMatch_self _

theorem Shows.putBeside (h : Shows i queryable log st) (hm : IsUpdateOf i m) {t : Bool × Age}
    (ht : st.tomb = some t) (hk : t.2 < RecordsWrite.age m)
    (hfresh : ∀ r ∈ log.rows, r.cid ≠ Message.getCid (RecordsWrite.stored m)) :
    Shows i queryable (besideLog log m)
      ⟨insert (RecordsWrite.age m) st.writes, RecordsWrite.age m, st.tomb⟩ := by
  have hrows := @mem_recordRows_putBeside _ i m log hm.recordId_eq
  constructor
  case wf => exact wellFormed_putBeside h.wf hfresh
  case initialStored =>
    obtain ⟨r, hr, hmsg⟩ := h.initialStored
    exact ⟨r, hrows.mpr (Or.inl hr), hmsg⟩
  case initialOnly =>
    intro r' hr' hinitial
    obtain hr | rfl := hrows.mp hr'
    · exact h.initialOnly r' hr hinitial
    · have hupdate := hm.not_initial
      rw [StoredMessage.isInitialWrite, newRow, asRecordsWrite_eq_some.mpr rfl, Option.any_some,
        hupdate] at hinitial
      cases hinitial
  case immutable =>
    intro r' hr' w hw
    obtain hr | rfl := hrows.mp hr'
    · exact h.immutable r' hr w hw
    · rw [newRow, RecordsWrite.stored, GenericMessage.recordsWrite.injEq] at hw
      rw [← hw, hm.immutable]
  case writes =>
    intro k
    rw [Finset.mem_insert, h.writes]
    constructor
    · intro hk
      obtain rfl | ⟨r, hr, hw⟩ := hk
      · exact ⟨_, hrows.mpr (Or.inr rfl), m, rfl, rfl⟩
      · exact ⟨r, hrows.mpr (Or.inl hr), hw⟩
    · intro hk
      obtain ⟨r', hr', w, hw, hage⟩ := hk
      obtain hr | rfl := hrows.mp hr'
      · exact Or.inr ⟨r', hr, w, hw, hage⟩
      · rw [newRow, RecordsWrite.stored, GenericMessage.recordsWrite.injEq] at hw
        exact Or.inl (by rw [← hage, hw])
  case tomb =>
    intro t'
    rw [h.tomb]
    constructor
    · intro hd
      obtain ⟨r, hr, hd⟩ := hd
      exact ⟨r, hrows.mpr (Or.inl hr), hd⟩
    · intro hd
      obtain ⟨r', hr', d, hd, heq⟩ := hd
      obtain hr | rfl := hrows.mp hr'
      · exact ⟨r', hr, d, hd, heq⟩
      · cases hd
  case latest =>
    have htop : topAge (⟨insert (RecordsWrite.age m) st.writes, RecordsWrite.age m, st.tomb⟩ :
        State Age) = topAge st := by
      simp only [topAge, ht]
    rw [htop]
    intro r' hr'
    obtain hr | rfl := hrows.mp hr'
    · exact h.latest r' hr
    · have hne : RecordsWrite.age m ≠ topAge st := by
        rw [topAge, ht]
        exact hk.ne'
      have hage : Message.age (newRow log (RecordsWrite.stored m)
          (RecordsWrite.constructIndexes m false)).message = RecordsWrite.age m := rfl
      rw [hage]
      simp [Row.isLatest, newRow, flag, hne]

theorem Sourced.putBeside (h : Sourced i log v) (hrecord : m.recordId = i.recordId) :
    Sourced i (besideLog log m) v := by
  have hrows := @mem_recordRows_putBeside _ i m log hrecord
  refine ⟨?_, ?_⟩
  · obtain ⟨r, hr, hv⟩ := h.1
    exact ⟨r, hrows.mpr (Or.inl hr), hv⟩
  · intro r' hr' d hd
    obtain hr | rfl := hrows.mp hr'
    · exact h.2 r' hr d hd
    · cases hd

theorem RecordState.putBeside
    (h : RecordState known i queryable rank tenant
      (Message.getCid (RecordsWrite.stored m) :: pending) s st)
    (hm : IsUpdateOf i m) (hparent : ∀ p, i.descriptor.parentId = some p → rank p < rank i.recordId)
    (hpending : Message.getCid (RecordsWrite.stored m) ∉ pending) (hknown : known (.recordsWrite m))
    {t : Bool × Age} (ht : st.tomb = some t) (hk : t.2 < RecordsWrite.age m) :
    RecordState known i queryable rank tenant pending
      (s.setLog tenant (besideLog (s.messages tenant) m))
      ⟨insert (RecordsWrite.age m) st.writes, RecordsWrite.age m, st.tomb⟩ := by
  have hfresh : ∀ r ∈ (s.messages tenant).rows, r.cid ≠ Message.getCid (RecordsWrite.stored m) :=
    fun r hr heq => h.unstored r hr (by simp [heq])
  have hrows : ∀ r' ∈ (besideLog (s.messages tenant) m).rows,
      r' ∈ (s.messages tenant).rows ∨ r' = newRow (s.messages tenant) (RecordsWrite.stored m)
        (RecordsWrite.constructIndexes m false) := by
    intro r' hr'
    simpa [besideLog] using hr'
  constructor
  case shows =>
    rw [Stores.messages_setLog]
    exact h.shows.putBeside hm ht hk hfresh
  case origin =>
    rw [Stores.messages_setLog]
    intro r' hr'
    obtain hr | rfl := (mem_recordRows_putBeside hm.recordId_eq).mp hr'
    · exact h.origin r' hr
    · exact hknown
  case ranked =>
    rw [Stores.messages_setLog]
    intro r' hr'
    obtain hr | rfl := hrows r' hr'
    · exact h.ranked r' hr
    · intro p hp
      rw [newRow, RecordsWrite.get_parentId, parentId_eq_of_immutable hm.immutable] at hp
      obtain ⟨p', hp', heq⟩ := Option.map_eq_some_iff.mp hp
      have hpp : p' = p := by simpa [text] using heq
      have hlt := hparent p' hp'
      rw [hpp, ← hm.recordId_eq] at hlt
      exact hlt
  case sound => exact h.sound
  case unstored =>
    rw [Stores.messages_setLog]
    intro r' hr'
    obtain hr | rfl := hrows r' hr'
    · exact fun hc => h.unstored r' hr (by simp [hc])
    · exact hpending
  case room =>
    have hroom := h.room
    rw [List.length_cons] at hroom
    rw [Stores.messages_setLog, besideLog]
    dsimp only
    omega

def reindexRow (c : Cid) (indexes : KeyValues) (r : Row) : Row :=
  if c = r.cid then { r with indexes := indexes } else r

def reindexedLog (log : Log) (c : Cid) (indexes : KeyValues) : Log :=
  { log with rows := log.rows.map (reindexRow c indexes) }

section Reindex
variable {c : Cid} {indexes : KeyValues} {r : Row}

@[simp] theorem reindexRow_message : (reindexRow c indexes r).message = r.message := by
  unfold reindexRow
  split <;> rfl

@[simp] theorem reindexRow_cid : (reindexRow c indexes r).cid = r.cid := by
  simp [Row.cid]

theorem reindexRow_of_eq (h : c = r.cid) :
    reindexRow c indexes r = { r with indexes := indexes } := if_pos h

theorem reindexRow_of_ne (h : c ≠ r.cid) : reindexRow c indexes r = r := if_neg h

theorem recordRows_reindexed (recordId : String) :
    recordRows (reindexedLog log c indexes) recordId =
      (recordRows log recordId).map (reindexRow c indexes) := by
  simp only [recordRows, reindexedLog, List.filter_map, Function.comp_def, reindexRow_message]

theorem Shows.reindexed (h : Shows i queryable log st)
    (wf : (reindexedLog log c indexes).WellFormed)
    (hlatest : ∀ r ∈ recordRows log i.recordId, c = r.cid →
      get indexes "isLatestBaseState" = get r.indexes "isLatestBaseState") :
    Shows i queryable (reindexedLog log c indexes) st := by
  have hflag : ∀ r ∈ recordRows log i.recordId, (reindexRow c indexes r).isLatest = r.isLatest := by
    intro r hr
    by_cases hc : c = r.cid
    · rw [reindexRow_of_eq hc, Row.isLatest, Row.isLatest, hlatest r hr hc]
    · rw [reindexRow_of_ne hc]
  constructor
  case wf => exact wf
  case initialStored => simpa [recordRows_reindexed] using h.initialStored
  case initialOnly => simpa [recordRows_reindexed] using h.initialOnly
  case immutable => simpa [recordRows_reindexed] using h.immutable
  case writes => simpa [recordRows_reindexed] using h.writes
  case tomb => simpa [recordRows_reindexed] using h.tomb
  case latest =>
    simp only [recordRows_reindexed, List.forall_mem_map, reindexRow_message]
    intro r hr
    rw [hflag r hr]
    exact h.latest r hr

theorem updateIndexes_ok (wf : log.WellFormed) (hr : r ∈ log.rows)
    (hindexes : indexes.isEmpty = false)
    (hmatch : Replication.scopeSetsMatch r.fingerprintScopes
      (Replication.computeFingerprintScopes r.message.message indexes) = true) :
    updateIndexes log r.cid indexes = .ok ((), reindexedLog log r.cid indexes) := by
  have hfind : find? log r.cid = some r := Selection.find?_of_nodup_map wf.distinct hr
  simp [updateIndexes, getLogEntryForMutation, hfind, hmatch, hindexes, assertIndexable,
    Replication.assertFingerprintScopesUntouched, reindexedLog, reindexRow, pure, Except.pure]

theorem updateIndexes_refused (wf : log.WellFormed) (hr : r ∈ log.rows)
    (hmatch : Replication.scopeSetsMatch r.fingerprintScopes
      (Replication.computeFingerprintScopes r.message.message indexes) = false) :
    ∃ e, updateIndexes log r.cid indexes = .error e := by
  have hfind : find? log r.cid = some r := Selection.find?_of_nodup_map wf.distinct hr
  simp [updateIndexes, getLogEntryForMutation, hfind, hmatch,
    Replication.assertFingerprintScopesUntouched]

end Reindex

/-- The tombstone of the record may show another write when its scopes stay the same. -/
theorem RecordState.reindexed (h : RecordState known i queryable rank tenant pending s st)
    (hs : Sourced i (s.messages tenant) v) {rd : Row}
    (hrd : rd ∈ recordRows (s.messages tenant) i.recordId)
    (hd : rd.message.message = .recordsDelete d)
    (hm : ∃ r ∈ recordRows (s.messages tenant) i.recordId, r.message.message = .recordsWrite m)
    (hscopes : tombScopes i v = tombScopes i m) :
    RecordState known i queryable rank tenant pending
        (s.setLog tenant (reindexedLog (s.messages tenant) rd.cid
          (RecordsDelete.constructIndexes d i m))) st ∧
      Sourced i (reindexedLog (s.messages tenant) rd.cid (RecordsDelete.constructIndexes d i m)) m := by
  have wf := h.shows.wf
  obtain ⟨hrow, hb⟩ := mem_recordRows.mp hrd
  have hrecord : d.descriptor.recordId = i.recordId := by
    simpa [StoredMessage.belongsTo, hd] using hb
  obtain ⟨hindexes, hrdscopes⟩ := hs.2 rd hrd d hd
  rw [hindexes, hd, scopes_tombstone, hscopes, ← scopes_tombstone d] at hrdscopes
  have hrows : ∀ r' ∈ (reindexedLog (s.messages tenant) rd.cid
      (RecordsDelete.constructIndexes d i m)).rows, r' ∈ (s.messages tenant).rows ∨
        r' = { rd with indexes := RecordsDelete.constructIndexes d i m } := by
    intro r' hr'
    obtain ⟨r, hr, rfl⟩ := List.mem_map.mp hr'
    by_cases hc : rd.cid = r.cid
    · rw [reindexRow_of_eq hc, ← wf.eq_of_cid hrow hr hc]
      exact Or.inr rfl
    · rw [reindexRow_of_ne hc]
      exact Or.inl hr
  have wf' : (reindexedLog (s.messages tenant) rd.cid
      (RecordsDelete.constructIndexes d i m)).WellFormed := by
    refine ⟨?_, fun r' hr' => ?_, fun r' hr' => ?_⟩
    · simpa [reindexedLog, Function.comp_def] using wf.distinct
    · obtain hr | rfl := hrows r' hr'
      · exact wf.indexed r' hr
      · simp only [Row.Indexed, hd]
        exact ⟨i, m, hrecord.symm, rfl⟩
    · obtain hr | rfl := hrows r' hr'
      · exact wf.scopes r' hr
      · simp only [Row.Scoped, hd, hrdscopes]
        exact Replication.scopeSetsMatch_self _
  refine ⟨⟨?_, ?_, ?_, h.sound, ?_, ?_⟩, ?_⟩
  · rw [Stores.messages_setLog]
    refine h.shows.reindexed wf' fun r hr hc => ?_
    rw [← wf.eq_of_cid hrow (mem_recordRows.mp hr).1 hc, hindexes]
    simp
  · rw [Stores.messages_setLog, recordRows_reindexed]
    simpa using h.origin
  · rw [Stores.messages_setLog]
    intro r' hr'
    obtain hr | rfl := hrows r' hr'
    · exact h.ranked r' hr
    · intro p hp
      refine h.ranked rd hrow p ?_
      rw [hindexes, RecordsDelete.get_parentId]
      rwa [RecordsDelete.get_parentId] at hp
  · rw [Stores.messages_setLog]
    simpa [reindexedLog] using h.unstored
  · rw [Stores.messages_setLog]
    exact h.room
  · refine ⟨?_, ?_⟩
    · rw [recordRows_reindexed]
      simpa using hm
    · intro r' hr' d' hd'
      rw [recordRows_reindexed] at hr'
      obtain ⟨r, hr, rfl⟩ := List.mem_map.mp hr'
      rw [reindexRow_message] at hd'
      -- there is only one tombstone
      have htomb := (h.shows.tomb _).mpr ⟨r, hr, d', hd', rfl⟩
      have htomb' := (h.shows.tomb _).mpr ⟨rd, hrd, d, hd, rfl⟩
      rw [htomb, Option.some.injEq, Prod.mk.injEq, ← age_of_delete hd, ← age_of_delete hd'] at htomb'
      have heq := wf.eq_of_cid (mem_recordRows.mp hr).1 hrow (Message.getCid_eq_of_age_eq htomb'.2)
      subst heq
      rw [reindexRow_of_eq rfl]
      rw [hd, GenericMessage.recordsDelete.injEq] at hd'
      subst hd'
      exact ⟨rfl, by rw [hd]; exact hrdscopes⟩

theorem Shows.getNewestRecordsDelete_existing (h : Shows i queryable log st) {t : Bool × Age}
    (ht : st.tomb = some t) :
    ∃ r ∈ recordRows log i.recordId, ∃ d, r.message.message = .recordsDelete d ∧
      Records.getNewestRecordsDelete (existing i log) = some d := by
  obtain ⟨r, hr, d, hd, hdt⟩ := (h.tomb t).mp ht
  have hmem : r.message ∈ existing i log := h.mem_existing.mpr ⟨r, hr, rfl⟩
  have hnewest : Message.getNewestMessage
      ((existing i log).filter StoredMessage.isRecordsDelete) = some r.message := by
    refine Message.getNewestMessage_eq_of_greatest ?_ ?_ ?_
    · exact List.mem_filter.mpr ⟨hmem, by simp [StoredMessage.isRecordsDelete, hd]⟩
    · intro x hx
      obtain ⟨hx, hdelete⟩ := List.mem_filter.mp hx
      obtain ⟨r', hr', rfl⟩ := h.mem_existing.mp hx
      obtain ⟨w, hw⟩ | ⟨d', hd'⟩ := message_cases hr'
      · simp [StoredMessage.isRecordsDelete, hw] at hdelete
      · have ht' := (h.tomb _).mpr ⟨r', hr', d', hd', rfl⟩
        rw [ht, Option.some.injEq, ← hdt, Prod.mk.injEq] at ht'
        rw [age_of_delete hd', age_of_delete hd, ht'.2]
    · intro x hx hc
      exact h.eq_of_cid (List.mem_filter.mp hx).1 hmem hc
  exact ⟨r, hr, d, hd, by simp [Records.getNewestRecordsDelete, hnewest, hd]⟩

/-- A write newer than all others is the one the tombstone should show. -/
theorem Shows.getNewestRecordsWrite_append (h : Shows i queryable log st)
    (hst : Reached (RecordsWrite.age i) events st) (hm : st.newest < RecordsWrite.age m) :
    Records.getNewestRecordsWrite (existing i log ++ [RecordsWrite.stored m]) = some m := by
  have hle : ∀ x ∈ (existing i log).filter StoredMessage.isRecordsWrite,
      Message.age x < RecordsWrite.age m := by
    intro x hx
    obtain ⟨hx, hwrite⟩ := List.mem_filter.mp hx
    obtain ⟨r, hr, rfl⟩ := h.mem_existing.mp hx
    obtain ⟨w, hw⟩ | ⟨d, hd⟩ := message_cases hr
    · rw [age_of_write hw]
      exact (h.write_le_newest hst hr hw).trans_lt hm
    · simp [StoredMessage.isRecordsWrite, hd, Records.isRecordsWrite] at hwrite
  have hfilter : (existing i log ++ [RecordsWrite.stored m]).filter StoredMessage.isRecordsWrite =
      (existing i log).filter StoredMessage.isRecordsWrite ++ [RecordsWrite.stored m] := by
    rw [List.filter_append]
    rfl
  have hnewest : Message.getNewestMessage
      ((existing i log ++ [RecordsWrite.stored m]).filter StoredMessage.isRecordsWrite) =
      some (RecordsWrite.stored m) := by
    rw [hfilter]
    refine Selection.selectBy_eq_of_greatest Message.isNewer_iff (by simp) ?_ ?_
    · intro x hx
      obtain hx | hx := List.mem_append.mp hx
      · exact (hle x hx).le
      · rw [List.mem_singleton.mp hx]
    · intro x hx hage
      obtain hx | hx := List.mem_append.mp hx
      · exact absurd hage (hle x hx).ne
      · exact List.mem_singleton.mp hx
  rw [Records.getNewestRecordsWrite, hnewest]
  rfl

structure BesideAdmissible (deps : ReplicationDependencies) (tenant : Did)
    (m : RecordsWriteMessage) (data : P.Data) (s : Stores) : Prop where
  preProcessed : deps.corePreProcessWrite s tenant m = .ok ()
  validated : m.descriptor.dataSize ≤ maxDataSizeAllowedToBeEncoded →
    deps.coreValidateRecord m data = .ok ()

theorem BesideAdmissible.validate {data : P.Data} (h : BesideAdmissible deps tenant m data s)
    (hdata : CarriesData m data) (existing : List StoredMessage) :
    Dwn.validateReplicatedWriteBeatenByDeleteOrThrow deps tenant m existing (some data) s =
      .ok () := by
  obtain ⟨hcid, hlength⟩ := hdata
  simp only [Dwn.validateReplicatedWriteBeatenByDeleteOrThrow, h.preProcessed, ok_bind,
    Dwn.validateReplicatedWriteBeatenByDeleteDataStream, hcid, hlength, validateDataIntegrity_self]
  split
  · next hsmall => exact h.validated hsmall
  · rfl

/-- A newer write of a deleted record is stored beside the tombstone; the tombstone shows
it from then on, unless that would change the tombstone's fingerprint scopes. -/
theorem RecordState.storeBeside {data : P.Data}
    (h : RecordState known i queryable rank tenant
      (Message.getCid (RecordsWrite.stored m) :: pending) s st)
    (hst : Reached (RecordsWrite.age i) events st) (hi : RecordsWrite.isInitialWrite i = true)
    (hm : IsUpdateOf i m) (hparent : ∀ p, i.descriptor.parentId = some p → rank p < rank i.recordId)
    (hpending : Message.getCid (RecordsWrite.stored m) ∉ pending) (hknown : known (.recordsWrite m))
    (hdata : CarriesData m data) {t : Bool × Age} (ht : st.tomb = some t) (hlt : st.newest < t.2)
    (hk : t.2 < RecordsWrite.age m) (hs : Sourced i (s.messages tenant) v)
    (hparsed : RecordsWrite.parse deps.toHandlerDependencies m = .ok ())
    (hdeletes : ∀ d, known (.recordsDelete d) →
      RecordsDelete.parse deps.toHandlerDependencies d = .ok ())
    (hadm : BesideAdmissible deps tenant m data s) {reply : Reply}
    (hreply : startsWith reply.status.detail "RecordsWriteNotAllowedAfterDelete:" = true)
    {s' : Stores} (hs' : s' = (Dwn.storeReplicatedWriteBeatenByDelete deps tenant
      (.recordsWrite m) (some data) reply).final s) :
    RecordState known i queryable rank tenant pending s'
        ⟨insert (RecordsWrite.age m) st.writes, RecordsWrite.age m, st.tomb⟩ ∧
      ((tombScopes i v = tombScopes i m ∧ Sourced i (s'.messages tenant) m) ∨
        (tombScopes i v ≠ tombScopes i m ∧ Sourced i (s'.messages tenant) v)) := by
  have hfresh : ∀ r ∈ (s.messages tenant).rows, r.cid ≠ Message.getCid (RecordsWrite.stored m) :=
    fun r hr heq => h.unstored r hr (by simp [heq])
  have hroom := h.room
  rw [List.length_cons] at hroom
  obtain ⟨rd, hrd, d, hd, hnewest⟩ := h.shows.getNewestRecordsDelete_existing ht
  have hput : (MessageStore.put (s.messages tenant) (RecordsWrite.stored m)
      (RecordsWrite.constructIndexes m false)).map (fun r => (r.1, s.setLog tenant r.2)) =
      .ok (.inserted ((s.messages tenant).head + 1),
        s.setLog tenant (besideLog (s.messages tenant) m)) := by
    rw [put_beside hfresh (by omega)]
    rfl
  have hbeside := h.putBeside hm hparent hpending hknown ht hk
  have hsourced := hs.putBeside hm.recordId_eq
  have hrd' := (mem_recordRows_putBeside hm.recordId_eq).mpr (Or.inl hrd)
  have hstored : ∃ r ∈ recordRows (besideLog (s.messages tenant) m) i.recordId,
      r.message.message = .recordsWrite m :=
    ⟨_, (mem_recordRows_putBeside hm.recordId_eq).mpr (Or.inr rfl), rfl⟩
  have hcid : Message.getCid (RecordsDelete.stored d) = rd.cid := by
    simp only [Row.cid, Message.getCid, hd, RecordsDelete.stored]
  have hfinal : s' = (Stores.withLog tenant fun log => MessageStore.updateIndexes log rd.cid
      (RecordsDelete.constructIndexes d i m)).final
        (s.setLog tenant (besideLog (s.messages tenant) m)) := by
    rw [hs', Dwn.storeReplicatedWriteBeatenByDelete]
    simp only [hreply, Bool.not_true, Bool.false_eq_true, if_false]
    rw [(Stores.runs_query _ _ _).final_bind, hm.recordId_eq,
      (Program.runs_ofExcept (h.shows.getInitialWrite_existing hi) s).final_bind]
    simp only [hnewest]
    rw [(Program.runs_read _ _).final_bind, hadm.validate hdata]
    dsimp only
    rw [Program.final_bind_silent fun _ _ => rfl, Dwn.storeBesideTombstone,
      (Program.runs_ofExcept hparsed s).final_bind, Stores.withLog,
      (Program.runs_mutate hput).final_bind,
      (Program.runs_ofExcept (hdeletes d (hd ▸ h.origin rd hrd)) _).final_bind,
      h.shows.getNewestRecordsWrite_append hst (hlt.trans hk), Option.getD_some, hcid]
  have hlog := s.messages_setLog tenant (besideLog (s.messages tenant) m)
  have hrow : rd ∈ (besideLog (s.messages tenant) m).rows := (mem_recordRows.mp hrd').1
  obtain ⟨-, hscopes⟩ := hsourced.2 rd hrd' d hd
  rw [(hsourced.2 rd hrd' d hd).1, hd, scopes_tombstone] at hscopes
  have hmatch : Replication.scopeSetsMatch rd.fingerprintScopes
      (Replication.computeFingerprintScopes rd.message.message
        (RecordsDelete.constructIndexes d i m)) = true ↔ tombScopes i v = tombScopes i m := by
    rw [hscopes, hd, scopes_tombstone, scopeSetsMatch_tombScopes]
  have wf := hbeside.shows.wf
  rw [hlog] at wf
  by_cases heq : tombScopes i v = tombScopes i m
  · have hupdate : (updateIndexes ((s.setLog tenant
        (besideLog (s.messages tenant) m)).messages tenant) rd.cid
        (RecordsDelete.constructIndexes d i m)).map (fun r => (r.1,
          (s.setLog tenant (besideLog (s.messages tenant) m)).setLog tenant r.2)) = .ok ((),
        (s.setLog tenant (besideLog (s.messages tenant) m)).setLog tenant
          (reindexedLog (besideLog (s.messages tenant) m) rd.cid
            (RecordsDelete.constructIndexes d i m))) := by
      rw [hlog, updateIndexes_ok wf hrow rfl (hmatch.mpr heq)]
      rfl
    rw [hfinal, Stores.withLog, Program.final_mutate_ok hupdate]
    have hnew := hbeside.reindexed (by rwa [hlog]) (by rwa [hlog]) hd (by rwa [hlog]) heq
    rw [hlog] at hnew
    refine ⟨hnew.1, Or.inl ⟨heq, ?_⟩⟩
    rw [Stores.messages_setLog]
    exact hnew.2
  · obtain ⟨e, hrefused⟩ := updateIndexes_refused wf hrow
       (by
        rw [← Bool.not_eq_true]
        exact fun h => heq (hmatch.mp h))
    have hupdate : (updateIndexes ((s.setLog tenant
        (besideLog (s.messages tenant) m)).messages tenant) rd.cid
        (RecordsDelete.constructIndexes d i m)).map (fun r => (r.1,
          (s.setLog tenant (besideLog (s.messages tenant) m)).setLog tenant r.2)) = .error e := by
      rw [hlog, hrefused]
      rfl
    rw [hfinal, Stores.withLog, Program.final_mutate_error hupdate]
    exact ⟨hbeside, Or.inr ⟨heq, by rwa [hlog]⟩⟩

end Beside

end EnboxDwn
