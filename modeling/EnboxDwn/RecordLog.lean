import EnboxDwn.WellFormed
import EnboxDwn.Lib.TombstoneMachine

/-! The rows of one record as a state of the tombstone machine, and what a
latest-state transition planned on a fresh snapshot does to them. -/
namespace EnboxDwn
open KeyValues

variable [P : Platform]

namespace StorageController
open MessageStore

/-! ## The rows after a transition -/

/-- The log after a transition that inserts its message. -/
def committed (log : Log) (existing : List StoredMessage) (newMessage : StoredMessage)
    (indexes : KeyValues) (additional : List RecordsWriteMessage) : Log where
  rows := log.rows.filterMap (displaceRow existing newMessage additional) ++
    [newRow log newMessage indexes]
  head := log.head + 1

section Demote
variable (r : Row)

theorem demote_message : (demote r r.message).message.message = r.message.message := by
  unfold demote
  split <;> rfl

theorem cid_demote : (demote r r.message).cid = r.cid :=
  congrArg P.computeCid (demote_message r)

theorem age_demote : Message.age (demote r r.message).message = Message.age r.message := by
  simp only [Message.age, Message.getCid, demote_message]

theorem belongsTo_demote (recordId : String) :
    (demote r r.message).message.belongsTo recordId = r.message.belongsTo recordId := by
  simp only [StoredMessage.belongsTo, demote_message]

variable {r}

theorem demote_of_write {w : RecordsWriteMessage} (h : r.message.message = .recordsWrite w) :
    demote r r.message = { r with message := r.message.stripInlineData,
                                  indexes := RecordsWrite.constructIndexes w false } := by
  simp [demote, asRecordsWrite_eq_some.mpr h]

theorem isLatest_demote {w : RecordsWriteMessage} (h : r.message.message = .recordsWrite w) :
    (demote r r.message).isLatest = false := by
  rw [demote_of_write h]
  simp [Row.isLatest, flag]

theorem indexed_demote (h : r.Indexed) : (demote r r.message).Indexed := by
  cases hm : r.message.message with
  | recordsWrite w =>
    unfold Row.Indexed
    rw [demote_message, hm, demote_of_write hm]
    exact ⟨false, rfl⟩
  | recordsDelete d => simpa [demote, StoredMessage.asRecordsWrite, hm] using h
  | modulesConfigure m => simpa [demote, StoredMessage.asRecordsWrite, hm] using h

theorem scoped_demote (hindexed : r.Indexed) (h : r.Scoped) : (demote r r.message).Scoped := by
  cases hm : r.message.message with
  | recordsWrite w =>
    simp only [Row.Indexed, hm] at hindexed
    obtain ⟨latest, hlatest⟩ := hindexed
    unfold Row.Scoped at h ⊢
    rw [hm, hlatest, scopes_constructIndexes] at h
    rw [demote_message, hm, demote_of_write hm]
    dsimp only
    rwa [scopes_constructIndexes]
  | recordsDelete d => simpa [demote, StoredMessage.asRecordsWrite, hm] using h
  | modulesConfigure m => simpa [demote, StoredMessage.asRecordsWrite, hm] using h

end Demote

section Committed
variable {log : Log} {recordId : String} {existing : List StoredMessage}
  {newMessage : StoredMessage} {indexes : KeyValues} {additional : List RecordsWriteMessage}

theorem commitLatestState_fresh (wf : log.WellFormed) (snap : Snapshot log recordId existing)
    (hindexes : indexes.isEmpty = false)
    (hfresh : ∀ r ∈ log.rows, r.cid ≠ Message.getCid newMessage)
    (hroom : log.head + 1 < Replication.positionLimit) :
    commitLatestState log (planTransition existing newMessage indexes additional) =
      .ok (.inserted (log.head + 1), committed log existing newMessage indexes additional) := by
  have hok : assertCommittable log (planTransition existing newMessage indexes additional) =
      .ok () := assertCommittable_ok wf snap hindexes (Or.inr hroom)
  have hins : inserts log (planTransition existing newMessage indexes additional) = true := by
    have hnone : ¬ (find? log (Message.getCid newMessage)).isSome = true := by
      rw [find?_isSome]
      intro ⟨r, hr, hc⟩
      exact hfresh r hr hc
    simpa [inserts, planTransition] using hnone
  unfold commitLatestState
  rw [hok, ok_bind, if_pos hins, displace_planTransition snap.nodup]
  rfl

theorem mem_committed (wf : log.WellFormed) (snap : Snapshot log recordId existing)
    (hfresh : ∀ r ∈ log.rows, r.cid ≠ Message.getCid newMessage) {r' : Row} :
    r' ∈ (committed log existing newMessage indexes additional).rows ↔
      r' = newRow log newMessage indexes ∨
      (r' ∈ log.rows ∧ r'.message.belongsTo recordId = false) ∨
      ∃ r ∈ recordRows log recordId, shouldKeepAsNonLatestWrite additional r.message = true ∧
        r' = demote r r.message := by
  simp only [committed, List.mem_append, List.mem_filterMap, List.mem_singleton]
  constructor
  · intro h
    obtain ⟨r, hr, h⟩ | h := h
    · rw [displaceRow_of_snapshot wf snap hr] at h
      by_cases hb : r.message.belongsTo recordId = true
      · simp only [hb, Bool.true_eq_false, hfresh r hr, or_self, if_false] at h
        split at h
        · next hkeep =>
          cases h
          exact Or.inr (Or.inr ⟨r, mem_recordRows.mpr ⟨hr, hb⟩, hkeep, rfl⟩)
        · cases h
      · rw [Bool.not_eq_true] at hb
        simp only [hb, true_or, if_true, Option.some.injEq] at h
        subst h
        exact Or.inr (Or.inl ⟨hr, hb⟩)
    · exact Or.inl h
  · intro h
    obtain h | ⟨hr, hb⟩ | ⟨r, hr, hkeep, h⟩ := h
    · exact Or.inr h
    · refine Or.inl ⟨r', hr, ?_⟩
      rw [displaceRow_of_snapshot wf snap hr]
      simp [hb]
    · obtain ⟨hr, hb⟩ := mem_recordRows.mp hr
      refine Or.inl ⟨r, hr, ?_⟩
      rw [displaceRow_of_snapshot wf snap hr]
      simp [hb, hfresh r hr, hkeep, h]

/-- The record's rows after the transition: the new one and the retained writes. -/
theorem mem_recordRows_committed (wf : log.WellFormed) (snap : Snapshot log recordId existing)
    (hfresh : ∀ r ∈ log.rows, r.cid ≠ Message.getCid newMessage)
    (hnew : newMessage.belongsTo recordId = true) {r' : Row} :
    r' ∈ recordRows (committed log existing newMessage indexes additional) recordId ↔
      r' = newRow log newMessage indexes ∨
      ∃ r ∈ recordRows log recordId, shouldKeepAsNonLatestWrite additional r.message = true ∧
        r' = demote r r.message := by
  rw [mem_recordRows, mem_committed wf snap hfresh]
  constructor
  · intro ⟨h, hb⟩
    obtain h | ⟨-, hb'⟩ | h := h
    · exact Or.inl h
    · rw [hb] at hb'
      cases hb'
    · exact Or.inr h
  · intro h
    obtain h | ⟨r, hr, hkeep, h⟩ := h
    · exact ⟨Or.inl h, by rw [h]; exact hnew⟩
    · exact ⟨Or.inr (Or.inr ⟨r, hr, hkeep, h⟩),
        by rw [h, belongsTo_demote]; exact (mem_recordRows.mp hr).2⟩

theorem wellFormed_committed (wf : log.WellFormed) (snap : Snapshot log recordId existing)
    (hfresh : ∀ r ∈ log.rows, r.cid ≠ Message.getCid newMessage)
    (hindexed : (newRow log newMessage indexes).Indexed) :
    (committed log existing newMessage indexes additional).WellFormed where
  distinct := by
    simp only [committed, List.map_append, List.map_cons, List.map_nil]
    refine List.nodup_append.mpr ⟨nodup_filterMap_displaceRow wf.distinct, by simp, ?_⟩
    intro c hc c' hc' heq
    rw [List.mem_singleton] at hc'
    obtain ⟨r', hr', rfl⟩ := List.mem_map.mp hc
    obtain ⟨r, hr, hdis⟩ := List.mem_filterMap.mp hr'
    exact hfresh r hr (by rw [← cid_of_displaceRow hdis, heq, hc']; rfl)
  indexed := by
    intro r' hr'
    obtain rfl | ⟨hr, -⟩ | ⟨r, hr, -, rfl⟩ := (mem_committed wf snap hfresh).mp hr'
    · exact hindexed
    · exact wf.indexed r' hr
    · exact indexed_demote (wf.indexed r (mem_recordRows.mp hr).1)
  scopes := by
    intro r' hr'
    obtain rfl | ⟨hr, -⟩ | ⟨r, hr, -, rfl⟩ := (mem_committed wf snap hfresh).mp hr'
    · exact Replication.scopeSetsMatch_self _
    · exact wf.scopes r' hr
    · have hrow := (mem_recordRows.mp hr).1
      exact scoped_demote (wf.indexed r hrow) (wf.scopes r hrow)

end Committed

end StorageController

/-! ## The rows as a machine state -/

open MessageStore StorageController TombstoneMachine

abbrev Age := Timestamp ×ₗ Cid

/-- The messages of a record that are indexed as the latest base state. -/
def latestCids (log : Log) (recordId : String) : List Cid :=
  ((recordRows log recordId).filter Row.isLatest).map Row.cid

namespace RecordsWrite

def age (m : RecordsWriteMessage) : Age := Message.age (stored m)

end RecordsWrite

namespace RecordsDelete

def age (m : RecordsDeleteMessage) : Age := Message.age (stored m)

end RecordsDelete

theorem age_of_write {m : StoredMessage} {w : RecordsWriteMessage}
    (h : m.message = .recordsWrite w) : Message.age m = RecordsWrite.age w := by
  simp only [RecordsWrite.age, Message.age, Message.getCid, h, RecordsWrite.stored]

theorem age_of_delete {m : StoredMessage} {d : RecordsDeleteMessage}
    (h : m.message = .recordsDelete d) : Message.age m = RecordsDelete.age d := by
  simp only [RecordsDelete.age, Message.age, Message.getCid, h, RecordsDelete.stored]

/-- The age of the message presented as the current state. -/
def topAge (st : State Age) : Age :=
  match st.tomb with
  | some t => t.2
  | none => st.newest

omit P in
theorem topAge_eq (st : State Age) : topAge st = st.top.age := by
  unfold topAge State.top
  cases st.tomb <;> rfl

/-- The rows of the record of `i` hold the writes and the tombstone of the machine state,
and the top of the state is the latest row, except an initial write stored without data. -/
structure Shows (i : RecordsWriteMessage) (queryable : Bool) (log : Log) (st : State Age) :
    Prop where
  wf : log.WellFormed
  initialStored : ∃ r ∈ recordRows log i.recordId, r.message.message = .recordsWrite i
  initialOnly : ∀ r ∈ recordRows log i.recordId, r.message.isInitialWrite = true →
    r.message.message = .recordsWrite i
  immutable : ∀ r ∈ recordRows log i.recordId, ∀ w, r.message.message = .recordsWrite w →
    RecordsWrite.immutableProperties w.descriptor = RecordsWrite.immutableProperties i.descriptor
  writes : ∀ k, k ∈ st.writes ↔
    ∃ r ∈ recordRows log i.recordId, ∃ w, r.message.message = .recordsWrite w ∧
      RecordsWrite.age w = k
  tomb : ∀ t, st.tomb = some t ↔
    ∃ r ∈ recordRows log i.recordId, ∃ d, r.message.message = .recordsDelete d ∧
      (d.descriptor.prune, RecordsDelete.age d) = t
  latest : ∀ r ∈ recordRows log i.recordId, r.isLatest = true ↔
    Message.age r.message = topAge st ∧
      (Message.age r.message = RecordsWrite.age i → queryable = true)

/-- The tombstone of the record of `i` shows the visibility facts of the stored write `v`,
and its fingerprint scopes are those of its indexes. -/
def Sourced (i : RecordsWriteMessage) (log : Log) (v : RecordsWriteMessage) : Prop :=
  (∃ r ∈ recordRows log i.recordId, r.message.message = .recordsWrite v) ∧
  ∀ r ∈ recordRows log i.recordId, ∀ d, r.message.message = .recordsDelete d →
    r.indexes = RecordsDelete.constructIndexes d i v ∧
    r.fingerprintScopes = Replication.computeFingerprintScopes r.message.message r.indexes

namespace Shows
variable {i : RecordsWriteMessage} {queryable : Bool} {log : Log} {st : State Age}
  {events : List (Event Age)}

abbrev existing (i : RecordsWriteMessage) (log : Log) : List StoredMessage :=
  query log [recordFilter i.recordId]

theorem snapshot (h : Shows i queryable log st) : Snapshot log i.recordId (existing i log) :=
  snapshot_query h.wf i.recordId

theorem mem_existing (h : Shows i queryable log st) {m : StoredMessage} :
    m ∈ existing i log ↔ ∃ r ∈ recordRows log i.recordId, r.message = m :=
  h.snapshot.mem_iff m

theorem eq_of_cid (h : Shows i queryable log st) {m m' : StoredMessage}
    (hm : m ∈ existing i log) (hm' : m' ∈ existing i log)
    (hc : Message.getCid m = Message.getCid m') : m = m' :=
  List.inj_on_of_nodup_map h.snapshot.nodup hm hm' hc

theorem message_cases {r : Row} (hr : r ∈ recordRows log i.recordId) :
    (∃ w, r.message.message = .recordsWrite w) ∨ ∃ d, r.message.message = .recordsDelete d := by
  have hb := (mem_recordRows.mp hr).2
  cases hm : r.message.message with
  | recordsWrite w => exact Or.inl ⟨w, rfl⟩
  | recordsDelete d => exact Or.inr ⟨d, rfl⟩
  | modulesConfigure m => simp [StoredMessage.belongsTo, hm] at hb

theorem exists_newest_write (h : Shows i queryable log st)
    (hst : Reached (RecordsWrite.age i) events st) :
    ∃ r ∈ recordRows log i.recordId, ∃ w, r.message.message = .recordsWrite w ∧
      RecordsWrite.age w = st.newest :=
  (h.writes _).mp hst.newest_kept

theorem write_le_newest (h : Shows i queryable log st)
    (hst : Reached (RecordsWrite.age i) events st) {r : Row}
    (hr : r ∈ recordRows log i.recordId) {w : RecordsWriteMessage}
    (hw : r.message.message = .recordsWrite w) : RecordsWrite.age w ≤ st.newest :=
  hst.le_newest _ ((h.writes _).mpr ⟨r, hr, w, hw, rfl⟩)

theorem tomb_ne_newest (h : Shows i queryable log st)
    (hst : Reached (RecordsWrite.age i) events st) {t : Bool × Age} (ht : st.tomb = some t) :
    t.2 ≠ st.newest := by
  intro heq
  obtain ⟨rw, hrw, w, hw, hage⟩ := h.exists_newest_write hst
  obtain ⟨rd, hrd, d, hd, rfl⟩ := (h.tomb t).mp ht
  have hc : Message.getCid rw.message = Message.getCid rd.message := by
    apply Message.getCid_eq_of_age_eq
    rw [age_of_write hw, age_of_delete hd, hage, ← heq]
  have hrow := h.wf.eq_of_cid (mem_recordRows.mp hrw).1 (mem_recordRows.mp hrd).1 hc
  rw [← hrow, hw] at hd
  cases hd

/-- The newest message is the tombstone when it is newer than every write, else the
newest write. -/
theorem getNewestMessage_existing (h : Shows i queryable log st)
    (hst : Reached (RecordsWrite.age i) events st) :
    ∃ n, Message.getNewestMessage (existing i log) = some n ∧
      ((∃ t d, st.tomb = some t ∧ st.newest < t.2 ∧ n.message = .recordsDelete d ∧
          (d.descriptor.prune, RecordsDelete.age d) = t) ∨
        ((∀ t, st.tomb = some t → t.2 < st.newest) ∧
          ∃ w, n.message = .recordsWrite w ∧ RecordsWrite.age w = st.newest)) := by
  obtain ⟨rw, hrw, w, hw, hage⟩ := h.exists_newest_write hst
  have greatest : ∀ r ∈ recordRows log i.recordId,
      (∀ r' ∈ recordRows log i.recordId, Message.age r'.message ≤ Message.age r.message) →
      Message.getNewestMessage (existing i log) = some r.message := by
    intro r hr hmax
    have hmem : r.message ∈ existing i log := h.mem_existing.mpr ⟨r, hr, rfl⟩
    refine Message.getNewestMessage_eq_of_greatest hmem ?_ fun m hm hc => h.eq_of_cid hm hmem hc
    intro m hm
    obtain ⟨r', hr', rfl⟩ := h.mem_existing.mp hm
    exact hmax r' hr'
  have bounded : ∀ k, st.newest ≤ k → (∀ t, st.tomb = some t → t.2 ≤ k) →
      ∀ r ∈ recordRows log i.recordId, Message.age r.message ≤ k := by
    intro k hnewest htomb r hr
    obtain ⟨w', hw'⟩ | ⟨d, hd⟩ := message_cases hr
    · rw [age_of_write hw']
      exact (h.write_le_newest hst hr hw').trans hnewest
    · rw [age_of_delete hd]
      exact htomb _ ((h.tomb _).mpr ⟨r, hr, d, hd, rfl⟩)
  by_cases hdel : ∃ t, st.tomb = some t ∧ st.newest < t.2
  · obtain ⟨t, ht, hlt⟩ := hdel
    obtain ⟨rd, hrd, d, hd, hdt⟩ := (h.tomb t).mp ht
    refine ⟨rd.message, greatest rd hrd ?_, Or.inl ⟨t, d, ht, hlt, hd, hdt⟩⟩
    rw [age_of_delete hd, show RecordsDelete.age d = t.2 from congrArg Prod.snd hdt]
    refine bounded t.2 hlt.le fun t' ht' => ?_
    rw [ht, Option.some.injEq] at ht'
    rw [ht']
  · have hold : ∀ t, st.tomb = some t → t.2 < st.newest := by
      intro t ht
      have hle : t.2 ≤ st.newest := not_lt.mp fun hlt => hdel ⟨t, ht, hlt⟩
      exact lt_of_le_of_ne hle (h.tomb_ne_newest hst ht)
    refine ⟨rw.message, greatest rw hrw ?_, Or.inr ⟨hold, w, hw, hage⟩⟩
    rw [age_of_write hw, hage]
    exact bounded st.newest le_rfl fun t ht => (hold t ht).le

theorem getInitialWrite_existing (h : Shows i queryable log st)
    (hi : RecordsWrite.isInitialWrite i = true) :
    RecordsWrite.getInitialWrite (existing i log) = .ok i := by
  obtain ⟨ri, hri, hmsg⟩ := h.initialStored
  have hmem : ri.message ∈ existing i log := h.mem_existing.mpr ⟨ri, hri, rfl⟩
  have hinitial : ri.message.isInitialWrite = true := by
    simp [StoredMessage.isInitialWrite, asRecordsWrite_eq_some.mpr hmsg, hi]
  obtain ⟨m, hfind⟩ := Option.isSome_iff_exists.mp
    (List.find?_isSome.mpr ⟨ri.message, hmem, hinitial⟩)
  obtain ⟨r, hr, rfl⟩ := h.mem_existing.mp (List.mem_of_find?_eq_some hfind)
  have hi' := h.initialOnly r hr (List.find?_some hfind)
  simp [RecordsWrite.getInitialWrite, hfind, asRecordsWrite_eq_some.mpr hi']

theorem getNewestRecordsWrite_existing (h : Shows i queryable log st)
    (hst : Reached (RecordsWrite.age i) events st) :
    ∃ r ∈ recordRows log i.recordId, ∃ v, r.message.message = .recordsWrite v ∧
      RecordsWrite.age v = st.newest ∧
      Records.getNewestRecordsWrite (existing i log) = some v := by
  obtain ⟨r, hr, v, hv, hage⟩ := h.exists_newest_write hst
  have hmem : r.message ∈ existing i log := h.mem_existing.mpr ⟨r, hr, rfl⟩
  have hnewest : Message.getNewestMessage
      ((existing i log).filter StoredMessage.isRecordsWrite) = some r.message := by
    refine Message.getNewestMessage_eq_of_greatest ?_ ?_ ?_
    · exact List.mem_filter.mpr ⟨hmem, by simp [StoredMessage.isRecordsWrite, hv,
        Records.isRecordsWrite]⟩
    · intro m hm
      obtain ⟨hm, hwrite⟩ := List.mem_filter.mp hm
      obtain ⟨r', hr', rfl⟩ := h.mem_existing.mp hm
      obtain ⟨w', hw'⟩ | ⟨d, hd⟩ := message_cases hr'
      · rw [age_of_write hw', age_of_write hv, hage]
        exact h.write_le_newest hst hr' hw'
      · simp [StoredMessage.isRecordsWrite, hd, Records.isRecordsWrite] at hwrite
    · intro m hm hc
      exact h.eq_of_cid (List.mem_filter.mp hm).1 hmem hc
  exact ⟨r, hr, v, hv, hage, by
    simp [Records.getNewestRecordsWrite, hnewest, asRecordsWrite_eq_some.mpr hv]⟩

/-! ## Transitions -/

section Commit
variable {m : RecordsWriteMessage} {d : RecordsDeleteMessage} {newMessage : StoredMessage}

/-- With nothing else to retain only the initial write stays. -/
theorem mem_recordRows_committed_write (h : Shows i queryable log st)
    (hi : RecordsWrite.isInitialWrite i = true) (hm : newMessage.message = .recordsWrite m)
    (hrecord : m.recordId = i.recordId)
    (hfresh : ∀ r ∈ log.rows, r.cid ≠ Message.getCid newMessage) {indexes : KeyValues} {r' : Row} :
    r' ∈ recordRows (committed log (existing i log) newMessage indexes []) i.recordId ↔
      r' = newRow log newMessage indexes ∨
      ∃ r ∈ recordRows log i.recordId, r.message.message = .recordsWrite i ∧
        r' = demote r r.message := by
  rw [mem_recordRows_committed h.wf h.snapshot hfresh (by simp [StoredMessage.belongsTo, hm, hrecord])]
  refine or_congr_right (exists_congr fun r => and_congr_right fun hr => and_congr_left' ?_)
  have hkeep : shouldKeepAsNonLatestWrite [] r.message = r.message.isInitialWrite := by
    simp [shouldKeepAsNonLatestWrite]
  rw [hkeep]
  constructor
  · exact h.initialOnly r hr
  · intro hmsg
    simp [StoredMessage.isInitialWrite, asRecordsWrite_eq_some.mpr hmsg, hi]

theorem commitWrite (h : Shows i queryable log st) (hi : RecordsWrite.isInitialWrite i = true)
    (hst : Reached (RecordsWrite.age i) events st) (hm : newMessage.message = .recordsWrite m)
    (hrecord : m.recordId = i.recordId) (hupdate : RecordsWrite.isInitialWrite m = false)
    (himmutable : RecordsWrite.immutableProperties m.descriptor =
      RecordsWrite.immutableProperties i.descriptor)
    (hfresh : ∀ r ∈ log.rows, r.cid ≠ Message.getCid newMessage)
    (hnewer : st.newest < RecordsWrite.age m) :
    Shows i queryable (committed log (existing i log) newMessage
      (RecordsWrite.constructIndexes m true) [])
      ⟨{RecordsWrite.age i, RecordsWrite.age m}, RecordsWrite.age m, none⟩ := by
  have hrows := @mem_recordRows_committed_write _ i queryable log st m newMessage h hi hm hrecord
    hfresh (RecordsWrite.constructIndexes m true)
  have hfirst : RecordsWrite.age i < RecordsWrite.age m := hst.first_le.trans_lt hnewer
  obtain ⟨ri, hri, hmsgi⟩ := h.initialStored
  constructor
  case wf =>
    exact wellFormed_committed h.wf h.snapshot hfresh (by simp [Row.Indexed, newRow, hm])
  case initialStored =>
    exact ⟨_, hrows.mpr (Or.inr ⟨ri, hri, hmsgi, rfl⟩), by rw [demote_message, hmsgi]⟩
  case initialOnly =>
    intro r' hr' hinitial
    obtain rfl | ⟨r, -, hmsg, rfl⟩ := hrows.mp hr'
    · rw [StoredMessage.isInitialWrite, newRow, asRecordsWrite_eq_some.mpr hm, Option.any_some,
        hupdate] at hinitial
      cases hinitial
    · rw [demote_message, hmsg]
  case immutable =>
    intro r' hr' w hw
    obtain rfl | ⟨r, -, hmsg, rfl⟩ := hrows.mp hr'
    · rw [newRow, hm, GenericMessage.recordsWrite.injEq] at hw
      rw [← hw, himmutable]
    · rw [demote_message, hmsg, GenericMessage.recordsWrite.injEq] at hw
      rw [hw]
  case writes =>
    intro k
    simp only [Finset.mem_insert, Finset.mem_singleton]
    constructor
    · intro hk
      obtain rfl | rfl := hk
      · exact ⟨_, hrows.mpr (Or.inr ⟨ri, hri, hmsgi, rfl⟩), i, by rw [demote_message, hmsgi], rfl⟩
      · exact ⟨_, hrows.mpr (Or.inl rfl), m, hm, rfl⟩
    · intro hk
      obtain ⟨r', hr', w, hw, rfl⟩ := hk
      obtain rfl | ⟨r, -, hmsg, rfl⟩ := hrows.mp hr'
      · rw [newRow, hm, GenericMessage.recordsWrite.injEq] at hw
        exact Or.inr (by rw [hw])
      · rw [demote_message, hmsg, GenericMessage.recordsWrite.injEq] at hw
        exact Or.inl (by rw [hw])
  case tomb =>
    intro t
    simp only [reduceCtorEq, false_iff]
    intro hd
    obtain ⟨r', hr', d, hd, _⟩ := hd
    obtain rfl | ⟨r, -, hmsg, rfl⟩ := hrows.mp hr'
    · rw [newRow, hm] at hd
      cases hd
    · rw [demote_message, hmsg] at hd
      cases hd
  case latest =>
    intro r' hr'
    obtain rfl | ⟨r, -, hmsg, rfl⟩ := hrows.mp hr'
    · have hage : Message.age (newRow log newMessage (RecordsWrite.constructIndexes m true)).message =
          RecordsWrite.age m := age_of_write hm
      simp [Row.isLatest, newRow, topAge, ← hage, flag] at hfirst ⊢
      exact fun heq => absurd heq hfirst.ne'
    · simp [isLatest_demote hmsg, age_demote, age_of_write hmsg, topAge, hfirst.ne]

section Delete
variable (h : Shows i queryable log st)
    (hi : RecordsWrite.isInitialWrite i = true) (hrecord : d.descriptor.recordId = i.recordId)
    (hfresh : ∀ r ∈ log.rows, r.cid ≠ Message.getCid (RecordsDelete.stored d))
    {rv : Row} {v : RecordsWriteMessage} (hrv : rv ∈ recordRows log i.recordId)
    (hv : rv.message.message = .recordsWrite v)
include h hi hrecord hfresh hrv hv

/-- A delete retains the initial write and the newest write. -/
theorem mem_recordRows_committed_delete {indexes : KeyValues} {r' : Row} :
    r' ∈ recordRows (committed log (existing i log) (RecordsDelete.stored d) indexes [v])
        i.recordId ↔
      r' = newRow log (RecordsDelete.stored d) indexes ∨
      ∃ r ∈ recordRows log i.recordId,
        (r.message.message = .recordsWrite i ∨ r.message.message = .recordsWrite v) ∧
        r' = demote r r.message := by
  rw [mem_recordRows_committed h.wf h.snapshot hfresh
    (by simp [StoredMessage.belongsTo, RecordsDelete.stored, hrecord])]
  refine or_congr_right (exists_congr fun r => and_congr_right fun hr => and_congr_left' ?_)
  have hkeep : shouldKeepAsNonLatestWrite [v] r.message = true ↔
      r.message.isInitialWrite = true ∨
        Message.getCid r.message = Message.getCid (RecordsWrite.stored v) := by
    simp [shouldKeepAsNonLatestWrite]
  have hcv : rv.cid = Message.getCid (RecordsWrite.stored v) := by
    simp only [Row.cid, Message.getCid, hv, RecordsWrite.stored]
  rw [hkeep]
  refine or_congr ⟨h.initialOnly r hr, fun hmsg => ?_⟩ ⟨fun hc => ?_, fun hmsg => ?_⟩
  · simp [StoredMessage.isInitialWrite, asRecordsWrite_eq_some.mpr hmsg, hi]
  · rw [← hcv] at hc
    rw [h.wf.eq_of_cid (mem_recordRows.mp hr).1 (mem_recordRows.mp hrv).1 hc, hv]
  · simp only [Message.getCid, hmsg, RecordsWrite.stored]

/-- A performed delete leaves the tombstone beside the initial and the newest write. -/
theorem commitDelete (hnewest : RecordsWrite.age v = st.newest) :
    Shows i queryable (committed log (existing i log) (RecordsDelete.stored d)
      (RecordsDelete.constructIndexes d i v) [v])
      ⟨{RecordsWrite.age i, st.newest}, st.newest,
        some (d.descriptor.prune, RecordsDelete.age d)⟩ := by
  have hrows := @mem_recordRows_committed_delete _ i queryable log st d h hi hrecord hfresh rv v hrv
    hv (RecordsDelete.constructIndexes d i v)
  have hne : ∀ r ∈ recordRows log i.recordId, Message.age r.message ≠ RecordsDelete.age d :=
    fun r hr heq => hfresh r (mem_recordRows.mp hr).1 (Message.getCid_eq_of_age_eq heq)
  obtain ⟨ri, hri, hmsgi⟩ := h.initialStored
  have hkeepi : demote ri ri.message ∈ recordRows (committed log (existing i log)
      (RecordsDelete.stored d) (RecordsDelete.constructIndexes d i v) [v]) i.recordId :=
    hrows.mpr (Or.inr ⟨ri, hri, Or.inl hmsgi, rfl⟩)
  have hkeepv : demote rv rv.message ∈ recordRows (committed log (existing i log)
      (RecordsDelete.stored d) (RecordsDelete.constructIndexes d i v) [v]) i.recordId :=
    hrows.mpr (Or.inr ⟨rv, hrv, Or.inr hv, rfl⟩)
  constructor
  case wf =>
    refine wellFormed_committed h.wf h.snapshot hfresh ?_
    simp only [Row.Indexed, newRow, RecordsDelete.stored]
    exact ⟨i, v, hrecord.symm, rfl⟩
  case initialStored => exact ⟨_, hkeepi, by rw [demote_message, hmsgi]⟩
  case initialOnly =>
    intro r' hr' hinitial
    obtain rfl | ⟨r, hr, -, rfl⟩ := hrows.mp hr'
    · cases hinitial
    · rw [demote_message]
      refine h.initialOnly r hr ?_
      simpa only [StoredMessage.isInitialWrite, StoredMessage.asRecordsWrite, demote_message]
        using hinitial
  case immutable =>
    intro r' hr' w hw
    obtain rfl | ⟨r, hr, -, rfl⟩ := hrows.mp hr'
    · cases hw
    · exact h.immutable r hr w (by rwa [demote_message] at hw)
  case writes =>
    intro k
    simp only [Finset.mem_insert, Finset.mem_singleton]
    constructor
    · intro hk
      obtain rfl | rfl := hk
      · exact ⟨_, hkeepi, i, by rw [demote_message, hmsgi], rfl⟩
      · exact ⟨_, hkeepv, v, by rw [demote_message, hv], hnewest⟩
    · intro hk
      obtain ⟨r', hr', w, hw, rfl⟩ := hk
      obtain rfl | ⟨r, -, hmsg, rfl⟩ := hrows.mp hr'
      · cases hw
      · rw [demote_message] at hw
        obtain hmsg | hmsg := hmsg
        · rw [hmsg, GenericMessage.recordsWrite.injEq] at hw
          exact Or.inl (by rw [hw])
        · rw [hmsg, GenericMessage.recordsWrite.injEq] at hw
          exact Or.inr (by rw [← hw, hnewest])
  case tomb =>
    intro t
    rw [Option.some.injEq]
    constructor
    · intro ht
      exact ⟨_, hrows.mpr (Or.inl rfl), d, rfl, ht⟩
    · intro ht
      obtain ⟨r', hr', d', hd', ht⟩ := ht
      obtain rfl | ⟨r, -, hmsg, rfl⟩ := hrows.mp hr'
      · rw [newRow, RecordsDelete.stored, GenericMessage.recordsDelete.injEq] at hd'
        rw [← ht, hd']
      · rw [demote_message] at hd'
        obtain hmsg | hmsg := hmsg
        · rw [hmsg] at hd'
          cases hd'
        · rw [hmsg] at hd'
          cases hd'
  case latest =>
    intro r' hr'
    obtain rfl | ⟨r, hr, hmsg, rfl⟩ := hrows.mp hr'
    · have hfirst : RecordsDelete.age d ≠ RecordsWrite.age i := by
        rw [← age_of_write hmsgi]
        exact (hne ri hri).symm
      simp only [Row.isLatest, newRow, RecordsDelete.get_isLatestBaseState, topAge]
      exact ⟨fun _ => ⟨rfl, fun heq => absurd heq hfirst⟩, fun _ => by simp⟩
    · have hlatest : (demote r r.message).isLatest = false := by
        obtain hmsg | hmsg := hmsg
        · exact isLatest_demote hmsg
        · exact isLatest_demote hmsg
      simp [hlatest, age_demote, topAge, hne r hr]

theorem sourced_commitDelete :
    Sourced i (committed log (existing i log) (RecordsDelete.stored d)
      (RecordsDelete.constructIndexes d i v) [v]) v := by
  have hrows := @mem_recordRows_committed_delete _ i queryable log st d h hi hrecord hfresh rv v hrv
    hv (RecordsDelete.constructIndexes d i v)
  refine ⟨⟨demote rv rv.message, ?_, by rw [demote_message, hv]⟩, ?_⟩
  · exact hrows.mpr (Or.inr ⟨rv, hrv, Or.inr hv, rfl⟩)
  · intro r' hr' d' hd'
    obtain rfl | ⟨r, -, hmsg, rfl⟩ := hrows.mp hr'
    · rw [newRow, RecordsDelete.stored, GenericMessage.recordsDelete.injEq] at hd'
      subst hd'
      exact ⟨rfl, rfl⟩
    · rw [demote_message] at hd'
      obtain hmsg | hmsg := hmsg
      · rw [hmsg] at hd'
        cases hd'
      · rw [hmsg] at hd'
        cases hd'

end Delete

end Commit

theorem commitInitial {newMessage : StoredMessage} (latest : Bool) (wf : log.WellFormed)
    (hempty : recordRows log i.recordId = []) (hm : newMessage.message = .recordsWrite i)
    (hfresh : ∀ r ∈ log.rows, r.cid ≠ Message.getCid newMessage) :
    Shows i latest (committed log (existing i log) newMessage
      (RecordsWrite.constructIndexes i latest) []) (State.init (RecordsWrite.age i)) := by
  have hrows : ∀ r', r' ∈ recordRows (committed log (existing i log) newMessage
      (RecordsWrite.constructIndexes i latest) []) i.recordId ↔
      r' = newRow log newMessage (RecordsWrite.constructIndexes i latest) := by
    intro r'
    rw [mem_recordRows_committed wf (snapshot_query wf i.recordId) hfresh
      (by simp [StoredMessage.belongsTo, hm]), hempty]
    simp
  have hage : Message.age (newRow log newMessage (RecordsWrite.constructIndexes i latest)).message =
      RecordsWrite.age i := age_of_write hm
  constructor
  case wf =>
    exact wellFormed_committed wf (snapshot_query wf i.recordId) hfresh
      (by simp [Row.Indexed, newRow, hm])
  case initialStored => exact ⟨_, (hrows _).mpr rfl, hm⟩
  case initialOnly =>
    intro r' hr' _
    rw [(hrows r').mp hr', newRow, hm]
  case immutable =>
    intro r' hr' w hw
    rw [(hrows r').mp hr', newRow, hm, GenericMessage.recordsWrite.injEq] at hw
    rw [hw]
  case writes =>
    intro k
    simp only [State.init, Finset.mem_singleton]
    constructor
    · intro hk
      exact ⟨_, (hrows _).mpr rfl, i, hm, hk.symm⟩
    · intro hk
      obtain ⟨r', hr', w, hw, hk⟩ := hk
      rw [(hrows r').mp hr', newRow, hm, GenericMessage.recordsWrite.injEq] at hw
      rw [← hk, hw]
  case tomb =>
    intro t
    simp only [State.init, reduceCtorEq, false_iff]
    intro hd
    obtain ⟨r', hr', d, hd, _⟩ := hd
    rw [(hrows r').mp hr', newRow, hm] at hd
    cases hd
  case latest =>
    intro r' hr'
    rw [(hrows r').mp hr', hage]
    simp [Row.isLatest, newRow, topAge, State.init, flag]

end Shows

end EnboxDwn
