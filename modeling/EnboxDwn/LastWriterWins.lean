import EnboxDwn.RecordState

/-! Last writer wins: the stores after the initial write of a record and any of its updates
have been processed, whatever their order. -/
namespace EnboxDwn
open KeyValues Journal MessageStore StorageController TombstoneMachine RecordsWriteHandler

variable [P : Platform]

/-- The stores present the write `x` as the state of the record of `i`: only the initial write
is kept beside it, and only its data is kept, inline or in the data store. -/
structure Presents (i : RecordsWriteMessage) (tenant : Did) (x : RecordsWriteMessage × P.Data)
    (s : Stores) : Prop where
  rows : ((recordRows (s.messages tenant) i.recordId).map (·.message.message)).Perm
    (if x.1 = i then [.recordsWrite i] else [.recordsWrite i, .recordsWrite x.1])
  latest : ∀ r ∈ recordRows (s.messages tenant) i.recordId,
    r.isLatest = true ↔ r.message.message = .recordsWrite x.1
  inline : ∀ r ∈ recordRows (s.messages tenant) i.recordId, r.message.encodedData =
    if r.message.message = .recordsWrite x.1 ∧
      x.1.descriptor.dataSize ≤ maxDataSizeAllowedToBeEncoded then some x.2 else none
  external : ∀ c, s.data.get ⟨tenant, i.recordId, c⟩ =
    if maxDataSizeAllowedToBeEncoded < x.1.descriptor.dataSize ∧ c = x.1.descriptor.dataCid then
      some (x.1.descriptor.dataSize, x.2) else none

/-- The stores while the writes of one record are processed: `x` is the newest so far, and the
pending writes are not stored and find room in the log. -/
structure WriterState (i : RecordsWriteMessage) (x : RecordsWriteMessage × P.Data) (tenant : Did)
    (pending : List Cid) (s : Stores) : Prop where
  shows : Shows i true (s.messages tenant)
    ⟨{RecordsWrite.age i, RecordsWrite.age x.1}, RecordsWrite.age x.1, none⟩
  first_le : RecordsWrite.age i ≤ RecordsWrite.age x.1
  carries : CarriesData x.1 x.2
  winner : ∃ r ∈ recordRows (s.messages tenant) i.recordId, r.message = storedWith x.1 x.2
  content : ∀ r ∈ recordRows (s.messages tenant) i.recordId, r.message =
    if r.message.message = .recordsWrite x.1 then storedWith x.1 x.2 else RecordsWrite.stored i
  refs : ∀ c, s.data.refs ⟨tenant, i.recordId, c⟩ =
    if maxDataSizeAllowedToBeEncoded < x.1.descriptor.dataSize ∧ c = x.1.descriptor.dataCid then
      some x.1.descriptor.dataSize else none
  holding : s.data.Holding
  unstored : ∀ r ∈ (s.messages tenant).rows, r.cid ∉ pending
  room : (s.messages tenant).head + pending.length < Replication.positionLimit

/-! ## The data store -/

section Data
variable {tenant : Did} {recordId : String} {y : RecordsWriteMessage × P.Data}
  {displaced : List StoredMessage} {d : DataStore}

theorem holding_putLarge (hd : d.Holding) (hexports : DataStore.ExportsImported (P := P))
    (hy : CarriesData y.1 y.2) : (putLarge tenant y.1 y.2 d).Holding := by
  unfold putLarge
  split
  · exact hd
  · exact DataStore.holding_put hd hexports _ hy.1

theorem refs_putLarge (hd : d.Holding) (hexports : DataStore.ExportsImported (P := P))
    (hy : CarriesData y.1 y.2) (ref : DataRef) :
    (putLarge tenant y.1 y.2 d).refs ref =
      if maxDataSizeAllowedToBeEncoded < y.1.descriptor.dataSize ∧
          ref = ⟨tenant, y.1.recordId, y.1.descriptor.dataCid⟩ then
        some y.1.descriptor.dataSize else d.refs ref := by
  unfold putLarge
  by_cases hsmall : y.1.descriptor.dataSize ≤ maxDataSizeAllowedToBeEncoded
  · rw [if_pos hsmall, if_neg fun h => absurd h.1 (by omega)]
  · have hsize := (DataStore.put_spec hd.toSound hexports.sizedByCid
      ⟨tenant, y.1.recordId, y.1.descriptor.dataCid⟩ hy.1).1
    rw [if_neg hsmall, DataStore.refs_put, hsize, hy.2, Function.update_apply]
    simp [not_le.mp hsmall]

theorem mem_filterMap_releasedRef {c : String} :
    ⟨tenant, recordId, c⟩ ∈ displaced.filterMap (releasedRef tenant (storedWith y.1 y.2)) ↔
      c ≠ y.1.descriptor.dataCid ∧ ∃ m ∈ displaced, ∃ w, m.message = .recordsWrite w ∧
        maxDataSizeAllowedToBeEncoded < w.descriptor.dataSize ∧ w.recordId = recordId ∧
        w.descriptor.dataCid = c := by
  have hshared : (storedWith y.1 y.2).asRecordsWrite = some y.1 := rfl
  rw [List.mem_filterMap]
  constructor
  · intro ⟨m, hm, href⟩
    unfold releasedRef at href
    cases hw : m.message with
    | recordsWrite w =>
      simp only [hw, hshared, Option.map_some, Option.some.injEq] at href
      split at href
      · cases href
      · next hlarge =>
        split at href
        · cases href
        · next hne =>
          simp only [Option.some.injEq, DataRef.mk.injEq, true_and] at href
          obtain ⟨hrecord, rfl⟩ := href
          exact ⟨Ne.symm hne, m, hm, w, hw, by omega, hrecord, rfl⟩
    | recordsDelete d => simp [hw] at href
    | modulesConfigure c => simp [hw] at href
  · intro ⟨hne, m, hm, w, hw, hlarge, hrecord, hcid⟩
    refine ⟨m, hm, ?_⟩
    subst hrecord hcid
    simp [releasedRef, hw, hshared, not_le.mpr hlarge, Ne.symm hne]

/-- When every reference of the record belongs to a displaced write, that of the new write is
the only one left. -/
theorem refs_released (hd : d.Holding) (hexports : DataStore.ExportsImported (P := P))
    (hy : CarriesData y.1 y.2) (hrecord : y.1.recordId = recordId)
    (hold : ∀ c, d.refs ⟨tenant, recordId, c⟩ ≠ none → ∃ m ∈ displaced, ∃ w data,
      m.message = .recordsWrite w ∧ maxDataSizeAllowedToBeEncoded < w.descriptor.dataSize ∧
      w.recordId = recordId ∧ w.descriptor.dataCid = c ∧ CarriesData w data) (c : String) :
    (released tenant (storedWith y.1 y.2) displaced (putLarge tenant y.1 y.2 d)).refs
        ⟨tenant, recordId, c⟩ =
      if maxDataSizeAllowedToBeEncoded < y.1.descriptor.dataSize ∧ c = y.1.descriptor.dataCid then
        some y.1.descriptor.dataSize else none := by
  rw [released, DataStore.refs_deleteAll, refs_putLarge hd hexports hy]
  simp only [DataRef.mk.injEq, hrecord, true_and]
  by_cases hc : c = y.1.descriptor.dataCid
  · subst hc
    rw [if_neg fun h => (mem_filterMap_releasedRef.mp h).1 rfl]
    by_cases hlarge : maxDataSizeAllowedToBeEncoded < y.1.descriptor.dataSize
    · simp [hlarge]
    · -- a large write with the same address would be as small as the new one
      simp only [hlarge, false_and, if_false]
      by_contra hsome
      obtain ⟨m, -, w, data, -, hwlarge, -, hcid, hcarries⟩ := hold _ hsome
      have hsame := hexports.sizedByCid data y.2 (by rw [hcarries.1, hcid, hy.1])
      rw [hcarries.2, hy.2] at hsame
      omega
  · simp only [hc, and_false, if_false]
    split
    · rfl
    · next hkept =>
      by_contra hsome
      obtain ⟨m, hm, w, -, hw, hlarge, hrec, hcid, -⟩ := hold c hsome
      exact hkept (mem_filterMap_releasedRef.mpr ⟨hc, m, hm, w, hw, hlarge, hrec, hcid⟩)

end Data

/-! ## One write -/

namespace WriterState
variable {deps : HandlerDependencies} {tenant : Did} {i m : RecordsWriteMessage}
  {x y : RecordsWriteMessage × P.Data} {pending : List Cid} {s t : Stores}

theorem tail {c : Cid} (h : WriterState i x tenant (c :: pending) s) :
    WriterState i x tenant pending s where
  shows := h.shows
  first_le := h.first_le
  carries := h.carries
  winner := h.winner
  content := h.content
  refs := h.refs
  holding := h.holding
  unstored := fun r hr hc => h.unstored r hr (List.mem_cons_of_mem _ hc)
  room := by
    have hroom := h.room
    rw [List.length_cons] at hroom
    omega

theorem of_perm {pending' : List Cid} (h : WriterState i x tenant pending s)
    (hp : pending'.Perm pending) : WriterState i x tenant pending' s where
  shows := h.shows
  first_le := h.first_le
  carries := h.carries
  winner := h.winner
  content := h.content
  refs := h.refs
  holding := h.holding
  unstored := fun r hr hc => h.unstored r hr (hp.mem_iff.mp hc)
  room := by
    rw [hp.length_eq]
    exact h.room

theorem getNewestMessage_existing (h : WriterState i x tenant pending s) :
    Message.getNewestMessage (Shows.existing i (s.messages tenant)) =
      some (storedWith x.1 x.2) := by
  obtain ⟨rx, hrx, hx⟩ := h.winner
  have hmem : storedWith x.1 x.2 ∈ Shows.existing i (s.messages tenant) :=
    h.shows.mem_existing.mpr ⟨rx, hrx, hx⟩
  apply Message.getNewestMessage_eq_of_greatest hmem
  · intro e he
    obtain ⟨r, hr, rfl⟩ := h.shows.mem_existing.mp he
    rw [h.content r hr]
    split
    · exact le_rfl
    · exact h.first_le
  · intro e he hc
    exact h.shows.eq_of_cid he hmem hc

theorem presents (h : WriterState i x tenant pending s)
    (hexports : DataStore.ExportsImported (P := P)) : Presents i tenant x s where
  rows := by
    obtain ⟨ri, hri, hi⟩ := h.shows.initialStored
    obtain ⟨rx, hrx, hx⟩ := h.winner
    have hnodup : ((recordRows (s.messages tenant) i.recordId).map (·.message.message)).Nodup := by
      have hcids := h.shows.wf.distinct.sublist
        ((List.filter_sublist (p := fun r => r.message.belongsTo i.recordId)).map Row.cid)
      apply List.Nodup.of_map P.computeCid
      rw [List.map_map]
      exact hcids
    have hmem : ∀ g, g ∈ (recordRows (s.messages tenant) i.recordId).map (·.message.message) ↔
        g = .recordsWrite i ∨ g = .recordsWrite x.1 := by
      intro g
      rw [List.mem_map]
      constructor
      · intro ⟨r, hr, hg⟩
        have hcontent := h.content r hr
        by_cases hwin : r.message.message = .recordsWrite x.1
        · exact Or.inr (hg.symm.trans hwin)
        · rw [if_neg hwin] at hcontent
          rw [hcontent] at hg
          exact Or.inl hg.symm
      · intro hg
        cases hg with
        | inl hg => exact ⟨ri, hri, hi.trans hg.symm⟩
        | inr hg => exact ⟨rx, hrx, by rw [hx, hg]; rfl⟩
    split
    · next heq =>
      rw [List.perm_ext_iff_of_nodup hnodup (List.nodup_singleton _)]
      intro g
      rw [hmem, heq]
      simp
    · next hne =>
      rw [List.perm_ext_iff_of_nodup hnodup (by simp [Ne.symm hne])]
      intro g
      rw [hmem]
      simp
  latest := by
    intro r hr
    obtain ⟨rx, hrx, hx⟩ := h.winner
    rw [h.shows.latest r hr]
    simp only [topAge, implies_true, and_true]
    constructor
    · intro hage
      have hcid : r.cid = rx.cid := by
        refine Message.getCid_eq_of_age_eq ?_
        rw [hage, hx]
        rfl
      rw [h.shows.wf.eq_of_cid (mem_recordRows.mp hr).1 (mem_recordRows.mp hrx).1 hcid, hx]
      rfl
    · exact age_of_write
  inline := by
    intro r hr
    by_cases hwin : r.message.message = .recordsWrite x.1
    · rw [h.content r hr, if_pos hwin]
      simp [storedWith]
    · rw [if_neg fun hand => hwin hand.1, h.content r hr, if_neg hwin]
      rfl
  external := by
    intro c
    have href := h.refs c
    split at href
    · next hlarge =>
      rw [if_pos hlarge]
      exact h.holding.get_eq hexports href (by rw [h.carries.1, hlarge.2])
    · next hnone =>
      rw [if_neg hnone]
      simp only [DataStore.get, href]

/-- The cascading effects of a write of the record leave the record alone unless the record
revokes itself. -/
theorem postProcess (h : WriterState i x tenant pending s)
    (hsquash : i.descriptor.squash ≠ some true) (hself : ¬ PermissionsModule.RevokesItself i)
    (hm : RecordsWrite.immutableProperties m.descriptor =
      RecordsWrite.immutableProperties i.descriptor) :
    WriterState i x tenant pending ((RecordsWriteHandler.postProcess tenant m).final s) := by
  have hsquash' : m.descriptor.squash ≠ some true := by
    rw [squash_eq_of_immutable hm]
    exact hsquash
  unfold RecordsWriteHandler.postProcess
  simp only [hsquash', if_false]
  split
  case isFalse => exact h
  case isTrue hmodule =>
    by_cases hpath : m.descriptor.modulePath = PermissionsModule.revocationPath
    case neg =>
      unfold PermissionsModule.postProcessWrite
      rw [if_pos hpath]
      exact h
    case pos =>
      rw [final_postProcessWrite h.shows.wf hpath]
      have hapart : ∀ r ∈ recordRows (s.messages tenant) i.recordId, FilterUtility.matchFilter
          r.indexes (PermissionsModule.grantAuthorizedMessagesFilter m) = false := by
        intro r hr
        obtain ⟨w, latest, hindexes, hw⟩ := h.shows.indexes_of_no_tomb rfl r hr
        rw [hindexes]
        exact matchFilter_grantAuthorized hw hm hself hmodule hpath
      have hrows : recordRows ((s.messages tenant).restrict fun r => !FilterUtility.matchFilter
          r.indexes (PermissionsModule.grantAuthorizedMessagesFilter m)) i.recordId =
          recordRows (s.messages tenant) i.recordId := by
        rw [recordRows, Log.restrict, List.filter_filter]
        refine List.filter_congr fun r hr => ?_
        by_cases hb : r.message.belongsTo i.recordId = true
        · simp [hb, hapart r (mem_recordRows.mpr ⟨hr, hb⟩)]
        · simp [hb]
      have hkept : ∀ c, ⟨tenant, i.recordId, c⟩ ∉ (query (s.messages tenant)
          [PermissionsModule.grantAuthorizedMessagesFilter m]).filterMap
            (PermissionsModule.purgedRef tenant) := by
        intro c hc
        obtain ⟨e, he, href⟩ := List.mem_filterMap.mp hc
        obtain ⟨r, hr, rfl⟩ := mem_query.mp he
        obtain ⟨hr, hmatch⟩ := List.mem_filter.mp hr
        obtain ⟨w, hw, href⟩ := Option.bind_eq_some_iff.mp href
        split at href
        · rw [Option.some.injEq, DataRef.mk.injEq] at href
          have hb : r.message.belongsTo i.recordId = true := by
            simp [StoredMessage.belongsTo, asRecordsWrite_eq_some.mp hw, href.2.1]
          rw [FilterUtility.matchAnyFilter_singleton,
            hapart r (mem_recordRows.mpr ⟨hr, hb⟩)] at hmatch
          cases hmatch
        · cases href
      constructor
      case first_le => exact h.first_le
      case carries => exact h.carries
      case holding => exact DataStore.holding_deleteAll h.holding _
      case refs =>
        intro c
        rw [DataStore.refs_deleteAll, if_neg (hkept c)]
        exact h.refs c
      all_goals simp only [Stores.messages_setLog]
      case shows => exact h.shows.congr (h.shows.wf.restrict _) hrows
      case winner =>
        rw [hrows]
        exact h.winner
      case content =>
        rw [hrows]
        exact h.content
      case unstored => exact fun r hr => h.unstored r (List.mem_filter.mp hr).1
      case room => exact h.room

/-- The state after a commit: the new write and perhaps the initial write are left. -/
theorem of_committed {existing : List StoredMessage} (wf : (s.messages tenant).WellFormed)
    (snap : Snapshot (s.messages tenant) i.recordId existing)
    (hrecord : y.1.recordId = i.recordId) (hfirst : RecordsWrite.age i ≤ RecordsWrite.age y.1)
    (hdata : CarriesData y.1 y.2) (hexports : DataStore.ExportsImported (P := P))
    (hholding : s.data.Holding)
    (hunstored : ∀ r ∈ (s.messages tenant).rows,
      r.cid ∉ Message.getCid (RecordsWrite.stored y.1) :: pending)
    (hpending : Message.getCid (RecordsWrite.stored y.1) ∉ pending)
    (hroom : (s.messages tenant).head + (pending.length + 1) < Replication.positionLimit)
    (hinitial : ∀ r ∈ recordRows (s.messages tenant) i.recordId, r.message.isInitialWrite = true →
      r.message.message = .recordsWrite i ∧ y.1 ≠ i)
    (hold : ∀ c, s.data.refs ⟨tenant, i.recordId, c⟩ ≠ none →
      ∃ e ∈ displacedMessages existing (storedWith y.1 y.2), ∃ w data,
        e.message = .recordsWrite w ∧ maxDataSizeAllowedToBeEncoded < w.descriptor.dataSize ∧
        w.recordId = i.recordId ∧ w.descriptor.dataCid = c ∧ CarriesData w data)
    (hshows : Shows i true (committed (s.messages tenant) existing (storedWith y.1 y.2)
      (RecordsWrite.constructIndexes y.1 true) [])
        ⟨{RecordsWrite.age i, RecordsWrite.age y.1}, RecordsWrite.age y.1, none⟩) :
    WriterState i y tenant pending
      { s.setLog tenant (committed (s.messages tenant) existing (storedWith y.1 y.2)
          (RecordsWrite.constructIndexes y.1 true) []) with
        data := released tenant (storedWith y.1 y.2)
          (displacedMessages existing (storedWith y.1 y.2)) (putLarge tenant y.1 y.2 s.data) } := by
  have hfresh : ∀ r ∈ (s.messages tenant).rows, r.cid ≠ Message.getCid (storedWith y.1 y.2) :=
    fun r hr heq => hunstored r hr (List.mem_cons.mpr (Or.inl heq))
  have hbelongs : (storedWith y.1 y.2).belongsTo i.recordId = true := by
    simp [StoredMessage.belongsTo, storedWith, hrecord]
  constructor
  case first_le => exact hfirst
  case carries => exact hdata
  case refs => exact refs_released hholding hexports hdata hrecord hold
  case holding =>
    exact DataStore.holding_deleteAll (holding_putLarge hholding hexports hdata) _
  all_goals simp only [Stores.messages_setLog]
  case shows => exact hshows
  case winner =>
    exact ⟨_, (mem_recordRows_committed wf snap hfresh hbelongs).mpr (Or.inl rfl), rfl⟩
  case content =>
    intro r' hr'
    obtain rfl | ⟨r, hr, hkeep, rfl⟩ := (mem_recordRows_committed wf snap hfresh hbelongs).mp hr'
    · exact (if_pos rfl).symm
    · obtain ⟨hmsg, hne⟩ := hinitial r hr (by simpa [shouldKeepAsNonLatestWrite] using hkeep)
      rw [demote_message, hmsg, if_neg (by simpa using Ne.symm hne), demote_of_write hmsg]
      simp only [StoredMessage.stripInlineData, hmsg]
      rfl
  case unstored =>
    intro r' hr'
    obtain rfl | ⟨hr, -⟩ | ⟨r, hr, -, rfl⟩ := (mem_committed wf snap hfresh).mp hr'
    · exact hpending
    · exact fun hc => hunstored r' hr (List.mem_cons_of_mem _ hc)
    · rw [cid_demote]
      exact fun hc => hunstored r (mem_recordRows.mp hr).1 (List.mem_cons_of_mem _ hc)
  case room =>
    simp only [committed]
    omega

section Update
variable (h : WriterState i x tenant (Message.getCid (RecordsWrite.stored y.1) :: pending) s)
    (hi : RecordsWrite.isInitialWrite i = true) (hy : IsUpdateOf i y.1)
    (hpending : Message.getCid (RecordsWrite.stored y.1) ∉ pending)
    (hdata : CarriesData y.1 y.2) (hexports : DataStore.ExportsImported (P := P))
    (hadm : WriteAdmissible deps tenant y.1 (some y.2) s)
include h hi hy hpending hdata hexports hadm

theorem commit_update
    (hlt : RecordsWrite.age x.1 < RecordsWrite.age y.1) :
    ∃ t putResult, Program.Runs (commitRecordsWrite deps tenant y.1 (some y.2)
        (Shows.existing i (s.messages tenant))) s putResult t ∧
      WriterState i y tenant pending t := by
  have hfresh : ∀ r ∈ (s.messages tenant).rows,
      r.cid ≠ Message.getCid (RecordsWrite.stored y.1) :=
    fun r hr heq => h.unstored r hr (by simp [heq])
  have hsnap : Snapshot (s.messages tenant) y.1.recordId
      (Shows.existing i (s.messages tenant)) := by
    rw [hy.recordId_eq]
    exact h.shows.snapshot
  have hroom := h.room
  rw [List.length_cons] at hroom
  obtain ⟨-, -, hcommit⟩ := commitRecordsWrite_runs hadm (by simpa using hdata) (by simp)
    hexports.sizedByCid h.holding.toSound
    (by rw [h.getNewestMessage_existing]; rfl) h.shows.wf hsnap hfresh (by omega) rfl rfl
  refine ⟨_, _, hcommit, ?_⟩
  refine of_committed h.shows.wf h.shows.snapshot hy.recordId_eq (h.first_le.trans hlt.le) hdata
    hexports h.holding h.unstored hpending hroom ?_ ?_ ?_
  · intro r hr hinitial
    refine ⟨h.shows.initialOnly r hr hinitial, fun heq => ?_⟩
    have := hy.not_initial
    rw [heq, hi] at this
    cases this
  · intro c hc
    rw [h.refs c] at hc
    obtain ⟨hlarge, rfl⟩ : maxDataSizeAllowedToBeEncoded < x.1.descriptor.dataSize ∧
        c = x.1.descriptor.dataCid := by
      by_contra hnot
      rw [if_neg hnot] at hc
      exact hc rfl
    obtain ⟨rx, hrx, hx⟩ := h.winner
    have hb := (mem_recordRows.mp hrx).2
    rw [hx] at hb
    refine ⟨storedWith x.1 x.2, List.mem_filter.mpr ⟨h.shows.mem_existing.mpr ⟨rx, hrx, hx⟩, ?_⟩,
      x.1, x.2, rfl, hlarge, ?_, rfl, h.carries⟩
    · rw [← hx]
      exact decide_eq_true (hfresh rx (mem_recordRows.mp hrx).1)
    · simpa [StoredMessage.belongsTo, storedWith] using hb
  · exact h.shows.commitWrite hi (reached_pair h.first_le) rfl hy.recordId_eq hy.not_initial
      hy.immutable hfresh hlt

/-- An admissible update is refused as older or takes the place of the newest write. -/
theorem handle (hsquash : i.descriptor.squash ≠ some true)
    (hself : ¬ PermissionsModule.RevokesItself i) :
    (RecordsWrite.age y.1 ≤ RecordsWrite.age x.1 ∧ WriterState i x tenant pending
      ((RecordsWriteHandler.handle deps tenant y.1 (some y.2)).final s)) ∨
    (RecordsWrite.age x.1 < RecordsWrite.age y.1 ∧ WriterState i y tenant pending
      ((RecordsWriteHandler.handle deps tenant y.1 (some y.2)).final s)) := by
  have hfresh : ∀ r ∈ (s.messages tenant).rows,
      r.cid ≠ Message.getCid (RecordsWrite.stored y.1) :=
    fun r hr heq => h.unstored r hr (by simp [heq])
  have hhandle := h.shows.handle_update hi hy hfresh hadm
  have hfinal : (RecordsWriteHandler.handle deps tenant y.1 (some y.2)).final s =
      (commitIfNewest deps tenant y.1 (some y.2)
        (Shows.existing i (s.messages tenant))).final s := by
    rw [Program.final, Program.trail, hhandle]
    rfl
  rw [hfinal]
  obtain hle | hlt := le_or_gt (RecordsWrite.age y.1) (RecordsWrite.age x.1)
  · have hold : Message.isNewer (RecordsWrite.stored y.1) (storedWith x.1 x.2) = false :=
      (Message.isNewer_eq_false _ _).mpr hle
    refine Or.inl ⟨hle, ?_⟩
    unfold commitIfNewest
    rw [h.getNewestMessage_existing, if_pos (by simp [hold])]
    exact h.tail
  · have hnewer : Message.isNewer (RecordsWrite.stored y.1) (storedWith x.1 x.2) = true :=
      (Message.isNewer_iff _ _).mpr hlt
    obtain ⟨t, putResult, hcommit, hstate⟩ :=
      h.commit_update hi hy hpending hdata hexports hadm hlt
    refine Or.inr ⟨hlt, ?_⟩
    have hsquash' : y.1.descriptor.squash ≠ some true := by
      rw [squash_eq_of_immutable hy.immutable]
      exact hsquash
    rw [(commitIfNewest_committed hsquash'
      (by rw [h.getNewestMessage_existing]; simp [hnewer]) hcommit).2]
    exact hstate.postProcess hsquash hself hy.immutable

end Update

end WriterState

/-! ## All orders -/

/-- The initial write of a record and some of its updates, each with its data. -/
structure WriteSet [P : Platform] where
  initial : RecordsWriteMessage
  initialData : P.Data
  updates : List (RecordsWriteMessage × P.Data)
  isInitial : RecordsWrite.isInitialWrite initial = true
  noSquash : initial.descriptor.squash ≠ some true
  areUpdates : ∀ y ∈ updates, IsUpdateOf initial y.1
  carryData : ∀ y ∈ (initial, initialData) :: updates, CarriesData y.1 y.2
  distinct : (((initial, initialData) :: updates).map fun y =>
    Message.getCid (RecordsWrite.stored y.1)).Nodup

namespace WriteSet
variable {ws : WriteSet} {deps : HandlerDependencies} {tenant : Did} {s : Stores}
  {x : RecordsWriteMessage × P.Data}

def writes (ws : WriteSet) : List (RecordsWriteMessage × P.Data) :=
  (ws.initial, ws.initialData) :: ws.updates

def cid (y : RecordsWriteMessage × P.Data) : Cid := Message.getCid (RecordsWrite.stored y.1)

/-- The write that is greatest by timestamp and CID. -/
def IsNewest (ws : WriteSet) (x : RecordsWriteMessage × P.Data) : Prop :=
  x ∈ ws.writes ∧ ∀ y ∈ ws.writes, RecordsWrite.age y.1 ≤ RecordsWrite.age x.1

/-- The record is unknown to the stores, and they have room for its writes. -/
structure Start (ws : WriteSet) (tenant : Did) (s : Stores) : Prop where
  wf : (s.messages tenant).WellFormed
  unknown : recordRows (s.messages tenant) ws.initial.recordId = []
  unstored : ∀ r ∈ (s.messages tenant).rows, r.cid ∉ ws.writes.map cid
  room : (s.messages tenant).head + ws.writes.length < Replication.positionLimit
  holding : s.data.Holding
  noData : ∀ c, s.data.refs ⟨tenant, ws.initial.recordId, c⟩ = none

/-- Every write is admissible whenever it is processed while its record is stored. -/
structure Authorized (ws : WriteSet) (deps : HandlerDependencies) (tenant : Did) (s : Stores) :
    Prop where
  initial : WriteAdmissible deps tenant ws.initial (some ws.initialData) s
  updates : ∀ done y, (y :: done).Subperm ws.updates →
    recordRows ((processWrites deps tenant ((ws.initial, ws.initialData) :: done) s).messages tenant)
      ws.initial.recordId ≠ [] →
    WriteAdmissible deps tenant y.1 (some y.2)
      (processWrites deps tenant ((ws.initial, ws.initialData) :: done) s)

theorem commit_initial (hstart : ws.Start tenant s)
    (hadm : WriteAdmissible deps tenant ws.initial (some ws.initialData) s)
    (hexports : DataStore.ExportsImported (P := P)) :
    ∃ t, WriterState ws.initial (ws.initial, ws.initialData) tenant (ws.updates.map cid) t ∧
      (RecordsWriteHandler.handle deps tenant ws.initial (some ws.initialData)).final s =
        (RecordsWriteHandler.postProcess tenant ws.initial).final t := by
  have hquery := query_unknown hstart.wf hstart.unknown
  have hsnap : Snapshot (s.messages tenant) ws.initial.recordId [] :=
    hquery ▸ snapshot_query hstart.wf ws.initial.recordId
  have hdata : CarriesData ws.initial ws.initialData := ws.carryData _ List.mem_cons_self
  have hfresh : ∀ r ∈ (s.messages tenant).rows,
      r.cid ≠ Message.getCid (RecordsWrite.stored ws.initial) :=
    fun r hr heq => hstart.unstored r hr (by simp [writes, cid, heq])
  have hroom := hstart.room
  rw [writes, List.length_cons] at hroom
  obtain ⟨-, -, hcommit⟩ := commitRecordsWrite_runs hadm (by simpa using hdata)
    (fun _ => ws.isInitial) hexports.sizedByCid hstart.holding.toSound rfl hstart.wf hsnap hfresh
    (by omega) rfl rfl
  have hhandle := handle_admitted none hadm (by rw [hquery]; simp)
    (by rw [hquery, ws.isInitial]; rfl) rfl
  rw [hquery] at hhandle
  have hfinal := (commitIfNewest_committed ws.noSquash rfl hcommit).2
  rw [Program.final, Program.trail, ← hhandle, ← Program.trail, ← Program.final] at hfinal
  refine ⟨_, ?_, hfinal⟩
  refine WriterState.of_committed hstart.wf hsnap rfl le_rfl hdata hexports hstart.holding
    hstart.unstored (List.nodup_cons.mp ws.distinct).1 (by simpa using hroom) ?_ ?_ ?_
  · rw [hstart.unknown]
    simp
  · exact fun c hc => absurd (hstart.noData c) hc
  · have hmessage : (storedWith ws.initial ws.initialData).message = .recordsWrite ws.initial := rfl
    have hshows := Shows.commitInitial true hstart.wf hstart.unknown hmessage hfresh
    rw [Shows.existing, hquery] at hshows
    simpa [State.init] using hshows

theorem writerState_processWrites (hauth : ws.Authorized deps tenant s)
    (hself : ¬ PermissionsModule.RevokesItself ws.initial)
    (hexports : DataStore.ExportsImported (P := P)) (done todo : List (RecordsWriteMessage × P.Data))
    (horder : (done ++ todo).Perm ws.updates)
    (h : WriterState ws.initial x tenant (todo.map cid)
      (processWrites deps tenant ((ws.initial, ws.initialData) :: done) s)) :
    ∃ z ∈ x :: todo, (∀ y ∈ x :: todo, RecordsWrite.age y.1 ≤ RecordsWrite.age z.1) ∧
      WriterState ws.initial z tenant []
        (processWrites deps tenant ((ws.initial, ws.initialData) :: (done ++ todo)) s) := by
  induction todo generalizing done x with
  | nil => exact ⟨x, by simp, by simp, by simpa using h⟩
  | cons y todo ih =>
    have hy : y ∈ ws.updates := horder.mem_iff.mp (by simp)
    have hnodup : (cid y :: todo.map cid).Nodup := by
      have hall := (horder.map cid).nodup_iff.mpr (List.nodup_cons.mp ws.distinct).2
      rw [List.map_append, List.map_cons] at hall
      exact (List.nodup_append.mp hall).2.1
    have hsub : (y :: done).Subperm ws.updates := by
      have hperm : (y :: (done ++ todo)).Perm ws.updates := List.perm_middle.symm.trans horder
      exact ((List.sublist_append_left done todo).cons_cons y).subperm.trans hperm.subperm
    have hknown : recordRows ((processWrites deps tenant
        ((ws.initial, ws.initialData) :: done) s).messages tenant) ws.initial.recordId ≠ [] := by
      obtain ⟨r, hr, -⟩ := h.winner
      exact List.ne_nil_of_mem hr
    have hprocess : (RecordsWriteHandler.handle deps tenant y.1 (some y.2)).final
        (processWrites deps tenant ((ws.initial, ws.initialData) :: done) s) =
        processWrites deps tenant ((ws.initial, ws.initialData) :: (done ++ [y])) s := by
      simp [processWrites]
    have hstep := h.handle ws.isInitial (ws.areUpdates y hy) (List.nodup_cons.mp hnodup).1
      (ws.carryData y (List.mem_cons_of_mem _ hy)) hexports (hauth.updates done y hsub hknown)
      ws.noSquash hself
    rw [hprocess] at hstep
    have hsplit : done ++ y :: todo = (done ++ [y]) ++ todo := by simp
    rw [hsplit] at horder ⊢
    cases hstep with
    | inl hkept =>
      obtain ⟨z, hz, hmax, hend⟩ := ih (done ++ [y]) horder hkept.2
      have hxz : RecordsWrite.age x.1 ≤ RecordsWrite.age z.1 := hmax x (by simp)
      refine ⟨z, ?_, ?_, hend⟩
      · rw [List.mem_cons] at hz ⊢
        exact hz.imp id (List.mem_cons_of_mem _)
      · simp only [List.forall_mem_cons] at hmax ⊢
        exact ⟨hxz, hkept.1.trans hxz, hmax.2⟩
    | inr hnew =>
      obtain ⟨z, hz, hmax, hend⟩ := ih (done ++ [y]) horder hnew.2
      have hyz : RecordsWrite.age y.1 ≤ RecordsWrite.age z.1 := hmax y (by simp)
      refine ⟨z, List.mem_cons_of_mem _ hz, ?_, hend⟩
      simp only [List.forall_mem_cons] at hmax ⊢
      exact ⟨hnew.1.le.trans hyz, hyz, hmax.2⟩

theorem processWrites_unknown (wf : (s.messages tenant).WellFormed)
    (hunknown : recordRows (s.messages tenant) ws.initial.recordId = [])
    {l : List (RecordsWriteMessage × P.Data)} (hl : ∀ y ∈ l, y ∈ ws.updates) :
    processWrites deps tenant l s = s := by
  induction l with
  | nil => rfl
  | cons y l ih =>
    have hy := ws.areUpdates y (hl y (by simp))
    rw [processWrites, List.foldl_cons, final_handle_update_unknown wf hunknown hy]
    exact ih fun y' hy' => hl y' (by simp [hy'])

/-- Every order leaves the newest write presented exactly when the record does not revoke
itself. -/
theorem presents_newest_iff (hstart : ws.Start tenant s) (hauth : ws.Authorized deps tenant s)
    (hexports : DataStore.ExportsImported (P := P)) :
    (∀ order : List (RecordsWriteMessage × P.Data), order.Perm ws.updates →
      ∃ x, ws.IsNewest x ∧ Presents ws.initial tenant x
        (processWrites deps tenant ((ws.initial, ws.initialData) :: order) s)) ↔
      ¬ PermissionsModule.RevokesItself ws.initial := by
  obtain ⟨t, hstate, hfinal⟩ := commit_initial hstart hauth.initial hexports
  constructor
  · intro hall hself
    obtain ⟨wf, hunknown⟩ := hstate.shows.unknown_of_revokesItself rfl ws.noSquash hself
      (dateCreated_of_parse hauth.initial.parsed ws.isInitial)
    obtain ⟨x, -, hpresents⟩ := hall ws.updates (List.Perm.refl _)
    have hrows := hpresents.rows
    rw [processWrites, List.foldl_cons, hfinal, ← processWrites,
      processWrites_unknown wf hunknown fun y hy => hy, hunknown, List.map_nil] at hrows
    have hlength := hrows.length_eq
    split at hlength <;> simp at hlength
  · intro hself order horder
    have hinitial : WriterState ws.initial (ws.initial, ws.initialData) tenant (order.map cid)
        (processWrites deps tenant [(ws.initial, ws.initialData)] s) := by
      rw [processWrites, List.foldl_cons, List.foldl_nil, hfinal]
      exact (hstate.postProcess ws.noSquash hself rfl).of_perm (horder.map cid)
    obtain ⟨z, hz, hmax, hend⟩ :=
      writerState_processWrites hauth hself hexports [] order (by simpa using horder) hinitial
    have hwrites : ∀ y, y ∈ (ws.initial, ws.initialData) :: order ↔ y ∈ ws.writes :=
      fun y => (horder.cons _).mem_iff
    refine ⟨z, ⟨(hwrites z).mp hz, fun y hy => hmax y ((hwrites y).mpr hy)⟩, ?_⟩
    exact hend.presents hexports

end WriteSet

end EnboxDwn

namespace EnboxDwn.WriteSet
open Journal MessageStore RecordsWriteHandler

local instance : Platform := Platform.ofText

def page (signature : String) (messageTimestamp : Timestamp) (text : String) :
    RecordsWriteMessage × Platform.ofText.Data where
  fst :=
    { recordId := "alice1"
      contextId := "alice1"
      descriptor :=
        { module := "pages", modulePath := "page", dataCid := text,
          dataSize := Platform.byteLength text, dataFormat := "text/plain", dateCreated := "1",
          messageTimestamp }
      authorization := { signature, signer := "alice" } }
  snd := text

def pageEdits : WriteSet where
  initial := (page "i" "1" "draft").1
  initialData := "draft"
  updates := [page "u" "3" "Long text", page "v" "4" "text", page "w" "2" "Longer text"]
  isInitial := by decide
  noSquash := by decide
  areUpdates := by
    intro y hy
    simp only [List.mem_cons, List.not_mem_nil, or_false] at hy
    obtain rfl | rfl | rfl := hy <;> exact ⟨rfl, by decide, rfl⟩
  carryData := by
    intro y hy
    simp only [List.mem_cons, List.not_mem_nil, or_false] at hy
    obtain rfl | rfl | rfl | rfl := hy <;> exact ⟨rfl, rfl⟩
  distinct := by decide

theorem start_of_empty (ws : WriteSet) (hroom : ws.writes.length < Replication.positionLimit) :
    ws.Start "alice" {} where
  wf := Log.WellFormed.empty
  unknown := rfl
  unstored := by simp
  room := by simpa using hroom
  holding := DataStore.holding_empty
  noData := fun _ => rfl

theorem admissible_permissive {m : RecordsWriteMessage}
    (hparsed : RecordsWrite.parse .permissive m = .ok ()) (data : Platform.ofText.Data)
    (s : Stores) : WriteAdmissible .permissive "alice" m (some data) s where
  parsed := hparsed
  authenticated := rfl
  authorized := rfl
  referential := ⟨{}, rfl, rfl⟩
  preProcessed := rfl
  validated := fun _ _ _ => rfl
  control := fun _ => rfl

theorem authorized_pageEdits : pageEdits.Authorized .permissive "alice" {} where
  initial := admissible_permissive (by decide) _ _
  updates := by
    intro done y hsub _
    have hy : y ∈ pageEdits.updates := hsub.subset List.mem_cons_self
    simp only [pageEdits, List.mem_cons, List.not_mem_nil, or_false] at hy
    obtain rfl | rfl | rfl := hy <;> exact admissible_permissive (by decide) _ _

/-- Whatever the order, the page ends as it was edited last. -/
theorem presents_pageEdits :
    pageEdits.Start "alice" {} ∧ ∀ order, order.Perm pageEdits.updates →
      ∃ x, pageEdits.IsNewest x ∧ Presents pageEdits.initial "alice" x
        (processWrites .permissive "alice" ((pageEdits.initial, pageEdits.initialData) :: order)
          {}) := by
  have hstart : pageEdits.Start "alice" {} := start_of_empty pageEdits (by decide)
  exact ⟨hstart, (presents_newest_iff hstart authorized_pageEdits
    DataStore.exportsImported_ofText).mpr (by decide)⟩

/-- A revocation by the grantor that names the grant it revokes as the one it invokes. -/
def revocation : RecordsWriteMessage where
  recordId := "alice1"
  contextId := "grant/alice1"
  descriptor :=
    { module := permissionsModuleUri, modulePath := PermissionsModule.revocationPath,
      dataCid := "revoked", dataSize := 7, dataFormat := "application/json", dateCreated := "1",
      messageTimestamp := "1", parentId := some "grant", permissionGrantId := some "grant" }
  authorization := { signature := "r", signer := "alice" }

def revocationAlone : WriteSet where
  initial := revocation
  initialData := "revoked"
  updates := []
  isInitial := by decide
  noSquash := by decide
  areUpdates := by simp
  carryData := by
    intro y hy
    rw [List.mem_singleton] at hy
    subst hy
    exact ⟨rfl, by decide⟩
  distinct := by decide

/-- The revocation is accepted and purges itself. -/
theorem revocationAlone_not_presents :
    revocationAlone.Start "alice" {} ∧ revocationAlone.Authorized .permissive "alice" {} ∧
    (∃ position, (RecordsWriteHandler.handle .permissive "alice" revocation (some "revoked")).result
      {} = .ok { status := { code := 202, detail := "Accepted" }, position }) ∧
    ¬ ∀ order, order.Perm revocationAlone.updates →
      ∃ x, revocationAlone.IsNewest x ∧ Presents revocationAlone.initial "alice" x
        (processWrites .permissive "alice"
          ((revocationAlone.initial, revocationAlone.initialData) :: order) {}) := by
  refine ⟨start_of_empty _ (by decide), ⟨?_, ?_⟩, ⟨some 1, by rfl⟩, fun hall => ?_⟩
  · exact admissible_permissive (by decide) _ _
  · intro done y hsub _
    cases hsub.subset List.mem_cons_self
  · obtain ⟨x, -, hpresents⟩ := hall [] (List.Perm.refl _)
    have hrows : recordRows ((processWrites .permissive "alice"
        [(revocationAlone.initial, revocationAlone.initialData)] {}).messages "alice")
        revocationAlone.initial.recordId = [] := by
      rw [← List.length_eq_zero_iff]
      decide
    have hlength := hpresents.rows.length_eq
    rw [hrows] at hlength
    split at hlength <;> simp at hlength

end EnboxDwn.WriteSet
