import EnboxDwn.RecordsHandlers

/-! Well-formed logs: distinct CIDs, rows indexed by the constructor of their own
message, fingerprint scopes that the indexes bear out. What a query of one record
returns, and what one latest-state transition does to the rows. -/
namespace EnboxDwn
open KeyValues

variable [P : Platform]

def StoredMessage.belongsTo (recordId : String) (m : StoredMessage) : Bool :=
  match m.message with
  | .recordsWrite w => w.recordId == recordId
  | .recordsDelete d => d.descriptor.recordId == recordId
  | .modulesConfigure _ => false

namespace Row

/-- The indexes are those the constructor of the row's message builds. -/
def Indexed (r : Row) : Prop :=
  match r.message.message with
  | .recordsWrite m => ∃ latest, r.indexes = RecordsWrite.constructIndexes m latest
  | .recordsDelete d =>
    ∃ i v, i.recordId = d.descriptor.recordId ∧ r.indexes = RecordsDelete.constructIndexes d i v
  | .modulesConfigure m => ∃ latest, r.indexes = ModulesConfigure.constructIndexes m latest

def Scoped (r : Row) : Prop :=
  Replication.scopeSetsMatch r.fingerprintScopes
    (Replication.computeFingerprintScopes r.message.message r.indexes) = true

theorem Indexed.match_recordFilter {r : Row} (h : r.Indexed) (recordId : String) :
    FilterUtility.matchFilter r.indexes (MessageStore.recordFilter recordId) =
      r.message.belongsTo recordId := by
  unfold Indexed at h
  unfold StoredMessage.belongsTo
  cases hm : r.message.message with
  | recordsWrite m =>
    simp only [hm] at h
    obtain ⟨latest, h⟩ := h
    simp [h, MessageStore.recordFilter, Filters.equalText]
  | recordsDelete d =>
    simp only [hm] at h
    obtain ⟨i, v, -, h⟩ := h
    simp [h, MessageStore.recordFilter, Filters.equalText]
  | modulesConfigure m =>
    simp only [hm] at h
    obtain ⟨latest, h⟩ := h
    simp [h, MessageStore.recordFilter, Filters.equalText, ModulesConfigure.constructIndexes]

/-- The default sort is the order of ages. -/
theorem Indexed.sortKey_eq {r : Row} (h : r.Indexed) : r.sortKey = Message.age r.message := by
  unfold Indexed at h
  unfold sortKey Message.age GenericMessage.messageTimestamp
  cases hm : r.message.message with
  | recordsWrite m =>
    simp only [hm] at h
    obtain ⟨latest, h⟩ := h
    simp [h, text, cid]
  | recordsDelete d =>
    simp only [hm] at h
    obtain ⟨i, v, -, h⟩ := h
    simp [h, text, cid]
  | modulesConfigure m =>
    simp only [hm] at h
    obtain ⟨latest, h⟩ := h
    simp [h, text, cid, ModulesConfigure.constructIndexes]

end Row

structure Log.WellFormed (log : Log) : Prop where
  distinct : (log.rows.map Row.cid).Nodup
  indexed : ∀ r ∈ log.rows, r.Indexed
  scopes : ∀ r ∈ log.rows, r.Scoped

namespace Log.WellFormed

theorem empty : Log.WellFormed ({} : Log) := ⟨by simp, by simp, by simp⟩

theorem eq_of_cid {log : Log} (wf : log.WellFormed) {r r' : Row} (hr : r ∈ log.rows)
    (hr' : r' ∈ log.rows) (h : r.cid = r'.cid) : r = r' :=
  List.inj_on_of_nodup_map wf.distinct hr hr' h

end Log.WellFormed

namespace MessageStore

theorem find?_isSome {log : Log} {cid : Cid} :
    (find? log cid).isSome = true ↔ ∃ r ∈ log.rows, r.cid = cid := by
  simp [find?]

def recordRows (log : Log) (recordId : String) : List Row :=
  log.rows.filter fun r => r.message.belongsTo recordId

theorem mem_recordRows {log : Log} {recordId : String} {r : Row} :
    r ∈ recordRows log recordId ↔ r ∈ log.rows ∧ r.message.belongsTo recordId = true :=
  List.mem_filter

theorem matching_record {log : Log} (wf : log.WellFormed) (recordId : String) :
    matching log [recordFilter recordId] = recordRows log recordId := by
  refine List.filter_congr fun r hr => ?_
  rw [FilterUtility.matchAnyFilter_singleton, (wf.indexed r hr).match_recordFilter]

theorem query_perm (log : Log) (filters : List Filter) :
    (query log filters).Perm ((matching log filters).map Row.message) :=
  (List.perm_insertionSort _ _).map _

theorem mem_query {log : Log} {filters : List Filter} {m : StoredMessage} :
    m ∈ query log filters ↔ ∃ r ∈ matching log filters, r.message = m := by
  rw [(query_perm log filters).mem_iff, List.mem_map]

theorem mem_query_record {log : Log} (wf : log.WellFormed) {recordId : String}
    {m : StoredMessage} :
    m ∈ query log [recordFilter recordId] ↔ ∃ r ∈ recordRows log recordId, r.message = m := by
  rw [mem_query, matching_record wf]

theorem query_unknown {log : Log} (wf : log.WellFormed) {recordId : String}
    (h : recordRows log recordId = []) : query log [recordFilter recordId] = [] := by
  have hperm := query_perm log [recordFilter recordId]
  rw [matching_record wf, h] at hperm
  exact List.perm_nil.mp hperm

theorem nodup_query {log : Log} (wf : log.WellFormed) (filters : List Filter) :
    ((query log filters).map Message.getCid).Nodup := by
  have hperm := (query_perm log filters).map Message.getCid
  rw [hperm.nodup_iff, List.map_map]
  exact wf.distinct.sublist (List.filter_sublist.map _)

/-! ## One latest-state transition -/

theorem cid_applyRetain {x : Retain} (hx : Message.getCid x.message = x.messageCid) (r : Row) :
    (applyRetain r x).cid = r.cid := by
  unfold applyRetain
  split
  · next h => simp [Row.cid, hx, h]
  · rfl

theorem foldl_applyRetain_of_not_mem {xs : List Retain} {r : Row}
    (h : ∀ x ∈ xs, x.messageCid ≠ r.cid) : xs.foldl applyRetain r = r := by
  induction xs with
  | nil => rfl
  | cons x xs ih =>
    have hx : applyRetain r x = r := if_neg (h x (by simp))
    rw [List.foldl_cons, hx]
    exact ih fun x' hx' => h x' (by simp [hx'])

theorem foldl_applyRetain_of_mem {xs : List Retain}
    (hcid : ∀ x ∈ xs, Message.getCid x.message = x.messageCid)
    (hnodup : (xs.map Retain.messageCid).Nodup) {x : Retain} (hx : x ∈ xs) {r : Row}
    (hr : x.messageCid = r.cid) :
    xs.foldl applyRetain r = { r with message := x.message, indexes := x.indexes } := by
  induction xs generalizing r with
  | nil => cases hx
  | cons y ys ih =>
    simp only [List.map_cons, List.nodup_cons, List.mem_map, not_exists, not_and] at hnodup
    have hcid' : ∀ x ∈ ys, Message.getCid x.message = x.messageCid :=
      fun x' hx' => hcid x' (by simp [hx'])
    rw [List.foldl_cons]
    cases List.mem_cons.mp hx with
    | inl h =>
      subst h
      have happly : applyRetain r x = { r with message := x.message, indexes := x.indexes } :=
        if_pos hr
      rw [happly]
      refine foldl_applyRetain_of_not_mem fun z hz => ?_
      rw [show Row.cid { r with message := x.message, indexes := x.indexes } = x.messageCid from
        hcid x (by simp)]
      exact hnodup.1 z hz
    | inr h =>
      have hne : y.messageCid ≠ r.cid := by
        rw [← hr]
        exact fun heq => hnodup.1 x h heq.symm
      rw [show applyRetain r y = r from if_neg hne]
      exact ih hcid' hnodup.2 h hr

/-- A completion changes nothing, or moves a write that is alone in its record. -/
theorem completeData_eq_ok {log log' : Log} {cid : Cid} {indexes : KeyValues}
    {encodedData : Option P.Data} {completed : CompleteDataResult}
    (hok : completeData log cid indexes encodedData = .ok (completed, log')) :
    log' = log ∨ ∃ row w row', row ∈ log.rows ∧ row.cid = cid ∧
      row.message.message = .recordsWrite w ∧
      (∀ r ∈ matching log [recordFilter w.recordId], r.cid = cid) ∧
      Replication.scopeSetsMatch row.fingerprintScopes
        (Replication.computeFingerprintScopes (.recordsWrite w) indexes) = true ∧
      row'.message.message = .recordsWrite w ∧ row'.indexes = indexes ∧
      row'.fingerprintScopes = row.fingerprintScopes ∧ row'.seq = log.head + 1 ∧
      assertInsertable log indexes = .ok () ∧ log'.head = log.head + 1 ∧
      log'.rows = log.rows.filter (fun r => r.cid ≠ cid) ++ [row'] := by
  unfold completeData at hok
  obtain ⟨row, hrow, hok⟩ := bind_eq_ok hok
  have hfind : find? log cid = some row := by
    unfold getLogEntryForMutation at hrow
    cases hf : find? log cid with
    | none => simp [hf] at hrow
    | some r => simpa [hf] using hrow
  cases hmsg : row.message.message with
  | recordsDelete d => simp [hmsg] at hok
  | modulesConfigure c => simp [hmsg] at hok
  | recordsWrite w =>
    simp only [hmsg] at hok
    by_cases hlatest : row.isLatest = true
    · rw [if_pos hlatest] at hok
      cases hok
      exact Or.inl rfl
    rw [if_neg hlatest] at hok
    by_cases hother : ((matching log [recordFilter w.recordId]).any fun r => r.cid ≠ cid) = true
    · rw [if_pos hother] at hok
      cases hok
      exact Or.inl rfl
    rw [if_neg hother] at hok
    obtain ⟨_, hscopes, hok⟩ := bind_eq_ok hok
    obtain ⟨_, hroom, hok⟩ := bind_eq_ok hok
    cases hok
    refine Or.inr ⟨row, w, ⟨log.head + 1, ⟨.recordsWrite w, encodedData.or row.message.encodedData⟩,
      indexes, row.fingerprintScopes⟩, List.mem_of_find?_eq_some hfind,
      by simpa using List.find?_some hfind, hmsg, fun r hr => ?_, ?_, rfl, rfl, rfl, rfl, hroom,
      rfl, rfl⟩
    · by_contra hne
      exact hother (List.any_eq_true.mpr ⟨r, hr, by simpa using hne⟩)
    · by_contra hmatch
      rw [Replication.assertFingerprintScopesUntouched, if_neg hmatch] at hscopes
      cases hscopes

end MessageStore

namespace StorageController
open MessageStore

/-- What a displaced message's row becomes. -/
def demote (r : Row) (m : StoredMessage) : Row :=
  match m.asRecordsWrite with
  | some w =>
    { r with message := m.stripInlineData, indexes := RecordsWrite.constructIndexes w false }
  | none => r

/-- The effect of a transition planned on `existing` on one row. -/
def displaceRow (existing : List StoredMessage) (newMessage : StoredMessage)
    (additional : List RecordsWriteMessage) (r : Row) : Option Row :=
  match existing.find? fun m => Message.getCid m = r.cid with
  | none => some r
  | some m =>
    if r.cid = Message.getCid newMessage then some r
    else if shouldKeepAsNonLatestWrite additional m then some (demote r m)
    else none

section Plan
variable {existing : List StoredMessage} {newMessage : StoredMessage} {indexes : KeyValues}
  {additional : List RecordsWriteMessage}

theorem mem_retains {x : Retain} :
    x ∈ (planTransition existing newMessage indexes additional).retains ↔
      ∃ m ∈ existing, Message.getCid m ≠ Message.getCid newMessage ∧
        shouldKeepAsNonLatestWrite additional m = true ∧ retainOf m = some x := by
  simp only [planTransition, displacedMessages, List.mem_filterMap, List.mem_filter,
    decide_eq_true_eq, and_assoc]

theorem mem_deletes {c : Cid} :
    c ∈ (planTransition existing newMessage indexes additional).deletes ↔
      ∃ m ∈ existing, Message.getCid m ≠ Message.getCid newMessage ∧
        shouldKeepAsNonLatestWrite additional m = false ∧ Message.getCid m = c := by
  simp only [planTransition, displacedMessages, List.mem_map, List.mem_filter,
    decide_eq_true_eq, Bool.not_eq_true', and_assoc]

theorem retainOf_eq_some {m : StoredMessage} {x : Retain} (h : retainOf m = some x) :
    ∃ w, m.asRecordsWrite = some w ∧ x = ⟨Message.getCid m, m.stripInlineData,
      RecordsWrite.constructIndexes w false⟩ := by
  unfold retainOf at h
  cases hw : m.asRecordsWrite with
  | none => simp [hw] at h
  | some w =>
    simp only [hw, Option.map_some, Option.some.injEq] at h
    exact ⟨w, rfl, h.symm⟩

theorem retains_sameCid {x : Retain}
    (hx : x ∈ (planTransition existing newMessage indexes additional).retains) :
    Message.getCid x.message = x.messageCid := by
  obtain ⟨m, -, -, -, hm⟩ := mem_retains.mp hx
  obtain ⟨w, -, rfl⟩ := retainOf_eq_some hm
  rfl

theorem nodup_retains (hnodup : (existing.map Message.getCid).Nodup) :
    ((planTransition existing newMessage indexes additional).retains.map
      Retain.messageCid).Nodup := by
  have hsub : ∀ l : List StoredMessage,
      ((l.filterMap retainOf).map Retain.messageCid).Sublist (l.map Message.getCid) := by
    intro l
    induction l with
    | nil => simp
    | cons m l ih =>
      cases h : retainOf m with
      | none => simpa [h] using ih.cons _
      | some x =>
        obtain ⟨w, -, rfl⟩ := retainOf_eq_some h
        simpa [h] using ih
  refine hnodup.sublist ((hsub _).trans ?_)
  exact (List.filter_sublist.trans List.filter_sublist).map _

theorem foldl_retains_of_not_kept {r : Row}
    (h : ∀ m ∈ existing, Message.getCid m = r.cid → Message.getCid m ≠ Message.getCid newMessage →
      shouldKeepAsNonLatestWrite additional m = true → m.asRecordsWrite = none) :
    (planTransition existing newMessage indexes additional).retains.foldl applyRetain r = r := by
  refine foldl_applyRetain_of_not_mem fun x hx hcid => ?_
  obtain ⟨m, hm, hne, hkeep, hx⟩ := mem_retains.mp hx
  obtain ⟨w, hw, rfl⟩ := retainOf_eq_some hx
  rw [h m hm hcid hne hkeep] at hw
  cases hw

theorem foldl_retains_of_kept (hnodup : (existing.map Message.getCid).Nodup) {r : Row}
    {m : StoredMessage} (hm : m ∈ existing) (hcid : Message.getCid m = r.cid)
    (hne : Message.getCid m ≠ Message.getCid newMessage)
    (hkeep : shouldKeepAsNonLatestWrite additional m = true) {w : RecordsWriteMessage}
    (hw : m.asRecordsWrite = some w) :
    (planTransition existing newMessage indexes additional).retains.foldl applyRetain r =
      demote r m := by
  have hx : (⟨Message.getCid m, m.stripInlineData, RecordsWrite.constructIndexes w false⟩ : Retain) ∈
      (planTransition existing newMessage indexes additional).retains :=
    mem_retains.mpr ⟨m, hm, hne, hkeep, by simp [retainOf, hw]⟩
  rw [foldl_applyRetain_of_mem (fun _ => retains_sameCid) (nodup_retains hnodup) hx hcid]
  simp [demote, hw]

theorem displaceRow_eq (hnodup : (existing.map Message.getCid).Nodup) (r : Row) :
    displaceRow existing newMessage additional r =
      Option.guard
        (fun r => r.cid ∉ (planTransition existing newMessage indexes additional).deletes)
        ((planTransition existing newMessage indexes additional).retains.foldl applyRetain r) := by
  unfold displaceRow
  cases hfind : existing.find? fun m => Message.getCid m = r.cid with
  | none =>
    have habsent : ∀ m ∈ existing, Message.getCid m ≠ r.cid := by simpa using hfind
    rw [foldl_retains_of_not_kept fun m hm hc => absurd hc (habsent m hm)]
    have hdel : r.cid ∉ (planTransition existing newMessage indexes additional).deletes := by
      intro h
      obtain ⟨m, hm, -, -, hc⟩ := mem_deletes.mp h
      exact habsent m hm hc
    simp [Option.guard, hdel]
  | some m =>
    have hm : m ∈ existing := List.mem_of_find?_eq_some hfind
    have hc : Message.getCid m = r.cid := by simpa using List.find?_some hfind
    have huniq : ∀ m' ∈ existing, Message.getCid m' = r.cid → m' = m := fun m' hm' h =>
      List.inj_on_of_nodup_map hnodup hm' hm (h.trans hc.symm)
    by_cases hnew : r.cid = Message.getCid newMessage
    · rw [foldl_retains_of_not_kept fun m' _ h hne => absurd (h.trans hnew) hne]
      have hdel : r.cid ∉ (planTransition existing newMessage indexes additional).deletes := by
        intro h
        obtain ⟨m', -, hne, -, hc'⟩ := mem_deletes.mp h
        exact hne (hc'.trans hnew)
      simp [Option.guard, hnew, hnew ▸ hdel]
    · by_cases hkeep : shouldKeepAsNonLatestWrite additional m = true
      · have hdel : r.cid ∉ (planTransition existing newMessage indexes additional).deletes := by
          intro h
          obtain ⟨m', hm', -, hkeep', hc'⟩ := mem_deletes.mp h
          rw [huniq m' hm' hc', hkeep] at hkeep'
          cases hkeep'
        have hfold : (planTransition existing newMessage indexes additional).retains.foldl
            applyRetain r = demote r m := by
          cases hw : m.asRecordsWrite with
          | some w => exact foldl_retains_of_kept hnodup hm hc (fun h => hnew (hc ▸ h)) hkeep hw
          | none =>
            rw [foldl_retains_of_not_kept fun m' hm' h _ _ => by rw [huniq m' hm' h, hw]]
            simp [demote, hw]
        have hcid : (demote r m).cid = r.cid := by
          unfold demote
          split
          · exact hc
          · rfl
        rw [hfold]
        simp [Option.guard, hnew, hkeep, hcid, hdel]
      · have hdel : r.cid ∈ (planTransition existing newMessage indexes additional).deletes :=
          mem_deletes.mpr ⟨m, hm, fun h => hnew (hc ▸ h), by simpa using hkeep, hc⟩
        rw [foldl_retains_of_not_kept fun m' hm' h _ hkeep' =>
          absurd (huniq m' hm' h ▸ hkeep') hkeep]
        simp [Option.guard, hnew, hkeep, hdel]

/-- A planned transition acts on each row by itself. -/
theorem displace_planTransition (hnodup : (existing.map Message.getCid).Nodup) (rows : List Row) :
    displace rows (planTransition existing newMessage indexes additional) =
      rows.filterMap (displaceRow existing newMessage additional) := by
  rw [displace, ← List.filterMap_eq_filter, List.filterMap_map]
  exact (List.filterMap_congr fun r _ => displaceRow_eq hnodup r).symm

end Plan

/-! ## The commit on a fresh snapshot -/

/-- The messages of a record as the log holds them. -/
structure Snapshot (log : Log) (recordId : String) (existing : List StoredMessage) : Prop where
  mem_iff : ∀ m, m ∈ existing ↔ ∃ r ∈ recordRows log recordId, r.message = m
  nodup : (existing.map Message.getCid).Nodup

theorem snapshot_query {log : Log} (wf : log.WellFormed) (recordId : String) :
    Snapshot log recordId (query log [recordFilter recordId]) :=
  ⟨fun _ => mem_query_record wf, nodup_query wf _⟩

theorem constructIndexes_ne_nil (m : RecordsWriteMessage) (latest : Bool) :
    (RecordsWrite.constructIndexes m latest).isEmpty = false := rfl

/-- The scopes of a write do not depend on whether it is the latest state. -/
theorem scopes_constructIndexes (m : RecordsWriteMessage) (latest : Bool) :
    Replication.computeFingerprintScopes (.recordsWrite m) (RecordsWrite.constructIndexes m latest) =
      Replication.globalDomain :: Replication.moduleDomain m.descriptor.module ::
        Replication.taggedDomains m.descriptor.module
          (KeyValues.get (m.descriptor.tags.getD []) "module") := by
  have htag : KeyValues.get (RecordsWrite.constructIndexes m latest) "tag.module" =
      if latest then KeyValues.get (m.descriptor.tags.getD []) "module" else none :=
    RecordsWrite.get_tag m latest "module"
  simp only [Replication.computeFingerprintScopes, RecordsWrite.get_module, KeyValues.text, htag,
    GenericMessage.descriptorTag]
  cases latest
  · simp
  · cases KeyValues.get (m.descriptor.tags.getD []) "module" <;> simp

theorem asRecordsWrite_eq_some {m : StoredMessage} {w : RecordsWriteMessage} :
    m.asRecordsWrite = some w ↔ m.message = .recordsWrite w := by
  unfold StoredMessage.asRecordsWrite
  cases m.message <;> simp

section Commit
variable {log : Log} {recordId : String} {existing : List StoredMessage}
  {newMessage : StoredMessage} {indexes : KeyValues} {additional : List RecordsWriteMessage}

theorem assertReplaceable_ok (wf : log.WellFormed) (snap : Snapshot log recordId existing)
    {x : Retain} (hx : x ∈ (planTransition existing newMessage indexes additional).retains) :
    assertReplaceable log x = .ok () := by
  obtain ⟨m, hm, -, -, hx⟩ := mem_retains.mp hx
  obtain ⟨w, hw, rfl⟩ := retainOf_eq_some hx
  obtain ⟨r, hr, rfl⟩ := (snap.mem_iff m).mp hm
  have hrow : r ∈ log.rows := (mem_recordRows.mp hr).1
  have hmsg : r.message.message = .recordsWrite w := asRecordsWrite_eq_some.mp hw
  have hfind : find? log r.cid = some r := Selection.find?_of_nodup_map wf.distinct hrow
  have hindexed := wf.indexed r hrow
  have hscopes := wf.scopes r hrow
  simp only [Row.Indexed, hmsg] at hindexed
  obtain ⟨latest, hlatest⟩ := hindexed
  rw [Row.Scoped, hmsg, hlatest, scopes_constructIndexes, ← scopes_constructIndexes w false]
    at hscopes
  have hstrip : r.message.stripInlineData.message = .recordsWrite w := hmsg
  have hentry : getLogEntryForMutation log (Message.getCid r.message)
      .messageStoreUpdateMessageAndIndexesMessageNotFound = .ok r := by
    rw [show Message.getCid r.message = r.cid from rfl]
    simp [getLogEntryForMutation, hfind]
  simp [assertReplaceable, hentry, Replication.assertFingerprintScopesUntouched, hstrip,
    hscopes, assertIndexable, constructIndexes_ne_nil]

theorem assertCommittable_ok (wf : log.WellFormed) (snap : Snapshot log recordId existing)
    (hindexes : indexes.isEmpty = false)
    (hroom : (∃ r ∈ log.rows, r.cid = Message.getCid newMessage) ∨ log.head + 1 < Replication.positionLimit) :
    assertCommittable log (planTransition existing newMessage indexes additional) = .ok () := by
  have hsame : (planTransition existing newMessage indexes additional).retains.forM
      (fun x => assertSameCid x.messageCid x.message) = .ok () :=
    forM_ok fun x hx => by simp [assertSameCid, retains_sameCid hx]
  have hreplace : (planTransition existing newMessage indexes additional).retains.forM
      (assertReplaceable log) = .ok () :=
    forM_ok fun x hx => assertReplaceable_ok wf snap hx
  have hinsert : inserts log (planTransition existing newMessage indexes additional) = true →
      assertInsertable log indexes = .ok () := by
    intro h
    have habsent : ¬ ∃ r ∈ log.rows, r.cid = Message.getCid newMessage := by
      rw [← find?_isSome]
      simpa [inserts, planTransition] using h
    cases hroom with
    | inl h' => exact absurd h' habsent
    | inr h' =>
      simp [assertInsertable, assertIndexable, hindexes, Replication.assertPositionEncodable, h']
  unfold assertCommittable
  rw [hsame, hreplace]
  by_cases h : inserts log (planTransition existing newMessage indexes additional) = true
  · have hok := hinsert h
    simp only [planTransition] at h hok ⊢
    simp [h, hok]
  · simp [h]

/-- The displaced rows keep their CIDs, so the log stays well-formed. -/
theorem cid_of_displaceRow {r r' : Row}
    (h : displaceRow existing newMessage additional r = some r') : r'.cid = r.cid := by
  unfold displaceRow at h
  split at h
  · cases h; rfl
  · next m hfind =>
    have hc : Message.getCid m = r.cid := by simpa using List.find?_some hfind
    split at h
    · cases h; rfl
    · split at h
      · cases h
        unfold demote
        split
        · exact hc
        · rfl
      · cases h

theorem nodup_filterMap_displaceRow {rows : List Row} (h : (rows.map Row.cid).Nodup) :
    ((rows.filterMap (displaceRow existing newMessage additional)).map Row.cid).Nodup := by
  refine h.sublist ?_
  clear h
  induction rows with
  | nil => simp
  | cons r rows ih =>
    cases hr : displaceRow existing newMessage additional r with
    | none => simpa [hr] using ih.cons _
    | some r' => simpa [hr, cid_of_displaceRow hr] using ih

/-- On a fresh snapshot a displaced row is one of the record's own. -/
theorem displaceRow_of_snapshot (wf : log.WellFormed) (snap : Snapshot log recordId existing)
    {r : Row} (hr : r ∈ log.rows) :
    displaceRow existing newMessage additional r =
      if r.message.belongsTo recordId = false ∨ r.cid = Message.getCid newMessage then some r
      else if shouldKeepAsNonLatestWrite additional r.message then some (demote r r.message)
      else none := by
  unfold displaceRow
  by_cases hb : r.message.belongsTo recordId = true
  · have hmem : r.message ∈ existing :=
      (snap.mem_iff _).mpr ⟨r, mem_recordRows.mpr ⟨hr, hb⟩, rfl⟩
    have hfind : existing.find? (fun m => Message.getCid m = r.cid) = some r.message :=
      Selection.find?_of_nodup_map snap.nodup hmem
    simp [hfind, hb]
  · have hfind : existing.find? (fun m => Message.getCid m = r.cid) = none := by
      refine List.find?_eq_none.mpr fun m hm hc => hb ?_
      obtain ⟨r', hr', rfl⟩ := (snap.mem_iff m).mp hm
      obtain ⟨hr'mem, hr'b⟩ := mem_recordRows.mp hr'
      have hc' : r'.cid = r.cid := of_decide_eq_true hc
      rwa [← wf.eq_of_cid hr'mem hr hc']
    simp [hfind, hb]

end Commit

end StorageController

end EnboxDwn
