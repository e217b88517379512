import EnboxDwn.SquashConvergence

/-! Squashes that are cut off and run again. The rows of a purged record go one by one, in any order,
so a squash may find any part of a record that it has begun to purge. -/
namespace EnboxDwn
open KeyValues Journal MessageStore StorageController

variable [P : Platform]

/-! ## Row deletes in any order -/

/-- The order in which the row deletes of one record complete. -/
structure DeletionOrder where
  arrange : List StoredMessage → List StoredMessage
  perm : ∀ messages, (arrange messages).Perm messages

/-- The rows of a record go as they were read. -/
def DeletionOrder.inTurn : DeletionOrder := ⟨id, fun _ => .refl _⟩

namespace StorageController

def purgeRecordMessagesIn (order : DeletionOrder) (tenant : Did)
    (recordMessages : List StoredMessage) : Task Unit :=
  match Records.getNewestRecordsWrite recordMessages with
  | none => Program.throw .typeError
  | some newestRecordsWrite => do
    Stores.deleteData ⟨tenant, newestRecordsWrite.recordId, newestRecordsWrite.descriptor.dataCid⟩
    Program.forEach (Stores.deleteMessage tenant)
      ((order.arrange recordMessages).map Message.getCid)

/-- The record is another one than that of the squash, and its newest message is older. -/
def isOlder (m : RecordsWriteMessage) (messages : List StoredMessage) : Bool :=
  match Message.getNewestMessage messages with
  | none => false
  | some newestMessage =>
    newestMessage.recordId ≠ m.recordId &&
      newestMessage.message.messageTimestamp < m.descriptor.messageTimestamp

def purgeIfOlderIn (order : DeletionOrder) (tenant : Did) (m : RecordsWriteMessage)
    (messages : List StoredMessage) : Task Unit :=
  if isOlder m messages then purgeRecordMessagesIn order tenant messages else pure ()

def performRecordsSquashIn (order : DeletionOrder) (tenant : Did) (message : RecordsWriteMessage) :
    Task Unit := do
  let siblingMessages ← Stores.query tenant [squashFilter message]
  Program.forEach (purgeIfOlderIn order tenant message) (groupByRecordId siblingMessages)

theorem performRecordsSquashIn_inTurn (tenant : Did) (message : RecordsWriteMessage) :
    performRecordsSquashIn .inTurn tenant message = performRecordsSquash tenant message := by
  have hbody : purgeIfOlderIn .inTurn tenant message = purgeIfOlder tenant message := by
    funext messages
    unfold purgeIfOlderIn isOlder purgeIfOlder
    cases Message.getNewestMessage messages with
    | none => rfl
    | some newest =>
      by_cases hself : newest.recordId = message.recordId
      · simp [hself]
      · by_cases holder : newest.message.messageTimestamp < message.descriptor.messageTimestamp
        · simp only [hself, holder, ne_eq, not_false_eq_true, decide_true, Bool.and_self, if_true,
            if_false]
          rfl
        · simp [hself, holder]
  rw [performRecordsSquash_eq, performRecordsSquashIn, hbody]

/-- The data that goes with a record: that of its newest write. -/
def purgedRef (tenant : Did) (messages : List StoredMessage) : Option DataRef :=
  (Records.getNewestRecordsWrite messages).map fun w => ⟨tenant, w.recordId, w.descriptor.dataCid⟩

end StorageController

/-- The store after the records, each with its rows and its data, are gone. -/
def Stores.purged (s : Stores) (tenant : Did) (groups : List (List StoredMessage)) : Stores :=
  { s.without tenant (groups.flatten.map Message.getCid) with
    data := s.data.deleteAll (groups.filterMap (purgedRef tenant)) }

section Purges
variable {tenant : Did} {s t : Stores} {order : DeletionOrder} {m : RecordsWriteMessage}
  {g : List StoredMessage} {gs : List (List StoredMessage)} {w : RecordsWriteMessage}

theorem without_congr {a b : List Cid} (h : ∀ c, c ∈ a ↔ c ∈ b) :
    s.without tenant a = s.without tenant b := by
  unfold Stores.without Log.restrict
  congr 3
  funext r
  simp [h]

theorem without_nil : s.without tenant [] = s := by
  simp [Stores.without, Stores.setLog, Log.restrict]

theorem purged_append (a b : List (List StoredMessage)) :
    (s.purged tenant a).purged tenant b = s.purged tenant (a ++ b) := by
  unfold Stores.purged
  rw [without_without, List.flatten_append, List.map_append, List.filterMap_append]
  simp [DataStore.deleteAll, List.foldl_append]

theorem purged_nil : s.purged tenant [] = s := by
  unfold Stores.purged
  rw [List.flatten_nil, List.map_nil, without_nil]
  rfl

/-- The store when the data of a record and some of its rows are gone. -/
def Stores.cutInto (s : Stores) (tenant : Did) (w : RecordsWriteMessage)
    (part : List StoredMessage) : Stores :=
  { s.without tenant (part.map Message.getCid) with
    data := s.data.delete ⟨tenant, w.recordId, w.descriptor.dataCid⟩ }

theorem runs_purgeRecordMessagesIn (h : Records.getNewestRecordsWrite g = some w) :
    Program.Runs (purgeRecordMessagesIn order tenant g) s () (s.purged tenant [g]) := by
  unfold purgeRecordMessagesIn
  rw [h]
  refine Program.Runs.bind ⟨rfl, rfl⟩
    ⟨(Program.returns_forEach (fun _ _ => ⟨(), rfl⟩) _).result_unit _, ?_⟩
  rw [final_forEach_deleteMessage]
  have hcids : ∀ c, c ∈ (order.arrange g).map Message.getCid ↔
      c ∈ [g].flatten.map Message.getCid := by
    intro c
    rw [List.flatten_singleton, ((order.perm g).map _).mem_iff]
  have hsame := @without_congr _ tenant s _ _ hcids
  unfold Stores.purged
  rw [← hsame]
  simp only [List.filterMap_cons, purgedRef, h, Option.map_some, List.filterMap_nil,
    DataStore.deleteAll, List.foldl_cons, List.foldl_nil]
  rfl

theorem cut_deleteMessages {cids : List Cid}
    (h : t ∈ (Program.forEach (Stores.deleteMessage tenant) cids).cuts s) :
    ∃ k, t = s.without tenant (cids.take k) := by
  induction cids generalizing s with
  | nil =>
    refine ⟨0, ?_⟩
    rw [List.mem_singleton.mp h, List.take_nil, without_nil]
  | cons c cids ih =>
    obtain h | ⟨_, -, h⟩ := Program.mem_cuts_bind h
    · obtain rfl | h := List.mem_cons.mp h
      · exact ⟨0, by rw [List.take_zero, without_nil]⟩
      · refine ⟨1, ?_⟩
        rw [List.mem_singleton.mp h]
        unfold Stores.without Log.restrict MessageStore.delete
        simp
    · obtain ⟨k, rfl⟩ := ih h
      refine ⟨k + 1, ?_⟩
      rw [Stores.final_deleteMessage, List.take_succ_cons]
      have hone : s.setLog tenant (MessageStore.delete (s.messages tenant) c) =
          { s.without tenant [c] with data := s.data } := by
        unfold Stores.without Log.restrict MessageStore.delete
        simp [Stores.setLog]
      rw [hone, without_without]
      rfl

/-- A purge is cut off before its first step, or among its row deletes. -/
theorem cut_purgeRecordMessagesIn (hw : Records.getNewestRecordsWrite g = some w)
    (h : t ∈ (purgeRecordMessagesIn order tenant g).cuts s) :
    t = s ∨ ∃ part ⊆ g, t = s.cutInto tenant w part := by
  unfold purgeRecordMessagesIn at h
  rw [hw] at h
  obtain h | ⟨_, -, h⟩ := Program.mem_cuts_bind h
  · obtain rfl | h := List.mem_cons.mp h
    · exact Or.inl rfl
    · refine Or.inr ⟨[], List.nil_subset g, ?_⟩
      rw [List.mem_singleton.mp h]
      unfold Stores.cutInto
      rw [List.map_nil, without_nil]
  · obtain ⟨k, rfl⟩ := cut_deleteMessages h
    refine Or.inr ⟨(order.arrange g).take k, ?_, ?_⟩
    · exact fun x hx => (order.perm g).subset (List.mem_of_mem_take hx)
    · unfold Stores.cutInto
      rw [List.map_take]
      rfl

theorem runs_purgeIfOlderIn
    (hgs : isOlder m g = true → ∃ w, Records.getNewestRecordsWrite g = some w) :
    Program.Runs (purgeIfOlderIn order tenant m g) s ()
      (s.purged tenant ([g].filter (isOlder m))) := by
  unfold purgeIfOlderIn
  by_cases holder : isOlder m g = true
  · obtain ⟨w, hw⟩ := hgs holder
    rw [if_pos holder, List.filter_cons_of_pos holder, List.filter_nil]
    exact runs_purgeRecordMessagesIn hw
  · rw [if_neg holder, List.filter_cons_of_neg holder, List.filter_nil, purged_nil]
    exact Program.runs_pure () s

/-- When every older record has a write, all of them go. -/
theorem runs_forEach_purgeIfOlderIn
    (hgs : ∀ g ∈ gs, isOlder m g = true → ∃ w, Records.getNewestRecordsWrite g = some w) :
    Program.Runs (Program.forEach (purgeIfOlderIn order tenant m) gs) s ()
      (s.purged tenant (gs.filter (isOlder m))) := by
  induction gs generalizing s with
  | nil =>
    rw [List.filter_nil, purged_nil]
    exact Program.runs_pure () s
  | cons g gs ih =>
    have hrest := @ih (s.purged tenant ([g].filter (isOlder m)))
      fun g' hg' => hgs g' (List.mem_cons_of_mem _ hg')
    rw [purged_append, ← List.filter_append] at hrest
    exact (runs_purgeIfOlderIn (hgs g List.mem_cons_self)).bind hrest

/-- An older record without a write stops the squash with an error. -/
theorem result_forEach_purgeIfOlderIn (hg : g ∈ gs) (holder : isOlder m g = true)
    (hnone : Records.getNewestRecordsWrite g = none) :
    (Program.forEach (purgeIfOlderIn order tenant m) gs).result s ≠ .ok () := by
  induction gs generalizing s with
  | nil => cases hg
  | cons g' gs ih =>
    intro hok
    obtain ⟨_, hfirst, hrest, -⟩ := Program.bind_eq_ok hok
    obtain rfl | hg := List.mem_cons.mp hg
    · unfold purgeIfOlderIn purgeRecordMessagesIn at hfirst
      rw [if_pos holder, hnone] at hfirst
      cases hfirst
    · exact ih hg hrest

/-- Where a squash can be cut off: after some records, or within the purge of the next one. -/
theorem cut_forEach_purgeIfOlderIn (h : t ∈ (Program.forEach (purgeIfOlderIn order tenant m) gs).cuts s) :
    ∃ done rest, gs = done ++ rest ∧
      (∀ g ∈ done, isOlder m g = true → ∃ w, Records.getNewestRecordsWrite g = some w) ∧
      (t = s.purged tenant (done.filter (isOlder m)) ∨
        ∃ g rest' w part, rest = g :: rest' ∧ isOlder m g = true ∧
          Records.getNewestRecordsWrite g = some w ∧ part ⊆ g ∧
          t = (s.purged tenant (done.filter (isOlder m))).cutInto tenant w part) := by
  induction gs generalizing s with
  | nil =>
    refine ⟨[], [], rfl, by simp, Or.inl ?_⟩
    rw [List.filter_nil, purged_nil]
    exact List.mem_singleton.mp h
  | cons g gs ih =>
    have hstart : s = s.purged tenant (([] : List (List StoredMessage)).filter (isOlder m)) := by
      rw [List.filter_nil, purged_nil]
    obtain h | ⟨_, hfirst, h⟩ := Program.mem_cuts_bind h
    · refine ⟨[], g :: gs, rfl, by simp, ?_⟩
      rw [← hstart]
      unfold purgeIfOlderIn at h
      by_cases holder : isOlder m g = true
      · rw [if_pos holder] at h
        cases hw : Records.getNewestRecordsWrite g with
        | none =>
          unfold purgeRecordMessagesIn at h
          rw [hw] at h
          exact Or.inl (List.mem_singleton.mp h)
        | some w =>
          obtain rfl | ⟨part, hpart, rfl⟩ := cut_purgeRecordMessagesIn hw h
          · exact Or.inl rfl
          · exact Or.inr ⟨g, gs, w, part, rfl, holder, hw, hpart, rfl⟩
      · rw [if_neg holder] at h
        exact Or.inl (List.mem_singleton.mp h)
    · have hwrite : isOlder m g = true → ∃ w, Records.getNewestRecordsWrite g = some w := by
        intro holder
        unfold purgeIfOlderIn purgeRecordMessagesIn at hfirst
        rw [if_pos holder] at hfirst
        cases hw : Records.getNewestRecordsWrite g with
        | none =>
          rw [hw] at hfirst
          cases hfirst
        | some w => exact ⟨w, rfl⟩
      rw [(runs_purgeIfOlderIn hwrite).final_eq] at h
      obtain ⟨done, rest, rfl, hdone, hcut⟩ := ih h
      rw [purged_append, ← List.filter_append] at hcut
      refine ⟨g :: done, rest, rfl, ?_, hcut⟩
      intro g' hg'
      obtain rfl | hg' := List.mem_cons.mp hg'
      · exact hwrite
      · exact hdone g' hg'

end Purges

/-! ## What is left of a record -/

section Remaining
variable {log : Log} {m : RecordsWriteMessage} {l : List StoredMessage} {cids : List Cid}

/-- What a query finds after some rows are gone. -/
theorem query_restrict (wf : log.WellFormed) (filters : List Filter) :
    query (log.restrict fun r => r.cid ∉ cids) filters =
      (query log filters).filter fun x => Message.getCid x ∉ cids := by
  unfold query
  rw [List.filter_map]
  congr 1
  have hrows : matching (log.restrict fun r => r.cid ∉ cids) filters =
      (matching log filters).filter fun r => r.cid ∉ cids := by
    unfold matching Log.restrict
    rw [List.filter_filter, List.filter_filter]
    congr 1
    funext r
    rw [Bool.and_comm]
  have hmem : ∀ r ∈ (matching log filters).insertionSort fun a b => a.sortKey ≤ b.sortKey,
      r ∈ log.rows := fun r hr =>
    (List.mem_filter.mp ((List.perm_insertionSort _ _).mem_iff.mp hr)).1
  have hsorted := List.pairwise_insertionSort (fun a b : Row => a.sortKey ≤ b.sortKey)
  have hperm : ((matching log filters).filter fun r => decide (r.cid ∉ cids)).Perm
      (((matching log filters).insertionSort fun a b => a.sortKey ≤ b.sortKey).filter
        fun r => decide (r.cid ∉ cids)) :=
    ((List.perm_insertionSort _ _).filter _).symm
  rw [hrows]
  have hrow : ∀ r ∈ ((matching log filters).filter fun r => decide (r.cid ∉ cids)).insertionSort
      (fun a b => a.sortKey ≤ b.sortKey), r ∈ log.rows := fun r hr =>
    (List.mem_filter.mp (List.mem_filter.mp ((List.perm_insertionSort _ _).mem_iff.mp hr)).1).1
  have hantisymm : ∀ a b : Row, a ∈ ((matching log filters).filter
      fun r => decide (r.cid ∉ cids)).insertionSort (fun a b => a.sortKey ≤ b.sortKey) →
      b ∈ ((matching log filters).insertionSort fun a b => a.sortKey ≤ b.sortKey).filter
        (fun r => decide (r.cid ∉ cids)) → a.sortKey ≤ b.sortKey → b.sortKey ≤ a.sortKey →
      a = b := by
    intro a b ha hb hab hba
    have harow := hrow a ha
    have hbrow := hmem b (List.mem_filter.mp hb).1
    have hkey := le_antisymm hab hba
    rw [(wf.indexed a harow).sortKey_eq, (wf.indexed b hbrow).sortKey_eq] at hkey
    exact wf.eq_of_cid harow hbrow (Message.getCid_eq_of_age_eq hkey)
  exact List.Perm.eq_of_pairwise hantisymm (hsorted _) ((hsorted _).filter _)
    ((List.perm_insertionSort _ _).trans hperm)

def ofRecord (l : List StoredMessage) (recordId : String) : List StoredMessage :=
  l.filter fun x => x.recordId = recordId

theorem groupByRecordId_eq :
    groupByRecordId l = (l.map StoredMessage.recordId).eraseDups.map (ofRecord l) := rfl

def olderRecords (m : RecordsWriteMessage) (l : List StoredMessage) : List String :=
  (l.map StoredMessage.recordId).eraseDups.filter fun recordId => isOlder m (ofRecord l recordId)

theorem isOlder_ofRecord {recordId : String} : isOlder m (ofRecord l recordId) = true ↔
    (∃ x ∈ l, x.recordId = recordId) ∧ recordId ≠ m.recordId ∧
      ∀ x ∈ l, x.recordId = recordId →
        x.message.messageTimestamp < m.descriptor.messageTimestamp := by
  unfold isOlder
  cases hnewest : Message.getNewestMessage (ofRecord l recordId) with
  | none =>
    rw [Message.getNewestMessage_eq_none] at hnewest
    simp only [Bool.false_eq_true, false_iff]
    rintro ⟨⟨x, hx, hrecord⟩, -⟩
    have hmem : x ∈ ofRecord l recordId := List.mem_filter.mpr ⟨hx, by simpa using hrecord⟩
    rw [hnewest] at hmem
    cases hmem
  | some n =>
    obtain ⟨hn, hmax⟩ := Message.getNewestMessage_eq_some hnewest
    obtain ⟨hn, hrecord⟩ := List.mem_filter.mp hn
    have hrecord : n.recordId = recordId := of_decide_eq_true hrecord
    dsimp only
    rw [Bool.and_eq_true, decide_eq_true_eq, decide_eq_true_eq, hrecord]
    constructor
    · rintro ⟨hne, hlt⟩
      refine ⟨⟨n, hn, hrecord⟩, hne, fun x hx hxrecord => ?_⟩
      have hage := hmax x (List.mem_filter.mpr ⟨hx, by simpa using hxrecord⟩)
      exact lt_of_le_of_lt (Prod.Lex.monotone_fst _ _ hage) hlt
    · rintro ⟨-, hne, hall⟩
      exact ⟨hne, hall n hn hrecord⟩

theorem mem_olderRecords {recordId : String} : recordId ∈ olderRecords m l ↔
    (∃ x ∈ l, x.recordId = recordId) ∧ recordId ≠ m.recordId ∧
      ∀ x ∈ l, x.recordId = recordId →
        x.message.messageTimestamp < m.descriptor.messageTimestamp := by
  unfold olderRecords
  rw [List.mem_filter, isOlder_ofRecord, List.mem_eraseDups, List.mem_map]
  constructor
  · exact fun h => h.2
  · exact fun h => ⟨h.1, h⟩

theorem filter_groupByRecordId :
    (groupByRecordId l).filter (isOlder m) = (olderRecords m l).map (ofRecord l) := by
  rw [groupByRecordId_eq, List.filter_map]
  rfl

omit P in
theorem nodup_eraseDups (l : List String) : l.eraseDups.Nodup := by
  induction hlength : l.length using Nat.strong_induction_on generalizing l with
  | _ n ih =>
    cases l with
    | nil => exact List.nodup_nil
    | cons a l =>
      rw [List.eraseDups_cons, List.nodup_cons]
      have hshort := List.length_filter_le (fun b => !b == a) l
      rw [List.length_cons] at hlength
      exact ⟨by simp [List.mem_eraseDups], ih _ (by omega) _ rfl⟩

theorem nodup_olderRecords : (olderRecords m l).Nodup := (nodup_eraseDups _).filter _

theorem recordId_of_newest {recordId : String} {w : RecordsWriteMessage}
    (h : Records.getNewestRecordsWrite (ofRecord l recordId) = some w) :
    w.recordId = recordId := by
  obtain ⟨x, hx, hw⟩ := mem_of_getNewestRecordsWrite h
  have hrecord : x.recordId = recordId := of_decide_eq_true (List.mem_filter.mp hx).2
  rw [← hrecord, StoredMessage.recordId, hw]

/-- What goes with the records: their messages in the list. -/
def groupsOf (l : List StoredMessage) (records : List String) : List (List StoredMessage) :=
  records.map (ofRecord l)

theorem mem_cids_groupsOf {records : List String} {c : Cid} :
    c ∈ (groupsOf l records).flatten.map Message.getCid ↔
      ∃ x ∈ l, Message.getCid x = c ∧ x.recordId ∈ records := by
  rw [List.mem_map]
  constructor
  · rintro ⟨x, hx, rfl⟩
    obtain ⟨g, hg, hx⟩ := List.mem_flatten.mp hx
    obtain ⟨recordId, hrecord, rfl⟩ := List.mem_map.mp hg
    obtain ⟨hx, hid⟩ := List.mem_filter.mp hx
    exact ⟨x, hx, rfl, by rwa [of_decide_eq_true hid]⟩
  · rintro ⟨x, hx, rfl, hrecord⟩
    refine ⟨x, List.mem_flatten.mpr ⟨ofRecord l x.recordId, List.mem_map_of_mem hrecord, ?_⟩, rfl⟩
    exact List.mem_filter.mpr ⟨hx, by simp⟩

/-- Only rows of older records are gone. -/
structure Loses (m : RecordsWriteMessage) (l : List StoredMessage) (cids : List Cid) : Prop where
  distinct : ∀ x ∈ l, ∀ y ∈ l, Message.getCid x = Message.getCid y → x = y
  older : ∀ c ∈ cids, ∃ x ∈ l, Message.getCid x = c ∧ x.recordId ∈ olderRecords m l

def left (l : List StoredMessage) (cids : List Cid) : List StoredMessage :=
  l.filter fun x => Message.getCid x ∉ cids

theorem mem_left {x : StoredMessage} : x ∈ left l cids ↔ x ∈ l ∧ Message.getCid x ∉ cids := by
  simp [left]

/-- The older records that are left are those of which a row is left. -/
theorem Loses.mem_olderRecords (h : Loses m l cids) {recordId : String} :
    recordId ∈ olderRecords m (left l cids) ↔
      recordId ∈ olderRecords m l ∧ ∃ x ∈ left l cids, x.recordId = recordId := by
  rw [EnboxDwn.mem_olderRecords, EnboxDwn.mem_olderRecords]
  constructor
  · rintro ⟨⟨x, hx, hid⟩, hne, hall⟩
    refine ⟨⟨⟨x, (mem_left.mp hx).1, hid⟩, hne, fun y hy hyid => ?_⟩, x, hx, hid⟩
    by_cases hgone : Message.getCid y ∈ cids
    · obtain ⟨z, hz, hcid, hzolder⟩ := h.older _ hgone
      rw [h.distinct z hz y hy hcid] at hzolder
      exact (EnboxDwn.mem_olderRecords.mp hzolder).2.2 y hy rfl
    · exact hall y (mem_left.mpr ⟨hy, hgone⟩) hyid
  · rintro ⟨⟨-, hne, hall⟩, x, hx, hid⟩
    exact ⟨⟨x, hx, hid⟩, hne, fun y hy => hall y (mem_left.mp hy).1⟩

/-- A purge of what is left ends where the purge of everything ends. -/
theorem Loses.mem_cids (h : Loses m l cids) (c : Cid) :
    c ∈ cids ++ (groupsOf (left l cids) (olderRecords m (left l cids))).flatten.map Message.getCid ↔
      c ∈ (groupsOf l (olderRecords m l)).flatten.map Message.getCid := by
  rw [List.mem_append, mem_cids_groupsOf, mem_cids_groupsOf]
  constructor
  · rintro (hgone | ⟨x, hx, hcid, hrecord⟩)
    · exact h.older c hgone
    · exact ⟨x, (mem_left.mp hx).1, hcid, (h.mem_olderRecords.mp hrecord).1⟩
  · rintro ⟨x, hx, rfl, hrecord⟩
    by_cases hgone : Message.getCid x ∈ cids
    · exact Or.inl hgone
    · have hleft := mem_left.mpr ⟨hx, hgone⟩
      exact Or.inr ⟨x, hleft, rfl, h.mem_olderRecords.mpr ⟨hrecord, x, hleft, rfl⟩⟩

end Remaining

/-! ## The whole squash -/

def siblings (tenant : Did) (m : RecordsWriteMessage) (s : Stores) : List StoredMessage :=
  query (s.messages tenant) [squashFilter m]

/-- What a squash leaves to its next run: of every older record of which a row is left a write is
left as well, and the newest write that is left names the data that the newest write of the record
named before, or data that the record does not have. -/
def ResumableAfter (tenant : Did) (m : RecordsWriteMessage) (s t : Stores) : Prop :=
  ∀ recordId ∈ olderRecords m (siblings tenant m t),
    ∃ w, Records.getNewestRecordsWrite (ofRecord (siblings tenant m t) recordId) = some w ∧
      ∀ w₀, Records.getNewestRecordsWrite (ofRecord (siblings tenant m s) recordId) = some w₀ →
        w₀.descriptor.dataCid = w.descriptor.dataCid ∨
          t.data.refs ⟨tenant, recordId, w.descriptor.dataCid⟩ = none

section Squash
variable {tenant : Did} {s t : Stores} {order : DeletionOrder} {m : RecordsWriteMessage}

theorem mem_groupByRecordId {l : List StoredMessage} {g : List StoredMessage}
    (hg : g ∈ groupByRecordId l) (holder : isOlder m g = true) :
    ∃ recordId ∈ olderRecords m l, g = ofRecord l recordId := by
  have hmem : g ∈ (groupByRecordId l).filter (isOlder m) := List.mem_filter.mpr ⟨hg, holder⟩
  rw [filter_groupByRecordId] at hmem
  obtain ⟨recordId, hrecord, rfl⟩ := List.mem_map.mp hmem
  exact ⟨recordId, hrecord, rfl⟩

theorem runs_squash (h : ∀ recordId ∈ olderRecords m (siblings tenant m s),
    ∃ w, Records.getNewestRecordsWrite (ofRecord (siblings tenant m s) recordId) = some w) :
    Program.Runs (performRecordsSquashIn order tenant m) s ()
      (s.purged tenant (groupsOf (siblings tenant m s) (olderRecords m (siblings tenant m s)))) := by
  refine Program.Runs.bind (Stores.runs_query tenant [squashFilter m] s) ?_
  unfold groupsOf
  rw [← filter_groupByRecordId]
  apply runs_forEach_purgeIfOlderIn
  intro g hg holder
  obtain ⟨recordId, hrecord, rfl⟩ := mem_groupByRecordId hg holder
  exact h recordId hrecord

theorem writes_of_result (hok : (performRecordsSquashIn order tenant m).result s = .ok ()) :
    ∀ recordId ∈ olderRecords m (siblings tenant m s),
      ∃ w, Records.getNewestRecordsWrite (ofRecord (siblings tenant m s) recordId) = some w := by
  intro recordId hrecord
  cases hw : Records.getNewestRecordsWrite (ofRecord (siblings tenant m s) recordId) with
  | some w => exact ⟨w, rfl⟩
  | none =>
    obtain ⟨l, hquery, hrest, -⟩ := Program.bind_eq_ok hok
    rw [Stores.result_query, Except.ok.injEq] at hquery
    subst hquery
    obtain ⟨hmem, holder⟩ := List.mem_filter.mp hrecord
    exact absurd hrest (result_forEach_purgeIfOlderIn (List.mem_map_of_mem hmem) holder hw)

/-- Where a squash can be cut off, told by the records it has purged. -/
theorem cut_squash (h : t ∈ (performRecordsSquashIn order tenant m).cuts s) :
    ∃ done rest, olderRecords m (siblings tenant m s) = done ++ rest ∧
      (∀ recordId ∈ done,
        ∃ w, Records.getNewestRecordsWrite (ofRecord (siblings tenant m s) recordId) = some w) ∧
      (t = s.purged tenant (groupsOf (siblings tenant m s) done) ∨
        ∃ recordId rest' w part, rest = recordId :: rest' ∧
          Records.getNewestRecordsWrite (ofRecord (siblings tenant m s) recordId) = some w ∧
          part ⊆ ofRecord (siblings tenant m s) recordId ∧
          t = (s.purged tenant (groupsOf (siblings tenant m s) done)).cutInto tenant w part) := by
  have hcut : t ∈ (Program.forEach (purgeIfOlderIn order tenant m)
      (groupByRecordId (siblings tenant m s))).cuts s := by
    obtain h | ⟨l, hquery, h⟩ := Program.mem_cuts_bind h
    · rw [List.mem_singleton.mp h]
      exact List.mem_cons_self
    · rw [Stores.result_query, Except.ok.injEq] at hquery
      subst hquery
      exact h
  obtain ⟨done, rest, hsplit, hdone, hcut⟩ := cut_forEach_purgeIfOlderIn hcut
  rw [groupByRecordId_eq, List.map_eq_append_iff] at hsplit
  obtain ⟨doneRecords, restRecords, hrecords, rfl, rfl⟩ := hsplit
  have hfilter : ∀ records : List String,
      (records.map (ofRecord (siblings tenant m s))).filter (isOlder m) =
        groupsOf (siblings tenant m s)
          (records.filter fun r => isOlder m (ofRecord (siblings tenant m s) r)) := by
    intro records
    rw [List.filter_map]
    rfl
  rw [hfilter] at hcut
  refine ⟨doneRecords.filter fun r => isOlder m (ofRecord (siblings tenant m s) r),
    restRecords.filter fun r => isOlder m (ofRecord (siblings tenant m s) r), ?_, ?_, ?_⟩
  · rw [← List.filter_append, ← hrecords]
    rfl
  · intro recordId hrecord
    obtain ⟨hmem, holder⟩ := List.mem_filter.mp hrecord
    exact hdone _ (List.mem_map_of_mem hmem) holder
  · refine hcut.imp_right ?_
    rintro ⟨g, rest', w, part, hrest, holder, hw, hpart, rfl⟩
    rw [List.map_eq_cons_iff] at hrest
    obtain ⟨recordId, restRecords', rfl, rfl, rfl⟩ := hrest
    refine ⟨recordId, restRecords'.filter fun r => isOlder m (ofRecord (siblings tenant m s) r),
      w, part, ?_, hw, hpart, rfl⟩
    exact List.filter_cons_of_pos holder

/-! ## The data of what is left -/

def refsOf (tenant : Did) (l : List StoredMessage) (records : List String) : List DataRef :=
  records.filterMap fun recordId => purgedRef tenant (ofRecord l recordId)

theorem filterMap_groupsOf (l : List StoredMessage) (records : List String) :
    (groupsOf l records).filterMap (purgedRef tenant) = refsOf tenant l records := by
  unfold groupsOf refsOf
  rw [List.filterMap_map]
  rfl

theorem deleteAll_perm {a b : List DataRef} (h : a.Perm b) (d : DataStore) :
    d.deleteAll a = d.deleteAll b :=
  haveI : RightCommutative (DataStore.delete : DataStore → DataRef → DataStore) :=
    ⟨DataStore.delete_comm⟩
  h.foldl_eq d

theorem deleteAll_append (a b : List DataRef) (d : DataStore) :
    d.deleteAll (a ++ b) = (d.deleteAll a).deleteAll b := List.foldl_append

theorem recordId_of_mem_refsOf {l : List StoredMessage} {records : List String} {ref : DataRef}
    (h : ref ∈ refsOf tenant l records) : ref.recordId ∈ records := by
  obtain ⟨recordId, hrecord, href⟩ := List.mem_filterMap.mp h
  obtain ⟨w, hw, rfl⟩ := Option.map_eq_some_iff.mp href
  dsimp only
  rwa [recordId_of_newest hw]

/-- More deletes make no difference exactly when they have nothing to delete. -/
theorem deleteAll_append_eq_iff {more refs : List DataRef} (hnew : ∀ ref ∈ more, ref ∉ refs)
    (d : DataStore) :
    d.deleteAll (more ++ refs) = d.deleteAll refs ↔ ∀ ref ∈ more, d.refs ref = none := by
  rw [deleteAll_append]
  constructor
  · intro heq ref href
    have hrefs := congrArg (fun d => d.refs ref) heq
    rw [DataStore.refs_deleteAll, DataStore.refs_deleteAll, DataStore.refs_deleteAll,
      if_neg (hnew ref href), if_neg (hnew ref href), if_pos href] at hrefs
    exact hrefs.symm
  · intro hnone
    rw [DataStore.deleteAll_of_absent hnone]

/-! ## Cut states -/

/-- A state in which a squash was cut off: rows of some older records are gone, with the data of all
of these, and the others are as they were. -/
structure CutState (tenant : Did) (m : RecordsWriteMessage) (s : Stores) (begun rest : List String)
    (cids : List Cid) (t : Stores) : Prop where
  state : t = { s.without tenant cids with
    data := s.data.deleteAll (refsOf tenant (siblings tenant m s) begun) }
  split : olderRecords m (siblings tenant m s) = begun ++ rest
  writes_begun : ∀ recordId ∈ begun,
    ∃ w, Records.getNewestRecordsWrite (ofRecord (siblings tenant m s) recordId) = some w
  gone : ∀ c ∈ cids, ∃ x ∈ siblings tenant m s, Message.getCid x = c ∧ x.recordId ∈ begun

theorem cutState_of_cut (h : t ∈ (performRecordsSquashIn order tenant m).cuts s) :
    ∃ begun rest cids, CutState tenant m s begun rest cids t := by
  obtain ⟨done, rest, hsplit, hdone, rfl | ⟨recordId, rest', w, part, rfl, hw, hpart, rfl⟩⟩ :=
    cut_squash h
  · refine ⟨done, rest, _, ?_, hsplit, hdone, fun c hc => mem_cids_groupsOf.mp hc⟩
    unfold Stores.purged
    rw [filterMap_groupsOf]
  · refine ⟨done ++ [recordId], rest',
      (groupsOf (siblings tenant m s) done).flatten.map Message.getCid ++ part.map Message.getCid,
      ?_, by rw [hsplit, List.append_assoc]; rfl, ?_, ?_⟩
    · unfold Stores.cutInto Stores.purged
      rw [without_without, filterMap_groupsOf]
      unfold refsOf
      rw [List.filterMap_append, deleteAll_append, List.filterMap_cons_some, List.filterMap_nil]
      · rfl
      · unfold purgedRef
        rw [hw, Option.map_some, recordId_of_newest hw]
    · intro r hr
      obtain hr | hr := List.mem_append.mp hr
      · exact hdone r hr
      · rw [List.mem_singleton.mp hr]
        exact ⟨w, hw⟩
    · intro c hc
      obtain hc | hc := List.mem_append.mp hc
      · obtain ⟨x, hx, hcid, hrecord⟩ := mem_cids_groupsOf.mp hc
        exact ⟨x, hx, hcid, List.mem_append_left _ hrecord⟩
      · obtain ⟨x, hx, rfl⟩ := List.mem_map.mp hc
        obtain ⟨hmem, hrecord⟩ := List.mem_filter.mp (hpart hx)
        refine ⟨x, hmem, rfl, List.mem_append_right _ ?_⟩
        rw [of_decide_eq_true hrecord]
        exact List.mem_singleton_self _

variable {begun rest : List String} {cids : List Cid}

theorem siblings_distinct (wf : (s.messages tenant).WellFormed) :
    ∀ x ∈ siblings tenant m s, ∀ y ∈ siblings tenant m s, Message.getCid x = Message.getCid y →
      x = y := by
  intro x hx y hy heq
  obtain ⟨r, hr, rfl⟩ := mem_query.mp hx
  obtain ⟨r', hr', rfl⟩ := mem_query.mp hy
  rw [wf.eq_of_cid (List.mem_filter.mp hr).1 (List.mem_filter.mp hr').1 heq]

theorem ofRecord_left {l : List StoredMessage} {recordId : String}
    (h : ∀ x ∈ l, x.recordId = recordId → Message.getCid x ∉ cids) :
    ofRecord (left l cids) recordId = ofRecord l recordId := by
  unfold ofRecord left
  rw [List.filter_filter]
  apply List.filter_congr
  intro x hx
  by_cases hrecord : x.recordId = recordId
  · simp [hrecord, h x hx hrecord]
  · simp [hrecord]

namespace CutState

theorem siblings_eq (h : CutState tenant m s begun rest cids t)
    (wf : (s.messages tenant).WellFormed) :
    siblings tenant m t = left (siblings tenant m s) cids := by
  rw [h.state]
  unfold siblings left
  rw [← query_restrict wf]
  simp [Stores.without]

theorem loses (h : CutState tenant m s begun rest cids t) (wf : (s.messages tenant).WellFormed) :
    Loses m (siblings tenant m s) cids := by
  refine ⟨siblings_distinct wf, fun c hc => ?_⟩
  obtain ⟨x, hx, hcid, hrecord⟩ := h.gone c hc
  refine ⟨x, hx, hcid, ?_⟩
  rw [h.split]
  exact List.mem_append_left _ hrecord

/-- The records that the squash has not begun with have all their rows. -/
theorem kept (h : CutState tenant m s begun rest cids t) (wf : (s.messages tenant).WellFormed)
    {recordId : String} (hrecord : recordId ∈ rest) :
    ofRecord (left (siblings tenant m s) cids) recordId =
      ofRecord (siblings tenant m s) recordId := by
  apply ofRecord_left
  intro x hx hid hgone
  obtain ⟨y, hy, hcid, hbegun⟩ := h.gone _ hgone
  rw [siblings_distinct wf y hy x hx hcid, hid] at hbegun
  have hnodup := @nodup_olderRecords _ m (siblings tenant m s)
  rw [h.split] at hnodup
  exact (List.nodup_append.mp hnodup).2.2 recordId hbegun recordId hrecord rfl

/-- The records that were begun and of which a row is left. -/
def unfinished (tenant : Did) (m : RecordsWriteMessage) (s : Stores) (begun : List String)
    (cids : List Cid) : List String :=
  begun.filter fun recordId =>
    (left (siblings tenant m s) cids).any fun x => x.recordId = recordId

theorem mem_unfinished {recordId : String} :
    recordId ∈ unfinished tenant m s begun cids ↔
      recordId ∈ begun ∧ ∃ x ∈ left (siblings tenant m s) cids, x.recordId = recordId := by
  simp [unfinished]

/-- The next run purges what is unfinished and what was not begun. -/
theorem olderRecords_perm (h : CutState tenant m s begun rest cids t)
    (wf : (s.messages tenant).WellFormed) :
    (olderRecords m (left (siblings tenant m s) cids)).Perm
      (unfinished tenant m s begun cids ++ rest) := by
  have hnodup := @nodup_olderRecords _ m (siblings tenant m s)
  rw [h.split] at hnodup
  have hsub : (unfinished tenant m s begun cids ++ rest).Sublist (begun ++ rest) :=
    List.filter_sublist.append (List.Sublist.refl _)
  rw [List.perm_ext_iff_of_nodup nodup_olderRecords (hnodup.sublist hsub)]
  intro recordId
  rw [(h.loses wf).mem_olderRecords, h.split, List.mem_append, List.mem_append, mem_unfinished]
  constructor
  · rintro ⟨hbegun | hrest, hleft⟩
    · exact Or.inl ⟨hbegun, hleft⟩
    · exact Or.inr hrest
  · rintro (⟨hbegun, hleft⟩ | hrest)
    · exact ⟨Or.inl hbegun, hleft⟩
    · have hold : recordId ∈ olderRecords m (siblings tenant m s) := by
        rw [h.split]
        exact List.mem_append_right _ hrest
      obtain ⟨⟨x, hx, hid⟩, -⟩ := mem_olderRecords.mp hold
      have hmem : x ∈ ofRecord (siblings tenant m s) recordId :=
        List.mem_filter.mpr ⟨hx, by simpa using hid⟩
      rw [← h.kept wf hrest] at hmem
      exact ⟨Or.inr hrest, x, (List.mem_filter.mp hmem).1, hid⟩

/-- Where the next run and an uninterrupted run end. -/
theorem purged_eq_iff (h : CutState tenant m s begun rest cids t)
    (wf : (s.messages tenant).WellFormed) :
    t.purged tenant (groupsOf (siblings tenant m t) (olderRecords m (siblings tenant m t))) =
      s.purged tenant (groupsOf (siblings tenant m s) (olderRecords m (siblings tenant m s))) ↔
    ∀ ref ∈ refsOf tenant (left (siblings tenant m s) cids) (unfinished tenant m s begun cids),
      t.data.refs ref = none := by
  have hdata : t.data = s.data.deleteAll (refsOf tenant (siblings tenant m s) begun) := by
    rw [h.state]
  have hrefs : (refsOf tenant (left (siblings tenant m s) cids)
      (olderRecords m (left (siblings tenant m s) cids))).Perm
        (refsOf tenant (left (siblings tenant m s) cids) (unfinished tenant m s begun cids) ++
          refsOf tenant (siblings tenant m s) rest) := by
    have hrest : refsOf tenant (siblings tenant m s) rest =
        refsOf tenant (left (siblings tenant m s) cids) rest :=
      List.filterMap_congr fun recordId hrecord => by rw [h.kept wf hrecord]
    rw [hrest]
    unfold refsOf
    rw [← List.filterMap_append]
    exact (h.olderRecords_perm wf).filterMap _
  have hnew : ∀ ref ∈ refsOf tenant (left (siblings tenant m s) cids)
      (unfinished tenant m s begun cids), ref ∉ refsOf tenant (siblings tenant m s) rest := by
    intro ref href hrest
    have hnodup := @nodup_olderRecords _ m (siblings tenant m s)
    rw [h.split] at hnodup
    exact (List.nodup_append.mp hnodup).2.2 _ (mem_unfinished.mp (recordId_of_mem_refsOf href)).1 _
      (recordId_of_mem_refsOf hrest) rfl
  have hstate : t.purged tenant
      (groupsOf (siblings tenant m t) (olderRecords m (siblings tenant m t))) =
        { s.without tenant ((groupsOf (siblings tenant m s)
            (olderRecords m (siblings tenant m s))).flatten.map Message.getCid) with
          data := t.data.deleteAll (refsOf tenant (left (siblings tenant m s) cids)
            (olderRecords m (left (siblings tenant m s) cids))) } := by
    rw [h.siblings_eq wf]
    unfold Stores.purged
    rw [filterMap_groupsOf, ← without_congr (h.loses wf).mem_cids]
    conv_lhs => rw [h.state]
    rw [without_without, hdata]
  rw [hstate, ← deleteAll_append_eq_iff hnew, ← deleteAll_perm hrefs]
  unfold Stores.purged
  rw [filterMap_groupsOf, h.split, hdata]
  have hall : s.data.deleteAll (refsOf tenant (siblings tenant m s) (begun ++ rest)) =
      (s.data.deleteAll (refsOf tenant (siblings tenant m s) begun)).deleteAll
        (refsOf tenant (siblings tenant m s) rest) := by
    rw [← deleteAll_append]
    unfold refsOf
    rw [List.filterMap_append]
  rw [hall]
  constructor
  · intro heq
    exact congrArg Stores.data heq
  · intro heq
    rw [heq]

/-- If the next run finds a write of every older record, so does an uninterrupted one. -/
theorem writes (h : CutState tenant m s begun rest cids t) (wf : (s.messages tenant).WellFormed)
    (hwrites : ∀ recordId ∈ olderRecords m (siblings tenant m t),
      ∃ w, Records.getNewestRecordsWrite (ofRecord (siblings tenant m t) recordId) = some w) :
    ∀ recordId ∈ olderRecords m (siblings tenant m s),
      ∃ w, Records.getNewestRecordsWrite (ofRecord (siblings tenant m s) recordId) = some w := by
  intro recordId hrecord
  rw [h.split, List.mem_append] at hrecord
  cases hrecord with
  | inl hbegun => exact h.writes_begun recordId hbegun
  | inr hrest =>
    rw [← h.kept wf hrest, ← h.siblings_eq wf]
    apply hwrites
    rw [h.siblings_eq wf, (h.olderRecords_perm wf).mem_iff]
    exact List.mem_append_right _ hrest

/-- What the next run deletes of unfinished records is there exactly when it may not go on. -/
theorem resumable_iff (h : CutState tenant m s begun rest cids t)
    (wf : (s.messages tenant).WellFormed) : ResumableAfter tenant m s t ↔
      (∀ recordId ∈ olderRecords m (siblings tenant m t),
        ∃ w, Records.getNewestRecordsWrite (ofRecord (siblings tenant m t) recordId) = some w) ∧
      ∀ ref ∈ refsOf tenant (left (siblings tenant m s) cids) (unfinished tenant m s begun cids),
        t.data.refs ref = none := by
  unfold ResumableAfter
  rw [h.siblings_eq wf]
  constructor
  · intro hresumable
    refine ⟨fun recordId hrecord => (hresumable recordId hrecord).imp fun w hw => hw.1, ?_⟩
    intro ref href
    obtain ⟨recordId, hunfinished, hpurged⟩ := List.mem_filterMap.mp href
    obtain ⟨w, hw, rfl⟩ := Option.map_eq_some_iff.mp hpurged
    rw [recordId_of_newest hw]
    have hbegun := (mem_unfinished.mp hunfinished).1
    obtain ⟨w₀, hw₀⟩ := h.writes_begun recordId hbegun
    have hrecord := (h.olderRecords_perm wf).mem_iff.mpr (List.mem_append_left _ hunfinished)
    obtain ⟨w', hw', hdata⟩ := hresumable recordId hrecord
    rw [hw, Option.some.injEq] at hw'
    subst hw'
    cases hdata w₀ hw₀ with
    | inl hsame =>
      rw [h.state]
      dsimp only
      rw [DataStore.refs_deleteAll, if_pos]
      refine List.mem_filterMap.mpr ⟨recordId, hbegun, ?_⟩
      unfold purgedRef
      rw [hw₀, Option.map_some, recordId_of_newest hw₀, hsame]
    | inr hnone => exact hnone
  · rintro ⟨hwrites, hnone⟩ recordId hrecord
    obtain ⟨w, hw⟩ := hwrites recordId hrecord
    refine ⟨w, hw, fun w₀ hw₀ => ?_⟩
    rw [(h.olderRecords_perm wf).mem_iff, List.mem_append] at hrecord
    cases hrecord with
    | inl hunfinished =>
      apply Or.inr
      apply hnone
      refine List.mem_filterMap.mpr ⟨recordId, hunfinished, ?_⟩
      unfold purgedRef
      rw [hw, Option.map_some, recordId_of_newest hw]
    | inr hrest =>
      rw [h.kept wf hrest, hw₀, Option.some.injEq] at hw
      exact Or.inl (congrArg (fun w => w.descriptor.dataCid) hw)

end CutState

/-- A squash that was cut off anywhere, and is run again, ends as if it had not been cut off, exactly
when it has left enough of the record that it was purging. -/
theorem squash_resumes_iff (wf : (s.messages tenant).WellFormed)
    (hcut : t ∈ (performRecordsSquashIn order tenant m).cuts s) (again whole : DeletionOrder) :
    ((performRecordsSquashIn again tenant m).result t = .ok () ∧
      (performRecordsSquashIn again tenant m).final t =
        (performRecordsSquashIn whole tenant m).final s) ↔ ResumableAfter tenant m s t := by
  obtain ⟨begun, rest, cids, h⟩ := cutState_of_cut hcut
  rw [h.resumable_iff wf]
  constructor
  · rintro ⟨hok, hfinal⟩
    have hwrites := writes_of_result hok
    rw [(runs_squash hwrites).final_eq, (runs_squash (h.writes wf hwrites)).final_eq] at hfinal
    exact ⟨hwrites, (h.purged_eq_iff wf).mp hfinal⟩
  · rintro ⟨hwrites, hnone⟩
    refine ⟨(runs_squash hwrites).result_eq, ?_⟩
    rw [(runs_squash hwrites).final_eq, (runs_squash (h.writes wf hwrites)).final_eq]
    exact (h.purged_eq_iff wf).mpr hnone

end Squash

end EnboxDwn

namespace EnboxDwn.SquashResume
open Journal MessageStore StorageController SiblingSet
local instance textPlatform : Platform := Platform.ofText

/-! ## A deleted note that is squashed -/

def bobsNote : RecordsWriteMessage := note "bob" "3" false

def bobsDelete : RecordsDeleteMessage where
  descriptor := { recordId := "bob3", messageTimestamp := "4", prune := false }
  authorization := { signature := "bob4", signer := "bob" }

def alicesSquash : RecordsWriteMessage := note "alice" "5" true

/-- A deleted note, its initial write retained, and the squash that is to purge it. -/
def store : Stores where
  messages _ :=
    { rows :=
        [newRow {} (RecordsWrite.stored bobsNote) (RecordsWrite.constructIndexes bobsNote false),
          newRow { head := 1 } (RecordsDelete.stored bobsDelete)
            (RecordsDelete.constructIndexes bobsDelete bobsNote bobsNote),
          newRow { head := 2 } (RecordsWrite.stored alicesSquash)
            (RecordsWrite.constructIndexes alicesSquash true)]
      head := 3 }

theorem wellFormed_store : (store.messages "alice").WellFormed where
  distinct := by decide
  indexed := by
    intro r hr
    simp only [store, List.mem_cons, List.not_mem_nil, or_false] at hr
    obtain rfl | rfl | rfl := hr
    · exact ⟨false, rfl⟩
    · exact ⟨bobsNote, bobsNote, rfl, rfl⟩
    · exact ⟨true, rfl⟩
  scopes := by
    unfold Row.Scoped
    decide

/-- The last row of a record goes first. -/
def backwards : DeletionOrder := ⟨List.reverse, List.reverse_perm⟩

/-- Where the squash stands when one of the two rows is gone. -/
def halfway (order : DeletionOrder) : Stores :=
  ((performRecordsSquashIn order "alice" alicesSquash).cuts store)[2]?.getD store

theorem halfway_mem_cuts (order : DeletionOrder)
    (h : 2 < ((performRecordsSquashIn order "alice" alicesSquash).cuts store).length) :
    halfway order ∈ (performRecordsSquashIn order "alice" alicesSquash).cuts store := by
  unfold halfway
  rw [List.getElem?_eq_getElem h]
  exact List.getElem_mem h

/-- Cut off when the tombstone is gone and the note is left, the squash goes on. -/
theorem squash_resumes_noteLeft :
    (performRecordsSquashIn .inTurn "alice" alicesSquash).result (halfway backwards) = .ok () ∧
      (performRecordsSquashIn .inTurn "alice" alicesSquash).final (halfway backwards) =
        (performRecordsSquashIn .inTurn "alice" alicesSquash).final store := by
  refine (squash_resumes_iff wellFormed_store
    (halfway_mem_cuts backwards (by decide)) .inTurn .inTurn).mpr ?_
  have hrecords : olderRecords alicesSquash (siblings "alice" alicesSquash (halfway backwards)) =
      ["bob3"] := by decide
  intro recordId hrecord
  rw [hrecords, List.mem_singleton] at hrecord
  subst hrecord
  refine ⟨bobsNote, by decide, fun w₀ hw₀ => Or.inl ?_⟩
  have hnote : Records.getNewestRecordsWrite
      (ofRecord (siblings "alice" alicesSquash store) "bob3") = some bobsNote := by decide
  rw [hnote, Option.some.injEq] at hw₀
  rw [← hw₀]

/-- Cut off when the note is gone and the tombstone is left, the squash throws whenever it is run
again. -/
theorem squash_not_resumes_tombstoneLeft :
    halfway .inTurn ∈ (performRecordsSquash "alice" alicesSquash).cuts store ∧
      (performRecordsSquash "alice" alicesSquash).result store = .ok () ∧
      (performRecordsSquash "alice" alicesSquash).result (halfway .inTurn) = .error .typeError := by
  refine ⟨?_, by decide, by decide⟩
  rw [← performRecordsSquashIn_inTurn]
  exact halfway_mem_cuts .inTurn (by decide)

end EnboxDwn.SquashResume
