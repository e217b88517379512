import EnboxDwn.RecordRun
import EnboxDwn.Lib.TemporalFloor

/-! Squashes: sibling records of one module path and parent context, processed one at a time
in any order. The stored siblings are the entries of a temporal floor whose floors are the
squashes. -/
namespace EnboxDwn
open KeyValues Journal MessageStore StorageController TemporalFloor

variable [P : Platform]

/-! ## Siblings -/

namespace RecordsWrite

def isSquash (m : RecordsWriteMessage) : Bool := m.descriptor.squash == some true

def messageTimestamp (m : RecordsWriteMessage) : Timestamp := m.descriptor.messageTimestamp

end RecordsWrite

/-- Initial writes with their data at one module path and in one parent context. The
permissions module has no `$squash` path, so none of them is a revocation. -/
structure SiblingSet where
  module : String
  modulePath : String
  parentContextId : String
  writes : List (RecordsWriteMessage × P.Data)
  isInitial : ∀ x ∈ writes, RecordsWrite.isInitialWrite x.1 = true
  carries : ∀ x ∈ writes, CarriesData x.1 x.2
  inModule : ∀ x ∈ writes, x.1.descriptor.module = module
  atPath : ∀ x ∈ writes, x.1.descriptor.modulePath = modulePath
  inContext : ∀ x ∈ writes, Records.getParentContextFromOfContextId x.1.contextId = parentContextId
  ordinary : module = permissionsModuleUri → modulePath ≠ PermissionsModule.revocationPath
  records : (writes.map fun x => x.1.recordId).Nodup
  cids : (writes.map fun x => Message.getCid (RecordsWrite.stored x.1)).Nodup

/-- Everything a write at a `$squash` path is checked for besides its age, its data and the
squashes at its path. -/
structure SquashAdmissible (deps : HandlerDependencies) (tenant : Did) (m : RecordsWriteMessage)
    (data : P.Data) (s : Stores) : Prop where
  parsed : RecordsWrite.parse deps m = .ok ()
  authenticated : deps.authenticate (.recordsWrite m) = .ok ()
  authorized : deps.authorizeRecordsWrite s tenant m = .ok ()
  referential : ∃ ruleSet, deps.validateReferentialIntegrity s tenant m = .ok ruleSet ∧
    ruleSet.squash = true
  preProcessed : deps.preProcessWrite s tenant m = .ok ()
  validated : m.descriptor.dataSize ≤ maxDataSizeAllowedToBeEncoded →
    deps.validateRecord s tenant m data = .ok ()

namespace SiblingSet
variable (ms : SiblingSet)

def messages : List RecordsWriteMessage := ms.writes.map Prod.fst

/-- The rows at the module path and in the parent context. -/
def filter : Filter :=
  [Filters.equalText "interface" "Records", Filters.equalText "module" ms.module,
    Filters.equalText "modulePath" ms.modulePath] ++
  match ms.parentContextId with
  | "" => []
  | parentContextId => [("contextId", .subtree parentContextId)]

/-- A store without records at the path and in the context. -/
structure Start (tenant : Did) (s : Stores) : Prop where
  wf : (s.messages tenant).WellFormed
  sound : s.data.Sound
  room : (s.messages tenant).head + ms.writes.length < Replication.positionLimit
  empty : ∀ r ∈ (s.messages tenant).rows, FilterUtility.matchFilter r.indexes ms.filter = false
  unknown : ∀ r ∈ (s.messages tenant).rows, ∀ m ∈ ms.messages,
    r.message.belongsTo m.recordId = false
  unstored : ∀ r ∈ (s.messages tenant).rows, ∀ m ∈ ms.messages,
    r.cid ≠ Message.getCid (RecordsWrite.stored m)

/-- Every write passes its checks at every point at which some order processes it. -/
def Authorized (deps : HandlerDependencies) (tenant : Did) (s : Stores) : Prop :=
  ∀ l x, (x :: l).Subperm ms.writes →
    SquashAdmissible deps tenant x.1 x.2 (processWrites deps tenant l s)

/-- The records stored at the path and in the context. -/
def storedRecords (tenant : Did) (s : Stores) : List String :=
  (matching (s.messages tenant) [ms.filter]).map fun r => r.message.recordId

/-- In every order the same records are left, and none is older than a squash that is left. -/
structure Converges (deps : HandlerDependencies) (tenant : Did) (s : Stores) : Prop where
  same : ∀ order order', order.Perm ms.writes → order'.Perm ms.writes → ∀ recordId,
    recordId ∈ ms.storedRecords tenant (processWrites deps tenant order s) ↔
      recordId ∈ ms.storedRecords tenant (processWrites deps tenant order' s)
  floor : ∀ order, order.Perm ms.writes →
    ∀ r ∈ matching ((processWrites deps tenant order s).messages tenant) [ms.filter],
    ∀ r' ∈ matching ((processWrites deps tenant order s).messages tenant) [ms.filter],
    ∀ q, r'.message.message = .recordsWrite q → q.descriptor.squash = some true →
      q.descriptor.messageTimestamp ≤ r.message.message.messageTimestamp

end SiblingSet

/-! ## The filters of a squash -/

theorem query_getLast? {log : Log} {filters : List Filter} (wf : log.WellFormed)
    {n : StoredMessage} (h : (query log filters).getLast? = some n) : n ∈ query log filters ∧
      ∀ x ∈ query log filters, x.message.messageTimestamp ≤ n.message.messageTimestamp := by
  refine ⟨List.mem_of_getLast? h, ?_⟩
  unfold query at h ⊢
  rw [List.getLast?_map, Option.map_eq_some_iff] at h
  obtain ⟨last, hlast, rfl⟩ := h
  intro x hx
  obtain ⟨r, hr, rfl⟩ := List.mem_map.mp hx
  have hsorted := List.pairwise_insertionSort (fun a b : Row => a.sortKey ≤ b.sortKey)
    (matching log filters)
  have hmem : ∀ y ∈ (matching log filters).insertionSort fun a b => a.sortKey ≤ b.sortKey,
      y ∈ log.rows := by
    intro y hy
    rw [(List.perm_insertionSort _ _).mem_iff] at hy
    exact (List.mem_filter.mp hy).1
  have hle : r.sortKey ≤ last.sortKey := by
    obtain ⟨front, heq⟩ := List.getLast?_eq_some_iff.mp hlast
    rw [heq] at hsorted hr
    obtain hr | hr := List.mem_append.mp hr
    · exact (List.pairwise_append.mp hsorted).2.2 r hr last (by simp)
    · rw [List.mem_singleton.mp hr]
  rw [(wf.indexed r (hmem r hr)).sortKey_eq,
    (wf.indexed last (hmem last (List.mem_of_getLast? hlast))).sortKey_eq] at hle
  exact Prod.Lex.monotone_fst _ _ hle

section Filters
variable {ms : SiblingSet} {m w : RecordsWriteMessage}

omit P in
/-- A context with a parent is below it. -/
theorem matchesSubtree_parent {contextId parent : String}
    (h : Records.getParentContextFromOfContextId contextId = parent) (hne : parent ≠ "") :
    FilterUtility.matchesSubtree parent (.string contextId) = true := by
  subst h
  unfold FilterUtility.matchesSubtree
  rw [Bool.or_eq_true]
  right
  unfold startsWith
  rw [List.isPrefixOf_iff_prefix]
  unfold Records.getParentContextFromOfContextId at hne ⊢
  have hsplit := List.takeWhile_append_dropWhile (p := (· ≠ '/')) (l := contextId.toList.reverse)
  cases hdrop : contextId.toList.reverse.dropWhile (· ≠ '/') with
  | nil =>
    rw [hdrop] at hne
    exact absurd rfl hne
  | cons c cs =>
    have hsome : contextId.toList.reverse.dropWhile (· ≠ '/') ≠ [] := by
      rw [hdrop]
      simp
    have hc : c = '/' := by
      have hhead := List.head_dropWhile_not (fun x => decide (x ≠ '/')) hsome
      simp only [hdrop, List.head_cons] at hhead
      simpa using hhead
    rw [hdrop, hc] at hsplit
    have hlist := congrArg List.reverse hsplit
    rw [List.reverse_reverse, List.reverse_append, List.reverse_cons] at hlist
    rw [← hlist]
    simp

theorem squashFilter_eq (hm : m ∈ ms.messages) : squashFilter m = ms.filter := by
  obtain ⟨x, hx, rfl⟩ := List.mem_map.mp hm
  unfold squashFilter SiblingSet.filter
  rw [ms.inModule x hx, ms.atPath x hx, ms.inContext x hx] <;> rfl

omit P in
/-- The filter of the backstop asks for the same context as that of the purge. -/
theorem squashScopeFilter_eq (m : RecordsWriteMessage) : RecordsWriteHandler.squashScopeFilter m =
    [Filters.equalText "interface" "Records", Filters.equalText "method" "Write",
      Filters.equalFlag "isLatestBaseState" true, Filters.equalText "module" m.descriptor.module,
      Filters.equalText "modulePath" m.descriptor.modulePath, Filters.equalFlag "squash" true] ++
    (squashFilter m).drop 3 := by
  simp only [RecordsWriteHandler.squashScopeFilter, squashFilter, List.cons_append,
    List.nil_append, List.drop_succ_cons, List.drop_zero] <;> rfl

omit P in
theorem squashFilter_split (m : RecordsWriteMessage) : squashFilter m =
    [Filters.equalText "interface" "Records", Filters.equalText "module" m.descriptor.module,
      Filters.equalText "modulePath" m.descriptor.modulePath] ++ (squashFilter m).drop 3 := by
  simp only [squashFilter, List.cons_append, List.nil_append, List.drop_succ_cons, List.drop_zero]

theorem match_filter (hw : w ∈ ms.messages) (latest : Bool) :
    FilterUtility.matchFilter (RecordsWrite.constructIndexes w latest) ms.filter = true := by
  obtain ⟨x, hx, rfl⟩ := List.mem_map.mp hw
  unfold SiblingSet.filter
  split
  · simp [Filters.equalText, ms.inModule x hx, ms.atPath x hx]
  · next hne =>
    have hsubtree := matchesSubtree_parent (ms.inContext x hx) hne
    simpa [Filters.equalText, ms.inModule x hx, ms.atPath x hx, FilterUtility.matchProperty, text,
      FilterUtility.matchIndexValue] using hsubtree

/-- What the backstop looks at is what a squash would purge. -/
theorem match_filter_of_scope (hm : m ∈ ms.messages) {kv : KeyValues}
    (h : FilterUtility.matchFilter kv (RecordsWriteHandler.squashScopeFilter m) = true) :
    FilterUtility.matchFilter kv ms.filter = true := by
  rw [← squashFilter_eq hm]
  unfold FilterUtility.matchFilter at h ⊢
  rw [List.all_eq_true] at h ⊢
  intro x hx
  refine h x ?_
  rw [squashFilter_split] at hx
  rw [squashScopeFilter_eq]
  rw [List.mem_append] at hx ⊢
  refine hx.imp (fun hx => ?_) id
  simp only [List.mem_cons, List.not_mem_nil, or_false] at hx ⊢
  obtain rfl | rfl | rfl := hx <;> simp

theorem match_scopeFilter (hm : m ∈ ms.messages) (hw : w ∈ ms.messages) :
    FilterUtility.matchFilter (RecordsWrite.constructIndexes w true)
      (RecordsWriteHandler.squashScopeFilter m) = RecordsWrite.isSquash w := by
  have hmatch := match_filter hw true
  rw [← squashFilter_eq hm, squashFilter_split] at hmatch
  rw [squashScopeFilter_eq]
  unfold FilterUtility.matchFilter at hmatch ⊢
  rw [List.all_append, Bool.and_eq_true] at hmatch
  rw [List.all_append, hmatch.2, Bool.and_true]
  simp only [Filters.equalText, List.all_cons, List.all_nil, RecordsWrite.get_interface,
    RecordsWrite.get_module, RecordsWrite.get_modulePath, Bool.and_eq_true] at hmatch
  simp only [Filters.equalText, Filters.equalFlag, List.all_cons, List.all_nil,
    RecordsWrite.get_interface, RecordsWrite.get_module, RecordsWrite.get_modulePath,
    RecordsWrite.get_method, RecordsWrite.get_isLatestBaseState, RecordsWrite.get_squash,
    hmatch.1.2.1, hmatch.1.2.2.1]
  unfold RecordsWrite.isSquash
  cases w.descriptor.squash with
  | none => decide
  | some b => cases b <;> decide

end Filters

/-! ## The stored siblings -/

/-- The row of a sibling that is stored with its data. -/
def Row.IsRowOf (m : RecordsWriteMessage) (r : Row) : Prop :=
  r.message.message = .recordsWrite m ∧ r.indexes = RecordsWrite.constructIndexes m true

namespace SiblingSet

structure Foreign (ms : SiblingSet) (r : Row) : Prop where
  unmatched : FilterUtility.matchFilter r.indexes ms.filter = false
  unknown : ∀ m ∈ ms.messages, r.message.belongsTo m.recordId = false
  unstored : ∀ m ∈ ms.messages, r.cid ≠ Message.getCid (RecordsWrite.stored m)

/-- The siblings that are stored, and room for those to come. -/
structure State (ms : SiblingSet) (tenant : Did) (remaining : Nat) (kept : List RecordsWriteMessage)
    (s : Stores) : Prop where
  wf : (s.messages tenant).WellFormed
  sound : s.data.Sound
  room : (s.messages tenant).head + remaining < Replication.positionLimit
  subset : ∀ m ∈ kept, m ∈ ms.messages
  stored : ∀ m ∈ kept, ∃ r ∈ (s.messages tenant).rows, r.IsRowOf m
  rows : ∀ r ∈ (s.messages tenant).rows, (∃ m ∈ kept, r.IsRowOf m) ∨ ms.Foreign r

variable {ms : SiblingSet} {m w : RecordsWriteMessage}

theorem eq_of_recordId (hm : m ∈ ms.messages) (hw : w ∈ ms.messages)
    (h : m.recordId = w.recordId) : m = w := by
  obtain ⟨x, hx, rfl⟩ := List.mem_map.mp hm
  obtain ⟨y, hy, rfl⟩ := List.mem_map.mp hw
  rw [List.inj_on_of_nodup_map ms.records hx hy h]

theorem eq_of_cid (hm : m ∈ ms.messages) (hw : w ∈ ms.messages)
    (h : Message.getCid (RecordsWrite.stored m) = Message.getCid (RecordsWrite.stored w)) :
    m = w := by
  obtain ⟨x, hx, rfl⟩ := List.mem_map.mp hm
  obtain ⟨y, hy, rfl⟩ := List.mem_map.mp hw
  rw [List.inj_on_of_nodup_map ms.cids hx hy h]

theorem cid_of_isRowOf {r : Row} (h : r.IsRowOf m) :
    r.cid = Message.getCid (RecordsWrite.stored m) := by
  simp only [Row.cid, Message.getCid, h.1, RecordsWrite.stored]

namespace State
variable {tenant : Did} {remaining : Nat} {kept : List RecordsWriteMessage} {s : Stores}

theorem recordRows_eq_nil (h : ms.State tenant remaining kept s) (hm : m ∈ ms.messages)
    (hnew : m ∉ kept) : recordRows (s.messages tenant) m.recordId = [] := by
  refine List.filter_eq_nil_iff.mpr fun r hr hb => ?_
  obtain ⟨w, hw, hrow⟩ | hforeign := h.rows r hr
  · have hrecord : w.recordId = m.recordId := by
      simpa [StoredMessage.belongsTo, hrow.1] using hb
    exact hnew (eq_of_recordId (h.subset w hw) hm hrecord ▸ hw)
  · rw [hforeign.unknown m hm] at hb
    cases hb

theorem cid_ne (h : ms.State tenant remaining kept s) (hm : m ∈ ms.messages) (hnew : m ∉ kept) :
    ∀ r ∈ (s.messages tenant).rows, r.cid ≠ Message.getCid (RecordsWrite.stored m) := by
  intro r hr hc
  obtain ⟨w, hw, hrow⟩ | hforeign := h.rows r hr
  · rw [cid_of_isRowOf hrow] at hc
    exact hnew (eq_of_cid (h.subset w hw) hm hc ▸ hw)
  · exact hforeign.unstored m hm hc

theorem mem_matching (h : ms.State tenant remaining kept s) {r : Row} :
    r ∈ matching (s.messages tenant) [ms.filter] ↔
      r ∈ (s.messages tenant).rows ∧ ∃ m ∈ kept, r.IsRowOf m := by
  unfold matching
  rw [List.mem_filter, FilterUtility.matchAnyFilter_singleton]
  refine and_congr_right fun hr => ⟨fun hmatch => ?_, fun ⟨m, hm, hrow⟩ => ?_⟩
  · refine (h.rows r hr).resolve_right fun hforeign => ?_
    rw [hforeign.unmatched] at hmatch
    cases hmatch
  · rw [hrow.2]
    exact match_filter (h.subset m hm) true

/-- The newest squash refuses what is not newer than it. -/
theorem enforceSquashBackstop_iff (h : ms.State tenant remaining kept s) (hm : m ∈ ms.messages)
    {ruleSet : ModuleRuleSet} (hrule : ruleSet.squash = true) :
    RecordsWriteHandler.enforceSquashBackstop s tenant m ruleSet = .ok () ↔
      ¬ Refuses RecordsWrite.messageTimestamp RecordsWrite.isSquash kept m := by
  have hscope : ∀ x, x ∈ query (s.messages tenant) [RecordsWriteHandler.squashScopeFilter m] ↔
      ∃ r ∈ (s.messages tenant).rows, r.message = x ∧
        ∃ q ∈ kept, r.IsRowOf q ∧ RecordsWrite.isSquash q = true := by
    intro x
    rw [mem_query]
    unfold matching
    simp only [List.mem_filter, FilterUtility.matchAnyFilter_singleton, and_assoc]
    refine exists_congr fun r => and_congr_right fun hr => ⟨fun hmatch => ?_, fun hq => ?_⟩
    · obtain ⟨hmatch, hx⟩ := hmatch
      refine ⟨hx, ?_⟩
      have hsibling : r ∈ matching (s.messages tenant) [ms.filter] := by
        refine List.mem_filter.mpr ⟨hr, ?_⟩
        rw [FilterUtility.matchAnyFilter_singleton]
        exact match_filter_of_scope hm hmatch
      obtain ⟨-, q, hq, hrow⟩ := h.mem_matching.mp hsibling
      rw [hrow.2, match_scopeFilter hm (h.subset q hq)] at hmatch
      exact ⟨q, hq, hrow, hmatch⟩
    · obtain ⟨hx, q, hq, hrow, hsquash⟩ := hq
      refine ⟨?_, hx⟩
      rw [hrow.2, match_scopeFilter hm (h.subset q hq)]
      exact hsquash
  unfold RecordsWriteHandler.enforceSquashBackstop
  rw [hrule]
  simp only [Bool.not_true, Bool.false_eq_true, if_false]
  cases hlast : (query (s.messages tenant) [RecordsWriteHandler.squashScopeFilter m]).getLast? with
  | none =>
    rw [List.getLast?_eq_none_iff] at hlast
    simp only [true_iff]
    intro hq
    obtain ⟨q, hq, hsquash, _⟩ := hq
    obtain ⟨r, hr, hrow⟩ := h.stored q hq
    have hmem := (hscope r.message).mpr ⟨r, hr, rfl, q, hq, hrow, hsquash⟩
    rw [hlast] at hmem
    cases hmem
  | some n =>
    obtain ⟨hn, hgreatest⟩ := query_getLast? h.wf hlast
    obtain ⟨r, hr, rfl, q, hq, hrow, hsquash⟩ := (hscope n).mp hn
    have htime : r.message.message.messageTimestamp = RecordsWrite.messageTimestamp q := by
      rw [hrow.1]
      rfl
    have hrefuses : Refuses RecordsWrite.messageTimestamp RecordsWrite.isSquash kept m ↔
        m.descriptor.messageTimestamp ≤ r.message.message.messageTimestamp := by
      constructor
      · intro hq'
        obtain ⟨q', hq', hsquash', hle⟩ := hq'
        obtain ⟨r', hr', hrow'⟩ := h.stored q' hq'
        have hle' := hgreatest r'.message
          ((hscope r'.message).mpr ⟨r', hr', rfl, q', hq', hrow', hsquash'⟩)
        have htime' : r'.message.message.messageTimestamp = RecordsWrite.messageTimestamp q' := by
          rw [hrow'.1]
          rfl
        exact hle.trans (htime' ▸ hle')
      · intro hle
        exact ⟨q, hq, hsquash, htime ▸ hle⟩
    rw [hrefuses]
    by_cases hle : m.descriptor.messageTimestamp ≤ r.message.message.messageTimestamp
    · simp [hle]
    · simp [hle]

end State

end SiblingSet

/-! ## What a squash purges -/

section Purge
variable {tenant : Did} {m : RecordsWriteMessage}

/-- The body of the squash: a group of messages of one other record goes when it is older. -/
def purgeIfOlder (tenant : Did) (m : RecordsWriteMessage) (messages : List StoredMessage) :
    Task Unit :=
  match Message.getNewestMessage messages with
  | none => pure ()
  | some newestMessage =>
    if newestMessage.recordId = m.recordId then pure ()
    else if newestMessage.message.messageTimestamp < m.descriptor.messageTimestamp then
      purgeRecordMessages tenant messages
    else pure ()

theorem performRecordsSquash_eq : performRecordsSquash tenant m = (do
    let siblingMessages ← Stores.query tenant [squashFilter m]
    Program.forEach (purgeIfOlder tenant m) (groupByRecordId siblingMessages)) := rfl

/-- The CIDs a group of one message loses. -/
def purgedCids (m : RecordsWriteMessage) (messages : List StoredMessage) : List Cid :=
  (messages.filter fun x => x.recordId ≠ m.recordId ∧
    x.message.messageTimestamp < m.descriptor.messageTimestamp).map Message.getCid

/-- The store after some rows of the tenant's log are gone. -/
def Stores.without (s : Stores) (tenant : Did) (cids : List Cid) : Stores :=
  s.setLog tenant ((s.messages tenant).restrict fun r => r.cid ∉ cids)

variable (tenant m) in
theorem runs_purgeIfOlder {x : StoredMessage} {w : RecordsWriteMessage} {s : Stores}
    (hx : x.message = .recordsWrite w) (hsound : s.data.Sound) : ∃ d : DataStore, d.Sound ∧
      Program.Runs (purgeIfOlder tenant m [x]) s ()
        { s.without tenant (purgedCids m [x]) with data := d } := by
  have hnewest : Message.getNewestMessage [x] = some x := rfl
  have hsame : s.without tenant [] = s := by
    simp [Stores.without, Stores.setLog, Log.restrict]
  unfold purgeIfOlder
  rw [hnewest]
  dsimp only
  by_cases hself : x.recordId = m.recordId
  · have hnone : purgedCids m [x] = [] := by simp [purgedCids, hself]
    rw [if_pos hself, hnone, hsame]
    exact ⟨s.data, hsound, Program.runs_pure () s⟩
  rw [if_neg hself]
  by_cases holder : x.message.messageTimestamp < m.descriptor.messageTimestamp
  · have hone : purgedCids m [x] = [Message.getCid x] := by
      unfold purgedCids
      rw [List.filter_cons_of_pos]
      · rfl
      · exact decide_eq_true ⟨hself, holder⟩
    have hwrite : Records.getNewestRecordsWrite [x] = some w := by
      simp [Records.getNewestRecordsWrite, StoredMessage.isRecordsWrite, Records.isRecordsWrite, hx,
        hnewest, StoredMessage.asRecordsWrite]
    rw [if_pos holder, hone]
    unfold purgeRecordMessages
    rw [hwrite]
    refine ⟨_, DataStore.delete_sound hsound ⟨tenant, w.recordId, w.descriptor.dataCid⟩, ?_⟩
    refine Program.Runs.bind ⟨rfl, rfl⟩ ⟨rfl, ?_⟩
    rw [List.map_cons, List.map_nil, final_forEach_deleteMessage]
    rfl
  · have hnone : purgedCids m [x] = [] := by
      unfold purgedCids
      rw [List.filter_cons_of_neg]
      · rfl
      · exact fun h => holder (of_decide_eq_true h).2
    rw [if_neg holder, hnone, hsame]
    exact ⟨s.data, hsound, Program.runs_pure () s⟩

theorem without_without (s : Stores) (a b : List Cid) (d : DataStore) :
    Stores.without { s.without tenant a with data := d } tenant b =
      { s.without tenant (a ++ b) with data := d } := by
  simp only [Stores.without, Stores.setLog, Function.update_self, Function.update_idem,
    Log.restrict, List.filter_filter, List.mem_append, not_or]
  congr 4
  funext r
  simp [Bool.and_comm]

variable (tenant m) in
/-- Groups of one write each are purged one after the other. -/
theorem runs_forEach_purgeIfOlder {groups : List (List StoredMessage)} {s : Stores}
    (hgroups : ∀ g ∈ groups, ∃ x w, g = [x] ∧ x.message = .recordsWrite w)
    (hsound : s.data.Sound) : ∃ d : DataStore, d.Sound ∧
      Program.Runs (Program.forEach (purgeIfOlder tenant m) groups) s ()
        { s.without tenant (groups.flatMap (purgedCids m)) with data := d } := by
  induction groups generalizing s with
  | nil =>
    refine ⟨s.data, hsound, ?_⟩
    have hsame : s.without tenant [] = s := by
      simp [Stores.without, Stores.setLog, Log.restrict]
    rw [List.flatMap_nil, hsame]
    exact Program.runs_pure () s
  | cons g groups ih =>
    obtain ⟨x, w, rfl, hx⟩ := hgroups g (by simp)
    obtain ⟨d, hd, hrun⟩ := runs_purgeIfOlder tenant m hx hsound
    have hrest : ∀ g ∈ groups, ∃ x w, g = [x] ∧ x.message = .recordsWrite w :=
      fun g hg => hgroups g (by simp [hg])
    obtain ⟨d', hd', hrun'⟩ :=
      ih (s := { s.without tenant (purgedCids m [x]) with data := d }) hrest hd
    refine ⟨d', hd', ?_⟩
    rw [without_without] at hrun'
    exact hrun.bind hrun'

end Purge

/-! ## One write -/

namespace SiblingSet.State
variable {ms : SiblingSet} {tenant : Did} {remaining : Nat} {kept : List RecordsWriteMessage}
  {s : Stores} {m : RecordsWriteMessage}

/-- The messages at the path and in the context belong to distinct records. -/
theorem nodup_recordIds (h : ms.State tenant remaining kept s) :
    ((query (s.messages tenant) [ms.filter]).map StoredMessage.recordId).Nodup := by
  have hnodup := nodup_query h.wf [ms.filter]
  have hinj : ∀ x ∈ query (s.messages tenant) [ms.filter],
      ∀ y ∈ query (s.messages tenant) [ms.filter], x.recordId = y.recordId → x = y := by
    intro x hx y hy hrecord
    obtain ⟨r, hr, rfl⟩ := mem_query.mp hx
    obtain ⟨r', hr', rfl⟩ := mem_query.mp hy
    obtain ⟨-, w, hw, hrow⟩ := h.mem_matching.mp hr
    obtain ⟨-, w', hw', hrow'⟩ := h.mem_matching.mp hr'
    have heq : w = w' := by
      refine eq_of_recordId (h.subset w hw) (h.subset w' hw') ?_
      simpa [StoredMessage.recordId, hrow.1, hrow'.1] using hrecord
    subst heq
    refine List.inj_on_of_nodup_map hnodup hx hy ?_
    exact (cid_of_isRowOf hrow).trans (cid_of_isRowOf hrow').symm
  exact List.Nodup.map_on hinj (List.Nodup.of_map _ hnodup)

/-- The CIDs a squash purges are those of the older siblings. -/
theorem mem_purged (h : ms.State tenant remaining kept s) {c : Cid} :
    c ∈ (groupByRecordId (query (s.messages tenant) [ms.filter])).flatMap (purgedCids m) ↔
      ∃ w ∈ kept, w.recordId ≠ m.recordId ∧
        RecordsWrite.messageTimestamp w < RecordsWrite.messageTimestamp m ∧
        Message.getCid (RecordsWrite.stored w) = c := by
  have hnodup := h.nodup_recordIds
  constructor
  · intro hc
    obtain ⟨g, hg, hc⟩ := List.mem_flatMap.mp hc
    obtain ⟨id, hid, rfl⟩ := List.mem_map.mp hg
    obtain ⟨x, hx, rfl⟩ := List.mem_map.mp hc
    obtain ⟨hx, holder⟩ := List.mem_filter.mp hx
    obtain ⟨hne, holder⟩ := of_decide_eq_true holder
    obtain ⟨r, hr, rfl⟩ := mem_query.mp (List.mem_filter.mp hx).1
    obtain ⟨-, w, hw, hrow⟩ := h.mem_matching.mp hr
    refine ⟨w, hw, ?_, ?_, (cid_of_isRowOf hrow).symm⟩
    · simpa [StoredMessage.recordId, hrow.1] using hne
    · rw [hrow.1] at holder
      exact holder
  · rintro ⟨w, hw, hne, holder, rfl⟩
    obtain ⟨r, hr, hrow⟩ := h.stored w hw
    have hmem : r.message ∈ query (s.messages tenant) [ms.filter] :=
      mem_query.mpr ⟨r, h.mem_matching.mpr ⟨hr, w, hw, hrow⟩, rfl⟩
    refine List.mem_flatMap.mpr ⟨[r.message], ?_, ?_⟩
    · refine List.mem_map.mpr ⟨r.message.recordId, List.mem_eraseDups.mpr
        (List.mem_map.mpr ⟨_, hmem, rfl⟩), Selection.filter_of_nodup_map hnodup hmem⟩
    · refine List.mem_map.mpr ⟨r.message, List.mem_filter.mpr ⟨by simp, ?_⟩, cid_of_isRowOf hrow⟩
      refine decide_eq_true ⟨?_, ?_⟩
      · simpa [StoredMessage.recordId, hrow.1] using hne
      · rw [hrow.1]
        exact holder

/-- Rows that go take their siblings out of what is kept. -/
theorem without (h : ms.State tenant remaining kept s) {cids : List Cid} {d : DataStore}
    (hd : d.Sound) {kept' : List RecordsWriteMessage}
    (hkept : ∀ w, w ∈ kept' ↔ w ∈ kept ∧ Message.getCid (RecordsWrite.stored w) ∉ cids) :
    ms.State tenant remaining kept' { s.without tenant cids with data := d } := by
  have hlog : ({ s.without tenant cids with data := d } : Stores).messages tenant =
      (s.messages tenant).restrict fun r => r.cid ∉ cids := by
    simp [Stores.without]
  refine ⟨?_, hd, ?_, fun w hw => h.subset w ((hkept w).mp hw).1, ?_, ?_⟩
  · rw [hlog]
    exact h.wf.restrict _
  · rw [hlog]
    exact h.room
  · intro w hw
    obtain ⟨hw, hc⟩ := (hkept w).mp hw
    obtain ⟨r, hr, hrow⟩ := h.stored w hw
    refine ⟨r, ?_, hrow⟩
    rw [hlog]
    refine List.mem_filter.mpr ⟨hr, decide_eq_true ?_⟩
    rwa [cid_of_isRowOf hrow]
  · intro r hr
    rw [hlog] at hr
    obtain ⟨hr, hc⟩ := List.mem_filter.mp hr
    refine (h.rows r hr).imp (fun ⟨w, hw, hrow⟩ => ⟨w, (hkept w).mpr ⟨hw, ?_⟩, hrow⟩) id
    rw [← cid_of_isRowOf hrow]
    exact of_decide_eq_true hc

theorem performRecordsSquash (h : ms.State tenant remaining (kept ++ [m]) s)
    (hnew : m ∉ kept) :
    ms.State tenant remaining
      ((kept.filter fun w => RecordsWrite.messageTimestamp m ≤ RecordsWrite.messageTimestamp w) ++ [m])
      ((StorageController.performRecordsSquash tenant m).final s) := by
  have hm : m ∈ ms.messages := h.subset m (by simp)
  have hgroups : ∀ g ∈ groupByRecordId (query (s.messages tenant) [ms.filter]),
      ∃ x w, g = [x] ∧ x.message = .recordsWrite w := by
    intro g hg
    obtain ⟨id, hid, rfl⟩ := List.mem_map.mp hg
    obtain ⟨x, hx, rfl⟩ := List.mem_map.mp (List.mem_eraseDups.mp hid)
    obtain ⟨r, hr, rfl⟩ := mem_query.mp hx
    obtain ⟨-, w, -, hrow⟩ := h.mem_matching.mp hr
    exact ⟨r.message, w, Selection.filter_of_nodup_map h.nodup_recordIds hx, hrow.1⟩
  obtain ⟨d, hd, hrun⟩ := runs_forEach_purgeIfOlder tenant m hgroups h.sound
  rw [performRecordsSquash_eq, squashFilter_eq hm,
    Program.final_bind_ok (Stores.result_query tenant _ s), Stores.final_query, hrun.final_eq]
  refine h.without hd fun w => ?_
  rw [h.mem_purged, List.mem_append, List.mem_append, List.mem_filter, List.mem_singleton,
    decide_eq_true_iff]
  have hother : w ∈ kept → w.recordId ≠ m.recordId := by
    intro hw hrecord
    exact hnew (eq_of_recordId (h.subset w (by simp [hw])) hm hrecord ▸ hw)
  have huniq : ∀ v ∈ kept ++ [m], ∀ u ∈ kept ++ [m],
      Message.getCid (RecordsWrite.stored v) = Message.getCid (RecordsWrite.stored u) → v = u :=
    fun v hv u hu => eq_of_cid (h.subset v hv) (h.subset u hu)
  constructor
  · rintro (⟨hw, hle⟩ | rfl)
    · refine ⟨Or.inl hw, fun ⟨v, hv, _, holder, hc⟩ => ?_⟩
      rw [huniq v hv w (by simp [hw]) hc] at holder
      exact absurd hle (not_le.mpr holder)
    · refine ⟨Or.inr rfl, fun ⟨v, hv, hne, _, hc⟩ => ?_⟩
      rw [huniq v hv w (by simp) hc] at hne
      exact hne rfl
  · rintro ⟨hw | rfl, hkeep⟩
    · refine Or.inl ⟨hw, not_lt.mp fun holder => ?_⟩
      exact hkeep ⟨w, by simp [hw], hother hw, holder, rfl⟩
    · exact Or.inr rfl

theorem committed (h : ms.State tenant (remaining + 1) kept s) (hm : m ∈ ms.messages)
    (hnew : m ∉ kept) {stored : StoredMessage} {d : DataStore}
    (hstored : stored.message = .recordsWrite m) (hd : d.Sound) :
    ms.State tenant remaining (kept ++ [m])
      { s.setLog tenant (StorageController.committed (s.messages tenant) [] stored
        (RecordsWrite.constructIndexes m true) []) with data := d } := by
  have hcid : Message.getCid stored = Message.getCid (RecordsWrite.stored m) := by
    simp only [Message.getCid, hstored, RecordsWrite.stored]
  have hsnap : Snapshot (s.messages tenant) m.recordId [] :=
    query_unknown h.wf (h.recordRows_eq_nil hm hnew) ▸ snapshot_query h.wf m.recordId
  have hfresh : ∀ r ∈ (s.messages tenant).rows, r.cid ≠ Message.getCid stored := by
    rw [hcid]
    exact h.cid_ne hm hnew
  have hrows : (StorageController.committed (s.messages tenant) [] stored
      (RecordsWrite.constructIndexes m true) []).rows = (s.messages tenant).rows ++
        [newRow (s.messages tenant) stored (RecordsWrite.constructIndexes m true)] := by
    have hdisplace : displaceRow [] stored [] = some := rfl
    simp [StorageController.committed, hdisplace]
  have hroom := h.room
  refine ⟨?_, hd, ?_, ?_, ?_, ?_⟩
  · rw [Stores.messages_setLog]
    refine wellFormed_committed h.wf hsnap hfresh ?_
    simp [Row.Indexed, newRow, hstored]
  · rw [Stores.messages_setLog]
    simp only [StorageController.committed]
    omega
  · intro w hw
    obtain hw | hw := List.mem_append.mp hw
    · exact h.subset w hw
    · rwa [List.mem_singleton.mp hw]
  · rw [Stores.messages_setLog, hrows]
    intro w hw
    obtain hw | hw := List.mem_append.mp hw
    · obtain ⟨r, hr, hrow⟩ := h.stored w hw
      exact ⟨r, by simp [hr], hrow⟩
    · rw [List.mem_singleton.mp hw]
      exact ⟨_, List.mem_append_right _ (List.mem_singleton.mpr rfl), hstored, rfl⟩
  · rw [Stores.messages_setLog, hrows]
    intro r hr
    obtain hr | hr := List.mem_append.mp hr
    · refine (h.rows r hr).imp (fun hw => ?_) id
      obtain ⟨w, hw, hrow⟩ := hw
      exact ⟨w, by simp [hw], hrow⟩
    · rw [List.mem_singleton.mp hr]
      exact Or.inl ⟨m, by simp, hstored, rfl⟩

theorem final_refused {deps : HandlerDependencies} {x : RecordsWriteMessage × P.Data}
    {ruleSet : ModuleRuleSet} {e : Failure} (hx : x ∈ ms.writes)
    (hadm : SquashAdmissible deps tenant x.1 x.2 s)
    (hquery : query (s.messages tenant) [recordFilter x.1.recordId] = [])
    (hreferential : deps.validateReferentialIntegrity s tenant x.1 = .ok ruleSet)
    (hbackstop : RecordsWriteHandler.enforceSquashBackstop s tenant x.1 ruleSet = .error e) :
    (RecordsWriteHandler.handle deps tenant x.1 (some x.2)).final s = s := by
  have hrejected : RecordsWriteHandler.checkAdmission deps tenant x.1 [] s =
      .error { status := messageReplyFromError e 409 } := by
    simp [RecordsWriteHandler.checkAdmission, RecordsWriteHandler.orReply,
      RecordsWriteHandler.getInitialWrite, ms.isInitial x hx, hreferential, hadm.authenticated,
      hadm.authorized, RecordsWriteHandler.verifyImmutableProperties, hbackstop, Except.mapError]
  unfold RecordsWriteHandler.handle
  simp only [hadm.parsed]
  rw [Program.final_bind_ok (Stores.result_query tenant _ s), Stores.final_query, hquery]
  unfold RecordsWriteHandler.handleOn
  rw [List.find?_nil]
  dsimp only
  rw [Program.final_bind_ok (Program.result_read s _), Program.final_read, hrejected]
  rfl

/-- After the commit of a sibling only a squash does more. -/
theorem final_postProcess {x : RecordsWriteMessage × P.Data} (hx : x ∈ ms.writes) (t : Stores) :
    (RecordsWriteHandler.postProcess tenant x.1).final t =
      if RecordsWrite.isSquash x.1 = true then
        (StorageController.performRecordsSquash tenant x.1).final t else t := by
  have hrevoke : ∀ u, ((if x.1.descriptor.module = permissionsModuleUri then
      PermissionsModule.postProcessWrite tenant x.1 else pure ()) : Task Unit).final u = u := by
    intro u
    split
    · next hmodule =>
      unfold PermissionsModule.postProcessWrite
      rw [if_pos]
      · rfl
      · rw [ms.atPath x hx]
        exact ms.ordinary ((ms.inModule x hx).symm.trans hmodule)
    · rfl
  unfold RecordsWriteHandler.postProcess
  by_cases hsquash : x.1.descriptor.squash = some true
  · have hflag : RecordsWrite.isSquash x.1 = true := by simp [RecordsWrite.isSquash, hsquash]
    simp only [hsquash, if_true, hflag]
    exact Program.final_bind_silent fun _ u => hrevoke u
  · have hflag : ¬ RecordsWrite.isSquash x.1 = true := by
      simpa [RecordsWrite.isSquash] using hsquash
    simp only [hsquash, if_false, hflag]
    exact hrevoke t

/-- Processing a sibling is one step of the temporal floor. -/
theorem handle {deps : HandlerDependencies} {x : RecordsWriteMessage × P.Data}
    (h : ms.State tenant (remaining + 1) kept s) (hx : x ∈ ms.writes) (hnew : x.1 ∉ kept)
    (hadm : SquashAdmissible deps tenant x.1 x.2 s) (hsize : DataStore.SizedByCid (P := P)) :
    ms.State tenant remaining
      (enter RecordsWrite.messageTimestamp RecordsWrite.isSquash kept x.1)
      ((RecordsWriteHandler.handle deps tenant x.1 (some x.2)).final s) := by
  have hm : x.1 ∈ ms.messages := List.mem_map.mpr ⟨x, hx, rfl⟩
  have hquery := query_unknown h.wf (h.recordRows_eq_nil hm hnew)
  have hroom := h.room
  obtain ⟨ruleSet, hreferential, hrule⟩ := hadm.referential
  have hdecided := h.enforceSquashBackstop_iff hm hrule
  unfold enter
  cases hbackstop : RecordsWriteHandler.enforceSquashBackstop s tenant x.1 ruleSet with
  | error e =>
    rw [hbackstop] at hdecided
    have hrefuses := not_not.mp (mt hdecided.mpr (by simp))
    rw [if_pos hrefuses, final_refused hx hadm hquery hreferential hbackstop]
    exact ⟨h.wf, h.sound, by omega, h.subset, h.stored, h.rows⟩
  | ok _ =>
    have haccepts := hdecided.mp hbackstop
    have hadmissible : WriteAdmissible deps tenant x.1 (some x.2) s :=
      ⟨hadm.parsed, hadm.authenticated, hadm.authorized, ⟨ruleSet, hreferential, hbackstop⟩,
        hadm.preProcessed, fun data hdata => by cases hdata; exact hadm.validated, fun _ => rfl⟩
    have hadmitted := handle_admitted none hadmissible (by rw [hquery]; simp)
      (by rw [hquery, ms.isInitial x hx]; rfl) rfl
    rw [hquery] at hadmitted
    have hsnap : Snapshot (s.messages tenant) x.1.recordId [] :=
      hquery ▸ snapshot_query h.wf x.1.recordId
    obtain ⟨stored, d, hstored, hd, hcommit⟩ := commitRecordsWrite_ok hadmissible
      (fun data hdata => by cases hdata; exact ms.carries x hx) (fun hnone => by cases hnone)
      hsize h.sound rfl h.wf hsnap (h.cid_ne hm hnew) (by omega)
    obtain ⟨t, hstate, hcommit⟩ : ∃ t, ms.State tenant remaining (kept ++ [x.1]) t ∧
        Program.Runs (RecordsWriteHandler.commitRecordsWrite deps tenant x.1 (some x.2) []) s
          (.inserted ((s.messages tenant).head + 1)) t :=
      ⟨_, h.committed hm hnew hstored hd, hcommit⟩
    have hfinal : (RecordsWriteHandler.handle deps tenant x.1 (some x.2)).final s =
        (RecordsWriteHandler.postProcess tenant x.1).final t := by
      rw [Program.final, Program.trail, hadmitted]
      unfold RecordsWriteHandler.commitIfNewest
      exact hcommit.attempt.final_bind.trans (Program.final_bind_pure _ _ _)
    rw [if_neg haccepts, hfinal, final_postProcess hx]
    by_cases hsquash : RecordsWrite.isSquash x.1 = true
    · rw [if_pos hsquash, if_pos hsquash]
      exact hstate.performRecordsSquash hnew
    · rw [if_neg hsquash, if_neg hsquash]
      exact hstate

end SiblingSet.State

/-! ## Orders -/

namespace SiblingSet
variable {ms : SiblingSet} {deps : HandlerDependencies} {tenant : Did} {s : Stores}

theorem state_start (hstart : ms.Start tenant s) : ms.State tenant ms.writes.length [] s where
  wf := hstart.wf
  sound := hstart.sound
  room := hstart.room
  subset := by simp
  stored := by simp
  rows := fun r hr => Or.inr ⟨hstart.empty r hr, hstart.unknown r hr, hstart.unstored r hr⟩

/-- Processing some of the siblings in some order runs the temporal floor on them. -/
theorem state_processWrites (hstart : ms.Start tenant s) (hauth : ms.Authorized deps tenant s)
    (hsize : DataStore.SizedByCid (P := P)) {order : List (RecordsWriteMessage × P.Data)}
    (horder : order.Subperm ms.writes) :
    ms.State tenant (ms.writes.length - order.length)
      (run RecordsWrite.messageTimestamp RecordsWrite.isSquash (order.map Prod.fst))
      (processWrites deps tenant order s) := by
  induction order using List.reverseRecOn with
  | nil => exact state_start hstart
  | append_singleton order x ih =>
    have hperm : (order ++ [x]).Perm (x :: order) := List.perm_append_singleton x order
    have hnext : (x :: order).Subperm ms.writes := hperm.subperm_right.mp horder
    have hmem : x ∈ ms.writes := hnext.subset List.mem_cons_self
    have hlength : order.length + 1 ≤ ms.writes.length := hnext.length_le
    have hstate := ih ((List.sublist_cons_self x order).subperm.trans hnext)
    have hremaining : ms.writes.length - order.length =
        ms.writes.length - (order ++ [x]).length + 1 := by
      rw [List.length_append, List.length_singleton]
      omega
    rw [hremaining] at hstate
    have hnew : x.1 ∉ run RecordsWrite.messageTimestamp RecordsWrite.isSquash
        (order.map Prod.fst) := by
      intro hkept
      obtain ⟨y, hy, hfst⟩ := List.mem_map.mp (mem_of_mem_run hkept)
      obtain ⟨l, hl, hsub⟩ := hnext
      have hnodup : ((x :: order).map fun y => y.1.recordId).Nodup :=
        (hl.map _).nodup_iff.mp (ms.records.sublist (hsub.map _))
      rw [List.map_cons, List.nodup_cons] at hnodup
      exact hnodup.1 (List.mem_map.mpr ⟨y, hy, by rw [hfst]⟩)
    have hstep := hstate.handle hmem hnew (hauth order x hnext) hsize
    rw [List.map_append, List.map_cons, List.map_nil, run_concat]
    simpa [processWrites] using hstep

section Records
variable (hstart : ms.Start tenant s) (hauth : ms.Authorized deps tenant s)
    (hsize : DataStore.SizedByCid (P := P)) {order : List (RecordsWriteMessage × P.Data)}
    (horder : order.Perm ms.writes)
include hstart hauth hsize horder

/-- The records left are those of the temporal floor. -/
theorem mem_storedRecords {recordId : String} :
    recordId ∈ ms.storedRecords tenant (processWrites deps tenant order s) ↔
      ∃ m ∈ run RecordsWrite.messageTimestamp RecordsWrite.isSquash (order.map Prod.fst),
        m.recordId = recordId := by
  have hstate := state_processWrites hstart hauth hsize horder.subperm
  unfold storedRecords
  rw [List.mem_map]
  constructor
  · rintro ⟨r, hr, rfl⟩
    obtain ⟨-, m, hm, hrow⟩ := hstate.mem_matching.mp hr
    exact ⟨m, hm, by simp [StoredMessage.recordId, hrow.1]⟩
  · rintro ⟨m, hm, rfl⟩
    obtain ⟨r, hr, hrow⟩ := hstate.stored m hm
    exact ⟨r, hstate.mem_matching.mpr ⟨hr, m, hm, hrow⟩, by simp [StoredMessage.recordId, hrow.1]⟩

/-- No other sibling bears the timestamp of the greatest squash. -/
def Settled (ms : SiblingSet) : Prop :=
  TemporalFloor.Settled RecordsWrite.messageTimestamp RecordsWrite.isSquash ms.messages

instance (ms : SiblingSet) : Decidable ms.Settled :=
  inferInstanceAs (Decidable (TemporalFloor.Settled _ _ _))

theorem floor_processWrites {r r' : Row}
    (hr : r ∈ matching ((processWrites deps tenant order s).messages tenant) [ms.filter])
    (hr' : r' ∈ matching ((processWrites deps tenant order s).messages tenant) [ms.filter])
    {q : RecordsWriteMessage} (hq : r'.message.message = .recordsWrite q)
    (hsquash : q.descriptor.squash = some true) :
    q.descriptor.messageTimestamp ≤ r.message.message.messageTimestamp := by
  have hstate := state_processWrites hstart hauth hsize horder.subperm
  obtain ⟨-, m, hm, hrow⟩ := hstate.mem_matching.mp hr
  obtain ⟨-, m', hm', hrow'⟩ := hstate.mem_matching.mp hr'
  have heq : GenericMessage.recordsWrite q = .recordsWrite m' := hq.symm.trans hrow'.1
  cases heq
  have hle : RecordsWrite.messageTimestamp q ≤ RecordsWrite.messageTimestamp m :=
    floor_le hm hm' (by simp [RecordsWrite.isSquash, hsquash])
  rw [hrow.1]
  exact hle

end Records

/-- The stored siblings do not depend on the order exactly when no other sibling bears the
timestamp of the greatest squash. -/
theorem converges_iff_settled (hstart : ms.Start tenant s) (hauth : ms.Authorized deps tenant s)
    (hsize : DataStore.SizedByCid (P := P)) : ms.Converges deps tenant s ↔ ms.Settled := by
  have hnodup : ms.messages.Nodup := by
    have hrecords := ms.records
    rw [show (fun x : RecordsWriteMessage × P.Data => x.1.recordId) =
      RecordsWriteMessage.recordId ∘ Prod.fst from rfl, ← List.map_map] at hrecords
    exact List.Nodup.of_map _ hrecords
  rw [Settled, settled_iff hnodup]
  constructor
  · intro hconverges messages messages' hperm hperm' m
    obtain ⟨order, horder, rfl⟩ := Selection.exists_perm_of_perm_map hperm
    obtain ⟨order', horder', rfl⟩ := Selection.exists_perm_of_perm_map hperm'
    have hkept : ∀ {o : List (RecordsWriteMessage × P.Data)}, o.Perm ms.writes →
        (m ∈ run RecordsWrite.messageTimestamp RecordsWrite.isSquash (o.map Prod.fst) ↔
          m ∈ ms.messages ∧ m.recordId ∈ ms.storedRecords tenant (processWrites deps tenant o s)) := by
      intro o ho
      have hmem : ∀ w, w ∈ o.map Prod.fst ↔ w ∈ ms.messages := fun w => (ho.map Prod.fst).mem_iff
      rw [mem_storedRecords hstart hauth hsize ho]
      constructor
      · intro hm
        exact ⟨(hmem m).mp (mem_of_mem_run hm), m, hm, rfl⟩
      · intro ⟨hm, w, hw, hrecord⟩
        rwa [← eq_of_recordId ((hmem w).mp (mem_of_mem_run hw)) hm hrecord]
    rw [hkept horder, hkept horder', hconverges.same order order' horder horder']
  · intro hsame
    refine ⟨fun order order' horder horder' recordId => ?_,
      fun order horder r hr r' hr' q hq hsquash =>
        floor_processWrites hstart hauth hsize horder hr hr' hq hsquash⟩
    rw [mem_storedRecords hstart hauth hsize horder, mem_storedRecords hstart hauth hsize horder']
    exact exists_congr fun m => and_congr_left fun _ =>
      hsame _ _ (horder.map _) (horder'.map _) m

end SiblingSet

end EnboxDwn

namespace EnboxDwn.SiblingSet
local instance : Platform := Platform.ofText

/-- A node whose module paths all have `$squash`. -/
def squashing : HandlerDependencies :=
  { HandlerDependencies.permissive with
    validateReferentialIntegrity := fun _ _ _ => .ok { squash := true } }

def note (author : Did) (messageTimestamp : Timestamp) (squash : Bool) : RecordsWriteMessage where
  recordId := author ++ messageTimestamp
  contextId := author ++ messageTimestamp
  descriptor :=
    { module := "notes", modulePath := "note", dataCid := "text", dataSize := 4,
      dataFormat := "text/plain", dateCreated := messageTimestamp, messageTimestamp,
      squash := if squash then some true else none }
  authorization := { signature := author ++ messageTimestamp, signer := author }

def ofNotes (notes : List (Did × Timestamp × Bool))
    (hcontext : (notes.all fun n => Records.getParentContextFromOfContextId (n.1 ++ n.2.1) = "") = true)
    (hrecords : (notes.map fun n => n.1 ++ n.2.1).Nodup)
    (hcids : (notes.map fun n =>
      Message.getCid (RecordsWrite.stored (note n.1 n.2.1 n.2.2))).Nodup) : SiblingSet where
  module := "notes"
  modulePath := "note"
  parentContextId := ""
  writes := notes.map fun n => (note n.1 n.2.1 n.2.2, "text")
  isInitial := by
    intro x hx
    obtain ⟨n, -, rfl⟩ := List.mem_map.mp hx
    simp [RecordsWrite.isInitialWrite, RecordsWrite.getEntryId, RecordsWrite.author, note,
      Message.getAuthor, Platform.computeEntryId]
  carries := by
    intro x hx
    obtain ⟨n, -, rfl⟩ := List.mem_map.mp hx
    have hlength : Platform.byteLength "text" = 4 := by decide
    exact ⟨rfl, hlength⟩
  inModule := by
    intro x hx
    obtain ⟨n, -, rfl⟩ := List.mem_map.mp hx
    rfl
  atPath := by
    intro x hx
    obtain ⟨n, -, rfl⟩ := List.mem_map.mp hx
    rfl
  inContext := by
    intro x hx
    obtain ⟨n, hn, rfl⟩ := List.mem_map.mp hx
    exact of_decide_eq_true (List.all_eq_true.mp hcontext n hn)
  ordinary := by decide
  records := by
    rw [List.map_map]
    exact hrecords
  cids := by
    rw [List.map_map]
    exact hcids

/-- A note of bob and a squash of alice at the same time. -/
def tied : SiblingSet :=
  ofNotes [("bob", "5", false), ("alice", "5", true)] (by decide) (by decide)
    (by decide)

/-- The note stays when it comes first and is refused when it comes second. -/
theorem tied_not_converges : ¬ tied.Converges squashing "alice" {} := by
  intro h
  have hsame := h.same [(note "bob" "5" false, "text"), (note "alice" "5" true, "text")]
    [(note "alice" "5" true, "text"), (note "bob" "5" false, "text")] (.refl _) (.swap _ _ _) "bob5"
  exact absurd hsame (by decide)

def timeline : SiblingSet :=
  ofNotes [("alice", "3", false), ("alice", "5", true), ("bob", "4", true), ("bob", "7", false)]
    (by decide) (by decide) (by decide)

theorem timeline_converges :
    timeline.Converges squashing "alice" {} ∧
      timeline.storedRecords "alice" (processWrites squashing "alice" timeline.writes {}) =
        ["alice5", "bob7"] := by
  have hstart : timeline.Start "alice" {} :=
    ⟨Log.WellFormed.empty, DataStore.sound_empty, by decide, by simp, by simp, by simp⟩
  have hauth : timeline.Authorized squashing "alice" {} := by
    intro l x hx
    have hmem : x ∈ timeline.writes := hx.subset List.mem_cons_self
    have hparsed : ∀ x ∈ timeline.writes, RecordsWrite.parse squashing x.1 = .ok () := by
      decide
    exact ⟨hparsed x hmem, rfl, rfl, ⟨_, rfl, rfl⟩, rfl, fun _ => rfl⟩
  refine ⟨(converges_iff_settled hstart hauth DataStore.sizedByCid_ofText).mpr (by decide), ?_⟩
  decide

end EnboxDwn.SiblingSet
