import EnboxDwn.WriteEffects
import EnboxDwn.RecordState
import EnboxDwn.ModuleGraph

/-! The context of a record: a root is its own context, every other record extends the
context of its parent by its own id. The check of the context, and what runs of writes
make of it. -/
namespace EnboxDwn
open Journal MessageStore StorageController

variable [P : Platform]

/-! ## The check -/

namespace ValidationStateReader

def pruneTombstoneFilter (recordId : String) : Filter :=
  [Filters.equalText "interface" "Records", Filters.equalText "method" "Delete",
    Filters.equalText "recordId" recordId, Filters.equalFlag "prune" true]

def recordHasPruneTombstone (s : Stores) (tenant : Did) (recordId : String) : Bool :=
  !(query (s.messages tenant) [pruneTombstoneFilter recordId]).isEmpty

def fetchParentRecord (s : Stores) (tenant : Did) (parentModuleUri parentId : String) :
    Option RecordsWriteMessage :=
  match RecordsDeleteHandler.fetchInitialRecordsWrite s tenant parentId with
  | none => none
  | some initialWrite =>
    if initialWrite.descriptor.module ≠ parentModuleUri then none
    else if recordHasPruneTombstone s tenant parentId then none
    else some initialWrite

end ValidationStateReader

namespace ModuleAuthorization
open ValidationStateReader

def verifyModulePathAndContextId (s : Stores) (tenant : Did) (m : RecordsWriteMessage)
    (expectedParent : Option ResolvedModuleAddress) : Except Failure Unit :=
  let d := m.descriptor
  match d.parentId, expectedParent with
  | none, none => .ok ()
  | none, some _ =>
    .error (.dwnError ⟨.moduleAuthorizationParentlessIncorrectModulePath,
      "declared module path '" ++ d.modulePath ++ "' requires a physical parent."⟩)
  | some _, none =>
    .error (.dwnError ⟨.moduleAuthorizationIncorrectModulePath,
      "root module path '" ++ d.modulePath ++ "' cannot have a parent."⟩)
  | some parentId, some expectedParent =>
    match fetchParentRecord s tenant expectedParent.owningModuleUri parentId with
    | none =>
      .error (.dwnError ⟨.moduleAuthorizationParentRecordNotFound,
        "could not find parent record '" ++ parentId ++ "' in module '" ++
          expectedParent.owningModuleUri ++ "' for '" ++ d.modulePath ++ "'."⟩)
    | some parentMessage =>
      if parentMessage.descriptor.module ≠ expectedParent.owningModuleUri ∨
          parentMessage.descriptor.modulePath ≠ expectedParent.owningModulePath then
        .error (.dwnError ⟨.moduleAuthorizationIncorrectModulePath,
          "parent record does not match the resolved parent of module path '" ++
            d.modulePath ++ "'."⟩)
      else
        let expectedContextId := parentMessage.contextId ++ "/" ++ m.recordId
        if m.contextId ≠ expectedContextId then
          .error (.dwnError ⟨.moduleAuthorizationIncorrectContextId,
            "declared contextId '" ++ m.contextId ++ "' is not expected context '" ++
              expectedContextId ++ "'."⟩)
        else .ok ()

/-- The checks beside that of the context. They read module definitions, tags and audiences. -/
structure Policy where
  verifyControlRecord : Stores → Did → RecordsWriteMessage → Except Failure Unit
  resolveNode : Stores → Did → RecordsWriteMessage →
    Except Failure (ModuleRuleSet × Option ResolvedModuleAddress)
  verifyRuleSet : Stores → Did → RecordsWriteMessage → ModuleRuleSet → Except Failure Unit

/-- Control records live at virtual paths, outside of the structure of their module. -/
def validateReferentialIntegrity (policy : Policy) (s : Stores) (tenant : Did)
    (m : RecordsWriteMessage) : Except Failure ModuleRuleSet :=
  if EncryptionControl.isControlMessage m then
    if !RecordsWrite.isInitialWrite m then
      .error (.dwnError ⟨.encryptionControlValidateUnexpectedRecord,
        "encryption control records are immutable."⟩)
    else do
      policy.verifyControlRecord s tenant m
      return {}
  else do
    let (ruleSet, expectedParent) ← policy.resolveNode s tenant m
    verifyModulePathAndContextId s tenant m expectedParent
    policy.verifyRuleSet s tenant m ruleSet
    return ruleSet

/-- A write with a parent that passes is placed under the write found under the parent's id,
at the expected module and path. -/
theorem verified_nested {s : Stores} {tenant : Did} {m : RecordsWriteMessage}
    {expectedParent : Option ResolvedModuleAddress} {p : String}
    (h : verifyModulePathAndContextId s tenant m expectedParent = .ok ())
    (hp : m.descriptor.parentId = some p) :
    ∃ i, RecordsDeleteHandler.fetchInitialRecordsWrite s tenant p = some i ∧
      expectedParent = some ⟨i.descriptor.module, i.descriptor.modulePath⟩ ∧
      m.contextId = i.contextId ++ "/" ++ m.recordId := by
  unfold verifyModulePathAndContextId at h
  dsimp only at h
  rw [hp] at h
  cases expectedParent with
  | none => cases h
  | some expected =>
    unfold fetchParentRecord at h
    cases hfetch : RecordsDeleteHandler.fetchInitialRecordsWrite s tenant p with
    | none => simp [hfetch] at h
    | some i =>
      simp only [hfetch] at h
      by_cases hmodule : i.descriptor.module ≠ expected.owningModuleUri
      · rw [if_pos hmodule] at h
        cases h
      by_cases hprune : recordHasPruneTombstone s tenant p = true
      · rw [if_neg hmodule, if_pos hprune] at h
        cases h
      rw [if_neg hmodule, if_neg hprune] at h
      dsimp only at h
      by_cases hplace : i.descriptor.module ≠ expected.owningModuleUri ∨
          i.descriptor.modulePath ≠ expected.owningModulePath
      · rw [if_pos hplace] at h
        cases h
      by_cases hcontext : m.contextId ≠ i.contextId ++ "/" ++ m.recordId
      · rw [if_neg hplace, if_pos hcontext] at h
        cases h
      rw [not_or, not_not, not_not] at hplace
      refine ⟨i, rfl, ?_, not_not.mp hcontext⟩
      rw [hplace.1, hplace.2]

end ModuleAuthorization

/-! ## Trees of contexts -/

/-- The writes of a set agree on the context and the parent of each record, roots are their
own context, and every other record extends the context of its parent. -/
structure ContextTree (H : RecordsWriteMessage → Prop) : Prop where
  initial : ∀ w, H w → ∃ i, H i ∧ i.recordId = w.recordId ∧ RecordsWrite.isInitialWrite i = true
  same : ∀ w v, H w → H v → w.recordId = v.recordId →
    w.contextId = v.contextId ∧ w.descriptor.parentId = v.descriptor.parentId
  root : ∀ w, H w → w.descriptor.parentId = none → w.contextId = w.recordId
  parent : ∀ w p, H w → w.descriptor.parentId = some p → ∃ v, H v ∧ v.recordId = p
  nested : ∀ w v, H w → H v → w.descriptor.parentId = some v.recordId →
    w.contextId = v.contextId ++ "/" ++ w.recordId

namespace ContextTree
variable {H : RecordsWriteMessage → Prop} {m : RecordsWriteMessage}

theorem empty (h : ∀ w, ¬ H w) : ContextTree H :=
  ⟨fun w hw => absurd hw (h w), fun w _ hw => absurd hw (h w), fun w hw => absurd hw (h w),
    fun w _ hw => absurd hw (h w), fun w _ hw => absurd hw (h w)⟩

/-- A write joins the tree when it belongs to a record of the tree, or begins one, and
extends the context of its parent in the tree. -/
theorem insert (h : ContextTree H)
    (hinitial : RecordsWrite.isInitialWrite m = true ∨ ∃ i, H i ∧ i.recordId = m.recordId)
    (hparent : ∀ v, H v → v.recordId = m.recordId → v.descriptor.parentId = m.descriptor.parentId)
    (hroot : m.descriptor.parentId = none → m.contextId = m.recordId)
    (hnested : ∀ p, m.descriptor.parentId = some p →
      ∃ v, H v ∧ v.recordId = p ∧ m.contextId = v.contextId ++ "/" ++ m.recordId) :
    ContextTree fun w => H w ∨ w = m := by
  -- the contexts of one record agree because they are computed from the same parent
  have hsame : ∀ v, H v → v.recordId = m.recordId → v.contextId = m.contextId := by
    intro v hv hrecord
    have hvparent := hparent v hv hrecord
    cases hp : m.descriptor.parentId with
    | none => rw [h.root v hv (hvparent.trans hp), hroot hp, hrecord]
    | some p =>
      obtain ⟨u, hu, rfl, hcontext⟩ := hnested p hp
      rw [hcontext, h.nested v u hv hu (hvparent.trans hp), hrecord]
  -- the write extends every write of its parent, also when the parent is its own record
  have hextends : ∀ v, (H v ∨ v = m) → m.descriptor.parentId = some v.recordId →
      m.contextId = v.contextId ++ "/" ++ m.recordId := by
    intro v hv hp
    obtain ⟨u, hu, hrecord, hcontext⟩ := hnested _ hp
    obtain hv | rfl := hv
    · rw [(h.same v u hv hu hrecord.symm).1]
      exact hcontext
    · rw [hsame u hu hrecord] at hcontext
      exact hcontext
  refine ⟨?_, ?_, ?_, ?_, ?_⟩
  · rintro w (hw | rfl)
    · obtain ⟨i, hi, hrecord⟩ := h.initial w hw
      exact ⟨i, Or.inl hi, hrecord⟩
    · obtain hinit | ⟨v, hv, hrecord⟩ := hinitial
      · exact ⟨w, Or.inr rfl, rfl, hinit⟩
      · obtain ⟨i, hi, hrecord', hinit⟩ := h.initial v hv
        exact ⟨i, Or.inl hi, hrecord'.trans hrecord, hinit⟩
  · rintro w v (hw | rfl) (hv | rfl) hrecord
    · exact h.same w v hw hv hrecord
    · exact ⟨hsame w hw hrecord, hparent w hw hrecord⟩
    · exact ⟨(hsame v hv hrecord.symm).symm, (hparent v hv hrecord.symm).symm⟩
    · exact ⟨rfl, rfl⟩
  · rintro w (hw | rfl)
    · exact h.root w hw
    · exact hroot
  · rintro w p (hw | rfl) hp
    · obtain ⟨v, hv, hrecord⟩ := h.parent w p hw hp
      exact ⟨v, Or.inl hv, hrecord⟩
    · obtain ⟨v, hv, hrecord, -⟩ := hnested p hp
      exact ⟨v, Or.inl hv, hrecord⟩
  · rintro w v (hw | rfl) hv hp
    · obtain ⟨u, hu, hrecord⟩ := h.parent w _ hw hp
      have hu' := h.nested w u hw hu (hp.trans (by rw [hrecord]))
      obtain hv | rfl := hv
      · exact h.nested w v hw hv hp
      · rw [hu', hsame u hu hrecord]
    · exact hextends v hv hp

end ContextTree

/-! ## One write -/

/-- The checks that the node leaves out would pass: of the context of an update of a root, of
the write found under the parent's id, and of the context of a control record. -/
structure KeepsContext (s : Stores) (tenant : Did) (m : RecordsWriteMessage) : Prop where
  root : m.descriptor.parentId = none → RecordsWrite.isInitialWrite m = false →
    m.contextId = m.recordId
  parent : ∀ p ∈ m.descriptor.parentId,
    ∀ i ∈ RecordsDeleteHandler.fetchInitialRecordsWrite s tenant p, i.recordId = p
  control : ∀ p ∈ m.descriptor.parentId, EncryptionControl.isControlMessage m = true →
    ∃ i ∈ RecordsDeleteHandler.fetchInitialRecordsWrite s tenant p,
      m.contextId = i.contextId ++ "/" ++ m.recordId

instance (s : Stores) (tenant : Did) (m : RecordsWriteMessage) :
    Decidable (KeepsContext s tenant m) :=
  decidable_of_iff
    ((m.descriptor.parentId = none → RecordsWrite.isInitialWrite m = false →
        m.contextId = m.recordId) ∧
      (∀ p ∈ m.descriptor.parentId,
        ∀ i ∈ RecordsDeleteHandler.fetchInitialRecordsWrite s tenant p, i.recordId = p) ∧
      ∀ p ∈ m.descriptor.parentId, EncryptionControl.isControlMessage m = true →
        ∃ i ∈ RecordsDeleteHandler.fetchInitialRecordsWrite s tenant p,
          m.contextId = i.contextId ++ "/" ++ m.recordId)
    ⟨fun h => ⟨h.1, h.2.1, h.2.2⟩, fun h => ⟨h.root, h.parent, h.control⟩⟩

structure WriteRequest where
  tenant : Did
  message : RecordsWriteMessage
  dataStream : Option P.Data

namespace WriteRequest

def process (deps : HandlerDependencies) (s : Stores) (r : WriteRequest) : Stores :=
  (RecordsWriteHandler.handle deps r.tenant r.message r.dataStream).final s

def processAll (deps : HandlerDependencies) (requests : List WriteRequest) (s : Stores) : Stores :=
  requests.foldl (process deps) s

end WriteRequest

/-- The node whose referential checks are those of the module policy. -/
def HandlerDependencies.under (deps : HandlerDependencies) (policy : ModuleAuthorization.Policy) :
    HandlerDependencies :=
  { deps with validateReferentialIntegrity :=
      ModuleAuthorization.validateReferentialIntegrity policy }

/-- The logs hold known messages only, and their writes are in the given sets. -/
structure Holds (known : GenericMessage → Prop) (H : Did → RecordsWriteMessage → Prop)
    (logs : Did → Log) : Prop where
  wf : ∀ tenant, (logs tenant).WellFormed
  origin : ∀ tenant, ∀ r ∈ (logs tenant).rows, known r.message.message
  writes : ∀ tenant, ∀ r ∈ (logs tenant).rows, ∀ w, r.message.message = .recordsWrite w →
    H tenant w

section Step
variable {known : GenericMessage → Prop} {H : Did → RecordsWriteMessage → Prop} {s : Stores}
  {deps : HandlerDependencies} {policy : ModuleAuthorization.Policy} {tenant : Did}
  {m : RecordsWriteMessage}

/-- A change of one log keeps what holds of all logs when the new log is good. -/
theorem Holds.update {logs : Did → Log} (h : Holds known H logs) {log' : Log}
    (wf : log'.WellFormed) (horigin : ∀ r ∈ log'.rows, known r.message.message)
    (hwrites : ∀ r ∈ log'.rows, ∀ w, r.message.message = .recordsWrite w → H tenant w) :
    Holds known H (Function.update logs tenant log') := by
  refine ⟨fun t => ?_, fun t => ?_, fun t => ?_⟩
  · by_cases ht : t = tenant
    · subst ht
      rwa [Function.update_self]
    · rw [Function.update_of_ne ht]
      exact h.wf t
  · by_cases ht : t = tenant
    · subst ht
      rwa [Function.update_self]
    · rw [Function.update_of_ne ht]
      exact h.origin t
  · by_cases ht : t = tenant
    · subst ht
      rwa [Function.update_self]
    · rw [Function.update_of_ne ht]
      exact h.writes t

theorem stored_of_fetchInitialRecordsWrite {p : String} {i : RecordsWriteMessage}
    (h : RecordsDeleteHandler.fetchInitialRecordsWrite s tenant p = some i) :
    ∃ r ∈ (s.messages tenant).rows, r.message.message = .recordsWrite i := by
  obtain ⟨x, hx, hi⟩ := Option.bind_eq_some_iff.mp h
  obtain ⟨r, hr, rfl⟩ := mem_query.mp (List.mem_of_mem_head? hx)
  exact ⟨r, (List.mem_filter.mp hr).1, asRecordsWrite_eq_some.mp hi⟩

theorem ContextTree.join (htree : ContextTree (H tenant)) (h : Holds known H s.messages)
    (hentry : ∀ w, H tenant w → RecordsWrite.getEntryId w = RecordsWrite.getEntryId m →
      w.descriptor = m.descriptor)
    (hadmitted : RecordsWriteHandler.Admitted (deps.under policy) tenant m s)
    (hkeeps : KeepsContext s tenant m) : ContextTree fun w => H tenant w ∨ w = m := by
  have hheld : ∀ p i, RecordsDeleteHandler.fetchInitialRecordsWrite s tenant p = some i →
      H tenant i := by
    intro p i hi
    obtain ⟨r, hr, hmsg⟩ := stored_of_fetchInitialRecordsWrite hi
    exact h.writes tenant r hr i hmsg
  have hupdate : RecordsWrite.isInitialWrite m = false → ∃ i, H tenant i ∧
      i.recordId = m.recordId ∧ i.descriptor.parentId = m.descriptor.parentId := by
    intro hu
    obtain ⟨i, hget, himmutable⟩ := hadmitted.exists_initialWrite hu
    obtain ⟨x, hx, hmsg⟩ := mem_of_getInitialWrite hget
    obtain ⟨r, hr, rfl⟩ := (mem_query_record (h.wf tenant)).mp hx
    obtain ⟨hr, hb⟩ := mem_recordRows.mp hr
    refine ⟨i, h.writes tenant r hr i hmsg, ?_, parentId_eq_of_immutable himmutable⟩
    simpa [StoredMessage.belongsTo, hmsg] using hb
  have hnested : ∀ p, m.descriptor.parentId = some p → ∃ i,
      RecordsDeleteHandler.fetchInitialRecordsWrite s tenant p = some i ∧
      m.contextId = i.contextId ++ "/" ++ m.recordId := by
    intro p hp
    by_cases hcontrol : EncryptionControl.isControlMessage m = true
    · exact hkeeps.control p hp hcontrol
    obtain ⟨-, ruleSet, -, hvalidated, -⟩ := hadmitted.outcome
    have hvalidated : ModuleAuthorization.validateReferentialIntegrity policy s tenant m =
        .ok ruleSet := hvalidated
    unfold ModuleAuthorization.validateReferentialIntegrity at hvalidated
    rw [if_neg hcontrol] at hvalidated
    obtain ⟨⟨rules, expectedParent⟩, -, hvalidated⟩ := bind_eq_ok hvalidated
    obtain ⟨_, hverified, -⟩ := bind_eq_ok hvalidated
    obtain ⟨i, hi, -, hcontext⟩ := ModuleAuthorization.verified_nested hverified hp
    exact ⟨i, hi, hcontext⟩
  refine htree.insert ?_ ?_ ?_ ?_
  · cases hinit : RecordsWrite.isInitialWrite m with
    | true => exact Or.inl rfl
    | false =>
      obtain ⟨i, hi, hrecord, -⟩ := hupdate hinit
      exact Or.inr ⟨i, hi, hrecord⟩
  · intro v hv hrecord
    cases hinit : RecordsWrite.isInitialWrite m with
    | true =>
      -- two initial writes of a record have one descriptor
      obtain ⟨i, hi, hrecord', hinit'⟩ := htree.initial v hv
      have hid : RecordsWrite.getEntryId i = i.recordId := by
        simpa [RecordsWrite.isInitialWrite] using hinit'
      have hmid : RecordsWrite.getEntryId m = m.recordId := by
        simpa [RecordsWrite.isInitialWrite] using hinit
      rw [(htree.same v i hv hi hrecord'.symm).2,
        hentry i hi (by rw [hid, hmid, hrecord', hrecord])]
    | false =>
      obtain ⟨i, hi, hrecord', hparent⟩ := hupdate hinit
      rw [(htree.same v i hv hi (hrecord.trans hrecord'.symm)).2, hparent]
  · intro hp
    cases hinit : RecordsWrite.isInitialWrite m with
    | false => exact hkeeps.root hp hinit
    | true =>
      obtain ⟨_, -, hparsed⟩ := bind_eq_ok hadmitted.parsed
      obtain ⟨_, hparsed, -⟩ := bind_eq_ok hparsed
      have hid : RecordsWrite.getEntryId m = m.recordId := by
        simpa [RecordsWrite.isInitialWrite] using hinit
      unfold RecordsWrite.validateInitialWriteIntegrity at hparsed
      dsimp only at hparsed
      rw [hinit] at hparsed
      by_contra hne
      split at hparsed
      · next hfalse => cases hfalse
      · split at hparsed
        · cases hparsed
        · rw [if_pos ⟨hp, by rwa [hid]⟩] at hparsed
          cases hparsed
  · intro p hp
    obtain ⟨i, hi, hcontext⟩ := hnested p hp
    exact ⟨i, hheld p i hi, hkeeps.parent p hp i hi, hcontext⟩

/-- Processing a write adds at most the write itself, and that only when it is admitted. -/
theorem Holds.process (h : Holds known H s.messages)
    (hinj : ∀ a b, known a → known b → P.computeCid a = P.computeCid b → a = b)
    (hknown : known (.recordsWrite m)) (dataStream : Option P.Data) :
    Holds known (fun t w => H t w ∨ t = tenant ∧ w = m ∧
        RecordsWriteHandler.Admitted deps tenant m s)
      ((RecordsWriteHandler.handle deps tenant m dataStream).final s).messages := by
  have hstart : Holds known (fun t w => H t w ∨ t = tenant ∧ w = m ∧
      RecordsWriteHandler.Admitted deps tenant m s) s.messages :=
    ⟨h.wf, h.origin, fun t r hr w hw => Or.inl (h.writes t r hr w hw)⟩
  refine RecordsWriteHandler.handle_rule ?_ ?_ ?_ hstart dataStream
  · intro newMessage latest result log' hadmitted hmsg hok
    have hnodup := nodup_query (h.wf tenant) [recordFilter m.recordId]
    have hrows : ∀ r ∈ log'.rows, (∃ r₀ ∈ (s.messages tenant).rows,
        r.message.message = r₀.message.message) ∨ r.message.message = .recordsWrite m := by
      intro r hr
      obtain ⟨r₀, hr₀, hdis⟩ | ⟨-, rfl⟩ := (mem_commitLatestState hnodup hok).mp hr
      · obtain ⟨rfl, -⟩ | ⟨x, hx, -, -, -, rfl⟩ := displaceRow_cases hdis
        · exact Or.inl ⟨r, hr₀, rfl⟩
        · unfold demote
          split
          · obtain ⟨r₁, hr₁, rfl⟩ := (mem_query_record (h.wf tenant)).mp hx
            exact Or.inl ⟨r₁, (mem_recordRows.mp hr₁).1, rfl⟩
          · exact Or.inl ⟨r₀, hr₀, rfl⟩
      · exact Or.inr hmsg
    have hindexed : (newRow (s.messages tenant) newMessage
        (RecordsWrite.constructIndexes m latest)).Indexed := by
      simp [Row.Indexed, newRow, hmsg]
    refine hstart.update (wellFormed_commit (h.wf tenant) hnodup hindexed hok) ?_ ?_
    · intro r hr
      obtain ⟨r₀, hr₀, heq⟩ | heq := hrows r hr
      · rw [heq]
        exact h.origin tenant r₀ hr₀
      · rwa [heq]
    · intro r hr w hw
      obtain ⟨r₀, hr₀, heq⟩ | heq := hrows r hr
      · exact Or.inl (h.writes tenant r₀ hr₀ w (heq ▸ hw))
      · rw [heq] at hw
        cases hw
        exact Or.inr ⟨rfl, rfl, hadmitted⟩
  · intro encodedData result log' hok
    have hsame : ∀ r ∈ (s.messages tenant).rows, r.cid = Message.getCid (RecordsWrite.stored m) →
        r.message.message = .recordsWrite m :=
      fun r hr hc => hinj _ _ (h.origin tenant r hr) hknown hc
    have hrows : ∀ r ∈ log'.rows, ∃ r₀ ∈ (s.messages tenant).rows,
        r.message.message = r₀.message.message := by
      intro r hr
      obtain rfl | ⟨row, w, row', hrow, -, hmsg, -, -, hmsg', -, -, -, -, -, heq⟩ :=
        completeData_eq_ok hok
      · exact ⟨r, hr, rfl⟩
      · rw [heq, List.mem_append, List.mem_filter, List.mem_singleton] at hr
        obtain ⟨hr, -⟩ | rfl := hr
        · exact ⟨r, hr, rfl⟩
        · exact ⟨row, hrow, hmsg'.trans hmsg.symm⟩
    refine hstart.update (wellFormed_completeData hok (h.wf tenant) hsame) ?_ ?_
    · intro r hr
      obtain ⟨r₀, hr₀, heq⟩ := hrows r hr
      rw [heq]
      exact h.origin tenant r₀ hr₀
    · intro r hr w hw
      obtain ⟨r₀, hr₀, heq⟩ := hrows r hr
      exact Or.inl (h.writes tenant r₀ hr₀ w (heq ▸ hw))
  · intro logs cid hlogs
    refine hlogs.update (wellFormed_delete (hlogs.wf tenant) cid) ?_ ?_
    · intro r hr
      exact hlogs.origin tenant r (List.mem_filter.mp hr).1
    · intro r hr w hw
      exact hlogs.writes tenant r (List.mem_filter.mp hr).1 w hw

end Step

/-! ## Runs -/

structure NoRecords (s : Stores) : Prop where
  wf : ∀ tenant, (s.messages tenant).WellFormed
  none : ∀ tenant, ∀ r ∈ (s.messages tenant).rows, ∀ w, r.message.message ≠ .recordsWrite w

namespace WriteRequest

/-- The messages of a run: those stored when it begins and those of its requests. -/
def Involves (requests : List WriteRequest) (s : Stores) (g : GenericMessage) : Prop :=
  (∃ tenant, ∃ r ∈ (s.messages tenant).rows, r.message.message = g) ∨
    ∃ r ∈ requests, .recordsWrite r.message = g

def EverStored (deps : HandlerDependencies) (requests : List WriteRequest) (s : Stores)
    (tenant : Did) (w : RecordsWriteMessage) : Prop :=
  ∃ processed, processed <+: requests ∧
    ∃ r ∈ ((processAll deps processed s).messages tenant).rows, r.message.message = .recordsWrite w

def AllKeepContext (deps : HandlerDependencies) : List WriteRequest → Stores → Prop
  | [], _ => True
  | r :: requests, s =>
    (RecordsWriteHandler.Admitted deps r.tenant r.message s → KeepsContext s r.tenant r.message) ∧
      AllKeepContext deps requests (process deps s r)

section Run
variable {deps : HandlerDependencies} {policy : ModuleAuthorization.Policy}
  {requests : List WriteRequest} {s : Stores}

theorem processAll_concat (r : WriteRequest) :
    processAll deps (requests ++ [r]) s = process deps (processAll deps requests s) r := by
  simp [processAll]

theorem allKeepContext_concat {r : WriteRequest} :
    AllKeepContext deps (requests ++ [r]) s ↔ AllKeepContext deps requests s ∧
      (RecordsWriteHandler.Admitted deps r.tenant r.message (processAll deps requests s) →
        KeepsContext (processAll deps requests s) r.tenant r.message) := by
  induction requests generalizing s with
  | nil => simp [AllKeepContext, processAll]
  | cons x requests ih => simp [AllKeepContext, ih, processAll, and_assoc]

theorem everStored_concat {r : WriteRequest} {tenant : Did} {w : RecordsWriteMessage} :
    EverStored deps (requests ++ [r]) s tenant w ↔ EverStored deps requests s tenant w ∨
      ∃ row ∈ ((processAll deps (requests ++ [r]) s).messages tenant).rows,
        row.message.message = .recordsWrite w := by
  constructor
  · rintro ⟨processed, hprefix, hstored⟩
    obtain rfl | hprefix := List.prefix_concat_iff.mp hprefix
    · exact Or.inr hstored
    · exact Or.inl ⟨processed, hprefix, hstored⟩
  · rintro (⟨processed, hprefix, hstored⟩ | hstored)
    · exact ⟨processed, hprefix.trans (List.prefix_append _ _), hstored⟩
    · exact ⟨requests ++ [r], List.prefix_refl _, hstored⟩

section Known
variable (known : GenericMessage → Prop)
    (hinj : ∀ a b, known a → known b → P.computeCid a = P.computeCid b → a = b)

include hinj

theorem holds_processAll
    (hstart : ∀ tenant, ∀ r ∈ (s.messages tenant).rows, known r.message.message)
    (wf : ∀ tenant, (s.messages tenant).WellFormed)
    (hknown : ∀ r ∈ requests, known (.recordsWrite r.message)) :
    Holds known (EverStored deps requests s) (processAll deps requests s).messages := by
  induction requests using List.reverseRecOn with
  | nil =>
    exact ⟨wf, hstart, fun tenant r hr w hw => ⟨[], List.prefix_refl _, r, hr, hw⟩⟩
  | append_singleton requests r ih =>
    have h := ih fun x hx => hknown x (by simp [hx])
    have hnext : Holds known _ (process deps (processAll deps requests s) r).messages :=
      h.process hinj (hknown r (by simp)) r.dataStream
    rw [← processAll_concat] at hnext
    exact ⟨hnext.wf, hnext.origin,
      fun tenant row hrow w hw => everStored_concat.mpr (Or.inr ⟨row, hrow, hw⟩)⟩

/-- What the last request of a run stores is its own write, and that only when admitted. -/
theorem everStored_last
    (hstart : ∀ tenant, ∀ r ∈ (s.messages tenant).rows, known r.message.message)
    (wf : ∀ tenant, (s.messages tenant).WellFormed) {r : WriteRequest}
    (hknown : ∀ x ∈ requests ++ [r], known (.recordsWrite x.message)) {tenant : Did}
    {w : RecordsWriteMessage} (hw : EverStored deps (requests ++ [r]) s tenant w) :
    EverStored deps requests s tenant w ∨ tenant = r.tenant ∧ w = r.message ∧
      RecordsWriteHandler.Admitted deps r.tenant r.message (processAll deps requests s) := by
  obtain hw | ⟨row, hrow, hw⟩ := everStored_concat.mp hw
  · exact Or.inl hw
  · have h : Holds known (EverStored deps requests s) (processAll deps requests s).messages :=
      holds_processAll known hinj hstart wf fun x hx => hknown x (List.mem_append_left _ hx)
    have hnext : Holds known _ (process deps (processAll deps requests s) r).messages :=
      h.process hinj (hknown r (by simp)) r.dataStream
    rw [processAll_concat] at hrow
    exact hnext.writes tenant row hrow w hw

variable (hstart : NoRecords s)
    (horigin : ∀ tenant, ∀ r ∈ (s.messages tenant).rows, known r.message.message)
include hstart horigin

theorem mem_of_everStored (hknown : ∀ r ∈ requests, known (.recordsWrite r.message)) {tenant : Did}
    {w : RecordsWriteMessage} (hw : EverStored deps requests s tenant w) :
    ∃ r ∈ requests, r.message = w := by
  induction requests using List.reverseRecOn with
  | nil =>
    obtain ⟨processed, hprefix, r, hr, hw⟩ := hw
    rw [List.prefix_nil.mp hprefix] at hr
    exact absurd hw (hstart.none tenant r hr w)
  | append_singleton requests r ih =>
    obtain hw | ⟨-, rfl, -⟩ := everStored_last known hinj horigin hstart.wf hknown hw
    · obtain ⟨x, hx, heq⟩ := ih (fun x hx => hknown x (List.mem_append_left _ hx)) hw
      exact ⟨x, List.mem_append_left _ hx, heq⟩
    · exact ⟨r, by simp, rfl⟩

theorem contextTree_everStored (hknown : ∀ r ∈ requests, known (.recordsWrite r.message))
    (hentry : ∀ r ∈ requests, ∀ r' ∈ requests, RecordsWrite.getEntryId r.message =
      RecordsWrite.getEntryId r'.message → r.message.descriptor = r'.message.descriptor)
    (hkeeps : AllKeepContext (deps.under policy) requests s) (tenant : Did) :
    ContextTree (EverStored (deps.under policy) requests s tenant) := by
  induction requests using List.reverseRecOn with
  | nil =>
    refine ContextTree.empty fun w hw => ?_
    obtain ⟨r, hr, -⟩ := mem_of_everStored known hinj hstart horigin hknown hw
    cases hr
  | append_singleton requests r ih =>
    have hknown' : ∀ x ∈ requests, known (.recordsWrite x.message) :=
      fun x hx => hknown x (List.mem_append_left _ hx)
    obtain ⟨hkeeps, hkeep⟩ := allKeepContext_concat.mp hkeeps
    have htree := ih hknown' (fun x hx x' hx' =>
      hentry x (List.mem_append_left _ hx) x' (List.mem_append_left _ hx')) hkeeps
    have hlast : ∀ w, EverStored (deps.under policy) (requests ++ [r]) s tenant w →
        EverStored (deps.under policy) requests s tenant w ∨ tenant = r.tenant ∧ w = r.message ∧
          RecordsWriteHandler.Admitted (deps.under policy) r.tenant r.message
            (processAll (deps.under policy) requests s) :=
      fun w hw => everStored_last known hinj horigin hstart.wf hknown hw
    have hearlier : ∀ w, EverStored (deps.under policy) requests s tenant w →
        EverStored (deps.under policy) (requests ++ [r]) s tenant w :=
      fun w hw => everStored_concat.mpr (Or.inl hw)
    by_cases hnew : ∃ w, EverStored (deps.under policy) (requests ++ [r]) s tenant w ∧
        ¬ EverStored (deps.under policy) requests s tenant w
    · obtain ⟨w, hw, hfresh⟩ := hnew
      obtain ⟨rfl, rfl, hadmitted⟩ := (hlast w hw).resolve_left hfresh
      have heq : EverStored (deps.under policy) (requests ++ [r]) s r.tenant =
          fun w => EverStored (deps.under policy) requests s r.tenant w ∨ w = r.message := by
        funext v
        refine propext ⟨fun hv => (hlast v hv).imp id fun h => h.2.1, ?_⟩
        rintro (hv | rfl)
        · exact hearlier v hv
        · exact hw
      rw [heq]
      refine htree.join (holds_processAll known hinj horigin hstart.wf hknown') ?_ hadmitted
        (hkeep hadmitted)
      intro v hv hid
      obtain ⟨x, hx, rfl⟩ := mem_of_everStored known hinj hstart horigin hknown' hv
      exact hentry x (List.mem_append_left _ hx) r (by simp) hid
    · have heq : EverStored (deps.under policy) (requests ++ [r]) s tenant =
          EverStored (deps.under policy) requests s tenant := by
        funext v
        refine propext ⟨fun hv => ?_, hearlier v⟩
        by_contra hfresh
        exact hnew ⟨v, hv, hfresh⟩
      rw [heq]
      exact htree

end Known

/-- Along every run from a node without records whose admitted writes keep the context, the
writes of a tenant form a tree of contexts. -/
theorem everStored_tree (hstart : NoRecords s)
    (hcid : ∀ a b, Involves requests s a → Involves requests s b →
      P.computeCid a = P.computeCid b → a = b)
    (hentry : ∀ r ∈ requests, ∀ r' ∈ requests, RecordsWrite.getEntryId r.message =
      RecordsWrite.getEntryId r'.message → r.message.descriptor = r'.message.descriptor)
    (hkeeps : AllKeepContext (deps.under policy) requests s) (tenant : Did) :
    ContextTree (EverStored (deps.under policy) requests s tenant) := by
  refine contextTree_everStored (Involves requests s) hcid hstart ?_ ?_ hentry hkeeps tenant
  · intro t r hr
    exact Or.inl ⟨t, r, hr, rfl⟩
  · intro r hr
    exact Or.inr ⟨r, hr, rfl⟩

end Run

end WriteRequest

end EnboxDwn

namespace EnboxDwn.WriteRequest
local instance : Platform := Platform.ofText

def folders : ModuleAuthorization.Policy where
  verifyControlRecord _ _ _ := .ok ()
  resolveNode _ _ m := .ok ({}, if m.descriptor.modulePath = "folder/page" then
    some ⟨"folders", "folder"⟩ else none)
  verifyRuleSet _ _ _ _ := .ok ()

def folder (signature contextId messageTimestamp : String) : WriteRequest where
  tenant := "alice"
  message :=
    { recordId := "alice1", contextId
      descriptor := { module := "folders", modulePath := "folder", dataCid := "x", dataSize := 1,
                      dataFormat := "text/plain", dateCreated := "1", messageTimestamp }
      authorization := { signature, signer := "alice" } }
  dataStream := some "x"

def page (signature messageTimestamp : String) : WriteRequest where
  tenant := "alice"
  message :=
    { recordId := "alice2", contextId := "alice1/alice2"
      descriptor := { module := "folders", modulePath := "folder/page", parentId := some "alice1",
                      dataCid := "x", dataSize := 1, dataFormat := "text/plain",
                      dateCreated := "2", messageTimestamp }
      authorization := { signature, signer := "alice" } }
  dataStream := some "x"

/-- A folder is updated under a context of the writer's choice: the update is stored beside
the initial write. -/
theorem contexts_of_movedFolder :
    ¬ ∀ w i, (∃ r ∈ ((processAll (HandlerDependencies.permissive.under folders)
          [folder "a" "alice1" "1", folder "b" "elsewhere" "2"] {}).messages "alice").rows,
        r.message.message = .recordsWrite w) →
      (∃ r ∈ ((processAll (HandlerDependencies.permissive.under folders)
          [folder "a" "alice1" "1", folder "b" "elsewhere" "2"] {}).messages "alice").rows,
        r.message.message = .recordsWrite i) →
      w.recordId = i.recordId → RecordsWrite.isInitialWrite i = true →
      w.contextId = i.contextId := by
  intro h
  have hmoved : ∃ r ∈ ((processAll (HandlerDependencies.permissive.under folders)
      [folder "a" "alice1" "1", folder "b" "elsewhere" "2"] {}).messages "alice").rows,
      r.message.message = .recordsWrite (folder "b" "elsewhere" "2").message := by
    decide
  have hinitial : ∃ r ∈ ((processAll (HandlerDependencies.permissive.under folders)
      [folder "a" "alice1" "1", folder "b" "elsewhere" "2"] {}).messages "alice").rows,
      r.message.message = .recordsWrite (folder "a" "alice1" "1").message := by
    decide
  exact absurd (h _ _ hmoved hinitial rfl (by decide)) (by decide)

def editing : List WriteRequest :=
  [folder "a" "alice1" "1", page "b" "2", folder "c" "alice1" "3", page "d" "4"]

theorem everStored_tree_editing :
    ContextTree (EverStored (HandlerDependencies.permissive.under folders) editing {} "alice") ∧
      EverStored (HandlerDependencies.permissive.under folders) editing {} "alice"
        (page "d" "4").message := by
  refine ⟨everStored_tree ⟨fun _ => Log.WellFormed.empty, by simp⟩ ?_ ?_ ?_ "alice", ?_⟩
  · rintro a b (⟨t, r, hr, -⟩ | ⟨r, hr, rfl⟩) hb hc
    · cases hr
    obtain ⟨t, r', hr', -⟩ | ⟨r', hr', rfl⟩ := hb
    · cases hr'
    revert hc
    revert r' r
    decide
  · decide
  · refine ⟨fun _ => ?_, fun _ => ?_, fun _ => ?_, fun _ => ?_, trivial⟩
    all_goals decide
  · exact ⟨editing, List.prefix_refl _, by decide⟩

end EnboxDwn.WriteRequest
