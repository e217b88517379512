import EnboxDwn.LogRead
import EnboxDwn.WellFormed
import EnboxDwn.ModuleGraph
import EnboxDwn.SyncCheckpoint

/-! The scope of a sync link: the filters by which a feed selects its rows, and the classification
by which the receiver decides again, from the message alone, whether a row belongs to it. -/
namespace EnboxDwn
open KeyValues

structure RangeCriterion where
  lower : Option String := none
  upper : Option String := none
  deriving DecidableEq, Repr

namespace FilterUtility

def convertRangeCriterion (inputFilter : RangeCriterion) : Option FilterValue :=
  if inputFilter.lower = none ∧ inputFilter.upper = none then none
  else some (.range none (inputFilter.lower.map .string) (inputFilter.upper.map .string) none)

end FilterUtility

structure MessagesFilter where
  interface : Option String := none
  method : Option String := none
  module : Option String := none
  modulePath : Option String := none
  modulePathPrefix : Option String := none
  contextIdPrefix : Option String := none
  messageTimestamp : Option RangeCriterion := none
  deriving DecidableEq, Repr

namespace Messages

def optionalText (property : String) (v : Option String) : Filter :=
  v.toList.map (Filters.equalText property)

def timestampFilter (messageTimestamp : Option RangeCriterion) : Filter :=
  (messageTimestamp.bind FilterUtility.convertRangeCriterion).toList.map fun range =>
    ("messageTimestamp", range)

/-- A path prefix takes the place of the exact path. -/
def convertFilter (filter : MessagesFilter) : Filter :=
  optionalText "interface" filter.interface ++ optionalText "method" filter.method ++
  optionalText "module" filter.module ++
  (match filter.modulePathPrefix with
    | some subtree => [("modulePath", .subtree subtree)]
    | none => optionalText "modulePath" filter.modulePath) ++
  (filter.contextIdPrefix.toList.map fun subtree => ("contextId", .subtree subtree)) ++
  timestampFilter filter.messageTimestamp

/-- The records of a core module that are tagged for the module of the filter. Both core modules
build the filter in this way, each with its own URI. -/
def constructAdditionalMessageFilter (uri : String) (filter : MessagesFilter) : Option Filter :=
  filter.module.map fun module =>
    [Filters.equalText "module" uri, Filters.equalText ("tag." ++ "module") module] ++
      timestampFilter filter.messageTimestamp

/-- In the order in which the node registers its core modules. -/
def coreModules : List String := [encryptionModuleUri, permissionsModuleUri]

def constructCoreModuleFilters (filter : MessagesFilter) : List Filter :=
  coreModules.filterMap fun uri => constructAdditionalMessageFilter uri filter

def constructModuleConfigureShadowFilter (filter : MessagesFilter) : Option Filter :=
  if filter.modulePath = none ∧ filter.modulePathPrefix = none ∧ filter.contextIdPrefix = none then
    none
  else
    filter.module.map fun module =>
      [Filters.equalText "interface" "Modules", Filters.equalText "method" "Configure",
        Filters.equalText "module" module] ++ timestampFilter filter.messageTimestamp

def convertFilters (filters : List MessagesFilter) (includeShadowFilters : Bool) : List Filter :=
  if includeShadowFilters then
    filters.flatMap fun filter =>
      constructCoreModuleFilters filter ++ [convertFilter filter] ++
        (constructModuleConfigureShadowFilter filter).toList
  else filters.map convertFilter

end Messages

namespace Agent

/-! ## Scopes -/

inductive SyncScope where
  | full
  | moduleSet (modules : List String)
  | context (module contextId : String) (modulePaths : List String)
  deriving DecidableEq, Repr

inductive SyncScopeField where
  | modules | modulePaths
  deriving DecidableEq, Repr

namespace SyncScopeField

def name : SyncScopeField → String
  | modules => "modules"
  | modulePaths => "modulePaths"

def requirement : SyncScopeField → String
  | modules => "module-set scope requires at least one module URI."
  | modulePaths => "context scope requires at least one module path."

end SyncScopeField

def sortTexts (values : List String) : List String :=
  values.insertionSort fun a b => lexicographicalCompare a b ≤ 0

/-- Sorts and deduplicates scope selectors while keeping URI and path diagnostics distinct. -/
def normalizeSyncScopeList (values : List String) (field : SyncScopeField) :
    Except Thrown (List String) :=
  if values.any (· == "") then
    .error (.typeError ("SyncScope: " ++ field.name ++ " must be a non-empty string array."))
  else
    let unique := sortTexts values.dedup
    if unique.length = 0 then .error (.error ("SyncScope: " ++ field.requirement)) else .ok unique

def normalizeSyncModules (modules : List String) : Except Thrown (List String) :=
  normalizeSyncScopeList modules .modules

def canonicalizeSyncScope : SyncScope → Except Thrown SyncScope
  | .full => .ok .full
  | .context module contextId modulePaths => do
    if module = "" ∨ contextId = "" then
      .error (.typeError "SyncScope: context scopes require a module URI and context ID.")
    else return .context module contextId (← normalizeSyncScopeList modulePaths .modulePaths)
  | .moduleSet modules => return .moduleSet (← normalizeSyncModules modules)

def messageFeedFiltersForSyncScope (scope : SyncScope) :
    Except Thrown (Option (List MessagesFilter)) := do
  match ← canonicalizeSyncScope scope with
  | .full => return none
  | .context module contextId modulePaths =>
    return some (modulePaths.map fun modulePath =>
      { interface := some "Records", module := some module, modulePath := some modulePath
        contextIdPrefix := some contextId })
  | .moduleSet modules => return some (modules.map fun module => { module := some module })

/-- Context scopes are read through a role, for which the node adds no shadow filters. -/
def SyncScope.includesShadowFilters : SyncScope → Bool
  | .context .. => false
  | _ => true

/-- The filters of the feed's index for a scope; without filters every row is read. -/
def feedFilters (scope : SyncScope) : Except Thrown (Option (List Filter)) := do
  let filters ← messageFeedFiltersForSyncScope scope
  return filters.map fun filters => Messages.convertFilters filters scope.includesShadowFilters

/-! ## Classification -/

inductive SyncScopeClassification where
  | inScope | outOfScope | unknown
  deriving DecidableEq, Repr

def SyncScopeClassification.ofBool (b : Bool) : SyncScopeClassification :=
  if b then .inScope else .outOfScope

def classifyContextScope (message : GenericMessage) (initialWrite : Option RecordsWriteMessage)
    (module contextId : String) (modulePaths : List String) : SyncScopeClassification :=
  let classifyWrite (recordsWrite : RecordsWriteMessage) : SyncScopeClassification :=
    .ofBool (recordsWrite.descriptor.module == module &&
      modulePaths.contains recordsWrite.descriptor.modulePath &&
      (recordsWrite.contextId == contextId || startsWith recordsWrite.contextId (contextId ++ "/")))
  match message with
  | .recordsDelete _ =>
    match initialWrite with
    | none => .unknown
    | some recordsWrite => classifyWrite recordsWrite
  | .recordsWrite recordsWrite => classifyWrite recordsWrite
  | .modulesConfigure _ => .outOfScope

/-- Nothing is decided about a record that is not tagged, or not of a core module. -/
def classifyTaggedCoreModuleRecord (descriptor : RecordsWriteDescriptor) (modules : List String) :
    Option SyncScopeClassification :=
  if descriptor.module ≠ permissionsModuleUri ∧ descriptor.module ≠ encryptionModuleUri then none
  else
    match descriptor.tags with
    | none => none
    | some tags =>
      match get tags "module" with
      | some (.single (.string taggedModule)) => some (.ofBool (modules.contains taggedModule))
      | _ => some .outOfScope

def classifyModuleField (module : String) (modules : List String) : SyncScopeClassification :=
  .ofBool (modules.contains module)

def classifyModulesConfigureDescriptor (descriptor : ModulesConfigureDescriptor)
    (modules : List String) : SyncScopeClassification :=
  .ofBool (modules.contains descriptor.definitionModule)

def classifyModuleSetScope (message : GenericMessage) (initialWrite : Option RecordsWriteMessage)
    (modules : List String) : SyncScopeClassification :=
  let classifyWrite (descriptor : RecordsWriteDescriptor) : SyncScopeClassification :=
    (classifyTaggedCoreModuleRecord descriptor modules).getD
      (classifyModuleField descriptor.module modules)
  match message with
  | .recordsDelete _ =>
    match initialWrite with
    | none => .unknown
    | some recordsWrite => classifyWrite recordsWrite.descriptor
  | .recordsWrite recordsWrite => classifyWrite recordsWrite.descriptor
  -- a configuration has no module field of its own
  | .modulesConfigure m => classifyModulesConfigureDescriptor m.descriptor modules

def classifySyncMessageScope (message : GenericMessage)
    (initialWrite : Option RecordsWriteMessage) : SyncScope → SyncScopeClassification
  | .full => .inScope
  | .context module contextId modulePaths =>
    classifyContextScope message initialWrite module contextId modulePaths
  | .moduleSet modules => classifyModuleSetScope message initialWrite modules

/-! ## Rows of a feed -/

/-- The write whose descriptor a classification reads: of a delete, the initial write. -/
def scopedWrite (message : GenericMessage) (initialWrite : Option RecordsWriteMessage) :
    Option RecordsWriteMessage :=
  match message with
  | .recordsWrite m => some m
  | .recordsDelete _ => initialWrite
  | .modulesConfigure _ => none

section Rows
variable [P : Platform]

/-- A row with the indexes of its message, and the initial write if it is a delete. Every record
of a core module is immutable, so its newest write has the tags of its initial one. -/
def StoredWith (r : Row) (initialWrite : Option RecordsWriteMessage) : Prop :=
  match r.message.message with
  | .recordsWrite m => ∃ latest, r.indexes = RecordsWrite.constructIndexes m latest
  | .recordsDelete d => ∃ i v, initialWrite = some i ∧ i.recordId = d.descriptor.recordId ∧
    r.indexes = RecordsDelete.constructIndexes d i v ∧
    (Replication.isCoreModuleUri i.descriptor.module = true →
      v.descriptor.tags = i.descriptor.tags)
  | .modulesConfigure m => ∃ latest, r.indexes = ModulesConfigure.constructIndexes m latest

/-- What the indexes of a row say about the write that classifies it. -/
structure IndexedBy (indexes : KeyValues) (w : RecordsWriteMessage) : Prop where
  module : get indexes "module" = some (text w.descriptor.module)
  modulePath : get indexes "modulePath" = some (text w.descriptor.modulePath)
  contextId : get indexes "contextId" = some (text w.contextId)
  tag : Replication.isCoreModuleUri w.descriptor.module = true → ∀ v,
    get indexes ("tag." ++ "module") = some v → get (w.descriptor.tags.getD []) "module" = some v

structure IndexedByDefinition (indexes : KeyValues) (m : ModulesConfigureMessage) : Prop where
  interface : get indexes "interface" = some (text "Modules")
  module : get indexes "module" = some (text m.descriptor.definitionModule)
  untagged : get indexes ("tag." ++ "module") = none

theorem StoredWith.cases {r : Row} {initialWrite : Option RecordsWriteMessage}
    (h : StoredWith r initialWrite) :
    (∃ w, scopedWrite r.message.message initialWrite = some w ∧ IndexedBy r.indexes w ∧
        (r.message.message = .recordsWrite w ∨
          ∃ d, r.message.message = .recordsDelete d ∧ initialWrite = some w)) ∨
      ∃ m, r.message.message = .modulesConfigure m ∧ IndexedByDefinition r.indexes m := by
  unfold StoredWith at h
  cases hm : r.message.message with
  | recordsWrite m =>
    simp only [hm] at h
    obtain ⟨latest, hindexes⟩ := h
    refine Or.inl ⟨m, rfl, ?_, Or.inl rfl⟩
    rw [hindexes]
    refine ⟨RecordsWrite.get_module m latest, RecordsWrite.get_modulePath m latest,
      RecordsWrite.get_contextId m latest, fun _ v hv => ?_⟩
    rw [RecordsWrite.get_tag] at hv
    cases latest with
    | true => exact hv
    | false => cases hv
  | recordsDelete d =>
    simp only [hm] at h
    obtain ⟨i, v, rfl, -, hindexes, htags⟩ := h
    refine Or.inl ⟨i, rfl, ?_, Or.inr ⟨d, rfl, rfl⟩⟩
    rw [hindexes]
    refine ⟨RecordsDelete.get_module d i v, RecordsDelete.get_modulePath d i v,
      RecordsDelete.get_contextId d i v, fun hcore tag htag => ?_⟩
    rwa [RecordsDelete.get_tag, htags hcore] at htag
  | modulesConfigure m =>
    simp only [hm] at h
    obtain ⟨latest, hindexes⟩ := h
    refine Or.inr ⟨m, rfl, ?_⟩
    rw [hindexes]
    constructor
    · simp [ModulesConfigure.constructIndexes]
    · simp [ModulesConfigure.constructIndexes]
    · unfold ModulesConfigure.constructIndexes
      rw [get_append, Records.get_tag_of_plain _ (by simp +decide),
        Records.get_tag_optional (by decide)]
      rfl

end Rows

/-! ## What a feed enumerates -/

theorem mem_normalizeSyncScopeList {values list : List String} {field : SyncScopeField}
    (h : normalizeSyncScopeList values field = .ok list) (x : String) :
    x ∈ list ↔ x ∈ values := by
  unfold normalizeSyncScopeList at h
  split at h
  · cases h
  · dsimp only at h
    split at h
    · cases h
    · cases h
      unfold sortTexts
      rw [List.mem_insertionSort, List.mem_dedup]

theorem normalizeSyncScopeList_ne_nil {values list : List String} {field : SyncScopeField}
    (h : normalizeSyncScopeList values field = .ok list) : list ≠ [] := by
  unfold normalizeSyncScopeList at h
  split at h
  · cases h
  · dsimp only at h
    split at h
    · cases h
    · next hlength =>
      cases h
      intro hnil
      exact hlength (List.length_eq_zero_iff.mpr hnil)

section Selection
variable {indexes : KeyValues}

theorem exists_of_matchAnyFilter {filters : List Filter} (hne : filters ≠ [])
    (h : FilterUtility.matchAnyFilter indexes filters = true) :
    ∃ filter ∈ filters, FilterUtility.matchFilter indexes filter = true := by
  unfold FilterUtility.matchAnyFilter at h
  rw [Bool.or_eq_true, List.isEmpty_iff] at h
  exact List.any_eq_true.mp (h.resolve_left hne)

theorem matchProperty_equal_get {property s : String}
    (h : FilterUtility.matchProperty (.equal (.string s)) (get indexes property) = true) {t : String}
    (ht : get indexes property = some (text t)) : t = s := by
  rw [ht, FilterUtility.matchProperty_equal_text] at h
  exact eq_of_beq h

/-- A row of a module-set feed has a module of the set, or is a core record tagged for one. -/
theorem selected_moduleSet {modules : List String} {filters : Option (List Filter)}
    (hfilters : feedFilters (.moduleSet modules) = .ok filters)
    (hselected : ∀ list ∈ filters, FilterUtility.matchAnyFilter indexes list = true) :
    ∃ module ∈ modules,
      FilterUtility.matchProperty (.equal (.string module)) (get indexes "module") = true ∨
      ∃ uri, Replication.isCoreModuleUri uri = true ∧
        FilterUtility.matchProperty (.equal (.string uri)) (get indexes "module") = true ∧
        FilterUtility.matchProperty (.equal (.string module))
          (get indexes ("tag." ++ "module")) = true := by
  obtain ⟨messages, hmessages, hfilters⟩ := bind_eq_ok hfilters
  obtain ⟨scope, hscope, hmessages⟩ := bind_eq_ok hmessages
  obtain ⟨list, hlist, hscope⟩ := bind_eq_ok hscope
  cases hscope
  cases hmessages
  cases hfilters
  have hmatch := hselected _ rfl
  obtain ⟨filter, hfilter, hmatch⟩ := exists_of_matchAnyFilter (by
    obtain ⟨x, xs, rfl⟩ := List.exists_cons_of_ne_nil (normalizeSyncScopeList_ne_nil hlist)
    simp [Messages.convertFilters, SyncScope.includesShadowFilters]) hmatch
  simp only [Messages.convertFilters, SyncScope.includesShadowFilters, if_true, List.mem_flatMap,
    List.mem_map] at hfilter
  obtain ⟨_, ⟨module, hmodule, rfl⟩, hfilter⟩ := hfilter
  refine ⟨module, (mem_normalizeSyncScopeList hlist module).mp hmodule, ?_⟩
  have hcases : filter = [Filters.equalText "module" module] ∨
      ∃ uri ∈ Messages.coreModules, filter =
        [Filters.equalText "module" uri, Filters.equalText ("tag." ++ "module") module] := by
    simpa [Messages.constructCoreModuleFilters, Messages.constructAdditionalMessageFilter,
      Messages.constructModuleConfigureShadowFilter, Messages.convertFilter, Messages.optionalText,
      Messages.timestampFilter, eq_comm, or_comm] using hfilter
  obtain rfl | ⟨uri, huri, rfl⟩ := hcases
  · left
    simpa [Filters.equalText] using hmatch
  · right
    refine ⟨uri, ?_, by simpa [Filters.equalText, and_comm] using hmatch⟩
    simpa [Messages.coreModules, Replication.isCoreModuleUri, or_comm] using huri

/-- A row of a context feed has the module of the context, one of its paths, and lies under it. -/
theorem selected_context {module contextId : String} {modulePaths : List String}
    {filters : Option (List Filter)}
    (hfilters : feedFilters (.context module contextId modulePaths) = .ok filters)
    (hselected : ∀ list ∈ filters, FilterUtility.matchAnyFilter indexes list = true) :
    ∃ modulePath ∈ modulePaths,
      FilterUtility.matchProperty (.equal (.string "Records")) (get indexes "interface") = true ∧
      FilterUtility.matchProperty (.equal (.string module)) (get indexes "module") = true ∧
      FilterUtility.matchProperty (.equal (.string modulePath)) (get indexes "modulePath") = true ∧
      FilterUtility.matchProperty (.subtree contextId) (get indexes "contextId") = true := by
  obtain ⟨messages, hmessages, hfilters⟩ := bind_eq_ok hfilters
  obtain ⟨scope, hscope, hmessages⟩ := bind_eq_ok hmessages
  unfold canonicalizeSyncScope at hscope
  dsimp only at hscope
  split at hscope
  · cases hscope
  · obtain ⟨list, hlist, hscope⟩ := bind_eq_ok hscope
    cases hscope
    cases hmessages
    cases hfilters
    have hmatch := hselected _ rfl
    obtain ⟨filter, hfilter, hmatch⟩ := exists_of_matchAnyFilter (by
      simpa [Messages.convertFilters, SyncScope.includesShadowFilters] using
        normalizeSyncScopeList_ne_nil hlist) hmatch
    simp only [Messages.convertFilters, SyncScope.includesShadowFilters, Bool.false_eq_true,
      if_false, List.mem_map] at hfilter
    obtain ⟨_, ⟨modulePath, hmodulePath, rfl⟩, rfl⟩ := hfilter
    refine ⟨modulePath, (mem_normalizeSyncScopeList hlist modulePath).mp hmodulePath, ?_⟩
    simpa [Messages.convertFilter, Messages.optionalText, Messages.timestampFilter,
      Filters.equalText] using hmatch

end Selection

/-! ## Agreement -/

/-- A tagged record of a core module whose tag names no module of the scope. -/
def SyncScope.TaggedElsewhere (scope : SyncScope) (w : RecordsWriteMessage) : Prop :=
  ∃ modules, scope = .moduleSet modules ∧
    Replication.isCoreModuleUri w.descriptor.module = true ∧
    ∃ tags, w.descriptor.tags = some tags ∧
      ∀ module ∈ modules, get tags "module" ≠ some (text module)

theorem SyncScopeClassification.ofBool_eq_inScope {b : Bool} :
    SyncScopeClassification.ofBool b = .inScope ↔ b = true := by
  cases b <;> decide

theorem isCoreModuleUri_iff {module : String} : Replication.isCoreModuleUri module = true ↔
    ¬ (module ≠ permissionsModuleUri ∧ module ≠ encryptionModuleUri) := by
  rw [Replication.isCoreModuleUri, Bool.or_eq_true, beq_iff_eq, beq_iff_eq, not_and_or, not_not,
    not_not]

/-- A core record with tags is classified by its tag, whatever else the scope names. -/
theorem classifyTagged_of_core {descriptor : RecordsWriteDescriptor} (modules : List String)
    {tags : KeyValues} (hcore : Replication.isCoreModuleUri descriptor.module = true)
    (htags : descriptor.tags = some tags) :
    ∃ classification, classifyTaggedCoreModuleRecord descriptor modules = some classification ∧
      (classification = .inScope ↔ ∃ module ∈ modules, get tags "module" = some (text module)) := by
  unfold classifyTaggedCoreModuleRecord
  rw [if_neg (isCoreModuleUri_iff.mp hcore), htags]
  dsimp only
  split
  · next taggedModule htag =>
    refine ⟨_, rfl, ?_⟩
    rw [SyncScopeClassification.ofBool_eq_inScope, List.contains_iff_mem, htag]
    constructor
    · intro hmem
      exact ⟨taggedModule, hmem, rfl⟩
    · rintro ⟨module, hmem, heq⟩
      rw [text, Option.some.injEq, IndexValue.single.injEq, Value.string.injEq] at heq
      exact heq ▸ hmem
  · next hother =>
    refine ⟨_, rfl, iff_of_false (by decide) ?_⟩
    rintro ⟨module, -, hmodule⟩
    exact hother module hmodule

theorem classifyTagged_of_not_core {descriptor : RecordsWriteDescriptor} {modules : List String}
    (h : Replication.isCoreModuleUri descriptor.module = true → descriptor.tags = none) :
    classifyTaggedCoreModuleRecord descriptor modules = none := by
  unfold classifyTaggedCoreModuleRecord
  split
  · rfl
  · next hcore => rw [h (isCoreModuleUri_iff.mpr hcore)]

section Agreement
variable [P : Platform] {r : Row} {initialWrite : Option RecordsWriteMessage}

theorem classifyContextScope_eq {w : RecordsWriteMessage} {module contextId : String}
    {modulePaths : List String} (hr : r.message.message = .recordsWrite w ∨
      ∃ d, r.message.message = .recordsDelete d ∧ initialWrite = some w) :
    classifyContextScope r.message.message initialWrite module contextId modulePaths =
      .ofBool (w.descriptor.module == module && modulePaths.contains w.descriptor.modulePath &&
        (w.contextId == contextId || startsWith w.contextId (contextId ++ "/"))) := by
  obtain hr | ⟨d, hr, rfl⟩ := hr
  · rw [hr]
    rfl
  · rw [hr]
    rfl

theorem classifyModuleSetScope_eq {w : RecordsWriteMessage} {modules : List String}
    (hr : r.message.message = .recordsWrite w ∨
      ∃ d, r.message.message = .recordsDelete d ∧ initialWrite = some w) :
    classifyModuleSetScope r.message.message initialWrite modules =
      (classifyTaggedCoreModuleRecord w.descriptor modules).getD
        (classifyModuleField w.descriptor.module modules) := by
  obtain hr | ⟨d, hr, rfl⟩ := hr
  · rw [hr]
    rfl
  · rw [hr]
    rfl

theorem classify_context_of_selected {module contextId : String} {modulePaths : List String}
    {filters : Option (List Filter)} (hr : StoredWith r initialWrite)
    (hfilters : feedFilters (.context module contextId modulePaths) = .ok filters)
    (hselected : ∀ list ∈ filters, FilterUtility.matchAnyFilter r.indexes list = true) :
    classifyContextScope r.message.message initialWrite module contextId modulePaths =
      .inScope := by
  obtain ⟨modulePath, hmem, hinterface, hmodule, hpath, hcontext⟩ :=
    selected_context hfilters hselected
  obtain ⟨w, -, hindexed, hw⟩ | ⟨m, hm, hindexed⟩ := hr.cases
  · rw [classifyContextScope_eq hw, SyncScopeClassification.ofBool_eq_inScope]
    rw [hindexed.contextId] at hcontext
    rw [matchProperty_equal_get hmodule hindexed.module,
      matchProperty_equal_get hpath hindexed.modulePath]
    simp only [beq_self_eq_true, Bool.true_and, List.contains_iff_mem.mpr hmem]
    exact hcontext
  · rw [hindexed.interface] at hinterface
    exact absurd hinterface (by decide)

theorem classify_moduleSet_of_selected {modules : List String} {filters : Option (List Filter)}
    (hr : StoredWith r initialWrite) (hfilters : feedFilters (.moduleSet modules) = .ok filters)
    (hselected : ∀ list ∈ filters, FilterUtility.matchAnyFilter r.indexes list = true) :
    classifyModuleSetScope r.message.message initialWrite modules = .inScope ↔
      ∀ w, scopedWrite r.message.message initialWrite = some w →
        ¬ SyncScope.TaggedElsewhere (.moduleSet modules) w := by
  obtain ⟨module, hmem, hmatch⟩ := selected_moduleSet hfilters hselected
  obtain ⟨w, hscoped, hindexed, hw⟩ | ⟨m, hm, hindexed⟩ := hr.cases
  · rw [classifyModuleSetScope_eq hw, hscoped]
    by_cases hcore : Replication.isCoreModuleUri w.descriptor.module = true →
        w.descriptor.tags = none
    · -- not a tagged core record: the module itself must be one of the set
      rw [classifyTagged_of_not_core hcore]
      have hmodule : w.descriptor.module = module := by
        obtain hmodule | ⟨uri, huri, hmodule, htag⟩ := hmatch
        · exact matchProperty_equal_get hmodule hindexed.module
        · have heq := matchProperty_equal_get hmodule hindexed.module
          have huri : Replication.isCoreModuleUri w.descriptor.module = true := heq ▸ huri
          cases hget : get r.indexes ("tag." ++ "module") with
          | none =>
            rw [hget] at htag
            cases htag
          | some v =>
            have htags := hindexed.tag huri v hget
            rw [hcore huri] at htags
            cases htags
      refine iff_of_true ?_ ?_
      · rw [Option.getD_none, classifyModuleField, SyncScopeClassification.ofBool_eq_inScope,
          List.contains_iff_mem, hmodule]
        exact hmem
      · rintro w' hw' ⟨modules', -, hcore', tags, htags, -⟩
        cases hw'
        rw [hcore hcore'] at htags
        cases htags
    · obtain ⟨hcore, htags⟩ := Classical.not_imp.mp hcore
      obtain ⟨tags, htags⟩ := Option.ne_none_iff_exists'.mp htags
      obtain ⟨classification, hclass, hiff⟩ := classifyTagged_of_core modules hcore htags
      rw [hclass, Option.getD_some, hiff]
      constructor
      · rintro ⟨tagged, htagged, hget⟩ w' hw' ⟨modules', hmodules, -, tags', htags', hnone⟩
        cases hw'
        cases hmodules
        rw [htags, Option.some.injEq] at htags'
        exact hnone tagged htagged (htags' ▸ hget)
      · intro hnot
        by_contra hnone
        refine hnot w rfl ⟨modules, rfl, hcore, tags, htags, fun tagged htagged hget => ?_⟩
        exact hnone ⟨tagged, htagged, hget⟩
  · refine iff_of_true ?_ (by simp [scopedWrite, hm])
    have hmodule : m.descriptor.definitionModule = module := by
      obtain hmodule | ⟨uri, -, -, htag⟩ := hmatch
      · exact matchProperty_equal_get hmodule hindexed.module
      · rw [hindexed.untagged] at htag
        cases htag
    rw [hm]
    change classifyModulesConfigureDescriptor m.descriptor modules = .inScope
    rw [classifyModulesConfigureDescriptor, SyncScopeClassification.ofBool_eq_inScope,
      List.contains_iff_mem, hmodule]
    exact hmem

/-- A row that the feed enumerates for a scope is classified in scope exactly when it is not a
record of a core module that is tagged for a module outside the scope. -/
theorem classify_selected (scope : SyncScope) (filters : Option (List Filter))
    (hfilters : feedFilters scope = .ok filters) (hr : StoredWith r initialWrite)
    (hselected : MessageStore.selects filters r = true) :
    classifySyncMessageScope r.message.message initialWrite scope = .inScope ↔
      ∀ w, scopedWrite r.message.message initialWrite = some w → ¬ scope.TaggedElsewhere w := by
  have hmatch : ∀ list ∈ filters, FilterUtility.matchAnyFilter r.indexes list = true := by
    rintro list hlist
    cases hlist
    exact hselected
  cases scope with
  | full => exact iff_of_true rfl (by rintro w - ⟨modules, hmodules, -⟩; cases hmodules)
  | context module contextId modulePaths =>
    refine iff_of_true (classify_context_of_selected hr hfilters hmatch) ?_
    rintro w - ⟨modules, hmodules, -⟩
    cases hmodules
  | moduleSet modules => exact classify_moduleSet_of_selected hr hfilters hmatch

end Agreement

/-! ## A grant -/

section Grant

local instance : Platform := Platform.ofText

def notesModule : String := "https://example.com/notes"

/-- A permission grant for the notes module, tagged as every grant for a module is. -/
def grantForNotes : RecordsWriteMessage where
  recordId := "alice1"
  contextId := "alice1"
  descriptor :=
    { module := permissionsModuleUri, modulePath := "grant", recipient := some "bob"
      tags := some [("module", text notesModule)], dataCid := "grant", dataSize := 5
      dataFormat := "application/json", dateCreated := "1", messageTimestamp := "1" }
  authorization := { signature := "grant", signer := "alice" }

def grantRow : Row where
  seq := 1
  message := { message := .recordsWrite grantForNotes, encodedData := some "grant" }
  indexes := RecordsWrite.constructIndexes grantForNotes true
  fingerprintScopes := []

def filtersOf (uri : String) : List Filter :=
  [[Filters.equalText "module" encryptionModuleUri, Filters.equalText ("tag." ++ "module") uri],
    [Filters.equalText "module" permissionsModuleUri, Filters.equalText ("tag." ++ "module") uri],
    [Filters.equalText "module" uri]]

/-- The feed of the notes module brings the grant along, and it is accepted there. -/
theorem classify_selected_grant :
    feedFilters (.moduleSet [notesModule]) = .ok (some (filtersOf notesModule)) ∧
    StoredWith grantRow none ∧
    MessageStore.selects (some (filtersOf notesModule)) grantRow = true ∧
    classifySyncMessageScope (.recordsWrite grantForNotes) none (.moduleSet [notesModule]) =
      .inScope := by
  have hfilters : feedFilters (.moduleSet [notesModule]) = .ok (some (filtersOf notesModule)) := by
    decide
  have hr : StoredWith grantRow none := ⟨true, rfl⟩
  have hselected : MessageStore.selects (some (filtersOf notesModule)) grantRow = true := by
    decide
  refine ⟨hfilters, hr, hselected, (classify_selected (.moduleSet [notesModule]) _ hfilters hr
    hselected).mpr ?_⟩
  rintro w hw ⟨modules, hmodules, -, tags, htags, hnone⟩
  cases hw
  cases hmodules
  cases htags
  exact hnone notesModule (by simp) rfl

/-- The feed of the permissions module enumerates the same grant, which is then refused: the tag
is held against a scope that names the record's own module. -/
theorem grant_enumerated_and_refused :
    feedFilters (.moduleSet [permissionsModuleUri]) =
      .ok (some (filtersOf permissionsModuleUri)) ∧
    StoredWith grantRow none ∧
    MessageStore.selects (some (filtersOf permissionsModuleUri)) grantRow = true ∧
    classifySyncMessageScope (.recordsWrite grantForNotes) none
      (.moduleSet [permissionsModuleUri]) = .outOfScope := by
  refine ⟨by decide, ⟨true, rfl⟩, by decide, by decide⟩

end Grant

end Agent

end EnboxDwn
