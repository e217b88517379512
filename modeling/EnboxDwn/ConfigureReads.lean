import EnboxDwn.ConfigureRetry

/-! What the checks of a configuration read of the log. Other modules' configurations and the
writes of records do not depend on the configurations of the module itself; of these, only the
active one is seen. -/
namespace EnboxDwn.ConfigureReads
open MessageStore ModulesConfigureHandler ConfigureLog DepthFirst

variable [P : Platform]

/-! ## Queries -/

def rowKey (r : Row) : StoredMessage × KeyValues := (r.message, r.indexes)

def sortKeyOf (k : StoredMessage × KeyValues) : Timestamp ×ₗ Cid :=
  Row.sortKey ⟨0, k.1, k.2, []⟩

theorem query_congr {log log' : Log} {filters : List Filter}
    (h : (matching log filters).map rowKey = (matching log' filters).map rowKey) :
    query log filters = query log' filters := by
  have hquery : ∀ rows : List Row,
      (rows.insertionSort fun a b => a.sortKey ≤ b.sortKey).map Row.message =
        ((rows.map rowKey).insertionSort fun a b => sortKeyOf a ≤ sortKeyOf b).map Prod.fst := by
    intro rows
    rw [← List.map_insertionSort (fun a b : Row => a.sortKey ≤ b.sortKey)
      (fun a b => sortKeyOf a ≤ sortKeyOf b) rowKey rows (fun a _ b _ => Iff.rfl), List.map_map]
    rfl
  rw [query, query, hquery, hquery, h]

/-- A log with configurations of one module behind the rows of another log. -/
structure Beside (module : String) (base log : Log) (own : List Row) : Prop where
  rows : log.rows = base.rows ++ own
  own : ∀ r ∈ own, r.Indexed ∧ r.message.configures module = true

section Beside
variable {module : String} {base log log' : Log} {own own' : List Row}

theorem matching_beside (h : Beside module base log own) (filters : List Filter) :
    matching log filters = matching base filters ++
      own.filter fun r => FilterUtility.matchAnyFilter r.indexes filters := by
  rw [matching, h.rows, List.filter_append]
  rfl

theorem query_beside_of_unmatched (h : Beside module base log own) {filters : List Filter}
    (hnone : ∀ r ∈ own, FilterUtility.matchAnyFilter r.indexes filters = false) :
    query log filters = query base filters := by
  refine query_congr ?_
  rw [matching_beside h, List.filter_eq_nil_iff.mpr fun r hr => by simp [hnone r hr],
    List.append_nil]

theorem indexes_of_configure {r : Row} (hindexed : r.Indexed) {c : ModulesConfigureMessage}
    (hc : r.message.message = .modulesConfigure c) :
    r.indexes = ModulesConfigure.constructIndexes c r.isLatest := by
  simp only [Row.Indexed, hc] at hindexed
  obtain ⟨latest, h⟩ := hindexed
  have : r.isLatest = latest := by
    rw [Row.isLatest, h]
    exact ModulesConfigure.isLatest_constructIndexes c latest
  rw [this, h]

omit P in
theorem match_append (kv : KeyValues) (f g : Filter) :
    FilterUtility.matchFilter kv (f ++ g) =
      (FilterUtility.matchFilter kv f && FilterUtility.matchFilter kv g) :=
  List.all_append

theorem query_configure_other (h : Beside module base log own) {uri : String} (hne : uri ≠ module)
    (extra : Filter) :
    query log [configureFilter uri ++ extra] = query base [configureFilter uri ++ extra] := by
  refine query_beside_of_unmatched h fun r hr => ?_
  obtain ⟨hindexed, hconf⟩ := h.own r hr
  rw [FilterUtility.matchAnyFilter_singleton, match_append, hindexed.match_configureFilter]
  obtain ⟨c, hc, hmodule⟩ := StoredMessage.configures_eq_true.mp hconf
  simp [StoredMessage.configures, hc, hmodule, hne.symm]

theorem query_recordsWrites_beside (h : Beside module base log own) (uri : String) :
    query log [recordsWriteFilter uri] = query base [recordsWriteFilter uri] := by
  refine query_beside_of_unmatched h fun r hr => ?_
  obtain ⟨hindexed, hconf⟩ := h.own r hr
  obtain ⟨c, hc, -⟩ := StoredMessage.configures_eq_true.mp hconf
  exact ConfigureRetry.recordsWriteFilter_of_configure hindexed hc uri

theorem fetchModuleDefinition_other {deps : ModulesConfigureDependencies}
    (h : Beside module base log own) {uri : String} (hne : uri ≠ module) (t : Option Timestamp) :
    fetchModuleDefinition deps log uri t = fetchModuleDefinition deps base uri t := by
  have hquery : queryModuleConfigure log uri t = queryModuleConfigure base uri t := by
    have hplain := query_configure_other h hne []
    rw [List.append_nil] at hplain
    unfold queryModuleConfigure
    cases t with
    | none => simp only [query_configure_other h hne]
    | some t => simp only [query_configure_other h hne, hplain]
  rw [fetchModuleDefinition, fetchModuleDefinition, hquery]

/-! ## The active configuration -/

omit P in
theorem matchProperty_flag (b : Bool) :
    FilterUtility.matchProperty (.equal (.boolean true)) (some (KeyValues.flag b)) = b := by
  cases b <;> rfl

theorem match_latest {r : Row} (hindexed : r.Indexed) {c : ModulesConfigureMessage}
    (hc : r.message.message = .modulesConfigure c) :
    FilterUtility.matchFilter r.indexes latestFilter = r.isLatest := by
  rw [indexes_of_configure hindexed hc]
  simp [latestFilter, Filters.equalText, Filters.equalFlag, ModulesConfigure.constructIndexes,
    matchProperty_flag]

theorem match_active {r : Row} (hindexed : r.Indexed) (hconf : r.message.configures module = true) :
    FilterUtility.matchFilter r.indexes
      (configureFilter module ++ [Filters.equalFlag "isLatestBaseState" true]) = r.isLatest := by
  obtain ⟨c, hc, -⟩ := StoredMessage.configures_eq_true.mp hconf
  rw [match_append, hindexed.match_configureFilter, hconf, Bool.true_and,
    indexes_of_configure hindexed hc]
  simp [Filters.equalFlag, ModulesConfigure.constructIndexes, matchProperty_flag]

/-- Two logs over the same rows with the same configurations of the module active. -/
structure SameActive (module : String) (base log log' : Log) (own own' : List Row) : Prop where
  left : Beside module base log own
  right : Beside module base log' own'
  active : (own.filter Row.isLatest).map rowKey = (own'.filter Row.isLatest).map rowKey

theorem SameActive.query (h : SameActive module base log log' own own') {filter : Filter}
    (hmatch : ∀ r : Row, r.Indexed → r.message.configures module = true →
      FilterUtility.matchFilter r.indexes filter = r.isLatest) :
    MessageStore.query log [filter] = MessageStore.query log' [filter] := by
  have hfilter : ∀ rows : List Row, (∀ r ∈ rows, r.Indexed ∧ r.message.configures module = true) →
      (rows.filter fun r => FilterUtility.matchAnyFilter r.indexes [filter]) =
        rows.filter Row.isLatest := by
    intro rows hrows
    refine List.filter_congr fun r hr => ?_
    rw [FilterUtility.matchAnyFilter_singleton, hmatch r (hrows r hr).1 (hrows r hr).2]
  refine query_congr ?_
  rw [matching_beside h.left, matching_beside h.right, hfilter own h.left.own,
    hfilter own' h.right.own, List.map_append, List.map_append, h.active]

theorem SameActive.fetchModuleDefinition {deps : ModulesConfigureDependencies}
    (h : SameActive module base log log' own own') (uri : String) :
    ModulesConfigureHandler.fetchModuleDefinition deps log uri none =
      ModulesConfigureHandler.fetchModuleDefinition deps log' uri none := by
  by_cases hne : uri = module
  · have hquery : queryModuleConfigure log uri none = queryModuleConfigure log' uri none := by
      unfold queryModuleConfigure
      rw [hne]
      simp only [h.query fun r hindexed hconf => match_active hindexed hconf]
    rw [ModulesConfigureHandler.fetchModuleDefinition, hquery]
    rfl
  · rw [fetchModuleDefinition_other h.left hne, fetchModuleDefinition_other h.right hne]

/-! ## The checks -/

/-- The root of a closure is never fetched. -/
theorem resolveClosure_congr {deps : ModulesConfigureDependencies} {definition : ModuleDefinition}
    {fetch fetch' : String → Except Failure ModuleDefinition}
    (h : ∀ uri, uri ≠ definition.module → fetch uri = fetch' uri) :
    resolveClosure deps definition fetch = resolveClosure deps definition fetch' := by
  have hgraph : preloadGraphThrowing fetch' =
      { preloadGraphThrowing fetch with fetch := (preloadGraphThrowing fetch').fetch } := rfl
  have hpreload : preloadOrThrow deps.callDepth definition fetch =
      preloadOrThrow deps.callDepth definition fetch' := by
    unfold preloadOrThrow
    rw [hgraph]
    refine congrArg _ (visit_congr (k := definition.module) (fun u e hne => ?_) (Or.inr rfl))
    have heq := h e hne
    simp only [preloadGraphThrowing, preloadGraph, heq]
  rw [resolveClosure, hpreload]
  rfl

theorem validateCompositionDependencies_beside {deps : ModulesConfigureDependencies} {tenant : Did}
    (h : Beside module base log own) {definition : ModuleDefinition}
    (hmodule : definition.module = module) (t : Option Timestamp) :
    validateCompositionDependencies deps tenant log definition t =
      validateCompositionDependencies deps tenant base definition t := by
  have hclosure : resolveClosure deps definition (fetchComposed deps tenant log t) =
      resolveClosure deps definition (fetchComposed deps tenant base t) :=
    resolveClosure_congr fun uri hne => by
      rw [fetchComposed, fetchComposed, fetchModuleDefinition_other h (hmodule ▸ hne)]
  rw [validateCompositionDependencies, hclosure]
  rfl

section Upgrade
variable {deps : ModulesConfigureDependencies}

theorem snapshotGraph_congr (h : SameActive module base log log' own own') :
    snapshotGraph deps log = snapshotGraph deps log' := by
  funext definition snapshot
  have hfetch : fetchInstalled deps log snapshot = fetchInstalled deps log' snapshot := by
    funext uri
    rw [fetchInstalled, fetchInstalled, h.fetchModuleDefinition]
  rw [snapshotGraph, hfetch]
  rfl

theorem validateDependent_congr (h : SameActive module base log log' own own') (incoming : String)
    (affected : List String) (depth : Nat) :
    validateDependent deps log incoming affected depth =
      validateDependent deps log' incoming affected depth := by
  have hcompare : compareDependent deps log = compareDependent deps log' := by
    funext uri definition w
    rw [compareDependent, compareDependent, snapshotGraph_congr h]
  induction depth with
  | zero => rfl
  | succ depth ih =>
    funext uri w
    rw [validateDependent, validateDependent, ih, hcompare]

/-- The comparison of an update sees of the module only its active configuration. -/
theorem validateCompositionUpgradeCompatibility_congr (h : SameActive module base log log' own own')
    (previous incoming : ModuleDefinition) :
    validateCompositionUpgradeCompatibility deps log previous incoming =
      validateCompositionUpgradeCompatibility deps log' previous incoming := by
  have hactive : activeDefinitions deps log = activeDefinitions deps log' := by
    rw [activeDefinitions, activeDefinitions, h.query fun r hindexed hconf => by
      obtain ⟨c, hc, -⟩ := StoredMessage.configures_eq_true.mp hconf
      exact match_latest hindexed hc]
  have hpaths : storedPaths log = storedPaths log' := by
    funext uri
    rw [storedPaths, storedPaths, query_recordsWrites_beside h.left,
      query_recordsWrites_beside h.right]
  rw [validateCompositionUpgradeCompatibility, validateCompositionUpgradeCompatibility, hactive,
    hpaths, snapshotGraph_congr h]
  simp only [validateDependent_congr h]

end Upgrade

end Beside

end EnboxDwn.ConfigureReads
