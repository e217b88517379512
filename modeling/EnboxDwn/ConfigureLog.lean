import EnboxDwn.ModulesConfigureHandler
import EnboxDwn.WellFormed

/-! The configurations of one module in a well-formed log: which rows a query finds, what the
put of a configuration and the demotion of one do to them, and when exactly one is active. -/
namespace EnboxDwn
open KeyValues MessageStore

variable [P : Platform]

def StoredMessage.configures (module : String) (m : StoredMessage) : Bool :=
  match m.message with
  | .modulesConfigure c => c.descriptor.definitionModule == module
  | _ => false

theorem StoredMessage.configures_eq_true {module : String} {m : StoredMessage} :
    m.configures module = true ↔
      ∃ c, m.message = .modulesConfigure c ∧ c.descriptor.definitionModule = module := by
  unfold configures
  cases m.message <;> simp

theorem StoredMessage.asModulesConfigure_eq_some {m : StoredMessage} {c : ModulesConfigureMessage} :
    m.asModulesConfigure = some c ↔ m.message = .modulesConfigure c := by
  unfold asModulesConfigure
  cases m.message <;> simp

namespace ModulesConfigure

omit P in
theorem scopes_constructIndexes (m : ModulesConfigureMessage) (latest : Bool) :
    Replication.computeFingerprintScopes (.modulesConfigure m) (constructIndexes m latest) =
      Replication.computeFingerprintScopes (.modulesConfigure m) (constructIndexes m false) := by
  cases latest <;> rfl

omit P in
theorem constructIndexes_ne_nil (m : ModulesConfigureMessage) (latest : Bool) :
    (constructIndexes m latest).isEmpty = false := rfl

omit P in
theorem isLatest_constructIndexes (m : ModulesConfigureMessage) (latest : Bool) :
    (get (constructIndexes m latest) "isLatestBaseState" == some (flag true)) = latest := by
  cases latest <;> simp [constructIndexes, flag]

end ModulesConfigure

theorem Row.Indexed.match_configureFilter {r : Row} (h : r.Indexed) (module : String) :
    FilterUtility.matchFilter r.indexes (ModulesConfigureHandler.configureFilter module) =
      r.message.configures module := by
  unfold Row.Indexed at h
  unfold StoredMessage.configures
  cases hm : r.message.message with
  | recordsWrite m =>
    simp only [hm] at h
    obtain ⟨latest, h⟩ := h
    simp [h, ModulesConfigureHandler.configureFilter, Filters.equalText]
  | recordsDelete d =>
    simp only [hm] at h
    obtain ⟨i, v, -, h⟩ := h
    simp [h, ModulesConfigureHandler.configureFilter, Filters.equalText]
  | modulesConfigure m =>
    simp only [hm] at h
    obtain ⟨latest, h⟩ := h
    simp [h, ModulesConfigureHandler.configureFilter, Filters.equalText,
      ModulesConfigure.constructIndexes]

namespace ConfigureLog

def configureRows (log : Log) (module : String) : List Row :=
  log.rows.filter fun r => r.message.configures module

/-- Either no configuration is stored, or exactly one is active and none is newer. -/
def OneActive (log : Log) (module : String) : Prop :=
  configureRows log module = [] ∨
    ∃ r, (configureRows log module).filter Row.isLatest = [r] ∧
      ∀ r' ∈ configureRows log module, Message.age r'.message ≤ Message.age r.message

section Rows
variable {log : Log} {module : String} {r : Row}

theorem mem_configureRows :
    r ∈ configureRows log module ↔ r ∈ log.rows ∧ r.message.configures module = true :=
  List.mem_filter

theorem matching_configure (wf : log.WellFormed) (module : String) :
    matching log [ModulesConfigureHandler.configureFilter module] = configureRows log module := by
  refine List.filter_congr fun r hr => ?_
  rw [FilterUtility.matchAnyFilter_singleton, (wf.indexed r hr).match_configureFilter]

theorem mem_existing (wf : log.WellFormed) {m : StoredMessage} :
    m ∈ query log [ModulesConfigureHandler.configureFilter module] ↔
      ∃ r ∈ configureRows log module, r.message = m := by
  rw [mem_query, matching_configure wf]

theorem eq_of_age (wf : log.WellFormed) {r r' : Row} (hr : r ∈ configureRows log module)
    (hr' : r' ∈ configureRows log module) (h : Message.age r.message = Message.age r'.message) :
    r = r' :=
  wf.eq_of_cid (mem_configureRows.mp hr).1 (mem_configureRows.mp hr').1
    (Message.getCid_eq_of_age_eq h)

theorem exists_greatest {rows : List Row} (h : rows ≠ []) :
    ∃ r ∈ rows, ∀ r' ∈ rows, Message.age r'.message ≤ Message.age r.message := by
  induction rows with
  | nil => exact absurd rfl h
  | cons a rows ih =>
    by_cases hrows : rows = []
    · exact ⟨a, by simp, by simp [hrows]⟩
    · obtain ⟨b, hb, hmax⟩ := ih hrows
      cases le_total (Message.age a.message) (Message.age b.message) with
      | inl hab =>
        refine ⟨b, List.mem_cons_of_mem _ hb, fun r' hr' => ?_⟩
        cases List.mem_cons.mp hr' with
        | inl heq => exact heq ▸ hab
        | inr hr' => exact hmax r' hr'
      | inr hba =>
        refine ⟨a, List.mem_cons_self, fun r' hr' => ?_⟩
        cases List.mem_cons.mp hr' with
        | inl heq => exact heq ▸ le_rfl
        | inr hr' => exact (hmax r' hr').trans hba

theorem oneActive_of_iff (wf : log.WellFormed)
    (h : ∀ r ∈ configureRows log module, r.isLatest = true ↔
      ∀ r' ∈ configureRows log module, Message.age r'.message ≤ Message.age r.message) :
    OneActive log module := by
  by_cases hrows : configureRows log module = []
  · exact Or.inl hrows
  · obtain ⟨r, hr, hmax⟩ := exists_greatest hrows
    refine Or.inr ⟨r, ?_, hmax⟩
    have hnodup : (configureRows log module).Nodup :=
      (List.Nodup.of_map _ wf.distinct).filter _
    refine List.perm_singleton.mp ((List.perm_ext_iff_of_nodup (hnodup.filter _)
      (List.nodup_singleton r)).mpr fun r' => ?_)
    rw [List.mem_filter, List.mem_singleton]
    constructor
    · rintro ⟨hr', hlatest⟩
      exact eq_of_age wf hr' hr (le_antisymm (hmax r' hr') ((h r' hr').mp hlatest r hr))
    · rintro rfl
      exact ⟨hr, (h r' hr).mpr hmax⟩

theorem OneActive.iff (wf : log.WellFormed) (h : OneActive log module)
    (hr : r ∈ configureRows log module) :
    r.isLatest = true ↔
      ∀ r' ∈ configureRows log module, Message.age r'.message ≤ Message.age r.message := by
  obtain hempty | ⟨top, htop, hmax⟩ := h
  · rw [hempty] at hr
    cases hr
  · have hmem : ∀ r', r' ∈ configureRows log module ∧ r'.isLatest = true ↔ r' = top := by
      intro r'
      rw [← List.mem_filter, htop, List.mem_singleton]
    have htopmem := ((hmem top).mpr rfl).1
    constructor
    · intro hlatest
      rw [(hmem r).mp ⟨hr, hlatest⟩]
      exact hmax
    · intro hgreatest
      have heq : r = top := eq_of_age wf hr htopmem (le_antisymm (hmax r hr) (hgreatest top htopmem))
      exact ((hmem r).mpr heq).2

end Rows

/-! ## Putting a configuration -/

section Put
variable {log log' : Log} {m : ModulesConfigureMessage} {latest : Bool} {module : String}
  {result : PutResult}

/-- A put stores nothing new when the message is there, else one row at the end. -/
theorem put_cases
    (h : put log (ModulesConfigure.stored m) (ModulesConfigure.constructIndexes m latest) =
      .ok (result, log')) :
    (∃ r ∈ log.rows, r.cid = Message.getCid (ModulesConfigure.stored m)) ∧ log' = log ∨
      (∀ r ∈ log.rows, r.cid ≠ Message.getCid (ModulesConfigure.stored m)) ∧
        log' = { rows := log.rows ++ [newRow log (ModulesConfigure.stored m)
                   (ModulesConfigure.constructIndexes m latest)]
                 head := log.head + 1 } := by
  unfold put at h
  split at h
  · next hfound =>
    cases h
    exact Or.inl ⟨find?_isSome.mp hfound, rfl⟩
  · next habsent =>
    obtain ⟨_, -, h⟩ := bind_eq_ok h
    cases h
    refine Or.inr ⟨fun r hr heq => habsent (find?_isSome.mpr ⟨r, hr, heq⟩), rfl⟩

theorem wellFormed_put (wf : log.WellFormed)
    (h : put log (ModulesConfigure.stored m) (ModulesConfigure.constructIndexes m latest) =
      .ok (result, log')) : log'.WellFormed := by
  obtain ⟨-, rfl⟩ | ⟨habsent, rfl⟩ := put_cases h
  · exact wf
  · refine ⟨?_, ?_, ?_⟩
    · rw [List.map_append, List.nodup_append]
      refine ⟨wf.distinct, by simp, ?_⟩
      intro c hc c' hc' heq
      obtain ⟨r, hr, rfl⟩ := List.mem_map.mp hc
      rw [List.map_singleton, List.mem_singleton] at hc'
      exact habsent r hr (heq.trans hc')
    · intro r hr
      cases List.mem_append.mp hr with
      | inl hr => exact wf.indexed r hr
      | inr hr =>
        rw [List.mem_singleton.mp hr]
        exact ⟨latest, rfl⟩
    · intro r hr
      cases List.mem_append.mp hr with
      | inl hr => exact wf.scopes r hr
      | inr hr =>
        rw [List.mem_singleton.mp hr]
        exact Replication.scopeSetsMatch_self _

theorem mem_configureRows_append {r new : Row} {head : Nat} :
    r ∈ configureRows { rows := log.rows ++ [new], head := head } module ↔
      r ∈ configureRows log module ∨ r = new ∧ new.message.configures module = true := by
  simp only [mem_configureRows, List.mem_append, List.mem_singleton]
  constructor
  · rintro ⟨hr | rfl, hc⟩
    · exact Or.inl ⟨hr, hc⟩
    · exact Or.inr ⟨rfl, hc⟩
  · rintro (⟨hr, hc⟩ | ⟨rfl, hc⟩)
    · exact ⟨Or.inl hr, hc⟩
    · exact ⟨Or.inr rfl, hc⟩

end Put

/-! ## Demoting a configuration -/

/-- The row of a demoted configuration. -/
def historical (m : ModulesConfigureMessage) (cid : Cid) (r : Row) : Row :=
  if cid = r.cid then { r with indexes := ModulesConfigure.constructIndexes m false } else r

section Demote
variable {log : Log} {r : Row} {m : ModulesConfigureMessage} {module : String}

@[simp] theorem message_historical (cid : Cid) : (historical m cid r).message = r.message := by
  unfold historical
  split <;> rfl

@[simp] theorem cid_historical (cid : Cid) : (historical m cid r).cid = r.cid := by
  simp [Row.cid]

theorem isLatest_historical (cid : Cid) :
    (historical m cid r).isLatest = (r.isLatest && decide (cid ≠ r.cid)) := by
  unfold historical
  by_cases h : cid = r.cid
  · rw [if_pos h]
    have := ModulesConfigure.isLatest_constructIndexes m false
    simpa [Row.isLatest, h] using this
  · simp [h]

theorem updateIndexes_ok (wf : log.WellFormed) (hr : r ∈ log.rows)
    (hm : r.message.message = .modulesConfigure m) :
    updateIndexes log r.cid (ModulesConfigure.constructIndexes m false) =
      .ok ((), { log with rows := log.rows.map (historical m r.cid) }) := by
  have hfind : find? log r.cid = some r := Selection.find?_of_nodup_map wf.distinct hr
  have hindexed := wf.indexed r hr
  have hscopes := wf.scopes r hr
  simp only [Row.Indexed, hm] at hindexed
  obtain ⟨latest, hlatest⟩ := hindexed
  rw [Row.Scoped, hm, hlatest, ModulesConfigure.scopes_constructIndexes] at hscopes
  have hentry : getLogEntryForMutation log r.cid .messageStoreUpdateIndexesMessageNotFound =
      .ok r := by
    simp [getLogEntryForMutation, hfind]
  simp only [updateIndexes, hentry, ok_bind, Replication.assertFingerprintScopesUntouched, hm,
    hscopes, if_true, assertIndexable, ModulesConfigure.constructIndexes_ne_nil]
  rfl

theorem wellFormed_historical (wf : log.WellFormed) (hr : r ∈ log.rows)
    (hm : r.message.message = .modulesConfigure m) :
    ({ log with rows := log.rows.map (historical m r.cid) } : Log).WellFormed := by
  have hcases : ∀ r' ∈ log.rows, historical m r.cid r' = r' ∨
      r' = r ∧ historical m r.cid r' = { r with indexes := ModulesConfigure.constructIndexes m false } := by
    intro r' hr'
    by_cases h : r.cid = r'.cid
    · have heq := wf.eq_of_cid hr hr' h
      subst heq
      exact Or.inr ⟨rfl, by simp [historical]⟩
    · exact Or.inl (by simp [historical, h])
  refine ⟨?_, ?_, ?_⟩
  · rw [List.map_map]
    rw [show Row.cid ∘ historical m r.cid = Row.cid from funext fun r' => cid_historical _]
    exact wf.distinct
  · intro r'' hr''
    obtain ⟨r', hr', rfl⟩ := List.mem_map.mp hr''
    obtain heq | ⟨-, heq⟩ := hcases r' hr'
    · rw [heq]
      exact wf.indexed r' hr'
    · rw [heq]
      simp only [Row.Indexed, hm]
      exact ⟨false, rfl⟩
  · intro r'' hr''
    obtain ⟨r', hr', rfl⟩ := List.mem_map.mp hr''
    obtain heq | ⟨-, heq⟩ := hcases r' hr'
    · rw [heq]
      exact wf.scopes r' hr'
    · have hscopes := wf.scopes r hr
      have hindexed := wf.indexed r hr
      simp only [Row.Indexed, hm] at hindexed
      obtain ⟨latest, hlatest⟩ := hindexed
      rw [Row.Scoped, hm, hlatest, ModulesConfigure.scopes_constructIndexes] at hscopes
      rw [heq, Row.Scoped]
      simpa only [hm] using hscopes

theorem mem_configureRows_historical {cid : Cid} {r' : Row} :
    r' ∈ configureRows { log with rows := log.rows.map (historical m cid) } module ↔
      ∃ r ∈ configureRows log module, historical m cid r = r' := by
  simp only [mem_configureRows, List.mem_map]
  constructor
  · rintro ⟨⟨r, hr, rfl⟩, hc⟩
    rw [message_historical] at hc
    exact ⟨r, ⟨hr, hc⟩, rfl⟩
  · rintro ⟨r, ⟨hr, hc⟩, rfl⟩
    exact ⟨⟨r, hr, rfl⟩, by rwa [message_historical]⟩

end Demote

end ConfigureLog

end EnboxDwn
