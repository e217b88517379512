import EnboxDwn.ConfigureReads

/-! Sets of configurations of one module, handled one at a time in any order. Which of them is
active depends only on which are stored; all are stored in every order when each is accepted on
its own and after each single older one. -/
namespace EnboxDwn.ConfigureConvergence
open MessageStore ModulesConfigureHandler ConfigureLog ConfigureRetry ConfigureReads
open Journal

variable [P : Platform]

def cid (m : ModulesConfigureMessage) : Cid := Message.getCid (ModulesConfigure.stored m)

def age (m : ModulesConfigureMessage) : Timestamp ×ₗ Cid :=
  Message.age (ModulesConfigure.stored m)

structure ConfigureSet where
  module : String
  messages : List ModulesConfigureMessage
  module_eq : ∀ m ∈ messages, m.descriptor.definitionModule = module
  nodup : messages.Nodup
  distinct : ∀ a ∈ messages, ∀ b ∈ messages, cid a = cid b → a = b

def process (deps : ModulesConfigureDependencies) (tenant : Did) (s : Stores) :
    List ModulesConfigureMessage → Stores
  | [] => s
  | m :: messages => process deps tenant ((handle deps tenant m).final s) messages

/-- Nothing of the module is stored, and there is room for the set. -/
structure ConfigureSet.Start (cs : ConfigureSet) (tenant : Did) (s : Stores) : Prop where
  wf : (s.messages tenant).WellFormed
  uninstalled : configureRows (s.messages tenant) cs.module = []
  recordless : query (s.messages tenant) [recordsWriteFilter cs.module] = []
  unknown : ∀ m ∈ cs.messages, ∀ r ∈ (s.messages tenant).rows, r.cid ≠ cid m
  room : (s.messages tenant).head + cs.messages.length < Replication.positionLimit

/-- The stores differ only in the configurations of the module. -/
structure ConfigureSet.Agrees (cs : ConfigureSet) (tenant : Did) (s s' : Stores) : Prop where
  beside : ∃ own, Beside cs.module (s.messages tenant) (s'.messages tenant) own
  others : ∀ t, t ≠ tenant → s'.messages t = s.messages t
  data : s'.data = s.data

structure ConfigureSet.Authorized (cs : ConfigureSet) (deps : ModulesConfigureDependencies)
    (tenant : Did) (s : Stores) : Prop where
  parse : ∀ m ∈ cs.messages, deps.parse m = .ok ()
  authenticate : ∀ m ∈ cs.messages, deps.authenticate m = .ok ()
  authorize : ∀ m ∈ cs.messages, ∀ s', cs.Agrees tenant s s' →
    deps.authorizeModulesConfigure s' tenant m = .ok ()

/-- The configuration composes with the modules installed at its own time. -/
def Composes (deps : ModulesConfigureDependencies) (tenant : Did) (s : Stores)
    (m : ModulesConfigureMessage) : Prop :=
  validateCompositionDependencies deps tenant (s.messages tenant) (deps.definition m)
    m.descriptor.messageTimestamp = .ok ()

/-- Each configuration that composes is accepted on its own, and after each single older one. -/
structure ConfigureSet.Compatible (cs : ConfigureSet) (deps : ModulesConfigureDependencies)
    (tenant : Did) (s : Stores) : Prop where
  alone : ∀ m ∈ cs.messages, Composes deps tenant s m → Accepted deps tenant m s
  after : ∀ a ∈ cs.messages, ∀ b ∈ cs.messages, Composes deps tenant s a →
    Composes deps tenant s b → age a < age b →
    Accepted deps tenant b ((handle deps tenant a).final s)

/-! ## The log after a list of configurations -/

/-- Besides the rows from before, the log holds the listed configurations, of which the greatest is
active. -/
structure Holding (cs : ConfigureSet) (tenant : Did) (start : Stores)
    (l : List ModulesConfigureMessage) (s : Stores) (own : List Row) : Prop where
  subset : l ⊆ cs.messages
  nodup : l.Nodup
  setLog : s = start.setLog tenant (s.messages tenant)
  wf : (s.messages tenant).WellFormed
  head : (s.messages tenant).head = (start.messages tenant).head + l.length
  rows : (s.messages tenant).rows = (start.messages tenant).rows ++ own
  ownMessages : own.map Row.message = l.map ModulesConfigure.stored
  latest : ∀ r ∈ own, r.isLatest = true ↔ ∀ x ∈ l, age x ≤ Message.age r.message

section Holding
variable {cs : ConfigureSet} {deps : ModulesConfigureDependencies} {tenant : Did} {start s : Stores}
  {l : List ModulesConfigureMessage} {own : List Row} {m : ModulesConfigureMessage}

theorem Holding.empty (hstart : cs.Start tenant start) : Holding cs tenant start [] start [] where
  subset := by simp
  nodup := List.nodup_nil
  setLog := setLog_self.symm
  wf := hstart.wf
  head := rfl
  rows := (List.append_nil _).symm
  ownMessages := rfl
  latest := by simp

theorem Holding.mem_own (h : Holding cs tenant start l s own) {r : Row} (hr : r ∈ own) :
    ∃ x ∈ l, r.message = ModulesConfigure.stored x := by
  have hmem := List.mem_map_of_mem (f := Row.message) hr
  rw [h.ownMessages] at hmem
  obtain ⟨x, hx, heq⟩ := List.mem_map.mp hmem
  exact ⟨x, hx, heq.symm⟩

theorem Holding.exists_own (h : Holding cs tenant start l s own) (hm : m ∈ l) :
    ∃ r ∈ own, r.message = ModulesConfigure.stored m := by
  have hmem := List.mem_map_of_mem (f := ModulesConfigure.stored) hm
  rw [← h.ownMessages] at hmem
  exact List.mem_map.mp hmem

theorem configures_of_mem (hm : m ∈ cs.messages) :
    (ModulesConfigure.stored m).configures cs.module = true :=
  StoredMessage.configures_eq_true.mpr ⟨m, rfl, cs.module_eq m hm⟩

theorem Holding.beside (h : Holding cs tenant start l s own) :
    Beside cs.module (start.messages tenant) (s.messages tenant) own where
  rows := h.rows
  own := by
    intro r hr
    obtain ⟨x, hx, heq⟩ := h.mem_own hr
    refine ⟨h.wf.indexed r ?_, heq ▸ configures_of_mem (h.subset hx)⟩
    rw [h.rows]
    exact List.mem_append_right _ hr

theorem Holding.agrees (h : Holding cs tenant start l s own) : cs.Agrees tenant start s where
  beside := ⟨own, h.beside⟩
  others := by
    intro t ht
    rw [h.setLog]
    simp [Stores.setLog, ht]
  data := by
    rw [h.setLog]
    rfl

theorem Holding.configureRows_eq (h : Holding cs tenant start l s own)
    (hstart : cs.Start tenant start) : configureRows (s.messages tenant) cs.module = own := by
  have hempty : (start.messages tenant).rows.filter (fun r => r.message.configures cs.module) = [] :=
    hstart.uninstalled
  have hall : own.filter (fun r => r.message.configures cs.module) = own :=
    List.filter_eq_self.mpr fun r hr => (h.beside.own r hr).2
  rw [configureRows, h.rows, List.filter_append, hempty, hall, List.nil_append]

theorem Holding.mem_existing_iff (h : Holding cs tenant start l s own)
    (hstart : cs.Start tenant start) (hm : m ∈ cs.messages) {e : StoredMessage} :
    e ∈ existing tenant m s ↔ ∃ x ∈ l, ModulesConfigure.stored x = e := by
  unfold existing
  rw [cs.module_eq m hm, mem_existing h.wf, h.configureRows_eq hstart]
  constructor
  · rintro ⟨r, hr, rfl⟩
    obtain ⟨x, hx, heq⟩ := h.mem_own hr
    exact ⟨x, hx, heq.symm⟩
  · rintro ⟨x, hx, rfl⟩
    exact h.exists_own hx

theorem Holding.oneActive (h : Holding cs tenant start l s own) (hstart : cs.Start tenant start) :
    OneActive (s.messages tenant) cs.module := by
  refine oneActive_of_iff h.wf fun r hr => ?_
  rw [h.configureRows_eq hstart] at hr ⊢
  rw [h.latest r hr]
  constructor
  · intro hmax r' hr'
    obtain ⟨x, hx, heq⟩ := h.mem_own hr'
    exact heq ▸ hmax x hx
  · intro hmax x hx
    obtain ⟨r', hr', heq⟩ := h.exists_own hx
    have := hmax r' hr'
    rwa [heq] at this

/-! ## One more configuration -/

theorem eq_of_age_eq {a b : ModulesConfigureMessage} (ha : a ∈ cs.messages) (hb : b ∈ cs.messages)
    (h : age a = age b) : a = b :=
  cs.distinct a ha b hb (Message.getCid_eq_of_age_eq h)

theorem Holding.identifies (h : Holding cs tenant start l s own) (hstart : cs.Start tenant start)
    (hm : m ∈ cs.messages) : Identifies tenant m s := by
  intro r hr hcid
  rw [h.rows] at hr
  cases List.mem_append.mp hr with
  | inl hbase => exact absurd hcid (hstart.unknown m hm r hbase)
  | inr hown =>
    obtain ⟨x, hx, heq⟩ := h.mem_own hown
    have hxm : cid x = cid m := by
      rw [Row.cid, heq] at hcid
      exact hcid
    rw [heq, cs.distinct x (h.subset hx) m hm hxm]
    rfl

theorem Holding.purgesNothing (h : Holding cs tenant start l s own) (hstart : cs.Start tenant start)
    (hm : m ∈ cs.messages) : PurgesNothing deps tenant m s := by
  intro _ write hwrite
  rw [cs.module_eq m hm, query_recordsWrites_beside h.beside, hstart.recordless] at hwrite
  cases hwrite

theorem Holding.not_duplicate (h : Holding cs tenant start l s own) (hstart : cs.Start tenant start)
    (hm : m ∈ cs.messages) (hnew : m ∉ l) : isDuplicate m (existing tenant m s) = false := by
  rw [isDuplicate, List.any_eq_false]
  intro e he
  obtain ⟨x, hx, rfl⟩ := (h.mem_existing_iff hstart hm).mp he
  rw [decide_eq_true_eq]
  intro hcid
  exact hnew (cs.distinct x (h.subset hx) m hm hcid ▸ hx)

theorem Holding.newest (h : Holding cs tenant start l s own) (hstart : cs.Start tenant start)
    (hm : m ∈ cs.messages) :
    l = [] ∧ Message.getNewestMessage (existing tenant m s) = none ∨
      ∃ p ∈ l, Message.getNewestMessage (existing tenant m s) = some (ModulesConfigure.stored p) ∧
        ∀ x ∈ l, age x ≤ age p := by
  cases hn : Message.getNewestMessage (existing tenant m s) with
  | none =>
    refine Or.inl ⟨?_, rfl⟩
    rw [Message.getNewestMessage_eq_none] at hn
    refine List.eq_nil_iff_forall_not_mem.mpr fun x hx => ?_
    have := (h.mem_existing_iff hstart hm).mpr ⟨x, hx, rfl⟩
    rw [hn] at this
    cases this
  | some n =>
    obtain ⟨hmem, hmax⟩ := Message.getNewestMessage_eq_some hn
    obtain ⟨p, hp, rfl⟩ := (h.mem_existing_iff hstart hm).mp hmem
    exact Or.inr ⟨p, hp, rfl, fun x hx =>
      hmax _ ((h.mem_existing_iff hstart hm).mpr ⟨x, hx, rfl⟩)⟩

theorem Holding.newest_iff (h : Holding cs tenant start l s own) (hstart : cs.Start tenant start)
    (hm : m ∈ cs.messages) :
    incomingMessageIsNewest m (existing tenant m s) = true ↔ ∀ x ∈ l, age x < age m := by
  obtain ⟨rfl, hn⟩ | ⟨p, hp, hn, hmax⟩ := h.newest hstart hm
  · simp [incomingMessageIsNewest, hn]
  · rw [incomingMessageIsNewest, hn, Option.all_some, Message.isNewer_iff]
    exact ⟨fun hlt x hx => lt_of_le_of_lt (hmax x hx) hlt, fun hall => hall p hp⟩

/-- The displaced configurations are those that a stored one or the incoming one supersedes. -/
theorem Holding.mem_displaced (h : Holding cs tenant start l s own) (hstart : cs.Start tenant start)
    (hm : m ∈ cs.messages) {x : ModulesConfigureMessage} (hx : x ∈ l) :
    ModulesConfigure.stored x ∈ displacedBy tenant m s ↔ ∃ y ∈ l ++ [m], age x < age y := by
  have hexisting := (h.mem_existing_iff hstart hm).mpr ⟨x, hx, rfl⟩
  unfold displacedBy displacedConfigurations
  cases hnewest : incomingMessageIsNewest m (existing tenant m s) with
  | true =>
    rw [if_pos rfl]
    exact ⟨fun _ => ⟨m, by simp, (h.newest_iff hstart hm).mp hnewest x hx⟩, fun _ => hexisting⟩
  | false =>
    rw [if_neg (by simp), List.mem_filter, decide_eq_true_eq]
    obtain ⟨rfl, -⟩ | ⟨p, hp, hn, hmax⟩ := h.newest hstart hm
    · cases hx
    · have hle : age m ≤ age p := by
        rw [← not_lt]
        intro hlt
        have := (h.newest_iff hstart hm).mpr fun y hy => lt_of_le_of_lt (hmax y hy) hlt
        rw [hnewest] at this
        cases this
      rw [hn]
      constructor
      · rintro ⟨-, hne⟩
        refine ⟨p, by simp [hp], lt_of_le_of_ne (hmax x hx) fun hage => hne ?_⟩
        rw [eq_of_age_eq (h.subset hx) (h.subset hp) hage]
      · rintro ⟨y, hy, hlt⟩
        refine ⟨hexisting, fun heq => ?_⟩
        have hxp : age x = age p := congrArg Message.age (Option.some.inj heq)
        have hyp : age y ≤ age p := by
          cases List.mem_append.mp hy with
          | inl hy => exact hmax y hy
          | inr hy => exact List.mem_singleton.mp hy ▸ hle
        exact absurd hyp (not_le.mpr (hxp ▸ hlt))

/-- The rows of the log with the new row, once the superseded ones are demoted. -/
theorem Holding.installed (h : Holding cs tenant start l s own) (hstart : cs.Start tenant start)
    (hm : m ∈ cs.messages) (hnew : m ∉ l) (hwf : (withRow tenant m s).WellFormed) :
    ∃ own', Holding cs tenant start (l ++ [m]) (installed tenant m s) own' := by
  generalize hrow : newRow (s.messages tenant) (ModulesConfigure.stored m)
    (ModulesConfigure.constructIndexes m (incomingMessageIsNewest m (existing tenant m s))) = new
  have hmessage : new.message = ModulesConfigure.stored m := by rw [← hrow]; rfl
  have hlatest : new.isLatest = incomingMessageIsNewest m (existing tenant m s) := by
    rw [← hrow]
    exact ModulesConfigure.isLatest_constructIndexes _ _
  have hrows : (withRow tenant m s).rows = (start.messages tenant).rows ++ (own ++ [new]) := by
    rw [withRow, hrow, h.rows, List.append_assoc]
  have hstored : ∀ e ∈ displacedBy tenant m s, Stored (withRow tenant m s) e :=
    fun e he => stored_displaced h.wf he
  have hconf : ∀ e ∈ displacedBy tenant m s, ∃ c, e.message = .modulesConfigure c := by
    intro e he
    obtain ⟨-, -, -, hc⟩ := hstored e he
    exact hc
  have hdisplaced : ∀ e ∈ displacedBy tenant m s, ∃ x ∈ l, ModulesConfigure.stored x = e :=
    fun e he => (h.mem_existing_iff hstart hm).mp (mem_existing_of_displaced he)
  -- The rows from before are none of the module's configurations.
  have hbase : (start.messages tenant).rows.map (demoteRow (displacedBy tenant m s)) =
      (start.messages tenant).rows := by
    refine (List.map_congr_left fun r hr => ?_).trans (List.map_id' _)
    refine demoteRow_of_kept hwf hstored (hrows ▸ List.mem_append_left _ hr) fun hmem => ?_
    obtain ⟨x, hx, heq⟩ := hdisplaced _ hmem
    have : r ∈ configureRows (start.messages tenant) cs.module :=
      mem_configureRows.mpr ⟨hr, heq ▸ configures_of_mem (h.subset hx)⟩
    rw [hstart.uninstalled] at this
    cases this
  have hcids : ∀ r ∈ own ++ [new], ∀ x ∈ l ++ [m], r.message = ModulesConfigure.stored x →
      (r.cid ∈ (displacedBy tenant m s).map Message.getCid ↔
        ModulesConfigure.stored x ∈ displacedBy tenant m s) := by
    intro r _ x hx heq
    constructor
    · intro hin
      obtain ⟨e, he, hcid⟩ := List.mem_map.mp hin
      obtain ⟨y, hy, rfl⟩ := hdisplaced e he
      have hxmem : x ∈ cs.messages := by
        cases List.mem_append.mp hx with
        | inl hx => exact h.subset hx
        | inr hx => exact List.mem_singleton.mp hx ▸ hm
      have hyx : cid y = cid x := by
        rw [Row.cid, heq] at hcid
        exact hcid
      rwa [← cs.distinct y (h.subset hy) x hxmem hyx]
    · intro he
      exact List.mem_map.mpr ⟨_, he, by rw [Row.cid, heq]⟩
  refine ⟨(own ++ [new]).map (demoteRow (displacedBy tenant m s)), ?_, ?_, ?_, ?_, ?_, ?_, ?_, ?_⟩
  · intro x hx
    cases List.mem_append.mp hx with
    | inl hx => exact h.subset hx
    | inr hx => exact List.mem_singleton.mp hx ▸ hm
  · rw [List.nodup_append]
    refine ⟨h.nodup, List.nodup_singleton m, fun x hx y hy heq => hnew ?_⟩
    rw [← List.mem_singleton.mp hy, ← heq]
    exact hx
  · rw [ConfigureRetry.installed, Stores.messages_setLog, h.setLog]
    simp only [setLog_setLog]
  · rw [ConfigureRetry.installed, Stores.messages_setLog]
    exact wellFormed_demoteAll hwf hstored
  · rw [ConfigureRetry.installed, Stores.messages_setLog, List.length_append, List.length_singleton]
    have := h.head
    simp only [demoteAll, withRow]
    omega
  · rw [ConfigureRetry.installed, Stores.messages_setLog]
    simp only [demoteAll]
    rw [hrows, List.map_append, hbase]
  · rw [List.map_map]
    have hsame : Row.message ∘ demoteRow (displacedBy tenant m s) = Row.message :=
      funext fun r => message_demoteRow
    rw [hsame, List.map_append, h.ownMessages, List.map_append, List.map_singleton, hmessage]
    rfl
  · intro r' hr'
    obtain ⟨r, hr, rfl⟩ := List.mem_map.mp hr'
    rw [isLatest_demoteRow hconf, message_demoteRow, Bool.and_eq_true, decide_eq_true_eq]
    cases List.mem_append.mp hr with
    | inl hown =>
      obtain ⟨x, hx, heq⟩ := h.mem_own hown
      rw [h.latest r hown, hcids r hr x (List.mem_append_left _ hx) heq,
        h.mem_displaced hstart hm hx, heq]
      constructor
      · rintro ⟨-, hnone⟩ y hy
        exact not_lt.mp fun hlt => hnone ⟨y, hy, hlt⟩
      · intro hmax
        refine ⟨fun y hy => hmax y (List.mem_append_left _ hy), ?_⟩
        rintro ⟨y, hy, hlt⟩
        exact absurd (hmax y hy) (not_le.mpr hlt)
    | inr hown =>
      rw [List.mem_singleton.mp hown, hlatest, hmessage, h.newest_iff hstart hm]
      constructor
      · rintro ⟨hall, -⟩ y hy
        cases List.mem_append.mp hy with
        | inl hy => exact (hall y hy).le
        | inr hy => rw [List.mem_singleton.mp hy]; exact le_rfl
      · intro hmax
        refine ⟨fun y hy => lt_of_le_of_ne (hmax y (List.mem_append_left _ hy)) fun hage => ?_, ?_⟩
        · exact hnew (eq_of_age_eq (h.subset hy) hm hage ▸ hy)
        · rw [hcids new (by simp) m (by simp) hmessage]
          intro hin
          obtain ⟨x, hx, heq⟩ := hdisplaced _ hin
          have : x = m := cs.distinct x (h.subset hx) m hm (congrArg Message.getCid heq)
          exact hnew (this ▸ hx)

theorem Holding.handle (h : Holding cs tenant start l s own) (hstart : cs.Start tenant start)
    (hm : m ∈ cs.messages) (hnew : m ∉ l) (haccepted : Accepted deps tenant m s) :
    ∃ own', Holding cs tenant start (l ++ [m]) ((handle deps tenant m).final s) own' := by
  obtain ⟨hfinal, hwf, -⟩ := final_handle h.wf (h.identifies hstart hm) haccepted
    (h.purgesNothing hstart hm)
  rw [hfinal]
  exact h.installed hstart hm hnew hwf

theorem Holding.length_lt (h : Holding cs tenant start l s own) (hm : m ∈ cs.messages)
    (hnew : m ∉ l) : l.length < cs.messages.length := by
  have hnodup : (m :: l).Nodup := List.nodup_cons.mpr ⟨hnew, h.nodup⟩
  have hsubset : m :: l ⊆ cs.messages := by
    intro x hx
    cases List.mem_cons.mp hx with
    | inl heq => exact heq ▸ hm
    | inr hx => exact h.subset hx
  have := (hnodup.subperm hsubset).length_le
  rw [List.length_cons] at this
  omega

theorem Holding.put_ok (h : Holding cs tenant start l s own) (hstart : cs.Start tenant start)
    (hm : m ∈ cs.messages) (hnew : m ∉ l) (existingMessages : List StoredMessage) :
    ∃ log', putConfiguration m existingMessages (s.messages tenant) =
      .ok (.inserted ((s.messages tenant).head + 1), log') := by
  have habsent : (find? (s.messages tenant) (Message.getCid (ModulesConfigure.stored m))).isSome =
      false := by
    rw [← Bool.not_eq_true, find?_isSome]
    rintro ⟨r, hr, hcid⟩
    have hdup := isDuplicate_of_holds (show Holds tenant m s from
      ⟨h.wf, r, hr, h.identifies hstart hm r hr hcid⟩)
    have hfresh := h.not_duplicate hstart hm hnew
    rw [existing, hdup] at hfresh
    cases hfresh
  have hroom : (s.messages tenant).head + 1 < Replication.positionLimit := by
    have := h.length_lt hm hnew
    have := hstart.room
    rw [h.head]
    omega
  simp only [putConfiguration, put, habsent, Bool.false_eq_true, if_false, assertInsertable,
    assertIndexable, ModulesConfigure.constructIndexes_ne_nil, ok_bind,
    Replication.assertPositionEncodable, hroom, if_true]
  exact ⟨_, rfl⟩

/-- A configuration that passes the checks is accepted: the store calls do not fail. -/
theorem Holding.accepted (h : Holding cs tenant start l s own) (hstart : cs.Start tenant start)
    (hm : m ∈ cs.messages) (hnew : m ∉ l) {a : Admission} (ha : admission deps tenant m s = .ok a) :
    Accepted deps tenant m s := by
  obtain ⟨hexisting, -, hprefetched⟩ := admission_eq_ok ha
  obtain ⟨log', hput⟩ := h.put_ok hstart hm hnew a.existingMessages
  obtain ⟨rfl, hwf⟩ := put_installs h.wf (h.identifies hstart hm) ha hput
  have hmutate : (fun s : Stores =>
      (putConfiguration m a.existingMessages (s.messages tenant)).map fun r =>
        (r.1, s.setLog tenant r.2)) s =
      .ok (.inserted ((s.messages tenant).head + 1), s.setLog tenant (withRow tenant m s)) := by
    simp only [hput, Except.map]
  have hes : displacedConfigurations m a.existingMessages = displacedBy tenant m s := by
    rw [hexisting]
    rfl
  obtain ⟨hresult, -⟩ := demotions tenant s hwf fun e he =>
    stored_displaced (m := m) h.wf he
  have hwrites : query ((ConfigureRetry.installed tenant m s).messages tenant)
      [recordsWriteFilter m.descriptor.definitionModule] = [] := by
    rw [query_recordsWrites h.wf hwf, cs.module_eq m hm, query_recordsWrites_beside h.beside,
      hstart.recordless]
  have hpurge : ∀ t : Stores, query (t.messages tenant)
      [recordsWriteFilter m.descriptor.definitionModule] = [] →
      (purgeRecordsInvalidatedByModuleConfig deps tenant (deps.definition m).module
        a.prefetchedRecordsWrites).result t = .ok () := by
    intro t ht
    unfold purgeRecordsInvalidatedByModuleConfig
    split
    · rfl
    · cases hpre : a.prefetchedRecordsWrites with
      | some messages =>
        have hnil : messages = [] := by
          rw [hprefetched messages hpre, cs.module_eq m hm, query_recordsWrites_beside h.beside,
            hstart.recordless]
        rw [hnil, Program.result_bind_ok (Program.result_pure _ _)]
        rfl
      | none =>
        rw [Program.result_bind_ok (Stores.result_query _ _ _), deps.definition_module, ht]
        rfl
  have hfinal : (Program.forEach (markConfigurationHistorical tenant)
      (displacedBy tenant m s)).final (s.setLog tenant (withRow tenant m s)) =
      ConfigureRetry.installed tenant m s := final_demotions h.wf hwf
  refine ⟨{ status := { code := 202, detail := "Accepted" },
            position := some ((s.messages tenant).head + 1) }, ?_, rfl⟩
  rw [ModulesConfigureHandler.handle, Program.result_bind_ok (Program.result_read s _), ha]
  simp only [Program.final_read]
  rw [install, Stores.withLog, Program.result_bind_ok (Program.result_mutate_ok hmutate),
    Program.final_mutate_ok hmutate, hes, Program.result_bind_ok hresult, hfinal,
    Program.result_bind_ok (hpurge _ hwrites)]
  rfl

/-! ## What is accepted -/

/-- The checks of a configuration, with those that always pass here left out. -/
theorem Holding.admit_iff (h : Holding cs tenant start l s own) (hstart : cs.Start tenant start)
    (hauth : cs.Authorized deps tenant start) (hm : m ∈ cs.messages) (hnew : m ∉ l) :
    (∃ a, admission deps tenant m s = .ok a) ↔ Composes deps tenant start m ∧
      (incomingMessageIsNewest m (existing tenant m s) = true →
        validateActiveConfiguration deps tenant (s.messages tenant) (deps.definition m)
          (previousDefinition deps (existing tenant m s)) = .ok ()) := by
  have hmodule : (deps.definition m).module = cs.module := by
    rw [deps.definition_module, cs.module_eq m hm]
  have hexisting : query (s.messages tenant) [configureFilter (deps.definition m).module] =
      existing tenant m s := by
    rw [deps.definition_module]
    rfl
  have hpolicy : ∃ prefetched, validateEncryptionPolicyIsImmutable deps (s.messages tenant)
      (deps.definition m) (previousDefinition deps (existing tenant m s)) = .ok prefetched := by
    unfold validateEncryptionPolicyIsImmutable
    split
    · exact ⟨none, rfl⟩
    · split
      · exact ⟨none, rfl⟩
      · rw [hmodule, query_recordsWrites_beside h.beside, hstart.recordless]
        exact ⟨some [], rfl⟩
  obtain ⟨prefetched, hpolicy⟩ := hpolicy
  unfold admission admitUpdate Composes
  rw [hauth.parse m hm, hauth.authenticate m hm, hauth.authorize m hm s h.agrees, hexisting,
    h.not_duplicate hstart hm hnew, hpolicy, validateCompositionDependencies_beside h.beside hmodule]
  cases hcompose : validateCompositionDependencies deps tenant (start.messages tenant)
      (deps.definition m) m.descriptor.messageTimestamp with
  | error e => simp [RecordsWriteHandler.orReply, Except.mapError]
  | ok _ =>
    cases incomingMessageIsNewest m (existing tenant m s) with
    | false =>
      simp only [RecordsWriteHandler.orReply, Except.mapError, ok_bind, Bool.false_eq_true, if_false,
        false_implies, and_true, iff_true]
      exact ⟨_, rfl⟩
    | true =>
      cases hactive : validateActiveConfiguration deps tenant (s.messages tenant) (deps.definition m)
          (previousDefinition deps (existing tenant m s)) with
      | error e => simp [RecordsWriteHandler.orReply, Except.mapError]
      | ok _ =>
        simp only [RecordsWriteHandler.orReply, Except.mapError, ok_bind, Bool.false_eq_true,
          if_false, if_true, true_implies, and_true, iff_true]
        exact ⟨_, rfl⟩

/-- The active configuration of two logs is one and the same, so an update of it is compared the
same way. -/
theorem Holding.sameActive (h : Holding cs tenant start l s own) (hstart : cs.Start tenant start)
    {l' : List ModulesConfigureMessage} {s' : Stores} {own' : List Row}
    (h' : Holding cs tenant start l' s' own') {p : ModulesConfigureMessage} (hp : p ∈ l)
    (hmax : ∀ x ∈ l, age x ≤ age p) (hp' : p ∈ l') (hmax' : ∀ x ∈ l', age x ≤ age p) :
    SameActive cs.module (start.messages tenant) (s.messages tenant) (s'.messages tenant) own
      own' where
  left := h.beside
  right := h'.beside
  active := by
    have hactive : ∀ {l s own}, Holding cs tenant start l s own → p ∈ l →
        (∀ x ∈ l, age x ≤ age p) → (own.filter Row.isLatest).map rowKey =
          [(ModulesConfigure.stored p, ModulesConfigure.constructIndexes p true)] := by
      intro l s own h hp hmax
      obtain ⟨r, hr, hmessage⟩ := h.exists_own hp
      have hlatest : r.isLatest = true := by
        rw [h.latest r hr, hmessage]
        exact hmax
      obtain hnone | ⟨top, htop, -⟩ := h.oneActive hstart
      · rw [h.configureRows_eq hstart] at hnone
        rw [hnone] at hr
        cases hr
      · rw [h.configureRows_eq hstart] at htop
        have hmem : r ∈ own.filter Row.isLatest := List.mem_filter.mpr ⟨hr, hlatest⟩
        rw [htop, List.mem_singleton] at hmem
        have hindexes := indexes_of_configure (h.beside.own r hr).1 (c := p) (by rw [hmessage]; rfl)
        rw [hlatest] at hindexes
        rw [htop, ← hmem, List.map_singleton, rowKey, hmessage, hindexes]
    rw [hactive h hp hmax, hactive h' hp' hmax']

/-- Under the pairwise condition every configuration that composes is accepted. -/
theorem Holding.accepted_of_compatible (h : Holding cs tenant start l s own)
    (hstart : cs.Start tenant start) (hauth : cs.Authorized deps tenant start)
    (hcompatible : cs.Compatible deps tenant start) (hcomposes : ∀ x ∈ l, Composes deps tenant start x)
    (hm : m ∈ cs.messages) (hnew : m ∉ l) (hcompose : Composes deps tenant start m) :
    Accepted deps tenant m s := by
  obtain ⟨a, ha⟩ : ∃ a, admission deps tenant m s = .ok a := by
    rw [h.admit_iff hstart hauth hm hnew]
    refine ⟨hcompose, fun hnewest => ?_⟩
    obtain ⟨rfl, hn⟩ | ⟨p, hp, hn, hmax⟩ := h.newest hstart hm
    · -- The first configuration: the store is the start.
      obtain ⟨b, hb, -⟩ := exists_admission (hcompatible.alone m hm hcompose)
      have hempty := Holding.empty hstart
      have hactive := ((hempty.admit_iff hstart hauth hm hnew).mp ⟨b, hb⟩).2
      obtain ⟨-, hn'⟩ | ⟨x, hx, -⟩ := hempty.newest hstart hm
      · have hprevious : previousDefinition deps (existing tenant m s) = none := by
          rw [previousDefinition, hn]
          rfl
        have hprevious' : previousDefinition deps (existing tenant m start) = none := by
          rw [previousDefinition, hn']
          rfl
        have hok := hactive ((hempty.newest_iff hstart hm).mpr (by simp))
        rw [hprevious'] at hok
        rw [hprevious, validateActiveConfiguration, validateCompositionDependencies_beside h.beside
          (by rw [deps.definition_module, cs.module_eq m hm])]
        exact hok
      · cases hx
    · -- An update of the newest: the same comparison as after that one alone.
      have hlt : age p < age m := (h.newest_iff hstart hm).mp hnewest p hp
      have hpmem := h.subset hp
      have hempty := Holding.empty hstart
      obtain ⟨own₁, h₁⟩ := hempty.handle hstart hpmem (by simp)
        (hcompatible.alone p hpmem (hcomposes p hp))
      obtain ⟨b, hb, -⟩ := exists_admission
        (hcompatible.after p hpmem m hm (hcomposes p hp) hcompose hlt)
      have hnew₁ : m ∉ [] ++ [p] := by
        rw [List.nil_append, List.mem_singleton]
        rintro rfl
        exact lt_irrefl _ hlt
      have hactive := ((h₁.admit_iff hstart hauth hm hnew₁).mp ⟨b, hb⟩).2
        ((h₁.newest_iff hstart hm).mpr (by simpa using hlt))
      have hprevious : previousDefinition deps (existing tenant m s) = some (deps.definition p) := by
        rw [previousDefinition, hn]
        rfl
      have hprevious₁ : previousDefinition deps (existing tenant m
          ((ModulesConfigureHandler.handle deps tenant p).final start)) =
          some (deps.definition p) := by
        obtain ⟨hnil, -⟩ | ⟨q, hq, hnq, -⟩ := h₁.newest hstart hm
        · cases hnil
        · rw [List.nil_append, List.mem_singleton] at hq
          rw [previousDefinition, hnq, hq]
          rfl
      rw [hprevious₁, validateActiveConfiguration] at hactive
      rw [hprevious, validateActiveConfiguration,
        validateCompositionUpgradeCompatibility_congr
          (h.sameActive hstart h₁ hp hmax (by simp) (by simp))]
      exact hactive
  exact h.accepted hstart hm hnew ha

/-- One configuration: stored or refused, and stored when the pairwise condition holds and it
composes. -/
theorem Holding.step (h : Holding cs tenant start l s own) (hstart : cs.Start tenant start)
    (hauth : cs.Authorized deps tenant start) (hcomposes : ∀ x ∈ l, Composes deps tenant start x)
    (hm : m ∈ cs.messages) (hnew : m ∉ l) :
    (∃ own', Holding cs tenant start (l ++ [m])
        ((ModulesConfigureHandler.handle deps tenant m).final s) own' ∧
        Composes deps tenant start m) ∨
      (ModulesConfigureHandler.handle deps tenant m).final s = s ∧
        (cs.Compatible deps tenant start → ¬ Composes deps tenant start m) := by
  cases ha : admission deps tenant m s with
  | ok a =>
    obtain ⟨own', h'⟩ := h.handle hstart hm hnew (h.accepted hstart hm hnew ha)
    exact Or.inl ⟨own', h', ((h.admit_iff hstart hauth hm hnew).mp ⟨a, ha⟩).1⟩
  | error reply =>
    refine Or.inr ⟨?_, fun hcompatible hcompose => ?_⟩
    · rw [ModulesConfigureHandler.handle, Program.final_bind_ok (Program.result_read s _), ha]
      rfl
    · obtain ⟨a, ha', -⟩ := exists_admission
        (h.accepted_of_compatible hstart hauth hcompatible hcomposes hm hnew hcompose)
      rw [ha] at ha'
      cases ha'

theorem Holding.process (h : Holding cs tenant start l s own) (hstart : cs.Start tenant start)
    (hauth : cs.Authorized deps tenant start) (hcomposes : ∀ x ∈ l, Composes deps tenant start x)
    {messages : List ModulesConfigureMessage} (hsubset : messages ⊆ cs.messages)
    (hnodup : messages.Nodup) (hnew : ∀ m ∈ messages, m ∉ l) :
    ∃ l' own', Holding cs tenant start l' (process deps tenant s messages) own' ∧
      (∀ x ∈ l', Composes deps tenant start x) ∧
      (cs.Compatible deps tenant start →
        ∀ m, m ∈ l' ↔ m ∈ l ∨ m ∈ messages ∧ Composes deps tenant start m) := by
  induction messages generalizing l s own with
  | nil => exact ⟨l, own, h, hcomposes, by simp⟩
  | cons m messages ih =>
    obtain ⟨hfirst, hnodup⟩ := List.nodup_cons.mp hnodup
    have hm : m ∈ cs.messages := hsubset List.mem_cons_self
    have hrest : messages ⊆ cs.messages := fun x hx => hsubset (List.mem_cons_of_mem _ hx)
    obtain ⟨own', h', hcompose⟩ | ⟨hsame, hrefused⟩ :=
      h.step hstart hauth hcomposes hm (hnew m List.mem_cons_self)
    · obtain ⟨l', own'', h'', hall, hiff⟩ := ih h' (by
        intro x hx
        cases List.mem_append.mp hx with
        | inl hx => exact hcomposes x hx
        | inr hx => exact List.mem_singleton.mp hx ▸ hcompose) hrest hnodup (by
        intro x hx hmem
        cases List.mem_append.mp hmem with
        | inl hmem => exact hnew x (List.mem_cons_of_mem _ hx) hmem
        | inr hmem => exact hfirst (List.mem_singleton.mp hmem ▸ hx))
      refine ⟨l', own'', h'', hall, fun hcompatible x => ?_⟩
      rw [hiff hcompatible x, List.mem_append, List.mem_singleton, List.mem_cons]
      constructor
      · rintro ((hx | rfl) | hx)
        · exact Or.inl hx
        · exact Or.inr ⟨Or.inl rfl, hcompose⟩
        · exact Or.inr ⟨Or.inr hx.1, hx.2⟩
      · rintro (hx | ⟨rfl | hx, hc⟩)
        · exact Or.inl (Or.inl hx)
        · exact Or.inl (Or.inr rfl)
        · exact Or.inr ⟨hx, hc⟩
    · obtain ⟨l', own'', h'', hall, hiff⟩ := ih h hcomposes hrest hnodup fun x hx =>
        hnew x (List.mem_cons_of_mem _ hx)
      rw [ConfigureConvergence.process, hsame]
      refine ⟨l', own'', h'', hall, fun hcompatible x => ?_⟩
      rw [hiff hcompatible x, List.mem_cons]
      constructor
      · rintro (hx | hx)
        · exact Or.inl hx
        · exact Or.inr ⟨Or.inr hx.1, hx.2⟩
      · rintro (hx | ⟨rfl | hx, hc⟩)
        · exact Or.inl hx
        · exact absurd hc (hrefused hcompatible)
        · exact Or.inr ⟨hx, hc⟩

end Holding

def IsStored (cs : ConfigureSet) (tenant : Did) (s : Stores) (m : ModulesConfigureMessage) : Prop :=
  ∃ r ∈ configureRows (s.messages tenant) cs.module, r.message.message = .modulesConfigure m

/-- In every order exactly one of the stored configurations is active, the greatest. When each
that composes is accepted alone and after each single older one, every order stores the same set. -/
theorem configurations_converge {cs : ConfigureSet} {deps : ModulesConfigureDependencies}
    {tenant : Did} {s : Stores} (hstart : cs.Start tenant s) (hauth : cs.Authorized deps tenant s)
    {order order' : List ModulesConfigureMessage}
    (horder : order.Perm cs.messages) (horder' : order'.Perm cs.messages) :
    OneActive ((process deps tenant s order).messages tenant) cs.module ∧
      OneActive ((process deps tenant s order').messages tenant) cs.module ∧
      (cs.Compatible deps tenant s → ∀ m,
        IsStored cs tenant (process deps tenant s order) m ↔
          IsStored cs tenant (process deps tenant s order') m) := by
  have hprocess : ∀ messages : List ModulesConfigureMessage, messages.Perm cs.messages →
      OneActive ((process deps tenant s messages).messages tenant) cs.module ∧
        (cs.Compatible deps tenant s → ∀ m, IsStored cs tenant (process deps tenant s messages) m ↔
          m ∈ cs.messages ∧ Composes deps tenant s m) := by
    intro messages hperm
    obtain ⟨l, own, h, -, hiff⟩ := (Holding.empty hstart).process hstart hauth (by simp)
      hperm.subset (hperm.nodup_iff.mpr cs.nodup) (by simp)
    refine ⟨h.oneActive hstart, fun hcompatible m => ?_⟩
    have hmem : m ∈ l ↔ m ∈ cs.messages ∧ Composes deps tenant s m := by
      rw [hiff hcompatible m, hperm.mem_iff]
      simp
    rw [← hmem, IsStored, h.configureRows_eq hstart]
    constructor
    · rintro ⟨r, hr, heq⟩
      obtain ⟨x, hx, hx'⟩ := h.mem_own hr
      rw [hx'] at heq
      cases heq
      exact hx
    · intro hm
      obtain ⟨r, hr, heq⟩ := h.exists_own hm
      exact ⟨r, hr, by rw [heq]; rfl⟩
  obtain ⟨hactive, hstored⟩ := hprocess order horder
  obtain ⟨hactive', hstored'⟩ := hprocess order' horder'
  exact ⟨hactive, hactive', fun hcompatible m =>
    (hstored hcompatible m).trans (hstored' hcompatible m).symm⟩

end EnboxDwn.ConfigureConvergence

namespace EnboxDwn.ConfigureConvergence
open ModulesConfigureHandler ConfigureLog ConfigureRetry ConfigureReads MessageStore

local instance : Platform := Platform.ofText

def versions : ConfigureSet where
  module := "notes"
  messages := [notes "a" "1", notes "b" "2"]
  module_eq := by decide
  nodup := by decide
  distinct := by decide

theorem start_versions : versions.Start "alice" {} where
  wf := Log.WellFormed.empty
  uninstalled := rfl
  recordless := rfl
  unknown := by simp
  room := by decide

theorem authorized_permissive (cs : ConfigureSet) (tenant : Did) (s : Stores) :
    cs.Authorized permissive tenant s :=
  ⟨fun _ _ => rfl, fun _ _ => rfl, fun _ _ _ _ => rfl⟩

theorem compatible_versions : versions.Compatible permissive "alice" {} where
  alone := by
    intro m hm _
    simp only [versions, List.mem_cons, List.not_mem_nil, or_false] at hm
    obtain rfl | rfl := hm
    · exact ⟨_, rfl, by decide⟩
    · exact ⟨_, rfl, by decide⟩
  after := by
    intro a ha b hb _ _ hlt
    simp only [versions, List.mem_cons, List.not_mem_nil, or_false] at ha hb
    obtain rfl | rfl := ha <;> obtain rfl | rfl := hb
    · exact absurd hlt (lt_irrefl _)
    · exact ⟨_, rfl, by decide⟩
    · exact absurd hlt (by decide)
    · exact absurd hlt (lt_irrefl _)

/-- Both orders store both versions. -/
theorem versions_converge :
    IsStored versions "alice" (process permissive "alice" {} [notes "b" "2", notes "a" "1"])
        (notes "a" "1") ∧
      ∀ m, IsStored versions "alice"
          (process permissive "alice" {} [notes "a" "1", notes "b" "2"]) m ↔
        IsStored versions "alice"
          (process permissive "alice" {} [notes "b" "2", notes "a" "1"]) m := by
  refine ⟨?_, (configurations_converge start_versions (authorized_permissive _ _ _)
    (List.Perm.refl _) (List.Perm.swap _ _ _)).2.2 compatible_versions⟩
  unfold IsStored
  decide

/-- The alias `store` of the notes module, which version `b` points elsewhere. -/
def retargeting : ModulesConfigureDependencies where
  definition m :=
    { module := m.descriptor.definitionModule
      uses := if m.authorization.signature = "a" then [("store", "files")]
        else if m.authorization.signature = "b" then [("store", "blobs")] else [] }
  definition_module _ := rfl
  encrypted _ := false
  parse _ := .ok ()
  authenticate _ := .ok ()
  authorizeModulesConfigure _ _ _ := .ok ()
  normalizeModuleUrl := some
  coreModules _ := none
  callDepth := 4
  getStoredInitialWriteConfigValidity _ _ _ := .valid

def providerRow (module : String) : Row :=
  let m : ModulesConfigureMessage :=
    { descriptor := { messageTimestamp := "0", definitionModule := module, definitionPublished := true }
      authorization := { signature := module, signer := "alice" } }
  newRow {} (ModulesConfigure.stored m) (ModulesConfigure.constructIndexes m true)

def withProviders : Stores where
  messages _ := { rows := [providerRow "files", providerRow "blobs"], head := 2 }

theorem start_withProviders : versions.Start "alice" withProviders where
  wf := by
    refine ⟨by decide, fun r hr => ?_, fun r hr => ?_⟩
    · simp only [withProviders, List.mem_cons, List.not_mem_nil, or_false] at hr
      obtain rfl | rfl := hr
      · exact ⟨true, rfl⟩
      · exact ⟨true, rfl⟩
    · simp only [withProviders, List.mem_cons, List.not_mem_nil, or_false] at hr
      obtain rfl | rfl := hr
      · exact Replication.scopeSetsMatch_self _
      · exact Replication.scopeSetsMatch_self _
  uninstalled := by
    refine List.filter_eq_nil_iff.mpr ?_
    decide
  recordless := by decide
  unknown := by decide
  room := by decide

/-- Version `b` retargets an alias of version `a`. It is refused as an update, but stored when it
comes first, and then `a` is stored as history. -/
theorem orders_differ :
    versions.Start "alice" withProviders ∧
      (∀ m ∈ versions.messages, Composes retargeting "alice" withProviders m) ∧
      versions.Authorized retargeting "alice" withProviders ∧
      ¬ ∀ m, IsStored versions "alice"
          (process retargeting "alice" withProviders [notes "a" "1", notes "b" "2"]) m ↔
        IsStored versions "alice"
          (process retargeting "alice" withProviders [notes "b" "2", notes "a" "1"]) m := by
  refine ⟨start_withProviders, ?_, ⟨fun _ _ => rfl, fun _ _ => rfl, fun _ _ _ _ => rfl⟩, fun h => ?_⟩
  · unfold Composes
    decide
  · have hb := h (notes "b" "2")
    revert hb
    unfold IsStored
    decide

end EnboxDwn.ConfigureConvergence
