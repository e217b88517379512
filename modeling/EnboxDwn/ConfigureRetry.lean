import EnboxDwn.ConfigureLog
import EnboxDwn.RecordRun

/-! A configuration that is cut off between two of its store mutations and delivered again. From
the put on, the second delivery finds the message stored and changes nothing, so it ends where one
uninterrupted run ends exactly when the mutations that were cut off would have changed nothing. -/
namespace EnboxDwn.ConfigureRetry
open Journal MessageStore ModulesConfigureHandler ConfigureLog

variable [P : Platform]

/-! ## Demotions -/

def historicalOf (e : StoredMessage) (r : Row) : Row :=
  match e.asModulesConfigure with
  | some c => historical c (Message.getCid e) r
  | none => r

/-- The row after the demotion of the messages, one after the other. -/
def demoteRow (displaced : List StoredMessage) (r : Row) : Row :=
  displaced.foldl (fun r e => historicalOf e r) r

def demoteAll (displaced : List StoredMessage) (log : Log) : Log :=
  { log with rows := log.rows.map (demoteRow displaced) }

/-- Stored configurations, as far as a demotion needs to know. -/
def Stored (log : Log) (e : StoredMessage) : Prop :=
  ∃ r ∈ log.rows, r.message = e ∧ ∃ c, e.message = .modulesConfigure c

section Demote
variable {log : Log} {e : StoredMessage} {displaced : List StoredMessage} {r : Row}

theorem historicalOf_eq {c : ModulesConfigureMessage} (h : e.message = .modulesConfigure c) :
    historicalOf e r = historical c (Message.getCid e) r := by
  simp only [historicalOf, StoredMessage.asModulesConfigure_eq_some.mpr h]

@[simp] theorem message_historicalOf : (historicalOf e r).message = r.message := by
  unfold historicalOf
  split
  · exact message_historical _
  · rfl

@[simp] theorem message_demoteRow : (demoteRow displaced r).message = r.message := by
  induction displaced generalizing r with
  | nil => rfl
  | cons e displaced ih => exact ih.trans message_historicalOf

@[simp] theorem cid_demoteRow : (demoteRow displaced r).cid = r.cid := by
  simp [Row.cid]

theorem isLatest_demoteRow (h : ∀ e ∈ displaced, ∃ c, e.message = .modulesConfigure c) :
    (demoteRow displaced r).isLatest =
      (r.isLatest && decide (r.cid ∉ displaced.map Message.getCid)) := by
  induction displaced generalizing r with
  | nil => simp [demoteRow]
  | cons e displaced ih =>
    obtain ⟨c, hc⟩ := h e (by simp)
    have hstep : demoteRow (e :: displaced) r = demoteRow displaced (historicalOf e r) := rfl
    rw [hstep, ih fun e' he' => h e' (by simp [he']), historicalOf_eq hc, isLatest_historical,
      cid_historical, Bool.and_assoc, ← Bool.decide_and]
    congr 2
    rw [List.map_cons, List.mem_cons, not_or, ne_comm]

theorem historicalOf_of_historical (wf : log.WellFormed) (he : Stored log e) (hr : r ∈ log.rows)
    (h : r.message = e → r.isLatest = false) : historicalOf e r = r := by
  obtain ⟨row, hrow, hmessage, c, hc⟩ := he
  rw [historicalOf_eq hc, historical]
  split
  · next hcid =>
    have heq : row = r := wf.eq_of_cid hrow hr (by rw [Row.cid, hmessage, hcid])
    subst heq
    have hindexed := wf.indexed row hr
    rw [← hmessage] at hc
    simp only [Row.Indexed, hc] at hindexed
    obtain ⟨latest, hlatest⟩ := hindexed
    have hflag : latest = false := by
      have := h hmessage
      rwa [Row.isLatest, hlatest, ModulesConfigure.isLatest_constructIndexes] at this
    rw [← hflag, ← hlatest]
  · rfl

theorem demoteConfiguration_ok (wf : log.WellFormed) (he : Stored log e) :
    demoteConfiguration e log = .ok ((), demoteAll [e] log) ∧ (demoteAll [e] log).WellFormed := by
  obtain ⟨r, hr, rfl, c, hc⟩ := he
  have hlog : demoteAll [r.message] log =
      { log with rows := log.rows.map (historical c r.cid) } := by
    simp only [demoteAll]
    congr 1
    exact List.map_congr_left fun r' _ => historicalOf_eq hc
  rw [hlog]
  refine ⟨?_, wellFormed_historical wf hr hc⟩
  simp only [demoteConfiguration, StoredMessage.asModulesConfigure_eq_some.mpr hc]
  exact updateIndexes_ok wf hr hc

theorem Stored.demoteAll {e' : StoredMessage} (h : Stored log e') :
    Stored (demoteAll displaced log) e' := by
  obtain ⟨r, hr, rfl, hc⟩ := h
  exact ⟨demoteRow displaced r, List.mem_map.mpr ⟨r, hr, rfl⟩, message_demoteRow, hc⟩

@[simp] theorem demoteAll_nil : demoteAll [] log = log := by
  simp only [demoteAll, show demoteRow ([] : List StoredMessage) = id from rfl, List.map_id]

theorem demoteAll_cons : demoteAll (e :: displaced) log = demoteAll displaced (demoteAll [e] log) := by
  simp [demoteAll, demoteRow, Function.comp_def]

theorem demoteAll_append {rest : List StoredMessage} :
    demoteAll (displaced ++ rest) log = demoteAll rest (demoteAll displaced log) := by
  simp [demoteAll, demoteRow, Function.comp_def]

theorem wellFormed_demoteAll (wf : log.WellFormed) (h : ∀ e ∈ displaced, Stored log e) :
    (demoteAll displaced log).WellFormed := by
  induction displaced generalizing log with
  | nil => rwa [demoteAll_nil]
  | cons e displaced ih =>
    rw [demoteAll_cons]
    exact ih (demoteConfiguration_ok wf (h e (by simp))).2 fun e' he' =>
      (h e' (by simp [he'])).demoteAll

/-- Demotions change nothing exactly when every row they name is historical already. -/
theorem demoteAll_eq_self_iff (wf : log.WellFormed) (h : ∀ e ∈ displaced, Stored log e) :
    demoteAll displaced log = log ↔
      ∀ r ∈ log.rows, r.message ∈ displaced → r.isLatest = false := by
  have hconf : ∀ e ∈ displaced, ∃ c, e.message = .modulesConfigure c := by
    intro e he
    obtain ⟨-, -, -, hc⟩ := h e he
    exact hc
  constructor
  · intro heq r hr hmem
    have hrow : ∀ r' ∈ log.rows, r'.cid ∈ displaced.map Message.getCid → r'.isLatest = false := by
      intro r' hr' hcid
      rw [← heq] at hr'
      obtain ⟨before, hbefore, rfl⟩ := List.mem_map.mp hr'
      rw [cid_demoteRow] at hcid
      rw [isLatest_demoteRow hconf, decide_eq_false (not_not.mpr hcid), Bool.and_false]
    exact hrow r hr (List.mem_map.mpr ⟨_, hmem, rfl⟩)
  · intro hhistorical
    have hrows : ∀ r ∈ log.rows, demoteRow displaced r = r := by
      intro r hr
      clear hconf
      induction displaced with
      | nil => rfl
      | cons e displaced ih =>
        have hstep : historicalOf e r = r :=
          historicalOf_of_historical wf (h e (by simp)) hr fun hmessage =>
            hhistorical r hr (by simp [hmessage])
        have hfold : demoteRow (e :: displaced) r = demoteRow displaced (historicalOf e r) := rfl
        rw [hfold, hstep]
        exact ih (fun e' he' => h e' (by simp [he'])) fun r' hr' hmem =>
          hhistorical r' hr' (by simp [hmem])
    rw [demoteAll, List.map_congr_left hrows, List.map_id']

end Demote

/-! ## The trail of an accepted run -/

section Trail
variable {tenant : Did} {s : Stores} {log : Log} {displaced : List StoredMessage}

theorem setLog_setLog (log' : Log) : (s.setLog tenant log).setLog tenant log' =
    s.setLog tenant log' := by
  simp [Stores.setLog]

theorem setLog_self : s.setLog tenant (s.messages tenant) = s := by
  simp [Stores.setLog]

theorem setLog_inj {log' : Log} : s.setLog tenant log = s.setLog tenant log' ↔ log = log' := by
  constructor
  · intro h
    have := congrArg (fun t => t.messages tenant) h
    simpa using this
  · rintro rfl
    rfl

variable (tenant s) in
/-- A loop of demotions goes through the logs with ever more of them demoted. -/
theorem demotions (wf : log.WellFormed) (h : ∀ e ∈ displaced, Stored log e) :
    (Program.forEach (markConfigurationHistorical tenant) displaced).result (s.setLog tenant log) =
        .ok () ∧
      (Program.forEach (markConfigurationHistorical tenant) displaced).trail (s.setLog tenant log) =
        (List.range displaced.length).map fun j =>
          s.setLog tenant (demoteAll (displaced.take (j + 1)) log) := by
  induction displaced generalizing log with
  | nil => exact ⟨rfl, rfl⟩
  | cons e displaced ih =>
    obtain ⟨hok, hwf⟩ := demoteConfiguration_ok wf (h e (by simp))
    have hmutate : (fun s : Stores => (demoteConfiguration e (s.messages tenant)).map fun r =>
        (r.1, s.setLog tenant r.2)) (s.setLog tenant log) =
        .ok ((), s.setLog tenant (demoteAll [e] log)) := by
      simp only [Stores.messages_setLog, hok, Except.map, setLog_setLog]
    have hresult : (markConfigurationHistorical tenant e).result (s.setLog tenant log) = .ok () :=
      Program.result_mutate_ok hmutate
    have htrail : (markConfigurationHistorical tenant e).trail (s.setLog tenant log) =
        [s.setLog tenant (demoteAll [e] log)] := Program.trail_mutate_ok hmutate
    have hfinal : (markConfigurationHistorical tenant e).final (s.setLog tenant log) =
        s.setLog tenant (demoteAll [e] log) := Program.final_mutate_ok hmutate
    obtain ⟨ihresult, ihtrail⟩ := ih hwf fun e' he' => (h e' (by simp [he'])).demoteAll
    constructor
    · rw [Program.forEach, Program.result_bind_ok hresult, hfinal]
      exact ihresult
    · rw [Program.forEach, Program.trail_bind_ok hresult, hfinal, htrail, ihtrail,
        List.length_cons, List.range_succ_eq_map, List.map_cons, List.map_map, List.singleton_append]
      congr 1
      refine List.map_congr_left fun j _ => ?_
      rw [← demoteAll_cons]
      rfl

end Trail

/-! ## Delivering again -/

def Holds (tenant : Did) (m : ModulesConfigureMessage) (s : Stores) : Prop :=
  (s.messages tenant).WellFormed ∧
    ∃ r ∈ (s.messages tenant).rows, r.message.message = .modulesConfigure m

section Retry
variable {deps : ModulesConfigureDependencies} {tenant : Did} {m : ModulesConfigureMessage}
  {s : Stores}

omit P in
theorem orReply_eq_ok {α : Type} {r : Except Failure α} {code : Nat} {a : α}
    (h : RecordsWriteHandler.orReply r code = .ok a) : r = .ok a := by
  cases r with
  | ok b =>
    cases h
    rfl
  | error e => cases h

theorem prefetched_eq {log : Log} {definition : ModuleDefinition}
    {previous : Option ModuleDefinition} {messages : List StoredMessage}
    (h : validateEncryptionPolicyIsImmutable deps log definition previous = .ok (some messages)) :
    messages = query log [recordsWriteFilter definition.module] := by
  unfold validateEncryptionPolicyIsImmutable at h
  split at h
  · cases h
  · split at h
    · cases h
    · obtain ⟨_, -, h⟩ := bind_eq_ok h
      cases h
      rfl

theorem admission_eq_ok {a : Admission} (h : admission deps tenant m s = .ok a) :
    a.existingMessages =
        query (s.messages tenant) [configureFilter m.descriptor.definitionModule] ∧
      isDuplicate m a.existingMessages = false ∧
      ∀ messages, a.prefetchedRecordsWrites = some messages →
        messages = query (s.messages tenant) [recordsWriteFilter m.descriptor.definitionModule] := by
  unfold admission at h
  obtain ⟨_, -, h⟩ := bind_eq_ok h
  obtain ⟨_, -, h⟩ := bind_eq_ok h
  obtain ⟨_, -, h⟩ := bind_eq_ok h
  obtain ⟨_, -, h⟩ := bind_eq_ok h
  split at h
  · cases h
  · next hfresh =>
    unfold admitUpdate at h
    obtain ⟨prefetched, hpolicy, h⟩ := bind_eq_ok h
    obtain ⟨_, -, h⟩ := bind_eq_ok h
    cases h
    rw [← deps.definition_module m]
    refine ⟨rfl, Bool.not_eq_true _ ▸ hfresh, ?_⟩
    rintro messages rfl
    exact prefetched_eq (orReply_eq_ok hpolicy)

theorem isDuplicate_of_holds (h : Holds tenant m s) : isDuplicate m
    (query (s.messages tenant) [configureFilter m.descriptor.definitionModule]) = true := by
  obtain ⟨wf, r, hr, hm⟩ := h
  refine List.any_eq_true.mpr ⟨r.message, (mem_existing wf).mpr ⟨r, ?_, rfl⟩, ?_⟩
  · exact mem_configureRows.mpr ⟨hr, StoredMessage.configures_eq_true.mpr ⟨m, hm, rfl⟩⟩
  · simp [Message.getCid, hm, ModulesConfigure.stored]

theorem trail_handle_of_holds (h : Holds tenant m s) : (handle deps tenant m).trail s = [] := by
  cases hadmission : admission deps tenant m s with
  | error reply =>
    rw [handle, Program.trail_bind_ok (Program.result_read s _), hadmission]
    rfl
  | ok a =>
    obtain ⟨hexisting, hfresh, -⟩ := admission_eq_ok hadmission
    rw [hexisting, isDuplicate_of_holds h] at hfresh
    cases hfresh

theorem final_handle_of_holds (h : Holds tenant m s) : (handle deps tenant m).final s = s := by
  rw [Program.final, trail_handle_of_holds h]
  rfl

theorem holds_delete {cid : Cid} (hcid : cid ≠ Message.getCid (ModulesConfigure.stored m)) :
    Program.Preserves (Holds tenant m) (Stores.deleteMessage tenant cid) := by
  refine Program.preserves_mutate fun s a t hok hs => ?_
  simp only [Except.map, Except.ok.injEq, Prod.mk.injEq] at hok
  obtain ⟨-, rfl⟩ := hok
  obtain ⟨wf, r, hr, hm⟩ := hs
  rw [Holds, Stores.messages_setLog]
  refine ⟨wellFormed_delete wf cid, r, List.mem_filter.mpr ⟨hr, ?_⟩, hm⟩
  have : r.cid = Message.getCid (ModulesConfigure.stored m) := by
    rw [Row.cid, Message.getCid, hm]
    rfl
  simpa [this] using hcid.symm

theorem getCid_ne_of_record (h : Holds tenant m s) {recordId : String} {e : StoredMessage}
    (he : e ∈ query (s.messages tenant) [recordFilter recordId]) :
    Message.getCid e ≠ Message.getCid (ModulesConfigure.stored m) := by
  obtain ⟨wf, r, hr, hm⟩ := h
  obtain ⟨row, hrow, rfl⟩ := (mem_query_record wf).mp he
  obtain ⟨hlog, hbelongs⟩ := mem_recordRows.mp hrow
  intro hcid
  have heq : row = r := wf.eq_of_cid hlog hr (by
    rw [Row.cid, Row.cid, hcid, Message.getCid, Message.getCid, hm]
    rfl)
  simp [StoredMessage.belongsTo, heq, hm] at hbelongs

theorem holds_purgeInvalidInitialWrite (write : RecordsWriteMessage) :
    Program.Preserves (Holds tenant m) (purgeInvalidInitialWrite deps tenant write) := by
  unfold purgeInvalidInitialWrite
  split
  · exact Program.moves_pure _
  · refine Program.preserves_read_bind fun s hs => ?_
    split
    · exact Program.moves_pure _
    · refine Program.preserves_read_bind fun s hs => ?_
      split
      · exact Program.moves_pure _
      · refine Program.moves_bind ?_ fun _ => Program.moves_pure _
        unfold StorageController.purgeRecordMessages
        split
        · exact Program.moves_throw _
        · refine Program.moves_bind (Program.preserves_mutate ?_) fun _ => ?_
          · intro s a t hok hs
            cases hok
            exact hs
          · refine Program.preserves_forEach_mem fun c hc => ?_
            obtain ⟨e, he, rfl⟩ := List.mem_map.mp hc
            exact holds_delete (getCid_ne_of_record hs he)

theorem holds_purgeRecords (writes : List RecordsWriteMessage) (checked : List String) :
    Program.Preserves (Holds tenant m) (purgeRecords deps tenant writes checked) := by
  induction writes generalizing checked with
  | nil => exact Program.moves_pure ()
  | cons write writes ih =>
    unfold purgeRecords
    split
    · exact ih _
    · exact Program.moves_bind (holds_purgeInvalidInitialWrite write) fun _ => ih _

end Retry

/-! ## Purges -/

def size (tenant : Did) (s : Stores) : Nat := (s.messages tenant).rows.length

/-- A run that mutates at all ends with fewer rows than any state before its end. -/
def Sheds {α : Type} (tenant : Did) (p : Task α) (s : Stores) : Prop :=
  p.trail s = [] ∨ ∃ before last, p.trail s = before ++ [last] ∧
    ∀ x ∈ s :: before, size tenant last < size tenant x

section Sheds
variable {deps : ModulesConfigureDependencies} {tenant : Did} {m : ModulesConfigureMessage}
  {s : Stores} {α β : Type}

theorem Sheds.final_le {p : Task α} (h : Sheds tenant p s) {x : Stores} (hx : x ∈ p.cuts s) :
    size tenant (p.final s) ≤ size tenant x := by
  unfold Program.cuts at hx
  unfold Program.final
  obtain hnil | ⟨before, last, htrail, hlt⟩ := h
  · rw [hnil] at hx ⊢
    rw [List.mem_singleton.mp hx]
    rfl
  · rw [htrail] at hx ⊢
    simp only [List.getLastD_concat]
    cases List.mem_append.mp (List.cons_append ▸ hx) with
    | inl hx => exact (hlt x hx).le
    | inr hx => rw [List.mem_singleton.mp hx]

theorem Sheds.bind {p : Task α} {f : α → Task β} (hp : Sheds tenant p s)
    (hf : ∀ a, p.result s = .ok a → Sheds tenant (f a) (p.final s)) : Sheds tenant (p >>= f) s := by
  cases hresult : p.result s with
  | error e =>
    rw [Sheds, Program.trail_bind_error hresult]
    exact hp
  | ok a =>
    rw [Sheds, Program.trail_bind_ok hresult]
    obtain hnil | ⟨before, last, htrail, hlt⟩ := hf a hresult
    · rw [hnil, List.append_nil]
      exact hp
    · refine Or.inr ⟨p.trail s ++ before, last, by rw [htrail, List.append_assoc], fun x hx => ?_⟩
      cases List.mem_append.mp (List.cons_append ▸ hx) with
      | inl hx => exact lt_of_lt_of_le (hlt _ List.mem_cons_self) (hp.final_le hx)
      | inr hx => exact hlt x (List.mem_cons_of_mem _ hx)

theorem sheds_of_silent {p : Task α} (h : p.trail s = []) : Sheds tenant p s := Or.inl h

variable (tenant s) in
theorem sheds_deleteMessages {cids : List Cid} (hnodup : cids.Nodup)
    (hstored : ∀ c ∈ cids, ∃ r ∈ (s.messages tenant).rows, r.cid = c) :
    Sheds tenant (Program.forEach (Stores.deleteMessage tenant) cids) s ∧
      (cids ≠ [] → (Program.forEach (Stores.deleteMessage tenant) cids).trail s ≠ []) := by
  induction cids generalizing s with
  | nil => exact ⟨Or.inl rfl, fun h => absurd rfl h⟩
  | cons c cids ih =>
    obtain ⟨hc, hnodup⟩ := List.nodup_cons.mp hnodup
    obtain ⟨r, hr, hcid⟩ := hstored c (by simp)
    have hone : Sheds tenant (Stores.deleteMessage tenant c) s := by
      refine Or.inr ⟨[], _, Stores.trail_deleteMessage tenant c s, fun x hx => ?_⟩
      rw [List.mem_singleton.mp hx, size, size, Stores.messages_setLog]
      refine List.length_filter_lt_length_iff_exists.mpr ⟨r, hr, ?_⟩
      simp [hcid]
    have hrest := fun hstored => ih (s := s.setLog tenant (delete (s.messages tenant) c)) hnodup hstored
    rw [Stores.messages_setLog] at hrest
    have hkept : ∀ c' ∈ cids, ∃ r ∈ (delete (s.messages tenant) c).rows, r.cid = c' := by
      intro c' hc'
      obtain ⟨r', hr', hcid'⟩ := hstored c' (by simp [hc'])
      refine ⟨r', List.mem_filter.mpr ⟨hr', ?_⟩, hcid'⟩
      simp only [hcid', decide_eq_true_eq]
      rintro rfl
      exact hc hc'
    refine ⟨hone.bind fun _ _ => ?_, fun _ => ?_⟩
    · rw [Stores.final_deleteMessage]
      exact (hrest hkept).1
    · rw [Program.forEach, Program.trail_bind_ok (Stores.result_deleteMessage tenant c s)]
      simp

theorem sheds_purgeRecordMessages (h : Holds tenant m s) {recordId : String}
    (hne : query (s.messages tenant) [recordFilter recordId] ≠ []) :
    Sheds tenant (StorageController.purgeRecordMessages tenant
      (query (s.messages tenant) [recordFilter recordId])) s := by
  unfold StorageController.purgeRecordMessages
  split
  · exact sheds_of_silent rfl
  · obtain ⟨wf, -⟩ := h
    next w _ =>
    generalize hd : ({ s with data := s.data.delete ⟨tenant, w.recordId, w.descriptor.dataCid⟩ } :
      Stores) = d
    have hlog : d.messages = s.messages := by rw [← hd]
    obtain ⟨hsheds, hnonempty⟩ := sheds_deleteMessages tenant d
      (nodup_query wf [recordFilter recordId]) (by
        intro c hc
        obtain ⟨e, he, rfl⟩ := List.mem_map.mp hc
        obtain ⟨r, hr, rfl⟩ := mem_query.mp he
        exact ⟨r, by rw [hlog]; exact (List.mem_filter.mp hr).1, rfl⟩)
    -- The data goes first and leaves the number of rows as it is.
    rw [Sheds, Program.trail_bind_ok (Stores.result_deleteData _ s), Stores.trail_deleteData,
      Stores.final_deleteData, hd]
    obtain hnil | ⟨before, last, htrail, hlt⟩ := hsheds
    · exact absurd hnil (hnonempty (by simpa using hne))
    · refine Or.inr ⟨d :: before, last, by rw [htrail]; rfl, fun x hx => ?_⟩
      cases List.mem_cons.mp hx with
      | inl heq =>
        have := hlt d List.mem_cons_self
        rwa [heq, size, size, ← hlog]
      | inr hx => exact hlt x hx

theorem sheds_purgeInvalidInitialWrite (h : Holds tenant m s) (write : RecordsWriteMessage) :
    Sheds tenant (purgeInvalidInitialWrite deps tenant write) s := by
  unfold purgeInvalidInitialWrite
  split
  · exact sheds_of_silent rfl
  · refine Sheds.bind (sheds_of_silent rfl) fun validity _ => ?_
    split
    · exact sheds_of_silent rfl
    · refine Sheds.bind (sheds_of_silent rfl) fun messages hmessages => ?_
      simp only [Stores.result_query, Program.final_read, Except.ok.injEq] at hmessages
      subst hmessages
      split
      · exact sheds_of_silent rfl
      · next hne =>
        refine Sheds.bind (sheds_purgeRecordMessages h ?_) fun _ _ => sheds_of_silent rfl
        simpa using hne

theorem sheds_purgeRecords (h : Holds tenant m s) (writes : List RecordsWriteMessage)
    (checked : List String) : Sheds tenant (purgeRecords deps tenant writes checked) s := by
  induction writes generalizing checked s with
  | nil => exact sheds_of_silent rfl
  | cons write writes ih =>
    unfold purgeRecords
    split
    · exact ih h _
    · exact Sheds.bind (sheds_purgeInvalidInitialWrite h write) fun _ _ =>
        ih ((holds_purgeInvalidInitialWrite write).of_final h) _

end Sheds

/-! ## The mutations that were cut off -/

/-- The first initial write of each record, in the order of the writes. -/
def initialWrites : List RecordsWriteMessage → List String → List RecordsWriteMessage
  | [], _ => []
  | write :: writes, checked =>
    if write.recordId ∈ checked then initialWrites writes checked
    else if RecordsWrite.isInitialWrite write then
      write :: initialWrites writes (write.recordId :: checked)
    else initialWrites writes checked

def existing (tenant : Did) (m : ModulesConfigureMessage) (s : Stores) : List StoredMessage :=
  query (s.messages tenant) [configureFilter m.descriptor.definitionModule]

def displacedBy (tenant : Did) (m : ModulesConfigureMessage) (s : Stores) : List StoredMessage :=
  displacedConfigurations m (existing tenant m s)

def withRow (tenant : Did) (m : ModulesConfigureMessage) (s : Stores) : Log :=
  { rows := (s.messages tenant).rows ++ [newRow (s.messages tenant) (ModulesConfigure.stored m)
      (ModulesConfigure.constructIndexes m (incomingMessageIsNewest m (existing tenant m s)))]
    head := (s.messages tenant).head + 1 }

/-- The stores once the configuration is in place and the displaced ones are historical. -/
def installed (tenant : Did) (m : ModulesConfigureMessage) (s : Stores) : Stores :=
  s.setLog tenant (demoteAll (displacedBy tenant m s) (withRow tenant m s))

/-- With the configuration in place, no stored record of the module is to be purged. -/
def PurgesNothing (deps : ModulesConfigureDependencies) (tenant : Did) (m : ModulesConfigureMessage)
    (s : Stores) : Prop :=
  deps.hasDataStore = true →
    ∀ write ∈ initialWrites ((query (s.messages tenant)
        [recordsWriteFilter m.descriptor.definitionModule]).filterMap
          StoredMessage.asRecordsWrite) [],
      deps.getStoredInitialWriteConfigValidity (installed tenant m s) tenant write ≠ .invalid

/-- The displaced configurations from the given one on are historical before the message
arrives. -/
def HistoricalFrom (tenant : Did) (m : ModulesConfigureMessage) (s : Stores) (k : Nat) : Prop :=
  ∀ r ∈ (s.messages tenant).rows, r.message ∈ (displacedBy tenant m s).drop k → r.isLatest = false

def Accepted (deps : ModulesConfigureDependencies) (tenant : Did) (m : ModulesConfigureMessage)
    (s : Stores) : Prop :=
  ∃ reply, (handle deps tenant m).result s = .ok reply ∧ reply.status.code = 202

section CutOff
variable {deps : ModulesConfigureDependencies} {tenant : Did} {m : ModulesConfigureMessage}
  {s : Stores}

theorem trail_purge_ne_nil (wf : (s.messages tenant).WellFormed) {write : RecordsWriteMessage}
    (hstored : ∃ r ∈ (s.messages tenant).rows, r.message.message = .recordsWrite write) :
    query (s.messages tenant) [recordFilter write.recordId] ≠ [] ∧
      (StorageController.purgeRecordMessages tenant
        (query (s.messages tenant) [recordFilter write.recordId])).trail s ≠ [] := by
  obtain ⟨r, hr, hm⟩ := hstored
  have hmem : r.message ∈ query (s.messages tenant) [recordFilter write.recordId] := by
    refine (mem_query_record wf).mpr ⟨r, mem_recordRows.mpr ⟨hr, ?_⟩, rfl⟩
    simp [StoredMessage.belongsTo, hm]
  have hne := List.ne_nil_of_mem hmem
  refine ⟨hne, ?_⟩
  have hwrite : r.message ∈
      (query (s.messages tenant) [recordFilter write.recordId]).filter
        StoredMessage.isRecordsWrite := by
    refine List.mem_filter.mpr ⟨hmem, ?_⟩
    simp [StoredMessage.isRecordsWrite, Records.isRecordsWrite, hm]
  have hnewest : Records.getNewestRecordsWrite
      (query (s.messages tenant) [recordFilter write.recordId]) ≠ none := by
    unfold Records.getNewestRecordsWrite
    cases hn : Message.getNewestMessage
        ((query (s.messages tenant) [recordFilter write.recordId]).filter
          StoredMessage.isRecordsWrite) with
    | none =>
      rw [Message.getNewestMessage_eq_none] at hn
      rw [hn] at hwrite
      cases hwrite
    | some n =>
      have hn' := (List.mem_filter.mp (Message.getNewestMessage_eq_some hn).1).2
      unfold StoredMessage.isRecordsWrite Records.isRecordsWrite at hn'
      cases hmessage : n.message <;> simp_all [StoredMessage.asRecordsWrite]
  unfold StorageController.purgeRecordMessages
  split
  · next hnone => exact absurd hnone hnewest
  · rw [Program.trail_bind_ok (Stores.result_deleteData _ s)]
    simp

theorem trail_purgeRecords_eq_nil_iff (wf : (s.messages tenant).WellFormed)
    (writes : List RecordsWriteMessage) (checked : List String)
    (hstored : ∀ write ∈ writes,
      ∃ r ∈ (s.messages tenant).rows, r.message.message = .recordsWrite write) :
    (purgeRecords deps tenant writes checked).trail s = [] ↔
      ∀ write ∈ initialWrites writes checked,
        deps.getStoredInitialWriteConfigValidity s tenant write ≠ .invalid := by
  induction writes generalizing checked with
  | nil => simp [purgeRecords, initialWrites]
  | cons write writes ih =>
    have ih := fun checked => ih checked fun write hwrite => hstored write (by simp [hwrite])
    unfold purgeRecords initialWrites
    by_cases hchecked : write.recordId ∈ checked
    · simp only [if_pos hchecked]
      exact ih checked
    · simp only [if_neg hchecked]
      cases hinitial : RecordsWrite.isInitialWrite write with
      | false =>
        have hskip : purgeInvalidInitialWrite deps tenant write = pure false := by
          simp [purgeInvalidInitialWrite, hinitial]
        rw [hskip, Program.trail_bind_ok (Program.result_pure s false)]
        simpa using ih checked
      | true =>
        by_cases hinvalid : deps.getStoredInitialWriteConfigValidity s tenant write = .invalid
        · obtain ⟨hne, htrail⟩ := trail_purge_ne_nil wf (hstored write (by simp))
          have hmutates : (purgeInvalidInitialWrite deps tenant write).trail s ≠ [] := by
            simp only [purgeInvalidInitialWrite, hinitial, Bool.not_true, Bool.false_eq_true, if_false]
            rw [Program.trail_bind_ok (Program.result_read s _), hinvalid]
            simp only [Program.trail_read, List.nil_append, Program.final_read, ne_eq, not_true,
              if_false]
            rw [Program.trail_bind_ok (Stores.result_query tenant _ s)]
            simp only [Stores.trail_query, List.nil_append, Stores.final_query]
            have hnonempty : (query (s.messages tenant) [recordFilter write.recordId]).isEmpty =
                false := by simpa using hne
            rw [hnonempty]
            exact Program.trail_bind_ne_nil htrail
          have hleft := Program.trail_bind_ne_nil (f := fun checked' => purgeRecords deps tenant
            writes (if checked' then write.recordId :: checked else checked)) hmutates
          constructor
          · intro hnil
            exact absurd hnil hleft
          · intro hall
            exact absurd hinvalid (hall write (by simp))
        · have hpass : (purgeInvalidInitialWrite deps tenant write).trail s = [] ∧
              (purgeInvalidInitialWrite deps tenant write).result s = .ok true := by
            simp only [purgeInvalidInitialWrite, hinitial, Bool.not_true, Bool.false_eq_true,
              if_false]
            rw [Program.trail_bind_ok (Program.result_read s _),
              Program.result_bind_ok (Program.result_read s _)]
            simp [hinvalid]
          rw [Program.trail_bind_ok hpass.2, hpass.1, List.nil_append, Program.final, hpass.1]
          simpa [hinvalid] using ih (write.recordId :: checked)

theorem admission_error_code {reply : Reply} (h : admission deps tenant m s = .error reply) :
    reply.status.code ≠ 202 := by
  have horReply : ∀ {α : Type} {r : Except Failure α} {code : Nat} {reply : Reply},
      RecordsWriteHandler.orReply r code = .error reply → reply.status.code = code := by
    intro α r code reply h
    cases r with
    | ok a => cases h
    | error e =>
      cases h
      cases e <;> rfl
  unfold admission at h
  obtain h | ⟨_, -, h⟩ := bind_eq_error h
  · simp [horReply h]
  obtain h | ⟨_, -, h⟩ := bind_eq_error h
  · simp [horReply h]
  obtain h | ⟨_, -, h⟩ := bind_eq_error h
  · simp [horReply h]
  obtain h | ⟨_, -, h⟩ := bind_eq_error h
  · simp [horReply h]
  split at h
  · cases h
    simp [conflict]
  · unfold admitUpdate at h
    obtain h | ⟨_, -, h⟩ := bind_eq_error h
    · simp [horReply h]
    obtain h | ⟨_, -, h⟩ := bind_eq_error h
    · simp [horReply h]
    cases h

/-- An accepted message passes the checks, and its run is the put and what follows. -/
theorem exists_admission (h : Accepted deps tenant m s) :
    ∃ a, admission deps tenant m s = .ok a ∧
      (handle deps tenant m).trail s = (install deps tenant m a).trail s ∧
      ∃ reply, (install deps tenant m a).result s = .ok reply := by
  obtain ⟨reply, hresult, hcode⟩ := h
  rw [handle, Program.result_bind_ok (Program.result_read s _)] at hresult
  cases hadmission : admission deps tenant m s with
  | error refusal =>
    rw [hadmission] at hresult
    cases hresult
    exact absurd hcode (admission_error_code hadmission)
  | ok a =>
    rw [hadmission] at hresult
    refine ⟨a, rfl, ?_, reply, hresult⟩
    rw [handle, Program.trail_bind_ok (Program.result_read s _), hadmission]
    rfl

def Identifies (tenant : Did) (m : ModulesConfigureMessage) (s : Stores) : Prop :=
  ∀ r ∈ (s.messages tenant).rows, r.cid = Message.getCid (ModulesConfigure.stored m) →
    r.message.message = .modulesConfigure m

theorem put_installs (wf : (s.messages tenant).WellFormed) (hcid : Identifies tenant m s)
    {a : Admission} (ha : admission deps tenant m s = .ok a) {result : PutResult} {log' : Log}
    (hput : putConfiguration m a.existingMessages (s.messages tenant) = .ok (result, log')) :
    log' = withRow tenant m s ∧ (withRow tenant m s).WellFormed := by
  obtain ⟨hexisting, hfresh, -⟩ := admission_eq_ok ha
  have hwf := wellFormed_put wf hput
  obtain ⟨⟨r, hr, heq⟩, -⟩ | ⟨-, hlog⟩ := put_cases hput
  · have hdup := isDuplicate_of_holds (show Holds tenant m s from ⟨wf, r, hr, hcid r hr heq⟩)
    rw [hexisting, hdup] at hfresh
    cases hfresh
  · rw [hexisting] at hlog
    have hrow : log' = withRow tenant m s := hlog
    exact ⟨hrow, hrow ▸ hwf⟩

theorem mem_existing_of_displaced {e : StoredMessage} (he : e ∈ displacedBy tenant m s) :
    e ∈ existing tenant m s := by
  unfold displacedBy displacedConfigurations at he
  split at he
  · exact he
  · exact (List.mem_filter.mp he).1

theorem stored_displaced (wf : (s.messages tenant).WellFormed) {e : StoredMessage}
    (he : e ∈ displacedBy tenant m s) : Stored (withRow tenant m s) e := by
  obtain ⟨r, hr, rfl⟩ := (mem_existing wf).mp (mem_existing_of_displaced he)
  obtain ⟨hlog, hconf⟩ := mem_configureRows.mp hr
  obtain ⟨c, hc, -⟩ := StoredMessage.configures_eq_true.mp hconf
  exact ⟨r, List.mem_append_left _ hlog, rfl, c, hc⟩

theorem nodup_displaced (wf : (s.messages tenant).WellFormed) :
    ((displacedBy tenant m s).map Message.getCid).Nodup := by
  have hnodup := nodup_query wf [configureFilter m.descriptor.definitionModule]
  unfold displacedBy displacedConfigurations
  split
  · exact hnodup
  · exact hnodup.sublist (List.filter_sublist.map _)

/-- The remaining demotions change nothing exactly when they name historical rows. -/
theorem demotions_eq_iff (wf : (s.messages tenant).WellFormed)
    (hwf : (withRow tenant m s).WellFormed)
    (hfresh : isDuplicate m (existing tenant m s) = false) (j : Nat) :
    demoteAll ((displacedBy tenant m s).take j) (withRow tenant m s) =
        demoteAll (displacedBy tenant m s) (withRow tenant m s) ↔
      HistoricalFrom tenant m s j := by
  generalize hes : displacedBy tenant m s = es
  have hstored : ∀ e ∈ es, Stored (withRow tenant m s) e :=
    fun e he => stored_displaced wf (hes ▸ he)
  have hsplit : demoteAll es (withRow tenant m s) =
      demoteAll (es.drop j) (demoteAll (es.take j) (withRow tenant m s)) := by
    rw [← demoteAll_append, List.take_append_drop]
  have htake : ∀ e ∈ es.take j, Stored (withRow tenant m s) e :=
    fun e he => hstored e (List.mem_of_mem_take he)
  rw [hsplit, eq_comm, demoteAll_eq_self_iff (wellFormed_demoteAll hwf htake) fun e he =>
    (hstored e (List.mem_of_mem_drop he)).demoteAll]
  have hconf : ∀ e ∈ es.take j, ∃ c, e.message = .modulesConfigure c := by
    intro e he
    obtain ⟨-, -, -, hc⟩ := htake e he
    exact hc
  -- A row that is still to be demoted has not been demoted before.
  have hflag : ∀ r : Row, r.message ∈ es.drop j →
      (demoteRow (es.take j) r).isLatest = r.isLatest := by
    intro r hr
    have hnodup := nodup_displaced (m := m) wf
    rw [hes, ← List.take_append_drop j es, List.map_append, List.nodup_append] at hnodup
    have hnot : r.cid ∉ (es.take j).map Message.getCid := fun hin =>
      hnodup.2.2 _ hin _ (List.mem_map.mpr ⟨_, hr, rfl⟩) rfl
    rw [isLatest_demoteRow hconf, decide_eq_true hnot, Bool.and_true]
  unfold HistoricalFrom
  rw [hes]
  constructor
  · intro h r hr hmem
    rw [← hflag r hmem]
    refine h _ (List.mem_map.mpr ⟨r, List.mem_append_left _ hr, rfl⟩) ?_
    rwa [message_demoteRow]
  · intro h r hr hmem
    obtain ⟨before, hbefore, rfl⟩ := List.mem_map.mp hr
    rw [message_demoteRow] at hmem
    rw [hflag before hmem]
    cases List.mem_append.mp hbefore with
    | inl hold => exact h before hold hmem
    | inr hnew =>
      have hmessage : before.message = ModulesConfigure.stored m := by
        rw [List.mem_singleton.mp hnew]
        rfl
      have hexisting := mem_existing_of_displaced (hes ▸ List.mem_of_mem_drop hmem)
      have hdup : isDuplicate m (existing tenant m s) = true :=
        List.any_eq_true.mpr ⟨_, hexisting, by simp [hmessage]⟩
      rw [hdup] at hfresh
      cases hfresh

end CutOff

/-! ## The run as a whole -/

section Run
variable {deps : ModulesConfigureDependencies} {tenant : Did} {m : ModulesConfigureMessage}
  {s : Stores}

theorem recordsWriteFilter_of_configure {r : Row} (h : r.Indexed) {c : ModulesConfigureMessage}
    (hc : r.message.message = .modulesConfigure c) (module : String) :
    FilterUtility.matchAnyFilter r.indexes [recordsWriteFilter module] = false := by
  simp only [Row.Indexed, hc] at h
  obtain ⟨latest, h⟩ := h
  simp [h, recordsWriteFilter, Filters.equalText, ModulesConfigure.constructIndexes]

theorem demoteRow_of_kept {log : Log} (wf : log.WellFormed) {es : List StoredMessage}
    (hes : ∀ e ∈ es, Stored log e) {r : Row} (hr : r ∈ log.rows) (hkept : r.message ∉ es) :
    demoteRow es r = r := by
  induction es with
  | nil => rfl
  | cons e es ih =>
    rw [List.mem_cons, not_or] at hkept
    have hstep : demoteRow (e :: es) r = demoteRow es (historicalOf e r) := rfl
    rw [hstep, historicalOf_of_historical wf (hes e (by simp)) hr fun heq => absurd heq hkept.1]
    exact ih (fun e' he' => hes e' (by simp [he'])) hkept.2

theorem query_recordsWrites (wf : (s.messages tenant).WellFormed)
    (hwf : (withRow tenant m s).WellFormed) (module : String) :
    query ((installed tenant m s).messages tenant) [recordsWriteFilter module] =
      query (s.messages tenant) [recordsWriteFilter module] := by
  have hstored : ∀ e ∈ displacedBy tenant m s, Stored (withRow tenant m s) e :=
    fun e he => stored_displaced wf he
  have hwf' := wellFormed_demoteAll hwf hstored
  have hmatching : matching (demoteAll (displacedBy tenant m s) (withRow tenant m s))
      [recordsWriteFilter module] = matching (s.messages tenant) [recordsWriteFilter module] := by
    have hsame : ∀ r ∈ (withRow tenant m s).rows,
        demoteRow (displacedBy tenant m s) r = r ∨
          FilterUtility.matchAnyFilter r.indexes [recordsWriteFilter module] = false ∧
          FilterUtility.matchAnyFilter (demoteRow (displacedBy tenant m s) r).indexes
            [recordsWriteFilter module] = false := by
      intro r hr
      by_cases hc : ∃ c, r.message.message = .modulesConfigure c
      · obtain ⟨c, hc⟩ := hc
        refine Or.inr ⟨recordsWriteFilter_of_configure (hwf.indexed r hr) hc module, ?_⟩
        refine recordsWriteFilter_of_configure
          (hwf'.indexed _ (List.mem_map.mpr ⟨r, hr, rfl⟩)) (c := c) ?_ module
        rwa [message_demoteRow]
      · refine Or.inl (demoteRow_of_kept hwf hstored hr fun hmem => hc ?_)
        obtain ⟨-, -, -, hconf⟩ := hstored _ hmem
        exact hconf
    have hfilter : ∀ rows : List Row, rows ⊆ (withRow tenant m s).rows →
        (rows.map (demoteRow (displacedBy tenant m s))).filter
          (fun r => FilterUtility.matchAnyFilter r.indexes [recordsWriteFilter module]) =
        rows.filter fun r => FilterUtility.matchAnyFilter r.indexes [recordsWriteFilter module] := by
      intro rows hrows
      induction rows with
      | nil => rfl
      | cons r rows ih =>
        have ih := ih fun x hx => hrows (List.mem_cons_of_mem _ hx)
        obtain heq | ⟨hbefore, hafter⟩ := hsame r (hrows List.mem_cons_self)
        · rw [List.map_cons, heq, List.filter_cons, List.filter_cons, ih]
        · rw [List.map_cons, List.filter_cons_of_neg (by simpa using hafter),
            List.filter_cons_of_neg (by simpa using hbefore), ih]
    refine (hfilter _ fun _ hx => hx).trans ?_
    have hnew := recordsWriteFilter_of_configure (hwf.indexed _ (List.mem_append_right _
      (List.mem_singleton.mpr rfl))) (c := m) rfl module
    rw [matching, withRow, List.filter_append, List.filter_cons_of_neg (by simpa using hnew),
      List.filter_nil, List.append_nil]
  rw [query, query, installed, Stores.messages_setLog, hmatching]

theorem stored_of_query (wf : (s.messages tenant).WellFormed)
    (hwf : (withRow tenant m s).WellFormed) {module : String} {write : RecordsWriteMessage}
    (hwrite : write ∈ (query (s.messages tenant) [recordsWriteFilter module]).filterMap
      StoredMessage.asRecordsWrite) :
    ∃ r ∈ ((installed tenant m s).messages tenant).rows,
      r.message.message = .recordsWrite write := by
  obtain ⟨e, he, hw⟩ := List.mem_filterMap.mp hwrite
  rw [← query_recordsWrites wf hwf] at he
  obtain ⟨r, hr, rfl⟩ := mem_query.mp he
  exact ⟨r, (List.mem_filter.mp hr).1, StorageController.asRecordsWrite_eq_some.mp hw⟩

/-- The run after the demotions purges nothing exactly when nothing is to be purged. -/
theorem purge_spec (wf : (s.messages tenant).WellFormed) (hwf : (withRow tenant m s).WellFormed)
    {a : Admission} (ha : admission deps tenant m s = .ok a) :
    ∃ writes, (purgeRecordsInvalidatedByModuleConfig deps tenant (deps.definition m).module
        a.prefetchedRecordsWrites).trail (installed tenant m s) =
        (purgeRecords deps tenant writes []).trail (installed tenant m s) ∧
      ((purgeRecords deps tenant writes []).trail (installed tenant m s) = [] ↔
        PurgesNothing deps tenant m s) := by
  obtain ⟨-, -, hprefetched⟩ := admission_eq_ok ha
  have hstored := wellFormed_demoteAll hwf fun e he => stored_displaced (m := m) wf he
  unfold purgeRecordsInvalidatedByModuleConfig PurgesNothing
  cases hdata : deps.hasDataStore with
  | false =>
    refine ⟨[], ?_, ?_⟩
    · rfl
    · simp [purgeRecords]
  | true =>
    refine ⟨(query (s.messages tenant) [recordsWriteFilter m.descriptor.definitionModule]).filterMap
      StoredMessage.asRecordsWrite, ?_, ?_⟩
    · simp only [Bool.not_true, Bool.false_eq_true, if_false]
      cases hpre : a.prefetchedRecordsWrites with
      | some messages =>
        rw [hprefetched messages hpre, Program.trail_bind_ok (Program.result_pure _ _)]
        rfl
      | none =>
        rw [Program.trail_bind_ok (Stores.result_query _ _ _), deps.definition_module,
          query_recordsWrites wf hwf]
        rfl
    · rw [trail_purgeRecords_eq_nil_iff (by rwa [installed, Stores.messages_setLog]) _ _
        fun write hwrite => stored_of_query wf hwf hwrite]
      simp

/-- The demotions lead from the log with the new row to the installed configuration. -/
theorem final_demotions (wf : (s.messages tenant).WellFormed)
    (hwf : (withRow tenant m s).WellFormed) :
    (Program.forEach (markConfigurationHistorical tenant) (displacedBy tenant m s)).final
      (s.setLog tenant (withRow tenant m s)) = installed tenant m s := by
  obtain ⟨-, hdemotions⟩ := demotions tenant s hwf fun e he =>
    stored_displaced (m := m) wf he
  rw [Program.final, hdemotions]
  cases hn : (displacedBy tenant m s).length with
  | zero =>
    rw [List.length_eq_zero_iff] at hn
    simp [installed, hn]
  | succ n =>
    rw [List.range_succ, List.map_append, List.map_singleton, List.getLastD_concat, ← hn,
      List.take_length]
    rfl

theorem trail_handle (wf : (s.messages tenant).WellFormed) (hcid : Identifies tenant m s)
    (haccepted : Accepted deps tenant m s) :
    (withRow tenant m s).WellFormed ∧ isDuplicate m (existing tenant m s) = false ∧
      ∃ writes, (handle deps tenant m).trail s =
          ((List.range ((displacedBy tenant m s).length + 1)).map fun j =>
            s.setLog tenant (demoteAll ((displacedBy tenant m s).take j) (withRow tenant m s))) ++
          (purgeRecords deps tenant writes []).trail (installed tenant m s) ∧
        ((purgeRecords deps tenant writes []).trail (installed tenant m s) = [] ↔
          PurgesNothing deps tenant m s) := by
  obtain ⟨a, ha, htrail, reply, hreply⟩ := exists_admission haccepted
  obtain ⟨hexisting, hfresh, -⟩ := admission_eq_ok ha
  unfold install at htrail hreply
  obtain ⟨putResult, hput, -⟩ := Program.bind_eq_ok hreply
  cases hok : putConfiguration m a.existingMessages (s.messages tenant) with
  | error e =>
    have := Program.result_mutate_error (s := s) (f := fun s : Stores =>
      (putConfiguration m a.existingMessages (s.messages tenant)).map fun r =>
        (r.1, s.setLog tenant r.2)) (e := e) (by simp only [hok, Except.map])
    rw [Stores.withLog, this] at hput
    cases hput
  | ok r =>
    obtain ⟨result, log'⟩ := r
    obtain ⟨rfl, hwf⟩ := put_installs wf hcid ha hok
    have hmutate : (fun s : Stores =>
        (putConfiguration m a.existingMessages (s.messages tenant)).map fun r =>
          (r.1, s.setLog tenant r.2)) s = .ok (result, s.setLog tenant (withRow tenant m s)) := by
      simp only [hok, Except.map]
    obtain ⟨hresult, hdemotions⟩ := demotions tenant s hwf fun e he =>
      stored_displaced (m := m) wf he
    have hes : displacedConfigurations m a.existingMessages = displacedBy tenant m s := by
      rw [hexisting]
      rfl
    have hfinal := final_demotions (m := m) wf hwf
    obtain ⟨writes, hpurge, hiff⟩ := purge_spec wf hwf ha
    rw [hexisting] at hfresh
    refine ⟨hwf, hfresh, writes, ?_, hiff⟩
    rw [htrail, Stores.withLog, Program.trail_bind_ok (Program.result_mutate_ok hmutate),
      Program.trail_mutate_ok hmutate, Program.final_mutate_ok hmutate, hes,
      Program.trail_bind_ok hresult, hdemotions, hfinal, List.range_succ_eq_map, List.map_cons,
      List.map_map, List.take_zero, demoteAll_nil, List.cons_append, List.cons_append,
      List.nil_append]
    congr 2
    rw [← hpurge]
    cases hend : (purgeRecordsInvalidatedByModuleConfig deps tenant (deps.definition m).module
        a.prefetchedRecordsWrites).result (installed tenant m s) with
    | ok _ =>
      rw [Program.trail_bind_ok hend]
      simp
    | error e => rw [Program.trail_bind_error hend]

theorem holds_demoted (hwf : (withRow tenant m s).WellFormed)
    (wf : (s.messages tenant).WellFormed) (j : Nat) :
    Holds tenant m
      (s.setLog tenant (demoteAll ((displacedBy tenant m s).take j) (withRow tenant m s))) := by
  rw [Holds, Stores.messages_setLog]
  refine ⟨wellFormed_demoteAll hwf fun e he =>
    stored_displaced (m := m) wf (List.mem_of_mem_take he), ?_⟩
  refine ⟨_, List.mem_map.mpr ⟨_, List.mem_append_right _ (List.mem_singleton.mpr rfl), rfl⟩, ?_⟩
  rw [message_demoteRow]
  rfl

theorem final_handle (wf : (s.messages tenant).WellFormed) (hcid : Identifies tenant m s)
    (haccepted : Accepted deps tenant m s) (hpurges : PurgesNothing deps tenant m s) :
    (handle deps tenant m).final s = installed tenant m s ∧ (withRow tenant m s).WellFormed ∧
      isDuplicate m (existing tenant m s) = false := by
  obtain ⟨hwf, hfresh, writes, htrail, hiff⟩ := trail_handle wf hcid haccepted
  refine ⟨?_, hwf, hfresh⟩
  rw [Program.final, htrail, hiff.mpr hpurges, List.append_nil, List.range_succ, List.map_append,
    List.map_singleton, List.getLastD_concat, List.take_length]
  rfl

/-- Cut off after `k` mutations and delivered again, a configuration ends where one uninterrupted
run ends exactly when nothing had been written yet, or when the demotions that were cut off name
historical rows and there is nothing to purge. -/
theorem retry_eq_run_iff (wf : (s.messages tenant).WellFormed) (hcid : Identifies tenant m s)
    (haccepted : Accepted deps tenant m s) {k : Nat} {cut : Stores}
    (hk : k < ((handle deps tenant m).trail s).length)
    (hcut : ((handle deps tenant m).cuts s)[k]? = some cut) :
    (handle deps tenant m).final cut = (handle deps tenant m).final s ↔
      k = 0 ∨ PurgesNothing deps tenant m s ∧ HistoricalFrom tenant m s (k - 1) := by
  obtain ⟨hwf, hfresh, writes, htrail, hpurges⟩ := trail_handle wf hcid haccepted
  have hinstalled : Holds tenant m (installed tenant m s) := by
    have := holds_demoted hwf wf (displacedBy tenant m s).length
    rwa [List.take_length] at this
  cases k with
  | zero =>
    have heq : s = cut := by simpa [Program.cuts] using hcut
    simp [heq]
  | succ j =>
    rw [Program.cuts, List.getElem?_cons_succ, htrail] at hcut
    rw [htrail] at hk
    have hholds : Holds tenant m cut := by
      cases List.mem_append.mp (List.mem_of_getElem? hcut) with
      | inl hmem =>
        obtain ⟨i, -, rfl⟩ := List.mem_map.mp hmem
        exact holds_demoted hwf wf i
      | inr hmem => exact holds_purgeRecords writes [] _ _ hmem hinstalled
    rw [final_handle_of_holds hholds, Program.final, htrail]
    simp only [Nat.succ_ne_zero, Nat.add_sub_cancel, false_or]
    obtain hnil | ⟨before, last, hlast, hlt⟩ :=
      show Sheds tenant (purgeRecords deps tenant writes []) _ from
        sheds_purgeRecords hinstalled writes []
    · -- Nothing is purged: the run ends with the last demotion.
      rw [hnil, List.append_nil] at hcut hk ⊢
      rw [List.length_map, List.length_range] at hk
      have hcut' : cut =
          s.setLog tenant (demoteAll ((displacedBy tenant m s).take j) (withRow tenant m s)) := by
        rw [List.getElem?_map, List.getElem?_range (by omega)] at hcut
        exact (Option.some.inj hcut).symm
      rw [hcut', List.range_succ, List.map_append, List.map_singleton, List.getLastD_concat,
        List.take_length, setLog_inj, demotions_eq_iff wf hwf hfresh]
      exact ⟨fun h => ⟨hpurges.mp hnil, h⟩, fun h => h.2⟩
    · -- Rows are purged after the cut, so the cut has more of them than the end.
      have hmem : cut ∈ ((List.range ((displacedBy tenant m s).length + 1)).map fun j =>
          s.setLog tenant (demoteAll ((displacedBy tenant m s).take j) (withRow tenant m s))) ++
          before := by
        rw [hlast, ← List.append_assoc] at hcut hk
        rw [List.length_append, List.length_singleton] at hk
        rw [List.getElem?_append_left (by omega)] at hcut
        exact List.mem_of_getElem? hcut
      have hsize : size tenant last < size tenant cut := by
        cases List.mem_append.mp hmem with
        | inl hmem =>
          obtain ⟨i, -, rfl⟩ := List.mem_map.mp hmem
          have := hlt _ List.mem_cons_self
          simpa [size, installed, demoteAll] using this
        | inr hmem => exact hlt cut (List.mem_cons_of_mem _ hmem)
      rw [hlast, ← List.append_assoc, List.getLastD_concat]
      constructor
      · intro heq
        rw [heq] at hsize
        exact absurd hsize (lt_irrefl _)
      · intro h
        have hnil := hpurges.mpr h.1
        rw [hlast] at hnil
        exact absurd hnil (by simp)

end Run

end EnboxDwn.ConfigureRetry

namespace EnboxDwn.ConfigureRetry
open Journal ModulesConfigureHandler ConfigureLog

local instance : Platform := Platform.ofText

/-- Dependencies under which every configuration is empty and passes. -/
def permissive : ModulesConfigureDependencies where
  definition m := { module := m.descriptor.definitionModule }
  definition_module _ := rfl
  encrypted _ := false
  parse _ := .ok ()
  authenticate _ := .ok ()
  authorizeModulesConfigure _ _ _ := .ok ()
  normalizeModuleUrl := some
  coreModules _ := none
  callDepth := 3
  getStoredInitialWriteConfigValidity _ _ _ := .valid

def notes (signature : String) (messageTimestamp : Timestamp) : ModulesConfigureMessage where
  descriptor := { messageTimestamp, definitionModule := "notes", definitionPublished := true }
  authorization := { signature, signer := "alice" }

def notesRow (signature : String) (messageTimestamp : Timestamp) (latest : Bool) : Row :=
  MessageStore.newRow {} (ModulesConfigure.stored (notes signature messageTimestamp))
    (ModulesConfigure.constructIndexes (notes signature messageTimestamp) latest)

def twoVersions : Stores where
  messages _ := { rows := [notesRow "a" "1" false, notesRow "b" "2" true], head := 2 }

theorem wellFormed_twoVersions : (twoVersions.messages "alice").WellFormed where
  distinct := by decide
  indexed := by
    intro r hr
    simp only [twoVersions, List.mem_cons, List.not_mem_nil, or_false] at hr
    obtain rfl | rfl := hr
    · exact ⟨false, rfl⟩
    · exact ⟨true, rfl⟩
  scopes := by
    intro r hr
    simp only [twoVersions, List.mem_cons, List.not_mem_nil, or_false] at hr
    obtain rfl | rfl := hr
    · exact Replication.scopeSetsMatch_self _
    · exact Replication.scopeSetsMatch_self _

/-- An old configuration that is cut off after its put loses only a demotion without effect. -/
theorem retry_of_old : ∃ cut,
    ((handle permissive "alice" (notes "c" "0")).cuts twoVersions)[1]? = some cut ∧
      (handle permissive "alice" (notes "c" "0")).final cut =
        (handle permissive "alice" (notes "c" "0")).final twoVersions := by
  refine ⟨_, rfl, (retry_eq_run_iff (k := 1) wellFormed_twoVersions (fun r hr => ?_)
    ⟨_, rfl, by decide⟩ (by decide) rfl).mpr (Or.inr ⟨?_, ?_⟩)⟩
  · revert r
    decide
  · intro _ write _
    simp [permissive]
  · unfold HistoricalFrom
    decide

def oneVersion : Stores where
  messages _ := { rows := [notesRow "a" "1" true], head := 1 }

/-- Cut off between its put and its demotion, an update leaves two active configurations, and
delivering it again leaves them both. -/
theorem retry_leaves_two_active : ∃ cut,
    Accepted permissive "alice" (notes "b" "2") oneVersion ∧
      1 < ((handle permissive "alice" (notes "b" "2")).trail oneVersion).length ∧
      ((handle permissive "alice" (notes "b" "2")).cuts oneVersion)[1]? = some cut ∧
      (handle permissive "alice" (notes "b" "2")).final cut ≠
        (handle permissive "alice" (notes "b" "2")).final oneVersion ∧
      ((configureRows (((handle permissive "alice" (notes "b" "2")).final cut).messages "alice")
        "notes").filter Row.isLatest).length = 2 := by
  refine ⟨_, ⟨_, rfl, by decide⟩, by decide, rfl, fun heq => ?_,
    by decide⟩
  have hrows := congrArg (fun t : Stores => ((configureRows (t.messages "alice") "notes").filter
    Row.isLatest).length) heq
  revert hrows
  decide

end EnboxDwn.ConfigureRetry
