import EnboxDwn.BesideTombstone
import EnboxDwn.Convergence

/-! Order independence of the replication feed: the messages of one record, delivered one
at a time in any order after the initial write. -/
namespace EnboxDwn
open KeyValues Journal MessageStore StorageController TombstoneMachine

variable [P : Platform]

/-! ## Sets of messages and their orders of delivery -/

namespace Request

def apply (deps : ReplicationDependencies) (confirm : Bool) (tenant : Did) :
    Request → Task ReplicationApplyResult
  | .write m data => Dwn.applyReplicatedMessage deps tenant (.recordsWrite m) (some data) confirm
  | .delete m => Dwn.applyReplicatedMessage deps tenant (.recordsDelete m) none confirm

/-- The checks a message must pass when it is delivered after the initial write. -/
structure Deliverable (deps : ReplicationDependencies) (tenant : Did) (s : Stores) (r : Request) :
    Prop where
  passes : Dwn.Passes deps tenant r.message
  admissible : r.Admissible deps.toHandlerDependencies tenant s
  beside : ∀ m data, r = .write m data → BesideAdmissible deps tenant m data s

end Request

def deliverAll (deps : ReplicationDependencies) (confirm : Bool) (tenant : Did)
    (requests : List Request) (s : Stores) : Stores :=
  requests.foldl (fun s r => (r.apply deps confirm tenant).final s) s

theorem deliverAll_concat (deps : ReplicationDependencies) (confirm : Bool) (tenant : Did)
    (l : List Request) (r : Request) (s : Stores) :
    deliverAll deps confirm tenant (l ++ [r]) s =
      (r.apply deps confirm tenant).final (deliverAll deps confirm tenant l s) := by
  simp [deliverAll]

/-- Two logs agree on a record: the same messages, and the same indexes of the tombstone. -/
structure SameFeed (recordId : String) (a b : Log) : Prop where
  cids : ∀ c, c ∈ (recordRows a recordId).map Row.cid ↔ c ∈ (recordRows b recordId).map Row.cid
  tombstone : ∀ r ∈ recordRows a recordId, ∀ r' ∈ recordRows b recordId,
    r.message.isRecordsDelete = true → r'.message.isRecordsDelete = true → r.indexes = r'.indexes

namespace MessageSet
variable (ms : MessageSet)

def deliverInitial (deps : ReplicationDependencies) (confirm : Bool) (tenant : Did) (s : Stores) :
    Stores :=
  (Dwn.applyReplicatedMessage deps tenant (.recordsWrite ms.initial) ms.initialData confirm).final s

/-- Every message passes its checks at every point at which some order delivers it. -/
structure Delivers (deps : ReplicationDependencies) (confirm : Bool) (tenant : Did) (s : Stores) :
    Prop where
  passes : Dwn.Passes deps tenant (.recordsWrite ms.initial)
  initial : WriteAdmissible deps.toHandlerDependencies tenant ms.initial ms.initialData s
  others : ∀ l r, (r :: l).Subperm ms.others →
    recordRows ((deliverAll deps confirm tenant l
      (ms.deliverInitial deps confirm tenant s)).messages tenant) ms.initial.recordId ≠ [] →
    r.Deliverable deps tenant
      (deliverAll deps confirm tenant l (ms.deliverInitial deps confirm tenant s))

/-- No delete; or no update newer than the initial write, and one delete or a greatest
delete newer than the initial write; or one delete newer than the initial write and one
update newer than the delete that leaves the tombstone's scopes as they are, every other
update being older than the initial write. -/
def Agrees : Prop :=
  (∀ d, .delete d ∉ ms.others) ∨
  ∃ d, ms.IsWinner (.recordsDelete d) ∧
    (((∀ w data, .write w data ∈ ms.others → RecordsWrite.age w ≤ RecordsWrite.age ms.initial) ∧
        ((∀ d', .delete d' ∈ ms.others → d' = d) ∨
          RecordsWrite.age ms.initial < RecordsDelete.age d)) ∨
      ((∀ d', .delete d' ∈ ms.others → d' = d) ∧
        RecordsWrite.age ms.initial < RecordsDelete.age d ∧
        ∃ w data, .write w data ∈ ms.others ∧ RecordsDelete.age d < RecordsWrite.age w ∧
          (∀ x data', .write x data' ∈ ms.others →
            RecordsWrite.age x ≤ RecordsWrite.age ms.initial ∨ x = w) ∧
          tombScopes ms.initial w = tombScopes ms.initial ms.initial))

end MessageSet

/-! ## One delivery -/

namespace MessageSet
variable {ms : MessageSet} {deps : ReplicationDependencies} {confirm : Bool} {tenant : Did}
  {rank : String → Nat} {queryable : Bool} {pending : List Cid} {s : Stores} {st : State Age}
  {events : List (Event Age)} {v : RecordsWriteMessage}

theorem isWrite_of_known {w : RecordsWriteMessage} (h : ms.Known (.recordsWrite w)) :
    ms.IsWrite w := by
  obtain h | ⟨r, hr, h⟩ := h
  · rw [GenericMessage.recordsWrite.injEq] at h
    exact Or.inl h
  · cases r with
    | write m data =>
      rw [Request.message, GenericMessage.recordsWrite.injEq] at h
      exact Or.inr ⟨data, h ▸ hr⟩
    | delete d => cases h

theorem delete_mem_of_known {d : RecordsDeleteMessage} (h : ms.Known (.recordsDelete d)) :
    .delete d ∈ ms.others := by
  obtain h | ⟨r, hr, h⟩ := h
  · cases h
  · cases r with
    | write m data => cases h
    | delete d' =>
      rw [Request.message, GenericMessage.recordsDelete.injEq] at h
      exact h ▸ hr

theorem Shows.sourced_of_no_tomb {i : RecordsWriteMessage} {log : Log}
    (h : Shows i queryable log st) (hnone : st.tomb = none) : Sourced i log i := by
  refine ⟨h.initialStored, fun r hr d hd => ?_⟩
  have htomb := (h.tomb _).mpr ⟨r, hr, d, hd, rfl⟩
  rw [hnone] at htomb
  cases htomb

variable (confirm) in
/-- The outcomes of delivering an update: refused; stored beside the tombstone; or the new
latest state. -/
theorem apply_write {m : RecordsWriteMessage} {data : P.Data}
    (h : RecordState ms.Known ms.initial queryable rank tenant
      (Message.getCid (RecordsWrite.stored m) :: pending) s st)
    (hs : Sourced ms.initial (s.messages tenant) v)
    (hst : Reached (RecordsWrite.age ms.initial) events st) (hr : .write m data ∈ ms.others)
    (hpending : Message.getCid (RecordsWrite.stored m) ∉ pending)
    (hparent : ∀ p, ms.initial.descriptor.parentId = some p → rank p < rank ms.initial.recordId)
    (hself : ¬ PermissionsModule.RevokesItself ms.initial) (hsize : DataStore.SizedByCid (P := P))
    (hdeletes : ∀ d, .delete d ∈ ms.others →
      RecordsDelete.parse deps.toHandlerDependencies d = .ok ())
    (hdeliver : (Request.write m data).Deliverable deps tenant s) {s' : Stores}
    (hs' : s' = ((Request.write m data).apply deps confirm tenant).final s) :
    ((RecordsWrite.age m ≤ st.newest ∨ ∃ t, st.tomb = some t ∧ RecordsWrite.age m ≤ t.2) ∧
      s' = s) ∨
    ((∃ t, st.tomb = some t ∧ st.newest < t.2 ∧ t.2 < RecordsWrite.age m) ∧
      RecordState ms.Known ms.initial queryable rank tenant pending s'
        ⟨insert (RecordsWrite.age m) st.writes, RecordsWrite.age m, st.tomb⟩ ∧
      ((tombScopes ms.initial v = tombScopes ms.initial m ∧
          Sourced ms.initial (s'.messages tenant) m) ∨
        (tombScopes ms.initial v ≠ tombScopes ms.initial m ∧
          Sourced ms.initial (s'.messages tenant) v))) ∨
    (st.newest < RecordsWrite.age m ∧ (∀ t, st.tomb = some t → t.2 < st.newest) ∧
      RecordState ms.Known ms.initial queryable rank tenant pending s'
        ⟨{RecordsWrite.age ms.initial, RecordsWrite.age m}, RecordsWrite.age m, none⟩) := by
  obtain ⟨hupdate, hdata⟩ := ms.updates m data hr
  have hknown : ms.Known (.recordsWrite m) := Or.inr ⟨_, hr, rfl⟩
  have hadm : WriteAdmissible deps.toHandlerDependencies tenant m (some data) s :=
    hdeliver.admissible
  have hunstored : ∀ r ∈ (s.messages tenant).rows, r.cid ≠ P.computeCid (.recordsWrite m) :=
    fun r hr heq => h.unstored r hr (by rw [heq]; exact List.mem_cons_self)
  have hpass : Dwn.Passes deps tenant (.recordsWrite m) := hdeliver.passes
  rw [Request.apply, Dwn.final_applyReplicatedMessage hpass hunstored,
    Dwn.processMessage_write hpass] at hs'
  obtain ⟨hold, hrun⟩ | ⟨⟨t, ht, hlt, hk⟩, hrun⟩ | ⟨hnewer, hold, ⟨position, hresult⟩, hfinal⟩ :=
    h.handle_write hst ms.isInitial hupdate ms.noSquash hself hparent hpending hdata hsize hknown
      hadm
  · refine Or.inl ⟨hold, ?_⟩
    rw [hs', hrun.final_bind]
    exact Dwn.final_storeReplicatedWriteBeatenByDelete_other _ (by decide)
  · refine Or.inr (Or.inl ⟨⟨t, ht, hlt, hk⟩, ?_⟩)
    rw [hrun.final_bind] at hs'
    exact h.storeBeside hst ms.isInitial hupdate hparent hpending hknown hdata ht hlt hk hs
      hadm.parsed (fun d hd => hdeletes d (delete_mem_of_known hd)) (hdeliver.beside m data rfl)
      (by decide) hs'
  · refine Or.inr (Or.inr ⟨hnewer, hold, ?_⟩)
    have haccepted : startsWith "Accepted" "RecordsWriteNotAllowedAfterDelete:" = false := by decide
    rw [hs', Program.final_bind_ok hresult,
      Dwn.final_storeReplicatedWriteBeatenByDelete_other _ haccepted]
    exact hfinal

variable (confirm) in
/-- The outcomes of delivering a delete: beaten, or performed and showing the newest write. -/
theorem apply_delete {d : RecordsDeleteMessage}
    (h : RecordState ms.Known ms.initial queryable rank tenant
      (Message.getCid (RecordsDelete.stored d) :: pending) s st)
    (hst : Reached (RecordsWrite.age ms.initial) events st) (hr : .delete d ∈ ms.others)
    (hpending : Message.getCid (RecordsDelete.stored d) ∉ pending)
    (hparent : ∀ p, ms.initial.descriptor.parentId = some p → rank p < rank ms.initial.recordId)
    (hdeliver : (Request.delete d).Deliverable deps tenant s) {s' : Stores}
    (hs' : s' = ((Request.delete d).apply deps confirm tenant).final s) :
    ((∃ u, st.tomb = some u ∧ st.newest < u.2 ∧
        TombstoneMachine.rank (d.descriptor.prune, RecordsDelete.age d) ≤
          TombstoneMachine.rank u) ∧ s' = s) ∨
    ((∀ u, st.tomb = some u → st.newest < u.2 → ¬ TombstoneMachine.rank
        (d.descriptor.prune, RecordsDelete.age d) ≤ TombstoneMachine.rank u) ∧
      RecordState ms.Known ms.initial queryable rank tenant pending s'
        ⟨{RecordsWrite.age ms.initial, st.newest}, st.newest,
          some (d.descriptor.prune, RecordsDelete.age d)⟩ ∧
      ∃ v, RecordsWrite.age v = st.newest ∧ Sourced ms.initial (s'.messages tenant) v) := by
  have hunstored : ∀ r ∈ (s.messages tenant).rows, r.cid ≠ P.computeCid (.recordsDelete d) :=
    fun r hr heq => h.unstored r hr (by rw [heq]; exact List.mem_cons_self)
  have hpass : Dwn.Passes deps tenant (.recordsDelete d) := hdeliver.passes
  have hfinal : s' = (RecordsDeleteHandler.handle deps.toHandlerDependencies tenant d).final s := by
    rw [hs', Request.apply, Dwn.final_applyReplicatedMessage hpass hunstored,
      Dwn.processMessage_delete hpass]
    exact Program.final_bind_silent fun reply t => rfl
  obtain ⟨hbeaten, hrun⟩ | ⟨hperformed, hstate, hsourced⟩ :=
    h.handle_delete hst ms.isInitial (ms.deletes d hr) hparent hpending (Or.inr ⟨_, hr, rfl⟩)
      hdeliver.admissible
  · exact Or.inl ⟨hbeaten, hfinal.trans hrun.final_eq⟩
  · rw [← hfinal] at hstate hsourced
    exact Or.inr ⟨hperformed, hstate, hsourced⟩

/-- No update that can be stored changes the scopes of a tombstone. -/
def ScopesAgree (ms : MessageSet) : Prop :=
  ∀ w, ms.IsWrite w → RecordsWrite.age ms.initial ≤ RecordsWrite.age w →
    tombScopes ms.initial w = tombScopes ms.initial ms.initial

/-- The stores after some deliveries: the rows show the machine state, and a tombstone
shows a stored write, the newest one as long as scopes do not stand in its way. -/
structure FeedState (ms : MessageSet) (queryable : Bool) (rank : String → Nat) (tenant : Did)
    (pending : List Cid) (s : Stores) (st : State Age) : Prop where
  state : RecordState ms.Known ms.initial queryable rank tenant pending s st
  sourced : ∃ v, Sourced ms.initial (s.messages tenant) v ∧
    (ms.ScopesAgree → st.tomb ≠ none → RecordsWrite.age v = st.newest)

theorem Sourced.isWrite (h : RecordState ms.Known ms.initial queryable rank tenant pending s st)
    (hs : Sourced ms.initial (s.messages tenant) v) : ms.IsWrite v := by
  obtain ⟨r, hr, hv⟩ := hs.1
  have hknown := h.origin r hr
  rw [hv] at hknown
  exact isWrite_of_known hknown

theorem Sourced.age_mem (h : RecordState ms.Known ms.initial queryable rank tenant pending s st)
    (hs : Sourced ms.initial (s.messages tenant) v) : RecordsWrite.age v ∈ st.writes := by
  obtain ⟨r, hr, hv⟩ := hs.1
  exact (h.shows.writes _).mpr ⟨r, hr, v, hv, rfl⟩

variable (confirm) in
/-- One delivery is one step of the machine that keeps writes beside tombstones. -/
theorem feedState_apply {r : Request}
    (h : FeedState ms queryable rank tenant (r.cid :: pending) s st)
    (hst : Reached (RecordsWrite.age ms.initial) events st) (hr : r ∈ ms.others)
    (hpending : r.cid ∉ pending)
    (hparent : ∀ p, ms.initial.descriptor.parentId = some p → rank p < rank ms.initial.recordId)
    (hself : ¬ PermissionsModule.RevokesItself ms.initial) (hsize : DataStore.SizedByCid (P := P))
    (hdeletes : ∀ d, .delete d ∈ ms.others →
      RecordsDelete.parse deps.toHandlerDependencies d = .ok ())
    (hdeliver : r.Deliverable deps tenant s) :
    FeedState ms queryable rank tenant pending ((r.apply deps confirm tenant).final s)
      (step true (RecordsWrite.age ms.initial) st r.event) := by
  obtain ⟨hstate, v, hs, hnewest⟩ := h
  cases r with
  | write m data =>
    obtain ⟨hupdate, -⟩ := ms.updates m data hr
    obtain ⟨hold, hfinal⟩ | ⟨⟨t, ht, hlt, hk⟩, hbeside, hsource⟩ | ⟨hnewer, hold, hfinal⟩ :=
      apply_write confirm hstate hs hst hr hpending hparent hself hsize hdeletes hdeliver rfl
    · rw [hfinal, Request.event, step, accept_refused hold]
      exact ⟨hstate.tail, v, hs, hnewest⟩
    · rw [Request.event, step, accept_after_tomb ht hlt hk, if_pos rfl]
      obtain ⟨-, hsource⟩ | ⟨hne, hsource⟩ := hsource
      · exact ⟨hbeside, m, hsource, fun _ _ => rfl⟩
      · refine ⟨hbeside, v, hsource, fun hagree _ => absurd ?_ hne⟩
        have hv := hst.ge_first _ (Sourced.age_mem hstate hs)
        have hm := hst.first_le.trans (hlt.trans hk).le
        rw [hagree v (Sourced.isWrite hstate hs) hv, hagree m (Or.inr ⟨data, hr⟩) hm]
    · rw [Request.event, step, accept_newest hnewer hold]
      exact ⟨hfinal, ms.initial, Shows.sourced_of_no_tomb hfinal.shows rfl,
        fun _ htomb => absurd rfl htomb⟩
  | delete d =>
    obtain ⟨⟨u, hu, hlt, hle⟩, hfinal⟩ | ⟨hperformed, hfinal, v', hage, hsource⟩ :=
      apply_delete confirm hstate hst hr hpending hparent hdeliver rfl
    · rw [hfinal, Request.event, step, bury_refused hu hlt hle]
      exact ⟨hstate.tail, v, hs, hnewest⟩
    · rw [Request.event, step, bury_performed hperformed]
      exact ⟨hfinal, v', hsource, fun _ _ => hage⟩

/-! ## Runs -/

theorem deliverInitial_eq (hstart : ms.Start rank tenant s)
    (hdeliver : ms.Delivers deps confirm tenant s) (hsize : DataStore.SizedByCid (P := P)) :
    ms.deliverInitial deps confirm tenant s =
      ms.processInitial deps.toHandlerDependencies tenant s := by
  have hunstored : ∀ r ∈ (s.messages tenant).rows,
      r.cid ≠ P.computeCid (.recordsWrite ms.initial) :=
    fun r hr heq => hstart.unstored r hr (by rw [heq]; exact List.mem_cons_self)
  obtain ⟨t, putResult, hcommit, -⟩ := commit_initial hstart hdeliver.initial hsize
  have hresult := (commitIfNewest_committed ms.noSquash rfl hcommit).1
  rw [Program.result, ← handle_initial hstart hdeliver.initial] at hresult
  rw [deliverInitial, Dwn.final_applyReplicatedMessage hdeliver.passes hunstored,
    Dwn.processMessage_write hdeliver.passes, Program.final_bind_ok hresult, processInitial]
  refine Dwn.final_storeReplicatedWriteBeatenByDelete_other _ ?_
  unfold RecordsWriteHandler.acceptedStatus
  dsimp only
  split <;> decide

section Deliveries
variable (hstart : ms.Start rank tenant s)
    (hdeliver : ms.Delivers deps confirm tenant s)
    (hself : ¬ PermissionsModule.RevokesItself ms.initial) (hsize : DataStore.SizedByCid (P := P))

include hstart hdeliver hself hsize

/-- Every delete of the set is well formed, since it could be the first to be delivered. -/
theorem parse_delete {d : RecordsDeleteMessage} (hd : .delete d ∈ ms.others) :
    RecordsDelete.parse deps.toHandlerDependencies d = .ok () := by
  have hinitial := recordState_processInitial hstart hdeliver.initial hself hsize
  rw [← deliverInitial_eq hstart hdeliver hsize] at hinitial
  obtain ⟨ri, hri, -⟩ := hinitial.shows.initialStored
  have hsub : [Request.delete d].Subperm ms.others := List.singleton_subperm_iff.mpr hd
  have hadm : DeleteAdmissible deps.toHandlerDependencies tenant d _ :=
    (hdeliver.others [] (.delete d) hsub (List.ne_nil_of_mem hri)).admissible
  exact hadm.parsed

theorem feedState_deliverAll (done todo rest : List Request) (horder : (done ++ (todo ++ rest)).Perm ms.others)
    (hst : Reached (RecordsWrite.age ms.initial) ms.events st)
    (h : FeedState ms queryable rank tenant ((todo ++ rest).map Request.cid)
      (deliverAll deps confirm tenant done (ms.deliverInitial deps confirm tenant s)) st) :
    FeedState ms queryable rank tenant (rest.map Request.cid)
      (deliverAll deps confirm tenant (done ++ todo) (ms.deliverInitial deps confirm tenant s))
      ((todo.map Request.event).foldl (step true (RecordsWrite.age ms.initial)) st) := by
  induction todo generalizing done st with
  | nil => simpa using h
  | cons r todo ih =>
    have hr : r ∈ ms.others := horder.mem_iff.mp (by simp)
    have hnodup : (r.cid :: (todo ++ rest).map Request.cid).Nodup := by
      have hall := (horder.map Request.cid).nodup_iff.mpr (List.nodup_cons.mp ms.distinct).2
      rw [List.map_append] at hall
      exact (List.nodup_append.mp hall).2.1
    have hsub : (r :: done).Subperm ms.others := by
      have hperm : (r :: (done ++ (todo ++ rest))).Perm ms.others :=
        List.perm_middle.symm.trans horder
      exact ((List.sublist_append_left done _).cons_cons r).subperm.trans hperm.subperm
    have hknown : recordRows ((deliverAll deps confirm tenant done
        (ms.deliverInitial deps confirm tenant s)).messages tenant) ms.initial.recordId ≠ [] := by
      obtain ⟨ri, hri, -⟩ := h.state.shows.initialStored
      exact List.ne_nil_of_mem hri
    have hstep := feedState_apply confirm h hst hr (List.nodup_cons.mp hnodup).1
      hstart.parent hself hsize (fun d hd => parse_delete hstart hdeliver hself hsize hd)
      (hdeliver.others done r hsub hknown)
    rw [← deliverAll_concat] at hstep
    have hreached : Reached (RecordsWrite.age ms.initial) ms.events
        (step true (RecordsWrite.age ms.initial) st r.event) :=
      reached_step hst (mem_events.mpr ⟨r, hr, rfl⟩)
    have := ih (done ++ [r]) (by simpa using horder) hreached hstep
    simpa using this

theorem feedState_run {todo rest : List Request} (horder : (todo ++ rest).Perm ms.others) :
    FeedState ms ms.initialData.isSome rank tenant (rest.map Request.cid)
      (deliverAll deps confirm tenant todo (ms.deliverInitial deps confirm tenant s))
      (run true (RecordsWrite.age ms.initial) (todo.map Request.event)) := by
  have hinitial := recordState_processInitial hstart hdeliver.initial hself hsize
  rw [← deliverInitial_eq hstart hdeliver hsize] at hinitial
  refine feedState_deliverAll hstart hdeliver hself hsize [] todo rest (by simpa using horder)
    reached_init ⟨hinitial.of_perm (horder.map Request.cid), ms.initial, ?_, fun _ htomb => absurd rfl htomb⟩
  exact Shows.sourced_of_no_tomb hinitial.shows rfl

theorem feedState_finish {order : List Request} (horder : order.Perm ms.others) :
    FeedState ms ms.initialData.isSome rank tenant []
      (deliverAll deps confirm tenant order (ms.deliverInitial deps confirm tenant s))
      (run true (RecordsWrite.age ms.initial) (order.map Request.event)) := by
  rw [← List.append_nil order] at horder
  exact feedState_run hstart hdeliver hself hsize horder

end Deliveries

/-- A record that is not stored can be neither updated nor deleted by replication. -/
theorem final_apply_unknown (wf : (s.messages tenant).WellFormed)
    (hunknown : recordRows (s.messages tenant) ms.initial.recordId = []) {r : Request}
    (hr : r ∈ ms.others) : (r.apply deps confirm tenant).final s = s := by
  have hhandle : (r.handle deps.toHandlerDependencies tenant).final s = s :=
    final_handle_unknown wf hunknown hr
  cases r with
  | write m data =>
    obtain ⟨hm, -⟩ := ms.updates m data hr
    refine Dwn.final_applyReplicatedMessage_unchanged ?_ fun reply => ?_
    · unfold Dwn.processMessage
      split
      · rfl
      split
      · rfl
      exact hhandle
    · unfold Dwn.storeReplicatedWriteBeatenByDelete
      dsimp only
      split
      · rfl
      rw [(Stores.runs_query _ _ _).final_bind, hm.recordId_eq, query_unknown wf hunknown]
      rfl
  | delete d =>
    refine Dwn.final_applyReplicatedMessage_unchanged ?_ fun reply => rfl
    unfold Dwn.processMessage
    split
    · rfl
    split
    · rfl
    exact hhandle

theorem deliverAll_unknown (wf : (s.messages tenant).WellFormed)
    (hunknown : recordRows (s.messages tenant) ms.initial.recordId = []) {l : List Request}
    (hl : ∀ r ∈ l, r ∈ ms.others) : deliverAll deps confirm tenant l s = s := by
  induction l with
  | nil => rfl
  | cons r l ih =>
    have hfirst : (r.apply deps confirm tenant).final s = s :=
      final_apply_unknown wf hunknown (hl r (by simp))
    rw [deliverAll, List.foldl_cons, hfirst]
    exact ih fun r' hr' => hl r' (by simp [hr'])

/-! ## Agreement -/

theorem mem_cids_iff (h : RecordState ms.Known ms.initial queryable rank tenant pending s st)
    {c : Cid} :
    c ∈ (recordRows (s.messages tenant) ms.initial.recordId).map Row.cid ↔
      ∃ k, st.Stored k ∧ k.2 = c := by
  rw [List.mem_map]
  constructor
  · intro ⟨r, hr, hc⟩
    refine ⟨Message.age r.message, ?_, hc⟩
    obtain ⟨w, hw⟩ | ⟨d, hd⟩ := Shows.message_cases hr
    · exact Or.inl ((h.shows.writes _).mpr ⟨r, hr, w, hw, (age_of_write hw).symm⟩)
    · exact Or.inr ⟨_, (h.shows.tomb _).mpr ⟨r, hr, d, hd, rfl⟩, (age_of_delete hd).symm⟩
  · intro ⟨k, hk, hc⟩
    obtain hk | ⟨t, ht, hk⟩ := hk
    · obtain ⟨r, hr, w, hw, hage⟩ := (h.shows.writes k).mp hk
      exact ⟨r, hr, by rw [← hc, ← hage, ← age_of_write hw]; rfl⟩
    · obtain ⟨r, hr, d, hd, heq⟩ := (h.shows.tomb t).mp ht
      exact ⟨r, hr, by rw [← hc, ← hk, ← heq, ← age_of_delete hd]; rfl⟩

theorem Reached.stored_event (hst : Reached (RecordsWrite.age ms.initial) ms.events st) {k : Age}
    (hk : st.Stored k) :
    ∃ e, e ∈ .write (RecordsWrite.age ms.initial) :: ms.events ∧ e.age = k := by
  obtain hk | ⟨t, ht, rfl⟩ := hk
  · exact ⟨.write k, hst.writes_mem k hk, rfl⟩
  · exact ⟨_, List.mem_cons_of_mem _ (hst.tomb_mem t ht), rfl⟩

/-- Stored items have distinct CIDs, so a CID determines its item. -/
theorem stored_of_cids {st' : State Age}
    (hst : Reached (RecordsWrite.age ms.initial) ms.events st)
    (hst' : Reached (RecordsWrite.age ms.initial) ms.events st')
    (h : ∀ c, (∃ k, st.Stored k ∧ k.2 = c) → ∃ k, st'.Stored k ∧ k.2 = c) {k : Age}
    (hk : st.Stored k) : st'.Stored k := by
  obtain ⟨k', hk', hc⟩ := h k.2 ⟨k, hk, rfl⟩
  obtain ⟨e, he, rfl⟩ := Reached.stored_event hst hk
  obtain ⟨e', he', rfl⟩ := Reached.stored_event hst' hk'
  rwa [event_eq_of_cid he he' hc.symm]

theorem write_mem_others {k : Age} :
    Event.write k ∈ ms.events ↔ ∃ w data, .write w data ∈ ms.others ∧ RecordsWrite.age w = k := by
  rw [mem_events]
  constructor
  · intro hr
    obtain ⟨r, hr, he⟩ := hr
    cases r with
    | write m data =>
      rw [Request.event, Event.write.injEq] at he
      exact ⟨m, data, hr, he⟩
    | delete d => cases he
  · intro hw
    obtain ⟨w, data, hw, hk⟩ := hw
    exact ⟨.write w data, hw, by rw [Request.event, hk]⟩

theorem delete_eq_of_event {d d' : RecordsDeleteMessage} (hd : .delete d ∈ ms.others)
    (hd' : .delete d' ∈ ms.others)
    (h : (d'.descriptor.prune, RecordsDelete.age d') = (d.descriptor.prune, RecordsDelete.age d)) :
    d' = d :=
  delete_eq_of_age hd' hd (congrArg Prod.snd h)

/-- Messages agree when their events do and the scopes of the tombstone are safe. -/
theorem agrees_iff :
    ms.Agrees ↔ TombstoneMachine.Agrees (RecordsWrite.age ms.initial) ms.events ∧
      ∀ d w data, .delete d ∈ ms.others → .write w data ∈ ms.others →
        (∀ d', .delete d' ∈ ms.others → d' = d) →
        RecordsWrite.age ms.initial < RecordsDelete.age d →
        RecordsDelete.age d < RecordsWrite.age w →
        (∀ x data', .write x data' ∈ ms.others →
          RecordsWrite.age x ≤ RecordsWrite.age ms.initial ∨ x = w) →
        tombScopes ms.initial w = tombScopes ms.initial ms.initial := by
  constructor
  · intro h
    obtain hnone | ⟨d, hwin, hcase⟩ := h
    · refine ⟨Or.inl fun p k hdel => ?_, fun d _ _ hd => absurd hd (hnone d)⟩
      obtain ⟨d, hd, -⟩ := delete_mem_events.mp hdel
      exact hnone d hd
    · have hevent : ∀ d', (∀ d'', .delete d'' ∈ ms.others → d'' = d') → ∀ p' k',
          .delete p' k' ∈ ms.events → (p', k') = (d'.descriptor.prune, RecordsDelete.age d') := by
        intro d' honly p' k' hdel
        obtain ⟨d'', hd'', rfl, rfl⟩ := delete_mem_events.mp hdel
        rw [honly d'' hd'']
      obtain ⟨hd, hwin'⟩ := isWinner_delete.mp hwin
      obtain ⟨hold, hk⟩ | ⟨honly, hfirst, w, data, hw, hdw, hother, hscopes⟩ := hcase
      · refine ⟨Or.inr ⟨_, _, hwin', Or.inl ⟨fun x hx => ?_, hk.imp (hevent d) id⟩⟩, ?_⟩
        · obtain ⟨w, data, hw, rfl⟩ := write_mem_others.mp hx
          exact hold w data hw
        · intro d' w data _ hw _ hfirst hdw _
          exact absurd (hfirst.trans hdw) (hold w data hw).not_gt
      · refine ⟨Or.inr ⟨_, _, hwin', Or.inr ⟨hevent d honly, hfirst, _,
          write_mem_others.mpr ⟨w, data, hw, rfl⟩, hdw, fun x hx => ?_⟩⟩, ?_⟩
        · obtain ⟨x', data', hx', rfl⟩ := write_mem_others.mp hx
          exact (hother x' data' hx').imp id fun h => by rw [h]
        · intro d' w' data' _ hw' _ hfirst' hdw' _
          obtain hle | rfl := hother w' data' hw'
          · exact absurd (hfirst'.trans hdw') hle.not_gt
          · exact hscopes
  · intro ⟨h, hscopes⟩
    obtain hnone | ⟨p, k, hwin, hcase⟩ := h
    · exact Or.inl fun d hd => hnone _ _ (delete_mem_events.mpr ⟨d, hd, rfl, rfl⟩)
    · obtain ⟨d, hd, rfl, rfl⟩ := delete_mem_events.mp hwin.1
      have honly : (∀ p' k', .delete p' k' ∈ ms.events →
          (p', k') = (d.descriptor.prune, RecordsDelete.age d)) →
          ∀ d', .delete d' ∈ ms.others → d' = d := by
        intro h d' hd'
        exact delete_eq_of_event hd hd' (h _ _ (delete_mem_events.mpr ⟨d', hd', rfl, rfl⟩))
      refine Or.inr ⟨d, isWinner_delete.mpr ⟨hd, hwin⟩, ?_⟩
      obtain ⟨hold, hk⟩ | ⟨honly', hfirst, x, hx, hdx, hother⟩ := hcase
      · refine Or.inl ⟨fun w data hw => ?_, hk.imp honly id⟩
        exact hold _ (write_mem_others.mpr ⟨w, data, hw, rfl⟩)
      · obtain ⟨w, data, hw, rfl⟩ := write_mem_others.mp hx
        have hothers : ∀ x data', .write x data' ∈ ms.others →
            RecordsWrite.age x ≤ RecordsWrite.age ms.initial ∨ x = w := by
          intro x data' hx
          refine (hother _ (write_mem_others.mpr ⟨x, data', hx, rfl⟩)).imp id fun h => ?_
          exact write_eq_of_age (Or.inr ⟨data', hx⟩) (Or.inr ⟨data, hw⟩) h
        exact Or.inr ⟨honly honly', hfirst, w, data, hw, hdx, hothers,
          hscopes d w data hd hw (honly honly') hfirst hdx hothers⟩

theorem age_source_of_agrees (hagrees : ms.Agrees) {order : List Request}
    (horder : order.Perm ms.others) {pending : List Cid}
    (h : FeedState ms queryable rank tenant pending s
      (run true (RecordsWrite.age ms.initial) (order.map Request.event)))
    (htomb : (run true (RecordsWrite.age ms.initial) (order.map Request.event)).tomb ≠ none) :
    ∃ v, Sourced ms.initial (s.messages tenant) v ∧ ms.IsWrite v ∧ RecordsWrite.age v =
      (run true (RecordsWrite.age ms.initial) (order.map Request.event)).newest := by
  obtain ⟨hstate, v, hs, hnewest⟩ := h
  refine ⟨v, hs, Sourced.isWrite hstate hs, ?_⟩
  have hperm : (order.map Request.event).Perm ms.events := horder.map _
  obtain hnone | ⟨d, hwin, hcase⟩ := hagrees
  · obtain ⟨t, ht⟩ := Option.ne_none_iff_exists'.mp htomb
    obtain ⟨r, hr, d, hd, -⟩ := (hstate.shows.tomb t).mp ht
    have hknown := hstate.origin r hr
    rw [hd] at hknown
    exact absurd (delete_mem_of_known hknown) (hnone d)
  · obtain ⟨hold, hk⟩ | ⟨honly, hfirst, w, data, hw, hdw, hother, hscopes⟩ := hcase
    · have hage := Sourced.age_mem hstate hs
      have hwrites : ∀ x, .write x ∈ ms.events → x ≤ RecordsWrite.age ms.initial := by
        intro x hx
        obtain ⟨w, data, hw, rfl⟩ := write_mem_others.mp hx
        exact hold w data hw
      obtain ⟨hset, hn⟩ := foldl_of_refused_writes hwrites (fun e he => hperm.mem_iff.mp he)
        (s := State.init (RecordsWrite.age ms.initial)) rfl rfl
      rw [run] at hage ⊢
      rw [hset, Finset.mem_singleton] at hage
      rw [hage, hn]
    · refine hnewest (fun x hx hage => ?_) htomb
      obtain rfl | ⟨data', hx'⟩ := hx
      · rfl
      · obtain hle | rfl := hother x data' hx'
        · rw [write_eq_of_age (Or.inr ⟨data', hx'⟩) (Or.inl rfl) (le_antisymm hle hage)]
        · exact hscopes

section Orders
variable (hstart : ms.Start rank tenant s) (hdeliver : ms.Delivers deps confirm tenant s)
  (hself : ¬ PermissionsModule.RevokesItself ms.initial) (hsize : DataStore.SizedByCid (P := P))
include hstart hdeliver hself hsize

/-- The next message of an order finds the record in its state and passes its checks. -/
theorem next_delivery (todo : List Request) (r : Request) (rest : List Request)
    (horder : (todo ++ r :: rest).Perm ms.others) :
    FeedState ms ms.initialData.isSome rank tenant (r.cid :: rest.map Request.cid)
        (deliverAll deps confirm tenant todo (ms.deliverInitial deps confirm tenant s))
        (run true (RecordsWrite.age ms.initial) (todo.map Request.event)) ∧
      Reached (RecordsWrite.age ms.initial) ms.events
        (run true (RecordsWrite.age ms.initial) (todo.map Request.event)) ∧
      r ∈ ms.others ∧ r.cid ∉ rest.map Request.cid ∧
      r.Deliverable deps tenant
        (deliverAll deps confirm tenant todo (ms.deliverInitial deps confirm tenant s)) := by
  have hstate := feedState_run hstart hdeliver hself hsize horder
  have hsub : (r :: todo).Subperm ms.others := by
    have hperm : (r :: (todo ++ rest)).Perm ms.others := List.perm_middle.symm.trans horder
    exact ((List.sublist_append_left todo _).cons_cons r).subperm.trans hperm.subperm
  refine ⟨hstate, ?_, horder.mem_iff.mp (by simp), ?_, hdeliver.others todo r hsub ?_⟩
  · refine reached_foldl reached_init fun e he => ?_
    obtain ⟨r', hr', rfl⟩ := List.mem_map.mp he
    exact mem_events.mpr ⟨r', horder.mem_iff.mp (by simp [hr']), rfl⟩
  · have hall := (horder.map Request.cid).nodup_iff.mpr (List.nodup_cons.mp ms.distinct).2
    rw [List.map_append, List.map_cons] at hall
    exact (List.nodup_cons.mp (List.nodup_append.mp hall).2.1).1
  · obtain ⟨ri, hri, -⟩ := hstate.state.shows.initialStored
    exact List.ne_nil_of_mem hri

/-- A delete and then a newer update leave a tombstone that shows the update, or the
initial write if the update has other scopes. -/
theorem sourced_delete_write (rest : List Request) (d : RecordsDeleteMessage)
    (w : RecordsWriteMessage) (data : P.Data)
    (horder : (rest ++ [Request.delete d, Request.write w data]).Perm ms.others)
    (hrest : run true (RecordsWrite.age ms.initial) (rest.map Request.event) =
      State.init (RecordsWrite.age ms.initial))
    (hfirst : RecordsWrite.age ms.initial < RecordsDelete.age d)
    (hdw : RecordsDelete.age d < RecordsWrite.age w) :
    tombScopes ms.initial ms.initial = tombScopes ms.initial w ∨
      Sourced ms.initial ((deliverAll deps confirm tenant (rest ++ [.delete d, .write w data])
        (ms.deliverInitial deps confirm tenant s)).messages tenant) ms.initial := by
  obtain ⟨hfeed, hst, hd, hpending, hdelete⟩ :=
    next_delivery hstart hdeliver hself hsize rest (.delete d) [.write w data] horder
  obtain ⟨-, -, hw, hpending', hwrite⟩ := next_delivery hstart hdeliver hself hsize
    (rest ++ [.delete d]) (.write w data) [] (by simpa using horder)
  rw [hrest] at hfeed hst
  have happend : rest ++ [.delete d, .write w data] = rest ++ [.delete d] ++ [.write w data] := by simp
  obtain ⟨⟨u, hu, -⟩, -⟩ | ⟨-, hstate, v, hage, hs⟩ :=
    apply_delete confirm hfeed.state hst hd hpending hstart.parent hdelete
      (deliverAll_concat ..)
  · cases hu
  have hst' : Reached (RecordsWrite.age ms.initial) ms.events
      (step true (RecordsWrite.age ms.initial) (State.init (RecordsWrite.age ms.initial))
        (.delete d.descriptor.prune (RecordsDelete.age d))) :=
    reached_step hst (mem_events.mpr ⟨_, hd, rfl⟩)
  have hv : v = ms.initial := write_eq_of_age (Sourced.isWrite hstate hs) (Or.inl rfl) hage
  rw [happend, deliverAll_concat]
  obtain ⟨hold, -⟩ | ⟨-, -, ⟨hscopes, -⟩ | ⟨-, hsource⟩⟩ | ⟨-, hold, -⟩ :=
    apply_write confirm hstate hs hst' hw hpending' hstart.parent hself hsize
      (fun d hd => parse_delete hstart hdeliver hself hsize hd) hwrite rfl
  · obtain hle | ⟨t, ht, hle⟩ := hold
    · exact absurd (hfirst.trans hdw) hle.not_gt
    · cases ht
      exact absurd hdw hle.not_gt
  · exact Or.inl (by rw [← hscopes, hv])
  · exact Or.inr (hv ▸ hsource)
  · exact absurd hfirst (hold _ rfl).not_gt

/-- An update and then a delete leave a tombstone that shows the update. -/
theorem sourced_write_delete (rest : List Request) (d : RecordsDeleteMessage)
    (w : RecordsWriteMessage) (data : P.Data)
    (horder : (rest ++ [Request.write w data, Request.delete d]).Perm ms.others)
    (hrest : run true (RecordsWrite.age ms.initial) (rest.map Request.event) =
      State.init (RecordsWrite.age ms.initial))
    (hw : RecordsWrite.age ms.initial < RecordsWrite.age w) :
    Sourced ms.initial ((deliverAll deps confirm tenant (rest ++ [.write w data, .delete d])
      (ms.deliverInitial deps confirm tenant s)).messages tenant) w := by
  obtain ⟨hfeed, hst, hwmem, hpending, hwrite⟩ :=
    next_delivery hstart hdeliver hself hsize rest (.write w data) [.delete d] horder
  obtain ⟨-, -, hd, hpending', hdelete⟩ := next_delivery hstart hdeliver hself hsize
    (rest ++ [.write w data]) (.delete d) [] (by simpa using horder)
  rw [hrest] at hfeed hst
  have happend : rest ++ [.write w data, .delete d] = rest ++ [.write w data] ++ [.delete d] := by simp
  obtain ⟨v, hs, -⟩ := hfeed.sourced
  obtain ⟨hold, -⟩ | ⟨⟨t, ht, -⟩, -⟩ | ⟨hnewer, hold, hstate⟩ :=
    apply_write confirm hfeed.state hs hst hwmem hpending hstart.parent hself hsize
      (fun d hd => parse_delete hstart hdeliver hself hsize hd) hwrite
      (deliverAll_concat ..)
  · obtain hle | ⟨t, ht, -⟩ := hold
    · exact absurd hw hle.not_gt
    · cases ht
  · cases ht
  have hst' : Reached (RecordsWrite.age ms.initial) ms.events
      (step true (RecordsWrite.age ms.initial) (State.init (RecordsWrite.age ms.initial))
        (.write (RecordsWrite.age w))) :=
    reached_step hst (mem_events.mpr ⟨_, hwmem, rfl⟩)
  rw [step, accept_newest hnewer hold] at hst'
  rw [happend, deliverAll_concat]
  obtain ⟨⟨u, hu, -⟩, -⟩ | ⟨-, hstate', v', hage, hs'⟩ :=
    apply_delete confirm hstate hst' hd hpending' hstart.parent hdelete rfl
  · cases hu
  have hv : v' = w :=
    write_eq_of_age (Sourced.isWrite hstate' hs') (Or.inr ⟨data, hwmem⟩) hage
  exact hv ▸ hs'

theorem tombstone_stored {d : RecordsDeleteMessage} {w : RecordsWriteMessage}
    (hd : .delete d ∈ ms.others) (honly : ∀ d', .delete d' ∈ ms.others → d' = d)
    (hfirst : RecordsWrite.age ms.initial < RecordsDelete.age d)
    (hdw : RecordsDelete.age d < RecordsWrite.age w)
    (hother : ∀ x data', .write x data' ∈ ms.others →
      RecordsWrite.age x ≤ RecordsWrite.age ms.initial ∨ x = w)
    {order : List Request} (horder : order.Perm ms.others) :
    ∃ r ∈ recordRows ((deliverAll deps confirm tenant order
      (ms.deliverInitial deps confirm tenant s)).messages tenant) ms.initial.recordId,
      r.message.message = .recordsDelete d := by
  have hshape : ∀ e ∈ order.map Request.event, e = .write (RecordsWrite.age w) ∨
      e = .delete d.descriptor.prune (RecordsDelete.age d) ∨
      ∃ x, e = .write x ∧ x ≤ RecordsWrite.age ms.initial := by
    intro e he
    obtain ⟨r, hr, rfl⟩ := List.mem_map.mp he
    cases r with
    | delete d' =>
      rw [honly d' (horder.mem_iff.mp hr)]
      exact Or.inr (Or.inl rfl)
    | write x data' =>
      obtain hle | rfl := hother x data' (horder.mem_iff.mp hr)
      · exact Or.inr (Or.inr ⟨_, rfl, hle⟩)
      · exact Or.inl rfl
  have hrun : run true (RecordsWrite.age ms.initial) (order.map Request.event) = _ :=
    foldl_pairState (t := (d.descriptor.prune, RecordsDelete.age d)) hfirst hdw hshape false false
  have hmem : Event.delete d.descriptor.prune (RecordsDelete.age d) ∈ order.map Request.event :=
    List.mem_map.mpr ⟨_, horder.mem_iff.mpr hd, rfl⟩
  have htomb : (run true (RecordsWrite.age ms.initial) (order.map Request.event)).tomb =
      some (d.descriptor.prune, RecordsDelete.age d) := by
    rw [hrun, pairState]
    exact if_pos (by simpa using hmem)
  have hfeed := feedState_finish hstart hdeliver hself hsize horder
  obtain ⟨r, hr, d', hd', -⟩ := (hfeed.state.shows.tomb _).mp htomb
  have hknown := hfeed.state.origin r hr
  rw [hd'] at hknown
  rw [honly d' (delete_mem_of_known hknown)] at hd'
  exact ⟨r, hr, hd'⟩

/-- If all orders agree on the tombstone, a newer update has the scopes of the initial
write. -/
theorem tombScopes_of_sameFeed
    (hall : ∀ order order' : List Request, order.Perm ms.others → order'.Perm ms.others →
      SameFeed ms.initial.recordId
        ((deliverAll deps confirm tenant order
          (ms.deliverInitial deps confirm tenant s)).messages tenant)
        ((deliverAll deps confirm tenant order'
          (ms.deliverInitial deps confirm tenant s)).messages tenant))
    {d : RecordsDeleteMessage} {w : RecordsWriteMessage} {data : P.Data}
    (hd : .delete d ∈ ms.others) (hw : .write w data ∈ ms.others)
    (honly : ∀ d', .delete d' ∈ ms.others → d' = d)
    (hfirst : RecordsWrite.age ms.initial < RecordsDelete.age d)
    (hdw : RecordsDelete.age d < RecordsWrite.age w)
    (hother : ∀ x data', .write x data' ∈ ms.others →
      RecordsWrite.age x ≤ RecordsWrite.age ms.initial ∨ x = w) :
    tombScopes ms.initial w = tombScopes ms.initial ms.initial := by
  have hnodup : ms.others.Nodup := List.Nodup.of_map _ (List.nodup_cons.mp ms.distinct).2
  obtain ⟨l, hl, hsub⟩ : [Request.delete d, Request.write w data].Subperm ms.others :=
    List.subperm_of_subset (by simp) (by simp [hd, hw])
  obtain ⟨rest, hrest⟩ := hsub.exists_perm_append
  have horder : (rest ++ [Request.delete d, Request.write w data]).Perm ms.others :=
    (List.perm_append_comm.trans (hl.symm.append_right rest)).trans hrest.symm
  have horder' : (rest ++ [Request.write w data, Request.delete d]).Perm ms.others :=
    ((List.Perm.swap _ _ []).append_left rest).trans horder
  -- the other messages are updates older than the initial write and leave no trace
  have hdisjoint := (List.nodup_append.mp (horder.nodup_iff.mpr hnodup)).2.2
  have hold : ∀ r ∈ rest, ∃ x, r.event = .write x ∧ x ≤ RecordsWrite.age ms.initial := by
    intro r hr
    have hmem : r ∈ ms.others := horder.mem_iff.mp (by simp [hr])
    cases r with
    | delete d' =>
      rw [honly d' hmem] at hr
      exact absurd rfl (hdisjoint _ hr _ (by simp))
    | write x data' =>
      obtain hle | rfl := hother x data' hmem
      · exact ⟨_, rfl, hle⟩
      · have heq := request_eq_of_cid hmem hw rfl
        exact absurd heq (hdisjoint _ hr _ (by simp))
  have hinit : run true (RecordsWrite.age ms.initial) (rest.map Request.event) =
      State.init (RecordsWrite.age ms.initial) := by
    clear hrest horder horder' hdisjoint
    unfold run
    induction rest with
    | nil => rfl
    | cons r rest ih =>
      obtain ⟨x, hx, hle⟩ := hold r (by simp)
      rw [List.map_cons, List.foldl_cons, hx, step, accept_of_le hle]
      exact ih fun r' hr' => hold r' (by simp [hr'])
  obtain hscopes | hs :=
    sourced_delete_write hstart hdeliver hself hsize rest d w data horder hinit hfirst hdw
  · exact hscopes.symm
  · have hs' := sourced_write_delete hstart hdeliver hself hsize rest d w data horder' hinit
      (hfirst.trans hdw)
    obtain ⟨r, hr, hmsg⟩ := tombstone_stored hstart hdeliver hself hsize hd honly hfirst hdw hother
      horder
    obtain ⟨r', hr', hmsg'⟩ := tombstone_stored hstart hdeliver hself hsize hd honly hfirst hdw
      hother horder'
    have hindexes := (hall _ _ horder horder').tombstone r hr r' hr'
      (by simp [StoredMessage.isRecordsDelete, hmsg])
      (by simp [StoredMessage.isRecordsDelete, hmsg'])
    rw [(hs.2 r hr d hmsg).1, (hs'.2 r' hr' d hmsg').1] at hindexes
    rw [← scopes_tombstone d, ← scopes_tombstone d, hindexes]

end Orders

/-- Every two orders of delivery leave the same messages of the record and the same indexes
of its tombstone exactly when the record revokes itself or its messages agree. -/
theorem sameFeed_iff (hstart : ms.Start rank tenant s)
    (hdeliver : ms.Delivers deps confirm tenant s) (hsize : DataStore.SizedByCid (P := P))
    (hplain : ∀ d, .delete d ∈ ms.others → d.descriptor.prune = false) :
    (∀ order order' : List Request, order.Perm ms.others → order'.Perm ms.others →
      SameFeed ms.initial.recordId
        ((deliverAll deps confirm tenant order
          (ms.deliverInitial deps confirm tenant s)).messages tenant)
        ((deliverAll deps confirm tenant order'
          (ms.deliverInitial deps confirm tenant s)).messages tenant)) ↔
      PermissionsModule.RevokesItself ms.initial ∨ ms.Agrees := by
  have hplain' : ∀ p k, .delete p k ∈ ms.events → p = false := by
    intro p k h
    obtain ⟨d, hd, rfl, -⟩ := delete_mem_events.mp h
    exact hplain d hd
  constructor
  · intro hall
    by_cases hself : PermissionsModule.RevokesItself ms.initial
    · exact Or.inl hself
    refine Or.inr (agrees_iff.mpr ⟨?_, fun d w data hd hw honly hfirst hdw hother =>
      tombScopes_of_sameFeed hstart hdeliver hself hsize hall hd hw honly hfirst hdw hother⟩)
    refine (forall_stored_iff nodup_events agesDistinct hplain').mp fun l l' hl hl' => ?_
    obtain ⟨order, horder, rfl⟩ := exists_order hl
    obtain ⟨order', horder', rfl⟩ := exists_order hl'
    have hfeed := feedState_finish hstart hdeliver hself hsize horder
    have hfeed' := feedState_finish hstart hdeliver hself hsize horder'
    have hcids := (hall order order' horder horder').cids
    intro k
    refine ⟨stored_of_cids (reached_run hl) (reached_run hl') fun c hc => ?_,
      stored_of_cids (reached_run hl') (reached_run hl) fun c hc => ?_⟩
    · exact (mem_cids_iff hfeed'.state).mp ((hcids c).mp ((mem_cids_iff hfeed.state).mpr hc))
    · exact (mem_cids_iff hfeed.state).mp ((hcids c).mpr ((mem_cids_iff hfeed'.state).mpr hc))
  · intro h order order' horder horder'
    by_cases hself : PermissionsModule.RevokesItself ms.initial
    · obtain ⟨wf, hunknown⟩ := unknown_of_revokesItself hstart hdeliver.initial hself hsize
      rw [← deliverInitial_eq hstart hdeliver hsize] at wf hunknown
      rw [deliverAll_unknown wf hunknown fun r hr => horder.mem_iff.mp hr,
        deliverAll_unknown wf hunknown fun r hr => horder'.mem_iff.mp hr]
      refine ⟨fun c => Iff.rfl, fun r hr => ?_⟩
      rw [hunknown] at hr
      cases hr
    have hagrees := h.resolve_left hself
    have hfeed := feedState_finish hstart hdeliver hself hsize horder
    have hfeed' := feedState_finish hstart hdeliver hself hsize horder'
    have hrun := run_eq_of_agrees (agrees_iff.mp hagrees).1 (horder.map Request.event)
      (horder'.map Request.event)
    refine ⟨fun c => ?_, fun r hr r' hr' hd hd' => ?_⟩
    · rw [mem_cids_iff hfeed.state, mem_cids_iff hfeed'.state, hrun]
    · obtain ⟨w, hw⟩ | ⟨d, hmsg⟩ := Shows.message_cases hr
      · simp [StoredMessage.isRecordsDelete, hw] at hd
      obtain ⟨w, hw⟩ | ⟨d', hmsg'⟩ := Shows.message_cases hr'
      · simp [StoredMessage.isRecordsDelete, hw] at hd'
      have htomb := (hfeed.state.shows.tomb _).mpr ⟨r, hr, d, hmsg, rfl⟩
      have htomb' := (hfeed'.state.shows.tomb _).mpr ⟨r', hr', d', hmsg', rfl⟩
      obtain ⟨v, hs, hv, hage⟩ := age_source_of_agrees hagrees horder hfeed (by simp [htomb])
      obtain ⟨v', hs', hv', hage'⟩ :=
        age_source_of_agrees hagrees horder' hfeed' (by simp [htomb'])
      have hsource : v = v' := write_eq_of_age hv hv' (by rw [hage, hage', hrun])
      have hknown := hfeed.state.origin r hr
      have hknown' := hfeed'.state.origin r' hr'
      rw [hmsg] at hknown
      rw [hmsg'] at hknown'
      rw [← hrun, htomb, Option.some.injEq] at htomb'
      have hdelete : d = d' := delete_eq_of_event (delete_mem_of_known hknown')
        (delete_mem_of_known hknown) htomb'
      rw [(hs.2 r hr d hmsg).1, (hs'.2 r' hr' d' hmsg').1, hdelete, hsource]

end MessageSet

end EnboxDwn

namespace EnboxDwn.MessageSet
open Journal MessageStore TombstoneMachine

local instance : Platform := Platform.ofText

def noteUpdatedRemoved : MessageSet :=
  ofNote [.update "w" "2", .remove "d" "3"] (by decide) (by decide)

/-- The delete retains the update when it comes second; the update is refused when it
comes second. -/
theorem feed_of_noteUpdatedRemoved :
    noteUpdatedRemoved.others.reverse.Perm noteUpdatedRemoved.others ∧
    ¬ SameFeed "alice1"
      ((deliverAll .permissive false "alice" noteUpdatedRemoved.others
        (noteUpdatedRemoved.deliverInitial .permissive false "alice" {})).messages "alice")
      ((deliverAll .permissive false "alice" noteUpdatedRemoved.others.reverse
        (noteUpdatedRemoved.deliverInitial .permissive false "alice" {})).messages "alice") := by
  refine ⟨List.reverse_perm _, fun h => ?_⟩
  have hcid := h.cids (Message.getCid (RecordsWrite.stored (note "w" "2")))
  revert hcid
  decide

theorem delivers_noteRemoved : noteRemoved.Delivers .permissive false "alice" {} where
  passes := ⟨rfl, rfl⟩
  initial := authorized_noteRemoved.initial
  others := by
    intro l r hsub _
    have hlength := hsub.length_le
    have hl : l = [] := by
      simpa [noteRemoved, ofNote] using hlength
    have hr : r = .delete (noteDelete "d" "2") := by
      simpa [noteRemoved, ofNote, NoteChange.request] using hsub.subset (List.mem_cons_self)
    subst hl hr
    refine ⟨⟨rfl, rfl⟩, ⟨rfl, rfl, fun i hi => ⟨?_, rfl⟩⟩, fun m data h => by cases h⟩
    have hfetch : RecordsDeleteHandler.fetchInitialRecordsWrite
        (deliverAll .permissive false "alice" []
          (noteRemoved.deliverInitial .permissive false "alice" {})) "alice" "alice1" =
        some (note "i" "1") := by
      decide
    cases hfetch.symm.trans hi
    decide

/-- The note and its delete agree. -/
theorem sameFeed_noteRemoved : noteRemoved.Start (fun _ => 0) "alice" {} ∧
    ∀ order order' : List Request, order.Perm noteRemoved.others →
      order'.Perm noteRemoved.others → SameFeed "alice1"
        ((deliverAll .permissive false "alice" order
          (noteRemoved.deliverInitial .permissive false "alice" {})).messages "alice")
        ((deliverAll .permissive false "alice" order'
          (noteRemoved.deliverInitial .permissive false "alice" {})).messages "alice") := by
  have honly : ∀ d, .delete d ∈ noteRemoved.others → d = noteDelete "d" "2" := by
    intro d hd
    simpa [noteRemoved, ofNote, NoteChange.request] using hd
  refine ⟨start_noteRemoved,
    (sameFeed_iff start_noteRemoved delivers_noteRemoved DataStore.sizedByCid_ofText ?_).mpr
      (Or.inr (Or.inr ⟨noteDelete "d" "2", ⟨?_, ?_⟩, Or.inl ⟨?_, Or.inl honly⟩⟩))⟩
  · intro d hd
    rw [honly d hd]
    rfl
  · simp [noteRemoved, ofNote, NoteChange.request]
  · intro d hd
    rw [honly d hd]
  · intro w data hw
    simp [noteRemoved, ofNote, NoteChange.request] at hw

end EnboxDwn.MessageSet
