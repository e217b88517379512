import EnboxDwn.RecordState

/-! Order independence of the latest state: the messages of one record, processed one
at a time in any order after the initial write. -/
namespace EnboxDwn
open KeyValues Journal MessageStore StorageController TombstoneMachine

variable [P : Platform]

/-! ## Sets of messages and their orders -/

/-- A message handed to the node after the initial write of its record. -/
inductive Request where
  | write (m : RecordsWriteMessage) (data : P.Data)
  | delete (m : RecordsDeleteMessage)

namespace Request

def message : Request → GenericMessage
  | .write m _ => .recordsWrite m
  | .delete m => .recordsDelete m

def cid : Request → Cid
  | .write m _ => Message.getCid (RecordsWrite.stored m)
  | .delete m => Message.getCid (RecordsDelete.stored m)

def event : Request → Event Age
  | .write m _ => .write (RecordsWrite.age m)
  | .delete m => .delete m.descriptor.prune (RecordsDelete.age m)

def handle (deps : HandlerDependencies) (tenant : Did) : Request → Task Reply
  | .write m data => RecordsWriteHandler.handle deps tenant m (some data)
  | .delete m => RecordsDeleteHandler.handle deps tenant m

/-- The checks a request must pass once the initial write is stored. -/
def Admissible (deps : HandlerDependencies) (tenant : Did) (s : Stores) : Request → Prop
  | .write m data => WriteAdmissible deps tenant m (some data) s
  | .delete m => DeleteAdmissible deps tenant m s

end Request

/-- The messages of one record: the initial write, updates that carry their data, and
deletes, all distinct, none of them a squash. -/
structure MessageSet where
  initial : RecordsWriteMessage
  initialData : Option P.Data
  others : List Request
  isInitial : RecordsWrite.isInitialWrite initial = true
  initialCarries : ∀ data, initialData = some data → CarriesData initial data
  noSquash : initial.descriptor.squash ≠ some true
  updates : ∀ m data, .write m data ∈ others → IsUpdateOf initial m ∧ CarriesData m data
  deletes : ∀ m, .delete m ∈ others → m.descriptor.recordId = initial.recordId
  distinct : (Message.getCid (RecordsWrite.stored initial) :: others.map Request.cid).Nodup

def processAll (deps : HandlerDependencies) (tenant : Did) (requests : List Request)
    (s : Stores) : Stores :=
  requests.foldl (fun s r => (r.handle deps tenant).final s) s

namespace MessageSet
variable (ms : MessageSet)

def processInitial (deps : HandlerDependencies) (tenant : Did) (s : Stores) : Stores :=
  (RecordsWriteHandler.handle deps tenant ms.initial ms.initialData).final s

def events : List (Event Age) := ms.others.map Request.event

def cids : List Cid := Message.getCid (RecordsWrite.stored ms.initial) :: ms.others.map Request.cid

def Known (g : GenericMessage) : Prop :=
  g = .recordsWrite ms.initial ∨ ∃ r ∈ ms.others, r.message = g

def IsWrite (m : RecordsWriteMessage) : Prop := m = ms.initial ∨ ∃ data, .write m data ∈ ms.others

/-- A store that does not know the record yet. -/
structure Start (rank : String → Nat) (tenant : Did) (s : Stores) : Prop where
  wf : (s.messages tenant).WellFormed
  unknown : recordRows (s.messages tenant) ms.initial.recordId = []
  unstored : ∀ r ∈ (s.messages tenant).rows, r.cid ∉ ms.cids
  room : (s.messages tenant).head + ms.cids.length < Replication.positionLimit
  ranked : (s.messages tenant).Ranked rank
  parent : ∀ p, ms.initial.descriptor.parentId = some p → rank p < rank ms.initial.recordId
  sound : s.data.Sound

/-- Every message passes its checks at every point at which some order processes it. -/
structure Authorized (deps : HandlerDependencies) (tenant : Did) (s : Stores) : Prop where
  initial : WriteAdmissible deps tenant ms.initial ms.initialData s
  others : ∀ l r, (r :: l).Subperm ms.others →
    recordRows ((processAll deps tenant l (ms.processInitial deps tenant s)).messages tenant)
      ms.initial.recordId ≠ [] →
    r.Admissible deps tenant (processAll deps tenant l (ms.processInitial deps tenant s))

/-- The message that should end up as the latest: the greatest delete, prune before plain,
else the greatest write. -/
def IsWinner : GenericMessage → Prop
  | .recordsDelete d => .delete d ∈ ms.others ∧ ∀ d', .delete d' ∈ ms.others →
      rank (d'.descriptor.prune, RecordsDelete.age d') ≤ rank (d.descriptor.prune, RecordsDelete.age d)
  | .recordsWrite w => (∀ d, .delete d ∉ ms.others) ∧ ms.IsWrite w ∧
      ∀ w', ms.IsWrite w' → RecordsWrite.age w' ≤ RecordsWrite.age w
  | .modulesConfigure _ => False

/-- No delete; or a greatest delete newer than every write; or a single delete and at
most one write that is newer than it and not older than the initial write. -/
def Converges : Prop :=
  (∀ d, .delete d ∉ ms.others) ∨
  ∃ d, ms.IsWinner (.recordsDelete d) ∧
    ((∀ w, ms.IsWrite w → RecordsWrite.age w < RecordsDelete.age d) ∨
      ((∀ d', .delete d' ∈ ms.others → d' = d) ∧
        ∀ w w', ms.IsWrite w → ms.IsWrite w' →
          RecordsWrite.age ms.initial ≤ RecordsWrite.age w →
          RecordsWrite.age ms.initial ≤ RecordsWrite.age w' →
          RecordsDelete.age d < RecordsWrite.age w → RecordsDelete.age d < RecordsWrite.age w' →
          w = w'))

end MessageSet

/-- What the machine calls a message. -/
def GenericMessage.event : GenericMessage → Option (Event Age)
  | .recordsWrite m => some (.write (RecordsWrite.age m))
  | .recordsDelete m => some (.delete m.descriptor.prune (RecordsDelete.age m))
  | .modulesConfigure _ => none

namespace Shows
variable {i : RecordsWriteMessage} {queryable : Bool} {log : Log} {st : State Age}
  {events : List (Event Age)}

theorem exists_top (h : Shows i queryable log st) (hst : Reached (RecordsWrite.age i) events st) :
    ∃ r ∈ recordRows log i.recordId, Message.age r.message = topAge st := by
  cases ht : st.tomb with
  | none =>
    obtain ⟨r, hr, w, hw, hage⟩ := h.exists_newest_write hst
    exact ⟨r, hr, by rw [age_of_write hw, hage, topAge, ht]⟩
  | some t =>
    obtain ⟨r, hr, d, hd, rfl⟩ := (h.tomb t).mp ht
    exact ⟨r, hr, by rw [age_of_delete hd, topAge, ht]⟩

theorem eq_of_age (h : Shows i queryable log st) {r r' : Row}
    (hr : r ∈ recordRows log i.recordId) (hr' : r' ∈ recordRows log i.recordId)
    (hage : Message.age r.message = Message.age r'.message) : r = r' :=
  h.wf.eq_of_cid (mem_recordRows.mp hr).1 (mem_recordRows.mp hr').1
    (Message.getCid_eq_of_age_eq hage)

theorem latestCids_eq (h : Shows i queryable log st)
    (hst : Reached (RecordsWrite.age i) events st)
    (hq : topAge st = RecordsWrite.age i → queryable = true) :
    latestCids log i.recordId = [(topAge st).2] := by
  obtain ⟨r, hr, hage⟩ := h.exists_top hst
  have hlatest : r.isLatest = true := (h.latest r hr).mpr ⟨hage, by rwa [hage]⟩
  have hnodup : ((recordRows log i.recordId).filter Row.isLatest).Nodup := by
    have hrows : log.rows.Nodup := List.Nodup.of_map _ h.wf.distinct
    exact (hrows.filter _).filter _
  have hperm : ((recordRows log i.recordId).filter Row.isLatest).Perm [r] := by
    refine (List.perm_ext_iff_of_nodup hnodup (List.nodup_singleton r)).mpr fun r' => ?_
    rw [List.mem_singleton]
    constructor
    · intro hr'
      obtain ⟨hr', hl⟩ := List.mem_filter.mp hr'
      exact h.eq_of_age hr' hr (((h.latest r' hr').mp hl).1.trans hage.symm)
    · intro heq
      exact heq ▸ List.mem_filter.mpr ⟨hr, hlatest⟩
  rw [latestCids, List.perm_singleton.mp hperm, ← hage]
  rfl

theorem latestCids_eq_nil (h : Shows i false log st)
    (htop : topAge st = RecordsWrite.age i) : latestCids log i.recordId = [] := by
  have hnone : (recordRows log i.recordId).filter Row.isLatest = [] := by
    refine List.filter_eq_nil_iff.mpr fun r hr hl => ?_
    obtain ⟨hage, hq⟩ := (h.latest r hr).mp hl
    exact absurd (hq (hage.trans htop)) (by simp)
  rw [latestCids, hnone]
  rfl

end Shows

namespace MessageSet
variable {ms : MessageSet} {deps : HandlerDependencies} {tenant : Did} {rank : String → Nat}
  {s : Stores} {st : State Age}

theorem recordState_handle {r : Request} {pending : List Cid} {events : List (Event Age)}
    (h : RecordState ms.Known ms.initial queryable rank tenant (r.cid :: pending) s st)
    (hst : Reached (RecordsWrite.age ms.initial) events st) (hr : r ∈ ms.others)
    (hpending : r.cid ∉ pending)
    (hparent : ∀ p, ms.initial.descriptor.parentId = some p → rank p < rank ms.initial.recordId)
    (hself : ¬ PermissionsModule.RevokesItself ms.initial) (hsize : DataStore.SizedByCid (P := P))
    (hadm : r.Admissible deps tenant s) :
    RecordState ms.Known ms.initial queryable rank tenant pending ((r.handle deps tenant).final s)
      (step false (RecordsWrite.age ms.initial) st r.event) := by
  cases r with
  | write m data =>
    obtain ⟨hupdate, hdata⟩ := ms.updates m data hr
    obtain ⟨hold, hrun⟩ | ⟨⟨t, ht, hlt, hk⟩, hrun⟩ | ⟨hnewer, hold, -, hfinal⟩ :=
      h.handle_write hst ms.isInitial hupdate ms.noSquash hself hparent hpending hdata hsize
        (Or.inr ⟨_, hr, rfl⟩) hadm
    · rw [Request.handle, hrun.final_eq, Request.event, step, accept_refused hold]
      exact h.tail
    · rw [Request.handle, hrun.final_eq, Request.event, step, accept_after_tomb ht hlt hk]
      exact h.tail
    · rw [Request.event, step, accept_newest hnewer hold]
      exact hfinal
  | delete d =>
    obtain ⟨⟨u, hu, hlt, hle⟩, hrun⟩ | ⟨hperformed, hfinal, -⟩ :=
      h.handle_delete hst ms.isInitial (ms.deletes d hr) hparent hpending (Or.inr ⟨_, hr, rfl⟩)
        hadm
    · rw [Request.handle, hrun.final_eq, Request.event, step, bury_refused hu hlt hle]
      exact h.tail
    · rw [Request.event, step, bury_performed hperformed]
      exact hfinal

theorem mem_events {e : Event Age} : e ∈ ms.events ↔ ∃ r ∈ ms.others, r.event = e :=
  List.mem_map

theorem recordState_processAll (hstart : ms.Start rank tenant s) (hauth : ms.Authorized deps tenant s)
    (hself : ¬ PermissionsModule.RevokesItself ms.initial) (hsize : DataStore.SizedByCid (P := P))
    (done todo : List Request) (horder : (done ++ todo).Perm ms.others)
    (hst : Reached (RecordsWrite.age ms.initial) ms.events st)
    (h : RecordState ms.Known ms.initial queryable rank tenant (todo.map Request.cid)
      (processAll deps tenant done (ms.processInitial deps tenant s)) st) :
    RecordState ms.Known ms.initial queryable rank tenant []
      (processAll deps tenant (done ++ todo) (ms.processInitial deps tenant s))
      ((todo.map Request.event).foldl (step false (RecordsWrite.age ms.initial)) st) := by
  induction todo generalizing done st with
  | nil => simpa using h
  | cons r todo ih =>
    have hr : r ∈ ms.others := horder.mem_iff.mp (by simp)
    have hnodup : (r.cid :: todo.map Request.cid).Nodup := by
      have hall := (horder.map Request.cid).nodup_iff.mpr (List.nodup_cons.mp ms.distinct).2
      rw [List.map_append, List.map_cons] at hall
      exact (List.nodup_append.mp hall).2.1
    have hsub : (r :: done).Subperm ms.others := by
      have hperm : (r :: (done ++ todo)).Perm ms.others := List.perm_middle.symm.trans horder
      exact ((List.sublist_append_left done todo).cons_cons r).subperm.trans hperm.subperm
    have hknown : recordRows ((processAll deps tenant done
        (ms.processInitial deps tenant s)).messages tenant) ms.initial.recordId ≠ [] := by
      obtain ⟨ri, hri, -⟩ := h.shows.initialStored
      exact List.ne_nil_of_mem hri
    have hstep := recordState_handle h hst hr (List.nodup_cons.mp hnodup).1 hstart.parent hself hsize
      (hauth.others done r hsub hknown)
    have hprocess : (r.handle deps tenant).final
        (processAll deps tenant done (ms.processInitial deps tenant s)) =
        processAll deps tenant (done ++ [r]) (ms.processInitial deps tenant s) := by
      simp [processAll]
    rw [hprocess] at hstep
    have hreached : Reached (RecordsWrite.age ms.initial) ms.events
        (step false (RecordsWrite.age ms.initial) st r.event) :=
      reached_step hst (mem_events.mpr ⟨r, hr, rfl⟩)
    have := ih (done ++ [r]) (by simpa using horder) hreached hstep
    simpa using this

/-! ### The initial write -/

theorem commit_initial (hstart : ms.Start rank tenant s)
    (hadm : WriteAdmissible deps tenant ms.initial ms.initialData s)
    (hsize : DataStore.SizedByCid (P := P)) :
    ∃ t putResult, Program.Runs (RecordsWriteHandler.commitRecordsWrite deps tenant ms.initial
        ms.initialData []) s putResult t ∧
      RecordState ms.Known ms.initial ms.initialData.isSome rank tenant (ms.others.map Request.cid) t
        (State.init (RecordsWrite.age ms.initial)) := by
  have hquery := query_unknown hstart.wf hstart.unknown
  have hsnap : Snapshot (s.messages tenant) ms.initial.recordId [] :=
    hquery ▸ snapshot_query hstart.wf ms.initial.recordId
  have hfresh : ∀ r ∈ (s.messages tenant).rows,
      r.cid ≠ Message.getCid (RecordsWrite.stored ms.initial) :=
    fun r hr heq => hstart.unstored r hr (by simp [cids, heq])
  have hroom := hstart.room
  rw [cids, List.length_cons] at hroom
  obtain ⟨stored, data, hstored, hsound, hcommit⟩ := commitRecordsWrite_ok hadm ms.initialCarries
    (fun _ => ms.isInitial) hsize hstart.sound rfl hstart.wf hsnap hfresh (by omega)
  have hcid : Message.getCid stored = Message.getCid (RecordsWrite.stored ms.initial) := by
    simp only [Message.getCid, hstored, RecordsWrite.stored]
  refine ⟨_, _, hcommit, ?_⟩
  refine recordState_committed hstart.wf hsnap hstart.ranked ?_ hroom hsound ?_ ?_ ?_ ?_ ?_
  · rw [hcid]
    exact hstart.unstored
  · rw [hcid]
    exact (List.nodup_cons.mp ms.distinct).1
  · intro p hp
    rw [RecordsWrite.get_parentId] at hp
    cases hpar : ms.initial.descriptor.parentId with
    | none => simp [hpar] at hp
    | some p' =>
      have hpp : p' = p := by simpa [hpar, text] using hp
      simpa [StoredMessage.recordId, hstored, ← hpp] using hstart.parent p' hpar
  · rw [hstart.unknown]
    simp
  · rw [hstored]
    exact Or.inl rfl
  · have hshows := Shows.commitInitial ms.initialData.isSome hstart.wf hstart.unknown
      hstored (by rwa [hcid])
    rwa [Shows.existing, hquery] at hshows

theorem handle_initial (hstart : ms.Start rank tenant s)
    (hadm : WriteAdmissible deps tenant ms.initial ms.initialData s) :
    RecordsWriteHandler.handle deps tenant ms.initial ms.initialData s =
      RecordsWriteHandler.commitIfNewest deps tenant ms.initial ms.initialData [] s := by
  have hquery := query_unknown hstart.wf hstart.unknown
  have hadmitted := handle_admitted none hadm (by rw [hquery]; simp)
    (by rw [hquery, ms.isInitial]; rfl) rfl
  rwa [hquery] at hadmitted

theorem recordState_processInitial (hstart : ms.Start rank tenant s)
    (hadm : WriteAdmissible deps tenant ms.initial ms.initialData s)
    (hself : ¬ PermissionsModule.RevokesItself ms.initial)
    (hsize : DataStore.SizedByCid (P := P)) :
    RecordState ms.Known ms.initial ms.initialData.isSome rank tenant (ms.others.map Request.cid)
      (ms.processInitial deps tenant s) (State.init (RecordsWrite.age ms.initial)) := by
  obtain ⟨t, putResult, hcommit, hstate⟩ := commit_initial hstart hadm hsize
  have hfinal := (hstate.of_committed rfl ms.noSquash hself rfl rfl hcommit).2
  rw [processInitial, Program.final, Program.trail, handle_initial hstart hadm]
  exact hfinal

/-- Processing every message in some order runs the machine on their events. -/
theorem recordState_run (hstart : ms.Start rank tenant s) (hauth : ms.Authorized deps tenant s)
    (hself : ¬ PermissionsModule.RevokesItself ms.initial) (hsize : DataStore.SizedByCid (P := P))
    {order : List Request} (horder : order.Perm ms.others) :
    RecordState ms.Known ms.initial ms.initialData.isSome rank tenant []
      (processAll deps tenant order (ms.processInitial deps tenant s))
      (run false (RecordsWrite.age ms.initial) (order.map Request.event)) := by
  have hinitial := recordState_processInitial hstart hauth.initial hself hsize
  exact recordState_processAll hstart hauth hself hsize [] order (by simpa using horder)
    reached_init (hinitial.of_perm (horder.map Request.cid))

/-! ### A revocation that revokes itself -/

theorem unknown_of_revokesItself (hstart : ms.Start rank tenant s)
    (hadm : WriteAdmissible deps tenant ms.initial ms.initialData s)
    (hself : PermissionsModule.RevokesItself ms.initial) (hsize : DataStore.SizedByCid (P := P)) :
    ((ms.processInitial deps tenant s).messages tenant).WellFormed ∧
      recordRows ((ms.processInitial deps tenant s).messages tenant) ms.initial.recordId = [] := by
  obtain ⟨t, putResult, hcommit, hstate⟩ := commit_initial hstart hadm hsize
  have hfinal : ms.processInitial deps tenant s =
      (RecordsWriteHandler.postProcess tenant ms.initial).final t := by
    rw [processInitial, Program.final, Program.trail, handle_initial hstart hadm, ← Program.trail,
      ← Program.final, (commitIfNewest_committed ms.noSquash rfl hcommit).2]
  rw [hfinal]
  exact hstate.shows.unknown_of_revokesItself rfl ms.noSquash hself
    (dateCreated_of_parse hadm.parsed ms.isInitial)

theorem final_handle_unknown (wf : (s.messages tenant).WellFormed)
    (hunknown : recordRows (s.messages tenant) ms.initial.recordId = []) {r : Request}
    (hr : r ∈ ms.others) : (r.handle deps tenant).final s = s := by
  have hquery := query_unknown wf hunknown
  cases r with
  | write m data =>
    obtain ⟨hm, -⟩ := ms.updates m data hr
    exact final_handle_update_unknown wf hunknown hm (some data)
  | delete d =>
    unfold Request.handle RecordsDeleteHandler.handle
    dsimp only
    split
    · rfl
    · split
      · rfl
      · rw [(Stores.runs_query _ _ _).final_bind, ms.deletes d hr, hquery]
        rfl

theorem processAll_unknown (wf : (s.messages tenant).WellFormed)
    (hunknown : recordRows (s.messages tenant) ms.initial.recordId = []) {l : List Request}
    (hl : ∀ r ∈ l, r ∈ ms.others) : processAll deps tenant l s = s := by
  induction l with
  | nil => rfl
  | cons r l ih =>
    have hfirst : (r.handle deps tenant).final s = s :=
      final_handle_unknown wf hunknown (hl r (by simp))
    rw [processAll, List.foldl_cons, hfirst]
    exact ih fun r' hr' => hl r' (by simp [hr'])

/-! ### The set and its events -/

theorem exists_order {l : List (Event Age)} (hl : l.Perm ms.events) :
    ∃ order : List Request, order.Perm ms.others ∧ order.map Request.event = l :=
  Selection.exists_perm_of_perm_map hl

theorem delete_mem_events {p : Bool} {k : Age} :
    Event.delete p k ∈ ms.events ↔
      ∃ d, .delete d ∈ ms.others ∧ d.descriptor.prune = p ∧ RecordsDelete.age d = k := by
  rw [mem_events]
  constructor
  · intro ⟨r, hr, he⟩
    cases r with
    | write m data => cases he
    | delete d =>
      rw [Request.event, Event.delete.injEq] at he
      exact ⟨d, hr, he.1, he.2⟩
  · intro ⟨d, hd, hp, hk⟩
    exact ⟨.delete d, hd, by rw [Request.event, hp, hk]⟩

theorem write_mem_events {k : Age} :
    Event.write k ∈ .write (RecordsWrite.age ms.initial) :: ms.events ↔
      ∃ w, ms.IsWrite w ∧ RecordsWrite.age w = k := by
  rw [List.mem_cons, mem_events]
  constructor
  · intro h
    obtain h | ⟨r, hr, he⟩ := h
    · rw [Event.write.injEq] at h
      exact ⟨ms.initial, Or.inl rfl, h.symm⟩
    · cases r with
      | write m data =>
        rw [Request.event, Event.write.injEq] at he
        exact ⟨m, Or.inr ⟨data, hr⟩, he⟩
      | delete d => cases he
  · intro ⟨w, hw, hk⟩
    obtain rfl | ⟨data, hdata⟩ := hw
    · exact Or.inl (by rw [hk])
    · exact Or.inr ⟨.write w data, hdata, by rw [Request.event, hk]⟩

theorem map_cid_events :
    (Event.write (RecordsWrite.age ms.initial) :: ms.events).map (fun e => e.age.2) = ms.cids := by
  have hcid : ∀ r : Request, r.event.age.2 = r.cid := by
    intro r
    cases r <;> rfl
  simp only [List.map_cons, events, List.map_map, cids]
  congr 1
  exact List.map_congr_left fun r _ => hcid r

theorem event_eq_of_cid {e e' : Event Age}
    (he : e ∈ .write (RecordsWrite.age ms.initial) :: ms.events)
    (he' : e' ∈ .write (RecordsWrite.age ms.initial) :: ms.events) (hc : e.age.2 = e'.age.2) :
    e = e' := by
  have hnodup : ((Event.write (RecordsWrite.age ms.initial) :: ms.events).map
      fun e => e.age.2).Nodup := by
    rw [map_cid_events]
    exact ms.distinct
  exact List.inj_on_of_nodup_map hnodup he he' hc

theorem nodup_events : ms.events.Nodup := by
  have hnodup : ((Event.write (RecordsWrite.age ms.initial) :: ms.events).map
      fun e => e.age.2).Nodup := by
    rw [map_cid_events]
    exact ms.distinct
  exact (List.nodup_cons.mp (List.Nodup.of_map _ hnodup)).2

theorem agesDistinct : AgesDistinct (RecordsWrite.age ms.initial) ms.events := by
  intro p k hdel hwrite
  have := event_eq_of_cid (List.mem_cons_of_mem _ hdel) hwrite rfl
  cases this

theorem request_eq_of_cid {r r' : Request} (hr : r ∈ ms.others) (hr' : r' ∈ ms.others)
    (hc : r.cid = r'.cid) : r = r' :=
  List.inj_on_of_nodup_map (List.nodup_cons.mp ms.distinct).2 hr hr' hc

theorem delete_eq_of_age {d d' : RecordsDeleteMessage} (hd : .delete d ∈ ms.others)
    (hd' : .delete d' ∈ ms.others) (hage : RecordsDelete.age d = RecordsDelete.age d') : d = d' := by
  have := request_eq_of_cid hd hd' (Message.getCid_eq_of_age_eq hage)
  cases this
  rfl

theorem write_eq_of_age {w w' : RecordsWriteMessage} (hw : ms.IsWrite w) (hw' : ms.IsWrite w')
    (hage : RecordsWrite.age w = RecordsWrite.age w') : w = w' := by
  have hc := Message.getCid_eq_of_age_eq hage
  have hinitial := (List.nodup_cons.mp ms.distinct).1
  obtain rfl | ⟨data, hw⟩ := hw
  · obtain rfl | ⟨data', hw'⟩ := hw'
    · rfl
    · exact absurd (List.mem_map.mpr ⟨_, hw', hc.symm⟩) hinitial
  · obtain rfl | ⟨data', hw'⟩ := hw'
    · exact absurd (List.mem_map.mpr ⟨_, hw, hc⟩) hinitial
    · have := request_eq_of_cid hw hw' hc
      cases this
      rfl

theorem isWinner_delete {d : RecordsDeleteMessage} :
    ms.IsWinner (.recordsDelete d) ↔ .delete d ∈ ms.others ∧
      TombstoneMachine.IsWinner (RecordsWrite.age ms.initial) ms.events
        (.delete d.descriptor.prune (RecordsDelete.age d)) := by
  constructor
  · intro ⟨hd, hmax⟩
    refine ⟨hd, delete_mem_events.mpr ⟨d, hd, rfl, rfl⟩, fun p' k' h => ?_⟩
    obtain ⟨d', hd', rfl, rfl⟩ := delete_mem_events.mp h
    exact hmax d' hd'
  · intro ⟨hd, _, hmax⟩
    exact ⟨hd, fun d' hd' => hmax _ _ (delete_mem_events.mpr ⟨d', hd', rfl, rfl⟩)⟩

theorem isWinner_write {w : RecordsWriteMessage} :
    ms.IsWinner (.recordsWrite w) ↔ ms.IsWrite w ∧
      TombstoneMachine.IsWinner (RecordsWrite.age ms.initial) ms.events
        (.write (RecordsWrite.age w)) := by
  constructor
  · intro ⟨hnone, hw, hmax⟩
    refine ⟨hw, fun p' k' h => ?_, write_mem_events.mpr ⟨w, hw, rfl⟩, fun k' h => ?_⟩
    · obtain ⟨d, hd, -⟩ := delete_mem_events.mp h
      exact hnone d hd
    · obtain ⟨w', hw', rfl⟩ := write_mem_events.mp h
      exact hmax w' hw'
  · intro ⟨hw, hnone, _, hmax⟩
    refine ⟨fun d hd => hnone _ _ (delete_mem_events.mpr ⟨d, hd, rfl, rfl⟩), hw, fun w' hw' => ?_⟩
    exact hmax _ (write_mem_events.mpr ⟨w', hw', rfl⟩)

theorem exists_isWinner {e : Event Age}
    (he : TombstoneMachine.IsWinner (RecordsWrite.age ms.initial) ms.events e) :
    ∃ g, ms.IsWinner g ∧ g.event = some e := by
  cases e with
  | delete p k =>
    obtain ⟨d, hd, rfl, rfl⟩ := delete_mem_events.mp he.1
    exact ⟨.recordsDelete d, isWinner_delete.mpr ⟨hd, he⟩, rfl⟩
  | write k =>
    obtain ⟨w, hw, rfl⟩ := write_mem_events.mp he.2.1
    exact ⟨.recordsWrite w, isWinner_write.mpr ⟨hw, he⟩, rfl⟩

theorem IsWinner.event {g : GenericMessage} (hg : ms.IsWinner g) :
    ∃ e, g.event = some e ∧ e ∈ .write (RecordsWrite.age ms.initial) :: ms.events ∧
      TombstoneMachine.IsWinner (RecordsWrite.age ms.initial) ms.events e := by
  cases g with
  | recordsDelete d =>
    obtain ⟨-, hwin⟩ := isWinner_delete.mp hg
    exact ⟨_, rfl, List.mem_cons_of_mem _ hwin.1, hwin⟩
  | recordsWrite w =>
    obtain ⟨-, hwin⟩ := isWinner_write.mp hg
    exact ⟨_, rfl, hwin.2.1, hwin⟩
  | modulesConfigure c => exact hg.elim

theorem converges_iff :
    ms.Converges ↔ TombstoneMachine.Converges (RecordsWrite.age ms.initial) ms.events := by
  have hnone : (∀ d, .delete d ∉ ms.others) ↔ ∀ p k, Event.delete p k ∉ ms.events := by
    constructor
    · intro h p k hdel
      obtain ⟨d, hd, -⟩ := delete_mem_events.mp hdel
      exact h d hd
    · intro h d hd
      exact h _ _ (delete_mem_events.mpr ⟨d, hd, rfl, rfl⟩)
  refine or_congr hnone ⟨?_, ?_⟩
  · intro ⟨d, hwin, hcond⟩
    refine ⟨_, _, (isWinner_delete.mp hwin).2, hcond.imp (fun hnew x hx => ?_) fun hone => ?_⟩
    · obtain ⟨w, hw, rfl⟩ := write_mem_events.mp hx
      exact hnew w hw
    · obtain ⟨honly, hpair⟩ := hone
      refine ⟨fun p' k' h => ?_, fun x y hx hy hfx hfy hkx hky => ?_⟩
      · obtain ⟨d', hd', rfl, rfl⟩ := delete_mem_events.mp h
        rw [honly d' hd']
      · obtain ⟨w, hw, rfl⟩ := write_mem_events.mp hx
        obtain ⟨w', hw', rfl⟩ := write_mem_events.mp hy
        rw [hpair w w' hw hw' hfx hfy hkx hky]
  · intro ⟨p, k, hwin, hcond⟩
    obtain ⟨d, hd, rfl, rfl⟩ := delete_mem_events.mp hwin.1
    refine ⟨d, isWinner_delete.mpr ⟨hd, hwin⟩, hcond.imp (fun hnew w hw => ?_) fun hone => ?_⟩
    · exact hnew _ (write_mem_events.mpr ⟨w, hw, rfl⟩)
    · obtain ⟨honly, hpair⟩ := hone
      refine ⟨fun d' hd' => ?_, fun w w' hw hw' hfw hfw' hdw hdw' => ?_⟩
      · have heq := honly _ _ (delete_mem_events.mpr ⟨d', hd', rfl, rfl⟩)
        exact delete_eq_of_age hd' hd (congrArg Prod.snd heq)
      · exact write_eq_of_age hw hw' (hpair _ _ (write_mem_events.mpr ⟨w, hw, rfl⟩)
          (write_mem_events.mpr ⟨w', hw', rfl⟩) hfw hfw' hdw hdw')

/-! ### Convergence -/

theorem computeCid_of_event {g : GenericMessage} {e : Event Age} (h : g.event = some e) :
    P.computeCid g = e.age.2 := by
  cases g with
  | recordsWrite w =>
    rw [GenericMessage.event, Option.some.injEq] at h
    rw [← h]
    rfl
  | recordsDelete d =>
    rw [GenericMessage.event, Option.some.injEq] at h
    rw [← h]
    rfl
  | modulesConfigure c => cases h

theorem top_mem {order : List Request} (horder : order.Perm ms.others) :
    (run false (RecordsWrite.age ms.initial) (order.map Request.event)).top ∈
      .write (RecordsWrite.age ms.initial) :: ms.events := by
  have hreached : Reached (RecordsWrite.age ms.initial) ms.events
      (run false (RecordsWrite.age ms.initial) (order.map Request.event)) :=
    reached_run (horder.map Request.event)
  generalize run false (RecordsWrite.age ms.initial) (order.map Request.event) = st at hreached ⊢
  cases ht : st.tomb with
  | none =>
    rw [top_of_no_tomb ht]
    exact hreached.newest_mem
  | some t =>
    rw [top_of_tomb ht]
    exact List.mem_cons_of_mem _ (hreached.tomb_mem t ht)

/-- Some message would be indexed as the latest state when it is the winner: the initial
write counts only with its data. -/
def Presentable (ms : MessageSet) : Prop :=
  ms.initialData.isSome = true ∨ (∃ d, .delete d ∈ ms.others) ∨
    ∃ m data, .write m data ∈ ms.others ∧ RecordsWrite.age ms.initial < RecordsWrite.age m

theorem presentable_iff {e : Event Age}
    (he : TombstoneMachine.IsWinner (RecordsWrite.age ms.initial) ms.events e) :
    ms.Presentable ↔ (e.age = RecordsWrite.age ms.initial → ms.initialData.isSome = true) := by
  constructor
  · intro h heq
    obtain h | ⟨d, hd⟩ | ⟨m, data, hm, hlt⟩ := h
    · exact h
    · cases e with
      | write k => exact absurd (delete_mem_events.mpr ⟨d, hd, rfl, rfl⟩) (he.1 _ _)
      | delete p k =>
        refine absurd (write_mem_events.mpr ⟨ms.initial, Or.inl rfl, heq.symm⟩) ?_
        exact agesDistinct p k he.1
    · cases e with
      | write k =>
        have hle := he.2.2 _ (write_mem_events.mpr ⟨m, Or.inr ⟨data, hm⟩, rfl⟩)
        exact absurd (heq ▸ hle) hlt.not_ge
      | delete p k =>
        refine absurd (write_mem_events.mpr ⟨ms.initial, Or.inl rfl, heq.symm⟩) ?_
        exact agesDistinct p k he.1
  · intro h
    cases e with
    | delete p k =>
      obtain ⟨d, hd, -⟩ := delete_mem_events.mp he.1
      exact Or.inr (Or.inl ⟨d, hd⟩)
    | write k =>
      obtain ⟨w, hw, rfl⟩ := write_mem_events.mp he.2.1
      have hle := he.2.2 _ (write_mem_events.mpr ⟨ms.initial, Or.inl rfl, rfl⟩)
      obtain hlt | heq := lt_or_eq_of_le hle
      · obtain rfl | ⟨data, hdata⟩ := hw
        · exact absurd hlt (lt_irrefl _)
        · exact Or.inr (Or.inr ⟨w, data, hdata, hlt⟩)
      · exact Or.inl (h heq.symm)

/-- Every order leaves the winner as the latest message exactly when the deletes and the
newer writes are as `Converges` says, the record does not revoke itself, and the winner
is presentable. -/
theorem latest_isWinner_iff (hstart : ms.Start rank tenant s)
    (hauth : ms.Authorized deps tenant s) (hsize : DataStore.SizedByCid (P := P)) :
    (∀ order : List Request, order.Perm ms.others → ∃ g, ms.IsWinner g ∧
      latestCids ((processAll deps tenant order (ms.processInitial deps tenant s)).messages tenant)
        ms.initial.recordId = [P.computeCid g]) ↔
      ms.Converges ∧ ¬ PermissionsModule.RevokesItself ms.initial ∧ ms.Presentable := by
  constructor
  · intro hall
    have hself : ¬ PermissionsModule.RevokesItself ms.initial := by
      intro hself
      obtain ⟨wf, hunknown⟩ := unknown_of_revokesItself hstart hauth.initial hself hsize
      obtain ⟨g, -, hlatest⟩ := hall ms.others (List.Perm.refl _)
      rw [processAll_unknown wf hunknown fun r hr => hr, latestCids, hunknown] at hlatest
      cases hlatest
    -- the latest message of a run is the top of the machine's run
    have hwin : ∀ order : List Request, order.Perm ms.others →
        TombstoneMachine.IsWinner (RecordsWrite.age ms.initial) ms.events
          (run false (RecordsWrite.age ms.initial) (order.map Request.event)).top ∧
        ms.Presentable := by
      intro order horder
      obtain ⟨g, hg, hlatest⟩ := hall order horder
      have hstate := recordState_run hstart hauth hself hsize horder
      have hreached : Reached (RecordsWrite.age ms.initial) ms.events
          (run false (RecordsWrite.age ms.initial) (order.map Request.event)) :=
        reached_run (horder.map Request.event)
      have hq : topAge (run false (RecordsWrite.age ms.initial) (order.map Request.event)) =
          RecordsWrite.age ms.initial → ms.initialData.isSome = true := by
        intro htop
        by_contra hdata
        rw [Bool.not_eq_true] at hdata
        have hshows := hstate.shows
        rw [hdata] at hshows
        rw [hshows.latestCids_eq_nil htop] at hlatest
        cases hlatest
      rw [hstate.shows.latestCids_eq hreached hq, List.singleton_inj, topAge_eq] at hlatest
      obtain ⟨e, hge, hmem, hewin⟩ := hg.event
      rw [computeCid_of_event hge] at hlatest
      rw [event_eq_of_cid (top_mem horder) hmem hlatest]
      refine ⟨hewin, (presentable_iff hewin).mpr fun hage => hq ?_⟩
      rw [topAge_eq, event_eq_of_cid (top_mem horder) hmem hlatest, hage]
    refine ⟨converges_iff.mpr ?_, hself, (hwin ms.others (List.Perm.refl _)).2⟩
    refine (forall_isWinner_iff nodup_events agesDistinct).mp fun l hl => ?_
    obtain ⟨order, horder, rfl⟩ := exists_order hl
    exact (hwin order horder).1
  · intro ⟨hconv, hself, hpresent⟩ order horder
    have hwin := (forall_isWinner_iff nodup_events agesDistinct).mpr (converges_iff.mp hconv) _
      (horder.map Request.event)
    obtain ⟨g, hg, hge⟩ := exists_isWinner hwin
    refine ⟨g, hg, ?_⟩
    have hstate := recordState_run hstart hauth hself hsize horder
    have hreached : Reached (RecordsWrite.age ms.initial) ms.events
        (run false (RecordsWrite.age ms.initial) (order.map Request.event)) :=
      reached_run (horder.map Request.event)
    rw [hstate.shows.latestCids_eq hreached ?_, computeCid_of_event hge, topAge_eq]
    rw [topAge_eq]
    exact (presentable_iff hwin).mp hpresent

end MessageSet

end EnboxDwn

namespace EnboxDwn.MessageSet
open Journal MessageStore TombstoneMachine

local instance : Platform := Platform.ofText

def note (signature : String) (messageTimestamp : Timestamp) : RecordsWriteMessage where
  recordId := "alice1"
  contextId := "alice1"
  descriptor :=
    { module := "notes", modulePath := "note", dataCid := "text", dataSize := 4,
      dataFormat := "text/plain", dateCreated := "1", messageTimestamp }
  authorization := { signature, signer := "alice" }

def noteDelete (signature : String) (messageTimestamp : Timestamp) : RecordsDeleteMessage where
  descriptor := { messageTimestamp, recordId := "alice1", prune := false }
  authorization := { signature, signer := "alice" }

/-- Updates and deletes of the note, by signature and timestamp. -/
inductive NoteChange where
  | update (signature : String) (messageTimestamp : Timestamp)
  | remove (signature : String) (messageTimestamp : Timestamp)

def NoteChange.request : NoteChange → Request
  | .update signature t => .write (note signature t) "text"
  | .remove signature t => .delete (noteDelete signature t)

def NoteChange.isChange : NoteChange → Bool
  | .update signature t => !RecordsWrite.isInitialWrite (note signature t)
  | .remove _ _ => true

def ofNote (changes : List NoteChange) (hchanges : changes.all NoteChange.isChange = true)
    (hdistinct : (Message.getCid (RecordsWrite.stored (note "i" "1")) ::
      (changes.map NoteChange.request).map Request.cid).Nodup) : MessageSet where
  initial := note "i" "1"
  initialData := some "text"
  others := changes.map NoteChange.request
  isInitial := by decide
  initialCarries := by
    intro data h
    cases h
    exact ⟨rfl, by decide⟩
  noSquash := by simp [note]
  updates := by
    intro m data h
    obtain ⟨c, hc, heq⟩ := List.mem_map.mp h
    have hchange := List.all_eq_true.mp hchanges c hc
    have hlength : Platform.byteLength "text" = 4 := by decide
    cases c with
    | update signature t =>
      cases heq
      rw [NoteChange.isChange, Bool.not_eq_true'] at hchange
      exact ⟨⟨rfl, hchange, rfl⟩, rfl, hlength⟩
    | remove signature t => cases heq
  deletes := by
    intro m h
    obtain ⟨c, -, heq⟩ := List.mem_map.mp h
    cases c with
    | update signature t => cases heq
    | remove signature t =>
      cases heq
      rfl
  distinct := hdistinct

def staleDelete : MessageSet :=
  ofNote [.update "w" "3", .remove "d" "2", .update "x" "4"] (by decide) (by decide)

/-- The second update displaces the tombstone that the stale delete left. -/
theorem latest_of_staleDelete :
    staleDelete.IsWinner (.recordsDelete (noteDelete "d" "2")) ∧
    latestCids ((processAll .permissive "alice" staleDelete.others
      (staleDelete.processInitial .permissive "alice" {})).messages "alice") "alice1" =
        [Message.getCid (RecordsWrite.stored (note "x" "4"))] ∧
    Message.getCid (RecordsWrite.stored (note "x" "4")) ≠
      Message.getCid (RecordsDelete.stored (noteDelete "d" "2")) := by
  refine ⟨⟨?_, ?_⟩, by decide, by decide⟩
  · simp [staleDelete, ofNote, NoteChange.request]
  · intro d hd
    have heq : d = noteDelete "d" "2" := by
      simpa [staleDelete, ofNote, NoteChange.request] using hd
    rw [heq]

def noteRemoved : MessageSet := ofNote [.remove "d" "2"] (by decide) (by decide)

theorem start_noteRemoved : noteRemoved.Start (fun _ => 0) "alice" {} where
  wf := Log.WellFormed.empty
  unknown := rfl
  unstored := by simp
  room := by decide
  ranked := by simp [Log.Ranked]
  parent := by simp [noteRemoved, ofNote, note]
  sound := DataStore.sound_empty

theorem authorized_noteRemoved : noteRemoved.Authorized .permissive "alice" {} where
  initial :=
    { parsed := by decide
      authenticated := rfl
      authorized := rfl
      referential := ⟨{}, rfl, rfl⟩
      preProcessed := rfl
      validated := fun _ _ _ => rfl
      control := by decide }
  others := by
    intro l r hsub _
    have hlength := hsub.length_le
    have hl : l = [] := by
      simpa [noteRemoved, ofNote] using hlength
    have hr : r = .delete (noteDelete "d" "2") := by
      simpa [noteRemoved, ofNote, NoteChange.request] using hsub.subset (List.mem_cons_self)
    subst hl hr
    refine ⟨rfl, rfl, fun i hi => ⟨?_, rfl⟩⟩
    have hfetch : RecordsDeleteHandler.fetchInitialRecordsWrite
        (processAll .permissive "alice" [] (noteRemoved.processInitial .permissive "alice" {}))
        "alice" "alice1" = some (note "i" "1") := by
      decide
    cases hfetch.symm.trans hi
    decide

/-- Here every order ends with the tombstone. -/
theorem latest_of_noteRemoved : noteRemoved.Start (fun _ => 0) "alice" {} ∧
    ∀ order : List Request, order.Perm noteRemoved.others → ∃ g, noteRemoved.IsWinner g ∧
      latestCids ((processAll .permissive "alice" order
        (noteRemoved.processInitial .permissive "alice" {})).messages "alice") "alice1" =
          [Platform.computeCid g] := by
  refine ⟨start_noteRemoved, (latest_isWinner_iff start_noteRemoved authorized_noteRemoved
    DataStore.sizedByCid_ofText).mpr
    ⟨Or.inr ⟨noteDelete "d" "2", ?_, Or.inl ?_⟩, by decide, Or.inl rfl⟩⟩
  · refine ⟨by simp [noteRemoved, ofNote, NoteChange.request], fun d hd => ?_⟩
    have heq : d = noteDelete "d" "2" := by
      simpa [noteRemoved, ofNote, NoteChange.request] using hd
    rw [heq]
  · intro w hw
    have heq : w = note "i" "1" := by
      simpa [IsWrite, noteRemoved, ofNote, NoteChange.request] using hw
    rw [heq]
    decide

end EnboxDwn.MessageSet
