import EnboxDwn.SyncNextRunner

/-! The budget of a sync run, over every order of the operations of its works. -/
namespace EnboxDwn.Agent.SyncNextRunner
open Process

/-! ## What a work asks -/

/-- The query of a feed page that the operation makes, writes or sends. -/
def WorkOp.query? : WorkOp → Option MessageFeedQuery
  | .runRemoteRequest (.messagesQuery _ query) => some query
  | .ask (.processQuery query) => some query
  | .ask (.queryLocalMessageFeed query) => some query
  | _ => none

def RunnerOp.query? : RunnerOp → Option MessageFeedQuery
  | .issue _ _ (.messagesQuery _ query) => some query
  | .reply _ (.messagesQuery _ query) => some query
  | .ask (.processQuery query) => some query
  | .ask (.queryLocalMessageFeed query) => some query
  | _ => none

/-- A page is queried with room for at least one receipt. -/
def RoomForReceipt (query : Option MessageFeedQuery) : Prop := ∀ q ∈ query, 1 ≤ q.limit

/-- The operation is counted as one of the given kind of work. -/
def CountedAs (work : SyncNextWorkKind) : RunnerOp → Prop
  | .issue counted _ _ => counted = work
  | _ => True

theorem roomForReceipt_none : RoomForReceipt none := by
  intro q hq
  cases hq

section Asks
variable {p : RunnerOp → Prop}

theorem asks_runWithCrossContextLock {α : Type} {lock : LockName}
    {inner : Program (Except WorkError α)} (hacquire : p (.acquire lock))
    (hrelease : p (.release lock)) (hinner : Asks p inner) :
    Asks p (runWithCrossContextLock lock inner) := by
  refine asks_bind ⟨hacquire, fun _ => trivial⟩ fun answer => ?_
  cases answer with
  | error e => trivial
  | ok _ => exact asks_bind hinner fun result => ⟨hrelease, fun _ => trivial⟩

theorem asks_requestRunner {work : SyncNextWorkKind} {endpoint : String} {request : RemoteRequest}
    (hacquire : p (.acquire (.endpoint endpoint))) (hrelease : p (.release (.endpoint endpoint)))
    (hissue : p (.issue work endpoint request)) (hreply : p (.reply endpoint request)) :
    Asks p (requestRunner work endpoint request) := by
  apply asks_runWithCrossContextLock hacquire hrelease
  refine asks_bind ⟨hissue, fun _ => trivial⟩ fun answer => ?_
  cases answer with
  | error e => trivial
  | ok _ => exact ⟨hreply, fun _ => trivial⟩

theorem countedAs_runOperation (work : SyncNextWorkKind) (endpoint : String) (op : WorkOp) :
    Asks (CountedAs work) (runOperation work endpoint op) := by
  cases op with
  | runRemoteRequest request => exact asks_requestRunner trivial trivial rfl trivial
  | shouldContinue => exact ⟨trivial, fun _ => trivial⟩
  | ask op => exact ⟨trivial, fun _ => trivial⟩

theorem roomForReceipt_runOperation {work : SyncNextWorkKind} {endpoint : String} {op : WorkOp}
    (h : RoomForReceipt op.query?) :
    Asks (fun op => RoomForReceipt op.query?) (runOperation work endpoint op) := by
  cases op with
  | runRemoteRequest request =>
    have hsame : RoomForReceipt (RunnerOp.issue work endpoint request).query? ∧
        RoomForReceipt (RunnerOp.reply endpoint request).query? := by
      cases request with
      | messagesQuery dwnUrl query => exact ⟨h, h⟩
      | applyReplicatedMessage message data ancestryOnly =>
        exact ⟨roomForReceipt_none, roomForReceipt_none⟩
      | other request => exact ⟨roomForReceipt_none, roomForReceipt_none⟩
    exact asks_requestRunner roomForReceipt_none roomForReceipt_none hsame.1 hsame.2
  | shouldContinue => exact ⟨roomForReceipt_none, fun _ => trivial⟩
  | ask op =>
    refine ⟨?_, fun _ => trivial⟩
    cases op with
    | processQuery query => exact h
    | queryLocalMessageFeed query => exact h
    | _ => exact roomForReceipt_none

end Asks

section Works
variable [P : Platform] [R : Runtime] [E : RemoteApplyPushContext.Environment]
variable {dependencies : Dependencies SyncNextPreparedFeedEntry}
  {roleRecordId : MessagesQueryReply → Option String} {operations : SyncNextRunnerOperations}

abbrev AsksForReceipt (op : WorkOp) : Prop := RoomForReceipt op.query?

omit P R E in
theorem asks_mk {α : Type} (result : Except WorkError α) :
    Asks AsksForReceipt (ExceptT.run (ExceptT.mk (pure result) : Work α)) := trivial

omit P R E in
theorem asks_lift {α : Type} (x : Except Thrown α) : Asks AsksForReceipt (lift x).run := asks_mk _

omit P R E in
theorem asks_shouldContinue : Asks AsksForReceipt shouldContinue.run :=
  ⟨roomForReceipt_none, fun _ => trivial⟩

omit P R E in
/-- A work that has to stop asks nothing more. -/
theorem asks_unless_stopped {α : Type} {a : α} {x : Work α} (hx : Asks AsksForReceipt x.run) :
    Asks AsksForReceipt
      (shouldContinue >>= fun continues => if ¬ continues = true then pure a else x).run := by
  refine ⟨roomForReceipt_none, fun continues => ?_⟩
  cases continues with
  | false => trivial
  | true => exact hx

omit P R E in
theorem asks_askLocal (op : LocalOp) (h : RoomForReceipt (WorkOp.ask op).query?) :
    Asks AsksForReceipt (askLocal op) :=
  ⟨h, fun _ => trivial⟩

namespace SyncNextPullPage

omit P R E in
theorem limit_pageQuery {target : SyncTarget} {cursor : Option ProgressToken}
    {query : MessageFeedQuery} (h : pageQuery target cursor = .ok query) :
    query.limit = syncNextPageSize := by
  obtain ⟨filters, -, h⟩ := bind_eq_ok h
  cases h
  rfl

omit P R E in
theorem asks_query (target : SyncTarget) (cursor : Option ProgressToken) :
    Asks AsksForReceipt (query target cursor).run := by
  unfold query
  cases hquery : pageQuery target cursor with
  | error e => trivial
  | ok query =>
    have hroom : RoomForReceipt (some query) := by
      intro q hq
      cases hq
      rw [limit_pageQuery hquery]
      decide
    change Asks AsksForReceipt (ExceptT.run (do
      ExceptT.mk (askLocal (.processQuery query))
      runRemoteRequest (.messagesQuery target.dwnUrl query)))
    apply asks_except_bind (asks_askLocal (.processQuery query) hroom)
    intro _
    exact ⟨hroom, fun _ => trivial⟩

omit P R E in
theorem asks_classifyEntries (entries : List SyncNextPreparedFeedEntry)
    (classified : EnboxDwn.Agent.SyncNextPullPage.ClassifiedPage) :
    Asks AsksForReceipt (classifyEntries entries classified).run := by
  induction entries generalizing classified with
  | nil => trivial
  | cons prepared entries ih =>
    apply asks_except_bind (asks_askLocal (.admitClosure prepared) roomForReceipt_none)
    intro outcome
    apply asks_unless_stopped
    cases outcome <;> exact ih _

omit E in
theorem asks_run (target : SyncTarget) :
    Asks AsksForReceipt (run dependencies roleRecordId target).run := by
  apply asks_except_bind (asks_lift _)
  intro identity
  apply asks_except_bind (asks_askLocal (.getLink identity) roomForReceipt_none)
  intro link
  cases link with
  | none => trivial
  | some link =>
    apply asks_unless_stopped
    apply asks_except_bind (asks_query target _)
    intro reply
    apply asks_unless_stopped
    apply asks_except_bind (asks_mk _)
    intro page
    apply asks_except_bind (asks_lift _)
    intro _
    apply asks_except_bind (asks_askLocal (.prepareAdmissionEntries page.entries)
      roomForReceipt_none)
    intro _
    apply asks_unless_stopped
    apply asks_except_bind (asks_classifyEntries _ _)
    intro classified
    cases classified with
    | none => trivial
    | some classified =>
      exact asks_except_bind (asks_askLocal (.commitPullPage link _) roomForReceipt_none)
        fun _ => trivial

end SyncNextPullPage

namespace SyncNextPushPage
open EnboxDwn.Agent.SyncNextPushPage
open RemoteApplyPushContext (Context PushOp)

omit P R E in
theorem asks_query (target : SyncTarget) (cursor : Option ProgressToken) :
    Asks AsksForReceipt (query target cursor).run := by
  apply asks_except_bind (asks_lift _)
  intro filters
  apply asks_askLocal
  intro query hquery
  cases hquery
  exact (by decide : 1 ≤ syncNextPageSize)

omit P R E in
theorem asks_perform (op : PushOp) : Asks AsksForReceipt (perform op) := by
  cases op with
  | applyReplicatedMessage message data ancestryOnly =>
    exact asks_bind ⟨roomForReceipt_none, fun _ => trivial⟩ fun _ => trivial
  | _ => exact asks_askLocal _ roomForReceipt_none

omit R in
theorem asks_pushWithinBudget (context : Context) (messageCid : String) :
    Asks AsksForReceipt (pushWithinBudget context messageCid).run := by
  apply asks_bind (asks_via (asks_of_forall (fun _ => trivial) _) fun op _ => asks_perform op)
  intro _
  trivial

omit R in
theorem asks_classifyEntries (entries : List SyncNextPreparedFeedEntry) (c : Classification)
    (context : Context) : Asks AsksForReceipt (classifyEntries entries c context).run := by
  induction entries generalizing c context with
  | nil => exact asks_except_bind (asks_lift _) fun _ => trivial
  | cons prepared entries ih =>
    apply asks_unless_stopped
    cases c.blocked with
    | some blocked => exact ih _ _
    | none =>
      apply asks_except_bind (asks_pushWithinBudget context _)
      intro pushed
      apply asks_except_bind asks_shouldContinue
      intro continues
      cases pushed.1 with
      | none =>
        cases continues with
        | false => trivial
        | true => exact asks_except_bind (asks_lift _) fun _ => trivial
      | some result =>
        cases continues with
        | false => trivial
        | true => exact asks_except_bind (asks_lift _) fun c => ih c _

theorem asks_run (target : SyncTarget) : Asks AsksForReceipt (run target).run := by
  apply asks_except_bind (asks_lift _)
  intro _
  apply asks_except_bind (asks_lift _)
  intro identity
  apply asks_except_bind (asks_askLocal (.getLink identity) roomForReceipt_none)
  intro link
  cases link with
  | none => trivial
  | some link =>
    apply asks_unless_stopped
    apply asks_except_bind (asks_query target _)
    intro reply
    apply asks_unless_stopped
    apply asks_except_bind (asks_mk _)
    intro page
    apply asks_except_bind (asks_classifyEntries page.entries {} {})
    intro classified
    cases classified with
    | none => trivial
    | some classified =>
      apply asks_unless_stopped
      cases sliceSyncNextFeedPage page classified.entryCount with
      | none => trivial
      | some handledPage =>
        exact asks_except_bind (asks_askLocal (.commitPushPage link _) roomForReceipt_none)
          fun _ => trivial

end SyncNextPushPage

/-! ## Strands -/

/-- The pages of the kind are those of the runner itself. -/
def SyncNextRunnerOperations.OwnsPage (operations : SyncNextRunnerOperations) :
    SyncNextWorkKind → Prop
  | .pullPage => operations.pullPage = none
  | .pushPage => operations.pushPage = none
  | .delivery | .quarantine => False

omit P R E in
theorem counted_via {α : Type} (work : SyncNextWorkKind) (endpoint : String)
    (x : WorkProgram α) : Asks (CountedAs work) (x.via (runOperation work endpoint)) :=
  asks_via (asks_of_forall (fun _ => trivial) x) fun op _ => countedAs_runOperation work endpoint op

omit P R E in
theorem room_via {α : Type} {work : SyncNextWorkKind} {endpoint : String} {x : WorkProgram α}
    (h : Asks AsksForReceipt x) :
    Asks (fun op => RoomForReceipt op.query?) (x.via (runOperation work endpoint)) :=
  asks_via h fun _ hop => roomForReceipt_runOperation hop

theorem counted_workProgram (state : TargetState) (work : SyncNextWorkKind) :
    Asks (CountedAs work) (workProgram dependencies roleRecordId operations state work) := by
  cases work with
  | pullPage => exact asks_bind (counted_via _ _ _) fun _ => trivial
  | pushPage => exact asks_bind (counted_via _ _ _) fun _ => trivial
  | quarantine =>
    exact asks_bind (asks_runWithCrossContextLock trivial trivial (counted_via _ _ _))
      fun _ => trivial
  | delivery => exact counted_via _ _ _

theorem room_workProgram {state : TargetState} {work : SyncNextWorkKind}
    (h : operations.OwnsPage work) : Asks (fun op => RoomForReceipt op.query?)
      (workProgram dependencies roleRecordId operations state work) := by
  cases work with
  | pullPage =>
    refine asks_bind (room_via ?_) fun _ => trivial
    unfold pullPage
    rw [show operations.pullPage = none from h]
    exact SyncNextPullPage.asks_run _
  | pushPage =>
    refine asks_bind (room_via ?_) fun _ => trivial
    unfold pushPage
    rw [show operations.pushPage = none from h]
    exact SyncNextPushPage.asks_run _
  | quarantine => cases h
  | delivery => cases h

/-- After its program a work asks nothing but to block its endpoint and to note a failure. -/
theorem asks_runWork {p : RunnerOp → Prop} {state : TargetState} {work : SyncNextWorkKind}
    (hblock : ∀ endpoint, p (.block endpoint)) (hfail : ∀ failure, p (.fail failure))
    (h : Asks p (workProgram dependencies roleRecordId operations state work)) :
    Asks p (runWork dependencies roleRecordId operations state work) := by
  apply asks_bind h
  intro result
  split
  · split
    · exact ⟨hblock _, fun _ => trivial⟩
    · trivial
  · trivial
  · trivial
  · refine ⟨hfail _, fun _ => ?_⟩
    split
    · split
      · exact ⟨hblock _, fun _ => trivial⟩
      · trivial
    · trivial

theorem counted_program (strand : Strand) : Asks (CountedAs strand.work)
    (strand.program dependencies roleRecordId operations) := by
  unfold Strand.program
  cases strand.fetch with
  | none => exact asks_runWork (fun _ => trivial) (fun _ => trivial) (counted_workProgram _ _)
  | some fetch => exact asks_bind (counted_via _ _ _) fun _ => trivial

theorem room_program (strand : Strand) :
    Asks (fun op => strand.fetch = none ∧ operations.OwnsPage strand.work →
        RoomForReceipt op.query?)
      (strand.program dependencies roleRecordId operations) := by
  by_cases h : strand.fetch = none ∧ operations.OwnsPage strand.work
  · obtain ⟨hfetch, howns⟩ := h
    have hasks : Asks (fun op => RoomForReceipt op.query?)
        (strand.program dependencies roleRecordId operations) := by
      unfold Strand.program
      rw [hfetch]
      exact asks_runWork (fun _ => roomForReceipt_none) (fun _ => roomForReceipt_none)
        (room_workProgram howns)
    exact hasks.mono fun _ hroom _ => hroom
  · exact asks_of_forall (fun _ hthis => absurd hthis h) _

/-! ## The budget -/

omit P R E in
/-- An operation sends one request, within the limit, or leaves the budget as it is. -/
theorem perform_spec {op : RunnerOp} {given answer : RunnerAnswer op} {s s' : Shared}
    (h : perform op given s = some (answer, s')) :
    (s'.issued = s.issued ∧ s'.budget = s.budget) ∨
    ∃ work endpoint request, op = .issue work endpoint request ∧
      s.budget.requests < s.budget.limit ∧
      s'.issued = s.issued ++ [⟨work, endpoint, request⟩] ∧
      s'.budget = { s.budget with requests := s.budget.requests + 1 } := by
  cases op with
  | acquire lock =>
    have h : s.acquire lock given = some (answer, s') := h
    unfold Shared.acquire at h
    split at h
    · cases h
    · split at h
      · cases h
        exact Or.inl ⟨rfl, rfl⟩
      · cases h
        exact Or.inl ⟨rfl, rfl⟩
  | issue work endpoint request =>
    have h : s.issue work endpoint request = (answer, s') := Option.some.inj h
    unfold Shared.issue at h
    split at h
    · cases h
      exact Or.inl ⟨rfl, rfl⟩
    · split at h
      · cases h
        exact Or.inl ⟨rfl, rfl⟩
      · next hwithin =>
        cases h
        push Not at hwithin
        exact Or.inr ⟨work, endpoint, request, rfl, hwithin.2, rfl, rfl⟩
  | reply endpoint request =>
    have h : s.reply endpoint given = (answer, s') := Option.some.inj h
    unfold Shared.reply at h
    split at h
    · cases h
      exact Or.inl ⟨rfl, rfl⟩
    · split at h
      · cases h
        exact Or.inl ⟨rfl, rfl⟩
      · cases h
        split <;> exact Or.inl ⟨rfl, rfl⟩
  | release lock | shouldContinue | block endpoint | fail failure | ask op =>
    cases h
    exact Or.inl ⟨rfl, rfl⟩

/-- The requests of pages among those that were sent. -/
def Run.pageRequests (w : Run) : List Issued := w.shared.issued.filter fun i => i.work.isPage

/-- The run has kept to its budget, and its pages to their limit. After the pages nothing of them
goes on. -/
structure Within (max limit : Nat) (w : Run) : Prop where
  maxRequests : w.maxRequests = max
  counted : w.shared.issued.length = w.shared.budget.requests
  spent : w.shared.budget.requests ≤ w.shared.budget.limit
  bounded : w.shared.budget.limit ≤ max
  pages : w.pageRequests.length ≤ limit
  during : w.stage = .page → w.shared.budget.limit = limit ∧
    ∀ c ∈ w.pool.running, c.request.work.isPage = true
  after : w.stage ≠ .page → ∀ c ∈ w.pool.running, c.request.work.isPage = true →
    isDone c.process = true
  plain : ∀ c ∈ w.pool.running, c.request.work.isPage = true → c.request.fetch = none
  asking : Pool.Asking (fun strand => CountedAs strand.work) w.pool

variable {max limit : Nat} {w : Run}

theorem asking_begin {p : Strand → RunnerOp → Prop}
    (hp : ∀ strand, Asks (p strand) (strand.program dependencies roleRecordId operations))
    (h : Pool.Asking p w.pool) (added : List Strand) :
    Pool.Asking p (w.begin dependencies roleRecordId operations added).pool := by
  intro c hc
  obtain hold | hc := List.mem_append.mp hc
  · exact h c hold
  · obtain ⟨strand, -, rfl⟩ := List.mem_map.mp hc
    exact ⟨hp strand, by simp⟩

/-- More strands of retries go on beside those that are there. -/
theorem Within.begin_retries (h : Within max limit w) {added : List Strand}
    (hstage : w.stage ≠ .page) (hadded : ∀ strand ∈ added, strand.work.isPage = false) :
    Within max limit (w.begin dependencies roleRecordId operations added) := by
  have hnew : ∀ c ∈ added.map fun strand : Strand =>
      (⟨strand, [], strand.program dependencies roleRecordId operations⟩ :
        Running Strand RunnerOp RunnerAnswer Unit), ¬ c.request.work.isPage = true := by
    intro c hc hpage
    obtain ⟨strand, hstrand, rfl⟩ := List.mem_map.mp hc
    rw [hadded strand hstrand] at hpage
    cases hpage
  refine ⟨h.maxRequests, h.counted, h.spent, h.bounded, h.pages, fun hpage => absurd hpage hstage,
    ?_, ?_, asking_begin counted_program h.asking added⟩
  · intro _ c hc hpage
    obtain hold | hc := List.mem_append.mp hc
    · exact h.after hstage c hold hpage
    · exact absurd hpage (hnew c hc)
  · intro c hc hpage
    obtain hold | hc := List.mem_append.mp hc
    · exact h.plain c hold hpage
    · exact absurd hpage (hnew c hc)

omit P R E in
theorem Within.over (h : Within max limit w) (hstage : w.stage ≠ .page) (stage : Stage)
    (hnext : stage ≠ .page) : Within max limit { w with stage } :=
  ⟨h.maxRequests, h.counted, h.spent, h.bounded, h.pages, fun hpage => absurd hpage hnext,
    fun _ => h.after hstage, h.plain, h.asking⟩

omit P R E in
theorem isPage_strands {state : TargetState} {direction : SyncDirection} :
    ∀ strand ∈ strands operations state direction.retry, strand.work.isPage = false := by
  intro strand hstrand
  obtain rfl | hfetch := List.mem_cons.mp hstrand
  · cases direction <;> rfl
  · obtain ⟨fetch, -, rfl⟩ := List.mem_map.mp hfetch
    cases direction <;> rfl

theorem Within.recover (h : Within max limit w) (hstage : w.stage ≠ .page)
    (candidates : List RecoveryCandidate) :
    Within max limit (w.recover dependencies roleRecordId operations candidates) := by
  unfold Run.recover
  split
  · exact h.over hstage .over (by simp)
  · exact (h.over hstage _ (by simp)).begin_retries (by simp) isPage_strands

omit P R E in
/-- When nothing of the pages goes on, the limit may be raised to the maximum. -/
theorem Within.endPages (h : Within max limit w)
    (hsettled : w.settled = true) {stage : Stage} (hnext : stage ≠ .page) :
    Within max limit { w.setLimit w.maxRequests with stage } := by
  refine ⟨h.maxRequests, h.counted, ?_, h.maxRequests.le, h.pages, fun hpage => absurd hpage hnext,
    ?_, h.plain, h.asking⟩
  · exact (h.spent.trans h.bounded).trans h.maxRequests.ge
  · intro _ c hc hpage
    have hthis := List.all_eq_true.mp hsettled c hc
    rw [h.plain c hc hpage] at hthis
    exact hthis

theorem Within.proceed (h : Within max limit w) (rows : PendingRows) :
    Within max limit (w.proceed dependencies roleRecordId operations rows) := by
  unfold Run.proceed
  split
  · exact h
  · next hsettled =>
    have hsettled : w.settled = true := by simpa using hsettled
    split
    · dsimp only
      split
      · exact h.endPages hsettled (by simp)
      · next candidates _ =>
        have hnext : Stage.recovery candidates ≠ .page := by simp
        exact (h.endPages hsettled hnext).recover hnext candidates
    · next rest hstage => exact h.recover (by rw [hstage]; simp) rest
    · exact h

omit P R E in
theorem pageRequests_append {issued : List Issued} {i : Issued} :
    ((issued ++ [i]).filter fun i => i.work.isPage).length =
      (issued.filter fun i => i.work.isPage).length + if i.work.isPage then 1 else 0 := by
  rw [List.filter_append, List.length_append]
  cases hpage : i.work.isPage <;> simp [hpage]

/-- One operation of one strand keeps to the budget: while the pages go on every request is counted
against their limit, and afterwards none of the requests is a page's. -/
theorem Within.advance (h : Within max limit w) (n : Nat)
    (given : (op : RunnerOp) → RunnerAnswer op) :
    Within max limit (w.step dependencies roleRecordId operations (.advance n given)) := by
  obtain hsame | ⟨request, hevent, -⟩ |
    ⟨n', given', strand, trace, op, next, answer, store, hevent, hn, hperform, hstep⟩ :=
      @Pool.step_cases _ _ _ _ _ (Strand.program dependencies roleRecordId operations) perform
        w.pool (.advance n given)
  · unfold Run.step
    dsimp only
    rw [hsame]
    exact h
  · cases hevent
  · have hmem := List.mem_of_getElem? hn
    have hasking : Pool.Asking (fun strand : Strand => CountedAs strand.work)
        (Pool.step (Strand.program dependencies roleRecordId operations) perform w.pool
          (.advance n given)) := h.asking.step counted_program _
    unfold Run.step
    dsimp only
    rw [hstep] at hasking ⊢
    have hcounted : CountedAs strand.work op := (h.asking _ hmem).1.1
    have hrunning : ∀ c ∈ w.pool.running.set n' ⟨strand, trace ++ [⟨op, answer⟩], next answer⟩,
        ∃ c' ∈ w.pool.running, c.request = c'.request ∧ (c = c' ∨ c'.process = .ask op next) := by
      intro c hc
      obtain hold | rfl := List.mem_or_eq_of_mem_set hc
      · exact ⟨c, hold, rfl, Or.inl rfl⟩
      · exact ⟨_, hmem, rfl, Or.inr rfl⟩
    have hafter : w.stage ≠ .page → ∀ c ∈ w.pool.running.set n'
        ⟨strand, trace ++ [⟨op, answer⟩], next answer⟩, c.request.work.isPage = true →
          isDone c.process = true := by
      intro hstage c hc hpage
      obtain ⟨c', hc', hrequest, hprocess⟩ := hrunning c hc
      rw [hrequest] at hpage
      have hdone := h.after hstage c' hc' hpage
      cases hprocess with
      | inl hsame =>
        rw [hsame]
        exact hdone
      | inr hask =>
        rw [hask] at hdone
        cases hdone
    have hplain : ∀ c ∈ w.pool.running.set n' ⟨strand, trace ++ [⟨op, answer⟩], next answer⟩,
        c.request.work.isPage = true → c.request.fetch = none := by
      intro c hc hpage
      obtain ⟨c', hc', hrequest, -⟩ := hrunning c hc
      rw [hrequest] at hpage ⊢
      exact h.plain c' hc' hpage
    have hkinds : w.stage = .page → ∀ c ∈ w.pool.running.set n'
        ⟨strand, trace ++ [⟨op, answer⟩], next answer⟩, c.request.work.isPage = true := by
      intro hstage c hc
      obtain ⟨c', hc', hrequest, -⟩ := hrunning c hc
      rw [hrequest]
      exact (h.during hstage).2 c' hc'
    obtain ⟨hissued, hbudget⟩ | ⟨work, endpoint, request, rfl, hroom, hissued, hbudget⟩ :=
      perform_spec hperform
    · have hlimit : store.budget.limit = w.shared.budget.limit := congrArg _ hbudget
      have hrequests : store.budget.requests = w.shared.budget.requests := congrArg _ hbudget
      refine ⟨h.maxRequests, ?_, ?_, ?_, ?_, fun hstage => ⟨?_, hkinds hstage⟩, hafter, hplain,
        hasking⟩
      · exact (congrArg List.length hissued).trans (h.counted.trans hrequests.symm)
      · exact hrequests.le.trans (h.spent.trans hlimit.ge)
      · exact hlimit.le.trans h.bounded
      · have hpages := h.pages
        unfold Run.pageRequests at hpages ⊢
        change (List.filter _ store.issued).length ≤ limit
        rw [hissued]
        exact hpages
      · exact hlimit.trans (h.during hstage).1
    · have hlimit : store.budget.limit = w.shared.budget.limit := by rw [hbudget]; rfl
      have hrequests : store.budget.requests = w.shared.budget.requests + 1 := by rw [hbudget]; rfl
      have hroom : w.shared.budget.requests < w.shared.budget.limit := hroom
      have hcount : store.issued.length = store.budget.requests := by
        rw [hissued, List.length_append, hrequests]
        exact congrArg (· + 1) h.counted
      refine ⟨h.maxRequests, hcount, ?_, ?_, ?_, fun hstage => ⟨?_, hkinds hstage⟩, hafter, hplain,
        hasking⟩
      · change store.budget.requests ≤ store.budget.limit
        omega
      · exact hlimit.le.trans h.bounded
      · change (List.filter _ store.issued).length ≤ limit
        by_cases hstage : w.stage = .page
        · have hlength := List.length_filter_le (fun i : Issued => i.work.isPage) store.issued
          have hfull := (h.during hstage).1
          omega
        · have hwork : ¬ work.isPage = true := by
            intro hpage
            rw [show work = strand.work from hcounted] at hpage
            cases h.after hstage _ hmem hpage
          rw [hissued, pageRequests_append, if_neg hwork]
          exact h.pages
      · exact hlimit.trans (h.during hstage).1

theorem Within.abort (h : Within max limit w) :
    Within max limit (w.step dependencies roleRecordId operations .abort) :=
  ⟨h.maxRequests, h.counted, h.spent, h.bounded, h.pages, h.during, h.after, h.plain, h.asking⟩

theorem Within.step (h : Within max limit w) (e : RunEvent) :
    Within max limit (w.step dependencies roleRecordId operations e) := by
  cases e with
  | advance n given => exact h.advance n given
  | abort => exact h.abort
  | proceed rows => exact h.proceed rows

theorem Within.steps (h : Within max limit w) (events : List RunEvent) :
    Within max limit (w.steps dependencies roleRecordId operations events) := by
  induction events generalizing w with
  | nil => exact h
  | cons e events ih => exact ih (h.step e)

/-- What every strand asks in a run is what its own program asks. -/
theorem asking_step {p : Strand → RunnerOp → Prop}
    (hp : ∀ strand, Asks (p strand) (strand.program dependencies roleRecordId operations))
    (h : Pool.Asking p w.pool) (e : RunEvent) :
    Pool.Asking p (w.step dependencies roleRecordId operations e).pool := by
  have hrecover : ∀ w' : Run, Pool.Asking p w'.pool → ∀ candidates,
      Pool.Asking p (w'.recover dependencies roleRecordId operations candidates).pool := by
    intro w' h candidates
    unfold Run.recover
    split
    · exact h
    · exact asking_begin hp h _
  cases e with
  | advance n given => exact h.step hp (.advance n given)
  | abort => exact h
  | proceed rows =>
    change Pool.Asking p (w.proceed dependencies roleRecordId operations rows).pool
    unfold Run.proceed
    split
    · exact h
    · split
      · dsimp only
        split
        · exact h
        · exact hrecover (w.setLimit w.maxRequests) h _
      · exact hrecover w h _
      · exact h

theorem asking_steps {p : Strand → RunnerOp → Prop}
    (hp : ∀ strand, Asks (p strand) (strand.program dependencies roleRecordId operations))
    (h : Pool.Asking p w.pool) (events : List RunEvent) :
    Pool.Asking p (w.steps dependencies roleRecordId operations events).pool := by
  induction events generalizing w with
  | nil => exact h
  | cons e events ih => exact ih (asking_step hp h e)

/-! ## From the start -/

omit P R E in
theorem minimumRecoveryRequests_le (candidate : RecoveryCandidate) (work : SyncNextWorkKind) :
    minimumRecoveryRequests candidate work ≤ 2 := by
  unfold minimumRecoveryRequests
  split <;> omega

omit P R E in
theorem recoveryReserve_le (candidates : List RecoveryCandidate) (work : SyncNextWorkKind) :
    recoveryReserve candidates work ≤ 2 := by
  unfold recoveryReserve
  generalize hstart : 0 = reserve
  have hreserve : reserve ≤ 2 := by omega
  clear hstart
  induction candidates generalizing reserve with
  | nil => exact hreserve
  | cons candidate candidates ih =>
    exact ih _ (Nat.max_le.mpr ⟨hreserve, minimumRecoveryRequests_le candidate work⟩)

omit P R E in
theorem pageLimit_add_le {maxRequests reserve : Nat} (hmax : 3 ≤ maxRequests)
    (hreserve : reserve ≤ 2) : pageLimit maxRequests reserve + reserve ≤ maxRequests := by
  unfold pageLimit
  split <;> omega

omit P R E in
theorem strands_page (state : TargetState) (direction : SyncDirection) :
    strands operations state direction.page = [{ state, work := direction.page }] := by
  cases direction <;> rfl

/-- The works of the pages begin where nothing goes on yet. -/
theorem Within.begin_pages (h : Within max limit w) (hstage : w.stage = .page)
    (hnone : w.pool.running = []) (states : List TargetState) (direction : SyncDirection) :
    Within max limit (w.begin dependencies roleRecordId operations
      (states.flatMap fun state => strands operations state direction.page)) := by
  have hnew : ∀ c ∈ (w.begin dependencies roleRecordId operations
      (states.flatMap fun state => strands operations state direction.page)).pool.running,
        c.request.work.isPage = true ∧ c.request.fetch = none := by
    intro c hc
    obtain hold | hc := List.mem_append.mp hc
    · rw [hnone] at hold
      cases hold
    · obtain ⟨strand, hstrand, rfl⟩ := List.mem_map.mp hc
      obtain ⟨state, -, hstrand⟩ := List.mem_flatMap.mp hstrand
      rw [strands_page, List.mem_singleton] at hstrand
      subst hstrand
      cases direction <;> exact ⟨rfl, rfl⟩
  exact ⟨h.maxRequests, h.counted, h.spent, h.bounded, h.pages,
    fun _ => ⟨(h.during hstage).1, fun c hc => (hnew c hc).1⟩,
    fun hnot => absurd hstage hnot, fun c hc _ => (hnew c hc).2,
    asking_begin counted_program h.asking _⟩

theorem within_start {targets : List SyncTarget} {direction : SyncDirection}
    {maxRemoteRequests : Option Int} {aborted : Bool} {outside : Outside}
    (h : start dependencies roleRecordId operations targets direction maxRemoteRequests aborted
      outside = .ok w) :
    3 ≤ maxRemoteRequests.getD defaultMaxRemoteRequests ∧
    ∃ states candidates, createStates direction targets [] = .ok states ∧
      getRecoveryCandidates outside.pendingRows states = .ok candidates ∧
      Within (maxRemoteRequests.getD defaultMaxRemoteRequests).toNat
        (pageLimit (maxRemoteRequests.getD defaultMaxRemoteRequests).toNat
          (recoveryReserve candidates direction.retry)) w ∧
      ∀ p : Strand → RunnerOp → Prop,
        (∀ strand, Asks (p strand) (strand.program dependencies roleRecordId operations)) →
          Pool.Asking p w.pool := by
  unfold start at h
  dsimp only at h
  split at h
  · cases h
  · next hallowed =>
    push Not at hallowed
    obtain ⟨states, hstates, h⟩ := bind_eq_ok h
    obtain ⟨_, -, h⟩ := bind_eq_ok h
    obtain ⟨candidates, hcandidates, h⟩ := bind_eq_ok h
    refine ⟨hallowed.2, states, candidates, hstates, hcandidates, ?_⟩
    generalize hmaximum : (maxRemoteRequests.getD defaultMaxRemoteRequests).toNat = maximum at h ⊢
    have hmax : 3 ≤ maximum := by omega
    have hlimit := pageLimit_add_le hmax (recoveryReserve_le candidates direction.retry)
    have hbound : pageLimit maximum (recoveryReserve candidates direction.retry) ≤ maximum := by
      omega
    have hempty : Within maximum (pageLimit maximum (recoveryReserve candidates direction.retry))
        { maxRequests := maximum, direction, states, stage := .page,
          pool := { store := { budget :=
            { limit := pageLimit maximum (recoveryReserve candidates direction.retry)
              aborted } } } } :=
      ⟨rfl, rfl, Nat.zero_le _, hbound, Nat.zero_le _, fun _ => ⟨rfl, by simp⟩,
        fun _ => by simp, by simp, by simp [Pool.Asking]⟩
    have h := Except.ok.inj h
    split at h
    · subst h
      exact ⟨hempty, fun p _ => by simp [Pool.Asking]⟩
    · subst h
      refine ⟨hempty.begin_pages rfl rfl states direction, fun p hp => asking_begin hp ?_ _⟩
      simp [Pool.Asking]

/-- A run never sends more requests than it may, whatever is answered and in whatever order its
works go on. Its pages leave to the retries what is reserved for them, and they never query a page
without room for a receipt. -/
theorem run_withinBudget {targets : List SyncTarget} {direction : SyncDirection}
    {maxRemoteRequests : Option Int} {aborted : Bool} {outside : Outside}
    (hstart : start dependencies roleRecordId operations targets direction maxRemoteRequests aborted
      outside = .ok w) (events : List RunEvent) :
    let after := w.steps dependencies roleRecordId operations events
    let maxRequests := maxRemoteRequests.getD defaultMaxRemoteRequests
    after.shared.issued.length = after.shared.budget.requests ∧
    (after.shared.issued.length : Int) ≤ maxRequests ∧
    (∃ states candidates, createStates direction targets [] = .ok states ∧
      getRecoveryCandidates outside.pendingRows states = .ok candidates ∧
      (after.pageRequests.length + recoveryReserve candidates direction.retry : Int) ≤
        maxRequests) ∧
    ∀ c ∈ after.pool.running, operations.OwnsPage c.request.work → ∀ asked ∈ c.trace,
      RoomForReceipt asked.1.query? := by
  intro after maxRequests
  obtain ⟨hmax, states, candidates, hstates, hcandidates, hwithin, hasking⟩ := within_start hstart
  have hmax : 3 ≤ maxRequests := hmax
  have hafter : Within maxRequests.toNat (pageLimit maxRequests.toNat
      (recoveryReserve candidates direction.retry)) after := hwithin.steps events
  have hreserve := recoveryReserve_le candidates direction.retry
  have hlimit := @pageLimit_add_le maxRequests.toNat _ (by omega) hreserve
  refine ⟨hafter.counted, ?_, ⟨states, candidates, hstates, hcandidates, ?_⟩, ?_⟩
  · have hspent := hafter.spent.trans hafter.bounded
    rw [← hafter.counted] at hspent
    omega
  · have hpages := hafter.pages
    omega
  · intro c hc howns asked hasked
    have hroom := asking_steps room_program (hasking _ room_program) events c hc
    apply hroom.2 asked hasked
    refine ⟨hafter.plain c hc ?_, howns⟩
    cases hwork : c.request.work with
    | pullPage => rfl
    | pushPage => rfl
    | quarantine =>
      rw [hwork] at howns
      cases howns
    | delivery =>
      rw [hwork] at howns
      cases howns

end Works

/-! ## Two roles and one pending row -/

namespace Example

local instance budgetPlatform : Platform := Platform.ofText

local instance budgetRuntime : Runtime := Runtime.ofEpoch

local instance budgetEnvironment : RemoteApplyPushContext.Environment where
  dependencyKey ref := ref.messageCid.getD ""
  dependencies _ := []

def roleTarget (did : String) : SyncTarget where
  did := did
  dwnUrl := "https://dwn.example.com"
  projectionId := "notes"
  scope := .full
  authorization := .role "did:carol" "reader" "role"
  authorizationEpoch := "role"

def pendingRow : SyncNextPendingEntry where
  authorizationEpoch := "role"
  projectionId := "notes"
  remoteEndpoint := "https://dwn.example.com"
  tenantDid := "did:alice"
  toSyncNextSourceReceipt := SyncNextProgressStore.sourceAt "1" "draft"
  lastAttemptAt := "1970-01-01T00:00:00.000Z"

/-- Only one tenant has a row in quarantine. -/
def aliceRows : PendingRows := fun state =>
  .ok (if state.identity.tenantDid = "did:alice" then [pendingRow] else [])

def outside : Outside where
  ensureLink _ := .ok ()
  pendingRows := aliceRows

/-- A retry that makes one request. -/
def oneRead : SyncNextRunnerOperations where
  quarantineRetry _ := { main := do let _ ← runRemoteRequest (.other "read") }
  deliveryRetry _ := { main := pure none }

/-- The link is there, and the remote refuses the query. -/
def given : (op : RunnerOp) → RunnerAnswer op
  | .acquire _ => .ok ()
  | .release _ => ()
  | .issue _ _ _ => .ok ()
  | .reply _ (.messagesQuery _ _) => .ok { status := { code := 404, detail := "no feed" } }
  | .reply _ (.applyReplicatedMessage _ _ _) => .ok .applied
  | .reply _ (.other _) => .ok "done"
  | .shouldContinue => true
  | .block _ => ()
  | .fail _ => ()
  | .ask (.getLink identity) => .ok (some
      { toSyncNextLinkIdentity := identity, authorization := .owner, scope := .full
        lifetimeId := "lifetime", updatedAt := "1970-01-01T00:00:00.000Z" })
  | .ask (.processQuery _) => .ok ()
  | .ask (.queryLocalMessageFeed _) => .error (.value "unused")
  | .ask (.prepareAdmissionEntries _) => .ok ()
  | .ask (.admitClosure _) => .ok .deferred
  | .ask (.commitPullPage _ _) => .ok true
  | .ask (.commitPushPage _ _) => .ok true
  | .ask (.push (.bufferSmallStream _)) => .ok ()
  | .ask (.push (.resolvePushPayload _)) => .ok false
  | .ask (.push (.applyReplicatedMessage _ _ _)) => .ok .applied
  | .ask (.push (.fetchDependency _)) => .ok (.fetched [])
  | .ask (.push (.fetchMessageCid _)) => .ok (.fetched [])
  | .ask (.push (.fetchMessageFeedEntry _)) => .ok (.fetched [])
  | .ask (.other _) => .ok "done"

def started : Except Thrown Run :=
  start (fun _ => []) (fun _ => none) oneRead [roleTarget "did:alice", roleTarget "did:bob"] .pull
    (some 3) false outside

/-- Both pages go on as far as they can, and then the row is retried. -/
def events : List RunEvent :=
  List.replicate 9 (RunEvent.advance 0 given) ++ List.replicate 9 (RunEvent.advance 1 given) ++
    [RunEvent.proceed aliceRows] ++ List.replicate 9 (RunEvent.advance 2 given)

/-- Of three requests two are kept for the retry under a role: only one page is queried. -/
theorem run_withinBudget_roles : ∃ w, started = .ok w ∧
    let after := w.steps (fun _ => []) (fun _ => none) oneRead events
    after.shared.issued.map (·.work) = [.pullPage, .quarantine] ∧
    after.shared.issued.length = after.shared.budget.requests ∧
    (after.shared.issued.length : Int) ≤ 3 ∧
    ∃ states candidates, createStates .pull [roleTarget "did:alice", roleTarget "did:bob"] [] =
        .ok states ∧ getRecoveryCandidates aliceRows states = .ok candidates ∧
      (after.pageRequests.length + recoveryReserve candidates .quarantine : Int) ≤ 3 := by
  cases hstarted : started with
  | error e =>
    have hok : started.isOk = true := by decide
    rw [hstarted] at hok
    cases hok
  | ok w =>
    obtain ⟨hcounted, hbound, hpages, -⟩ := run_withinBudget hstarted events
    refine ⟨w, rfl, ?_, hcounted, hbound, hpages⟩
    have hissued : (started.toOption.map fun w =>
        (w.steps (fun _ => []) (fun _ => none) oneRead events).shared.issued.map (·.work)) =
          some [.pullPage, .quarantine] := by decide
    rw [hstarted] at hissued
    exact Option.some.inj hissued

end Example

end EnboxDwn.Agent.SyncNextRunner
