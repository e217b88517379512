import EnboxDwn.SyncQuotaRuns
import Mathlib.Data.List.Dedup
import Mathlib.Data.List.Perm.Subperm

/-! What the calls of a quota manager report: how each failure of a push ends, and when a divergence
is explained. -/
namespace EnboxDwn.Agent.SyncQuotaManager
open Process

variable [Platform]

/-! ## The failures of a push -/

inductive Disposition where
  | quotaBlocked
  | terminal
  | retryable
  | resolved
  deriving DecidableEq, Repr

/-- What the call has read and written of a failure that ends like this. -/
def Evidence (target : SyncTarget) (failure : PushFailure) (trace : Trace Op Answer) :
    Disposition → Prop
  | .quotaBlocked => ∃ state, ⟨.put state, .ok ()⟩ ∈ trace ∧ state.key = target.row failure.cid ∧
      state.supersededAt = none
  | .terminal => failure.terminal = true ∧ ⟨.recordTerminalFailure failure, .ok ()⟩ ∈ trace
  | .retryable => failure.quotaBlocked = false ∧ failure.terminal = false ∧
      ∃ now, ⟨.get (target.row failure.cid), .ok (none, now)⟩ ∈ trace
  | .resolved => ∃ state now, ⟨.get (target.row failure.cid), .ok (some state, now)⟩ ∈ trace ∧
      (state.supersededAt.isSome = true ∨ failure.localMissing = true)

omit [Platform] in
theorem Evidence.mono {target : SyncTarget} {failure : PushFailure} {trace trace' : Trace Op Answer}
    {d : Disposition} (h : Evidence target failure trace d) (hsub : trace ⊆ trace') :
    Evidence target failure trace' d := by
  cases d with
  | quotaBlocked =>
    obtain ⟨state, hput, hrest⟩ := h
    exact ⟨state, hsub hput, hrest⟩
  | terminal => exact ⟨h.1, hsub h.2⟩
  | retryable =>
    obtain ⟨hquota, hterminal, now, hget⟩ := h
    exact ⟨hquota, hterminal, now, hsub hget⟩
  | resolved =>
    obtain ⟨state, now, hget, hrest⟩ := h
    exact ⟨state, now, hsub hget, hrest⟩

/-- The outcome counts each failure as its disposition says, and no other way. -/
structure Counts (outcome : SyncQuotaPushResultOutcome) (ds : List (PushFailure × Disposition)) :
    Prop where
  terminal : outcome.terminalFailures = (ds.filter fun e => e.2 = .terminal).map Prod.fst
  retryable : outcome.retryableFailures = (ds.filter fun e => e.2 = .retryable).map Prod.fst
  quotaBlocked : outcome.quotaBlocked = ds.any fun e => e.2 = .quotaBlocked

omit [Platform] in
theorem Counts.same {outcome : SyncQuotaPushResultOutcome} {ds : List (PushFailure × Disposition)}
    (h : Counts outcome ds) (failure : PushFailure) : Counts outcome (ds ++ [(failure, .resolved)]) :=
  ⟨by simp [h.terminal], by simp [h.retryable], by simp [h.quotaBlocked]⟩

omit [Platform] in
theorem Counts.block {outcome : SyncQuotaPushResultOutcome} {ds : List (PushFailure × Disposition)}
    (h : Counts outcome ds) (failure : PushFailure) (state : SyncQuotaBlockState) :
    Counts (markOutcomeQuotaBlocked outcome state) (ds ++ [(failure, .quotaBlocked)]) :=
  ⟨by simp [markOutcomeQuotaBlocked, h.terminal], by simp [markOutcomeQuotaBlocked, h.retryable],
    by simp [markOutcomeQuotaBlocked]⟩

section Failures
variable {target : SyncTarget} {trace : Trace Op Answer}

section
omit [Platform]

theorem runs_ask {op : Op} {a : Result op} (h : Runs (ask op).run trace (.ok a)) :
    trace = [⟨op, .ok a⟩] := runs_call h

/-- A recorded block has been written active, unless the row was found superseded. -/
theorem runs_recordBlock {messageCid blockedCid : String} {module detail : Option String}
    {source : SyncQuotaBlockSource} {state : SyncQuotaBlockState}
    (h : Runs (recordBlock target messageCid module detail source blockedCid).run trace (.ok state)) :
    (state.supersededAt.isSome = true ∧
      ∃ now, ⟨.get (target.row messageCid), .ok (some state, now)⟩ ∈ trace) ∨
    (state.supersededAt = none ∧ state.key = target.row messageCid ∧
      ⟨.put state, .ok ()⟩ ∈ trace) := by
  obtain ⟨first, rest, ⟨previous, now⟩, rfl, hget, hrest⟩ := runs_call_bind h
  cases runs_ask hget
  have hwrite : ∀ next : SyncQuotaBlockState, next.supersededAt = none →
      next.key = target.row messageCid →
      Runs (ask (.put next) >>= fun _ => pure next : Call SyncQuotaBlockState).run rest (.ok state) →
      state.supersededAt = none ∧ state.key = target.row messageCid ∧
        ⟨.put state, .ok ()⟩ ∈ rest := by
    intro next hnext hkey hrun
    obtain ⟨put, final, u, rfl, hput, hdone⟩ := runs_call_bind hrun
    cases runs_ask hput
    obtain ⟨rfl, rfl⟩ := runs_pure hdone
    exact ⟨hnext, hkey, List.mem_cons_self⟩
  cases previous with
  | none =>
    obtain ⟨hactive, hkey, hput⟩ := hwrite _ rfl rfl hrest
    exact Or.inr ⟨hactive, hkey, List.mem_append_right _ hput⟩
  | some previous =>
    dsimp only at hrest
    by_cases hsuperseded : previous.supersededAt.isSome = true
    · rw [if_pos hsuperseded] at hrest
      obtain ⟨rfl, rfl⟩ := runs_pure hrest
      exact Or.inl ⟨hsuperseded, now, List.mem_cons_self⟩
    · rw [if_neg hsuperseded] at hrest
      obtain ⟨hactive, hkey, hput⟩ := hwrite _ rfl rfl hrest
      exact Or.inr ⟨hactive, hkey, List.mem_append_right _ hput⟩

/-- Recording a block and reporting it ends a failure as quota-blocked, or as resolved. -/
theorem runs_recordAndReport {failure : PushFailure} {blockedCid : String}
    {module detail : Option String} {source : SyncQuotaBlockSource}
    {outcome outcome' : SyncQuotaPushResultOutcome} {ds : List (PushFailure × Disposition)}
    (report : SyncQuotaBlockState → Option String) (hcounts : Counts outcome ds)
    (h : Runs (recordBlock target failure.cid module detail source blockedCid >>= fun state =>
      if state.supersededAt.isSome then pure outcome
      else do
        ask (.onQuotaBlocked failure.cid (report state) state.nextProbeAt)
        return markOutcomeQuotaBlocked outcome state : Call SyncQuotaPushResultOutcome).run
          trace (.ok outcome')) :
    ∃ d, Evidence target failure trace d ∧ Counts outcome' (ds ++ [(failure, d)]) := by
  obtain ⟨first, rest, state, rfl, hrecord, hrest⟩ := runs_call_bind h
  obtain ⟨hsuperseded, now, hget⟩ | ⟨hactive, hkey, hput⟩ := runs_recordBlock hrecord
  · rw [if_pos hsuperseded] at hrest
    obtain ⟨rfl, rfl⟩ := runs_pure hrest
    exact ⟨.resolved, ⟨state, now, List.mem_append_left _ hget, Or.inl hsuperseded⟩,
      hcounts.same failure⟩
  · rw [if_neg (by rw [hactive]; exact Bool.false_ne_true)] at hrest
    obtain ⟨-, last, _, rfl, -, hdone⟩ := runs_call_bind hrest
    obtain ⟨rfl, rfl⟩ := runs_pure hdone
    exact ⟨.quotaBlocked, ⟨state, List.mem_append_left _ hput, hkey, hactive⟩,
      hcounts.block failure state⟩

theorem runs_applyPushFailureOutcome {failure : PushFailure} {source : Option SyncQuotaBlockSource}
    {outcome outcome' : SyncQuotaPushResultOutcome} {ds : List (PushFailure × Disposition)}
    (hcounts : Counts outcome ds)
    (h : Runs (applyPushFailureOutcome target source outcome failure).run trace (.ok outcome')) :
    ∃ d, Evidence target failure trace d ∧ Counts outcome' (ds ++ [(failure, d)]) := by
  unfold applyPushFailureOutcome at h
  by_cases hquota : failure.quotaBlocked = true
  · rw [if_pos hquota] at h
    exact runs_recordAndReport (fun _ => failure.detail) hcounts h
  · rw [if_neg hquota] at h
    obtain ⟨first, rest, ⟨previousBlock, now⟩, rfl, hget, hrest⟩ := runs_call_bind h
    cases runs_ask hget
    dsimp only at hrest
    by_cases hsuperseded : previousBlock.any (fun state => state.supersededAt.isSome) = true
    · rw [if_pos hsuperseded] at hrest
      obtain ⟨rfl, rfl⟩ := runs_pure hrest
      obtain ⟨state, rfl, hmarked⟩ := (Option.any_eq_true _ _).mp hsuperseded
      exact ⟨.resolved, ⟨state, now, List.mem_cons_self, Or.inl hmarked⟩, hcounts.same failure⟩
    · rw [if_neg hsuperseded] at hrest
      by_cases hmissing : failure.localMissing = true ∧ previousBlock.isSome = true
      · rw [if_pos hmissing] at hrest
        obtain ⟨resolving, last, _, rfl, -, hdone⟩ := runs_call_bind hrest
        obtain ⟨rfl, rfl⟩ := runs_pure hdone
        obtain ⟨state, rfl⟩ := Option.isSome_iff_exists.mp hmissing.2
        exact ⟨.resolved, ⟨state, now, List.mem_cons_self, Or.inr hmissing.1⟩,
          hcounts.same failure⟩
      · rw [if_neg hmissing] at hrest
        by_cases hterminal : failure.terminal = true
        · rw [if_pos hterminal] at hrest
          obtain ⟨clearing, last, _, rfl, -, hrest⟩ := runs_call_bind hrest
          obtain ⟨recording, done, _, rfl, hrecord, hdone⟩ := runs_call_bind hrest
          cases runs_ask hrecord
          obtain ⟨rfl, rfl⟩ := runs_pure hdone
          refine ⟨.terminal, ⟨hterminal, by simp⟩, ?_⟩
          exact ⟨by simp [hcounts.terminal], by simp [hcounts.retryable],
            by simp [hcounts.quotaBlocked]⟩
        · rw [if_neg hterminal] at hrest
          cases previousBlock with
          | some previous =>
            obtain ⟨d, hevidence, hcounted⟩ :=
              runs_recordAndReport SyncQuotaBlockState.detail hcounts hrest
            exact ⟨d, hevidence.mono (List.subset_append_right _ _), hcounted⟩
          | none =>
            obtain ⟨rfl, rfl⟩ := runs_pure hrest
            refine ⟨.retryable, ⟨by simpa using hquota, by simpa using hterminal, now,
              List.mem_cons_self⟩, ?_⟩
            exact ⟨by simp [hcounts.terminal], by simp [hcounts.retryable],
              by simp [hcounts.quotaBlocked]⟩

theorem runs_foldlM_failures {source : Option SyncQuotaBlockSource} {failures : List PushFailure}
    {outcome outcome' : SyncQuotaPushResultOutcome} {ds : List (PushFailure × Disposition)}
    (hcounts : Counts outcome ds)
    (h : Runs (failures.foldlM (applyPushFailureOutcome target source) outcome :
      Call SyncQuotaPushResultOutcome).run trace (.ok outcome')) :
    ∃ ds', ds'.map Prod.fst = failures ∧ (∀ e ∈ ds', Evidence target e.1 trace e.2) ∧
      Counts outcome' (ds ++ ds') := by
  induction failures generalizing trace outcome ds with
  | nil =>
    rw [List.foldlM_nil] at h
    obtain ⟨rfl, rfl⟩ := runs_pure h
    refine ⟨[], rfl, ?_, by rwa [List.append_nil]⟩
    intro e he
    cases he
  | cons failure failures ih =>
    rw [List.foldlM_cons] at h
    obtain ⟨first, rest, next, rfl, hfirst, hrest⟩ := runs_call_bind h
    obtain ⟨d, hevidence, hnext⟩ := runs_applyPushFailureOutcome hcounts hfirst
    obtain ⟨ds', hmap, hall, hfinal⟩ := ih hnext hrest
    refine ⟨(failure, d) :: ds', by rw [List.map_cons, hmap], ?_, by simpa using hfinal⟩
    intro e he
    obtain rfl | htail := List.mem_cons.mp he
    · exact hevidence.mono (List.subset_append_left _ _)
    · exact (hall e htail).mono (List.subset_append_right _ _)

end

end Failures

omit [Platform] in
theorem any_setAcknowledgement (acknowledgements : List PushAcknowledgement)
    (acknowledgement : PushAcknowledgement) (cid : String) :
    (setAcknowledgement acknowledgements acknowledgement).any (fun a => a.cid = cid) = true ↔
      acknowledgements.any (fun a => a.cid = cid) = true ∨ acknowledgement.cid = cid := by
  unfold setAcknowledgement
  by_cases hany : (acknowledgements.any fun a => a.cid = acknowledgement.cid) = true
  · rw [if_pos hany, List.any_map]
    simp only [List.any_eq_true, decide_eq_true_eq, Function.comp_apply] at hany ⊢
    constructor
    · rintro ⟨a, ha, hcid⟩
      by_cases hsame : a.cid = acknowledgement.cid
      · rw [if_pos hsame] at hcid
        exact Or.inr hcid
      · rw [if_neg hsame] at hcid
        exact Or.inl ⟨a, ha, hcid⟩
    · rintro (⟨a, ha, rfl⟩ | rfl)
      · refine ⟨a, ha, ?_⟩
        split
        · next hsame => exact hsame.symm
        · rfl
      · obtain ⟨a, ha, hsame⟩ := hany
        exact ⟨a, ha, by rw [if_pos hsame]⟩
  · rw [if_neg hany, List.any_append]
    simp

omit [Platform] in
/-- The acknowledgements of a push are those it lists and the roots that succeeded. -/
theorem any_acknowledgementsByCid (result : PushResult) (cid : String) :
    ((acknowledgementsByCid result).any fun a => a.cid = cid) = true ↔
      cid ∈ result.acknowledged.map PushAcknowledgement.cid ∨ cid ∈ result.succeeded := by
  have hlisted : ∀ (listed : List PushAcknowledgement) (acknowledgements : List PushAcknowledgement),
      ((listed.foldl setAcknowledgement acknowledgements).any fun a => a.cid = cid) = true ↔
        acknowledgements.any (fun a => a.cid = cid) = true ∨
          cid ∈ listed.map PushAcknowledgement.cid := by
    intro listed
    induction listed with
    | nil => simp
    | cons a listed ih =>
      intro acknowledgements
      rw [List.foldl_cons, ih, any_setAcknowledgement, List.map_cons, List.mem_cons, or_assoc,
        @eq_comm _ a.cid]
  have hsucceeded : ∀ (succeeded : List String) (acknowledgements : List PushAcknowledgement),
      ((succeeded.foldl (fun acknowledgements cid =>
        if acknowledgements.any fun a => a.cid = cid then acknowledgements
        else acknowledgements ++ [⟨cid, .applied⟩]) acknowledgements).any
          fun a => a.cid = cid) = true ↔
        acknowledgements.any (fun a => a.cid = cid) = true ∨ cid ∈ succeeded := by
    intro succeeded
    induction succeeded with
    | nil => simp
    | cons c succeeded ih =>
      intro acknowledgements
      rw [List.foldl_cons, ih, List.mem_cons]
      by_cases hany : (acknowledgements.any fun a => a.cid = c) = true
      · rw [if_pos hany]
        constructor
        · rintro (h | h)
          · exact Or.inl h
          · exact Or.inr (Or.inr h)
        · rintro (h | rfl | h)
          · exact Or.inl h
          · exact Or.inl hany
          · exact Or.inr h
      · rw [if_neg hany, List.any_append]
        simp only [List.any_cons, List.any_nil, Bool.or_false, Bool.or_eq_true, decide_eq_true_eq,
          or_assoc, @eq_comm _ c]
  unfold acknowledgementsByCid
  rw [hsucceeded, hlisted]
  simp

/-- The dispositions of the failures that a push result reports and does not acknowledge. -/
structure Accounted (target : SyncTarget) (result : PushResult) (module : Option String)
    (trace : Trace Op Answer) (outcome : SyncQuotaPushResultOutcome)
    (ds : List (PushFailure × Disposition)) : Prop where
  failures : ds.map Prod.fst = (result.failed.filter fun failure =>
    failure.cid ∉ result.acknowledged.map PushAcknowledgement.cid ∧
      failure.cid ∉ result.succeeded).map
        fun failure => { failure with module := failure.module <|> module }
  evidence : ∀ e ∈ ds, Evidence target e.1 trace e.2
  counts : Counts outcome ds

theorem runs_applyPushResult {target : SyncTarget} {result : PushResult} {module : Option String}
    {source : Option SyncQuotaBlockSource} {trace : Trace Op Answer}
    {outcome : SyncQuotaPushResultOutcome}
    (h : Runs (applyPushResult target result module source).run trace (.ok outcome)) :
    ∃ ds, Accounted target result module trace outcome ds := by
  obtain ⟨first, rest, _, rfl, -, hrest⟩ := runs_call_bind h
  have hnone : Counts {} [] := ⟨rfl, rfl, rfl⟩
  obtain ⟨ds, hmap, hall, hcounts⟩ := runs_foldlM_failures hnone hrest
  refine ⟨ds, ?_, ?_, hcounts⟩
  · rw [hmap, unacknowledgedFailures]
    congr 1
    apply List.filter_congr
    intro failure _
    rw [Bool.eq_iff_iff, Bool.not_eq_true', ← Bool.not_eq_true, any_acknowledgementsByCid,
      decide_eq_true_eq, not_or]
  · exact fun e he => (hall e he).mono (List.subset_append_right _ _)

/-! ## The verdict on a divergence -/

/-- In what the call read: nothing is only at the remote, and what is only local is a blocked root of
the link, or what blocks one. -/
def Explained (target : SyncTarget) (trace : Trace Op Answer) : Prop :=
  ∃ localCids remoteCids rows now, ⟨.collectFeedCids .localFeed, .ok (some localCids)⟩ ∈ trace ∧
    ⟨.collectFeedCids .remoteFeed, .ok (some remoteCids)⟩ ∈ trace ∧
    ⟨.getForTenant target.did, .ok (rows, now)⟩ ∈ trace ∧
    (∀ cid ∈ remoteCids, cid ∈ localCids) ∧
    ∀ cid ∈ localCids, cid ∉ remoteCids → ∃ state ∈ rows, state.linkKey = getLinkKey target ∧
      (cid = state.messageCid ∨ cid = state.blockedCid)

/-- The first read of the call has found no block of a permission grant. -/
def GrantsUnblocked (target : SyncTarget) (trace : Trace Op Answer) : Prop :=
  ∀ rows now rest, trace = ⟨.getForTenant target.did, .ok (rows, now)⟩ :: rest → ∀ state ∈ rows,
    state.linkKey = getLinkKey target → state.source ≠ .permissionGrant

section
omit [Platform]

theorem runs_getBlocksForTarget {target : SyncTarget} {trace : Trace Op Answer}
    {blocks : List SyncQuotaBlockState} {now : Nat}
    (h : Runs (getBlocksForTarget target).run trace (.ok (blocks, now))) :
    ∃ rows, trace = [⟨.getForTenant target.did, .ok (rows, now)⟩] ∧
      ∀ state ∈ blocks, state ∈ rows ∧ state.linkKey = getLinkKey target := by
  obtain ⟨first, rest, ⟨rows, time⟩, rfl, hget, hrest⟩ := runs_call_bind h
  cases runs_ask hget
  obtain ⟨rfl, hresult⟩ := runs_pure hrest
  cases hresult
  refine ⟨rows, rfl, ?_⟩
  intro state hstate
  obtain ⟨hmem, htest⟩ := List.mem_filter.mp hstate
  simp only [decide_eq_true_eq] at htest
  exact ⟨hmem, htest.1⟩

/-- As many distinct elements, all of them in the other list: then the other list has no more. -/
theorem mem_of_dedup_length {a b : List String} (hlength : a.dedup.length = b.dedup.length)
    (hsub : ∀ x ∈ a, x ∈ b) : ∀ x ∈ b, x ∈ a := by
  have hperm : a.dedup.Perm b.dedup := by
    apply List.Subperm.perm_of_length_le
    · apply List.subperm_of_subset (List.nodup_dedup a)
      intro x hx
      exact List.mem_dedup.mpr (hsub x (List.mem_dedup.mp hx))
    · exact hlength.ge
  intro x hx
  exact List.mem_dedup.mp (hperm.mem_iff.mpr (List.mem_dedup.mpr hx))

theorem explains_eq_true {blocks : List SyncQuotaBlockState} {localCids remoteCids : List String}
    (h : explains blocks localCids remoteCids = true) :
    (∀ cid ∈ remoteCids, cid ∈ localCids) ∧
      ∀ cid ∈ localCids, cid ∉ remoteCids → ∃ state ∈ blocks,
        cid = state.messageCid ∨ cid = state.blockedCid := by
  unfold explains at h
  split at h
  · rw [Bool.and_eq_true, decide_eq_true_eq, List.all_eq_true] at h
    have hsub : ∀ cid ∈ localCids, cid ∈ remoteCids := by
      intro cid hcid
      simpa using h.2 cid hcid
    refine ⟨mem_of_dedup_length h.1 hsub, ?_⟩
    intro cid hcid hnot
    exact absurd (hsub cid hcid) hnot
  · simp only [Bool.and_eq_true, List.isEmpty_iff, List.all_eq_true, List.filter_eq_nil_iff,
      List.mem_filter, Bool.not_eq_true', and_imp] at h
    obtain ⟨⟨hremote, -⟩, hlocal⟩ := h
    constructor
    · intro cid hcid
      by_contra hnot
      exact hremote cid hcid (by simpa using hnot)
    · intro cid hcid hnot
      have homitted := hlocal cid hcid (by simpa using hnot)
      rw [List.contains_iff_mem, collectOmittedCids, List.mem_flatMap] at homitted
      obtain ⟨state, hstate, hmem⟩ := homitted
      refine ⟨state, List.mem_of_mem_filter hstate, ?_⟩
      split at hmem
      · simpa using hmem
      · exact Or.inl (by simpa using hmem)

theorem runs_reconcileAndExplainFeedDivergence {target : SyncTarget} {quotaBlocked : Bool}
    {trace : Trace Op Answer}
    (h : Runs (reconcileAndExplainFeedDivergence target quotaBlocked).run trace (.ok true))
    (hgrants : GrantsUnblocked target trace) : Explained target trace := by
  obtain ⟨first, rest, ⟨blocks, now⟩, rfl, hblocks, hrest⟩ := runs_call_bind h
  obtain ⟨rows, rfl, hrows⟩ := runs_getBlocksForTarget hblocks
  dsimp only at hrest
  split at hrest
  · cases (runs_pure hrest).2
  · split at hrest
    · next hgrant =>
      rw [Bool.and_eq_true, List.any_eq_true] at hgrant
      obtain ⟨-, state, hstate, hsource⟩ := hgrant
      obtain ⟨hmem, hlink⟩ := hrows state hstate
      exact absurd (by simpa using hsource) (hgrants rows now _ rfl state hmem hlink)
    · obtain ⟨localReads, afterLocal, localInventory, rfl, hlocal, hremoteRead⟩ :=
        runs_call_bind hrest
      cases runs_ask hlocal
      obtain ⟨remoteReads, afterRemote, remoteInventory, rfl, hremote, hreconcile⟩ :=
        runs_call_bind hremoteRead
      cases runs_ask hremote
      split at hreconcile
      · next localCids remoteCids =>
        obtain ⟨reconciling, afterRows, _, rfl, -, hreread⟩ := runs_call_bind hreconcile
        obtain ⟨rereads, verdict, ⟨finalBlocks, later⟩, rfl, hfinal, hdone⟩ :=
          runs_call_bind hreread
        obtain ⟨finalRows, rfl, hfinalRows⟩ := runs_getBlocksForTarget hfinal
        obtain ⟨hremoteOnly, hlocalOnly⟩ := explains_eq_true (runs_pure hdone).2.symm
        refine ⟨localCids, remoteCids, finalRows, later, by simp, by simp, by simp, hremoteOnly, ?_⟩
        intro cid hcid hnot
        obtain ⟨state, hstate, hcause⟩ := hlocalOnly cid hcid hnot
        obtain ⟨hmem, hlink⟩ := hfinalRows state hstate
        exact ⟨state, hmem, hlink, hcause⟩
      · cases (runs_pure hreconcile).2

end

/-! ## Whole runs -/

/-- What a call that is over has reported is right about what it has read and written. -/
structure Reported (w : World) : Prop where
  pushes : ∀ c ∈ w.running, ∀ target result module source reply,
    c.request = .applyPushResult target result module source → c.process = .done (.ok reply) →
      ∃ outcome ds, reply = .outcome outcome ∧ Accounted target result module c.trace outcome ds
  verdicts : ∀ c ∈ w.running, ∀ target quotaBlocked,
    c.request = .reconcileAndExplainFeedDivergence target quotaBlocked →
      c.process = .done (.ok (.explained true)) → GrantsUnblocked target c.trace →
        Explained target c.trace

omit [Platform] in
/-- A call under a wrapper has come to the result that was wrapped. -/
theorem runs_wrapped {α β : Type} {x : Call α} {f : α → β} {trace : Trace Op Answer} {b : β}
    (h : Runs (x >>= fun a => pure (f a) : Call β).run trace (.ok b)) :
    ∃ a, b = f a ∧ Runs x.run trace (.ok a) := by
  obtain ⟨first, rest, a, rfl, hfirst, hrest⟩ := runs_call_bind h
  obtain ⟨rfl, rfl⟩ := runs_pure hrest
  exact ⟨a, rfl, by rwa [List.append_nil]⟩

theorem reported_run (s : Store) (events : List Event) : Reported (run { store := s } events) := by
  have htraced : Pool.Traced (fun request => (serve request).run)
      (run ({ store := s } : World) events) :=
    Pool.traced_run (fun _ hc => absurd hc List.not_mem_nil) events
  constructor
  · intro c hc target result module source reply hrequest hdone
    have hruns := htraced.runs hc hdone
    rw [hrequest] at hruns
    obtain ⟨outcome, rfl, hpush⟩ := runs_wrapped hruns
    obtain ⟨ds, haccounted⟩ := runs_applyPushResult hpush
    exact ⟨outcome, ds, rfl, haccounted⟩
  · intro c hc target quotaBlocked hrequest hdone hgrants
    have hruns := htraced.runs hc hdone
    rw [hrequest] at hruns
    obtain ⟨explained, hreply, hreconcile⟩ := runs_wrapped hruns
    cases hreply
    exact runs_reconcileAndExplainFeedDivergence hreconcile hgrants

/-- Every superseded row of a run lasts until it is removed. -/
def LastingAll (w : World) : List Event → Prop
  | [] => True
  | e :: events => Lasting w e ∧ LastingAll (step w e) events

theorem LastingAll.last {w : World} {events : List Event} {e : Event}
    (h : LastingAll w (events ++ [e])) : Lasting (run w events) e := by
  induction events generalizing w with
  | nil => exact h.1
  | cons e' events ih => exact ih h.2

def MeetsAll (w : World) : List Event → Prop
  | [] => True
  | e :: events => Undisturbed w e ∧ MeetsAll (step w e) events

instance decidableMeetsAll (w : World) : (events : List Event) → Decidable (MeetsAll w events)
  | [] => inferInstanceAs (Decidable True)
  | e :: events =>
    have := decidableMeetsAll (step w e) events
    inferInstanceAs (Decidable (Undisturbed w e ∧ MeetsAll (step w e) events))

theorem Guarded.lastingAll {w : World} (h : Guarded w) {events : List Event}
    (hmeets : MeetsAll w events) : LastingAll w events := by
  induction events generalizing w with
  | nil => trivial
  | cons e events ih =>
    obtain ⟨hguarded, hlasting⟩ := h.step hmeets.1
    exact ⟨hlasting, ih hguarded hmeets.2⟩

/-- What is promised of a run: superseded rows last, and every report is right. A probe applies its
push result like any other. -/
structure Sound (s : Store) (events : List Event) : Prop where
  lasting : LastingAll { store := s } events
  reported : Reported (run { store := s } events)
  probed : ∀ target result module source trace outcome,
    Runs (applyPushResult target result module source).run trace (.ok outcome) →
      ∃ ds, Accounted target result module trace outcome ds

theorem quota_blocks_sound {s : Store} (hs : Keyed s) {events : List Event}
    (h : MeetsAll { store := s } events) : Sound s events where
  lasting := Guarded.lastingAll ⟨hs, fun _ hc => absurd hc List.not_mem_nil⟩ h
  reported := reported_run s events
  probed := fun _ _ _ _ _ _ h => runs_applyPushResult h

end EnboxDwn.Agent.SyncQuotaManager

namespace EnboxDwn.Agent.SyncQuotaManager.Example
open Process

local instance : Platform := Platform.ofText

def target : SyncTarget where
  did := "did:alice"
  dwnUrl := "https://remote.example"
  projectionId := "notes"
  authorizationEpoch := "1"
  scope := .full

def note : GenericMessage :=
  .recordsWrite
    { recordId := "one", contextId := "one"
      descriptor :=
        { module := "https://notes.example", modulePath := "note", dataCid := "data", dataSize := 4
          dataFormat := "text/plain", dateCreated := "2025-01-01"
          messageTimestamp := "2025-01-01" }
      authorization := { signature := "w1", signer := "did:alice" } }

def noteDeletion : GenericMessage :=
  .recordsDelete
    { descriptor := { messageTimestamp := "2025-01-02", recordId := "one", prune := false }
      authorization := { signature := "d2", signer := "did:alice" } }

/-- The node holds a note and its deletion, the remote neither; it is always noon. -/
def given : (op : Op) → Answer op
  | .get _ => .ok (none, 43200000)
  | .getForTenant _ => .ok ([], 43200000)
  | .put _ => .ok ()
  | .onQuotaBlocked _ _ _ => .ok ()
  | .onQuotaCleared _ _ => .ok ()
  | .collectFeedCids .localFeed => .ok (some ["w1"])
  | .collectFeedCids .remoteFeed => .ok (some [])
  | .getLocalMessage messageCid =>
    .ok (if messageCid = "w1" then some ⟨note, true⟩
      else if messageCid = "d2" then some ⟨noteDeletion, true⟩
      else none)
  | _ => .error ⟨"unavailable"⟩

def advances (n : Nat) (call : Nat) : List Event := List.replicate n (.advance call given)

/-- A push of the note is rejected for quota, and the divergence is explained; then the deletion of
the note is acknowledged. -/
def blockedNote : List Event :=
  [.start (.applyPushResult target ⟨[], [], [{ cid := "w1", quotaBlocked := true }]⟩ none none)] ++
    advances 4 0 ++
    [.start (.reconcileAndExplainFeedDivergence target false)] ++ advances 4 1 ++
    [.start (.resolveBlocksSupersededByAcknowledgement target "d2")] ++ advances 6 2

theorem sound_blockedNote : Sound {} blockedNote :=
  quota_blocks_sound keyed_empty (by decide)

/-- The block is to be recorded again, and has been read for that, when the deletion of the note is
acknowledged. -/
def deletionWhileBlocking : List Event :=
  [.start (.recordBlock target "w1" none none .feed "w1")] ++ advances 2 0 ++
    [.start (.recordBlock target "w1" none none .feed "w1")] ++ advances 1 1 ++
    [.start (.resolveBlocksSupersededByAcknowledgement target "d2")] ++ advances 6 2

/-- The write that follows turns the superseded row active again. -/
theorem unsound_staleBlock : ¬ Sound {} (deletionWhileBlocking ++ [.advance 1 given]) := by
  intro h
  have hlasting := h.lasting.last (target.row "w1") (by decide)
  obtain hsuperseded | ⟨hremoved, -⟩ := hlasting
  · revert hsuperseded
    decide
  · revert hremoved
    decide

end EnboxDwn.Agent.SyncQuotaManager.Example
