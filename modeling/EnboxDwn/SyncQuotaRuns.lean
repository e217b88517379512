import EnboxDwn.SyncQuotaManager

/-! The calls of one quota manager in any order of their operations, and what becomes of superseded
rows. -/
namespace EnboxDwn.Agent.SyncQuotaManager
open Process

/-! ## The store and its calls -/

structure Store where
  rows : KeyedMap RowKey SyncQuotaBlockState := ∅
  /-- The probes under way. -/
  probes : List RowKey := []

abbrev Answer (op : Op) := Except Thrown (Result op)

/-- The store answers what it holds; a rejected operation has no effect. The memory of the probes
never rejects, and keeps a second probe waiting for the first. -/
def perform : (op : Op) → Answer op → Store → Option (Answer op × Store)
  | .joinProbe row, _, s =>
    some (.ok (s.probes.contains row),
      if row ∈ s.probes then s else { s with probes := row :: s.probes })
  | .awaitProbe row, _, s => if row ∈ s.probes then none else some (.ok (), s)
  | .endProbe row, _, s => some (.ok (), { s with probes := s.probes.filter (· ≠ row) })
  | _, .error e, s => some (.error e, s)
  | .get row, .ok (_, now), s => some (.ok (s.rows.lookup row, now), s)
  | .put state, .ok _, s => some (.ok (), { s with rows := s.rows.insert state.key state })
  | .delete row, .ok _, s =>
    some (.ok (s.rows.lookup row).isSome, { s with rows := s.rows.erase row })
  | .deleteMany rows, .ok _, s =>
    some (.ok (), { s with rows := rows.foldl (fun m row => m.erase row) s.rows })
  | .deleteForTenant tenantDid, .ok _, s =>
    some (.ok (), { s with rows := KeyedMap.filter (fun state => state.tenantDid ≠ tenantDid) s.rows })
  | .clear, .ok _, s => some (.ok (), { s with rows := ∅ })
  | .getForTenant tenantDid, .ok (_, now), s =>
    some (.ok ((KeyedMap.values s.rows).filter fun state => state.tenantDid = tenantDid, now), s)
  | .getAll, .ok _, s => some (.ok (KeyedMap.values s.rows), s)
  | _, .ok result, s => some (.ok result, s)

inductive Request where
  | recordBlock (target : SyncTarget) (messageCid : String) (module detail : Option String)
      (source : SyncQuotaBlockSource) (blockedCid : String)
  | applyPushResult (target : SyncTarget) (result : PushResult) (module : Option String)
      (source : Option SyncQuotaBlockSource)
  | probeBlocksForTarget (target : SyncTarget) (force : Bool) (forceProbeCids : Option (List String))
  | resolveBlocksSupersededByAcknowledgement (target : SyncTarget) (acknowledgedCid : String)
  | reconcileAndExplainFeedDivergence (target : SyncTarget) (quotaBlocked : Bool)
  | clearBlock (target : SyncTarget) (messageCid : String)
  | clearResolvedOmissionsForTarget (target : SyncTarget)
  | pruneStaleLinkBlocks (targets : List SyncTarget)
  | clearTenant (tenantDid : String)
  | clear

inductive Reply where
  | done
  | outcome (outcome : SyncQuotaPushResultOutcome)
  | explained (explained : Bool)
  deriving DecidableEq, Repr

variable [Platform]

def serve : Request → Call Reply
  | .recordBlock target messageCid module detail source blockedCid => do
    let _ ← recordBlock target messageCid module detail source blockedCid
    return .done
  | .applyPushResult target result module source =>
    return .outcome (← applyPushResult target result module source)
  | .probeBlocksForTarget target force forceProbeCids => do
    probeBlocksForTarget target force forceProbeCids
    return .done
  | .resolveBlocksSupersededByAcknowledgement target acknowledgedCid => do
    resolveBlocksSupersededByAcknowledgement target acknowledgedCid
    return .done
  | .reconcileAndExplainFeedDivergence target quotaBlocked =>
    return .explained (← reconcileAndExplainFeedDivergence target quotaBlocked)
  | .clearBlock target messageCid => do
    let _ ← clearBlock target messageCid
    return .done
  | .clearResolvedOmissionsForTarget target => do
    clearResolvedOmissionsForTarget target
    return .done
  | .pruneStaleLinkBlocks targets => do
    pruneStaleLinkBlocks targets
    return .done
  | .clearTenant tenantDid => do
    ask (.deleteForTenant tenantDid)
    return .done
  | .clear => do
    ask .clear
    return .done

abbrev World := Pool Request Op Answer (Except Thrown Reply) Store

abbrev Event := Process.Event Request Op Answer

def step (w : World) (e : Event) : World := Pool.step (fun request => (serve request).run) perform w e

def run (w : World) (events : List Event) : World :=
  Pool.run (fun request => (serve request).run) perform w events

/-! ## What is read before a row is written active -/

/-- A row is written active only right after it was read and found not superseded. -/
def checked : Discipline Op Answer (Option RowKey) where
  possible op answer :=
    match op, answer with
    | .get row, .ok (some state, _) => state.key = row
    | _, _ => True
  learned op answer :=
    match op, answer with
    | .get row, .ok (some state, _) => if state.supersededAt = none then some row else none
    | .get row, .ok (none, _) => some row
    | _, _ => none
  allowed g op :=
    match op with
    | .put state => state.supersededAt = none → g = some state.key
    | _ => True

open Discipline

section
omit [Platform]

theorem safe_recordBlock (target : SyncTarget) (messageCid : String) (module detail : Option String)
    (source : SyncQuotaBlockSource) (blockedCid : String) :
    checked.Safe (recordBlock target messageCid module detail source blockedCid).run := by
  apply safe_ask_bind
  · exact fun _ => trivial
  · rintro ⟨previous, now⟩ hpossible
    cases previous with
    | none =>
      refine ⟨fun _ => rfl, fun answer _ => ?_⟩
      cases answer <;> trivial
    | some state =>
      dsimp only
      by_cases hsuperseded : state.supersededAt.isSome = true
      · rw [if_pos hsuperseded]
        trivial
      · rw [if_neg hsuperseded]
        have hnone : state.supersededAt = none := by simpa using hsuperseded
        refine ⟨fun _ => if_pos hnone, fun answer _ => ?_⟩
        cases answer <;> trivial

theorem safe_unwriting {op : Op} (h : ∀ g, checked.allowed g op) : checked.Safe (ask op).run :=
  safe_call h

theorem safe_clearBlock (target : SyncTarget) (messageCid : String) :
    checked.Safe (clearBlock target messageCid).run := safe_unwriting (by exact fun _ => trivial)

theorem safe_getBlocksForTarget (target : SyncTarget) :
    checked.Safe (getBlocksForTarget target).run :=
  safe_call_bind (safe_unwriting (by exact fun _ => trivial)) fun _ => safe_pure _

theorem safe_getActiveBlocksForTarget (target : SyncTarget) :
    checked.Safe (getActiveBlocksForTarget target).run :=
  safe_call_bind (safe_getBlocksForTarget target) fun _ => safe_pure _

theorem safe_markBlockAsSupersededOmission (target : SyncTarget) (messageCid : String)
    (expected : SyncQuotaBlockState) :
    checked.Safe (markBlockAsSupersededOmission target messageCid expected).run := by
  apply safe_call_bind (safe_unwriting (by exact fun _ => trivial))
  rintro ⟨current, now⟩
  cases current with
  | none => exact safe_pure ()
  | some state =>
    dsimp only
    split
    · exact safe_pure ()
    · apply safe_call_bind (safe_unwriting (by exact fun _ h => nomatch h))
      exact fun _ => safe_unwriting (by exact fun _ => trivial)

theorem safe_resolveBlock (target : SyncTarget) (messageCid : String)
    (resolution : PushSuccessResolution) (preserveSupersededOmission : Bool) :
    checked.Safe (resolveBlock target messageCid resolution preserveSupersededOmission).run := by
  apply safe_call_bind (safe_unwriting (by exact fun _ => trivial))
  rintro ⟨current, now⟩
  dsimp only
  split
  · exact safe_markBlockAsSupersededOmission _ _ _
  · apply safe_call_bind (safe_clearBlock target messageCid)
    intro existed
    split
    · exact safe_pure ()
    · split
      · exact safe_pure ()
      · exact safe_unwriting (by exact fun _ => trivial)

end

theorem safe_resolveBlocksSupersededByAcknowledgement (target : SyncTarget)
    (acknowledgedCid : String) :
    checked.Safe (resolveBlocksSupersededByAcknowledgement target acknowledgedCid).run := by
  apply safe_call_bind (safe_getActiveBlocksForTarget target)
  rintro ⟨activeBlocks, now⟩
  dsimp only
  split
  · exact safe_pure ()
  · apply safe_call_bind (safe_unwriting (by exact fun _ => trivial))
    intro acknowledged
    cases acknowledged with
    | none => exact safe_pure ()
    | some acknowledged =>
      apply safe_forM
      intro state _
      split
      · exact safe_pure ()
      · apply safe_call_bind (safe_unwriting (by exact fun _ => trivial))
        intro blockedRoot
        cases blockedRoot with
        | none => exact safe_pure ()
        | some blockedRoot =>
          dsimp only
          split
          · exact safe_markBlockAsSupersededOmission _ _ _
          · exact safe_pure ()

theorem safe_applyPushAcknowledgements (target : SyncTarget)
    (acknowledgements : List PushAcknowledgement) :
    checked.Safe (applyPushAcknowledgements target acknowledgements).run := by
  apply safe_call_bind (safe_getActiveBlocksForTarget target)
  rintro ⟨activeBlocks, now⟩
  apply safe_forM
  intro acknowledgement _
  apply safe_call_bind (safe_unwriting (by exact fun _ => trivial))
  intro _
  apply safe_call_bind (safe_resolveBlock _ _ _ _)
  intro _
  split
  · exact safe_pure ()
  · exact safe_resolveBlocksSupersededByAcknowledgement _ _

omit [Platform] in
theorem safe_applyPushFailureOutcome (target : SyncTarget) (source : Option SyncQuotaBlockSource)
    (outcome : SyncQuotaPushResultOutcome) (failure : PushFailure) :
    checked.Safe (applyPushFailureOutcome target source outcome failure).run := by
  unfold applyPushFailureOutcome
  split
  · apply safe_call_bind (safe_recordBlock _ _ _ _ _ _)
    intro state
    split
    · exact safe_pure outcome
    · exact safe_call_bind (safe_unwriting (by exact fun _ => trivial)) fun _ => safe_pure _
  · apply safe_call_bind (safe_unwriting (by exact fun _ => trivial))
    rintro ⟨previousBlock, now⟩
    dsimp only
    split
    · exact safe_pure outcome
    · split
      · exact safe_call_bind (safe_resolveBlock _ _ _ _) fun _ => safe_pure outcome
      · split
        · apply safe_call_bind (safe_clearBlock _ _)
          intro _
          exact safe_call_bind (safe_unwriting (by exact fun _ => trivial)) fun _ => safe_pure _
        · cases previousBlock with
          | none => exact safe_pure _
          | some previous =>
            apply safe_call_bind (safe_recordBlock _ _ _ _ _ _)
            intro state
            split
            · exact safe_pure outcome
            · exact safe_call_bind (safe_unwriting (by exact fun _ => trivial)) fun _ => safe_pure _

theorem safe_applyPushResult (target : SyncTarget) (result : PushResult) (module : Option String)
    (source : Option SyncQuotaBlockSource) :
    checked.Safe (applyPushResult target result module source).run := by
  apply safe_call_bind (safe_applyPushAcknowledgements _ _)
  intro _
  apply safe_foldlM
  intro outcome failure
  exact safe_applyPushFailureOutcome target source outcome failure

omit [Platform] in
/-- The deferral writes the row that it has just read again. -/
theorem safe_deferUnmaterializedProbe {target : SyncTarget} {messageCid : String}
    {state : SyncQuotaBlockState} (hkey : state.key = target.row messageCid) :
    checked.Safe (deferUnmaterializedProbe target messageCid state).run := by
  apply safe_ask_bind
  · exact fun _ => trivial
  · rintro ⟨current, now⟩ hpossible
    dsimp only
    by_cases hchanged : hasBlockChanged current state = true
    · rw [if_pos hchanged]
      trivial
    · rw [if_neg hchanged]
      cases current with
      | none => exact absurd rfl hchanged
      | some row =>
        have hrow : row.supersededAt = none := by
          have hunchanged : hasBlockChanged (some row) state = false := by simpa using hchanged
          simp only [hasBlockChanged, Bool.or_eq_false_iff] at hunchanged
          simpa using hunchanged.1.1
        refine ⟨fun _ => ?_, fun answer _ => ?_⟩
        · exact (if_pos hrow).trans (congrArg some hkey.symm)
        · cases answer with
          | error e => trivial
          | ok _ => exact safe_unwriting (by exact fun _ => trivial) _

theorem safe_doProbeBlock (target : SyncTarget) (messageCid : String) (force : Bool) :
    checked.Safe (doProbeBlock target messageCid force).run := by
  apply safe_call_bind (safe_unwriting (by exact fun _ => trivial))
  intro aborted
  split
  · exact safe_pure ()
  · apply safe_ask_bind
    · exact fun _ => trivial
    · rintro ⟨current, now⟩ hpossible
      cases current with
      | none => trivial
      | some state =>
        dsimp only
        split
        · trivial
        · apply follows_bind (safe_unwriting (by exact fun _ => trivial) _)
          intro localEntry
          cases localEntry with
          | error e => exact safe_done _
          | ok localEntry =>
            apply safe_call_bind (safe_unwriting (by exact fun _ => trivial))
            intro aborted
            split
            · exact safe_pure ()
            · split
              · exact safe_deferUnmaterializedProbe hpossible
              · apply safe_call_bind
                · unfold blockedDependencyOf
                  split
                  · exact safe_unwriting (by exact fun _ => trivial)
                  · exact safe_pure none
                · intro blockedDependencyEntry
                  apply safe_call_bind (safe_unwriting (by exact fun _ => trivial))
                  intro aborted
                  split
                  · exact safe_pure ()
                  · apply safe_call_bind
                    · unfold pushRoot
                      split
                      · exact safe_unwriting (by exact fun _ => trivial)
                      · exact safe_unwriting (by exact fun _ => trivial)
                    · intro result
                      apply safe_call_bind (safe_unwriting (by exact fun _ => trivial))
                      intro aborted
                      split
                      · exact safe_pure ()
                      · apply safe_call_bind (safe_unwriting (by exact fun _ => trivial))
                        rintro ⟨currentState, now⟩
                        dsimp only
                        split
                        · exact safe_pure ()
                        · exact safe_call_bind (safe_applyPushResult _ _ _ _) fun _ => safe_pure ()

theorem safe_probeBlock (target : SyncTarget) (messageCid : String) (force : Bool) :
    checked.Safe (probeBlock target messageCid force).run := by
  apply safe_call_bind (safe_unwriting (by exact fun _ => trivial))
  intro joined
  split
  · exact safe_unwriting (by exact fun _ => trivial)
  · exact safe_ensuring (safe_doProbeBlock _ _ _) (safe_unwriting (by exact fun _ => trivial))

theorem safe_probeAll (target : SyncTarget) (force : String → Bool) (messageCids : List String) :
    checked.Safe (probeAll target force messageCids).run := by
  induction messageCids with
  | nil => exact safe_pure ()
  | cons messageCid messageCids ih =>
    apply safe_call_bind (safe_unwriting (by exact fun _ => trivial))
    intro aborted
    split
    · exact safe_pure ()
    · exact safe_call_bind (safe_probeBlock _ _ _) fun _ => ih

theorem safe_probeBlocksForTarget (target : SyncTarget) (force : Bool)
    (forceProbeCids : Option (List String)) :
    checked.Safe (probeBlocksForTarget target force forceProbeCids).run := by
  apply safe_call_bind (safe_getActiveBlocksForTarget target)
  rintro ⟨blocks, now⟩
  exact safe_probeAll _ _ _

omit [Platform] in
theorem safe_reconcileBlockAgainstFeed (target : SyncTarget) (localCids remoteCids : List String)
    (state : SyncQuotaBlockState) :
    checked.Safe (reconcileBlockAgainstFeed target localCids remoteCids state).run := by
  unfold reconcileBlockAgainstFeed
  dsimp only
  split
  · split
    · exact safe_call_bind (safe_clearBlock _ _) fun _ => safe_pure ()
    · exact safe_pure ()
  · split
    · exact safe_markBlockAsSupersededOmission _ _ _
    · split
      · exact safe_resolveBlock _ _ _ _
      · exact safe_pure ()

omit [Platform] in
theorem safe_reconcileAndExplainFeedDivergence (target : SyncTarget) (quotaBlocked : Bool) :
    checked.Safe (reconcileAndExplainFeedDivergence target quotaBlocked).run := by
  apply safe_call_bind (safe_getBlocksForTarget target)
  rintro ⟨blocks, now⟩
  dsimp only
  split
  · exact safe_pure false
  · split
    · exact safe_pure true
    · apply safe_call_bind (safe_unwriting (by exact fun _ => trivial))
      intro localCids
      apply safe_call_bind (safe_unwriting (by exact fun _ => trivial))
      intro remoteCids
      split
      · apply safe_call_bind
        · exact safe_forM _ fun state _ => safe_reconcileBlockAgainstFeed _ _ _ state
        · intro _
          exact safe_call_bind (safe_getBlocksForTarget target) fun _ => safe_pure _
      · exact safe_pure false

theorem safe_serve (request : Request) : checked.Safe (serve request).run := by
  cases request with
  | recordBlock target messageCid module detail source blockedCid =>
    exact safe_call_bind (safe_recordBlock _ _ _ _ _ _) fun _ => safe_pure _
  | applyPushResult target result module source =>
    exact safe_call_bind (safe_applyPushResult _ _ _ _) fun _ => safe_pure _
  | probeBlocksForTarget target force forceProbeCids =>
    exact safe_call_bind (safe_probeBlocksForTarget _ _ _) fun _ => safe_pure _
  | resolveBlocksSupersededByAcknowledgement target acknowledgedCid =>
    exact safe_call_bind (safe_resolveBlocksSupersededByAcknowledgement _ _) fun _ => safe_pure _
  | reconcileAndExplainFeedDivergence target quotaBlocked =>
    exact safe_call_bind (safe_reconcileAndExplainFeedDivergence _ _) fun _ => safe_pure _
  | clearBlock target messageCid =>
    exact safe_call_bind (safe_clearBlock _ _) fun _ => safe_pure _
  | clearResolvedOmissionsForTarget target =>
    apply safe_call_bind
    · apply safe_call_bind (safe_getBlocksForTarget target)
      rintro ⟨blocks, now⟩
      apply safe_forM
      intro state _
      split
      · exact safe_call_bind (safe_clearBlock _ _) fun _ => safe_pure ()
      · exact safe_pure ()
    · exact fun _ => safe_pure _
  | pruneStaleLinkBlocks targets =>
    apply safe_call_bind
    · apply safe_call_bind (safe_unwriting (by exact fun _ => trivial))
      intro states
      apply safe_call_bind (safe_unwriting (by exact fun _ => trivial))
      intro aborted
      split
      · exact safe_pure ()
      · exact safe_unwriting (by exact fun _ => trivial)
    · exact fun _ => safe_pure _
  | clearTenant tenantDid =>
    exact safe_call_bind (safe_unwriting (by exact fun _ => trivial)) fun _ => safe_pure _
  | clear => exact safe_call_bind (safe_unwriting (by exact fun _ => trivial)) fun _ => safe_pure _

/-! ## Superseded rows -/

def Superseded (s : Store) (row : RowKey) : Prop :=
  ∃ state, s.rows.lookup row = some state ∧ state.supersededAt.isSome = true

instance (s : Store) (row : RowKey) : Decidable (Superseded s row) :=
  decidable_of_iff ((s.rows.lookup row).any fun state => state.supersededAt.isSome)
    (Option.any_eq_true _ _)

/-- Every row is stored under its key. -/
def Keyed (s : Store) : Prop := ∀ row state, s.rows.lookup row = some state → state.key = row

omit [Platform] in
theorem keyed_empty : Keyed {} := by
  intro row state h
  cases h

def Op.removes (row : RowKey) : Op → Prop
  | .delete r => r = row
  | .deleteMany rows => row ∈ rows
  | .deleteForTenant tenantDid => row.tenantDid = tenantDid
  | .clear => True
  | _ => False

/-- What an operation may do to the rows: nothing, remove some of them, or write one. -/
structure Effect (op : Op) (s s' : Store) : Prop where
  kept : ∀ row, s'.rows.lookup row = s.rows.lookup row ∨
    (s'.rows.lookup row = none ∧ op.removes row) ∨
    ∃ state, op = .put state ∧ state.key = row ∧ s'.rows.lookup row = some state

section
omit [Platform]

theorem effect_of_rows_eq {op : Op} {s s' : Store} (h : s'.rows = s.rows) : Effect op s s' :=
  ⟨fun row => Or.inl (by rw [h])⟩

theorem perform_effect {op : Op} {given answer : Answer op} {s s' : Store} (hs : Keyed s)
    (h : perform op given s = some (answer, s')) : Effect op s s' := by
  cases op with
  | joinProbe row =>
    cases h
    exact effect_of_rows_eq (by split <;> rfl)
  | awaitProbe row =>
    change (if row ∈ s.probes then none
      else some ((Except.ok () : Answer (.awaitProbe row)), s)) = _ at h
    by_cases hrow : row ∈ s.probes
    · rw [if_pos hrow] at h
      cases h
    · rw [if_neg hrow] at h
      cases h
      exact effect_of_rows_eq rfl
  | endProbe row =>
    cases h
    exact effect_of_rows_eq rfl
  | put state =>
    cases given with
    | error e =>
      cases h
      exact effect_of_rows_eq rfl
    | ok u =>
      cases h
      constructor
      intro row
      dsimp only
      rw [KeyedMap.lookup_insert_eq]
      by_cases hrow : row = state.key
      · rw [if_pos hrow]
        exact Or.inr (Or.inr ⟨state, rfl, hrow.symm, rfl⟩)
      · rw [if_neg hrow]
        exact Or.inl rfl
  | delete removed =>
    cases given with
    | error e =>
      cases h
      exact effect_of_rows_eq rfl
    | ok u =>
      cases h
      constructor
      intro row
      dsimp only
      rw [KeyedMap.lookup_erase_eq]
      by_cases hrow : row = removed
      · rw [if_pos hrow]
        exact Or.inr (Or.inl ⟨rfl, hrow.symm⟩)
      · rw [if_neg hrow]
        exact Or.inl rfl
  | deleteMany rows =>
    cases given with
    | error e =>
      cases h
      exact effect_of_rows_eq rfl
    | ok u =>
      cases h
      constructor
      intro row
      have hlookup := KeyedMap.lookup_eraseAll id rows s.rows row
      simp only [id_eq, List.map_id] at hlookup
      dsimp only
      rw [hlookup]
      by_cases hrow : row ∈ rows
      · rw [if_pos hrow]
        exact Or.inr (Or.inl ⟨rfl, hrow⟩)
      · rw [if_neg hrow]
        exact Or.inl rfl
  | deleteForTenant tenantDid =>
    cases given with
    | error e =>
      cases h
      exact effect_of_rows_eq rfl
    | ok u =>
      cases h
      constructor
      intro row
      dsimp only
      rw [KeyedMap.lookup_filter]
      cases hlookup : s.rows.lookup row with
      | none => exact Or.inl rfl
      | some state =>
        by_cases htenant : state.tenantDid = tenantDid
        · refine Or.inr (Or.inl ⟨by simp [Option.filter, htenant], ?_⟩)
          rw [← hs row state hlookup]
          exact htenant
        · exact Or.inl (by simp [Option.filter, htenant])
  | clear =>
    cases given with
    | error e =>
      cases h
      exact effect_of_rows_eq rfl
    | ok u =>
      cases h
      exact ⟨fun row => Or.inr (Or.inl ⟨rfl, trivial⟩)⟩
  | get _ | getForTenant _ | getAll | clearDeadLetterForTenant _ | collectFeedCids _
  | getLocalMessage _ | onQuotaBlocked _ _ _ | onQuotaCleared _ _ | pushEntries _ | pushMessages _
  | recordTerminalFailure _ | shouldAbort =>
    cases given with
    | error e =>
      cases h
      exact effect_of_rows_eq rfl
    | ok u =>
      cases h
      exact effect_of_rows_eq rfl

theorem Effect.keyed {op : Op} {s s' : Store} (h : Effect op s s') (hs : Keyed s) : Keyed s' := by
  intro row state hrow
  obtain hsame | ⟨hnone, -⟩ | ⟨written, -, hkey, hwritten⟩ := h.kept row
  · exact hs row state (hsame ▸ hrow)
  · rw [hnone] at hrow
    cases hrow
  · rw [hwritten] at hrow
    cases hrow
    exact hkey

/-- A row becomes superseded only by being written so. -/
theorem Effect.superseded {op : Op} {s s' : Store} (h : Effect op s s') {row : RowKey}
    (hsuperseded : Superseded s' row) : Superseded s row ∨
      ∃ state, op = .put state ∧ state.key = row ∧ state.supersededAt.isSome = true := by
  obtain ⟨state, hstate, hmarked⟩ := hsuperseded
  obtain hsame | ⟨hnone, -⟩ | ⟨written, hop, hkey, hwritten⟩ := h.kept row
  · exact Or.inl ⟨state, hsame ▸ hstate, hmarked⟩
  · rw [hnone] at hstate
    cases hstate
  · rw [hwritten] at hstate
    cases hstate
    exact Or.inr ⟨state, hop, hkey, hmarked⟩

/-- What a read teaches holds when it is answered. -/
theorem perform_learned {op : Op} {given answer : Answer op} {s s' : Store} (hs : Keyed s)
    (h : perform op given s = some (answer, s')) :
    checked.possible op answer ∧
      ∀ row, checked.learned op answer = some row → ¬ Superseded s' row := by
  cases op with
  | get row =>
    cases given with
    | error e =>
      cases h
      exact ⟨trivial, nofun⟩
    | ok read =>
      obtain ⟨previous, now⟩ := read
      cases h
      cases hlookup : s.rows.lookup row with
      | none =>
        refine ⟨trivial, ?_⟩
        rintro _ ⟨⟩ ⟨state, hstate, -⟩
        rw [hlookup] at hstate
        cases hstate
      | some state =>
        refine ⟨hs row state hlookup, ?_⟩
        intro row' hlearned
        by_cases hactive : state.supersededAt = none
        · obtain rfl : row = row' := Option.some.inj ((if_pos hactive).symm.trans hlearned)
          rintro ⟨state', hstate', hmarked⟩
          rw [hlookup] at hstate'
          cases hstate'
          rw [hactive] at hmarked
          cases hmarked
        · cases (if_neg hactive).symm.trans hlearned
  | _ => exact ⟨trivial, nofun⟩

end

/-- The row that the operation writes, superseded or active as asked. -/
def Op.writes (superseded : Bool) : Op → Option RowKey
  | .put state => if state.supersededAt.isSome = superseded then some state.key else none
  | _ => none

/-- The row that the next operation of a call writes so. -/
def aboutToWrite (w : World) (superseded : Bool) (n : Nat) : Option RowKey :=
  w.running[n]?.bind fun c => c.process.next?.bind (Op.writes superseded)

/-- No other call is about to write the row active that the step marks as superseded. -/
def Undisturbed (w : World) : Event → Prop
  | .start _ => True
  | .advance n _ => ∀ m < w.running.length, m ≠ n → (aboutToWrite w true n).isSome = true →
      aboutToWrite w false m ≠ aboutToWrite w true n

instance (w : World) : (e : Event) → Decidable (Undisturbed w e)
  | .start _ => inferInstanceAs (Decidable True)
  | .advance n _ => inferInstanceAs (Decidable (∀ m < w.running.length, m ≠ n →
      (aboutToWrite w true n).isSome = true → aboutToWrite w false m ≠ aboutToWrite w true n))

omit [Platform] in
theorem aboutToWrite_eq {w : World} {superseded : Bool} {n : Nat}
    {c : Running Request Op Answer (Except Thrown Reply)} {state : SyncQuotaBlockState}
    (hn : w.running[n]? = some c) (hnext : c.process.next? = some (.put state))
    (hstate : state.supersededAt.isSome = superseded) :
    aboutToWrite w superseded n = some state.key := by
  simp [aboutToWrite, hn, hnext, Op.writes, hstate]

structure Guarded (w : World) : Prop where
  keyed : Keyed w.store
  follows : ∀ c ∈ w.running, ∃ g, checked.Follows g c.process ∧
    ∀ row, g = some row → ¬ Superseded w.store row

/-- A superseded row stays superseded until it is removed. -/
def Lasting (w : World) (e : Event) : Prop :=
  ∀ row, Superseded w.store row → Superseded (step w e).store row ∨
    (step w e).store.rows.lookup row = none ∧ ∃ n given c op, e = .advance n given ∧
      w.running[n]? = some c ∧ c.process.next? = some op ∧ op.removes row

theorem Guarded.step {w : World} (h : Guarded w) {e : Event} (he : Undisturbed w e) :
    Guarded (step w e) ∧ Lasting w e := by
  unfold Lasting
  unfold SyncQuotaManager.step
  obtain hsame | ⟨request, -, hstep⟩ |
    ⟨n, given, request, trace, op, next, answer, store, rfl, hn, hperform, hstep⟩ :=
      Pool.step_cases w e
  · rw [hsame]
    exact ⟨h, fun row hrow => Or.inl hrow⟩
  · rw [hstep]
    refine ⟨⟨h.keyed, ?_⟩, fun row hrow => Or.inl hrow⟩
    intro c hc
    obtain hmem | hnew := List.mem_append.mp hc
    · exact h.follows c hmem
    · cases List.mem_singleton.mp hnew
      exact ⟨none, safe_serve request none, nofun⟩
  · rw [hstep]
    have heffect := perform_effect h.keyed hperform
    obtain ⟨hpossible, hlearned⟩ := perform_learned h.keyed hperform
    obtain ⟨g, hfollows, hactive⟩ := h.follows _ (List.mem_of_getElem? hn)
    refine ⟨⟨heffect.keyed h.keyed, ?_⟩, ?_⟩
    · intro c hc
      obtain ⟨m, hm⟩ := List.mem_iff_getElem?.mp hc
      rw [List.getElem?_set] at hm
      by_cases hmn : n = m
      · subst hmn
        obtain ⟨hlt, -⟩ := List.getElem?_eq_some_iff.mp hn
        rw [if_pos rfl, if_pos hlt] at hm
        cases hm
        exact ⟨_, hfollows.2 answer hpossible, hlearned⟩
      · rw [if_neg hmn] at hm
        obtain ⟨g', hfollows', hactive'⟩ := h.follows c (List.mem_of_getElem? hm)
        -- what another call has learned is out of date only if it no longer matters
        by_cases hstale : ∃ row, g' = some row ∧ Superseded store row
        · refine ⟨none, hfollows'.weaken ?_, nofun⟩
          obtain ⟨row, rfl, hsuperseded⟩ := hstale
          obtain hbefore | ⟨state, rfl, hkey, hmarked⟩ := heffect.superseded hsuperseded
          · exact absurd hbefore (hactive' row rfl)
          · intro op' hop'
            cases op' with
            | put state' =>
              intro hwritten
              have hlast : some row = some state'.key := by
                cases hp : c.process with
                | done a =>
                  rw [hp] at hop'
                  cases hop'
                | ask op'' next'' =>
                  rw [hp] at hop' hfollows'
                  cases hop'
                  exact hfollows'.1 hwritten
              have hmarks : aboutToWrite w true n = some state.key :=
                aboutToWrite_eq hn rfl hmarked
              have hactivates : aboutToWrite w false m = some state'.key :=
                aboutToWrite_eq hm hop' (by rw [hwritten]; rfl)
              have hlt : m < w.running.length := (List.getElem?_eq_some_iff.mp hm).1
              have hne := he m hlt (Ne.symm hmn) (by rw [hmarks]; rfl)
              rw [hmarks, hactivates] at hne
              exact absurd (hlast.symm.trans (congrArg some hkey.symm)) hne
            | _ => trivial
        · refine ⟨g', hfollows', ?_⟩
          intro row hrow hsuperseded
          exact hstale ⟨row, hrow, hsuperseded⟩
    · intro row hrow
      obtain ⟨state, hstate, hmarked⟩ := hrow
      obtain hsame | ⟨hnone, hremoves⟩ | ⟨written, rfl, hkey, hwritten⟩ := heffect.kept row
      · exact Or.inl ⟨state, hsame.trans hstate, hmarked⟩
      · exact Or.inr ⟨hnone, n, given, _, op, rfl, hn, rfl, hremoves⟩
      · refine Or.inl ⟨written, hwritten, ?_⟩
        cases hsuperseded : written.supersededAt with
        | some time => rfl
        | none =>
          have hg : g = some row := by rw [← hkey]; exact hfollows.1 hsuperseded
          exact absurd ⟨state, hstate, hmarked⟩ (hactive row hg)

end EnboxDwn.Agent.SyncQuotaManager
