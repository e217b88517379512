import EnboxDwn.DurableFeedRuns

/-! What a cycle claims in its result. A cycle heeds an answer that aborts: it asks nothing more
and returns an aborted result. Of the others, only those that end with a comparison of equal
fingerprints claim convergence. -/
namespace EnboxDwn.Agent

open Interaction

/-! ## Aborts -/

/-- An answer that tells the cycle to stop. -/
def Aborts (e : FeedEvent) : Prop :=
  match e with
  | ⟨_, .shouldContinue, answer⟩ => answer = .ok false
  | ⟨_, .admitRemoteFeedEntry _, answer⟩ => answer = .ok .aborted
  | ⟨_, .bootstrapRemotePermissionGrants _, answer⟩ => answer = .ok .aborted
  | _ => False

def Aborts.decide (e : FeedEvent) : Bool :=
  match e with
  | ⟨_, .shouldContinue, answer⟩ => Decidable.decide (answer = .ok false)
  | ⟨_, .admitRemoteFeedEntry _, answer⟩ => Decidable.decide (answer = .ok .aborted)
  | ⟨_, .bootstrapRemotePermissionGrants _, answer⟩ => Decidable.decide (answer = .ok .aborted)
  | _ => false

instance : DecidablePred Aborts := fun e =>
  decidable_of_iff (Aborts.decide e = true) (by
    unfold Aborts.decide Aborts
    split <;> simp)

section Operations
variable {env : FeedEnvironment} {dependencies : Dependencies String} {target : SyncTarget}

theorem heeds_askAborting {op : FeedOperation} {stop : op.Answer}
    (h : ∀ turn answer, Aborts ⟨turn, op, answer⟩ ↔ answer = .ok stop) :
    Heeds Aborts (· = stop) (ask env op : FeedProgram op.Answer) := by
  refine heeds_ask fun turn answer => (h turn answer).trans ⟨fun heq => ⟨stop, heq, rfl⟩, ?_⟩
  rintro ⟨_, heq, rfl⟩
  exact heq

theorem heeds_shouldAbort : Heeds Aborts (· = true) (shouldAbort env) := by
  have hask : Heeds Aborts (· = false) (ask env .shouldContinue : FeedProgram Bool) :=
    heeds_askAborting fun _ _ => Iff.rfl
  refine heeds_bind hask ?_ ?_
  · intro b hb
    exact ⟨!b, rfl, by simpa using hb⟩
  · intro b hb
    exact heeds_pure (by simpa using hb)

theorem neverHalts_getLink : NeverHalts Aborts getLink :=
  heeds_getState.bind fun _ => heeds_pure id

theorem neverHalts_setLink (link : ReplicationLinkState) : NeverHalts Aborts (setLink link) :=
  heeds_getState.bind fun _ => heeds_setState

theorem neverHalts_liftThrown {α : Type} (x : Except Thrown α) :
    NeverHalts Aborts (liftThrown x : FeedProgram α) :=
  heeds_compute fun _ _ => id

theorem neverHalts_callLinkStore (call : SyncReplicationLinkStore.Call) :
    NeverHalts Aborts (callLinkStore call) :=
  heeds_getState.bind fun _ => (neverHalts_liftThrown _).bind fun _ => heeds_setState

theorem neverHalts_commitCheckpoint (direction : SyncDirection) :
    NeverHalts Aborts (commitCheckpoint env direction) :=
  neverHalts_getLink.bind fun _ =>
    (neverHalts_ask fun _ _ => id).bind fun _ => neverHalts_callLinkStore _

theorem neverHalts_resetCheckpoint (direction : SyncDirection) :
    NeverHalts Aborts (resetCheckpoint env direction) :=
  neverHalts_getLink.bind fun _ => (neverHalts_setLink _).bind fun _ =>
    (neverHalts_ask fun _ _ => id).bind fun _ => neverHalts_callLinkStore _

theorem neverHalts_skipsDeadLetter (cid : String) :
    NeverHalts Aborts (skipsDeadLetter env target cid) := by
  unfold skipsDeadLetter
  split
  · exact heeds_pure id
  · exact neverHalts_ask fun _ _ => id

theorem heeds_admitRemoteFeedEntries (entries : List MessagesQueryReplyEntry)
    (handledCids : List String) :
    Heeds Aborts (· = .aborted) (admitRemoteFeedEntries env target entries handledCids) := by
  induction entries generalizing handledCids with
  | nil => exact heeds_pure (by simp)
  | cons entry entries ih =>
    unfold admitRemoteFeedEntries
    refine (neverHalts_skipsDeadLetter _).bind fun skips => ?_
    split
    · exact ih handledCids
    have hask : Heeds Aborts (· = .aborted)
        (ask env (.admitRemoteFeedEntry entry) : FeedProgram FeedEntryAdmission) :=
      heeds_askAborting fun _ _ => Iff.rfl
    refine heeds_bind hask ?_ ?_
    · rintro admission rfl
      exact ⟨_, rfl, rfl⟩
    · intro admission hgoes
      cases admission with
      | aborted => exact absurd rfl hgoes
      | deferred detail =>
        refine (neverHalts_ask fun _ _ => id).bind fun retired => ?_
        split
        · exact ih handledCids
        · exact heeds_pure (by simp)
      | echo => exact ih handledCids
      | deadLettered => exact ih handledCids
      | admitted handled => exact (neverHalts_ask fun _ _ => id).bind fun _ => ih _

theorem neverHalts_pushRoots (roots acknowledged succeeded : List String)
    (failed : List PushFailure) :
    NeverHalts Aborts (pushRoots env roots acknowledged succeeded failed) := by
  induction roots generalizing acknowledged succeeded failed with
  | nil => exact heeds_pure id
  | cons root roots ih =>
    unfold pushRoots
    split
    · exact ih _ _ _
    refine (neverHalts_ask fun _ _ => id).bind fun outcome => ?_
    dsimp only
    split
    · exact ih _ _ _
    · split
      · exact ih _ _ _
      · exact ih _ _ _

theorem neverHalts_pushEntries (roots acknowledged : List String) (failed : List PushFailure) :
    NeverHalts Aborts (pushEntries env dependencies roots acknowledged failed) :=
  (neverHalts_pushRoots _ _ _ _).bind fun _ => heeds_pure id

theorem neverHalts_fetchRootEntries (rootCids entries : List String) (failed : List PushFailure) :
    NeverHalts Aborts (fetchRootEntries env rootCids entries failed) := by
  induction rootCids generalizing entries failed with
  | nil => exact heeds_pure id
  | cons rootCid rootCids ih =>
    unfold fetchRootEntries
    refine (neverHalts_ask fun _ _ => id).bind fun fetched => ?_
    cases fetched with
    | fetched rootCids' => exact ih _ _
    | failed failure => exact ih _ _

theorem neverHalts_pushFeedEntry (entry : MessagesQueryReplyEntry)
    (staged acknowledged : List String) :
    NeverHalts Aborts (pushFeedEntry env dependencies entry staged acknowledged) := by
  refine (neverHalts_fetchRootEntries _ _ _).bind fun out => ?_
  obtain ⟨rootEntries, failedByRoot⟩ := out
  refine (neverHalts_ask fun _ _ => id).bind fun fetched => ?_
  cases fetched with
  | fetched entries => exact neverHalts_pushEntries _ _ _
  | failed failure => exact neverHalts_pushEntries _ _ _

theorem neverHalts_applyPushFailureOutcome (failure : PushFailure) :
    NeverHalts Aborts (applyPushFailureOutcome env failure) := by
  have hterminal : NeverHalts Aborts (do
      ask env (.clearBlock failure.cid)
      ask env (.recordTerminalFailure failure)
      return [] : FeedProgram (List PushFailure)) :=
    (neverHalts_ask fun _ _ => id).bind fun _ =>
      (neverHalts_ask fun _ _ => id).bind fun _ => heeds_pure id
  unfold applyPushFailureOutcome
  split
  · exact (neverHalts_ask fun _ _ => id).bind fun _ => heeds_pure id
  refine (neverHalts_ask fun _ _ => id).bind fun block => ?_
  cases block with
  | none =>
    dsimp only
    split
    · exact hterminal
    · exact heeds_pure id
  | some previousBlock =>
    dsimp only
    split
    · exact heeds_pure id
    split
    · exact (neverHalts_ask fun _ _ => id).bind fun _ => heeds_pure id
    split
    · exact hterminal
    · exact (neverHalts_ask fun _ _ => id).bind fun _ => heeds_pure id

theorem neverHalts_applyPushFailures (acknowledged : List String) (module : Option String)
    (failures retryable : List PushFailure) :
    NeverHalts Aborts (applyPushFailures env acknowledged module failures retryable) := by
  induction failures generalizing retryable with
  | nil => exact heeds_pure id
  | cons failure failures ih =>
    unfold applyPushFailures
    split
    · exact ih _
    · exact (neverHalts_applyPushFailureOutcome _).bind fun _ => ih _

theorem neverHalts_applyPushResult (result : PushResult) (module : Option String) :
    NeverHalts Aborts (applyPushResult env result module) :=
  (neverHalts_ask fun _ _ => id).bind fun _ => neverHalts_applyPushFailures _ _ _ _

theorem heeds_pushLocalFeedEntry (entry : MessagesQueryReplyEntry) (acknowledged : List String) :
    Heeds Aborts (·.1 = .aborted) (pushLocalFeedEntry env dependencies entry acknowledged) := by
  unfold pushLocalFeedEntry
  refine (neverHalts_ask fun _ _ => id).bind fun dead => ?_
  split
  · exact heeds_pure (by simp)
  refine (neverHalts_ask fun _ _ => id).bind fun block => ?_
  split
  · exact heeds_pure (by simp)
  refine (neverHalts_ask fun _ _ => id).bind fun pulled => ?_
  split
  · exact heeds_pure (by simp)
  refine (neverHalts_ask fun _ _ => id).bind fun blocked => ?_
  refine (neverHalts_pushFeedEntry _ _ _).bind fun out => ?_
  obtain ⟨result, acknowledged⟩ := out
  refine heeds_bind heeds_shouldAbort ?_ ?_
  · rintro _ rfl
    exact ⟨_, rfl, rfl⟩
  · intro b hb
    rw [if_neg hb]
    refine (neverHalts_applyPushResult _ _).bind fun retryable => ?_
    split
    · exact heeds_pure (by simp)
    · exact heeds_pure (by simp)

theorem heeds_tryPushLocalFeedEntry (entry : MessagesQueryReplyEntry)
    (acknowledged : List String) :
    Heeds Aborts (fun out => ∃ acknowledged, out = .ok (.aborted, acknowledged))
      (tryPushLocalFeedEntry env dependencies entry acknowledged) := by
  refine heeds_tryCatch (heeds_bind (heeds_pushLocalFeedEntry entry acknowledged) ?_ ?_) ?_
  · rintro ⟨result, acknowledged⟩ rfl
    exact ⟨_, rfl, _, rfl⟩
  · rintro ⟨result, acknowledged⟩ hgoes
    refine heeds_pure ?_
    rintro ⟨acknowledged', heq⟩
    cases heq
    exact hgoes rfl
  · intro e
    refine heeds_pure ?_
    rintro ⟨acknowledged', heq⟩
    cases heq

theorem heeds_pushLocalFeedEntries (entries : List MessagesQueryReplyEntry)
    (acknowledged : List String) :
    Heeds Aborts (· = .aborted) (pushLocalFeedEntries env dependencies entries acknowledged) := by
  induction entries generalizing acknowledged with
  | nil => exact heeds_pure (by simp)
  | cons entry entries ih =>
    unfold pushLocalFeedEntries
    refine heeds_bind heeds_shouldAbort ?_ ?_
    · rintro _ rfl
      exact ⟨_, rfl, rfl⟩
    intro b hb
    rw [if_neg hb]
    refine heeds_bind (heeds_tryPushLocalFeedEntry entry acknowledged) ?_ ?_
    · rintro _ ⟨acknowledged', rfl⟩
      exact ⟨_, rfl, rfl⟩
    · intro out hgoes
      obtain e | ⟨outcome, acknowledged'⟩ := out
      · exact heeds_pure (by simp)
      · cases outcome with
        | aborted => exact absurd ⟨acknowledged', rfl⟩ hgoes
        | failed failures => exact heeds_pure (by simp)
        | processed => exact ih acknowledged'

end Operations

namespace SyncDurableFeedReconciler

section Pages
variable {env : FeedEnvironment} {dependencies : Dependencies String} {target : SyncTarget}

theorem neverHalts_commitToken (direction : SyncDirection) (token : ProgressToken) :
    NeverHalts Aborts (commitToken env direction token) :=
  neverHalts_getLink.bind fun _ => (neverHalts_liftThrown _).bind fun _ =>
    (neverHalts_setLink _).bind fun _ => neverHalts_commitCheckpoint _

theorem neverHalts_commitPageProgress (direction : SyncDirection)
    (previousCursor : Option ProgressToken) (reply : MessagesQueryReply) :
    NeverHalts Aborts (commitPageProgress env target direction previousCursor reply) := by
  unfold commitPageProgress
  dsimp only
  cases reply.cursor with
  | none =>
    dsimp only
    split
    · exact heeds_pure id
    · exact neverHalts_liftThrown _
  | some cursor =>
    exact neverHalts_getLink.bind fun _ => (neverHalts_liftThrown _).bind fun _ =>
      (neverHalts_commitToken _ _).bind fun _ => heeds_pure id

theorem neverHalts_commitPushPrefixProgress (previousCursor : Option ProgressToken)
    (reply : MessagesQueryReply) (failedEntry : MessagesQueryReplyEntry) :
    NeverHalts Aborts (commitPushPrefixProgress env target previousCursor reply failedEntry) := by
  unfold commitPushPrefixProgress
  dsimp only
  split
  · exact neverHalts_liftThrown _
  split
  · exact heeds_pure id
  · exact heeds_pure id
  · split
    · exact neverHalts_liftThrown _
    · exact neverHalts_getLink.bind fun _ => (neverHalts_liftThrown _).bind fun _ =>
        neverHalts_commitToken _ _

theorem neverHalts_resetAfterProgressGap (reply : MessagesQueryReply) (direction : SyncDirection)
    (alreadyReset : Bool) :
    NeverHalts Aborts (resetAfterProgressGap env reply direction alreadyReset) := by
  unfold resetAfterProgressGap
  split
  · exact heeds_pure id
  · exact (neverHalts_resetCheckpoint _).bind fun _ => heeds_pure id

theorem neverHalts_resetInvalidCheckpoint (direction : SyncDirection) :
    NeverHalts Aborts (resetInvalidCheckpoint env direction) := by
  refine neverHalts_getLink.bind fun link => ?_
  split
  · exact heeds_pure id
  · split
    · exact heeds_pure id
    · exact neverHalts_resetCheckpoint _

/-- The page ends the loop with an aborted result. -/
def ProcessFeedPageResult.Aborted (page : ProcessFeedPageResult) : Prop :=
  ∃ result, page = .result result ∧ result.aborted = true

section HeedsPage
variable (cursor : Option ProgressToken)
    (entries : List MessagesQueryReplyEntry) (knownCids : List String)
    (reply : MessagesQueryReply)

theorem heeds_processPullPage :
    Heeds Aborts (·.1.Aborted) (processPullPage env target cursor entries knownCids reply) := by
  refine heeds_bind (heeds_admitRemoteFeedEntries entries []) ?_ ?_
  · rintro _ rfl
    exact ⟨_, rfl, _, rfl, rfl⟩
  intro admission hgoes
  cases admission with
  | aborted => exact absurd rfl hgoes
  | deferred handled detail messageCid => exact heeds_pure (by simp [ProcessFeedPageResult.Aborted])
  | processed handled =>
    refine (neverHalts_commitPageProgress _ _ _).bind fun advance => ?_
    cases advance with
    | drained => exact heeds_pure (by simp [ProcessFeedPageResult.Aborted])
    | advanced cursor => exact heeds_pure (by simp [ProcessFeedPageResult.Aborted])

theorem heeds_processPushPage :
    Heeds Aborts (·.1.Aborted)
      (processPushPage env dependencies target cursor entries knownCids reply) := by
  refine heeds_bind (heeds_pushLocalFeedEntries entries []) ?_ ?_
  · rintro _ rfl
    exact ⟨_, rfl, _, rfl, rfl⟩
  intro pushed hgoes
  cases pushed with
  | aborted => exact absurd rfl hgoes
  | error e failedEntry =>
    exact (neverHalts_commitPushPrefixProgress _ _ _).bind fun _ => heeds_throw
  | failed failedEntry failures =>
    exact (neverHalts_commitPushPrefixProgress _ _ _).bind fun _ =>
      heeds_pure (by simp [ProcessFeedPageResult.Aborted])
  | processed =>
    refine (neverHalts_commitPageProgress _ _ _).bind fun advance => ?_
    cases advance with
    | drained => exact heeds_pure (by simp [ProcessFeedPageResult.Aborted])
    | advanced cursor => exact heeds_pure (by simp [ProcessFeedPageResult.Aborted])

end HeedsPage

theorem heeds_afterPage {page : FeedProgram (ProcessFeedPageResult × List String)}
    {next : ProgressToken → List String → FeedProgram Result}
    (hpage : Heeds Aborts (·.1.Aborted) page)
    (hnext : ∀ cursor cids, Heeds Aborts (·.aborted = true) (next cursor cids)) :
    Heeds Aborts (·.aborted = true) (do
      match ← page with
      | (.result result, _) => return result
      | (.nextCursor cursor, cids) => next cursor cids) := by
  refine heeds_bind hpage ?_ ?_
  · rintro ⟨_, cids⟩ ⟨result, rfl, haborted⟩
    exact ⟨_, rfl, haborted⟩
  · intro out hgoes
    match out with
    | (.result result, _) => exact heeds_pure fun haborted => hgoes ⟨_, rfl, haborted⟩
    | (.nextCursor cursor, cids) => exact hnext cursor cids

theorem heeds_round {α : Type} {stopped : α → Prop} {aborted : α} {query : SyncDurableFeedQuery}
    {page : MessagesQueryReply → FeedProgram α} (haborted : stopped aborted)
    (hpage : ∀ reply, Heeds Aborts stopped (page reply)) :
    Heeds Aborts stopped (do
      if ← shouldAbort env then return aborted
      else do
        let reply ← ask env (.queryFeed query)
        page reply) := by
  refine heeds_bind heeds_shouldAbort ?_ ?_
  · rintro _ rfl
    exact ⟨_, rfl, haborted⟩
  · intro b hb
    rw [if_neg hb]
    exact (neverHalts_ask fun _ _ => id).bind fun reply => hpage reply

theorem heeds_collectFeedCids (source : FeedSource) (fuel : Nat) (cursor : Option ProgressToken)
    (cids : List String) :
    Heeds Aborts (· = none) (collectFeedCids env target source fuel cursor cids) := by
  induction fuel generalizing cursor cids with
  | zero => exact heeds_throw
  | succ fuel ih =>
    unfold collectFeedCids
    refine heeds_round rfl fun reply => (neverHalts_liftThrown _).bind fun _ =>
      (neverHalts_liftThrown _).bind fun advance => ?_
    cases advance with
    | drained => exact heeds_pure (by simp)
    | advanced cursor => exact ih _ _

theorem heeds_pullRemoteDiffPages (fuel : Nat) (cursor : Option ProgressToken)
    (alreadyReset cidsOnly : Bool) (localCids : List String) :
    Heeds Aborts (·.aborted = true)
      (pullRemoteDiffPages env target fuel cursor alreadyReset cidsOnly localCids) := by
  induction fuel generalizing cursor alreadyReset cidsOnly localCids with
  | zero => exact heeds_throw
  | succ fuel ih =>
    unfold pullRemoteDiffPages
    refine heeds_round rfl fun reply => (neverHalts_resetAfterProgressGap _ _ _).bind fun reset => ?_
    split
    · exact ih _ _ _ _
    refine (neverHalts_liftThrown _).bind fun _ => ?_
    dsimp only
    split
    · exact ih _ _ _ _
    · exact heeds_afterPage (heeds_processPullPage _ _ _ _) fun _ _ => ih _ _ _ _

/-- An aborted difference is a result. -/
theorem heeds_pullRemoteOwnerDiffWhenUseful (fuel : Nat) :
    Heeds Aborts (∃ result, · = some result ∧ result.aborted = true)
      (pullRemoteOwnerDiffWhenUseful env target fuel) := by
  unfold pullRemoteOwnerDiffWhenUseful
  split
  · exact heeds_pure (by simp)
  refine heeds_bind (heeds_collectFeedCids .localFeed fuel none []) ?_ ?_
  · rintro _ rfl
    exact ⟨_, rfl, _, rfl, rfl⟩
  · intro out hgoes
    cases out with
    | none => exact absurd rfl hgoes
    | some localCids =>
      dsimp only
      split
      · exact heeds_pure (by simp)
      · refine heeds_bind (heeds_pullRemoteDiffPages _ _ _ _ _) ?_ ?_
        · intro result haborted
          exact ⟨_, rfl, _, rfl, haborted⟩
        · intro result hgoes
          exact heeds_pure (by simpa using hgoes)

theorem heeds_pullRemotePagesFrom (diffFuel fuel : Nat) (cursor : Option ProgressToken)
    (alreadyReset : Bool) :
    Heeds Aborts (·.aborted = true)
      (pullRemotePagesFrom env target diffFuel fuel cursor alreadyReset) := by
  induction fuel generalizing cursor alreadyReset with
  | zero => exact heeds_throw
  | succ fuel ih =>
    unfold pullRemotePagesFrom
    refine heeds_round rfl fun reply => (neverHalts_resetAfterProgressGap _ _ _).bind fun reset => ?_
    split
    · refine heeds_bind (heeds_pullRemoteOwnerDiffWhenUseful diffFuel) ?_ ?_
      · rintro _ ⟨result, rfl, haborted⟩
        exact ⟨_, rfl, haborted⟩
      · intro useful hgoes
        cases useful with
        | none => exact ih _ _
        | some result => exact heeds_pure fun haborted => hgoes ⟨_, rfl, haborted⟩
    · exact (neverHalts_liftThrown _).bind fun _ =>
        heeds_afterPage (heeds_processPullPage _ _ _ _) fun _ _ => ih _ _

theorem heeds_pullRemotePages (fuel : Nat) :
    Heeds Aborts (·.aborted = true) (pullRemotePages env target fuel) := by
  unfold pullRemotePages
  refine neverHalts_getLink.bind fun link => ?_
  have huseful : Heeds Aborts (∃ result, · = some result ∧ result.aborted = true)
      (if link.pull.contiguousAppliedToken = none then
        pullRemoteOwnerDiffWhenUseful env target fuel else return none) := by
    split
    · exact heeds_pullRemoteOwnerDiffWhenUseful fuel
    · exact heeds_pure (by simp)
  refine heeds_bind huseful ?_ ?_
  · rintro _ ⟨result, rfl, haborted⟩
    exact ⟨_, rfl, haborted⟩
  · intro useful hgoes
    cases useful with
    | none => exact neverHalts_getLink.bind fun _ => heeds_pullRemotePagesFrom _ _ _ _
    | some result => exact heeds_pure fun haborted => hgoes ⟨_, rfl, haborted⟩

theorem heeds_pushLocalDiffPages (fuel : Nat) (cursor : Option ProgressToken) (alreadyReset : Bool)
    (remoteCids : List String) :
    Heeds Aborts (·.aborted = true)
      (pushLocalDiffPages env dependencies target fuel cursor alreadyReset remoteCids) := by
  induction fuel generalizing cursor alreadyReset remoteCids with
  | zero => exact heeds_throw
  | succ fuel ih =>
    unfold pushLocalDiffPages queryLocalPage
    refine heeds_round rfl fun reply => (neverHalts_resetAfterProgressGap _ _ _).bind fun reset => ?_
    split
    · exact ih _ _ _
    · exact (neverHalts_liftThrown _).bind fun _ =>
        heeds_afterPage (heeds_processPushPage _ _ _ _) fun _ _ => ih _ _ _

theorem heeds_pushLocalDiffWithRemoteInventory (fuel : Nat) (forceQuotaProbe : Bool) :
    Heeds Aborts (·.aborted = true)
      (pushLocalDiffWithRemoteInventory env dependencies target fuel forceQuotaProbe) := by
  have hask : Heeds Aborts (· = .aborted)
      (ask env (.bootstrapRemotePermissionGrants forceQuotaProbe) :
        FeedProgram SyncDurableFeedPermissionGrantBootstrapResult) :=
    heeds_askAborting fun _ _ => Iff.rfl
  refine heeds_bind hask ?_ ?_
  · rintro _ rfl
    exact ⟨_, rfl, rfl⟩
  intro bootstrap hgoes
  cases bootstrap with
  | aborted => exact absurd rfl hgoes
  | processed failures quotaBlocked =>
    dsimp only
    split
    · exact heeds_pure (by simp)
    split
    · exact heeds_pure (by simp)
    refine heeds_bind (heeds_collectFeedCids .remoteFeed fuel none []) ?_ ?_
    · rintro _ rfl
      exact ⟨_, rfl, rfl⟩
    · intro out hgoes
      cases out with
      | none => exact absurd rfl hgoes
      | some remoteCids => exact heeds_pushLocalDiffPages _ _ _ _

theorem heeds_pushLocalPagesFrom (forceQuotaProbe : Bool) (diffFuel fuel : Nat)
    (cursor : Option ProgressToken) :
    Heeds Aborts (·.aborted = true)
      (pushLocalPagesFrom env dependencies target forceQuotaProbe diffFuel fuel cursor) := by
  induction fuel generalizing cursor with
  | zero => exact heeds_throw
  | succ fuel ih =>
    unfold pushLocalPagesFrom queryLocalPage
    refine heeds_round rfl fun reply => (neverHalts_resetAfterProgressGap _ _ _).bind fun reset => ?_
    split
    · exact heeds_pushLocalDiffWithRemoteInventory _ _
    · exact (neverHalts_liftThrown _).bind fun _ =>
        heeds_afterPage (heeds_processPushPage _ _ _ _) fun _ _ => ih _

theorem heeds_pushLocalPages (fuel : Nat) (forceQuotaProbe : Bool) :
    Heeds Aborts (·.aborted = true)
      (pushLocalPages env dependencies target fuel forceQuotaProbe) := by
  refine neverHalts_getLink.bind fun link => ?_
  cases link.push.contiguousAppliedToken with
  | none => exact heeds_pushLocalDiffWithRemoteInventory _ _
  | some token => exact heeds_pushLocalPagesFrom _ _ _ _

/-! ## Cycles that heed an abort -/

theorem heeds_pull (options : Options) (fuel : Nat) :
    Heeds Aborts (·.aborted = true) (pull env target options fuel) := by
  unfold pull
  split
  · exact heeds_pure (by simp)
  refine heeds_bind heeds_shouldAbort ?_ ?_
  · rintro _ rfl
    exact ⟨_, rfl, rfl⟩
  · intro b hb
    rw [if_neg hb]
    exact (neverHalts_resetInvalidCheckpoint _).bind fun _ => heeds_pullRemotePages fuel

theorem heeds_push (options : Options) (fuel : Nat) :
    Heeds Aborts (·.aborted = true) (push env dependencies target options fuel) := by
  unfold push
  split
  · exact heeds_pure (by simp)
  refine heeds_bind heeds_shouldAbort ?_ ?_
  · rintro _ rfl
    exact ⟨_, rfl, rfl⟩
  intro b hb
  rw [if_neg hb]
  refine (neverHalts_resetInvalidCheckpoint _).bind fun _ => ?_
  refine NeverHalts.bind ?_ fun forceProbeCids => ?_
  · split
    · exact (neverHalts_ask fun _ _ => id).bind fun _ => heeds_pure id
    · exact heeds_pure id
  refine heeds_bind (heeds_pushLocalPages fuel options.forceQuotaProbe) ?_ ?_
  · intro result haborted
    exact ⟨result, by simp [haborted], haborted⟩
  · intro result hgoes
    split
    · exact (neverHalts_ask fun _ _ => id).bind fun _ => heeds_pure hgoes
    · exact heeds_pure hgoes

theorem heeds_verifyConvergence :
    Heeds Aborts (·.aborted = true) (verifyConvergence env target) := by
  refine heeds_bind heeds_shouldAbort ?_ ?_
  · rintro _ rfl
    exact ⟨_, rfl, rfl⟩
  intro b hb
  rw [if_neg hb]
  refine (neverHalts_ask fun _ _ => id).bind fun localReply =>
    (neverHalts_ask fun _ _ => id).bind fun remoteReply => ?_
  refine heeds_bind heeds_shouldAbort ?_ ?_
  · rintro _ rfl
    exact ⟨_, rfl, rfl⟩
  intro b hb
  rw [if_neg hb]
  refine (neverHalts_liftThrown _).bind fun _ => (neverHalts_liftThrown _).bind fun _ => ?_
  dsimp only
  split
  · exact (neverHalts_ask fun _ _ => id).bind fun _ => heeds_pure (by simp)
  · exact heeds_pure (by simp)

theorem heeds_reconcileTarget (options : Options) (fuel : Nat) :
    Heeds Aborts (·.aborted = true) (reconcileTarget env dependencies target options fuel) := by
  refine neverHalts_getLink.bind fun link => ?_
  split
  · exact heeds_pure (by simp [initialResult])
  refine heeds_bind (heeds_pull options fuel) ?_ ?_
  · intro pulled haborted
    refine ⟨mergeResult (initialResult options) pulled options, ?_, ?_⟩
    · simp [shouldStop, haborted]
    · simp [mergeResult, haborted]
  intro pulled hpulled
  dsimp only
  have hmerged : ¬ (mergeResult (initialResult options) pulled options).aborted = true := by
    simpa [mergeResult, initialResult] using hpulled
  split
  · exact heeds_pure hmerged
  refine heeds_bind heeds_shouldAbort ?_ ?_
  · rintro _ rfl
    exact ⟨_, rfl, rfl⟩
  intro b hb
  rw [if_neg hb]
  refine heeds_bind (heeds_push options fuel) ?_ ?_
  · intro pushed haborted
    refine ⟨mergeResult (mergeResult (initialResult options) pulled options) pushed options, ?_, ?_⟩
    · simp [shouldStop, haborted]
    · simp [mergeResult, haborted]
  intro pushed hpushed
  have hmerged' : ¬ (mergeResult (mergeResult (initialResult options) pulled options) pushed
      options).aborted = true := by
    simpa [mergeResult, initialResult, hpulled] using hpushed
  split
  · exact heeds_pure hmerged'
  refine heeds_bind heeds_shouldAbort ?_ ?_
  · rintro _ rfl
    exact ⟨_, rfl, rfl⟩
  intro b hb
  rw [if_neg hb]
  split
  · exact heeds_pure hmerged'
  split
  · refine heeds_bind heeds_verifyConvergence ?_ ?_
    · intro convergence haborted
      exact ⟨_, rfl, by simp [mergeResult, haborted]⟩
    · intro convergence hgoes
      refine heeds_pure ?_
      simpa [mergeResult, initialResult, hpulled, hpushed] using hgoes
  · exact heeds_pure hmerged'

theorem heeds_reconcile (options : Options) (fuel : Nat) :
    Heeds Aborts (·.aborted = true) (reconcile env dependencies target options fuel) := by
  refine heeds_bind heeds_shouldAbort ?_ ?_
  · rintro _ rfl
    exact ⟨_, rfl, rfl⟩
  · intro b hb
    rw [if_neg hb]
    exact heeds_reconcileTarget options fuel

/-! ## Results -/

/-- The result of one direction: it says nothing of convergence, and when it is aborted it reports
no failure either. -/
structure Silent (result : Result) : Prop where
  converged : result.converged = none
  quiet : result.aborted = true → result.quotaBlocked = false ∧ result.pushFailures.getD [] = []

theorem silent_aborted : Silent { aborted := true } := ⟨rfl, fun _ => ⟨rfl, rfl⟩⟩

theorem silent_of_going {result : Result} (h : result.converged = none)
    (hgoes : result.aborted = false) : Silent result :=
  ⟨h, fun haborted => by simp [hgoes] at haborted⟩

/-- What ends the loop with the page is silent. -/
def ProcessFeedPageResult.Silent (page : ProcessFeedPageResult) : Prop :=
  ∀ result, page = .result result → SyncDurableFeedReconciler.Silent result

theorem ProcessFeedPageResult.Silent.of_result {result : Result}
    (h : SyncDurableFeedReconciler.Silent result) : Silent (.result result) := by
  rintro _ heq
  cases heq
  exact h

theorem ProcessFeedPageResult.Silent.of_nextCursor (cursor : ProgressToken) :
    Silent (.nextCursor cursor) := by
  rintro _ heq
  cases heq

section ReturnsPage
variable (cursor : Option ProgressToken)
    (entries : List MessagesQueryReplyEntry) (knownCids : List String)
    (reply : MessagesQueryReply)

theorem returns_processPullPage :
    Returns (·.1.Silent) (processPullPage env target cursor entries knownCids reply) := by
  refine returns_bind fun admission => ?_
  cases admission with
  | aborted => exact returns_pure (.of_result silent_aborted)
  | deferred handled detail messageCid =>
    exact returns_pure (.of_result (silent_of_going rfl rfl))
  | processed handled =>
    refine returns_bind fun advance => ?_
    cases advance with
    | drained => exact returns_pure (.of_result (silent_of_going rfl rfl))
    | advanced cursor => exact returns_pure (.of_nextCursor cursor)

theorem returns_processPushPage :
    Returns (·.1.Silent)
      (processPushPage env dependencies target cursor entries knownCids reply) := by
  refine returns_bind fun pushed => ?_
  cases pushed with
  | aborted => exact returns_pure (.of_result silent_aborted)
  | error e failedEntry => exact returns_bind fun _ => returns_throw
  | failed failedEntry failures =>
    exact returns_bind fun _ => returns_pure (.of_result (silent_of_going rfl rfl))
  | processed =>
    refine returns_bind fun advance => ?_
    cases advance with
    | drained => exact returns_pure (.of_result (silent_of_going rfl rfl))
    | advanced cursor => exact returns_pure (.of_nextCursor cursor)

end ReturnsPage

/-- A round of a loop returns silently if it ends or the next one does. -/
theorem returns_round {query : SyncDurableFeedQuery} {page : MessagesQueryReply → FeedProgram Result}
    (hpage : ∀ reply, Returns Silent (page reply)) :
    Returns Silent (do
      if ← shouldAbort env then return { aborted := true }
      else do
        let reply ← ask env (.queryFeed query)
        page reply) := by
  refine returns_bind fun b => ?_
  split
  · exact returns_pure silent_aborted
  · exact returns_bind hpage

theorem returns_afterPage {page : FeedProgram (ProcessFeedPageResult × List String)}
    {next : ProgressToken → List String → FeedProgram Result} (hpage : Returns (·.1.Silent) page)
    (hnext : ∀ cursor cids, Returns Silent (next cursor cids)) :
    Returns Silent (do
      match ← page with
      | (.result result, _) => return result
      | (.nextCursor cursor, cids) => next cursor cids) := by
  refine hpage.bind fun out hsilent => ?_
  match out with
  | (.result result, _) => exact returns_pure (hsilent result rfl)
  | (.nextCursor cursor, cids) => exact hnext cursor cids

theorem returns_pullRemoteDiffPages (fuel : Nat) (cursor : Option ProgressToken)
    (alreadyReset cidsOnly : Bool) (localCids : List String) :
    Returns Silent
      (pullRemoteDiffPages env target fuel cursor alreadyReset cidsOnly localCids) := by
  induction fuel generalizing cursor alreadyReset cidsOnly localCids with
  | zero => exact returns_throw
  | succ fuel ih =>
    unfold pullRemoteDiffPages
    refine returns_round fun reply => returns_bind fun reset => ?_
    split
    · exact ih _ _ _ _
    refine returns_bind fun _ => ?_
    dsimp only
    split
    · exact ih _ _ _ _
    · exact returns_afterPage (returns_processPullPage _ _ _ _) fun _ _ => ih _ _ _ _

theorem returns_pullRemoteOwnerDiffWhenUseful (fuel : Nat) :
    Returns (fun useful => ∀ result, useful = some result → Silent result)
      (pullRemoteOwnerDiffWhenUseful env target fuel) := by
  unfold pullRemoteOwnerDiffWhenUseful
  split
  · exact returns_pure (by simp)
  refine returns_bind fun out => ?_
  cases out with
  | none =>
    refine returns_pure fun result heq => ?_
    cases heq
    exact silent_aborted
  | some localCids =>
    dsimp only
    split
    · exact returns_pure (by simp)
    · refine (returns_pullRemoteDiffPages _ _ _ _ _).bind fun result hsilent => ?_
      refine returns_pure fun _ heq => ?_
      cases heq
      exact hsilent

theorem returns_pullRemotePagesFrom (diffFuel fuel : Nat) (cursor : Option ProgressToken)
    (alreadyReset : Bool) :
    Returns Silent (pullRemotePagesFrom env target diffFuel fuel cursor alreadyReset) := by
  induction fuel generalizing cursor alreadyReset with
  | zero => exact returns_throw
  | succ fuel ih =>
    unfold pullRemotePagesFrom
    refine returns_round fun reply => returns_bind fun reset => ?_
    split
    · refine (returns_pullRemoteOwnerDiffWhenUseful diffFuel).bind fun useful hsilent => ?_
      cases useful with
      | none => exact ih _ _
      | some result => exact returns_pure (hsilent result rfl)
    · exact returns_bind fun _ => returns_afterPage (returns_processPullPage _ _ _ _) fun _ _ => ih _ _

theorem returns_pull (options : Options) (fuel : Nat) :
    Returns Silent (pull env target options fuel) := by
  unfold pull
  split
  · exact returns_pure (silent_of_going rfl rfl)
  refine returns_bind fun b => ?_
  split
  · exact returns_pure silent_aborted
  refine returns_bind fun _ => returns_bind fun link => ?_
  have huseful : Returns (fun useful => ∀ result, useful = some result → Silent result)
      (if link.pull.contiguousAppliedToken = none then
        pullRemoteOwnerDiffWhenUseful env target fuel else return none) := by
    split
    · exact returns_pullRemoteOwnerDiffWhenUseful fuel
    · exact returns_pure (by simp)
  refine huseful.bind fun useful hsilent => ?_
  cases useful with
  | none => exact returns_bind fun _ => returns_pullRemotePagesFrom _ _ _ _
  | some result => exact returns_pure (hsilent result rfl)

theorem returns_pushLocalDiffPages (fuel : Nat) (cursor : Option ProgressToken)
    (alreadyReset : Bool) (remoteCids : List String) :
    Returns Silent
      (pushLocalDiffPages env dependencies target fuel cursor alreadyReset remoteCids) := by
  induction fuel generalizing cursor alreadyReset remoteCids with
  | zero => exact returns_throw
  | succ fuel ih =>
    unfold pushLocalDiffPages queryLocalPage
    refine returns_round fun reply => returns_bind fun reset => ?_
    split
    · exact ih _ _ _
    · exact returns_bind fun _ =>
        returns_afterPage (returns_processPushPage _ _ _ _) fun _ _ => ih _ _ _

theorem returns_pushLocalDiffWithRemoteInventory (fuel : Nat) (forceQuotaProbe : Bool) :
    Returns Silent
      (pushLocalDiffWithRemoteInventory env dependencies target fuel forceQuotaProbe) := by
  refine returns_bind fun bootstrap => ?_
  cases bootstrap with
  | aborted => exact returns_pure silent_aborted
  | processed failures quotaBlocked =>
    dsimp only
    split
    · exact returns_pure (silent_of_going rfl rfl)
    split
    · exact returns_pure (silent_of_going rfl rfl)
    refine returns_bind fun out => ?_
    cases out with
    | none => exact returns_pure silent_aborted
    | some remoteCids => exact returns_pushLocalDiffPages _ _ _ _

theorem returns_pushLocalPagesFrom (forceQuotaProbe : Bool) (diffFuel fuel : Nat)
    (cursor : Option ProgressToken) :
    Returns Silent
      (pushLocalPagesFrom env dependencies target forceQuotaProbe diffFuel fuel cursor) := by
  induction fuel generalizing cursor with
  | zero => exact returns_throw
  | succ fuel ih =>
    unfold pushLocalPagesFrom queryLocalPage
    refine returns_round fun reply => returns_bind fun reset => ?_
    split
    · exact returns_pushLocalDiffWithRemoteInventory _ _
    · exact returns_bind fun _ =>
        returns_afterPage (returns_processPushPage _ _ _ _) fun _ _ => ih _

theorem returns_pushLocalPages (fuel : Nat) (forceQuotaProbe : Bool) :
    Returns Silent (pushLocalPages env dependencies target fuel forceQuotaProbe) := by
  refine returns_bind fun link => ?_
  cases link.push.contiguousAppliedToken with
  | none => exact returns_pushLocalDiffWithRemoteInventory _ _
  | some token => exact returns_pushLocalPagesFrom _ _ _ _

theorem returns_push (options : Options) (fuel : Nat) :
    Returns Silent (push env dependencies target options fuel) := by
  unfold push
  split
  · exact returns_pure (silent_of_going rfl rfl)
  refine returns_bind fun b => ?_
  split
  · exact returns_pure silent_aborted
  refine returns_bind fun _ => returns_bind fun _ => ?_
  refine (returns_pushLocalPages fuel options.forceQuotaProbe).bind fun result hsilent => ?_
  split
  · exact returns_bind fun _ => returns_pure hsilent
  · exact returns_pure hsilent

/-! ## Comparisons -/

/-- The last that the cycle asked are the fingerprints of both feeds. They are present and equal,
and the result reports them with no failure of a push. -/
def Compared (w w' : FeedWorld) (result : Result) : Prop :=
  ∃ earlier turn localReply remoteReply fingerprint,
    w'.trace = w.trace ++ earlier ++
      [⟨turn, .queryFeed { cidsOnly := true, limit := 1, source := .localFeed }, .ok localReply⟩,
        ⟨turn, .queryFeed { cidsOnly := true, limit := 1, source := .remoteFeed }, .ok remoteReply⟩,
        ⟨turn, .shouldContinue, .ok true⟩, ⟨turn, .clearResolvedOmissionsForTarget, .ok ()⟩] ∧
    localReply.fingerprint = some fingerprint ∧ remoteReply.fingerprint = some fingerprint ∧
    result.localFingerprint = some fingerprint ∧ result.remoteFingerprint = some fingerprint ∧
    result.pushFailures.getD [] = []

theorem fingerprintsConverged_eq_true {result : Result} (h : fingerprintsConverged result = true) :
    ∃ fingerprint, result.localFingerprint = some fingerprint ∧
      result.remoteFingerprint = some fingerprint := by
  unfold fingerprintsConverged at h
  rw [Bool.and_eq_true, Bool.and_eq_true, decide_eq_true_eq, decide_eq_true_eq] at h
  obtain ⟨⟨-, hsome⟩, heq⟩ := h
  obtain ⟨fingerprint, hlocal⟩ := Option.isSome_iff_exists.mp hsome
  exact ⟨fingerprint, hlocal, heq ▸ hlocal⟩

/-- A verification that goes to its end compares. -/
theorem wp_verifyConvergence (w : FeedWorld) :
    wp (verifyConvergence env target) w
      (fun result w' => result = { aborted := true } ∨
        result.aborted = false ∧ result.quotaBlocked = false ∧ result.pushFailures = some [] ∧
          ∃ converged, result.converged = some converged ∧
            (converged = true → Compared w w' result)) fun _ => True := by
  refine wp_bind (wp_shouldAbort (fun b w₁ hext => ?_) fun _ _ => trivial)
  split
  · exact wp_pure (Or.inl rfl)
  refine wp_bind (wp_ask (fun localReply _ => ?_) fun _ _ => trivial)
  refine wp_bind (wp_ask (fun remoteReply _ => ?_) fun _ _ => trivial)
  refine wp_bind (wp_bind (wp_ask (fun continues _ => ?_) fun _ _ => trivial))
  refine wp_pure ?_
  cases continues with
  | false => exact wp_pure (Or.inl rfl)
  | true =>
    rw [if_neg (by simp)]
    refine wp_bind (wp_liftThrown (fun _ _ => ?_) trivial)
    refine wp_bind (wp_liftThrown (fun _ _ => ?_) trivial)
    dsimp only
    split
    · next hconverged =>
      obtain ⟨fingerprint, hlocal, hremote⟩ := fingerprintsConverged_eq_true hconverged
      refine wp_bind (wp_ask (fun _ _ => ?_) fun _ _ => trivial)
      refine wp_pure (Or.inr ⟨rfl, rfl, rfl, _, rfl, fun _ => ?_⟩)
      obtain ⟨earlier, htrace⟩ := hext.trace
      refine ⟨earlier, w₁.turn, localReply, remoteReply, fingerprint, ?_, hlocal, hremote, hlocal,
        hremote, rfl⟩
      rw [htrace]
      simp [World.log]
    · next hconverged =>
      exact wp_pure (Or.inr ⟨rfl, rfl, rfl, _, rfl, fun h => absurd h hconverged⟩)

/-! ## What a cycle claims -/

/-- The result so far of a cycle that goes on. -/
structure Accumulated (options : Options) (result : Result) : Prop where
  converged : result.converged = if options.verifyConvergence then some true else none
  failures : result.pushFailures = some []
  going : result.aborted = false

theorem accumulated_initialResult (options : Options) :
    Accumulated options (initialResult options) := ⟨rfl, rfl, rfl⟩

/-- What the result of a cycle claims: an aborted cycle inherits the optimistic start, any other
claims convergence only after a comparison. -/
structure Claims (options : Options) (w w' : FeedWorld) (result : Result) : Prop where
  unverified : options.verifyConvergence = false → result.converged = none
  aborted : options.verifyConvergence = true → result.aborted = true → result.converged = some true
  compared : result.aborted = false → result.converged = some true → Compared w w' result

section Merge
variable {options : Options} {accumulator latest : Result} {w w' : FeedWorld}

theorem Accumulated.merge (h : Accumulated options accumulator) (hlatest : Silent latest)
    (hgoes : shouldStop (mergeResult accumulator latest options) latest = false) :
    Accumulated options (mergeResult accumulator latest options) := by
  have hfailures : latest.pushFailures.getD [] = [] := by
    simp only [shouldStop, mergeResult, h.failures, Option.map_some, Option.getD_some,
      List.nil_append, Bool.or_eq_false_iff, decide_eq_false_iff_not, not_not] at hgoes
    exact hgoes.2
  simp only [shouldStop, Bool.or_eq_false_iff] at hgoes
  refine ⟨?_, ?_, ?_⟩
  · simp [mergeResult, hlatest.converged, hgoes.1.2, hfailures, h.converged]
  · simp [mergeResult, h.failures, hfailures]
  · simp [mergeResult, h.going, hgoes.1.1]

/-- What is returned when a direction stops the cycle. -/
theorem Accumulated.claims_stopped (h : Accumulated options accumulator) (hlatest : Silent latest)
    (hstop : shouldStop (mergeResult accumulator latest options) latest = true) :
    Claims options w w' (mergeResult accumulator latest options) := by
  have hmerged : (mergeResult accumulator latest options).aborted = latest.aborted := by
    simp [mergeResult, h.going]
  refine ⟨?_, ?_, ?_⟩
  · intro hverify
    simp [mergeResult, h.converged, hverify]
  · intro hverify haborted
    rw [hmerged] at haborted
    obtain ⟨hquota, hfailures⟩ := hlatest.quiet haborted
    simp [mergeResult, hlatest.converged, hquota, hfailures, h.converged, hverify]
  · intro hgoes hconverged
    rw [hmerged] at hgoes
    have hcause : latest.quotaBlocked = true ∨ latest.pushFailures.getD [] ≠ [] := by
      simpa [shouldStop, hgoes, mergeResult, h.failures] using hstop
    cases hverify : options.verifyConvergence with
    | false => simp [mergeResult, h.converged, hverify] at hconverged
    | true =>
      have hfalse : (mergeResult accumulator latest options).converged = some false := by
        simp only [mergeResult]
        rw [if_pos ⟨hverify, Or.inr hcause⟩]
      rw [hfalse] at hconverged
      cases hconverged

theorem Accumulated.claims_aborted (h : Accumulated options accumulator) :
    Claims options w w' { accumulator with aborted := true } := by
  refine ⟨fun hverify => ?_, fun hverify _ => ?_, fun hgoes => by cases hgoes⟩
  · simp [h.converged, hverify]
  · simp [h.converged, hverify]

theorem Accumulated.claims_unverified (h : Accumulated options accumulator)
    (hverify : ¬ options.verifyConvergence = true) : Claims options w w' accumulator := by
  have hnone : accumulator.converged = none := by simp [h.converged, hverify]
  refine ⟨fun _ => hnone, fun hv => absurd hv hverify, fun _ hconverged => ?_⟩
  rw [hnone] at hconverged
  cases hconverged

end Merge

/-- The verification is merged last. -/
theorem Accumulated.claims_verified {options : Options} {accumulator convergence : Result}
    {w w₁ w' : FeedWorld} (h : Accumulated options accumulator)
    (hverify : options.verifyConvergence = true) (hgrows : w.trace <+: w₁.trace)
    (hconvergence : convergence = { aborted := true } ∨
      convergence.aborted = false ∧ convergence.quotaBlocked = false ∧
        convergence.pushFailures = some [] ∧ ∃ converged, convergence.converged = some converged ∧
          (converged = true → Compared w₁ w' convergence)) :
    Claims options w w' (mergeResult accumulator convergence options) := by
  cases hconvergence with
  | inl haborted =>
    subst haborted
    refine ⟨fun hfalse => ?_, fun _ _ => ?_, fun hgoes _ => ?_⟩
    · rw [hverify] at hfalse
      cases hfalse
    · simp [mergeResult, h.converged, hverify]
    · simp [mergeResult] at hgoes
  | inr hgoes =>
    obtain ⟨hgoes, hquota, hfailures, converged, hconverged, hcompared⟩ := hgoes
    refine ⟨fun hfalse => ?_, fun _ haborted => ?_, fun _ hmerged => ?_⟩
    · rw [hverify] at hfalse
      cases hfalse
    · simp [mergeResult, h.going, hgoes] at haborted
    · cases converged with
      | false => simp [mergeResult, hverify, hconverged] at hmerged
      | true =>
        obtain ⟨earlier, turn, localReply, remoteReply, fingerprint, htrace, hlocal, hremote,
          hreported, hreported', -⟩ := hcompared rfl
        obtain ⟨before, hbefore⟩ := hgrows
        refine ⟨before ++ earlier, turn, localReply, remoteReply, fingerprint, ?_, hlocal, hremote,
          ?_, ?_, ?_⟩
        · rw [htrace, ← hbefore]
          simp only [List.append_assoc]
        · simp [mergeResult, hreported]
        · simp [mergeResult, hreported']
        · simp [mergeResult, h.failures, hfailures]

theorem claims_reconcileTarget (options : Options) (fuel : Nat) (w : FeedWorld) :
    wp (reconcileTarget env dependencies target options fuel) w
      (fun result w' => Claims options w w' result) fun _ => True := by
  refine wp_bind (wp_bind (wp_getState (wp_pure ?_)))
  split
  · exact wp_pure ⟨fun _ => rfl, fun _ haborted => by simp [initialResult] at haborted,
      fun _ hconverged => by simp [initialResult] at hconverged⟩
  refine wp_bind (wp_mono (wp_and ((heeds_pull options fuel).grows w) (returns_pull options fuel w))
    (fun pulled w₁ h => ?_) fun _ _ => trivial)
  obtain ⟨hgrows, hsilent⟩ := h
  have hstart := accumulated_initialResult options
  dsimp only
  split
  · next hstop => exact wp_pure (hstart.claims_stopped hsilent hstop)
  next hgoes =>
  have hpulled := hstart.merge hsilent (by simpa using hgoes)
  refine wp_bind (wp_shouldAbort (fun b w₂ hext => ?_) fun _ _ => trivial)
  split
  · exact wp_pure hpulled.claims_aborted
  have hgrows₂ := hgrows.trans hext.trace
  refine wp_bind (wp_mono (wp_and ((heeds_push options fuel).grows w₂) (returns_push options fuel w₂))
    (fun pushed w₃ h => ?_) fun _ _ => trivial)
  obtain ⟨hgrows₃, hsilent'⟩ := h
  split
  · next hstop => exact wp_pure (hpulled.claims_stopped hsilent' hstop)
  next hgoes' =>
  have hpushed := hpulled.merge hsilent' (by simpa using hgoes')
  refine wp_bind (wp_shouldAbort (fun b w₄ hext' => ?_) fun _ _ => trivial)
  split
  · exact wp_pure hpushed.claims_aborted
  have hgrows₄ := (hgrows₂.trans hgrows₃).trans hext'.trace
  split
  · refine wp_pure ⟨fun _ => rfl, fun _ haborted => ?_, fun _ hconverged => by cases hconverged⟩
    exact absurd haborted (by simp [hpushed.going])
  split
  · next hverify =>
    exact wp_bind (wp_mono (wp_verifyConvergence w₄)
      (fun convergence w' h => wp_pure (hpushed.claims_verified hverify hgrows₄ h)) fun _ _ => trivial)
  · next hverify => exact wp_pure (hpushed.claims_unverified hverify)

theorem claims_reconcile (options : Options) (fuel : Nat) (w : FeedWorld) :
    wp (reconcile env dependencies target options fuel) w
      (fun result w' => Claims options w w' result) fun _ => True := by
  refine wp_bind (wp_shouldAbort (fun b w₁ hext => ?_) fun _ _ => trivial)
  split
  · exact wp_pure (accumulated_initialResult options).claims_aborted
  · refine wp_mono (claims_reconcileTarget options fuel w₁) (fun result w' h => ?_) fun _ _ => trivial
    refine ⟨h.unverified, h.aborted, fun hgoes hconverged => ?_⟩
    obtain ⟨earlier, turn, localReply, remoteReply, fingerprint, htrace, hrest⟩ :=
      h.compared hgoes hconverged
    obtain ⟨before, hbefore⟩ := hext.trace
    refine ⟨before ++ earlier, turn, localReply, remoteReply, fingerprint, ?_, hrest⟩
    rw [htrace, ← hbefore]
    simp only [List.append_assoc]

/-- The result of a cycle claims convergence only after the comparison of its fingerprints, just
when no convergence was to be verified or no answer in the cycle told it to stop. -/
theorem reconcile_claims_iff {options : Options} {fuel : Nat} {w w' : FeedWorld} {result : Result}
    (h : (reconcile env dependencies target options fuel).run w = (.ok result, w')) :
    (result.converged = some true → Compared w w' result) ↔
      (options.verifyConvergence = true → w.Quiet Aborts w') := by
  have hclaims : wp (reconcile env dependencies target options fuel) w
      (fun result w' => Claims options w w' result) fun _ => True := claims_reconcile options fuel w
  have hheeds : Heeds Aborts (·.aborted = true)
      (reconcile env dependencies target options fuel) := heeds_reconcile options fuel
  replace hheeds := hheeds w
  unfold wp at hclaims hheeds
  rw [h] at hclaims hheeds
  constructor
  · intro hproved hverify
    obtain ⟨haborted, events, e, htrace, -, hstops⟩ | ⟨-, hquiet⟩ := hheeds
    · -- the last answer aborts, and that is not how a comparison ends
      obtain ⟨earlier, turn, localReply, remoteReply, fingerprint, htrace', -⟩ :=
        hproved (hclaims.aborted hverify haborted)
      have hlast : w'.trace.getLast? = some e := by simp [htrace]
      rw [htrace', List.getLast?_append] at hlast
      have heq : (⟨turn, .clearResolvedOmissionsForTarget, .ok ()⟩ : FeedEvent) = e := by
        simpa using hlast
      rw [← heq] at hstops
      exact hstops.elim
    · exact hquiet
  · intro hquiet hconverged
    cases hverify : options.verifyConvergence with
    | false =>
      rw [hclaims.unverified hverify] at hconverged
      cases hconverged
    | true =>
      obtain ⟨haborted, events, e, htrace, -, hstops⟩ | ⟨hgoes, -⟩ := hheeds
      · obtain ⟨events', htrace', hall⟩ := hquiet hverify
        rw [htrace', List.append_assoc] at htrace
        have hmem : e ∈ events' := by
          rw [List.append_cancel_left htrace]
          simp
        exact absurd hstops (hall e hmem)
      · exact hclaims.compared (by simpa using hgoes) hconverged

end Pages

/-! ## Two empty feeds -/

/-- Both feeds are empty; the cycle may be told to stop at once. -/
def emptyFeedsEnvironment (continues : Bool) : FeedEnvironment := fun _ op =>
  match op with
  | .shouldContinue => .ok continues
  | .queryFeed _ => .ok { status := { code := 200, detail := "OK" }, drained := some true,
                          fingerprint := some "0" }
  | .bootstrapRemotePermissionGrants _ => .ok (.processed [] false)
  | .probeQuotaBlocks _ _ => .ok ()
  | .clearResolvedOmissionsForTarget => .ok ()
  | _ => .error .outOfFuel

def emptyWorld : FeedWorld where
  turn := 0
  state := { link := newLink, links := newLinks, calls := [] }
  trace := []

/-- A cycle that verifies convergence over the empty feeds. -/
def emptyCycle (continues : Bool) : Except FeedStop Result × FeedWorld :=
  (reconcile (emptyFeedsEnvironment continues) (fun _ => []) ownTarget
    { verifyConvergence := true } 2).run emptyWorld

def emptyResult : Result where
  converged := some true
  localFingerprint := some "0"
  remoteFingerprint := some "0"
  pullDrained := true
  pushFailures := some []

theorem reconcile_claims_emptyFeeds :
    (emptyCycle true).1 = .ok emptyResult ∧
      Compared emptyWorld (emptyCycle true).2 emptyResult := by
  have hresult : (emptyCycle true).1 = .ok emptyResult := by decide
  have hquiet : emptyWorld.Quiet Aborts (emptyCycle true).2 :=
    ⟨(emptyCycle true).2.trace, rfl, by decide⟩
  exact ⟨hresult, (reconcile_claims_iff (Prod.ext hresult rfl)).mpr (fun _ => hquiet) rfl⟩

/-- The cycle is told to stop before it has read anything, and claims convergence. -/
theorem reconcile_claims_stopped :
    ¬ ∀ (env : FeedEnvironment) (dependencies : Dependencies String) (target : SyncTarget)
      (options : Options) (fuel : Nat) (w w' : FeedWorld) (result : Result),
      (reconcile env dependencies target options fuel).run w = (.ok result, w') →
      result.converged = some true → Compared w w' result := by
  intro h
  have hresult : (emptyCycle false).1 =
      .ok { aborted := true, converged := some true, pushFailures := some [] } := by
    decide
  have hasked : (emptyCycle false).2.trace.length = 1 := by decide
  have hcompared : Compared emptyWorld (emptyCycle false).2
      { aborted := true, converged := some true, pushFailures := some [] } :=
    h _ _ _ _ _ emptyWorld _ _ (Prod.ext hresult rfl) rfl
  obtain ⟨earlier, turn, localReply, remoteReply, fingerprint, htrace, -⟩ := hcompared
  have hlength := congrArg List.length htrace
  rw [hasked] at hlength
  simp only [List.length_append, List.length_cons, List.length_nil] at hlength
  omega

end SyncDurableFeedReconciler

end EnboxDwn.Agent
