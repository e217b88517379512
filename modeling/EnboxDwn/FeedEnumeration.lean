import EnboxDwn.DurableFeedRuns

/-! The page loops of a cycle, round by round. The cursor moves on within one stream and epoch
from round to round; a loop starts over once after a gap, and the difference reads a page again
when it needs its messages. -/
namespace EnboxDwn.Agent

open Interaction

/-- The first token is of the same stream and epoch, at a lower position. -/
def ProgressToken.Precedes (token token' : ProgressToken) : Prop :=
  token.domain = token'.domain ∧ token.Before token'

theorem ProgressToken.Precedes.trans {a b c : ProgressToken} (hab : a.Precedes b)
    (hbc : b.Precedes c) : a.Precedes c :=
  ⟨hab.1.trans hbc.1, hab.2.trans hbc.2⟩

theorem ProgressToken.Precedes.ne {a b : ProgressToken} (h : a.Precedes b) : a ≠ b := by
  rintro rfl
  exact h.2.position_ne rfl

/-! ## The pages leave the link -/

section Operations
variable {env : FeedEnvironment} {dependencies : Dependencies String} {target : SyncTarget}

theorem keeps_shouldAbort : Keeps (shouldAbort env) := keeps_ask.bind fun _ => keeps_pure

theorem keeps_skipsDeadLetter (cid : String) : Keeps (skipsDeadLetter env target cid) := by
  unfold skipsDeadLetter
  split
  · exact keeps_pure
  · exact keeps_ask

theorem keeps_admitRemoteFeedEntries (entries : List MessagesQueryReplyEntry)
    (handledCids : List String) :
    Keeps (admitRemoteFeedEntries env target entries handledCids) := by
  induction entries generalizing handledCids with
  | nil => exact keeps_pure
  | cons entry entries ih =>
    unfold admitRemoteFeedEntries
    refine (keeps_skipsDeadLetter _).bind fun skips => ?_
    split
    · exact ih handledCids
    refine keeps_ask.bind fun admission => ?_
    cases admission with
    | aborted => exact keeps_pure
    | deferred detail =>
      refine keeps_ask.bind fun retired => ?_
      split
      · exact ih handledCids
      · exact keeps_pure
    | echo => exact ih handledCids
    | deadLettered => exact ih handledCids
    | admitted handled => exact keeps_ask.bind fun _ => ih _

theorem keeps_pushRoots (roots acknowledged succeeded : List String) (failed : List PushFailure) :
    Keeps (pushRoots env roots acknowledged succeeded failed) := by
  induction roots generalizing acknowledged succeeded failed with
  | nil => exact keeps_pure
  | cons root roots ih =>
    unfold pushRoots
    split
    · exact ih _ _ _
    refine keeps_ask.bind fun outcome => ?_
    dsimp only
    split
    · exact ih _ _ _
    · split
      · exact ih _ _ _
      · exact ih _ _ _

theorem keeps_pushEntries (roots acknowledged : List String) (failed : List PushFailure) :
    Keeps (pushEntries env dependencies roots acknowledged failed) :=
  (keeps_pushRoots _ _ _ _).bind fun _ => keeps_pure

theorem keeps_fetchRootEntries (rootCids entries : List String) (failed : List PushFailure) :
    Keeps (fetchRootEntries env rootCids entries failed) := by
  induction rootCids generalizing entries failed with
  | nil => exact keeps_pure
  | cons rootCid rootCids ih =>
    unfold fetchRootEntries
    refine keeps_ask.bind fun fetched => ?_
    cases fetched with
    | fetched rootCids' => exact ih _ _
    | failed failure => exact ih _ _

theorem keeps_pushFeedEntry (entry : MessagesQueryReplyEntry) (staged acknowledged : List String) :
    Keeps (pushFeedEntry env dependencies entry staged acknowledged) := by
  refine (keeps_fetchRootEntries _ _ _).bind fun out => ?_
  obtain ⟨rootEntries, failedByRoot⟩ := out
  refine keeps_ask.bind fun fetched => ?_
  cases fetched with
  | fetched entries => exact keeps_pushEntries _ _ _
  | failed failure => exact keeps_pushEntries _ _ _

theorem keeps_applyPushFailureOutcome (failure : PushFailure) :
    Keeps (applyPushFailureOutcome env failure) := by
  have hterminal : Keeps (do
      ask env (.clearBlock failure.cid)
      ask env (.recordTerminalFailure failure)
      return [] : FeedProgram (List PushFailure)) :=
    keeps_ask.bind fun _ => keeps_ask.bind fun _ => keeps_pure
  unfold applyPushFailureOutcome
  split
  · exact keeps_ask.bind fun _ => keeps_pure
  refine keeps_ask.bind fun block => ?_
  cases block with
  | none =>
    dsimp only
    split
    · exact hterminal
    · exact keeps_pure
  | some previousBlock =>
    dsimp only
    split
    · exact keeps_pure
    split
    · exact keeps_ask.bind fun _ => keeps_pure
    split
    · exact hterminal
    · exact keeps_ask.bind fun _ => keeps_pure

theorem keeps_applyPushFailures (acknowledged : List String) (module : Option String)
    (failures retryable : List PushFailure) :
    Keeps (applyPushFailures env acknowledged module failures retryable) := by
  induction failures generalizing retryable with
  | nil => exact keeps_pure
  | cons failure failures ih =>
    unfold applyPushFailures
    split
    · exact ih _
    · exact (keeps_applyPushFailureOutcome _).bind fun _ => ih _

theorem keeps_pushLocalFeedEntry (entry : MessagesQueryReplyEntry) (acknowledged : List String) :
    Keeps (pushLocalFeedEntry env dependencies entry acknowledged) := by
  unfold pushLocalFeedEntry
  refine keeps_ask.bind fun dead => ?_
  split
  · exact keeps_pure
  refine keeps_ask.bind fun block => ?_
  split
  · exact keeps_pure
  refine keeps_ask.bind fun pulled => ?_
  split
  · exact keeps_pure
  refine keeps_ask.bind fun blocked => (keeps_pushFeedEntry _ _ _).bind fun out => ?_
  obtain ⟨result, acknowledged⟩ := out
  refine keeps_shouldAbort.bind fun aborts => ?_
  split
  · exact keeps_pure
  refine Keeps.bind (keeps_ask.bind fun _ => keeps_applyPushFailures _ _ _ _) fun retryable => ?_
  split
  · exact keeps_pure
  · exact keeps_pure

theorem keeps_pushLocalFeedEntries (entries : List MessagesQueryReplyEntry)
    (acknowledged : List String) :
    Keeps (pushLocalFeedEntries env dependencies entries acknowledged) := by
  induction entries generalizing acknowledged with
  | nil => exact keeps_pure
  | cons entry entries ih =>
    unfold pushLocalFeedEntries
    refine keeps_shouldAbort.bind fun aborts => ?_
    split
    · exact keeps_pure
    have htry : Keeps (tryPushLocalFeedEntry env dependencies entry acknowledged) :=
      keeps_tryCatch ((keeps_pushLocalFeedEntry entry acknowledged).bind fun _ => keeps_pure)
        fun _ => keeps_pure
    refine htry.bind fun out => ?_
    obtain e | ⟨outcome, acknowledged'⟩ := out
    · exact keeps_pure
    · cases outcome with
      | aborted => exact keeps_pure
      | failed failures => exact keeps_pure
      | processed => exact ih acknowledged'

end Operations

namespace SyncDurableFeedReconciler

/-! ## Pages and cursors -/

/-- The cursor is of the stream and epoch that the copy of the link has its token of. -/
def Within (direction : SyncDirection) (cursor : Option ProgressToken) (w : FeedWorld) : Prop :=
  ∀ token ∈ cursor, ∃ current ∈ (w.state.link.checkpoint direction).contiguousAppliedToken,
    current.domain = token.domain

section Pages
variable {env : FeedEnvironment} {dependencies : Dependencies String} {target : SyncTarget}
  {direction : SyncDirection} {cursor : Option ProgressToken} {w w' : FeedWorld}

theorem Within.none : Within direction none w := fun _ h => nomatch h

theorem Within.of_link (w : FeedWorld) :
    Within direction (w.state.link.checkpoint direction).contiguousAppliedToken w :=
  fun token htoken => ⟨token, htoken, rfl⟩

theorem Within.of_state_eq (h : Within direction cursor w) (hstate : w'.state = w.state) :
    Within direction cursor w' := by
  unfold Within
  rw [hstate]
  exact h

theorem Within.domain_eq {token next : ProgressToken} (h : Within direction cursor w)
    (htoken : token ∈ cursor)
    (hvalid : SyncCheckpoint.validateTokenDomain (w.state.link.checkpoint direction) next = true) :
    token.domain = next.domain := by
  obtain ⟨current, hcurrent, hdomain⟩ := h token htoken
  rw [SyncCheckpoint.validateTokenDomain, hcurrent] at hvalid
  refine hdomain.symm.trans (domain_eq_iff.mpr ?_)
  have hsame : next.streamId = current.streamId ∧ next.epoch = current.epoch := by
    simpa using hvalid
  exact ⟨hsame.1.symm, hsame.2.symm⟩

theorem assertCursorProgress_eq_ok {link : ReplicationLinkState} {next : ProgressToken}
    {drained : Bool} {dwnUrl : String}
    (h : assertCursorProgress link cursor next drained dwnUrl direction = .ok ()) :
    SyncCheckpoint.validateTokenDomain (link.checkpoint direction) next = true ∧
      (drained = false → ∀ token ∈ cursor, token.Before next) := by
  unfold assertCursorProgress at h
  dsimp only at h
  split at h
  · cases h
  split at h
  · cases h
  next hdomain =>
  refine ⟨by simpa using hdomain, fun hdrained token htoken => ?_⟩
  cases htoken
  obtain ⟨n, hn, hprogress⟩ := bind_eq_ok h
  obtain ⟨x, y, hx, hy, hle, hzero⟩ := SyncCheckpoint.comparePosition_eq_ok hn
  split at hprogress
  · cases hprogress
  next hadvanced =>
  refine ⟨y, x, hy, hx, ?_⟩
  by_contra hnot
  have hn : n ≤ 0 := hle.mpr (by omega)
  by_cases hn0 : n = 0
  · exact hadvanced (Or.inr ⟨hn0, hdrained⟩)
  · exact hadvanced (Or.inl (by omega))

theorem wp_commitCheckpoint_link :
    wp (commitCheckpoint env direction) w (fun _ w' => w'.state.link = w.state.link)
      fun _ => True := by
  refine wp_bind (wp_bind (wp_getState (wp_pure ?_)))
  refine wp_bind (wp_ask (fun now _ => ?_) fun _ _ => trivial)
  refine wp_bind (wp_getState (wp_bind (wp_liftThrown (fun links _ => ?_) trivial)))
  exact wp_setState rfl

theorem wp_commitToken_within (token : ProgressToken) :
    wp (commitToken env direction token) w (fun _ w' => Within direction (some token) w')
      fun _ => True := by
  refine wp_bind (wp_bind (wp_getState (wp_pure ?_)))
  refine wp_bind (wp_liftThrown (fun checkpoint hcheckpoint => ?_) trivial)
  refine wp_bind (wp_bind (wp_getState (wp_setState ?_)))
  refine wp_mono wp_commitCheckpoint_link (fun _ w' hlink => ?_) fun _ _ => trivial
  have hcurrent : ∃ current ∈ checkpoint.contiguousAppliedToken,
      current.domain = token.domain := by
    obtain ⟨rfl, -⟩ | ⟨rfl, current, hcurrent, hdomain, -⟩ :=
      SyncCheckpoint.commitContiguousToken_eq_ok hcheckpoint
    · exact ⟨token, rfl, rfl⟩
    · exact ⟨current, hcurrent, hdomain⟩
  intro token' htoken'
  cases htoken'
  rw [hlink, withCheckpoint_self]
  exact hcurrent

/-- A page that does not end the loop has a cursor behind the one it was queried from. -/
theorem wp_commitPageProgress_precedes {reply : MessagesQueryReply}
    (h : Within direction cursor w) :
    wp (commitPageProgress env target direction cursor reply) w
      (fun advance w' => ∀ next, advance = .advanced next →
        (∀ token ∈ cursor, token.Precedes next) ∧ Within direction (some next) w')
      fun _ => True := by
  unfold commitPageProgress
  dsimp only
  cases reply.cursor with
  | none =>
    dsimp only
    split
    · exact wp_pure (by simp)
    · exact wp_throw trivial
  | some replyCursor =>
    refine wp_bind (wp_bind (wp_getState (wp_pure ?_)))
    refine wp_bind (wp_liftThrown (fun _ hok => ?_) trivial)
    refine wp_bind (wp_mono (wp_commitToken_within replyCursor) (fun _ w' hwithin => wp_pure ?_)
      fun _ _ => trivial)
    intro next hnext
    split at hnext
    · cases hnext
    next hdrained =>
    cases hnext
    obtain ⟨hvalid, hbefore⟩ := assertCursorProgress_eq_ok hok
    refine ⟨fun token htoken => ⟨h.domain_eq htoken hvalid, ?_⟩, hwithin⟩
    exact hbefore (by simpa using hdrained) token htoken

theorem wp_processPullPage_precedes {entries : List MessagesQueryReplyEntry}
    {knownCids : List String} {reply : MessagesQueryReply} (h : Within .pull cursor w) :
    wp (processPullPage env target cursor entries knownCids reply) w
      (fun out w' => ∀ next, out.1 = .nextCursor next →
        (∀ token ∈ cursor, token.Precedes next) ∧ Within .pull (some next) w')
      fun _ => True := by
  unfold processPullPage
  refine wp_bind (wp_mono (keeps_admitRemoteFeedEntries entries [] w) (fun admission w₁ hstate => ?_)
    fun _ _ => trivial)
  match admission with
  | .aborted => exact wp_pure (by simp)
  | .deferred handled detail messageCid => exact wp_pure (by simp)
  | .processed handled =>
    refine wp_bind (wp_mono (wp_commitPageProgress_precedes (h.of_state_eq hstate))
      (fun advance w₂ hadvance => ?_) fun _ _ => trivial)
    match advance with
    | .drained => exact wp_pure (by simp)
    | .advanced next =>
      refine wp_pure fun next' hnext' => ?_
      cases hnext'
      exact hadvance next rfl

theorem wp_processPushPage_precedes {entries : List MessagesQueryReplyEntry}
    {knownCids : List String} {reply : MessagesQueryReply} (h : Within .push cursor w) :
    wp (processPushPage env dependencies target cursor entries knownCids reply) w
      (fun out w' => ∀ next, out.1 = .nextCursor next →
        (∀ token ∈ cursor, token.Precedes next) ∧ Within .push (some next) w')
      fun _ => True := by
  unfold processPushPage
  refine wp_bind (wp_mono (keeps_pushLocalFeedEntries entries [] w) (fun result w₁ hstate => ?_)
    fun _ _ => trivial)
  match result with
  | .aborted => exact wp_pure (by simp)
  | .error e failedEntry =>
    exact wp_bind (wp_mono (returns_any w₁) (fun _ _ _ => wp_throw trivial) fun _ _ => trivial)
  | .failed failedEntry failures =>
    exact wp_bind (wp_mono (returns_any w₁) (fun _ _ _ => wp_pure (by simp)) fun _ _ => trivial)
  | .processed =>
    refine wp_bind (wp_mono (wp_commitPageProgress_precedes (h.of_state_eq hstate))
      (fun advance w₂ hadvance => ?_) fun _ _ => trivial)
    match advance with
    | .drained => exact wp_pure (by simp)
    | .advanced next =>
      refine wp_pure fun next' hnext' => ?_
      cases hnext'
      exact hadvance next rfl

/-- Without a reset the copy of the link is as before, and there is one reset in a loop. -/
theorem wp_resetAfterProgressGap_once {reply : MessagesQueryReply} {alreadyReset : Bool} :
    wp (resetAfterProgressGap env reply direction alreadyReset) w
      (fun reset w' => if reset then alreadyReset = false else w' = w) fun _ => True := by
  unfold resetAfterProgressGap
  split
  · exact wp_pure rfl
  next hgap =>
  push Not at hgap
  refine wp_bind (wp_mono (returns_any w) (fun _ _ _ => wp_pure ?_) fun _ _ => trivial)
  simpa using hgap.2

end Pages

/-! ## Rounds -/

/-- Where a round of a page loop begins. -/
structure Enumeration where
  cursor : Option ProgressToken := none
  alreadyReset : Bool := false
  cidsOnly : Bool := false
  knownCids : List String := []
  deriving DecidableEq

namespace Enumeration
variable {e e' : Enumeration} {rereads : Bool}

/-- The next page is behind the cursor, in its stream and epoch. -/
structure Advances (e e' : Enumeration) : Prop where
  cursor : ∃ next, e'.cursor = some next ∧ ∀ token ∈ e.cursor, token.Precedes next
  alreadyReset : e'.alreadyReset = e.alreadyReset

structure Restarts (e e' : Enumeration) : Prop where
  cursor : e'.cursor = none
  before : e.alreadyReset = false
  after : e'.alreadyReset = true

/-- The addresses of the page were read, now its messages are. -/
structure Rereads (e e' : Enumeration) : Prop where
  cursor : e'.cursor = e.cursor
  alreadyReset : e'.alreadyReset = e.alreadyReset
  before : e.cidsOnly = true
  after : e'.cidsOnly = false

/-- Of a later round: the loop has started over, or has come further, or, if it reads pages again,
has asked for the messages. -/
inductive Later (rereads : Bool) (e e' : Enumeration) : Prop where
  | restarted (before : e.alreadyReset = false) (after : e'.alreadyReset = true)
  | further (h : Advances e e')
  | reread (allowed : rereads = true) (h : Rereads e e')

theorem Advances.trans {e'' : Enumeration} (h : Advances e e') (h' : Advances e' e'') :
    Advances e e'' := by
  obtain ⟨⟨next, hnext, hprecedes⟩, hreset⟩ := h
  obtain ⟨⟨next', hnext', hprecedes'⟩, hreset'⟩ := h'
  refine ⟨⟨next', hnext', fun token htoken => ?_⟩, hreset'.trans hreset⟩
  exact (hprecedes token htoken).trans (hprecedes' next hnext)

theorem Later.trans {e'' : Enumeration} (h : Later rereads e e') (h' : Later rereads e' e'') :
    Later rereads e e'' := by
  cases h with
  | restarted before after =>
    refine .restarted before ?_
    cases h' with
    | restarted _ after' => exact after'
    | further h' => exact h'.alreadyReset.trans after
    | reread _ h' => exact h'.alreadyReset.trans after
  | further h =>
    cases h' with
    | restarted before' after' => exact .restarted (h.alreadyReset.symm.trans before') after'
    | further h' => exact .further (h.trans h')
    | reread _ h' =>
      refine .further ⟨?_, h'.alreadyReset.trans h.alreadyReset⟩
      rw [h'.cursor]
      exact h.cursor
  | reread _ h =>
    cases h' with
    | restarted before' after' => exact .restarted (h.alreadyReset.symm.trans before') after'
    | further h' =>
      refine .further ⟨?_, h'.alreadyReset.trans h.alreadyReset⟩
      rw [← h.cursor]
      exact h'.cursor
    | reread _ h' => exact absurd (h.after.symm.trans h'.before) (by simp)

instance : Trans (Later rereads) (Later rereads) (Later rereads) := ⟨Later.trans⟩

/-- A cursor is used again after the loop has started over, or to read the messages of the page. -/
theorem Later.rereads_of_cursor_eq (h : Later rereads e e') (hcursor : e.cursor = e'.cursor)
    (hreset : e.alreadyReset = e'.alreadyReset) : rereads = true ∧ Rereads e e' := by
  cases h with
  | restarted before after => exact absurd (before.symm.trans (hreset.trans after)) (by simp)
  | further h =>
    obtain ⟨next, hnext, hprecedes⟩ := h.cursor
    exact absurd rfl (hprecedes next (hcursor.trans hnext)).ne
  | reread allowed h => exact ⟨allowed, h⟩

/-- What a round begins with next, and what was used before is not used again. -/
structure Progresses (step : Enumeration → Enumeration → Prop) (rereads : Bool)
    (rounds : List Enumeration) : Prop where
  chain : rounds.IsChain step
  reused : rounds.Pairwise fun e e' => e.cursor = e'.cursor → e.alreadyReset = e'.alreadyReset →
    rereads = true ∧ Rereads e e'

theorem progresses_of_isChain {step : Enumeration → Enumeration → Prop}
    {rounds : List Enumeration} (hlater : ∀ e e', step e e' → Later rereads e e')
    (h : rounds.IsChain step) : Progresses step rereads rounds := by
  refine ⟨h, List.Pairwise.imp ?_ (h.imp hlater).pairwise⟩
  exact Later.rereads_of_cursor_eq

end Enumeration

section Rounds
variable (env : FeedEnvironment) (dependencies : Dependencies String) (target : SyncTarget)

def pullRound (diffFuel : Nat) (e : Enumeration) : FeedProgram (Result ⊕ Enumeration) := do
  if ← shouldAbort env then return .inl { aborted := true }
  else do
    let reply ← ask env (.queryFeed { cursor := e.cursor, limit := pageLimit, source := .remoteFeed })
    if ← resetAfterProgressGap env reply .pull e.alreadyReset then
      match ← pullRemoteOwnerDiffWhenUseful env target diffFuel with
      | some result => return .inl result
      | none => return .inr { e with cursor := none, alreadyReset := true }
    else do
      liftThrown (assertQuerySucceeded reply target .pull)
      match ← processPullPage env target e.cursor (reply.entries.getD []) [] reply with
      | (.result result, _) => return .inl result
      | (.nextCursor cursor, _) => return .inr { e with cursor := some cursor }

def pullDiffRound (e : Enumeration) : FeedProgram (Result ⊕ Enumeration) := do
  if ← shouldAbort env then return .inl { aborted := true }
  else do
    let reply ← ask env (.queryFeed
      { cidsOnly := e.cidsOnly, cursor := e.cursor, limit := pageLimit, source := .remoteFeed })
    if ← resetAfterProgressGap env reply .pull e.alreadyReset then
      return .inr { e with cursor := none, alreadyReset := true }
    else do
      liftThrown (assertQuerySucceeded reply target .pull)
      let missingEntries := entriesMissingFrom e.knownCids (reply.entries.getD [])
      if e.cidsOnly && missingEntries.length > 1 then return .inr { e with cidsOnly := false }
      else
        match ← processPullPage env target e.cursor missingEntries e.knownCids reply with
        | (.result result, _) => return .inl result
        | (.nextCursor cursor, knownCids) =>
          return .inr { e with cursor := some cursor, knownCids,
                               cidsOnly := missingEntries.length ≤ 1 }

def pushDiffRound (e : Enumeration) : FeedProgram (Result ⊕ Enumeration) := do
  if ← shouldAbort env then return .inl { aborted := true }
  else do
    let reply ← queryLocalPage env e.cursor
    if ← resetAfterProgressGap env reply .push e.alreadyReset then
      return .inr { e with cursor := none, alreadyReset := true }
    else do
      liftThrown (assertQuerySucceeded reply target .push)
      let missingEntries := entriesMissingFrom e.knownCids (reply.entries.getD [])
      match ← processPushPage env dependencies target e.cursor missingEntries e.knownCids reply with
      | (.result result, _) => return .inl result
      | (.nextCursor cursor, knownCids) => return .inr { e with cursor := some cursor, knownCids }

def pushRound (forceQuotaProbe : Bool) (diffFuel : Nat) (e : Enumeration) :
    FeedProgram (Result ⊕ Enumeration) := do
  if ← shouldAbort env then return .inl { aborted := true }
  else do
    let reply ← queryLocalPage env e.cursor
    if ← resetAfterProgressGap env reply .push false then
      return .inl
        (← pushLocalDiffWithRemoteInventory env dependencies target diffFuel forceQuotaProbe)
    else do
      liftThrown (assertQuerySucceeded reply target .push)
      match ← processPushPage env dependencies target e.cursor (reply.entries.getD []) [] reply with
      | (.result result, _) => return .inl result
      | (.nextCursor cursor, _) => return .inr { e with cursor := some cursor }

end Rounds

/-! ## From round to round -/

section Steps
variable {env : FeedEnvironment} {dependencies : Dependencies String} {target : SyncTarget}
  {direction : SyncDirection} {w : FeedWorld} {e : Enumeration} {α : Type}

theorem wp_round {query : SyncDurableFeedQuery} {alreadyReset : Bool} {gap : FeedProgram α}
    {page : MessagesQueryReply → FeedProgram α} {aborted : α} {Q : α → FeedWorld → Prop}
    (haborted : ∀ w', Q aborted w')
    (hgap : alreadyReset = false → ∀ w', wp gap w' Q fun _ => True)
    (hpage : ∀ reply w', w'.state = w.state → wp (page reply) w' Q fun _ => True) :
    wp (do
      if ← shouldAbort env then return aborted
      else do
        let reply ← ask env (.queryFeed query)
        if ← resetAfterProgressGap env reply direction alreadyReset then gap
        else do
          liftThrown (assertQuerySucceeded reply target direction)
          page reply) w Q fun _ => True := by
  refine wp_bind (wp_shouldAbort (fun b w₁ hext => ?_) fun _ _ => trivial)
  split
  · exact wp_pure (haborted w₁)
  refine wp_bind (wp_ask (fun reply _ => ?_) fun _ _ => trivial)
  refine wp_bind (wp_mono wp_resetAfterProgressGap_once (fun reset w₂ h => ?_) fun _ _ => trivial)
  cases reset with
  | true => exact hgap h w₂
  | false =>
    refine wp_bind (wp_liftThrown (fun _ _ => hpage reply w₂ ?_) trivial)
    rw [show w₂ = _ from h]
    exact hext.state

/-- A round after its page: the cursor of the page is the one the next round begins with. -/
theorem wp_afterPage {page : FeedProgram (ProcessFeedPageResult × List String)}
    {next : ProgressToken → List String → Enumeration}
    {P : Enumeration → Prop}
    (hpage : wp page w (fun out w' => ∀ cursor, out.1 = .nextCursor cursor →
      (∀ token ∈ e.cursor, token.Precedes cursor) ∧ Within direction (some cursor) w') fun _ => True)
    (hcursor : ∀ cursor cids, (next cursor cids).cursor = some cursor)
    (hreset : ∀ cursor cids, (next cursor cids).alreadyReset = e.alreadyReset)
    (hadvance : ∀ e', e.Advances e' → P e') :
    wp (do
      match ← page with
      | (.result result, _) => return .inl result
      | (.nextCursor cursor, cids) => return .inr (next cursor cids)) w
      (fun (out : Result ⊕ Enumeration) w' => ∀ e', out = .inr e' →
        P e' ∧ Within direction e'.cursor w') fun _ => True := by
  refine wp_bind (wp_mono hpage (fun out w₂ hout => ?_) fun _ _ => trivial)
  match out with
  | (.result result, _) => exact wp_pure (by simp)
  | (.nextCursor cursor, cids) =>
    obtain ⟨hprecedes, hwithin⟩ := hout cursor rfl
    refine wp_pure fun e' he' => ?_
    cases he'
    refine ⟨hadvance _ ⟨⟨cursor, hcursor cursor cids, hprecedes⟩, hreset cursor cids⟩, ?_⟩
    rw [hcursor]
    exact hwithin

theorem wp_pullRound (diffFuel : Nat) (h : Within .pull e.cursor w) :
    wp (pullRound env target diffFuel e) w
      (fun out w' => ∀ e', out = .inr e' →
        (e.Advances e' ∨ e.Restarts e') ∧ Within .pull e'.cursor w') fun _ => True := by
  unfold pullRound
  refine wp_round (by simp) (fun hreset w₁ => ?_) fun reply w₁ hstate => ?_
  · refine wp_bind (wp_mono (returns_any w₁) (fun out w₂ _ => ?_) fun _ _ => trivial)
    cases out with
    | some result => exact wp_pure (by simp)
    | none =>
      refine wp_pure fun e' he' => ?_
      cases he'
      exact ⟨Or.inr ⟨rfl, hreset, rfl⟩, .none⟩
  · exact wp_afterPage (wp_processPullPage_precedes (h.of_state_eq hstate)) (fun _ _ => rfl)
      (fun _ _ => rfl) fun _ => Or.inl

theorem wp_pullDiffRound (h : Within .pull e.cursor w) :
    wp (pullDiffRound env target e) w
      (fun out w' => ∀ e', out = .inr e' →
        (e.Advances e' ∨ e.Restarts e' ∨ e.Rereads e') ∧ Within .pull e'.cursor w')
      fun _ => True := by
  unfold pullDiffRound
  refine wp_round (by simp) (fun hreset w₁ => ?_) fun reply w₁ hstate => ?_
  · refine wp_pure fun e' he' => ?_
    cases he'
    exact ⟨Or.inr (Or.inl ⟨rfl, hreset, rfl⟩), .none⟩
  dsimp only
  split
  · next hrereads =>
    refine wp_pure fun e' he' => ?_
    cases he'
    refine ⟨Or.inr (Or.inr ⟨rfl, rfl, ?_, rfl⟩), h.of_state_eq hstate⟩
    exact (Bool.and_eq_true _ _ ▸ hrereads).1
  · exact wp_afterPage (wp_processPullPage_precedes (h.of_state_eq hstate)) (fun _ _ => rfl)
      (fun _ _ => rfl) fun _ => Or.inl

theorem wp_pushDiffRound (h : Within .push e.cursor w) :
    wp (pushDiffRound env dependencies target e) w
      (fun out w' => ∀ e', out = .inr e' →
        (e.Advances e' ∨ e.Restarts e') ∧ Within .push e'.cursor w') fun _ => True := by
  unfold pushDiffRound queryLocalPage
  refine wp_round (by simp) (fun hreset w₁ => ?_) fun reply w₁ hstate => ?_
  · refine wp_pure fun e' he' => ?_
    cases he'
    exact ⟨Or.inr ⟨rfl, hreset, rfl⟩, .none⟩
  · exact wp_afterPage (wp_processPushPage_precedes (h.of_state_eq hstate)) (fun _ _ => rfl)
      (fun _ _ => rfl) fun _ => Or.inl

/-- After a gap the push goes on with the difference, in a loop of its own. -/
theorem wp_pushRound (forceQuotaProbe : Bool) (diffFuel : Nat) (h : Within .push e.cursor w) :
    wp (pushRound env dependencies target forceQuotaProbe diffFuel e) w
      (fun out w' => ∀ e', out = .inr e' → e.Advances e' ∧ Within .push e'.cursor w')
      fun _ => True := by
  unfold pushRound queryLocalPage
  refine wp_round (by simp) (fun _ w₁ => ?_) fun reply w₁ hstate => ?_
  · exact wp_bind (wp_mono (returns_any w₁) (fun _ _ _ => wp_pure (by simp)) fun _ _ => trivial)
  · exact wp_afterPage (wp_processPushPage_precedes (h.of_state_eq hstate)) (fun _ _ => rfl)
      (fun _ _ => rfl) fun _ => id

end Steps

/-! ## The loops are their rounds -/

section Loops
variable {env : FeedEnvironment} {dependencies : Dependencies String} {target : SyncTarget}

theorem pullRemotePagesFrom_eq_loop (diffFuel fuel : Nat) (e : Enumeration) :
    pullRemotePagesFrom env target diffFuel fuel e.cursor e.alreadyReset =
      loop .outOfFuel (pullRound env target diffFuel) fuel e := by
  induction fuel generalizing e with
  | zero => rfl
  | succ fuel ih =>
    rw [loop, pullRemotePagesFrom, pullRound, bind_assoc]
    refine bind_congr fun aborts => ?_
    split
    · rw [pure_bind]
    rw [bind_assoc]
    refine bind_congr fun reply => ?_
    rw [bind_assoc]
    refine bind_congr fun reset => ?_
    split
    · rw [bind_assoc]
      refine bind_congr fun useful => ?_
      cases useful with
      | some result => simp only [pure_bind]
      | none =>
        simp only [pure_bind]
        exact ih { e with cursor := none, alreadyReset := true }
    · rw [bind_assoc]
      refine bind_congr fun _ => ?_
      rw [bind_assoc]
      refine bind_congr fun out => ?_
      match out with
      | (.result result, _) => simp only [pure_bind]
      | (.nextCursor cursor, _) =>
        simp only [pure_bind]
        exact ih { e with cursor := some cursor }

theorem pullRemoteDiffPages_eq_loop (fuel : Nat) (e : Enumeration) :
    pullRemoteDiffPages env target fuel e.cursor e.alreadyReset e.cidsOnly e.knownCids =
      loop .outOfFuel (pullDiffRound env target) fuel e := by
  induction fuel generalizing e with
  | zero => rfl
  | succ fuel ih =>
    rw [loop, pullRemoteDiffPages, pullDiffRound, bind_assoc]
    refine bind_congr fun aborts => ?_
    split
    · rw [pure_bind]
    rw [bind_assoc]
    refine bind_congr fun reply => ?_
    rw [bind_assoc]
    refine bind_congr fun reset => ?_
    split
    · rw [pure_bind]
      exact ih { e with cursor := none, alreadyReset := true }
    rw [bind_assoc]
    refine bind_congr fun _ => ?_
    dsimp only
    split
    · rw [pure_bind]
      exact ih { e with cidsOnly := false }
    rw [bind_assoc]
    refine bind_congr fun out => ?_
    match out with
    | (.result result, _) => simp only [pure_bind]
    | (.nextCursor cursor, knownCids) =>
      simp only [pure_bind]
      exact ih { e with cursor := some cursor, knownCids, cidsOnly := _ }

theorem pushLocalDiffPages_eq_loop (fuel : Nat) (e : Enumeration) :
    pushLocalDiffPages env dependencies target fuel e.cursor e.alreadyReset e.knownCids =
      loop .outOfFuel (pushDiffRound env dependencies target) fuel e := by
  induction fuel generalizing e with
  | zero => rfl
  | succ fuel ih =>
    rw [loop, pushLocalDiffPages, pushDiffRound, bind_assoc]
    refine bind_congr fun aborts => ?_
    split
    · rw [pure_bind]
    rw [bind_assoc]
    refine bind_congr fun reply => ?_
    rw [bind_assoc]
    refine bind_congr fun reset => ?_
    split
    · rw [pure_bind]
      exact ih { e with cursor := none, alreadyReset := true }
    rw [bind_assoc]
    refine bind_congr fun _ => ?_
    rw [bind_assoc]
    refine bind_congr fun out => ?_
    match out with
    | (.result result, _) => simp only [pure_bind]
    | (.nextCursor cursor, knownCids) =>
      simp only [pure_bind]
      exact ih { e with cursor := some cursor, knownCids }

theorem pushLocalPagesFrom_eq_loop (forceQuotaProbe : Bool) (diffFuel fuel : Nat)
    (e : Enumeration) :
    pushLocalPagesFrom env dependencies target forceQuotaProbe diffFuel fuel e.cursor =
      loop .outOfFuel (pushRound env dependencies target forceQuotaProbe diffFuel) fuel e := by
  induction fuel generalizing e with
  | zero => rfl
  | succ fuel ih =>
    rw [loop, pushLocalPagesFrom, pushRound, bind_assoc]
    refine bind_congr fun aborts => ?_
    split
    · rw [pure_bind]
    rw [bind_assoc]
    refine bind_congr fun reply => ?_
    rw [bind_assoc]
    refine bind_congr fun reset => ?_
    split
    · simp only [bind_assoc, pure_bind, bind_pure]
    rw [bind_assoc]
    refine bind_congr fun _ => ?_
    rw [bind_assoc]
    refine bind_congr fun out => ?_
    match out with
    | (.result result, _) => simp only [pure_bind]
    | (.nextCursor cursor, _) =>
      simp only [pure_bind]
      exact ih { e with cursor := some cursor }

end Loops

/-! ## Runs -/

/-- Whatever is answered, the rounds of the pages go on within one stream and epoch. A loop starts
over at most once, after a gap; and the difference reads a page again from its cursor, at most once,
for the messages of it. -/
theorem pageLoops_progress (env : FeedEnvironment) (dependencies : Dependencies String)
    (target : SyncTarget) (forceQuotaProbe : Bool) (knownCids : List String) (diffFuel fuel : Nat)
    (w : FeedWorld) :
    (pullRemotePagesFrom env target diffFuel fuel w.state.link.pull.contiguousAppliedToken false =
        loop .outOfFuel (pullRound env target diffFuel) fuel
          { cursor := w.state.link.pull.contiguousAppliedToken } ∧
      Enumeration.Progresses (fun e e' => e.Advances e' ∨ e.Restarts e') false
        (visits (pullRound env target diffFuel) fuel
          { cursor := w.state.link.pull.contiguousAppliedToken } w)) ∧
    (pullRemoteDiffPages env target fuel none false true knownCids =
        loop .outOfFuel (pullDiffRound env target) fuel { cidsOnly := true, knownCids } ∧
      Enumeration.Progresses (fun e e' => e.Advances e' ∨ e.Restarts e' ∨ e.Rereads e') true
        (visits (pullDiffRound env target) fuel { cidsOnly := true, knownCids } w)) ∧
    (pushLocalPagesFrom env dependencies target forceQuotaProbe diffFuel fuel
          w.state.link.push.contiguousAppliedToken =
        loop .outOfFuel (pushRound env dependencies target forceQuotaProbe diffFuel) fuel
          { cursor := w.state.link.push.contiguousAppliedToken } ∧
      Enumeration.Progresses Enumeration.Advances false
        (visits (pushRound env dependencies target forceQuotaProbe diffFuel) fuel
          { cursor := w.state.link.push.contiguousAppliedToken } w)) ∧
    (pushLocalDiffPages env dependencies target fuel none false knownCids =
        loop .outOfFuel (pushDiffRound env dependencies target) fuel { knownCids } ∧
      Enumeration.Progresses (fun e e' => e.Advances e' ∨ e.Restarts e') false
        (visits (pushDiffRound env dependencies target) fuel { knownCids } w)) := by
  have hlater : ∀ e e' : Enumeration, e.Advances e' ∨ e.Restarts e' → e.Later false e' := by
    rintro e e' (h | h)
    · exact .further h
    · exact .restarted h.before h.after
  refine ⟨⟨pullRemotePagesFrom_eq_loop diffFuel fuel { cursor := _ }, ?_⟩,
    ⟨pullRemoteDiffPages_eq_loop fuel { cidsOnly := true, knownCids }, ?_⟩,
    ⟨pushLocalPagesFrom_eq_loop forceQuotaProbe diffFuel fuel { cursor := _ }, ?_⟩,
    ⟨pushLocalDiffPages_eq_loop fuel { knownCids }, ?_⟩⟩
  · refine Enumeration.progresses_of_isChain hlater ?_
    exact isChain_visits (fun _ _ => wp_pullRound diffFuel) fuel _ w (.of_link w)
  · refine Enumeration.progresses_of_isChain ?_
      (isChain_visits (fun _ _ => wp_pullDiffRound) fuel _ w .none)
    rintro e e' (h | h | h)
    · exact .further h
    · exact .restarted h.before h.after
    · exact .reread rfl h
  · refine Enumeration.progresses_of_isChain (fun _ _ => .further) ?_
    exact isChain_visits (fun _ _ => wp_pushRound forceQuotaProbe diffFuel) fuel _ w (.of_link w)
  · refine Enumeration.progresses_of_isChain hlater ?_
    exact isChain_visits (fun _ _ => wp_pushDiffRound) fuel _ w .none

/-- A remote with two messages that are not here. -/
def twoMissingEnvironment : FeedEnvironment := fun _ op =>
  match op with
  | .shouldContinue => .ok true
  | .queryFeed _ =>
    .ok { status := { code := 200, detail := "OK" }
          entries := some [{ seq := some "1", messageCid := some "bi", isLatestBaseState := some true },
            { seq := some "2", messageCid := some "la", isLatestBaseState := some true }]
          cursor := some { streamId := "r", epoch := "1", position := "2" }
          drained := some true }
  | _ => .error .outOfFuel

/-- The difference reads the first page of its remote twice from the same cursor. -/
theorem pullDiff_uses_cursor_again :
    ¬ ∀ (env : FeedEnvironment) (target : SyncTarget) (knownCids : List String) (fuel : Nat)
      (w : FeedWorld), (visits (pullDiffRound env target) fuel { cidsOnly := true, knownCids } w).IsChain
        Enumeration.Advances := by
  intro h
  have hchain := h twoMissingEnvironment ownTarget [] 2
    { turn := 0, state := { link := newLink, links := newLinks, calls := [] }, trace := [] }
  have hvisits : visits (pullDiffRound twoMissingEnvironment ownTarget) 2
      { cidsOnly := true, knownCids := [] }
      { turn := 0, state := { link := newLink, links := newLinks, calls := [] }, trace := [] } =
      [{ cidsOnly := true }, { cidsOnly := false }] := by decide
  rw [hvisits, List.isChain_cons] at hchain
  obtain ⟨next, hnext, -⟩ := (hchain.1 { cidsOnly := false } rfl).cursor
  cases hnext

end SyncDurableFeedReconciler

end EnboxDwn.Agent
