import EnboxDwn.DurableFeedCheckpoints

/-! Cycles of a link, one after another, with copies of any age and feeds that go on. The four page
loops start from a safe cursor or from the beginning, so every checkpoint that is ever stored is
safe; and a checkpoint goes back only by a reset. -/
namespace EnboxDwn.Agent.SyncDurableFeedReconciler

open Interaction SyncReplicationLinkStore

section Loops
variable {env : FeedEnvironment} {feeds : Feeds} {key : String} {target : SyncTarget}
  {dependencies : Dependencies String} {w w₁ : FeedWorld} {direction : SyncDirection} {α : Type}

/-- The program keeps the tokens safe, whether it returns or throws. -/
def Sound (feeds : Feeds) (key : String) (x : FeedProgram α) (w : FeedWorld) : Prop :=
  wp x w (fun _ w' => Reaches feeds key w w') (Reaches feeds key w)

theorem Sound.after {x : FeedProgram α} (h : Sound feeds key x w₁)
    (hreaches : Reaches feeds key w w₁) :
    wp x w₁ (fun _ w' => Reaches feeds key w w') (Reaches feeds key w) :=
  wp_mono h (fun _ _ h' => hreaches.trans h') fun _ h' => hreaches.trans h'

theorem assertQuerySucceeded_eq_ok {reply : MessagesQueryReply}
    (h : assertQuerySucceeded reply target direction = .ok ()) : reply.status.code = 200 := by
  unfold assertQuerySucceeded at h
  split at h
  · cases h
  · next hcode => exact not_not.mp hcode

theorem wp_resetAfterProgressGap {reply : MessagesQueryReply} {alreadyReset : Bool}
    (hsafe : Safe feeds key w) :
    wp (resetAfterProgressGap env reply direction alreadyReset) w
      (fun reset w' => Reaches feeds key w w' ∧ (reset = false → w' = w)) (Reaches feeds key w) := by
  unfold resetAfterProgressGap
  split
  · exact wp_pure ⟨.refl hsafe, fun _ => rfl⟩
  · exact wp_bind (wp_mono (wp_resetCheckpoint hsafe direction)
      (fun _ w' h => wp_pure ⟨h, by simp⟩) fun _ h => h)

theorem wp_resetInvalidCheckpoint (hsafe : Safe feeds key w) :
    Sound feeds key (resetInvalidCheckpoint env direction) w := by
  refine wp_bind (wp_bind (wp_getState (wp_pure ?_)))
  split
  · exact wp_pure (.refl hsafe)
  · split
    · exact wp_pure (.refl hsafe)
    · exact wp_resetCheckpoint hsafe direction

/-- Every address of an inventory was listed in this turn. -/
theorem wp_collectFeedCids (source : FeedSource) (fuel : Nat) (cursor : Option ProgressToken)
    (cids : List String) (hcids : ∀ cid ∈ cids, Inventoried source w.turn w.trace cid) :
    wp (collectFeedCids env target source fuel cursor cids) w
      (fun out w' => w.Extends w' ∧ ∀ cids', out = some cids' →
        ∀ cid ∈ cids', Inventoried source w'.turn w'.trace cid) w.Extends := by
  induction fuel generalizing w cursor cids with
  | zero => exact wp_throw (.refl w)
  | succ fuel ih =>
    unfold collectFeedCids
    refine wp_bind (wp_shouldAbort (fun b w₁ hext₁ => ?_) fun w' h => h)
    split
    · exact wp_pure ⟨hext₁, by simp⟩
    refine wp_bind (wp_ask_extends (fun reply w₂ hext₂ hmem => ?_) fun w' h => hext₁.trans h)
    have hext : w.Extends w₂ := hext₁.trans hext₂
    refine wp_bind (wp_liftThrown (fun _ _ => ?_) hext)
    have hcids₂ : ∀ cid ∈ cids ++ (reply.entries.getD []).map (·.cid),
        Inventoried source w₂.turn w₂.trace cid := by
      intro cid hcid
      rw [hext.turn]
      obtain hold | hnew := List.mem_append.mp hcid
      · exact (hcids cid hold).mono hext.trace
      · exact ⟨_, hmem, hext₁.turn, by simpa [listed] using hnew⟩
    refine wp_bind (wp_liftThrown (fun advance _ => ?_) hext)
    match advance with
    | .drained =>
      refine wp_pure ⟨hext, fun cids' heq => ?_⟩
      cases heq
      exact hcids₂
    | .advanced next =>
      exact wp_mono (ih (some next) _ hcids₂) (fun _ w' h => ⟨hext.trans h.1, h.2⟩)
        fun w' h => hext.trans h

/-- A round of a page loop up to the page: nothing else than an abort, a gap that is answered by a
reset, or a page that was queried from the cursor. -/
theorem wp_page {query : SyncDurableFeedQuery} {alreadyReset : Bool}
    {gap : FeedProgram α} {page : MessagesQueryReply → FeedProgram α} {aborted : α}
    (hsafe : Safe feeds key w) (hanswers : Answers env feeds)
    (hsource : query.source = feedOf direction)
    (hcursor : ∀ token ∈ query.cursor, SafeToken feeds direction w.trace token)
    (hgap : ∀ w₁, Reaches feeds key w w₁ → Sound feeds key gap w₁)
    (hpage : ∀ reply t w₁, Reaches feeds key w w₁ →
      Queried env feeds direction query.cursor reply t → t <+: w₁.trace →
      Sound feeds key (page reply) w₁) :
    Sound feeds key (do
      if ← shouldAbort env then return aborted
      else do
        let reply ← ask env (.queryFeed query)
        if ← resetAfterProgressGap env reply direction alreadyReset then gap
        else do
          liftThrown (assertQuerySucceeded reply target direction)
          page reply) w := by
  refine wp_bind (wp_shouldAbort (fun b w₁ hext₁ => ?_) fun w' h => .of_extends hsafe h)
  have hreaches₁ : Reaches feeds key w w₁ := .of_extends hsafe hext₁
  split
  · exact wp_pure hreaches₁
  refine wp_bind (wp_ask (fun reply hreply => ?_) fun e _ =>
    hreaches₁.trans (.of_extends hreaches₁.safe (w₁.extends_log _ _)))
  set w₂ := w₁.log (.queryFeed query) (.ok reply)
  have hext₂ : w₁.Extends w₂ := w₁.extends_log _ _
  have hreaches₂ : Reaches feeds key w w₂ := hreaches₁.trans (.of_extends hreaches₁.safe hext₂)
  refine wp_bind (wp_mono (wp_resetAfterProgressGap hreaches₂.safe) (fun reset w₃ h₃ => ?_)
    fun w' h => hreaches₂.trans h)
  have hreaches₃ := hreaches₂.trans h₃.1
  split
  · exact (hgap w₃ hreaches₃).after hreaches₃
  · refine wp_bind (wp_liftThrown (fun _ hok => ?_) hreaches₃)
    have hqueried : Queried env feeds direction query.cursor reply w₁.trace :=
      ⟨hsource ▸ hanswers.lists w₁.trace query reply hreply (assertQuerySucceeded_eq_ok hok),
        fun token htoken => (hcursor token htoken).mono hreaches₁.trace⟩
    exact (hpage reply w₁.trace w₃ hreaches₃ hqueried (hext₂.trace.trans h₃.1.trace)).after hreaches₃

theorem sound_pullRemoteDiffPages (hanswers : Answers env feeds) (fuel : Nat)
    (cursor : Option ProgressToken) (alreadyReset cidsOnly : Bool) (localCids : List String)
    (hsafe : Safe feeds key w)
    (hcursor : ∀ token ∈ cursor, SafeToken feeds .pull w.trace token)
    (hknown : ∀ cid ∈ localCids, Ready .pull w cid) :
    Sound feeds key (pullRemoteDiffPages env target fuel cursor alreadyReset cidsOnly localCids) w := by
  induction fuel generalizing w cursor alreadyReset cidsOnly localCids with
  | zero => exact wp_throw (.refl hsafe)
  | succ fuel ih =>
    unfold pullRemoteDiffPages
    refine wp_page hsafe hanswers rfl hcursor (fun w₁ h₁ => ?_) fun reply t w₁ h₁ hqueried htrace => ?_
    · exact ih none true cidsOnly localCids h₁.safe (by simp)
        fun cid hcid => (hknown cid hcid).mono h₁.turn h₁.trace
    · have hknown₁ : ∀ cid ∈ localCids, Ready .pull w₁ cid :=
        fun cid hcid => (hknown cid hcid).mono h₁.turn h₁.trace
      dsimp only
      split
      · exact ih cursor alreadyReset false localCids h₁.safe
          (fun token htoken => (hcursor token htoken).mono h₁.trace) hknown₁
      · refine wp_bind (wp_mono (wp_processPullPage target localCids h₁.safe hanswers hqueried htrace hknown₁)
          (fun out w₂ h₂ => ?_) fun w' h => h)
        match out with
        | (.result result, _) => exact wp_pure h₂.1
        | (.nextCursor next, localCids') =>
          obtain ⟨hnext, hknown₂⟩ := h₂.2 next rfl
          refine Sound.after (ih (some next) alreadyReset _ localCids' h₂.1.safe ?_ hknown₂) h₂.1
          intro token htoken
          cases htoken
          exact hnext

theorem sound_pullRemoteOwnerDiffWhenUseful (hanswers : Answers env feeds) (fuel : Nat)
    (hsafe : Safe feeds key w) :
    Sound feeds key (pullRemoteOwnerDiffWhenUseful env target fuel) w := by
  unfold pullRemoteOwnerDiffWhenUseful
  split
  · exact wp_pure (.refl hsafe)
  refine wp_bind (wp_mono (wp_collectFeedCids .localFeed fuel none [] (by simp))
    (fun out w₁ h₁ => ?_) fun w' h => .of_extends hsafe h)
  have hreaches : Reaches feeds key w w₁ := .of_extends hsafe h₁.1
  match out with
  | none => exact wp_pure hreaches
  | some localCids =>
    dsimp only
    split
    · exact wp_pure hreaches
    · refine wp_bind (wp_mono (sound_pullRemoteDiffPages hanswers fuel none false true localCids
        hreaches.safe (by simp) fun cid hcid => Or.inr (h₁.2 localCids rfl cid hcid))
        (fun _ w' h => wp_pure (hreaches.trans h)) fun w' h => hreaches.trans h)

theorem sound_pullRemotePagesFrom (hanswers : Answers env feeds) (diffFuel fuel : Nat)
    (cursor : Option ProgressToken) (alreadyReset : Bool) (hsafe : Safe feeds key w)
    (hcursor : ∀ token ∈ cursor, SafeToken feeds .pull w.trace token) :
    Sound feeds key (pullRemotePagesFrom env target diffFuel fuel cursor alreadyReset) w := by
  induction fuel generalizing w cursor alreadyReset with
  | zero => exact wp_throw (.refl hsafe)
  | succ fuel ih =>
    unfold pullRemotePagesFrom
    refine wp_page hsafe hanswers rfl hcursor (fun w₁ h₁ => ?_) fun reply t w₁ h₁ hqueried htrace => ?_
    · refine wp_bind (wp_mono (sound_pullRemoteOwnerDiffWhenUseful hanswers diffFuel h₁.safe)
        (fun out w₂ h₂ => ?_) fun w' h => h)
      match out with
      | some result => exact wp_pure h₂
      | none => exact (ih none true h₂.safe (by simp)).after h₂
    · have hprocess := wp_processPullPage target [] h₁.safe hanswers hqueried htrace (by simp)
      rw [entriesMissingFrom_nil] at hprocess
      refine wp_bind (wp_mono hprocess (fun out w₂ h₂ => ?_) fun w' h => h)
      match out with
      | (.result result, _) => exact wp_pure h₂.1
      | (.nextCursor next, _) =>
        refine (ih (some next) alreadyReset h₂.1.safe ?_).after h₂.1
        intro token htoken
        cases htoken
        exact (h₂.2 next rfl).1

theorem sound_pullRemotePages (hanswers : Answers env feeds) (fuel : Nat) (hsafe : Safe feeds key w) :
    Sound feeds key (pullRemotePages env target fuel) w := by
  -- the pages after the difference, if it was of no use
  have hpages : ∀ w₁, Reaches feeds key w w₁ → wp (do
        pullRemotePagesFrom env target fuel fuel (← getLink).pull.contiguousAppliedToken false) w₁
      (fun _ w' => Reaches feeds key w w') (Reaches feeds key w) := by
    intro w₁ h₁
    refine wp_bind (wp_bind (wp_getState (wp_pure ?_)))
    exact (sound_pullRemotePagesFrom hanswers fuel fuel _ false h₁.safe (h₁.safe.copy .pull)).after h₁
  refine wp_bind (wp_bind (wp_getState (wp_pure ?_)))
  split
  · refine wp_bind (wp_mono (sound_pullRemoteOwnerDiffWhenUseful hanswers fuel hsafe)
      (fun out w₁ h₁ => ?_) fun w' h => h)
    cases out with
    | some result => exact wp_pure h₁
    | none => exact hpages w₁ h₁
  · exact wp_bind (wp_pure (hpages w (.refl hsafe)))

theorem sound_pushLocalDiffPages (hanswers : Answers env feeds) (fuel : Nat)
    (cursor : Option ProgressToken) (alreadyReset : Bool) (remoteCids : List String)
    (hsafe : Safe feeds key w)
    (hcursor : ∀ token ∈ cursor, SafeToken feeds .push w.trace token)
    (hknown : ∀ cid ∈ remoteCids, Ready .push w cid) :
    Sound feeds key
      (pushLocalDiffPages env dependencies target fuel cursor alreadyReset remoteCids) w := by
  induction fuel generalizing w cursor alreadyReset remoteCids with
  | zero => exact wp_throw (.refl hsafe)
  | succ fuel ih =>
    unfold pushLocalDiffPages queryLocalPage
    refine wp_page hsafe hanswers rfl hcursor (fun w₁ h₁ => ?_) fun reply t w₁ h₁ hqueried htrace => ?_
    · exact ih none true remoteCids h₁.safe (by simp)
        fun cid hcid => (hknown cid hcid).mono h₁.turn h₁.trace
    · refine wp_bind (wp_mono (wp_processPushPage dependencies target remoteCids h₁.safe hanswers
        hqueried htrace fun cid hcid => (hknown cid hcid).mono h₁.turn h₁.trace)
        (fun out w₂ h₂ => ?_) fun w' h => h)
      match out with
      | (.result result, _) => exact wp_pure h₂.1
      | (.nextCursor next, remoteCids') =>
        obtain ⟨hnext, hknown₂⟩ := h₂.2 next rfl
        refine Sound.after (ih (some next) alreadyReset remoteCids' h₂.1.safe ?_ hknown₂) h₂.1
        intro token htoken
        cases htoken
        exact hnext

theorem sound_pushLocalDiffWithRemoteInventory (hanswers : Answers env feeds) (fuel : Nat)
    (forceQuotaProbe : Bool) (hsafe : Safe feeds key w) :
    Sound feeds key
      (pushLocalDiffWithRemoteInventory env dependencies target fuel forceQuotaProbe) w := by
  unfold pushLocalDiffWithRemoteInventory
  refine wp_bind (wp_ask_extends (fun bootstrap w₁ hext₁ _ => ?_) fun w' h => .of_extends hsafe h)
  have hreaches₁ : Reaches feeds key w w₁ := .of_extends hsafe hext₁
  cases bootstrap with
  | aborted => exact wp_pure hreaches₁
  | processed failures quotaBlocked =>
    dsimp only
    split
    · exact wp_pure hreaches₁
    split
    · exact wp_pure hreaches₁
    refine wp_bind (wp_mono (wp_collectFeedCids .remoteFeed fuel none [] (by simp))
      (fun out w₂ h₂ => ?_) fun w' h => hreaches₁.trans (.of_extends hreaches₁.safe h))
    have hreaches₂ : Reaches feeds key w w₂ :=
      hreaches₁.trans (.of_extends hreaches₁.safe h₂.1)
    match out with
    | none => exact wp_pure hreaches₂
    | some remoteCids =>
      refine Sound.after (sound_pushLocalDiffPages hanswers fuel none false remoteCids hreaches₂.safe
        (by simp) ?_) hreaches₂
      exact fun cid hcid => Or.inr (h₂.2 remoteCids rfl cid hcid)

theorem sound_pushLocalPagesFrom (hanswers : Answers env feeds) (forceQuotaProbe : Bool)
    (diffFuel fuel : Nat) (cursor : Option ProgressToken) (hsafe : Safe feeds key w)
    (hcursor : ∀ token ∈ cursor, SafeToken feeds .push w.trace token) :
    Sound feeds key
      (pushLocalPagesFrom env dependencies target forceQuotaProbe diffFuel fuel cursor) w := by
  induction fuel generalizing w cursor with
  | zero => exact wp_throw (.refl hsafe)
  | succ fuel ih =>
    unfold pushLocalPagesFrom queryLocalPage
    refine wp_page hsafe hanswers rfl hcursor (fun w₁ h₁ => ?_) fun reply t w₁ h₁ hqueried htrace => ?_
    · exact sound_pushLocalDiffWithRemoteInventory hanswers diffFuel forceQuotaProbe h₁.safe
    · have hprocess := wp_processPushPage dependencies target [] h₁.safe hanswers hqueried htrace
        (by simp)
      rw [entriesMissingFrom_nil] at hprocess
      refine wp_bind (wp_mono hprocess (fun out w₂ h₂ => ?_) fun w' h => h)
      match out with
      | (.result result, _) => exact wp_pure h₂.1
      | (.nextCursor next, _) =>
        refine (ih (some next) h₂.1.safe ?_).after h₂.1
        intro token htoken
        cases htoken
        exact (h₂.2 next rfl).1

theorem sound_pushLocalPages (hanswers : Answers env feeds) (fuel : Nat) (forceQuotaProbe : Bool)
    (hsafe : Safe feeds key w) :
    Sound feeds key (pushLocalPages env dependencies target fuel forceQuotaProbe) w := by
  refine wp_bind (wp_bind (wp_getState (wp_pure ?_)))
  split
  · exact sound_pushLocalDiffWithRemoteInventory hanswers fuel forceQuotaProbe hsafe
  · next token htoken =>
    refine sound_pushLocalPagesFrom hanswers forceQuotaProbe fuel fuel (some token) hsafe ?_
    intro token' htoken'
    cases htoken'
    exact hsafe.copy .push token htoken

/-! ## Cycles -/

theorem sound_pull (hanswers : Answers env feeds) (options : Options) (fuel : Nat)
    (hsafe : Safe feeds key w) : Sound feeds key (pull env target options fuel) w := by
  unfold pull
  split
  · exact wp_pure (.refl hsafe)
  refine wp_bind (wp_shouldAbort (fun b w₁ hext => ?_) fun w' h => .of_extends hsafe h)
  have hreaches : Reaches feeds key w w₁ := .of_extends hsafe hext
  split
  · exact wp_pure hreaches
  refine wp_bind (wp_mono (wp_resetInvalidCheckpoint hreaches.safe) (fun _ w₂ h₂ => ?_)
    fun w' h => hreaches.trans h)
  exact (sound_pullRemotePages hanswers fuel h₂.safe).after (hreaches.trans h₂)

theorem sound_push (hanswers : Answers env feeds) (options : Options) (fuel : Nat)
    (hsafe : Safe feeds key w) : Sound feeds key (push env dependencies target options fuel) w := by
  unfold push
  split
  · exact wp_pure (.refl hsafe)
  refine wp_bind (wp_shouldAbort (fun b w₁ hext => ?_) fun w' h => .of_extends hsafe h)
  have hreaches₁ : Reaches feeds key w w₁ := .of_extends hsafe hext
  split
  · exact wp_pure hreaches₁
  refine wp_bind (wp_mono (wp_resetInvalidCheckpoint hreaches₁.safe) (fun _ w₂ h₂ => ?_)
    fun w' h => hreaches₁.trans h)
  have hreaches₂ := hreaches₁.trans h₂
  -- the pages, and the probes of what is blocked, after the blocks to probe were read
  have hpages : ∀ w₃, Reaches feeds key w w₃ → ∀ forceProbeCids : Option (List String), wp (do
      let result ← pushLocalPages env dependencies target fuel options.forceQuotaProbe
      if !result.aborted && !result.quotaBlocked && result.pushFailures.getD [] = [] then
        ask env (.probeQuotaBlocks options.forceQuotaProbe forceProbeCids)
      return result) w₃ (fun _ w' => Reaches feeds key w w') (Reaches feeds key w) := by
    intro w₃ h₃ forceProbeCids
    refine wp_bind (wp_mono (sound_pushLocalPages hanswers fuel options.forceQuotaProbe h₃.safe)
      (fun result w₄ h₄ => ?_) fun w' h => h₃.trans h)
    have h₄ := h₃.trans h₄
    split
    · exact wp_bind (wp_ask_extends (fun _ w' h _ => wp_pure (h₄.trans (.of_extends h₄.safe h)))
        fun w' h => h₄.trans (.of_extends h₄.safe h))
    · exact wp_pure h₄
  split
  · refine wp_bind (wp_bind (wp_ask_extends (fun cids w₃ h _ => wp_pure ?_) fun w' h =>
      hreaches₂.trans (.of_extends hreaches₂.safe h)))
    exact hpages w₃ (hreaches₂.trans (.of_extends hreaches₂.safe h)) (some cids)
  · exact wp_bind (wp_pure (hpages w₂ hreaches₂ none))

theorem sound_verifyConvergence (hsafe : Safe feeds key w) :
    Sound feeds key (verifyConvergence env target) w := by
  refine wp_mono (?_ : wp _ w (fun _ w' => w.Extends w') w.Extends)
    (fun _ w' h => .of_extends hsafe h) fun w' h => .of_extends hsafe h
  unfold verifyConvergence
  refine wp_bind (wp_shouldAbort (fun b w₁ h₁ => ?_) fun w' h => h)
  split
  · exact wp_pure h₁
  refine wp_bind (wp_ask_extends (fun localReply w₂ h₂ _ => ?_) fun w' h => h₁.trans h)
  have h₂ := h₁.trans h₂
  refine wp_bind (wp_ask_extends (fun remoteReply w₃ h₃ _ => ?_) fun w' h => h₂.trans h)
  have h₃ := h₂.trans h₃
  refine wp_bind (wp_shouldAbort (fun b w₄ h₄ => ?_) fun w' h => h₃.trans h)
  have h₄ := h₃.trans h₄
  split
  · exact wp_pure h₄
  refine wp_bind (wp_liftThrown (fun _ _ => wp_bind (wp_liftThrown (fun _ _ => ?_) h₄)) h₄)
  dsimp only
  split
  · exact wp_bind (wp_ask_extends (fun _ w' h _ => wp_pure (h₄.trans h)) fun w' h => h₄.trans h)
  · exact wp_pure h₄

theorem sound_reconcile (dependencies : Dependencies String) (target : SyncTarget)
    (hanswers : Answers env feeds) (options : Options) (fuel : Nat) (hsafe : Safe feeds key w) :
    Sound feeds key (reconcile env dependencies target options fuel) w := by
  unfold reconcile
  refine wp_bind (wp_shouldAbort (fun b w₁ hext => ?_) fun w' h => .of_extends hsafe h)
  have h₁ : Reaches feeds key w w₁ := .of_extends hsafe hext
  split
  · exact wp_pure h₁
  refine wp_bind (wp_bind (wp_getState (wp_pure ?_)))
  split
  · exact wp_pure h₁
  refine wp_bind (wp_mono (sound_pull hanswers options fuel h₁.safe) (fun pullResult w₂ h₂ => ?_)
    fun w' h => h₁.trans h)
  have h₂ := h₁.trans h₂
  dsimp only
  split
  · exact wp_pure h₂
  refine wp_bind (wp_shouldAbort (fun b w₃ hext => ?_) fun w' h => h₂.trans (.of_extends h₂.safe h))
  have h₃ := h₂.trans (.of_extends h₂.safe hext)
  split
  · exact wp_pure h₃
  refine wp_bind (wp_mono (sound_push hanswers options fuel h₃.safe) (fun pushResult w₄ h₄ => ?_)
    fun w' h => h₃.trans h)
  have h₄ := h₃.trans h₄
  split
  · exact wp_pure h₄
  refine wp_bind (wp_shouldAbort (fun b w₅ hext => ?_) fun w' h => h₄.trans (.of_extends h₄.safe h))
  have h₅ := h₄.trans (.of_extends h₄.safe hext)
  split
  · exact wp_pure h₅
  split
  · exact wp_pure h₅
  split
  · exact wp_bind (wp_mono (sound_verifyConvergence h₅.safe) (fun _ w' h => wp_pure (h₅.trans h))
      fun w' h => h₅.trans h)
  · exact wp_pure h₅

end Loops

/-! ## Runs -/

section Runs
variable {env : FeedEnvironment} {feeds : Feeds} {key : String} {target : SyncTarget}
  {dependencies : Dependencies String} {start : Links} {r r' : LinkRun}

/-- Every copy and the stored link have safe tokens. -/
structure RunSafe (feeds : Feeds) (key : String) (start : Links) (r : LinkRun) : Prop where
  copies : ∀ holder direction, ∀ token ∈ ((r.copies holder).checkpoint direction).contiguousAppliedToken,
    SafeToken feeds direction r.trace token
  stored : ∀ row, r.links key = some row → ∀ direction,
    ∀ token ∈ (row.checkpoint direction).contiguousAppliedToken, SafeToken feeds direction r.trace token
  history : r.links = SyncReplicationLinkStore.run start r.calls

theorem RunSafe.hold (h : RunSafe feeds key start r) {holder : Nat} {link : ReplicationLinkState}
    (hlink : ∀ direction, ∀ token ∈ (link.checkpoint direction).contiguousAppliedToken,
      SafeToken feeds direction r.trace token) : RunSafe feeds key start (r.hold holder link) := by
  refine ⟨fun i direction token htoken => ?_, h.stored, h.history⟩
  change token ∈ ((Function.update r.copies holder link i).checkpoint
    direction).contiguousAppliedToken at htoken
  by_cases hi : i = holder
  · subst hi
    rw [Function.update_self] at htoken
    exact hlink direction token htoken
  · rw [Function.update_of_ne hi] at htoken
    exact h.copies i direction token htoken

theorem RunSafe.call (h : RunSafe feeds key start r) {call : Call} (hcall : BringsNoToken call)
    (hcarried : ∀ direction, ∀ token ∈ call.carried direction,
      SafeToken feeds direction r.trace token) : RunSafe feeds key start (r.call call) := by
  refine ⟨h.copies, fun row hrow direction token htoken => ?_, ?_⟩
  · change SyncReplicationLinkStore.step r.links call key = some row at hrow
    cases happly : call.apply r.links with
    | error e =>
      rw [SyncReplicationLinkStore.step, happly] at hrow
      exact h.stored row hrow direction token htoken
    | ok links =>
      rw [SyncReplicationLinkStore.step, happly] at hrow
      obtain ⟨row₀, hrow₀, htoken₀⟩ | hnew := stored_apply hcall happly hrow htoken
      · exact h.stored row₀ hrow₀ direction token htoken₀
      · exact hcarried direction token hnew
  · change SyncReplicationLinkStore.step r.links call =
      SyncReplicationLinkStore.run start (r.calls ++ [call])
    rw [h.history, SyncReplicationLinkStore.run, SyncReplicationLinkStore.run, List.foldl_append]
    rfl

theorem RunSafe.resume (h : RunSafe feeds key start r) {holder : Nat} {w : FeedWorld}
    (hreaches : Reaches feeds key (r.world holder) w) :
    RunSafe feeds key start (r.resume holder w) := by
  refine ⟨fun i direction token htoken => ?_, hreaches.safe.stored, ?_⟩
  · change token ∈ ((Function.update r.copies holder w.state.link i).checkpoint
      direction).contiguousAppliedToken at htoken
    by_cases hi : i = holder
    · subst hi
      rw [Function.update_self] at htoken
      exact hreaches.safe.copy direction token htoken
    · rw [Function.update_of_ne hi] at htoken
      exact (h.copies i direction token htoken).mono hreaches.trace
  · obtain ⟨calls, hcalls, hlinks⟩ := hreaches.history
    change w.state.links = SyncReplicationLinkStore.run start w.state.calls
    rw [hlinks, hcalls, SyncReplicationLinkStore.run, SyncReplicationLinkStore.run,
      List.foldl_append]
    exact congrArg (fun links => calls.foldl SyncReplicationLinkStore.step links) h.history

theorem runSafe_step (hanswers : Answers env feeds) (h : RunSafe feeds key start r)
    (action : LinkAction) :
    RunSafe feeds key start (step env dependencies target key r action) := by
  cases action with
  | load holder status connectivity =>
    unfold step
    dsimp only
    split
    · exact h
    · next row hrow =>
      refine h.hold fun direction token htoken => h.stored row hrow direction token ?_
      cases direction <;> exact htoken
  | reconcile holder options fuel =>
    have hsafe : Safe feeds key (r.world holder) := ⟨h.copies holder, h.stored⟩
    obtain ⟨_, _, hreaches⟩ | ⟨_, hreaches⟩ :=
      wp_run (sound_reconcile dependencies target hanswers options fuel hsafe)
    · exact h.resume hreaches
    · exact h.resume hreaches
  | resetCheckpoints holder now =>
    refine (h.hold fun direction token htoken => ?_).call trivial fun direction token htoken => ?_
    · cases direction <;> cases htoken
    · cases htoken
  | setStatus holder status now =>
    refine (h.hold fun direction token htoken => ?_).call trivial fun direction token htoken => ?_
    · obtain ⟨-, hpull, hpush, -⟩ := assignStatus_frame status (r.copies holder)
      refine h.copies holder direction token ?_
      cases direction with
      | pull =>
        rw [← show _ = (r.copies holder).checkpoint .pull from hpull]
        exact htoken
      | push =>
        rw [← show _ = (r.copies holder).checkpoint .push from hpush]
        exact htoken
    · cases htoken

theorem runSafe_run (dependencies : Dependencies String) (target : SyncTarget)
    (hanswers : Answers env feeds) (h : RunSafe feeds key start r)
    (actions : List LinkAction) :
    RunSafe feeds key start (run env dependencies target key r actions) := by
  induction actions generalizing r with
  | nil => exact h
  | cons action actions ih => exact ih (runSafe_step hanswers h action)

/-- The store of the links and the copies at the beginning: the link is new. -/
def Fresh (key : String) (copies : Nat → ReplicationLinkState) (links : Links) : Prop :=
  (∀ holder direction, (copies holder).checkpoint direction = {}) ∧
    ∀ row, links key = some row → ∀ direction, row.checkpoint direction = {}

/-- The stored checkpoint of the direction has come as far as the row of its feed. -/
def Covers (feeds : Feeds) (key : String) (r : LinkRun) (direction : SyncDirection)
    (token : ProgressToken) (row : Nat × String) : Prop :=
  (∃ link, r.links key = some link ∧
      token ∈ (link.checkpoint direction).contiguousAppliedToken) ∧
    (feeds (feedOf direction) r.trace).domain = token.domain ∧
    row ∈ (feeds (feedOf direction) r.trace).rows ∧
    ∃ y, bigInt token.position = some y ∧ (row.1 : Int) ≤ y

/-- After every run, whatever was answered and wherever a cycle stopped: what the stored
checkpoints cover was disposed of or in the inventory of the cycle that passed it, and no call of
the store but a reset took a checkpoint back. -/
theorem run_checkpoints_safe (env : FeedEnvironment) (feeds : Feeds)
    (dependencies : Dependencies String) (target : SyncTarget) (key : String)
    (copies : Nat → ReplicationLinkState) (links : Links) (actions : List LinkAction)
    (hanswers : Answers env feeds) (hfresh : Fresh key copies links) :
    (∀ direction token row,
      Covers feeds key (run env dependencies target key { copies, links } actions) direction token row →
      Passed (settling direction) direction
        (run env dependencies target key { copies, links } actions).trace token.domain row) ∧
    (run env dependencies target key { copies, links } actions).links = SyncReplicationLinkStore.run links
      (run env dependencies target key { copies, links } actions).calls ∧
    ∀ before call after direction link link',
      (run env dependencies target key { copies, links } actions).calls = before ++ call :: after →
      SyncReplicationLinkStore.run links before key = some link →
      SyncReplicationLinkStore.run links (before ++ [call]) key = some link' →
      ¬ call.Resets direction →
      Advances (link.checkpoint direction) (link'.checkpoint direction) := by
  have hstart : RunSafe feeds key links { copies, links } := by
    refine ⟨fun holder direction token htoken => ?_, fun row hrow direction token htoken => ?_, rfl⟩
    · rw [hfresh.1 holder direction] at htoken
      cases htoken
    · rw [hfresh.2 row hrow direction] at htoken
      cases htoken
  have hsafe := runSafe_run dependencies target hanswers hstart actions
  refine ⟨?_, hsafe.history, ?_⟩
  · rintro direction token row ⟨⟨link, hlink, htoken⟩, hdomain, hrow, y, hy, hle⟩
    refine (hsafe.stored link hlink direction token htoken).passed hanswers hdomain hrow fun z hz => ?_
    rw [hy, Option.some.injEq] at hz
    omega
  · intro before call after direction link link' _ hlink hlink' hreset
    rw [SyncReplicationLinkStore.run, List.foldl_append] at hlink'
    exact ((kept_step (SyncReplicationLinkStore.run links before) call key).2 link link' hlink
      hlink').advances direction hreset

end Runs

/-! ## A link with one message on each side -/

/-- `la` is here, `bi` is there; `la` may have been given up for this remote. -/
def twoFeeds : Feeds
  | .localFeed, _ => { domain := ("l", "1"), head := 1, rows := [(1, "la")] }
  | .remoteFeed, _ => { domain := ("r", "1"), head := 1, rows := [(1, "bi")] }

def pageOf (streamId cid : String) : MessagesQueryReply where
  status := { code := 200, detail := "OK" }
  entries := some [{ seq := some "1", messageCid := some cid, isLatestBaseState := some true }]
  cursor := some { streamId, epoch := "1", position := "1" }
  drained := some true

def twoFeedsEnvironment (givenUp : Bool) : FeedEnvironment := fun _ op =>
  match op with
  | .shouldContinue => .ok true
  | .queryFeed query =>
    match query.cursor, query.source with
    | none, .localFeed => .ok (pageOf "l" "la")
    | none, .remoteFeed => .ok (pageOf "r" "bi")
    | some _, _ => .ok { status := { code := 410, detail := "Progress Gap" } }
  | .hasDeadLetter cid => .ok (givenUp && cid = "la")
  | .admitRemoteFeedEntry _ => .ok (.admitted ["bi"])
  | .trackRemoteFeedHandledCids _ => .ok ()
  | .getState _ => .ok none
  | .hasRecentlyPulled _ => .ok false
  | .getQuotaBlockedInitialCidsForFeedEntry _ => .ok []
  | .fetchMessageFeedEntry entry => .ok (.fetched [entry.cid])
  | .applyRemoteRoot rootCid => .ok { acknowledged := [rootCid], failure := none }
  | .applyPushAcknowledgements _ => .ok ()
  | .bootstrapRemotePermissionGrants _ => .ok (.processed [] false)
  | .probeQuotaBlocks _ _ => .ok ()
  | .commitCheckpoint _ _ => .ok "t"
  | _ => .error .outOfFuel

theorem lists_pageOf (streamId cid : String) :
    Lists { domain := (streamId, "1"), head := 1, rows := [(1, cid)] } none (pageOf streamId cid) where
  domain := by simp
  ascending := List.pairwise_singleton _ _
  complete := by
    rintro next hnext
    cases hnext
    have hone : "1" = Nat.repr 1 := rfl
    refine ⟨rfl, 1, bigInt_repr 1, le_refl 1, ?_, ?_⟩
    · intro entry hentry
      cases List.mem_singleton.mp hentry
      exact ⟨1, congrArg some hone, le_refl 1⟩
    · intro row hrow _ _
      cases List.mem_singleton.mp hrow
      exact ⟨_, List.mem_singleton.mpr rfl, congrArg some hone, rfl⟩

theorem twoFeeds_answers (givenUp : Bool) : Answers (twoFeedsEnvironment givenUp) twoFeeds where
  appended source t t' _ _ row hrow _ := by cases source <;> exact hrow
  lists := by
    rintro t ⟨cidsOnly, cursor, limit, source⟩ reply hreply hcode
    cases cursor with
    | none =>
      cases source with
      | localFeed =>
        cases hreply
        exact lists_pageOf "l" "la"
      | remoteFeed =>
        cases hreply
        exact lists_pageOf "r" "bi"
    | some token =>
      cases hreply
      cases hcode
  root t entry rootCids h := by
    cases h
    exact List.mem_singleton.mpr rfl

def newLink : ReplicationLinkState where
  tenantDid := "alice"
  remoteEndpoint := "https://dwn"
  projectionId := "p"
  authorizationEpoch := "e"
  status := .initializing
  connectivity := .unknown

def ownTarget : SyncTarget where
  did := "alice"
  dwnUrl := "https://dwn"
  projectionId := "p"
  authorizationEpoch := "e"
  authorization := .owner

def newLinks : Links :=
  Function.update (fun _ => none) (buildKey newLink.toLinkIdentity) (some newLink)

def oneCycle (givenUp : Bool) : LinkRun :=
  run (twoFeedsEnvironment givenUp) (fun _ => []) ownTarget (buildKey newLink.toLinkIdentity)
    { copies := fun _ => newLink, links := newLinks } [.reconcile 0 {} 3]

theorem newLinks_fresh : Fresh (buildKey newLink.toLinkIdentity) (fun _ => newLink) newLinks := by
  refine ⟨fun _ direction => by cases direction <;> rfl, fun row hrow direction => ?_⟩
  rw [newLinks, Function.update_self, Option.some.injEq] at hrow
  subst hrow
  cases direction <;> rfl

/-- Both checkpoints cover the row of their feed; what is here was accepted, what is there was
admitted. -/
theorem run_checkpoints_safe_twoFeeds :
    (Covers twoFeeds (buildKey newLink.toLinkIdentity) (oneCycle false) .push
        { streamId := "l", epoch := "1", position := "1" } (1, "la") ∧
      Covers twoFeeds (buildKey newLink.toLinkIdentity) (oneCycle false) .pull
        { streamId := "r", epoch := "1", position := "1" } (1, "bi")) ∧
    Passed (settling .push) .push (oneCycle false).trace ("l", "1") (1, "la") ∧
    Passed (settling .pull) .pull (oneCycle false).trace ("r", "1") (1, "bi") := by
  have hpush : Covers twoFeeds (buildKey newLink.toLinkIdentity) (oneCycle false) .push
      { streamId := "l", epoch := "1", position := "1" } (1, "la") :=
    ⟨⟨((oneCycle false).links (buildKey newLink.toLinkIdentity)).getD newLink, by decide +kernel,
      by decide +kernel⟩, rfl, List.mem_singleton.mpr rfl, 1, bigInt_repr 1, le_refl 1⟩
  have hpull : Covers twoFeeds (buildKey newLink.toLinkIdentity) (oneCycle false) .pull
      { streamId := "r", epoch := "1", position := "1" } (1, "bi") :=
    ⟨⟨((oneCycle false).links (buildKey newLink.toLinkIdentity)).getD newLink, by decide +kernel,
      by decide +kernel⟩, rfl, List.mem_singleton.mpr rfl, 1, bigInt_repr 1, le_refl 1⟩
  have h := (run_checkpoints_safe (twoFeedsEnvironment false) twoFeeds (fun _ => []) ownTarget
    (buildKey newLink.toLinkIdentity) (fun _ => newLink) newLinks [.reconcile 0 {} 3]
    (twoFeeds_answers false) newLinks_fresh).1
  exact ⟨⟨hpush, hpull⟩, h .push _ _ hpush, h .pull _ _ hpull⟩

/-- Handled by an admission; accepted by the remote, or on record as refused for its quota. -/
def delivering : SyncDirection → List Disposal
  | .pull => [.admitted, .echoed, .rejected]
  | .push => [.accepted, .quotaRecorded]

/-- A message that was given up for the remote is passed by the push. -/
theorem given_up_passed :
    ¬ ∀ (env : FeedEnvironment) (feeds : Feeds) (dependencies : Dependencies String)
      (target : SyncTarget) (key : String) (copies : Nat → ReplicationLinkState) (links : Links)
      (actions : List LinkAction), Answers env feeds → Fresh key copies links →
      ∀ direction token row,
        Covers feeds key (run env dependencies target key { copies, links } actions)
          direction token row →
        Passed (delivering direction) direction
          (run env dependencies target key { copies, links } actions).trace token.domain row := by
  intro h
  have hcovers : Covers twoFeeds (buildKey newLink.toLinkIdentity) (oneCycle true) .push
      { streamId := "l", epoch := "1", position := "1" } (1, "la") :=
    ⟨⟨((oneCycle true).links (buildKey newLink.toLinkIdentity)).getD newLink, by decide +kernel,
      by decide +kernel⟩, rfl, List.mem_singleton.mpr rfl, 1, bigInt_repr 1, le_refl 1⟩
  obtain ⟨before, turn, token, answer, after, htrace, -, -, hready⟩ :=
    h (twoFeedsEnvironment true) twoFeeds (fun _ => []) ownTarget
      (buildKey newLink.toLinkIdentity) (fun _ => newLink) newLinks [.reconcile 0 {} 3]
      (twoFeeds_answers true) newLinks_fresh .push _ _ hcovers
  have hbefore : ∀ event ∈ before, event ∈ (oneCycle true).trace := by
    intro event hevent
    rw [oneCycle, htrace]
    exact List.mem_append_left _ hevent
  obtain ⟨event, hevent, kind, hkind, hmem⟩ | ⟨event, hevent, -, hlisted⟩ := hready
  · have hnone : ∀ event ∈ (oneCycle true).trace, ∀ kind ∈ delivering .push,
        (kind, "la") ∉ disposals event := by decide +kernel
    exact hnone event (hbefore event hevent) kind hkind hmem
  · have hnone : ∀ event ∈ (oneCycle true).trace, "la" ∉ listed .remoteFeed event := by
      decide +kernel
    exact hnone event (hbefore event hevent) hlisted

end EnboxDwn.Agent.SyncDurableFeedReconciler
