import EnboxDwn.DurableFeedPages

/-! What a checkpoint says. A checkpoint of a direction is safe when every row of its feed up to it
was disposed of, or was in the inventory of the other side, before a commit of that checkpoint or of
a later one. Pages commit safe checkpoints only, whatever the answers are. -/
namespace EnboxDwn.Agent.SyncDurableFeedReconciler

open Interaction SyncReplicationLinkStore

/-! ## Checkpoints -/

/-- The call brings no token but the one of a copy. -/
def BringsNoToken : Call → Prop
  | .resetCheckpoint _ _ token _ => token = none
  | _ => True

section Stored
variable {links links' : Links} {key : String} {row' : ReplicationLinkState}
    {direction : SyncDirection} {token : ProgressToken}

theorem checkpoint_of_reset {identity : LinkIdentity}
    {reset : ReplicationLinkState → ReplicationLinkState} {now : Option String}
    (hreset : ∀ row, (reset row).checkpoint direction = ⟨none⟩)
    (h : updateLink identity (fun row => .ok (reset row)) now links = .ok links')
    (hrow' : links' key = some row')
    (htoken : token ∈ (row'.checkpoint direction).contiguousAppliedToken) :
    ∃ row, links key = some row ∧ token ∈ (row.checkpoint direction).contiguousAppliedToken := by
  obtain rfl | ⟨row₀, row₁, hrow₀, hrow₁, rfl⟩ := updateLink_eq_ok h
  · exact ⟨row', hrow', htoken⟩
  · cases hrow₁
    by_cases hkey : key = buildKey identity
    · subst hkey
      rw [Function.update_self, Option.some.injEq] at hrow'
      have hnone : row'.checkpoint direction = ⟨none⟩ := by
        rw [← hrow', ← hreset row₀]
        cases direction <;> rfl
      rw [hnone] at htoken
      cases htoken
    · rw [Function.update_of_ne hkey] at hrow'
      exact ⟨row', hrow', htoken⟩

/-- A stored token was stored before or comes with the copy of the caller. -/
theorem stored_apply {call : Call} (hcall : BringsNoToken call)
    (h : call.apply links = .ok links') (hrow' : links' key = some row')
    (htoken : token ∈ (row'.checkpoint direction).contiguousAppliedToken) :
    (∃ row, links key = some row ∧ token ∈ (row.checkpoint direction).contiguousAppliedToken) ∨
      token ∈ call.carried direction := by
  by_cases hreset : call.Resets direction
  · cases call with
    | resetCheckpoint link direction' token' now =>
      cases hcall
      cases hreset
      unfold Call.apply SyncReplicationLinkStore.resetCheckpoint at h
      refine Or.inl (checkpoint_of_reset (fun row => ?_) h hrow' htoken)
      cases direction <;> rfl
    | resetCheckpoints link now =>
      unfold Call.apply SyncReplicationLinkStore.resetCheckpoints at h
      refine Or.inl (checkpoint_of_reset (fun row => ?_) h hrow' htoken)
      cases direction <;> rfl
    | _ => exact hreset.elim
  · have hstep : SyncReplicationLinkStore.step links call = links' := by
      rw [SyncReplicationLinkStore.step, h]
    have hkept := kept_step links call key
    rw [hstep] at hkept
    cases hrow : links key with
    | none =>
      rw [hkept.1 hrow] at hrow'
      cases hrow'
    | some row =>
      obtain heq | ⟨carried, hcarried, heq⟩ := (hkept.2 row row' hrow hrow').source direction hreset
      · rw [heq] at htoken
        exact Or.inl ⟨row, rfl, htoken⟩
      · rw [heq] at htoken
        cases htoken
        exact Or.inr hcarried

end Stored

section Checkpoints
variable {feeds : Feeds} {key : String} {w w' w₁ w₂ : FeedWorld} {env : FeedEnvironment}
  {direction : SyncDirection} {token : ProgressToken}

/-- The tokens of the copy and of the stored link are safe. -/
structure Safe (feeds : Feeds) (key : String) (w : FeedWorld) : Prop where
  copy : ∀ direction, ∀ token ∈ (w.state.link.checkpoint direction).contiguousAppliedToken,
    SafeToken feeds direction w.trace token
  stored : ∀ row, w.state.links key = some row → ∀ direction,
    ∀ token ∈ (row.checkpoint direction).contiguousAppliedToken,
      SafeToken feeds direction w.trace token

/-- What a part of a cycle comes to, returning or throwing. -/
structure Reaches (feeds : Feeds) (key : String) (w w' : FeedWorld) : Prop where
  safe : Safe feeds key w'
  turn : w'.turn = w.turn
  trace : w.trace <+: w'.trace
  history : ∃ calls, w'.state.calls = w.state.calls ++ calls ∧
    w'.state.links = SyncReplicationLinkStore.run w.state.links calls

theorem Reaches.refl (h : Safe feeds key w) : Reaches feeds key w w :=
  ⟨h, rfl, List.prefix_rfl, [], by simp, rfl⟩

theorem Reaches.trans (h : Reaches feeds key w w₁) (h' : Reaches feeds key w₁ w₂) :
    Reaches feeds key w w₂ := by
  obtain ⟨calls, hcalls, hlinks⟩ := h.history
  obtain ⟨calls', hcalls', hlinks'⟩ := h'.history
  refine ⟨h'.safe, h'.turn.trans h.turn, h.trace.trans h'.trace, calls ++ calls', ?_, ?_⟩
  · rw [hcalls', hcalls, List.append_assoc]
  · rw [hlinks', hlinks, SyncReplicationLinkStore.run, SyncReplicationLinkStore.run,
      SyncReplicationLinkStore.run, List.foldl_append]

theorem Reaches.of_links (hsafe : Safe feeds key w) (hturn : w'.turn = w.turn)
    (htrace : w.trace <+: w'.trace) (hlinks : w'.state.links = w.state.links)
    (hcalls : w'.state.calls = w.state.calls)
    (hcopy : ∀ direction, ∀ token ∈ (w'.state.link.checkpoint direction).contiguousAppliedToken,
      SafeToken feeds direction w'.trace token) : Reaches feeds key w w' := by
  refine ⟨⟨hcopy, fun row hrow d token htoken => ?_⟩, hturn, htrace, [], by simp [hcalls], hlinks⟩
  exact (hsafe.stored row (hlinks ▸ hrow) d token htoken).mono htrace

theorem Reaches.of_extends (hsafe : Safe feeds key w) (h : w.Extends w') : Reaches feeds key w w' :=
  .of_links hsafe h.turn h.trace (by rw [h.state]) (by rw [h.state]) fun d token htoken =>
    (hsafe.copy d token (by rwa [h.state] at htoken)).mono h.trace

theorem wp_callLinkStore {call : Call} (hsafe : Safe feeds key w) (hcall : BringsNoToken call)
    (hcarried : ∀ direction, ∀ token ∈ call.carried direction,
      SafeToken feeds direction w.trace token) :
    wp (callLinkStore call) w (fun _ w' => Reaches feeds key w w') (Reaches feeds key w) := by
  refine wp_bind (wp_getState (wp_bind (wp_liftThrown (fun links hlinks => ?_) (.refl hsafe))))
  refine wp_setState ⟨⟨hsafe.copy, fun row hrow d token htoken => ?_⟩, rfl, List.prefix_rfl,
    [call], rfl, ?_⟩
  · obtain ⟨row₀, hrow₀, htoken₀⟩ | hnew := stored_apply hcall hlinks hrow htoken
    · exact hsafe.stored row₀ hrow₀ d token htoken₀
    · exact hcarried d token hnew
  · change links = SyncReplicationLinkStore.step w.state.links call
    rw [SyncReplicationLinkStore.step, hlinks]

theorem wp_resetCheckpoint (hsafe : Safe feeds key w) (direction : SyncDirection) :
    wp (resetCheckpoint env direction) w (fun _ w' => Reaches feeds key w w')
      (Reaches feeds key w) := by
  refine wp_bind (wp_bind (wp_getState (wp_pure (wp_bind (wp_bind (wp_getState
    (wp_setState ?_)))))))
  have hreset : ∀ w', w.trace <+: w'.trace → w'.turn = w.turn →
      w'.state = { w.state with link :=
        w.state.link.withCheckpoint (SyncCheckpoint.reset none) direction } →
      Reaches feeds key w w' := by
    intro w' htrace hturn hstate
    refine .of_links hsafe hturn htrace (by rw [hstate]) (by rw [hstate]) fun d token htoken => ?_
    rw [hstate] at htoken
    refine (hsafe.copy d token ?_).mono htrace
    cases direction <;> cases d <;> first | exact htoken | cases htoken
  refine wp_bind (wp_ask_extends (fun now w₁ hext _ => ?_) fun w' h =>
    hreset w' h.trace h.turn h.state)
  have hreaches := hreset w₁ hext.trace hext.turn hext.state
  refine wp_mono (wp_callLinkStore hreaches.safe rfl ?_) (fun _ w' h => hreaches.trans h)
    fun w' h => hreaches.trans h
  intro d token htoken
  cases htoken

/-- What has to happen to the message before its row may be passed has happened. -/
def Ready (direction : SyncDirection) (w : FeedWorld) (cid : String) : Prop :=
  Disposed (settling direction) w.trace cid ∨ Inventoried (inventoryOf direction) w.turn w.trace cid

theorem Ready.mono {cid : String} (h : Ready direction w cid) (hturn : w'.turn = w.turn)
    (htrace : w.trace <+: w'.trace) : Ready direction w' cid := by
  refine h.imp (fun h => h.mono htrace) fun h => ?_
  rw [hturn]
  exact h.mono htrace

/-- Up to the token every row was passed or is ready; committed, the token is safe. -/
def Committable (feeds : Feeds) (direction : SyncDirection) (w : FeedWorld)
    (token : ProgressToken) : Prop :=
  ∃ (y : Nat) (t : List FeedEvent), bigInt token.position = some (y : Int) ∧
    t <+: w.trace ∧ (feeds (feedOf direction) t).domain = token.domain ∧
    y ≤ (feeds (feedOf direction) t).head ∧
    ∀ row ∈ (feeds (feedOf direction) t).rows, row.1 ≤ y →
      Passed (settling direction) direction w.trace token.domain row ∨ Ready direction w row.2

theorem Committable.safeToken {committed : ProgressToken}
    (h : Committable feeds direction w token) (answer : Except FeedStop String) (hdomain : committed.domain = token.domain)
    (hle : ∀ y z, bigInt token.position = some y → bigInt committed.position = some z → y ≤ z)
    (hposition : ∃ z, bigInt committed.position = some z) :
    SafeToken feeds direction
      (w.log (.commitCheckpoint direction (some committed)) answer).trace token := by
  obtain ⟨y, t, hy, ht, hsame, hhead, hrows⟩ := h
  have htrace := (w.extends_log (.commitCheckpoint direction (some committed)) answer).trace
  refine ⟨y, t, hy, ht.trans htrace, hsame, hhead, fun row hrow hrowle => ?_⟩
  obtain hpassed | hready := hrows row hrow hrowle
  · exact hpassed.mono htrace
  · obtain ⟨z, hz⟩ := hposition
    refine ⟨w.trace, w.turn, committed, answer, [], rfl, hdomain, ⟨z, hz, ?_⟩, hready⟩
    have := hle y z hy hz
    omega

theorem withCheckpoint_self (link : ReplicationLinkState) (checkpoint : DirectionCheckpoint)
    (direction : SyncDirection) :
    (link.withCheckpoint checkpoint direction).checkpoint direction = checkpoint := by
  cases direction <;> rfl

theorem withCheckpoint_other {link : ReplicationLinkState} {checkpoint : DirectionCheckpoint}
    {direction d : SyncDirection} (h : d ≠ direction) :
    (link.withCheckpoint checkpoint direction).checkpoint d = link.checkpoint d := by
  cases direction <;> cases d <;> first | rfl | exact absurd rfl h

theorem wp_commitToken (hsafe : Safe feeds key w) (h : Committable feeds direction w token) :
    wp (commitToken env direction token) w
      (fun _ w' => Reaches feeds key w w' ∧ SafeToken feeds direction w'.trace token)
      (Reaches feeds key w) := by
  refine wp_bind (wp_bind (wp_getState (wp_pure ?_)))
  refine wp_bind (wp_liftThrown (fun checkpoint hcheckpoint => ?_) (.refl hsafe))
  refine wp_bind (wp_bind (wp_getState (wp_setState ?_)))
  -- the copy has the token, or one of the same domain that is not behind it
  obtain ⟨committed, hcommitted, hsame, hposition, hle, hown⟩ : ∃ committed,
      checkpoint.contiguousAppliedToken = some committed ∧ committed.domain = token.domain ∧
      (∃ z, bigInt committed.position = some z) ∧
      (∀ y z, bigInt token.position = some y → bigInt committed.position = some z → y ≤ z) ∧
      (committed = token ∨
        committed ∈ (w.state.link.checkpoint direction).contiguousAppliedToken) := by
    obtain ⟨y, -, hy, -⟩ := h
    obtain ⟨rfl, -⟩ | ⟨rfl, current, hcurrent, hcurrentDomain, x, z, hx, hz, hxz⟩ :=
      SyncCheckpoint.commitContiguousToken_eq_ok hcheckpoint
    · refine ⟨token, rfl, rfl, ⟨y, hy⟩, fun a b ha hb => ?_, Or.inl rfl⟩
      rw [ha, Option.some.injEq] at hb
      omega
    · refine ⟨current, hcurrent, hcurrentDomain, ⟨z, hz⟩, fun a b ha hb => ?_, Or.inr hcurrent⟩
      rw [hx, Option.some.injEq] at ha
      rw [hz, Option.some.injEq] at hb
      omega
  refine wp_bind (wp_bind (wp_getState (wp_pure ?_)))
  dsimp only
  rw [withCheckpoint_self, hcommitted]
  set w₁ : FeedWorld := { w with state := { w.state with
    link := w.state.link.withCheckpoint checkpoint direction } } with hw₁
  have hlogged : ∀ answer, Reaches feeds key w
        (w₁.log (.commitCheckpoint direction (some committed)) answer) ∧
      SafeToken feeds direction
        (w₁.log (.commitCheckpoint direction (some committed)) answer).trace token := by
    intro answer
    have htrace := (w.extends_log (.commitCheckpoint direction (some committed)) answer).trace
    have hsafeToken := h.safeToken answer hsame hle hposition
    refine ⟨.of_links hsafe rfl htrace rfl rfl fun d t ht => ?_, hsafeToken⟩
    by_cases hd : d = direction
    · subst hd
      change t ∈ ((w.state.link.withCheckpoint checkpoint d).checkpoint d).contiguousAppliedToken at ht
      rw [withCheckpoint_self, hcommitted] at ht
      cases ht
      obtain rfl | hold := hown
      · exact hsafeToken
      · exact (hsafe.copy d committed hold).mono htrace
    · change t ∈ ((w.state.link.withCheckpoint checkpoint direction).checkpoint
        d).contiguousAppliedToken at ht
      rw [withCheckpoint_other hd] at ht
      exact (hsafe.copy d t ht).mono htrace
  refine wp_bind (wp_ask (fun now _ => ?_) fun e _ => (hlogged (.error e)).1)
  obtain ⟨hreaches, hsafeToken⟩ := hlogged (.ok now)
  refine wp_mono (wp_callLinkStore hreaches.safe trivial ?_)
    (fun _ w' h' => ⟨hreaches.trans h', hsafeToken.mono h'.trace⟩) fun w' h' => hreaches.trans h'
  intro d t ht
  by_cases hd : direction = d
  · subst hd
    rw [Call.carried, if_pos rfl] at ht
    exact hreaches.safe.copy direction t ht
  · rw [Call.carried, if_neg hd] at ht
    cases ht

/-! ## Replies -/

/-- A query of the feed of the direction, from a safe cursor, that was answered with a page. -/
structure Queried (env : FeedEnvironment) (feeds : Feeds) (direction : SyncDirection)
    (cursor : Option ProgressToken) (reply : MessagesQueryReply) (t : List FeedEvent) : Prop where
  lists : Lists (feeds (feedOf direction) t) cursor reply
  cursor : ∀ token ∈ cursor, SafeToken feeds direction t token

theorem repr_injective {m n : Nat} (h : m.repr = n.repr) : m = n := by
  have hm := bigInt_repr m
  rw [h, bigInt_repr n, Option.some.injEq] at hm
  omega

variable {cursor : Option ProgressToken} {reply : MessagesQueryReply} {t : List FeedEvent}
  {next : ProgressToken}

/-- A position of the page can be committed when the entries up to it are ready. -/
theorem Queried.committable (h : Queried env feeds direction cursor reply t)
    (hanswers : Answers env feeds) (htrace : t <+: w.trace) (hnext : reply.cursor = some next)
    {n : Nat} (hposition : bigInt token.position = some (n : Int))
    (hdomain : token.domain = next.domain)
    (hle : ∀ y, bigInt next.position = some y → (n : Int) ≤ y)
    (hready : ∀ entry ∈ reply.entries.getD [], ∀ m : Nat, entry.seq = some m.repr → m ≤ n →
      Ready direction w entry.cid) : Committable feeds direction w token := by
  obtain ⟨hsame, y, hy, hhead, -, hcomplete⟩ := h.lists.complete next hnext
  have hny : n ≤ y := by
    have := hle y hy
    omega
  refine ⟨n, t, hposition, htrace, (hdomain.trans hsame).symm, hny.trans hhead, ?_⟩
  intro row hrow hrowle
  by_cases hbeyond : ∀ token ∈ cursor, ∀ x, bigInt token.position = some x → x < (row.1 : Int)
  · obtain ⟨entry, hentry, hseq, hcid⟩ := hcomplete row hrow (hrowle.trans hny) hbeyond
    have hready := hready entry hentry row.1 hseq hrowle
    rw [MessagesQueryReplyEntry.cid, hcid] at hready
    exact Or.inr hready
  · -- the row was passed with the cursor of the query
    push Not at hbeyond
    obtain ⟨token', htoken', x, hx, hrowx⟩ := hbeyond
    have hpassed := (h.cursor token' htoken').passed hanswers (h.lists.domain token' htoken').symm hrow
      fun y' hy' => by
        rw [hx, Option.some.injEq] at hy'
        omega
    rw [h.lists.domain token' htoken', ← hsame, ← hdomain] at hpassed
    exact Or.inl (hpassed.mono htrace)

theorem Queried.committable_page (h : Queried env feeds direction cursor reply t)
    (hanswers : Answers env feeds) (htrace : t <+: w.trace) (hnext : reply.cursor = some next)
    (hready : ∀ entry ∈ reply.entries.getD [], Ready direction w entry.cid) :
    Committable feeds direction w next := by
  obtain ⟨-, y, hy, -⟩ := h.lists.complete next hnext
  refine h.committable hanswers htrace hnext hy rfl (fun z hz => ?_)
    fun entry hentry _ _ _ => hready entry hentry
  rw [hy, Option.some.injEq] at hz
  omega

theorem wp_commitPageProgress {target : SyncTarget} (hsafe : Safe feeds key w)
    (hanswers : Answers env feeds) (h : Queried env feeds direction cursor reply t)
    (htrace : t <+: w.trace)
    (hready : ∀ entry ∈ reply.entries.getD [], Ready direction w entry.cid) :
    wp (commitPageProgress env target direction cursor reply) w
      (fun advance w' => Reaches feeds key w w' ∧ ∀ next, advance = .advanced next →
        SafeToken feeds direction w'.trace next) (Reaches feeds key w) := by
  unfold commitPageProgress
  dsimp only
  split
  · split
    · exact wp_pure ⟨.refl hsafe, by simp⟩
    · exact wp_liftThrown (by simp) (.refl hsafe)
  · next next hnext =>
    refine wp_bind (wp_bind (wp_getState (wp_pure ?_)))
    refine wp_bind (wp_liftThrown (fun _ _ => ?_) (.refl hsafe))
    refine wp_bind (wp_mono (wp_commitToken hsafe
      (h.committable_page hanswers htrace hnext hready)) (fun _ w' h' => wp_pure ?_) fun _ h' => h')
    refine ⟨h'.1, fun token htoken => ?_⟩
    split at htoken
    · cases htoken
    · cases htoken
      exact h'.2

theorem entriesMissingFrom_nil (entries : List MessagesQueryReplyEntry) :
    entriesMissingFrom [] entries = entries := by
  simp [entriesMissingFrom]

theorem ready_before_stop {knownCids : List String} {failedEntry entry : MessagesQueryReplyEntry}
    {entries : List MessagesQueryReplyEntry} {m s : Nat}
    (hascending : entries.Pairwise fun a b =>
      ∃ m n : Nat, a.seq = some m.repr ∧ b.seq = some n.repr ∧ m < n)
    (hknown : ∀ cid ∈ knownCids, Ready .push w cid)
    (hstop : PageStopsAt w.trace (entriesMissingFrom knownCids entries) failedEntry)
    (hentry : entry ∈ entries) (hm : entry.seq = some m.repr) (hs : failedEntry.seq = some s.repr)
    (hlt : m < s) : Ready .push w entry.cid := by
  by_cases hmem : entry.cid ∈ knownCids
  · exact hknown entry.cid hmem
  obtain ⟨done, rest, hsplit, hdone⟩ := hstop
  have hmissing : entry ∈ entriesMissingFrom knownCids entries :=
    List.mem_filter.mpr ⟨hentry, by simpa using hmem⟩
  have hsorted : (entriesMissingFrom knownCids entries).Pairwise _ :=
    hascending.sublist List.filter_sublist
  rw [hsplit] at hmissing hsorted
  obtain hbefore | hafter := List.mem_append.mp hmissing
  · exact Or.inl (hdone entry hbefore)
  · obtain rfl | hrest := List.mem_cons.mp hafter
    · rw [hm, Option.some.injEq] at hs
      have := repr_injective hs
      omega
    · -- an entry after the stop has a higher position
      obtain ⟨a, b, ha, hb, hab⟩ :=
        (List.pairwise_cons.mp (List.pairwise_append.mp hsorted).2.1).1 entry hrest
      rw [hs, Option.some.injEq] at ha
      rw [hm, Option.some.injEq] at hb
      have := repr_injective ha
      have := repr_injective hb
      omega

theorem wp_commitPushPrefixProgress {target : SyncTarget} {knownCids : List String}
    {failedEntry : MessagesQueryReplyEntry} (hsafe : Safe feeds key w)
    (hanswers : Answers env feeds) (h : Queried env feeds .push cursor reply t)
    (htrace : t <+: w.trace) (hknown : ∀ cid ∈ knownCids, Ready .push w cid)
    (hstop : PageStopsAt w.trace (entriesMissingFrom knownCids (reply.entries.getD [])) failedEntry) :
    wp (commitPushPrefixProgress env target cursor reply failedEntry) w
      (fun _ w' => Reaches feeds key w w') (Reaches feeds key w) := by
  unfold commitPushPrefixProgress
  dsimp only
  split
  · exact wp_liftThrown (by simp) (.refl hsafe)
  · next failedIndex hfind =>
    obtain ⟨hlt, hfound, -⟩ := List.findIdx?_eq_some_iff_getElem.mp hfind
    have hseq : (reply.entries.getD [])[failedIndex].seq = failedEntry.seq :=
      of_decide_eq_true (Bool.and_eq_true_iff.mp hfound).1
    split
    · exact wp_pure (.refl hsafe)
    · exact wp_pure (.refl hsafe)
    · next precedingEntry i hpreceding =>
      split
      · exact wp_liftThrown (by simp) (.refl hsafe)
      · next next hnext =>
        refine wp_bind (wp_bind (wp_getState (wp_pure ?_)))
        refine wp_bind (wp_liftThrown (fun _ _ => ?_) (.refl hsafe))
        refine wp_mono (wp_commitToken hsafe ?_) (fun _ w' h' => h'.1) fun _ h' => h'
        -- the entry before the failed one gives the position
        obtain ⟨hi, rfl⟩ := List.getElem?_eq_some_iff.mp hpreceding
        obtain ⟨n, s, hn, hs, hns⟩ := List.pairwise_iff_getElem.mp h.lists.ascending
          (i + 1 - 1) (i + 1) hi hlt (by omega)
        rw [hseq] at hs
        obtain ⟨-, y, hy, -, hbound, -⟩ := h.lists.complete next hnext
        refine h.committable hanswers htrace hnext (n := n) ?_ rfl (fun z hz => ?_) ?_
        · change bigInt ((reply.entries.getD [])[i + 1 - 1].seq.getD "") = _
          rw [hn]
          exact bigInt_repr n
        · rw [hy, Option.some.injEq] at hz
          obtain ⟨n', hn', hle⟩ := hbound _ (List.getElem_mem hi)
          rw [hn, Option.some.injEq] at hn'
          have := repr_injective hn'
          omega
        · intro entry hentry m hm hle
          exact ready_before_stop h.lists.ascending hknown hstop hentry hm hs (by omega)

theorem wp_processPullPage (target : SyncTarget) (knownCids : List String)
    (hsafe : Safe feeds key w) (hanswers : Answers env feeds)
    (h : Queried env feeds .pull cursor reply t) (htrace : t <+: w.trace)
    (hknown : ∀ cid ∈ knownCids, Ready .pull w cid) :
    wp (processPullPage env target cursor (entriesMissingFrom knownCids (reply.entries.getD []))
        knownCids reply) w
      (fun out w' => Reaches feeds key w w' ∧ ∀ next, out.1 = .nextCursor next →
        SafeToken feeds .pull w'.trace next ∧ ∀ cid ∈ out.2, Ready .pull w' cid)
      (Reaches feeds key w) := by
  unfold processPullPage admitRemoteFeedPage
  refine wp_bind (wp_mono (wp_admitRemoteFeedEntries _ []) (fun result w₁ h₁ => ?_)
    fun w' h' => .of_extends hsafe h')
  have hreaches : Reaches feeds key w w₁ := .of_extends hsafe h₁.1
  match result with
  | .aborted => exact wp_pure ⟨hreaches, by simp⟩
  | .deferred handled detail messageCid => exact wp_pure ⟨hreaches, by simp⟩
  | .processed handled =>
    obtain ⟨hentries, hhandled⟩ := h₁.2 handled rfl
    have hknown₁ : ∀ cid ∈ knownCids ++ handled, Ready .pull w₁ cid := by
      intro cid hcid
      obtain hold | hnew := List.mem_append.mp hcid
      · exact (hknown cid hold).mono hreaches.turn hreaches.trace
      · obtain hnil | hdone := hhandled cid hnew
        · cases hnil
        · exact Or.inl hdone
    have hready : ∀ entry ∈ reply.entries.getD [], Ready .pull w₁ entry.cid := by
      intro entry hentry
      by_cases hmem : entry.cid ∈ knownCids
      · exact hknown₁ entry.cid (List.mem_append_left _ hmem)
      · exact Or.inl (hentries entry (List.mem_filter.mpr ⟨hentry, by simpa using hmem⟩))
    refine wp_bind (wp_mono (wp_commitPageProgress hreaches.safe hanswers h
      (htrace.trans hreaches.trace) hready) (fun advance w₂ h₂ => ?_) fun w' h' => hreaches.trans h')
    have hreaches₂ := hreaches.trans h₂.1
    match advance with
    | .drained => exact wp_pure ⟨hreaches₂, by simp⟩
    | .advanced next =>
      refine wp_pure ⟨hreaches₂, fun next' heq => ?_⟩
      cases heq
      exact ⟨h₂.2 next rfl, fun cid hcid => (hknown₁ cid hcid).mono h₂.1.turn h₂.1.trace⟩

theorem wp_processPushPage (dependencies : Dependencies String) (target : SyncTarget)
    (knownCids : List String) (hsafe : Safe feeds key w) (hanswers : Answers env feeds)
    (h : Queried env feeds .push cursor reply t) (htrace : t <+: w.trace)
    (hknown : ∀ cid ∈ knownCids, Ready .push w cid) :
    wp (processPushPage env dependencies target cursor
        (entriesMissingFrom knownCids (reply.entries.getD [])) knownCids reply) w
      (fun out w' => Reaches feeds key w w' ∧ ∀ next, out.1 = .nextCursor next →
        SafeToken feeds .push w'.trace next ∧ ∀ cid ∈ out.2, Ready .push w' cid)
      (Reaches feeds key w) := by
  unfold processPushPage pushLocalFeedPage
  refine wp_bind (wp_mono (wp_pushLocalFeedEntries hanswers _ [] (by simp)) (fun result w₁ h₁ => ?_)
    fun w' h' => .of_extends hsafe h')
  have hreaches : Reaches feeds key w w₁ := .of_extends hsafe h₁.1
  have htrace₁ := htrace.trans hreaches.trace
  have hknown₁ : ∀ cid ∈ knownCids, Ready .push w₁ cid :=
    fun cid hcid => (hknown cid hcid).mono hreaches.turn hreaches.trace
  match result, h₁ with
  | .aborted, _ => exact wp_pure ⟨hreaches, by simp⟩
  | .error e failedEntry, h₁ =>
    refine wp_bind (wp_mono (wp_commitPushPrefixProgress hreaches.safe hanswers h htrace₁ hknown₁ h₁.2)
      (fun _ w' h' => wp_throw (hreaches.trans h')) fun w' h' => hreaches.trans h')
  | .failed failedEntry failures, h₁ =>
    refine wp_bind (wp_mono (wp_commitPushPrefixProgress hreaches.safe hanswers h htrace₁ hknown₁ h₁.2)
      (fun _ w' h' => wp_pure ⟨hreaches.trans h', by simp⟩) fun w' h' => hreaches.trans h')
  | .processed, h₁ =>
    have hready : ∀ entry ∈ reply.entries.getD [], Ready .push w₁ entry.cid := by
      intro entry hentry
      by_cases hmem : entry.cid ∈ knownCids
      · exact hknown₁ entry.cid hmem
      · exact Or.inl (h₁.2 entry (List.mem_filter.mpr ⟨hentry, by simpa using hmem⟩))
    refine wp_bind (wp_mono (wp_commitPageProgress hreaches.safe hanswers h htrace₁ hready)
      (fun advance w₂ h₂ => ?_) fun w' h' => hreaches.trans h')
    have hreaches₂ := hreaches.trans h₂.1
    match advance with
    | .drained => exact wp_pure ⟨hreaches₂, by simp⟩
    | .advanced next =>
      refine wp_pure ⟨hreaches₂, fun next' heq => ?_⟩
      cases heq
      refine ⟨h₂.2 next rfl, fun cid hcid => ?_⟩
      obtain hold | hnew := List.mem_append.mp hcid
      · exact (hknown₁ cid hold).mono h₂.1.turn h₂.1.trace
      · obtain ⟨entry, hentry, rfl⟩ := List.mem_map.mp hnew
        exact (hready entry (List.mem_of_mem_filter hentry)).mono h₂.1.turn h₂.1.trace

end Checkpoints

end EnboxDwn.Agent.SyncDurableFeedReconciler
