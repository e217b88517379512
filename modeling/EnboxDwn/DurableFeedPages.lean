import EnboxDwn.DurableFeed

/-! What becomes of the entries of a page. The trace of a cycle tells which messages were disposed
of and which ones an inventory listed; a page that counts as processed has no other entries. -/
namespace EnboxDwn.Agent.SyncDurableFeedReconciler

open Interaction SyncReplicationLinkStore

/-! ## Feeds -/

/-- A feed as it is at some moment: its stream and epoch, the last position that was issued, and
the rows it shows. -/
structure Feed where
  domain : String × String
  head : Nat
  rows : List (Nat × String)

/-- The rows beyond the cursor and up to the new one are in the reply, which is in order. -/
structure Lists (feed : Feed) (cursor : Option ProgressToken) (reply : MessagesQueryReply) : Prop where
  domain : ∀ token ∈ cursor, token.domain = feed.domain
  ascending : (reply.entries.getD []).Pairwise fun a b =>
    ∃ m n : Nat, a.seq = some m.repr ∧ b.seq = some n.repr ∧ m < n
  complete : ∀ next ∈ reply.cursor, next.domain = feed.domain ∧
    ∃ y : Nat, bigInt next.position = some (y : Int) ∧ y ≤ feed.head ∧
      (∀ entry ∈ reply.entries.getD [], ∃ n : Nat, entry.seq = some n.repr ∧ n ≤ y) ∧
      ∀ row ∈ feed.rows, row.1 ≤ y →
        (∀ token ∈ cursor, ∀ x, bigInt token.position = some x → x < (row.1 : Int)) →
        ∃ entry ∈ reply.entries.getD [], entry.seq = some row.1.repr ∧ entry.messageCid = some row.2

/-- The two feeds, at every moment of a run. -/
abbrev Feeds := FeedSource → List FeedEvent → Feed

/-- What the code relies on: rows of a stream and epoch are only added beyond the head, replies
list their feed, and the message of a local entry has the address that the entry names. -/
structure Answers (env : FeedEnvironment) (feeds : Feeds) : Prop where
  appended : ∀ source t t', t <+: t' → (feeds source t').domain = (feeds source t).domain →
    ∀ row ∈ (feeds source t').rows, row.1 ≤ (feeds source t).head → row ∈ (feeds source t).rows
  lists : ∀ t query reply, env t (.queryFeed query) = .ok reply → reply.status.code = 200 →
    Lists (feeds query.source t) query.cursor reply
  root : ∀ t entry rootCids, env t (.fetchMessageFeedEntry entry) = .ok (.fetched rootCids) →
    entry.cid ∈ rootCids

/-! ## The log of a node as a feed -/

section Logs
open MessageStore
variable [P : Platform]

/-- The log of a node is a feed, as far as the filters select its rows. -/
def Feed.ofLog (domain : StreamDomain) (log : Log) (filters : Option (List Filter)) : Feed where
  domain := (domain.streamId, domain.epoch)
  head := log.head
  rows := (log.rows.filter (selects filters)).map fun r => (r.seq, r.cid.val)

variable {domain : StreamDomain} {log log' : Log} {filters : Option (List Filter)}
  {cursor : Option EnboxDwn.ProgressToken} {limit : Option Int} {result : EventLogReadResult}
  {reply : MessagesQueryReply}

theorem resumable_of_logRead (h : logRead domain log cursor limit filters = .ok result) :
    Resumable domain log cursor := by
  obtain ⟨_, -, h⟩ := bind_eq_ok h
  obtain ⟨_, hvalid, -⟩ := bind_eq_ok h
  rintro token rfl
  change validateCursor domain log.head log token = _ at hvalid
  unfold validateCursor at hvalid
  split at hvalid
  · assumption
  · cases hvalid

theorem lists_logRead (hlog : log.Positioned)
    (hread : logRead domain log cursor limit filters = .ok result)
    (hreply : RepliesWith result reply) :
    Lists (Feed.ofLog domain log filters) (cursor.map ProgressToken.ofLog) reply := by
  have hpage := pageOf_logRead hlog hread
  have hcursor : ∀ token, cursor = some token → token.toStreamDomain = domain ∧
      token.position ≤ log.head := by
    intro token htoken
    have hvalid := validateCursorPosition_eq_none.mp (resumable_of_logRead hread token htoken)
    exact ⟨hvalid.1, hvalid.2.1⟩
  obtain ⟨entries, hentries, hmap⟩ := hreply.entries
  rw [hpage.events, List.map_map] at hmap
  have hrow : ∀ entry ∈ entries, ∃ r ∈ log.rows, r.seq ≤ positionOf result.cursor ∧
      entry.seq = some r.seq.repr := by
    intro entry hentry
    have hmem := hmap ▸ List.mem_map_of_mem hentry
    obtain ⟨r, hr, heq⟩ := List.mem_map.mp hmem
    obtain ⟨hr, hselected⟩ := List.mem_filter.mp hr
    exact ⟨r, hr, (of_decide_eq_true hselected).2.2, (congrArg Prod.fst heq).symm⟩
  refine ⟨?_, ?_, ?_⟩
  · intro token htoken
    obtain ⟨token', htoken', rfl⟩ := Option.map_eq_some_iff.mp htoken
    obtain ⟨rfl, -⟩ := hcursor token' htoken'
    rfl
  · have hrising : (log.rows.filter fun r => selects filters r = true ∧
        positionOf cursor < r.seq ∧ r.seq ≤ positionOf result.cursor).Pairwise
        fun a b => a.seq < b.seq := (List.pairwise_map.mp hlog.rising).sublist List.filter_sublist
    have hpairs : (entries.map fun entry => (entry.seq, entry.messageCid)).Pairwise fun a b =>
        ∃ m n : Nat, a.1 = some m.repr ∧ b.1 = some n.repr ∧ m < n := by
      rw [hmap]
      exact List.pairwise_map.mpr (hrising.imp fun hlt => ⟨_, _, rfl, rfl, hlt⟩)
    rw [hentries]
    exact List.pairwise_map.mp hpairs
  · intro next hnext
    rw [hreply.cursor] at hnext
    obtain ⟨token, htoken, rfl⟩ := Option.map_eq_some_iff.mp hnext
    have hposition : positionOf result.cursor = token.position := by rw [htoken]; rfl
    have hstart : positionOf cursor ≤ log.head := by
      cases cursor with
      | none => exact Nat.zero_le _
      | some token => exact (hcursor token rfl).2
    have hbounded := hpage.bounded
    have hdomain : token.toStreamDomain = domain := by
      obtain heq | ⟨token', htoken', hdomain, -⟩ := hpage.token
      · exact (hcursor token (heq ▸ htoken)).1
      · rw [htoken, Option.some.injEq] at htoken'
        exact htoken' ▸ hdomain
    subst hdomain
    refine ⟨rfl, token.position, bigInt_repr _, by change token.position ≤ log.head; omega, ?_, ?_⟩
    · intro entry hentry
      rw [hentries] at hentry
      obtain ⟨r, -, hle, hseq⟩ := hrow entry hentry
      exact ⟨r.seq, hseq, hposition ▸ hle⟩
    · intro row hmem hle hbeyond
      obtain ⟨r, hr, rfl⟩ := List.mem_map.mp hmem
      obtain ⟨hr, hselected⟩ := List.mem_filter.mp hr
      have hafter : positionOf cursor < r.seq := by
        cases cursor with
        | none => exact (hlog.issued r hr).1
        | some token' =>
          have := hbeyond (ProgressToken.ofLog token') rfl _ (bigInt_repr _)
          exact Int.ofNat_lt.mp this
      have hmem : (some r.seq.repr, some r.cid.val) ∈
          entries.map fun entry => (entry.seq, entry.messageCid) := by
        rw [hmap]
        exact List.mem_map.mpr ⟨r, List.mem_filter.mpr ⟨hr, decide_eq_true
          ⟨hselected, hafter, hposition ▸ hle⟩⟩, rfl⟩
      obtain ⟨entry, hentry, heq⟩ := List.mem_map.mp hmem
      rw [hentries]
      exact ⟨entry, hentry, congrArg Prod.fst heq, congrArg Prod.snd heq⟩

theorem ofLog_appended (h : log.Evolves log') {row : Nat × String}
    (hrow : row ∈ (Feed.ofLog domain log' none).rows)
    (hle : row.1 ≤ (Feed.ofLog domain log none).head) : row ∈ (Feed.ofLog domain log none).rows := by
  obtain ⟨r', hr', rfl⟩ := List.mem_map.mp hrow
  obtain hnew | ⟨r, hr, hseq, hcid⟩ := h.row r' (List.mem_of_mem_filter hr')
  · exact absurd hle (Nat.not_le.mpr hnew)
  · exact List.mem_map.mpr ⟨r, List.mem_filter.mpr ⟨hr, rfl⟩, by rw [hseq, hcid]⟩

/-- Whatever mutations a node makes, its log is a feed as a cycle relies on it: a page that is read
lists the feed, and rows are only added beyond the head. -/
theorem log_answers (domain : StreamDomain) (calls later : List StoreCall) :
    (∀ filters cursor limit result reply,
      logRead domain (mutated {} calls) cursor limit filters = .ok result →
      RepliesWith result reply →
      Lists (Feed.ofLog domain (mutated {} calls) filters) (cursor.map ProgressToken.ofLog) reply) ∧
    ∀ row ∈ (Feed.ofLog domain (mutated {} (calls ++ later)) none).rows,
      row.1 ≤ (Feed.ofLog domain (mutated {} calls) none).head →
      row ∈ (Feed.ofLog domain (mutated {} calls) none).rows := by
  obtain ⟨-, hlog⟩ := mutated_evolves {} calls Log.positioned_empty
  obtain ⟨hevolves, -⟩ := mutated_evolves (mutated {} calls) later hlog
  refine ⟨fun _ _ _ _ _ hread hreply => lists_logRead hlog hread hreply, fun row hrow hle => ?_⟩
  rw [mutated, List.foldl_append] at hrow
  exact ofLog_appended hevolves hrow hle

end Logs

/-! ## What became of an entry -/

inductive Disposal where
  | admitted | echoed | retired | accepted | quotaRecorded | recentlyPulled | rejected | deadLettered
  deriving DecidableEq, Repr

def disposals : FeedEvent → List (Disposal × String)
  | ⟨_, .hasDeadLetter cid, .ok true⟩ => [(.deadLettered, cid)]
  | ⟨_, .admitRemoteFeedEntry entry, .ok (.admitted handledCids)⟩ =>
    (.admitted, entry.cid) :: handledCids.map (Disposal.admitted, ·)
  | ⟨_, .admitRemoteFeedEntry entry, .ok .echo⟩ => [(.echoed, entry.cid)]
  | ⟨_, .admitRemoteFeedEntry entry, .ok .deadLettered⟩ => [(.rejected, entry.cid)]
  | ⟨_, .tryRetireDeferredPull entry _, .ok true⟩ => [(.retired, entry.cid)]
  | ⟨_, .getState cid, .ok (some _)⟩ => [(.quotaRecorded, cid)]
  | ⟨_, .recordBlock cid _, .ok _⟩ => [(.quotaRecorded, cid)]
  | ⟨_, .hasRecentlyPulled cid, .ok true⟩ => [(.recentlyPulled, cid)]
  | ⟨_, .applyRemoteRoot _, .ok outcome⟩ => outcome.acknowledged.map (Disposal.accepted, ·)
  | ⟨_, .recordTerminalFailure failure, .ok _⟩ => [(.rejected, failure.cid)]
  | _ => []

def listed (source : FeedSource) : FeedEvent → List String
  | ⟨_, .queryFeed query, .ok reply⟩ =>
    if query.cidsOnly && query.source = source then (reply.entries.getD []).map (·.cid) else []
  | _ => []

/-- What the direction reads, and where it looks for what is there already. -/
def feedOf : SyncDirection → FeedSource
  | .pull => .remoteFeed
  | .push => .localFeed

def inventoryOf : SyncDirection → FeedSource
  | .pull => .localFeed
  | .push => .remoteFeed

def settling : SyncDirection → List Disposal
  | .pull => [.admitted, .echoed, .rejected, .retired, .deadLettered]
  | .push => [.accepted, .quotaRecorded, .recentlyPulled, .rejected, .deadLettered]

def Disposed (kinds : List Disposal) (trace : List FeedEvent) (cid : String) : Prop :=
  ∃ event ∈ trace, ∃ kind ∈ kinds, (kind, cid) ∈ disposals event

/-- The message was in the inventory that was taken in the turn. -/
def Inventoried (source : FeedSource) (turn : Nat) (trace : List FeedEvent) (cid : String) : Prop :=
  ∃ event ∈ trace, event.turn = turn ∧ cid ∈ listed source event

/-- The row was passed by a commit, and what had to happen to it had happened by then. -/
def Passed (kinds : List Disposal) (direction : SyncDirection) (trace : List FeedEvent)
    (domain : String × String) (row : Nat × String) : Prop :=
  ∃ before turn token answer after,
    trace = before ++ ⟨turn, .commitCheckpoint direction (some token), answer⟩ :: after ∧
    token.domain = domain ∧ (∃ z, bigInt token.position = some z ∧ (row.1 : Int) ≤ z) ∧
    (Disposed kinds before row.2 ∨ Inventoried (inventoryOf direction) turn before row.2)

/-- Up to the token every row of the feed was passed. The rows are those of some moment that had
come as far as the token; later ones have no other rows there. -/
def SafeToken (feeds : Feeds) (direction : SyncDirection) (trace : List FeedEvent)
    (token : ProgressToken) : Prop :=
  ∃ (y : Nat) (t : List FeedEvent), bigInt token.position = some (y : Int) ∧ t <+: trace ∧
    (feeds (feedOf direction) t).domain = token.domain ∧ y ≤ (feeds (feedOf direction) t).head ∧
    ∀ row ∈ (feeds (feedOf direction) t).rows, row.1 ≤ y →
      Passed (settling direction) direction trace token.domain row

section Facts
variable {kinds : List Disposal} {direction : SyncDirection} {source : FeedSource}
  {trace trace' : List FeedEvent} {cid : String} {turn : Nat} {row : Nat × String}
  {domain : String × String} {feeds : Feeds} {token : ProgressToken}

theorem Disposed.mono (h : Disposed kinds trace cid) (htrace : trace <+: trace') :
    Disposed kinds trace' cid := by
  obtain ⟨event, hevent, hkind⟩ := h
  exact ⟨event, htrace.subset hevent, hkind⟩

theorem Inventoried.mono (h : Inventoried source turn trace cid) (htrace : trace <+: trace') :
    Inventoried source turn trace' cid := by
  obtain ⟨event, hevent, hlisted⟩ := h
  exact ⟨event, htrace.subset hevent, hlisted⟩

theorem Passed.mono (h : Passed kinds direction trace domain row) (htrace : trace <+: trace') :
    Passed kinds direction trace' domain row := by
  obtain ⟨before, turn, token, answer, after, rfl, hrest⟩ := h
  obtain ⟨more, rfl⟩ := htrace
  exact ⟨before, turn, token, answer, after ++ more, by simp, hrest⟩

theorem SafeToken.mono (h : SafeToken feeds direction trace token) (htrace : trace <+: trace') :
    SafeToken feeds direction trace' token := by
  obtain ⟨y, t, hy, ht, hdomain, hhead, hpassed⟩ := h
  exact ⟨y, t, hy, ht.trans htrace, hdomain, hhead,
    fun row hrow hle => (hpassed row hrow hle).mono htrace⟩

/-- At a later moment of the same stream and epoch the rows up to the token are passed too. -/
theorem SafeToken.passed {env : FeedEnvironment} (h : SafeToken feeds direction trace token)
    (hanswers : Answers env feeds)
    (hdomain : (feeds (feedOf direction) trace).domain = token.domain)
    (hrow : row ∈ (feeds (feedOf direction) trace).rows)
    (hle : ∀ y, bigInt token.position = some y → (row.1 : Int) ≤ y) :
    Passed (settling direction) direction trace token.domain row := by
  obtain ⟨y, t, hy, ht, hsame, hhead, hpassed⟩ := h
  have hle : row.1 ≤ y := by
    have := hle y hy
    omega
  exact hpassed row (hanswers.appended _ t trace ht (hdomain.trans hsame.symm) row hrow
    (hle.trans hhead)) hle

end Facts

/-! ## Pages -/

section Pages
variable {env : FeedEnvironment} {target : SyncTarget} {w : FeedWorld}

theorem disposed_of_mem {kinds : List Disposal} {kind : Disposal} {cid : String}
    {event : FeedEvent} {trace : List FeedEvent} (hevent : event ∈ trace) (hkind : kind ∈ kinds)
    (h : (kind, cid) ∈ disposals event) : Disposed kinds trace cid :=
  ⟨event, hevent, kind, hkind, h⟩

theorem wp_liftThrown {α : Type} {x : Except Thrown α} {Q : α → FeedWorld → Prop}
    {E : FeedWorld → Prop} (hok : ∀ a, x = .ok a → Q a w) (herror : E w) :
    wp (liftThrown x) w Q E := by
  cases x with
  | ok a => exact hok a rfl
  | error e => exact herror

theorem wp_shouldAbort {Q : Bool → FeedWorld → Prop} {E : FeedWorld → Prop}
    (h : ∀ b w', w.Extends w' → Q b w') (herror : ∀ w', w.Extends w' → E w') :
    wp (shouldAbort env) w Q E :=
  wp_bind (wp_ask_extends (fun _ w' hext _ => wp_pure (h _ w' hext)) herror)

theorem wp_skipsDeadLetter {cid : String} {Q : Bool → FeedWorld → Prop} {E : FeedWorld → Prop}
    (h : ∀ b w', w.Extends w' → (b = true → Disposed (settling .pull) w'.trace cid) → Q b w')
    (herror : ∀ w', w.Extends w' → E w') : wp (skipsDeadLetter env target cid) w Q E := by
  unfold skipsDeadLetter
  split
  · exact wp_pure (h false w (.refl w) (by simp))
  · refine wp_ask_extends (fun b w' hext hmem => h b w' hext fun hb => ?_) herror
    subst hb
    exact disposed_of_mem hmem (by decide) List.mem_cons_self

/-- A page that was processed has no entry left, and the addresses it reports were handled. -/
theorem wp_admitRemoteFeedEntries (entries : List MessagesQueryReplyEntry)
    (handledCids : List String) : wp (admitRemoteFeedEntries env target entries handledCids) w
      (fun result w' => w.Extends w' ∧ ∀ handled, result = .processed handled →
        (∀ entry ∈ entries, Disposed (settling .pull) w'.trace entry.cid) ∧
        ∀ cid ∈ handled, cid ∈ handledCids ∨ Disposed (settling .pull) w'.trace cid) w.Extends := by
  induction entries generalizing w handledCids with
  | nil =>
    refine wp_pure ⟨.refl w, fun handled h => ⟨by simp, fun cid hcid => Or.inl ?_⟩⟩
    cases h
    exact hcid
  | cons entry entries ih =>
    -- the rest of the page, once the entry is disposed of
    have hrest : ∀ (w₁ : FeedWorld) (handled₁ : List String), w.Extends w₁ →
        Disposed (settling .pull) w₁.trace entry.cid →
        (∀ cid ∈ handled₁, cid ∈ handledCids ∨ Disposed (settling .pull) w₁.trace cid) →
        wp (admitRemoteFeedEntries env target entries handled₁) w₁
          (fun result w' => w.Extends w' ∧ ∀ handled, result = .processed handled →
            (∀ e ∈ entry :: entries, Disposed (settling .pull) w'.trace e.cid) ∧
            ∀ cid ∈ handled, cid ∈ handledCids ∨ Disposed (settling .pull) w'.trace cid)
          w.Extends := by
      intro w₁ handled₁ hext hentry hhandled
      refine wp_mono (ih handled₁) (fun result w' h => ⟨hext.trans h.1, fun handled hresult => ?_⟩)
        fun w' h => hext.trans h
      obtain ⟨hentries, hnew⟩ := h.2 handled hresult
      refine ⟨fun e he => ?_, fun cid hcid => ?_⟩
      · obtain rfl | he := List.mem_cons.mp he
        · exact hentry.mono h.1.trace
        · exact hentries e he
      · obtain hold | hdone := hnew cid hcid
        · exact (hhandled cid hold).imp_right fun hdone => hdone.mono h.1.trace
        · exact Or.inr hdone
    unfold admitRemoteFeedEntries
    refine wp_bind (wp_skipsDeadLetter (fun b w₁ hext₁ hskip => ?_) fun w' h => h)
    split
    · next hb => exact hrest w₁ handledCids hext₁ (hskip hb) fun cid hcid => Or.inl hcid
    refine wp_bind (wp_ask_extends (fun outcome w₂ hext₂ hmem => ?_) fun w' h => hext₁.trans h)
    have hext : w.Extends w₂ := hext₁.trans hext₂
    cases outcome with
    | aborted => exact wp_pure ⟨hext, by simp⟩
    | deferred detail =>
      refine wp_bind (wp_ask_extends (fun b w₃ hext₃ hmem => ?_) fun w' h => hext.trans h)
      cases b with
      | false => exact wp_pure ⟨hext.trans hext₃, by simp⟩
      | true =>
        exact hrest w₃ handledCids (hext.trans hext₃)
          (disposed_of_mem hmem (by decide) List.mem_cons_self)
          fun cid hcid => Or.inl hcid
    | echo =>
      exact hrest w₂ handledCids hext
        (disposed_of_mem hmem (by decide) List.mem_cons_self)
        fun cid hcid => Or.inl hcid
    | deadLettered =>
      exact hrest w₂ handledCids hext
        (disposed_of_mem hmem (by decide) List.mem_cons_self)
        fun cid hcid => Or.inl hcid
    | admitted handled =>
      refine wp_bind (wp_ask_extends (fun _ w₃ hext₃ _ => ?_) fun w' h => hext.trans h)
      have hadmitted : ∀ cid, cid = entry.cid ∨ cid ∈ handled →
          Disposed (settling .pull) w₃.trace cid := fun cid hcid =>
        Disposed.mono ⟨_, hmem, .admitted, by decide, by simpa [disposals] using hcid⟩ hext₃.trace
      refine hrest w₃ (handledCids ++ handled) (hext.trans hext₃) (hadmitted _ (Or.inl rfl)) ?_
      intro cid hcid
      exact (List.mem_append.mp hcid).imp_right fun h => hadmitted cid (Or.inr h)

/-- What was decided about a local message suffices to pass it. -/
abbrev Pushed (trace : List FeedEvent) (cid : String) : Prop := Disposed (settling .push) trace cid

/-- Every root is accepted or has its failure, and the acknowledgements are the remote's. -/
structure RootsPushed (w w' : FeedWorld) (roots : List String) (failed : List PushFailure)
    (acknowledged' succeeded' : List String) (failed' : List PushFailure) : Prop where
  extends_ : w.Extends w'
  acknowledged : ∀ cid ∈ acknowledged', Pushed w'.trace cid
  succeeded : ∀ cid ∈ succeeded', Pushed w'.trace cid
  failed : failed ⊆ failed'
  roots : ∀ root ∈ roots, Pushed w'.trace root ∨ ∃ failure ∈ failed', failure.cid = root

theorem RootsPushed.cons {w₁ w' : FeedWorld} {root : String} {roots acknowledged' succeeded' : List String}
    {failed failed₁ failed' : List PushFailure} (hext : w.Extends w₁) (hfailed : failed ⊆ failed₁)
    (hroot : Pushed w₁.trace root ∨ ∃ failure ∈ failed₁, failure.cid = root)
    (h : RootsPushed w₁ w' roots failed₁ acknowledged' succeeded' failed') :
    RootsPushed w w' (root :: roots) failed acknowledged' succeeded' failed' := by
  refine ⟨hext.trans h.extends_, h.acknowledged, h.succeeded,
    List.Subset.trans hfailed h.failed, fun r hr => ?_⟩
  obtain rfl | hr := List.mem_cons.mp hr
  · obtain hpushed | ⟨failure, hmem, hcid⟩ := hroot
    · exact Or.inl (hpushed.mono h.extends_.trace)
    · exact Or.inr ⟨failure, h.failed hmem, hcid⟩
  · exact h.roots r hr

theorem wp_pushRoots (roots acknowledged succeeded : List String) (failed : List PushFailure)
    (hack : ∀ cid ∈ acknowledged, Pushed w.trace cid) (hsucc : ∀ cid ∈ succeeded, Pushed w.trace cid) :
    wp (pushRoots env roots acknowledged succeeded failed) w
      (fun out w' => RootsPushed w w' roots failed out.1 out.2.1 out.2.2) w.Extends := by
  induction roots generalizing w acknowledged succeeded failed with
  | nil => exact wp_pure ⟨.refl w, hack, hsucc, List.Subset.refl _, by simp⟩
  | cons root roots ih =>
    unfold pushRoots
    split
    · next hany =>
      refine wp_mono (ih acknowledged succeeded failed hack hsucc) (fun out w' h => ?_) fun _ h => h
      obtain ⟨failure, hmem, hcid⟩ := List.any_eq_true.mp hany
      exact .cons (.refl w) (List.Subset.refl _)
        (Or.inr ⟨failure, hmem, of_decide_eq_true hcid⟩) h
    · refine wp_bind (wp_ask_extends (fun outcome w₁ hext hmem => ?_) fun w' h => h)
      have hack₁ : ∀ cid ∈ acknowledged ++ outcome.acknowledged, Pushed w₁.trace cid := by
        intro cid hcid
        obtain hold | hnew := List.mem_append.mp hcid
        · exact (hack cid hold).mono hext.trace
        · exact ⟨_, hmem, .accepted, by decide, List.mem_map.mpr ⟨cid, hnew, rfl⟩⟩
      have hsucc₁ : ∀ cid ∈ succeeded, Pushed w₁.trace cid :=
        fun cid hcid => (hsucc cid hcid).mono hext.trace
      dsimp only
      split
      · refine wp_mono (ih _ succeeded _ hack₁ hsucc₁) (fun out w' h => ?_)
          fun w' h => hext.trans h
        exact h.cons hext (List.subset_append_left _ _)
            (Or.inr ⟨_, List.mem_append_right _ List.mem_cons_self, rfl⟩)
      · split
        · next hroot =>
          have hroot := hack₁ root hroot
          refine wp_mono (ih _ _ failed hack₁ ?_) (fun out w' h => ?_) fun w' h => hext.trans h
          · intro cid hcid
            obtain hold | hnew := List.mem_append.mp hcid
            · exact hsucc₁ cid hold
            · exact List.mem_singleton.mp hnew ▸ hroot
          · exact h.cons hext (List.Subset.refl _) (Or.inl hroot)
        · refine wp_mono (ih _ succeeded _ hack₁ hsucc₁) (fun out w' h => ?_)
            fun w' h => hext.trans h
          exact h.cons hext (List.subset_append_left _ _)
            (Or.inr ⟨_, List.mem_append_right _ List.mem_cons_self, rfl⟩)

/-- What is known of a push of some roots: the acknowledgements are the remote's, and every root
that has no failure was accepted. -/
structure PushReported (w w' : FeedWorld) (roots : List String) (failed : List PushFailure)
    (result : PushResult) (acknowledged : List String) : Prop where
  extends_ : w.Extends w'
  acknowledged : ∀ cid ∈ acknowledged, Pushed w'.trace cid
  reported : ∀ cid, cid ∈ result.acknowledged ∨ cid ∈ result.succeeded → Pushed w'.trace cid
  failed : failed ⊆ result.failed
  roots : ∀ root ∈ roots, Pushed w'.trace root ∨ ∃ failure ∈ result.failed, failure.cid = root

theorem wp_pushEntries {dependencies : Dependencies String} (roots acknowledged : List String)
    (failed : List PushFailure) (hack : ∀ cid ∈ acknowledged, Pushed w.trace cid) :
    wp (pushEntries env dependencies roots acknowledged failed) w
      (fun out w' => PushReported w w' roots failed out.1 out.2) w.Extends := by
  unfold pushEntries
  refine wp_bind (wp_mono (wp_pushRoots _ acknowledged [] failed hack (by simp))
    (fun out w' h => wp_pure ?_) fun w' h => h)
  refine ⟨h.extends_, h.acknowledged, fun cid hcid => ?_, h.failed, fun root hroot => ?_⟩
  · obtain hreported | hsucceeded := hcid
    · exact h.acknowledged cid (List.mem_of_mem_filter hreported)
    · exact h.succeeded cid hsucceeded
  · exact h.roots root ((orderMessagesForAdmission_perm dependencies roots).mem_iff.mpr hroot)

theorem wp_fetchRootEntries (rootCids entries : List String) (failed : List PushFailure) :
    wp (fetchRootEntries env rootCids entries failed) w (fun _ w' => w.Extends w') w.Extends := by
  induction rootCids generalizing w entries failed with
  | nil => exact wp_pure (.refl w)
  | cons rootCid rootCids ih =>
    unfold fetchRootEntries
    refine wp_bind (wp_ask_extends (fun result w₁ hext _ => ?_) fun w' h => h)
    cases result with
    | failed failure => exact wp_mono (ih _ _) (fun _ w' h => hext.trans h) fun w' h => hext.trans h
    | fetched roots => exact wp_mono (ih _ _) (fun _ w' h => hext.trans h) fun w' h => hext.trans h

variable {feeds : Feeds} {dependencies : Dependencies String} {entry : MessagesQueryReplyEntry}

theorem wp_pushFeedEntry (hanswers : Answers env feeds) (staged acknowledged : List String)
    (hack : ∀ cid ∈ acknowledged, Pushed w.trace cid) :
    wp (pushFeedEntry env dependencies entry staged acknowledged) w
      (fun out w' => PushReported w w' [entry.cid] [] out.1 out.2) w.Extends := by
  unfold pushFeedEntry
  refine wp_bind (wp_mono (wp_fetchRootEntries _ [] []) (fun roots w₁ hext₁ => ?_) fun w' h => h)
  refine wp_bind (wp_ask (fun result hresult => ?_)
    fun e _ => hext₁.trans (w₁.extends_log _ _))
  have hext : w.Extends (w₁.log (.fetchMessageFeedEntry entry) (.ok result)) :=
    hext₁.trans (w₁.extends_log _ _)
  have hack₂ := fun cid hcid => (hack cid hcid).mono hext.trace
  cases result with
  | failed failure =>
    refine wp_mono (wp_pushEntries _ acknowledged _ hack₂) (fun out w' h => ?_) fun w' h => hext.trans h
    refine ⟨hext.trans h.extends_, h.acknowledged, h.reported, List.nil_subset _, fun root hroot => ?_⟩
    rw [List.mem_singleton.mp hroot]
    exact Or.inr ⟨_, h.failed (List.mem_append_right _ List.mem_cons_self), rfl⟩
  | fetched entries =>
    refine wp_mono (wp_pushEntries _ acknowledged _ hack₂) (fun out w' h => ?_) fun w' h => hext.trans h
    refine ⟨hext.trans h.extends_, h.acknowledged, h.reported, List.nil_subset _, fun root hroot => ?_⟩
    rw [List.mem_singleton.mp hroot]
    exact h.roots entry.cid (List.mem_append_right _ (hanswers.root w₁.trace entry entries hresult))

/-- Attribution changes what is said of a failure, not which root failed. -/
theorem attributeBlockedFeedDependency_spec (result : PushResult) (rootCid : String)
    (staged : List String) :
    (attributeBlockedFeedDependency result rootCid staged).succeeded = result.succeeded ∧
    (attributeBlockedFeedDependency result rootCid staged).acknowledged = result.acknowledged ∧
    ∀ failure ∈ result.failed,
      ∃ failure' ∈ (attributeBlockedFeedDependency result rootCid staged).failed,
        failure'.cid = failure.cid := by
  unfold attributeBlockedFeedDependency
  split
  · exact ⟨rfl, rfl, fun failure h => ⟨failure, h, rfl⟩⟩
  · refine ⟨rfl, rfl, fun failure h => ⟨_, List.mem_map_of_mem h, ?_⟩⟩
    split <;> rfl

/-- A failure that is not to be retried is on record. -/
theorem wp_applyPushFailureOutcome (failure : PushFailure) :
    wp (applyPushFailureOutcome env failure) w
      (fun retryable w' => w.Extends w' ∧ (retryable = [] → Pushed w'.trace failure.cid))
      w.Extends := by
  unfold applyPushFailureOutcome
  split
  · refine wp_bind (wp_ask_extends (fun _ w₁ hext hmem => wp_pure ⟨hext, fun _ => ?_⟩) fun w' h => h)
    exact disposed_of_mem hmem (by decide) List.mem_cons_self
  -- a terminal failure replaces the block by a dead letter
  have hterminal : ∀ w₁, w.Extends w₁ → wp (do
      ask env (.clearBlock failure.cid)
      ask env (.recordTerminalFailure failure)
      return []) w₁ (fun retryable w' => w.Extends w' ∧
        (retryable = ([] : List PushFailure) → Pushed w'.trace failure.cid)) w.Extends := by
    intro w₁ hext₁
    refine wp_bind (wp_ask_extends (fun _ w₂ hext₂ _ => ?_) fun w' h => hext₁.trans h)
    refine wp_bind (wp_ask_extends (fun _ w₃ hext₃ hmem => wp_pure ?_)
      fun w' h => hext₁.trans (hext₂.trans h))
    exact ⟨hext₁.trans (hext₂.trans hext₃), fun _ =>
      disposed_of_mem hmem (by decide) List.mem_cons_self⟩
  refine wp_bind (wp_ask_extends (fun previous w₁ hext₁ hmem => ?_) fun w' h => h)
  cases previous with
  | none =>
    dsimp only
    split
    · exact hterminal w₁ hext₁
    · exact wp_pure ⟨hext₁, by simp⟩
  | some previousBlock =>
    have hrecorded : Pushed w₁.trace failure.cid :=
      disposed_of_mem hmem (by decide) List.mem_cons_self
    dsimp only
    split
    · exact wp_pure ⟨hext₁, fun _ => hrecorded⟩
    split
    · refine wp_bind (wp_ask_extends (fun _ w₂ hext₂ _ => ?_) fun w' h => hext₁.trans h)
      exact wp_pure ⟨hext₁.trans hext₂, fun _ => hrecorded.mono hext₂.trace⟩
    split
    · exact hterminal w₁ hext₁
    · refine wp_bind (wp_ask_extends (fun _ w₂ hext₂ _ => ?_) fun w' h => hext₁.trans h)
      exact wp_pure ⟨hext₁.trans hext₂, fun _ => hrecorded.mono hext₂.trace⟩

theorem wp_applyPushFailures {acknowledged : List String} {module : Option String}
    (failures retryable : List PushFailure)
    (hack : ∀ cid ∈ acknowledged, Pushed w.trace cid) :
    wp (applyPushFailures env acknowledged module failures retryable) w
      (fun out w' => w.Extends w' ∧ (out = [] → retryable = [] ∧
        ∀ failure ∈ failures, Pushed w'.trace failure.cid)) w.Extends := by
  induction failures generalizing w retryable with
  | nil => exact wp_pure ⟨.refl w, fun h => ⟨h, by simp⟩⟩
  | cons failure failures ih =>
    unfold applyPushFailures
    split
    · next hmem =>
      refine wp_mono (ih retryable hack) (fun out w' h => ⟨h.1, fun hout => ?_⟩) fun w' h => h
      obtain ⟨hretryable, hrest⟩ := h.2 hout
      refine ⟨hretryable, fun f hf => ?_⟩
      obtain rfl | hf := List.mem_cons.mp hf
      · exact (hack _ hmem).mono h.1.trace
      · exact hrest f hf
    · refine wp_bind (wp_mono (wp_applyPushFailureOutcome _) (fun more w₁ h₁ => ?_) fun w' h => h)
      refine wp_mono (ih (retryable ++ more) fun cid hcid => (hack cid hcid).mono h₁.1.trace)
        (fun out w' h => ⟨h₁.1.trans h.1, fun hout => ?_⟩) fun w' h => h₁.1.trans h
      obtain ⟨hempty, hrest⟩ := h.2 hout
      obtain ⟨hretryable, hmore⟩ := List.append_eq_nil_iff.mp hempty
      refine ⟨hretryable, fun f hf => ?_⟩
      obtain rfl | hf := List.mem_cons.mp hf
      · exact (h₁.2 hmore).mono h.1.trace
      · exact hrest f hf

/-- An entry that counts as processed was accepted or is on record. -/
theorem wp_pushLocalFeedEntry (hanswers : Answers env feeds) (acknowledged : List String)
    (hack : ∀ cid ∈ acknowledged, Pushed w.trace cid) :
    wp (pushLocalFeedEntry env dependencies entry acknowledged) w
      (fun out w' => w.Extends w' ∧ (out.1 = .processed → Pushed w'.trace entry.cid) ∧
        ∀ cid ∈ out.2, Pushed w'.trace cid) w.Extends := by
  have hkeep : ∀ w', w.Extends w' → ∀ cid ∈ acknowledged, Pushed w'.trace cid :=
    fun w' hext cid hcid => (hack cid hcid).mono hext.trace
  unfold pushLocalFeedEntry
  refine wp_bind (wp_ask_extends (fun dead w₁ hext₁ hmem₁ => ?_) fun w' h => h)
  split
  · next hdead =>
    subst hdead
    exact wp_pure ⟨hext₁, fun _ => disposed_of_mem hmem₁ (by decide) List.mem_cons_self,
      hkeep w₁ hext₁⟩
  refine wp_bind (wp_ask_extends (fun state w₂ hext₂ hmem₂ => ?_) fun w' h => hext₁.trans h)
  have hext₂ := hext₁.trans hext₂
  split
  · next hsome =>
    obtain ⟨block, rfl⟩ := Option.isSome_iff_exists.mp hsome
    exact wp_pure ⟨hext₂, fun _ => disposed_of_mem hmem₂ (by decide) List.mem_cons_self,
      hkeep w₂ hext₂⟩
  refine wp_bind (wp_ask_extends (fun pulled w₃ hext₃ hmem₃ => ?_) fun w' h => hext₂.trans h)
  have hext₃ := hext₂.trans hext₃
  split
  · next hpulled =>
    subst hpulled
    exact wp_pure ⟨hext₃, fun _ => disposed_of_mem hmem₃ (by decide) List.mem_cons_self,
      hkeep w₃ hext₃⟩
  refine wp_bind (wp_ask_extends (fun staged w₄ hext₄ _ => ?_) fun w' h => hext₃.trans h)
  have hext₄ := hext₃.trans hext₄
  refine wp_bind (wp_mono (wp_pushFeedEntry hanswers staged acknowledged (hkeep w₄ hext₄))
    (fun out w₅ h₅ => ?_) fun w' h => hext₄.trans h)
  obtain ⟨result, acknowledged'⟩ := out
  have hext₅ := hext₄.trans h₅.extends_
  refine wp_bind (wp_shouldAbort (fun b w₆ hext₆ => ?_) fun w' h => hext₅.trans h)
  have hack₆ : ∀ cid ∈ acknowledged', Pushed w₆.trace cid :=
    fun cid hcid => (h₅.acknowledged cid hcid).mono hext₆.trace
  have hext := hext₅.trans hext₆
  split
  · exact wp_pure ⟨hext, by simp, hack₆⟩
  obtain ⟨hsucceeded, hreported, hfailed⟩ :=
    attributeBlockedFeedDependency_spec result entry.cid staged
  unfold applyPushResult
  rw [bind_assoc]
  refine wp_bind (wp_ask_extends (fun _ w₇ hext₇ _ => ?_) fun w' h => hext.trans h)
  refine wp_bind (wp_mono (wp_applyPushFailures _ [] ?_) (fun retryable w₈ h₈ => ?_)
    fun w' h => hext.trans (hext₇.trans h))
  · intro cid hcid
    rw [hsucceeded, hreported] at hcid
    have hcid : cid ∈ result.acknowledged ∨ cid ∈ result.succeeded :=
      (List.mem_append.mp hcid).imp_right List.mem_of_mem_filter
    exact (h₅.reported cid hcid).mono (hext₆.trace.trans hext₇.trace)
  have hext₈ : w₅.Extends w₈ := hext₆.trans (hext₇.trans h₈.1)
  have hack₈ : ∀ cid ∈ acknowledged', Pushed w₈.trace cid :=
    fun cid hcid => (h₅.acknowledged cid hcid).mono hext₈.trace
  split
  · next hdone =>
    refine wp_pure ⟨hext₅.trans hext₈, fun _ => ?_, hack₈⟩
    obtain hpushed | ⟨failure, hmem, hcid⟩ := h₅.roots entry.cid (List.mem_singleton.mpr rfl)
    · exact hpushed.mono hext₈.trace
    · obtain ⟨failure', hmem', hcid'⟩ := hfailed failure hmem
      obtain hnone | hretryable := hdone
      · rw [hnone] at hmem'
        cases hmem'
      · rw [← hcid, ← hcid']
        exact (h₈.2 hretryable).2 failure' hmem'
  · exact wp_pure ⟨hext₅.trans hext₈, by simp, hack₈⟩

/-- Everything before the entry at which the page stopped was processed. -/
def PageStopsAt (trace : List FeedEvent) (entries : List MessagesQueryReplyEntry)
    (failedEntry : MessagesQueryReplyEntry) : Prop :=
  ∃ done rest, entries = done ++ failedEntry :: rest ∧ ∀ entry ∈ done, Pushed trace entry.cid

theorem wp_pushLocalFeedEntries (hanswers : Answers env feeds)
    (entries : List MessagesQueryReplyEntry) (acknowledged : List String)
    (hack : ∀ cid ∈ acknowledged, Pushed w.trace cid) :
    wp (pushLocalFeedEntries env dependencies entries acknowledged) w
      (fun result w' => w.Extends w' ∧
        match result with
        | .aborted => True
        | .error _ failedEntry | .failed failedEntry _ => PageStopsAt w'.trace entries failedEntry
        | .processed => ∀ entry ∈ entries, Pushed w'.trace entry.cid) w.Extends := by
  induction entries generalizing w acknowledged with
  | nil => exact wp_pure ⟨.refl w, by simp⟩
  | cons entry entries ih =>
    unfold pushLocalFeedEntries
    refine wp_bind (wp_shouldAbort (fun b w₁ hext₁ => ?_) fun w' h => h)
    split
    · exact wp_pure ⟨hext₁, trivial⟩
    have htry : wp (tryPushLocalFeedEntry env dependencies entry acknowledged) w₁
        (fun out w' => w₁.Extends w' ∧ ∀ result more, out = .ok (result, more) →
          (result = .processed → Pushed w'.trace entry.cid) ∧
          ∀ cid ∈ more, Pushed w'.trace cid) w.Extends := by
      refine wp_tryCatch (wp_bind (wp_mono (wp_pushLocalFeedEntry hanswers acknowledged
        fun cid hcid => (hack cid hcid).mono hext₁.trace)
        (fun out w' h => wp_pure ⟨h.1, fun result more heq => ?_⟩) fun w' h => h))
        fun e w' h => wp_pure ⟨h, by simp⟩
      cases heq
      exact h.2
    refine wp_bind (wp_mono htry (fun out w₂ h₂ => ?_) fun w' h => h)
    have hext := hext₁.trans h₂.1
    have hstop : PageStopsAt w₂.trace (entry :: entries) entry := ⟨[], entries, rfl, by simp⟩
    match out with
    | .error e => exact wp_pure ⟨hext, hstop⟩
    | .ok (.aborted, _) => exact wp_pure ⟨hext, trivial⟩
    | .ok (.failed failures, _) => exact wp_pure ⟨hext, hstop⟩
    | .ok (.processed, more) =>
      obtain ⟨hentry, hmore⟩ := h₂.2 .processed more rfl
      have hentry := hentry rfl
      refine wp_mono (ih more hmore) (fun result w' h => ⟨hext.trans h.1, ?_⟩)
        fun w' h => hext.trans h
      have hextend : ∀ failedEntry, PageStopsAt w'.trace entries failedEntry →
          PageStopsAt w'.trace (entry :: entries) failedEntry := by
        rintro failedEntry ⟨done, rest, rfl, hdone⟩
        refine ⟨entry :: done, rest, rfl, fun e he => ?_⟩
        obtain rfl | he := List.mem_cons.mp he
        · exact hentry.mono h.1.trace
        · exact hdone e he
      cases result with
      | aborted => trivial
      | error e failedEntry => exact hextend failedEntry h.2
      | failed failedEntry failures => exact hextend failedEntry h.2
      | processed =>
        intro e he
        obtain rfl | he := List.mem_cons.mp he
        · exact hentry.mono h.1.trace
        · exact h.2 e he

end Pages

end EnboxDwn.Agent.SyncDurableFeedReconciler
