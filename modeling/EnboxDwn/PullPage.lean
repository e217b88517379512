import EnboxDwn.Lib.Kahn
import EnboxDwn.LogRead
import EnboxDwn.PushPage

/-! Admission of one remote feed page. Its entries are admitted in the order of their dependencies
and each is settled or quarantined. What the pages of both directions end with passes the checks of
the progress store, and the next read goes on where a page was cut. -/
namespace EnboxDwn.Agent

/-! ## Admission order -/

/-- An edge is added once, and never from an entry to itself. -/
def addDependencyEdge (edges : Nat → List Nat) (call : Nat × Nat) : Nat → List Nat :=
  if call.1 = call.2 ∨ call.2 ∈ edges call.1 then edges
  else Function.update edges call.1 (edges call.1 ++ [call.2])

def buildDependencyEdges (calls : List (Nat × Nat)) : Nat → List Nat :=
  calls.foldl addDependencyEdge fun _ => []

/-- The dependencies among a batch of messages: for each, the entry that must be admitted before
another one, in the order in which they are found. -/
abbrev Dependencies (α : Type) := (messages : List α) → List (Fin messages.length × Fin messages.length)

def orderMessagesForAdmission {α : Type} (dependencies : Dependencies α) (messages : List α) :
    List α :=
  if messages.length ≤ 1 then messages
  else
    let edges := buildDependencyEdges ((dependencies messages).map fun e => (e.1.val, e.2.val))
    (Kahn.sort messages.length edges).filterMap fun i => messages[i]?

theorem addDependencyEdge_spec {n : Nat} {edges : Nat → List Nat} {call : Nat × Nat}
    (hcall : call.2 < n) (h : ∀ u, (edges u).Nodup ∧ ∀ v ∈ edges u, v < n) (u : Nat) :
    (addDependencyEdge edges call u).Nodup ∧ ∀ v ∈ addDependencyEdge edges call u, v < n := by
  unfold addDependencyEdge
  split
  · exact h u
  · next hnew =>
    by_cases hu : u = call.1
    · subst hu
      rw [Function.update_self]
      constructor
      · refine List.nodup_append.mpr ⟨(h _).1, List.nodup_singleton _, ?_⟩
        rintro v hv _ hlast rfl
        rw [List.mem_singleton.mp hlast] at hv
        exact hnew (Or.inr hv)
      · intro v hv
        obtain hv | hv := List.mem_append.mp hv
        · exact (h _).2 v hv
        · rw [List.mem_singleton.mp hv]
          exact hcall
    · rw [Function.update_of_ne hu]
      exact h u

theorem foldl_addDependencyEdge_spec {n : Nat} {calls : List (Nat × Nat)} {edges : Nat → List Nat}
    (hcalls : ∀ c ∈ calls, c.2 < n) (h : ∀ u, (edges u).Nodup ∧ ∀ v ∈ edges u, v < n) (u : Nat) :
    (calls.foldl addDependencyEdge edges u).Nodup ∧
      ∀ v ∈ calls.foldl addDependencyEdge edges u, v < n := by
  induction calls generalizing edges with
  | nil => exact h u
  | cons c calls ih =>
    apply ih fun c' hc' => hcalls c' (List.mem_cons_of_mem _ hc')
    exact addDependencyEdge_spec (hcalls c List.mem_cons_self) h

theorem filterMap_getElem_range {α : Type} (l : List α) :
    ((List.range l.length).filterMap fun i => l[i]?) = l := by
  induction l with
  | nil => rfl
  | cons a l ih =>
    rw [List.length_cons, List.range_succ_eq_map, List.filterMap_cons]
    simp only [List.getElem?_cons_zero, List.filterMap_map, Function.comp_def, List.getElem?_cons_succ]
    rw [ih]

section Order
variable {α : Type} (dependencies : Dependencies α) (messages : List α)

/-- The one message must be admitted before the other. -/
def Precedes (i j : Nat) : Prop :=
  i ≠ j ∧ (i, j) ∈ (dependencies messages).map fun e => (e.1.val, e.2.val)

theorem mem_buildDependencyEdges {calls : List (Nat × Nat)} {u v : Nat} :
    v ∈ buildDependencyEdges calls u ↔ u ≠ v ∧ (u, v) ∈ calls := by
  induction calls using List.reverseRecOn with
  | nil => simp [buildDependencyEdges]
  | append_singleton calls c ih =>
    unfold buildDependencyEdges at ih ⊢
    rw [List.foldl_append, List.foldl_cons, List.foldl_nil, addDependencyEdge]
    generalize calls.foldl addDependencyEdge _ = edges at ih ⊢
    split
    · next hold =>
      have hc : c = (u, v) → u ≠ v → v ∈ edges u := by
        rintro rfl hne
        exact hold.resolve_left hne
      grind
    · next hnew =>
      by_cases hu : u = c.1
      · subst hu
        rw [Function.update_self]
        grind
      · rw [Function.update_of_ne hu]
        grind

theorem buildDependencyEdges_spec (u : Nat) :
    let edges := buildDependencyEdges ((dependencies messages).map fun e => (e.1.val, e.2.val))
    (edges u).Nodup ∧ ∀ v ∈ edges u, v < messages.length := by
  refine foldl_addDependencyEdge_spec (fun c hc => ?_)
    (fun _ => ⟨List.nodup_nil, fun _ hv => absurd hv List.not_mem_nil⟩) u
  obtain ⟨e, -, rfl⟩ := List.mem_map.mp hc
  exact e.2.isLt

theorem orderMessagesForAdmission_perm :
    (orderMessagesForAdmission dependencies messages).Perm messages := by
  unfold orderMessagesForAdmission
  split
  · exact .refl _
  · have hspec := buildDependencyEdges_spec dependencies messages
    have hperm := (Kahn.sort_perm (fun u => (hspec u).1) fun u => (hspec u).2).filterMap
      fun i => messages[i]?
    rwa [filterMap_getElem_range] at hperm

/-- Every message is admitted once, and one that is admitted before a message that precedes it has
preceding messages that lead into a cycle. -/
theorem orderMessagesForAdmission_ordered : ∃ order : List Nat,
    order.Perm (List.range messages.length) ∧
    orderMessagesForAdmission dependencies messages = order.filterMap (fun i => messages[i]?) ∧
    order.Pairwise fun i j =>
      Precedes dependencies messages j i → ¬ Acc (Precedes dependencies messages) i := by
  unfold orderMessagesForAdmission
  split
  · next hlength =>
    refine ⟨List.range messages.length, .refl _, (filterMap_getElem_range messages).symm, ?_⟩
    obtain hzero | hone := Nat.le_one_iff_eq_zero_or_eq_one.mp hlength
    · simp [hzero]
    · simp [hone]
  · have hspec := buildDependencyEdges_spec dependencies messages
    have hedges : ∀ u, (buildDependencyEdges _ u).Nodup := fun u => (hspec u).1
    refine ⟨_, Kahn.sort_perm hedges fun u => (hspec u).2, rfl, ?_⟩
    have hordered := Kahn.sort_ordered hedges fun u => (hspec u).2
    simp only [mem_buildDependencyEdges] at hordered
    exact hordered

end Order

/-! ## Classification -/

namespace SyncNextPullPage

inductive AdmitOutcome where
  | admitted (handledCids : List String)
  | deferred
  | failed
  deriving DecidableEq, Repr

/-- What happens to one entry: the outcome of its closure, and whether the work may continue. -/
structure Admission where
  outcome : Except Thrown AdmitOutcome
  shouldContinue : Bool

structure ClassifiedPage where
  handledCids : List String := []
  quarantine : List SyncNextQuarantineInput := []
  settled : List SyncNextSourceReceipt := []
  deriving DecidableEq

/-- The entries in the order of admission, the turn of the first one given; nothing is classified
when the work is stopped. -/
def classifyEntries (admissions : Nat → Admission) : Nat → List SyncNextPreparedFeedEntry →
    ClassifiedPage → Except Thrown (Option ClassifiedPage)
  | _, [], classified => .ok (some classified)
  | turn, prepared :: rest, classified => do
    let outcome ← (admissions turn).outcome
    if ¬ (admissions turn).shouldContinue then return none
    else
      match outcome with
      | .admitted handledCids =>
        classifyEntries admissions (turn + 1) rest { classified with
          settled := classified.settled ++ [prepared.receipt]
          handledCids := classified.handledCids ∪ handledCids }
      | _ =>
        classifyEntries admissions (turn + 1) rest { classified with
          quarantine := classified.quarantine ++
            [{ prepared.receipt with entry := prepared.entry }] }

def classifyPage (dependencies : Dependencies SyncNextPreparedFeedEntry)
    (admissions : Nat → Admission) (entries : List SyncNextPreparedFeedEntry) :
    Except Thrown (Option ClassifiedPage) :=
  classifyEntries admissions 0 (orderMessagesForAdmission dependencies entries) {}

theorem classifyEntries_disposed {admissions : Nat → Admission} {turn : Nat}
    {entries : List SyncNextPreparedFeedEntry} {start classified : ClassifiedPage}
    (h : classifyEntries admissions turn entries start = .ok (some classified)) :
    (classified.quarantine.map (·.toSyncNextSourceReceipt) ++ classified.settled).Perm
      (start.quarantine.map (·.toSyncNextSourceReceipt) ++ start.settled ++
        entries.map (·.receipt)) := by
  induction entries generalizing turn start with
  | nil =>
    cases h
    rw [List.map_nil, List.append_nil]
  | cons prepared entries ih =>
    obtain ⟨outcome, -, h⟩ := bind_eq_ok h
    split at h
    · cases h
    · split at h
      · refine (ih h).trans ?_
        dsimp only [List.map_cons]
        rw [← List.append_assoc, List.append_assoc _ [prepared.receipt]]
        exact .refl _
      · refine (ih h).trans ?_
        dsimp only [List.map_cons]
        rw [List.map_append, List.append_assoc, List.append_assoc, List.append_assoc]
        apply List.Perm.append_left
        rw [List.map_singleton, List.singleton_append, List.map_cons]
        exact List.perm_middle.symm

/-- Every entry of the page is settled or quarantined. -/
theorem classifyPage_disposed {dependencies : Dependencies SyncNextPreparedFeedEntry}
    {admissions : Nat → Admission} {entries : List SyncNextPreparedFeedEntry}
    {classified : ClassifiedPage}
    (h : classifyPage dependencies admissions entries = .ok (some classified)) :
    (classified.quarantine.map (·.toSyncNextSourceReceipt) ++ classified.settled).Perm
      (entries.map (·.receipt)) := by
  refine (classifyEntries_disposed h).trans ?_
  dsimp only
  rw [List.map_nil, List.nil_append, List.nil_append]
  exact (orderMessagesForAdmission_perm dependencies entries).map _

end SyncNextPullPage

/-! ## The next read -/

section Feed
variable [P : Platform]
open MessageStore

/-- A token of the log, as it is written in a reply. -/
def ProgressToken.ofLog (token : EnboxDwn.ProgressToken) : ProgressToken where
  streamId := token.streamId
  epoch := token.epoch
  position := token.position.repr
  messageCid := token.messageCid.map Subtype.val

/-- Where an event stands in the log, and the address of its message, as texts. -/
def sourceOf (event : EventLogEntry) : String × String :=
  (event.position.repr, event.messageCid.val)

/-- A reply that was answered with a page of the log. -/
structure RepliesWith (result : EventLogReadResult) (reply : MessagesQueryReply) : Prop where
  entries : ∃ entries, reply.entries = some entries ∧ (entries.map fun entry =>
    (entry.seq, entry.messageCid)) = result.events.map fun event =>
      (some (sourceOf event).1, some (sourceOf event).2)
  cursor : reply.cursor = result.cursor.map ProgressToken.ofLog

def mutated (log : Log) (calls : List StoreCall) : Log := calls.foldl (fun log call => call.apply log) log

theorem mutated_evolves (log : Log) (calls : List StoreCall) (hlog : log.Positioned) :
    log.Evolves (mutated log calls) ∧ (mutated log calls).Positioned := by
  induction calls generalizing log with
  | nil => exact ⟨.refl log, hlog⟩
  | cons call calls ih =>
    obtain ⟨hevolves, hpositioned⟩ := ih (call.apply log) (StoreCall.positioned_apply hlog call)
    exact ⟨(StoreCall.evolves_apply log call).trans hevolves, hpositioned⟩

omit P in
/-- The part of a rising list after its first elements is what lies beyond the last of them. -/
theorem drop_eq_filter {α : Type} {f : α → Nat} {l : List α} (h : l.Pairwise fun a b => f a < f b)
    {k : Nat} {x : α} (hx : x ∈ (l.take k).getLast?) : l.drop k = l.filter fun y => f x < f y := by
  obtain ⟨front, hfront⟩ := List.getLast?_eq_some_iff.mp hx
  have hsplit : l = front ++ [x] ++ l.drop k := by
    rw [← hfront, List.take_append_drop]
  rw [hsplit, List.pairwise_append] at h
  have hdrop : ∀ y ∈ l.drop k, f x < f y := fun y hy => h.2.2 x (by simp) y hy
  have htake : ∀ y ∈ front ++ [x], ¬ f x < f y := by
    intro y hy
    obtain hy | hy := List.mem_append.mp hy
    · have := (List.pairwise_append.mp h.1).2.2 y hy x (by simp)
      omega
    · rw [List.mem_singleton.mp hy]
      omega
  conv_rhs => rw [hsplit]
  rw [List.filter_append, List.filter_eq_nil_iff.mpr (by simpa using htake), List.nil_append]
  symm
  rw [List.filter_eq_self]
  simpa using hdrop

omit P in
theorem filter_le_isPrefix {α : Type} {f : α → Nat} {l : List α}
    (h : l.Pairwise fun a b => f a < f b) (c : Nat) : (l.filter fun a => f a ≤ c) <+: l := by
  induction l with
  | nil => exact List.nil_prefix
  | cons a l ih =>
    obtain ⟨ha, hl⟩ := List.pairwise_cons.mp h
    rw [List.filter_cons]
    split
    · exact List.cons_prefix_cons.mpr ⟨rfl, ih hl⟩
    · next hnot =>
      have hafter : ¬ f a ≤ c := by simpa using hnot
      rw [List.filter_eq_nil_iff.mpr]
      · exact List.nil_prefix
      · intro b hb
        have := ha b hb
        simp only [decide_eq_true_eq]
        omega

section Resume
variable {domain : StreamDomain} {log : Log} {cursor : Option EnboxDwn.ProgressToken}
  {filters : Option (List Filter)} {result : EventLogReadResult} {limit : Option Int}

theorem resumable_of_logRead (h : logRead domain log cursor limit filters = .ok result) :
    Resumable domain log cursor ∧
      FilterUtility.assertValidSubtreeFilters (filters.getD []) = .ok () := by
  obtain ⟨_, hfilters, h⟩ := bind_eq_ok h
  obtain ⟨_, hvalid, -⟩ := bind_eq_ok h
  refine ⟨fun token htoken => ?_, hfilters⟩
  subst htoken
  have hvalid : validateCursor domain log.head log token = .ok () := hvalid
  unfold validateCursor at hvalid
  split at hvalid
  · next hnone => exact hnone
  · cases hvalid

theorem rising_events (hlog : log.Positioned) (selected : Row → Bool) :
    (log.rows.filter selected).Pairwise fun a b => a.seq < b.seq :=
  (List.pairwise_map.mp hlog.rising).sublist List.filter_sublist

/-- The events beyond a position, which the page was read up to, come first on the next page. -/
theorem drop_isPrefix (hlog : log.Positioned) {n : Nat} (hpos : 0 < n)
    (hread : logRead domain log cursor (some n) filters = .ok result) {k : Nat}
    {event : EventLogEntry} (hevent : event ∈ (result.events.take k).getLast?)
    {token : EnboxDwn.ProgressToken} (htoken : token.position = event.position)
    {next : EventLogReadResult}
    (hnext : logRead domain log (some token) (some n) filters = .ok next) :
    result.events.drop k <+: next.events := by
  have hpage := pageOf_logRead hlog hread
  have hpage' := pageOf_logRead hlog hnext
  generalize hrows : (log.rows.filter fun r => selects filters r = true ∧
    event.position < r.seq) = rows
  have hrising : rows.Pairwise fun a b => a.seq < b.seq := by
    rw [← hrows]
    exact rising_events hlog _
  have hposition : positionOf (some token) = event.position := htoken
  have hthis : result.events.Pairwise fun a b => a.position < b.position := by
    rw [hpage.events, List.pairwise_map]
    exact rising_events hlog _
  have hmem : event ∈ result.events := List.mem_of_mem_take (List.mem_of_getLast? hevent)
  rw [hpage.events] at hmem
  obtain ⟨r, hr, rfl⟩ := List.mem_map.mp hmem
  have hafter : positionOf cursor < (readEventFromLogEntry r).position ∧
      (readEventFromLogEntry r).position ≤ positionOf result.cursor :=
    (of_decide_eq_true (List.mem_filter.mp hr).2).2
  have hdrop : result.events.drop k =
      (rows.filter fun r => r.seq ≤ positionOf result.cursor).map readEventFromLogEntry := by
    rw [drop_eq_filter hthis hevent, hpage.events, List.filter_map, ← hrows, List.filter_filter,
      List.filter_filter]
    congr 1
    apply List.filter_congr
    intro r' _
    rw [Bool.eq_iff_iff]
    simp only [Function.comp_apply, Bool.and_eq_true, decide_eq_true_eq]
    constructor
    · rintro ⟨hbeyond, hselected, -, hle⟩
      exact ⟨hle, hselected, hbeyond⟩
    · rintro ⟨hle, hselected, hbeyond⟩
      exact ⟨hbeyond, hselected, lt_trans hafter.1 hbeyond, hle⟩
  have hevents : next.events =
      (rows.filter fun r => r.seq ≤ positionOf next.cursor).map readEventFromLogEntry := by
    rw [hpage'.events, hposition, ← hrows, List.filter_filter]
    congr 1
    apply List.filter_congr
    intro r' _
    rw [Bool.eq_iff_iff]
    simp only [Bool.and_eq_true, decide_eq_true_eq]
    tauto
  have hleft : result.events.drop k <+: rows.map readEventFromLogEntry := by
    rw [hdrop]
    exact (filter_le_isPrefix hrising _).map _
  have hright : next.events <+: rows.map readEventFromLogEntry := by
    rw [hevents]
    exact (filter_le_isPrefix hrising _).map _
  apply List.prefix_of_prefix_length_le hleft hright
  obtain ⟨_, -, hread⟩ := bind_eq_ok hread
  obtain ⟨_, -, hnext⟩ := bind_eq_ok hnext
  obtain hdrained | hfull := full_logPage hpos hnext
  · -- a drained page holds every row up to the head, and no page goes beyond it
    rw [hdrop, hevents, List.length_map, List.length_map]
    apply List.Sublist.length_le
    apply List.monotone_filter_right
    intro r' hle
    have hhead := hpage'.drained hdrained
    have hbounded := hpage.bounded
    have hissued : (readEventFromLogEntry r).position ≤ log.head :=
      (hlog.issued r (List.mem_of_mem_filter hr)).2
    have hle : r'.seq ≤ positionOf result.cursor := of_decide_eq_true hle
    exact decide_eq_true (by omega)
  · rw [List.length_drop]
    have := length_logPage hread
    omega

/-- What a read from the token returns, whatever happened to the log in between. -/
structure ResumesAfter (domain : StreamDomain) (log : Log) (filters : Option (List Filter))
    (attempted unattempted : List EventLogEntry) (token : EnboxDwn.ProgressToken) : Prop where
  /-- No attempted receipt is repeated, and no row up to the new cursor is skipped. -/
  later : ∀ calls, ∃ next, logRead domain (mutated log calls) (some token)
      (some syncNextPageSize) filters = .ok next ∧
    PageOf domain (mutated log calls).head (mutated log calls) filters (some token) next ∧
    ∀ event ∈ next.events, ∀ done ∈ attempted, done.position < event.position
  /-- The unattempted receipts come first, in their order. -/
  unchanged : ∀ next, logRead domain log (some token) (some syncNextPageSize) filters = .ok next →
    unattempted <+: next.events

theorem resumesAfter (hlog : log.Positioned)
    (hfilters : FilterUtility.assertValidSubtreeFilters (filters.getD []) = .ok ())
    {attempted unattempted : List EventLogEntry} {token : EnboxDwn.ProgressToken}
    (hresumable : Resumable domain log (some token))
    (hattempted : ∀ done ∈ attempted, done.position ≤ token.position)
    (hunchanged : ∀ next, logRead domain log (some token) (some syncNextPageSize) filters =
      .ok next → unattempted <+: next.events) :
    ResumesAfter domain log filters attempted unattempted token where
  later calls := by
    obtain ⟨hevolves, hpositioned⟩ := mutated_evolves log calls hlog
    obtain ⟨next, hnext⟩ : ∃ next, logRead domain (mutated log calls) (some token)
        (some syncNextPageSize) filters = .ok next :=
      logRead_returns hpositioned (hresumable.evolves hlog hevolves) hfilters
    have hpage := pageOf_logRead hpositioned hnext
    refine ⟨next, hnext, hpage, fun event hevent done hdone => ?_⟩
    rw [hpage.events] at hevent
    obtain ⟨r, hr, rfl⟩ := List.mem_map.mp hevent
    have hbeyond : token.position < (readEventFromLogEntry r).position :=
      (of_decide_eq_true (List.mem_filter.mp hr).2).2.1
    have := hattempted done hdone
    omega
  unchanged := hunchanged

/-- The cursor after an event of the page. -/
theorem resumable_event (hlog : log.Positioned)
    (hread : logRead domain log cursor limit filters = .ok result) {event : EventLogEntry}
    (hevent : event ∈ result.events) :
    Resumable domain log (some (buildToken domain event.position (some event.messageCid))) := by
  have hpage := pageOf_logRead hlog hread
  rw [hpage.events] at hevent
  obtain ⟨r, hr, rfl⟩ := List.mem_map.mp hevent
  have hrow := List.mem_of_mem_filter hr
  intro token htoken
  cases htoken
  refine validateCursorPosition_eq_none.mpr ⟨rfl, (hlog.issued r hrow).2, ?_⟩
  intro c c' hc hc'
  obtain ⟨r', hr', hseq, rfl⟩ := getMessageCidAtPosition_eq_some hc'
  have hsame : r' = r := List.inj_on_of_nodup_map (hlog.rising.imp fun h => h.ne) hr' hrow hseq
  rw [hsame]
  exact Option.some.inj hc

variable {label target : String} {reply : MessagesQueryReply}
  {page page' : SyncNextPreparedFeedPage} {entryCount : Nat}

theorem receipts_of_reply (hreply : RepliesWith result reply)
    {previous : Option ProgressToken}
    (hprepare : prepareSyncNextFeedPage label previous reply target = .ok page) :
    (page.entries.map fun p => (p.receipt.source.position, p.receipt.messageCid)) =
      result.events.map sourceOf := by
  obtain ⟨hprepared, -, hentries, -⟩ := prepareSyncNextFeedPage_eq_ok hprepare
  obtain ⟨entries, hreplied, hevents⟩ := hreply.entries
  rw [hreplied, Option.some.injEq] at hentries
  subst hentries
  rw [List.map_map] at hevents
  have hinj : Function.Injective fun x : String × String => (some x.1, some x.2) := by
    intro x y hxy
    simpa [Prod.ext_iff] using hxy
  apply List.map_injective_iff.mpr hinj
  rw [List.map_map, List.map_map]
  refine Eq.trans ?_ hevents
  apply List.map_congr_left
  intro p hp
  have hp := hprepared.entries p hp
  simp only [Function.comp_apply]
  rw [hp.seq, hp.cid]

/-- Where a page is cut, the next read goes on with the first receipt that was not attempted. -/
theorem slice_resumes (hlog : log.Positioned)
    (hread : logRead domain log cursor (some syncNextPageSize) filters = .ok result)
    (hreply : RepliesWith result reply)
    (hprepare : prepareSyncNextFeedPage label (cursor.map ProgressToken.ofLog) reply target =
      .ok page)
    (hslice : sliceSyncNextFeedPage page entryCount = some page') :
    ∃ token, page'.checkpoint = ProgressToken.ofLog token ∧
      ResumesAfter domain log filters (result.events.take entryCount)
        (result.events.drop entryCount) token := by
  obtain ⟨hprepared, hcursor, -⟩ := prepareSyncNextFeedPage_eq_ok hprepare
  obtain ⟨hresumable, hfilters⟩ := resumable_of_logRead hread
  have hpage := pageOf_logRead hlog hread
  have hsources := receipts_of_reply hreply hprepare
  rw [hreply.cursor] at hcursor
  obtain ⟨last, hlast, hcheckpoint⟩ := Option.map_eq_some_iff.mp hcursor
  have hpageResumable := hpage.resumable hlog le_rfl hresumable
  rw [hlast] at hpageResumable
  have hdomain : last.toStreamDomain = domain :=
    (validateCursorPosition_eq_none.mp (hpageResumable last rfl)).1
  have hbehind : ∀ event ∈ result.events, event.position ≤ last.position := by
    intro event hevent
    rw [hpage.events] at hevent
    obtain ⟨r, hr, rfl⟩ := List.mem_map.mp hevent
    have hle := (of_decide_eq_true (List.mem_filter.mp hr).2).2.2
    rw [hlast] at hle
    exact hle
  obtain ⟨hentries, -, ⟨rfl, hcount⟩ | ⟨-, p, hp, hplast, hpcheckpoint⟩⟩ :=
    pageReceipts_slice hprepared.receipts hslice
  · refine ⟨last, hcheckpoint.symm, resumesAfter hlog hfilters hpageResumable ?_ ?_⟩
    · exact fun event hevent => hbehind event (List.mem_of_mem_take hevent)
    · intro next _
      have hlength := congrArg List.length hsources
      rw [List.length_map, List.length_map, ← hcount] at hlength
      rw [List.drop_eq_nil_of_le hlength.symm.le]
      exact List.nil_prefix
  · -- the last attempted entry is the event before the first unattempted one
    have hlastSource : ((result.events.take entryCount).getLast?).map sourceOf =
        some (p.receipt.source.position, p.receipt.messageCid) := by
      rw [← List.getLast?_map, List.map_take, ← hsources, ← List.map_take, ← hentries,
        List.getLast?_map, hplast]
      rfl
    obtain ⟨event, hevent, hsource⟩ := Option.map_eq_some_iff.mp hlastSource
    have hmem : event ∈ result.events := List.mem_of_mem_take (List.mem_of_getLast? hevent)
    have hpprepared := hprepared.entries p hp
    refine ⟨buildToken domain event.position (some event.messageCid), ?_,
      resumesAfter hlog hfilters (resumable_event hlog hread hmem) ?_ ?_⟩
    · obtain ⟨hstream, hepoch⟩ := domain_eq_iff.mp hpprepared.behind.1
      rw [← hcheckpoint] at hstream hepoch
      obtain ⟨hposition, hcid⟩ := Prod.ext_iff.mp hsource
      rw [hpcheckpoint, ← hdomain]
      refine (ProgressToken.mk.injEq ..).mpr ⟨hstream, hepoch, hposition.symm, ?_⟩
      rw [hpprepared.named]
      exact congrArg some hcid.symm
    · intro done hdone
      obtain ⟨front, hfront⟩ := List.getLast?_eq_some_iff.mp hevent
      have hrising : result.events.Pairwise fun a b => a.position < b.position := by
        rw [hpage.events, List.pairwise_map]
        exact rising_events hlog _
      have htake := hrising.sublist (List.take_sublist entryCount result.events)
      rw [hfront, List.pairwise_append] at htake
      rw [hfront] at hdone
      obtain hdone | hdone := List.mem_append.mp hdone
      · exact (htake.2.2 done hdone event (by simp)).le
      · rw [List.mem_singleton.mp hdone]
        rfl
    · intro next hnext
      exact drop_isPrefix hlog (by decide) hread hevent rfl hnext

end Resume

end Feed

/-! ## What the store accepts -/

open SyncNextProgressStore

/-- The store takes the page with these dispositions: it is the replay of the checkpoint, which is
answered before a validation, or it is valid and moves the checkpoint on, unless nothing was
read. -/
def Acceptable (previous : Option ProgressToken) (page : SyncNextPreparedFeedPage)
    (pending settled : List SyncNextSourceReceipt) (direction : Direction) : Prop :=
  (Replays previous page ∧
      isEmptyReplay previous page.checkpoint page.pageReceipts pending settled = true) ∨
    (SyncNextProgressStore.validatePageCommit page.checkpoint page.pageReceipts pending settled
        previous direction = .ok () ∧
      (SyncNextProgressStore.canAdvance previous page.checkpoint = .ok true ∨
        SyncNextProgressStore.canAdvance previous page.checkpoint = .ok false ∧
          AtRest previous page))

section Producers
variable [P : Platform]

theorem Prepared.acceptable {previous : Option ProgressToken} {page : SyncNextPreparedFeedPage}
    (h : Prepared previous page) (hcid : ∀ m, (P.computeCid m).val ≠ "")
    {pending settled : List SyncNextSourceReceipt}
    (hperm : (pending ++ settled).Perm (page.entries.map (·.receipt))) (direction : Direction) :
    Acceptable previous page pending settled direction := by
  rw [← h.receipts] at hperm
  by_cases hreplays : Replays previous page
  · exact Or.inl ⟨hreplays, hreplays.isEmptyReplay h.receipts hperm⟩
  · exact Or.inr ⟨h.validatePageCommit hcid hperm hreplays direction, h.canAdvance⟩

omit P in
theorem sliceSyncNextFeedPage_eq_none {page : SyncNextPreparedFeedPage} {entryCount : Nat}
    (hreceipts : page.pageReceipts = page.entries.map (·.receipt))
    (hcount : entryCount ≤ page.entries.length) :
    sliceSyncNextFeedPage page entryCount = none ↔ entryCount = 0 ∧ page.entries ≠ [] := by
  unfold sliceSyncNextFeedPage
  rw [← List.length_pos_iff]
  split
  · simp only [reduceCtorEq, false_iff]
    omega
  · dsimp only
    rw [Option.map_eq_none_iff, List.getLast?_eq_none_iff, hreceipts, ← List.map_take,
      List.map_eq_nil_iff, List.take_eq_nil_iff, ← List.length_eq_zero_iff]
    omega

/-- Every page that is prepared from a reply is accepted by the store with what the classification
of either direction makes of it, however many of its receipts were attempted, and the next read
goes on after the last attempted one. -/
theorem prepared_pages_acceptable {label target : String} {previous : Option ProgressToken}
    {reply : MessagesQueryReply} {page : SyncNextPreparedFeedPage}
    (hcid : ∀ m, (P.computeCid m).val ≠ "")
    (hprepare : prepareSyncNextFeedPage label previous reply target = .ok page) :
    (∀ attempts classified,
      SyncNextPushPage.classifyPage attempts page.entries {} = .ok (some classified) →
      (sliceSyncNextFeedPage page classified.entryCount = none ↔
        classified.entryCount = 0 ∧ page.entries ≠ []) ∧
      ∀ page', sliceSyncNextFeedPage page classified.entryCount = some page' →
        Acceptable previous page' (classified.delivery.map (·.toSyncNextSourceReceipt))
          classified.settled .push) ∧
    (∀ dependencies admissions classified,
      SyncNextPullPage.classifyPage dependencies admissions page.entries = .ok (some classified) →
        Acceptable previous page (classified.quarantine.map (·.toSyncNextSourceReceipt))
          classified.settled .pull) ∧
    ∀ (domain : StreamDomain) (log : Log) (cursor : Option EnboxDwn.ProgressToken)
      (filters : Option (List Filter)) (result : EventLogReadResult), log.Positioned →
      previous = cursor.map ProgressToken.ofLog →
      MessageStore.logRead domain log cursor (some syncNextPageSize) filters = .ok result →
      RepliesWith result reply →
      ∀ entryCount page', sliceSyncNextFeedPage page entryCount = some page' →
        ∃ token, page'.checkpoint = ProgressToken.ofLog token ∧
          bigInt page'.checkpoint.position = some (token.position : Int) ∧
          ResumesAfter domain log filters (result.events.take entryCount)
            (result.events.drop entryCount) token := by
  have hprepared := (prepareSyncNextFeedPage_eq_ok hprepare).1
  refine ⟨?_, ?_, ?_⟩
  · intro attempts classified hclassify
    have hperm := SyncNextPushPage.classifyPage_disposed hclassify
    refine ⟨sliceSyncNextFeedPage_eq_none hprepared.receipts
      (SyncNextPushPage.entryCount_le hclassify), fun page' hslice => ?_⟩
    rw [← (pageReceipts_slice hprepared.receipts hslice).1] at hperm
    exact (hprepared.slice hslice).acceptable hcid hperm .push
  · intro dependencies admissions classified hclassify
    exact hprepared.acceptable hcid (SyncNextPullPage.classifyPage_disposed hclassify) .pull
  · intro domain log cursor filters result hlog hprevious hread hreply entryCount page' hslice
    subst hprevious
    obtain ⟨token, htoken, hresumes⟩ := slice_resumes hlog hread hreply hprepare hslice
    refine ⟨token, htoken, ?_, hresumes⟩
    rw [htoken]
    exact bigInt_repr token.position

end Producers

/-! ## A page that is cut, and a page that is replayed -/

/-- The platform over text, with addresses that begin with the letter of their base. -/
@[reducible] def Platform.ofMultibase : Platform :=
  { Platform.ofText with
    computeCid := fun m =>
      ⟨"b" ++ (Platform.ofText.computeCid m).val, by
        have h := (Platform.ofText.computeCid m).property
        simp_all⟩ }

local instance : Platform := Platform.ofMultibase

def draftOf (signature : String) : GenericMessage :=
  .recordsWrite
    { recordId := "note", contextId := "note",
      descriptor := { module := "notes", modulePath := "note", dataCid := "text", dataSize := 4,
                      dataFormat := "text/plain", dateCreated := "1", messageTimestamp := "1" },
      authorization := { signature, signer := "alice" } }

def draftEntry (seq signature : String) : MessagesQueryReplyEntry where
  seq := some seq
  messageCid := some ("b" ++ signature)
  isLatestBaseState := some true
  message := some (draftOf signature)

/-- Two drafts of one note. -/
def draftsReply : MessagesQueryReply where
  status := { code := 200, detail := "OK" }
  entries := some [draftEntry "3" "i", draftEntry "5" "u"]
  cursor := some (sourceAt "5" "bu").source
  drained := some true

def draftsPage : SyncNextPreparedFeedPage where
  drained := true
  entries := [⟨draftEntry "3" "i", draftOf "i", sourceAt "3" "bi"⟩,
    ⟨draftEntry "5" "u", draftOf "u", sourceAt "5" "bu"⟩]
  checkpoint := (sourceAt "5" "bu").source
  pageReceipts := [sourceAt "3" "bi", sourceAt "5" "bu"]

/-- The first draft is taken, and then the budget is spent. -/
def interruptedAttempts (turn : Nat) : SyncNextPushPage.PushAttempt where
  shouldContinue := true
  result := .ok (if turn = 0 then some { succeeded := ["bi"], failed := [] } else none)
  shouldContinueAfter := true

def interruptedPage : SyncNextPushPage.ClassifiedPushPage where
  acknowledged := 1
  blocked := none
  delivery := []
  entryCount := 1
  handledWrites := [{ recordId := "note", receipt := sourceAt "3" "bi" }]
  settled := [sourceAt "3" "bi"]

def firstDraftPage : SyncNextPreparedFeedPage where
  drained := false
  entries := [⟨draftEntry "3" "i", draftOf "i", sourceAt "3" "bi"⟩]
  checkpoint := (sourceAt "3" "bi").source
  pageReceipts := [sourceAt "3" "bi"]

/-- The page of the first draft is accepted after the page before. -/
theorem prepared_pages_acceptable_interrupted :
    prepareSyncNextFeedPage "SyncNextPushPage" (some (sourceAt "2" "ba").source) draftsReply
      "local query" = .ok draftsPage ∧
    Acceptable (some (sourceAt "2" "ba").source) firstDraftPage [] [sourceAt "3" "bi"] .push := by
  have hprepare : prepareSyncNextFeedPage "SyncNextPushPage" (some (sourceAt "2" "ba").source)
      draftsReply "local query" = .ok draftsPage := by decide
  have hcid : ∀ m, (Platform.ofMultibase.computeCid m).val ≠ "" := by
    intro m hempty
    change "b" ++ (Platform.ofText.computeCid m).val = "" at hempty
    have hlength := congrArg String.length hempty
    rw [String.length_append] at hlength
    exact absurd hlength (by simp)
  obtain ⟨hpush, -⟩ := prepared_pages_acceptable hcid hprepare
  exact ⟨hprepare, (hpush interruptedAttempts interruptedPage (by decide)).2 firstDraftPage
    (by decide)⟩

/-- A link that is caught up queries its checkpoint and gets it back. -/
def caughtUpReply : MessagesQueryReply where
  status := { code := 200, detail := "OK" }
  entries := some []
  cursor := some (sourceAt "5" "bu").source
  drained := some true

def caughtUpPage : SyncNextPreparedFeedPage where
  drained := true
  entries := []
  checkpoint := (sourceAt "5" "bu").source
  pageReceipts := []

/-- The page of a link that is caught up is prepared, but would not pass the validation. -/
theorem caughtUpPage_not_valid :
    prepareSyncNextFeedPage "SyncNextPushPage" (some (sourceAt "5" "bu").source) caughtUpReply
      "local query" = .ok caughtUpPage ∧
    SyncNextPushPage.classifyPage interruptedAttempts caughtUpPage.entries {} =
      .ok (some { acknowledged := 0, blocked := none, delivery := [], entryCount := 0,
                  handledWrites := [], settled := [] }) ∧
    sliceSyncNextFeedPage caughtUpPage 0 = some caughtUpPage ∧
    SyncNextProgressStore.validatePageCommit caughtUpPage.checkpoint caughtUpPage.pageReceipts [] []
      (some (sourceAt "5" "bu").source) .push =
        .error (.error
          "SyncNextProgressStore: push cursor CID does not match its page entry.") := by
  decide

end EnboxDwn.Agent
