import EnboxDwn.DurableEventLog
import EnboxDwn.Lib.Consumer

/-! A subscription is a consumer of the log: between commits, every step of catch-up and
of a drain is a sequence of the consumer's moves. -/
namespace EnboxDwn
open KeyValues MessageStore Consuming DurableEventLog

variable [P : Platform]

def FeedEntry.key (entry : FeedEntry) : Nat × Cid := (entry.position, entry.messageCid)

def SubscriptionEvent.key (e : SubscriptionEvent) : Nat × Cid := (e.cursor.position, e.messageCid)

def SubscriptionMessage.event? : SubscriptionMessage → Option SubscriptionEvent
  | .event e => some e
  | _ => none

namespace Subscribed
variable (domain : StreamDomain) (readLimit : Nat) (filters : Option (List Filter))

/-! ## Pages -/

/-- A page of a subscription, with the cursor it ends at. -/
structure Paged (head : Nat) (log : Log) (cursor : ProgressToken) (page : FeedPage)
    (token : ProgressToken) : Prop where
  ends : page.cursor = some token
  forward : cursor.position ≤ token.position
  drained : page.drained = true → head ≤ token.position
  entries : ∀ x, x ∈ page.events.map FeedEntry.key ↔
    (∃ r ∈ log.rows, r.seq = x.1 ∧ r.cid = x.2 ∧ selects filters r = true) ∧
      cursor.position < x.1 ∧ x.1 ≤ token.position
  rising : ((page.events.map FeedEntry.key).map Prod.fst).Pairwise (· < ·)

variable {domain readLimit filters}

theorem paged_of_readSubscriptionPage {head : Nat} {log : Log} {cursor : ProgressToken}
    {page : FeedPage} (hlog : log.Positioned)
    (h : readSubscriptionPage domain readLimit filters head log cursor = .ok page) :
    ∃ token, Paged filters head log cursor page token := by
  obtain ⟨page', hread, h⟩ := bind_eq_ok h
  have hsame : page' = page := by
    split at h
    · cases h
    · exact Except.ok.inj h
  subst hsame
  obtain ⟨_, -, hread⟩ := bind_eq_ok hread
  obtain ⟨result, hresult, hread⟩ := bind_eq_ok hread
  cases hread
  have hpage := pageOf_logPage hlog hresult
  obtain ⟨token, htoken⟩ : ∃ token, result.cursor = some token := by
    obtain heq | ⟨token, htoken, -⟩ := hpage.token
    · exact ⟨cursor, heq⟩
    · exact ⟨token, htoken⟩
  have hposition : positionOf result.cursor = token.position := by rw [htoken]; rfl
  have hkeys : (result.events.map (attachInitialWrite log)).map FeedEntry.key =
      (log.rows.filter fun r => selects filters r = true ∧
        cursor.position < r.seq ∧ r.seq ≤ token.position).map fun r => (r.seq, r.cid) := by
    rw [hpage.events, hposition, List.map_map, List.map_map]
    rfl
  refine ⟨token, htoken, ?_, ?_, ?_, ?_⟩
  · have := hpage.forward
    rwa [hposition] at this
  · have := hpage.drained
    rwa [hposition] at this
  · intro x
    dsimp only
    rw [hkeys, List.mem_map]
    constructor
    · rintro ⟨r, hr, rfl⟩
      obtain ⟨hr, hsel⟩ := List.mem_filter.mp hr
      have hsel := of_decide_eq_true hsel
      exact ⟨⟨r, hr, rfl, rfl, hsel.1⟩, hsel.2⟩
    · rintro ⟨⟨r, hr, hseq, hcid, hsel⟩, hbetween⟩
      refine ⟨r, List.mem_filter.mpr ⟨hr, decide_eq_true ⟨hsel, ?_⟩⟩, by rw [hseq, hcid]⟩
      rwa [hseq]
  · dsimp only
    rw [hkeys, List.map_map]
    exact List.pairwise_map.mpr
      ((List.pairwise_map.mp hlog.rising).sublist List.filter_sublist)

/-! ## The consumer of a subscription -/

def events (w : Subscribed) : List SubscriptionEvent :=
  w.listener.filterMap SubscriptionMessage.event?

def handed (w : Subscribed) : List (Nat × Cid) := w.events.map SubscriptionEvent.key

def position (w : Subscribed) : Nat := w.subscription.cursor.position

variable (filters) in
/-- A row with the given position and CID is live and selected. -/
def Shows (w : Subscribed) (x : Nat × Cid) : Prop :=
  ∃ r ∈ w.log.rows, r.seq = x.1 ∧ r.cid = x.2 ∧ selects filters r = true

def consumerWith (w : Subscribed) (waiting : List (Nat × Cid)) (covered : Nat) : Consumer Cid where
  handed := w.handed
  waiting := waiting
  covered := covered
  position := w.position

def upTo (position : Nat) (entries : List FeedEntry) : List (Nat × Cid) :=
  (entries.map FeedEntry.key).filter fun x => x.1 ≤ position

/-- During catch-up a page is delivered up to the frozen cursor. -/
def consumer (w : Subscribed) : Consumer Cid :=
  match w.catchUp with
  | .delivering frozenCursor d =>
    w.consumerWith (upTo frozenCursor.position d.rest)
      (min (positionOf d.page.cursor) frozenCursor.position)
  | _ =>
    match w.drain with
    | .delivering d => w.consumerWith (d.rest.map FeedEntry.key) (positionOf d.page.cursor)
    | _ => w.consumerWith [] w.position

/-- The entry the listener has was handed on, and the page has an end. -/
structure PageDelivery.Sound (handed : List (Nat × Cid)) (d : PageDelivery)
    (token : ProgressToken) : Prop where
  ends : d.page.cursor = some token
  handed : d.entry.key ∈ handed

def CatchUp.Sound (w : Subscribed) : CatchUp → Prop
  | .bounding head => w.events = [] ∧ ∀ h ∈ head, h ≤ w.log.head
  | .validating frozenCursor head =>
    w.events = [] ∧ (w.position < frozenCursor.position → frozenCursor.position ≤ w.log.head) ∧
      ∀ h ∈ head, h ≤ w.log.head
  | .reading frozenCursor readCursor head =>
    readCursor = w.subscription.cursor ∧ w.position < frozenCursor.position ∧
      frozenCursor.position ≤ head.getD w.log.head ∧ head.getD w.log.head ≤ w.log.head
  | .delivering frozenCursor d => ∃ token, PageDelivery.Sound w.handed d token ∧
    frozenCursor.position ≤ w.log.head ∧
    (d.page.drained = true → frozenCursor.position ≤ token.position) ∧
    ((d.rest.map FeedEntry.key).map Prod.fst).Pairwise (· < ·) ∧
    ∀ x ∈ d.rest.map FeedEntry.key, x.1 ≤ token.position
  | .completing => True
  | .finished => True

def Drain.Sound (w : Subscribed) : Drain → Prop
  | .reading readCursor head =>
    readCursor = w.subscription.cursor ∧ head.getD w.log.head ≤ w.log.head
  | .delivering d => ∃ token, PageDelivery.Sound w.handed d token
  | _ => True

structure Modes (w : Subscribed) : Prop where
  live : w.subscription.liveReady = true → w.catchUp = .finished
  waits : w.subscription.liveReady = false → w.drain = .idle
  draining : w.subscription.draining = true ↔ w.drain ≠ .idle

structure Sound (w : Subscribed) : Prop where
  log : w.log.Positioned
  modes : Modes w
  catchUp : CatchUp.Sound w w.catchUp
  drain : Drain.Sound w w.drain
  orderly : Orderly w.consumer

/-! ## What a step does to the consumer -/

section Moves
variable {w : Subscribed}

theorem events_deliverMessage (w : Subscribed) (message : SubscriptionMessage) :
    (w.deliverMessage message).events = w.events ++ message.event?.toList := by
  unfold events deliverMessage
  rw [List.filterMap_append]
  cases message <;> rfl

theorem handed_event (w : Subscribed) (pageCursor : ProgressToken) (entry : FeedEntry) :
    (w.deliverMessage (.event (toEvent pageCursor entry))).handed = w.handed ++ [entry.key] := by
  unfold handed
  rw [events_deliverMessage, List.map_append]
  rfl

theorem handed_eose (w : Subscribed) (cursor : ProgressToken) :
    (w.deliverMessage (.eose cursor)).handed = w.handed := by
  unfold handed
  rw [events_deliverMessage]
  simp [SubscriptionMessage.event?]

theorem consumer_of_idle (hcatchUp : ∀ f d, w.catchUp ≠ .delivering f d)
    (hdrain : ∀ d, w.drain ≠ .delivering d) : w.consumer = w.consumerWith [] w.position := by
  unfold consumer
  split
  · exact absurd ‹_› (hcatchUp _ _)
  · split
    · exact absurd ‹_› (hdrain _)
    · rfl

theorem consumer_drainOnce (hcatchUp : w.catchUp = .finished) :
    (drainOnce w).consumer = w.consumerWith [] w.position := by
  unfold drainOnce
  split
  · exact consumer_of_idle (by simp [hcatchUp]) (by simp)
  · exact consumer_of_idle (by simp [hcatchUp]) (by simp)

theorem settle_moveCursor {visible : Nat × Cid → Prop} {waiting : List (Nat × Cid)} {covered : Nat}
    (token : ProgressToken) (hcovered : token.position ≤ covered)
    (hhanded : ∀ x ∈ w.handed, x.1 ≤ token.position)
    (hwaiting : ∀ x ∈ waiting, token.position < x.1) :
    Move visible (w.consumerWith waiting covered)
      ((w.moveCursor token).consumerWith [] token.position) :=
  Move.settle token.position hcovered hhanded hwaiting

theorem moves_drainEntries (visible : Nat × Cid → Prop) {page : FeedPage}
    (pageCursor : ProgressToken) {token : ProgressToken} {entries : List FeedEntry}
    (hopen : w.subscription.closed = false) (hcatchUp : w.catchUp = .finished)
    (hends : page.cursor = some token)
    (horderly : Orderly (w.consumerWith (entries.map FeedEntry.key) token.position)) :
    Moves visible (w.consumerWith (entries.map FeedEntry.key) token.position)
      (drainEntries w page pageCursor entries).consumer := by
  unfold drainEntries
  rw [if_neg (by simp [hopen])]
  cases entries with
  | cons entry rest =>
    have hconsumer : ({ w.deliverMessage (.event (toEvent pageCursor entry)) with
        drain := .delivering { page, pageCursor, entry, rest } } : Subscribed).consumer =
        { (w.consumerWith ((entry :: rest).map FeedEntry.key) token.position) with
          handed := w.handed ++ [entry.key], waiting := rest.map FeedEntry.key } := by
      rw [← handed_event w pageCursor entry]
      simp only [consumer, deliverMessage, hcatchUp, hends]
      rfl
    dsimp only
    rw [hconsumer]
    exact .single (Move.hand rfl)
  | nil =>
    have hmove : Move visible (w.consumerWith [] token.position)
        ((w.moveCursor token).consumerWith [] token.position) := by
      refine settle_moveCursor token le_rfl (fun x hx => ?_) (by simp)
      exact horderly.bounded x (List.mem_append_left _ hx)
    simp only [hends, Option.getD_some]
    by_cases hdrained : page.drained = true
    · rw [if_pos hdrained, consumer_of_idle (by simp [moveCursor, hcatchUp]) (by simp)]
      exact .single hmove
    · have hmoved : (w.moveCursor token).catchUp = .finished := hcatchUp
      rw [if_neg hdrained, consumer_drainOnce hmoved]
      exact .single hmove

theorem upTo_eq_nil {position : Nat} {entry : FeedEntry} {rest : List FeedEntry}
    (hrising : (((entry :: rest).map FeedEntry.key).map Prod.fst).Pairwise (· < ·))
    (hbeyond : position < entry.position) : upTo position (entry :: rest) = [] := by
  unfold upTo
  rw [List.filter_eq_nil_iff]
  intro x hx hle
  have hle : x.1 ≤ position := of_decide_eq_true hle
  rw [List.map_cons, List.map_cons, List.pairwise_cons] at hrising
  rw [List.map_cons, List.mem_cons] at hx
  obtain rfl | hx := hx
  · exact absurd hle (by simpa [FeedEntry.key] using hbeyond)
  · have := hrising.1 x.1 (List.mem_map_of_mem hx)
    have hfirst : entry.key.1 = entry.position := rfl
    omega

theorem moves_finishCatchUp {visible : Nat × Cid → Prop} {waiting : List (Nat × Cid)} {covered : Nat}
    {frozenCursor : ProgressToken} (hopen : w.subscription.closed = false) (hdrain : w.drain = .idle)
    (hcovered : frozenCursor.position ≤ covered)
    (hhanded : ∀ x ∈ w.handed, x.1 ≤ frozenCursor.position)
    (hwaiting : ∀ x ∈ waiting, frozenCursor.position < x.1) :
    Moves visible (w.consumerWith waiting covered) (finishCatchUp w frozenCursor).consumer := by
  have hconsumer : (finishCatchUp w frozenCursor).consumer =
      (w.moveCursor frozenCursor).consumerWith [] frozenCursor.position := by
    unfold finishCatchUp
    rw [if_neg (by simp [moveCursor, hopen]), consumer_of_idle (by simp) (by simp [deliverMessage, moveCursor, hdrain])]
    simp only [consumerWith, Consumer.mk.injEq]
    exact ⟨handed_eose _ _, trivial, rfl, rfl⟩
  rw [hconsumer]
  exact .single (settle_moveCursor frozenCursor hcovered hhanded hwaiting)

theorem moves_catchUpEntries (visible : Nat × Cid → Prop) {page : FeedPage}
    (pageCursor : ProgressToken) {frozenCursor token : ProgressToken} {entries : List FeedEntry}
    (hopen : w.subscription.closed = false) (hdrain : w.drain = .idle)
    (hends : page.cursor = some token)
    (hdrained : page.drained = true → frozenCursor.position ≤ token.position)
    (hrising : ((entries.map FeedEntry.key).map Prod.fst).Pairwise (· < ·))
    (hbound : ∀ x ∈ entries.map FeedEntry.key, x.1 ≤ token.position)
    (horderly : Orderly (w.consumerWith (upTo frozenCursor.position entries)
      (min token.position frozenCursor.position))) :
    Moves visible (w.consumerWith (upTo frozenCursor.position entries)
      (min token.position frozenCursor.position))
      (catchUpEntries w frozenCursor page pageCursor entries).consumer := by
  have hhanded : ∀ x ∈ w.handed, x.1 ≤ min token.position frozenCursor.position :=
    fun x hx => horderly.bounded x (List.mem_append_left _ hx)
  unfold catchUpEntries
  rw [if_neg (by simp [hopen])]
  cases entries with
  | cons entry rest =>
    dsimp only
    by_cases hbeyond : frozenCursor.position < entry.position
    · rw [if_pos hbeyond, upTo_eq_nil hrising hbeyond]
      have hentry : entry.position ≤ token.position := hbound entry.key (by simp)
      unfold finishCatchUpPage
      rw [if_pos (by simp)]
      exact moves_finishCatchUp hopen hdrain (by omega)
        (fun x hx => (hhanded x hx).trans (min_le_right _ _)) (by simp)
    · rw [if_neg hbeyond]
      have hfirst : upTo frozenCursor.position (entry :: rest) =
          entry.key :: upTo frozenCursor.position rest := by
        unfold upTo
        rw [List.map_cons, List.filter_cons_of_pos]
        exact decide_eq_true (not_lt.mp hbeyond)
      have hconsumer : ({ w.deliverMessage (.event (toEvent pageCursor entry)) with
          catchUp := .delivering frozenCursor { page, pageCursor, entry, rest } } :
            Subscribed).consumer =
          { (w.consumerWith (upTo frozenCursor.position (entry :: rest))
              (min token.position frozenCursor.position)) with
            handed := w.handed ++ [entry.key], waiting := upTo frozenCursor.position rest } := by
        rw [← handed_event w pageCursor entry]
        simp only [consumer, deliverMessage, hends]
        rfl
      rw [hconsumer]
      exact .single (Move.hand hfirst)
  | nil =>
    unfold finishCatchUpPage
    simp only [hends, Option.getD_some, Bool.false_or]
    by_cases hfinish : page.drained = true ∨ frozenCursor.position ≤ token.position
    · rw [if_pos (by simpa using hfinish)]
      have hfrozen : frozenCursor.position ≤ token.position := by
        obtain h | h := hfinish
        · exact hdrained h
        · exact h
      exact moves_finishCatchUp hopen hdrain (by omega)
        (fun x hx => (hhanded x hx).trans (min_le_right _ _)) (by simp [upTo])
    · rw [if_neg (by simpa using hfinish)]
      push Not at hfinish
      unfold catchUpOnce
      rw [if_pos (by simp [moveCursor, hopen, hfinish.2]),
        consumer_of_idle (by simp) (by simp [moveCursor, hdrain])]
      exact .single (settle_moveCursor token (by omega)
        (fun x hx => (hhanded x hx).trans (min_le_left _ _)) (by simp [upTo]))

end Moves

/-! ## Every step keeps a subscription sound -/

section Steps
variable {w : Subscribed}

structure AtDrain (w : Subscribed) : Prop where
  log : w.log.Positioned
  live : w.subscription.liveReady = true
  finished : w.catchUp = .finished
  draining : w.subscription.draining = true

structure AtCatchUp (w : Subscribed) : Prop where
  log : w.log.Positioned
  live : w.subscription.liveReady = false
  idle : w.drain = .idle
  draining : w.subscription.draining = false

theorem AtDrain.sound (h : AtDrain w) (hdrain : w.drain ≠ .idle) (hsound : Drain.Sound w w.drain)
    (horderly : Orderly w.consumer) : Sound w where
  log := h.log
  modes := ⟨fun _ => h.finished, fun hlive => by simp [h.live] at hlive,
    ⟨fun _ => hdrain, fun _ => h.draining⟩⟩
  catchUp := by
    rw [h.finished]
    trivial
  drain := hsound
  orderly := horderly

theorem AtCatchUp.sound (h : AtCatchUp w) (hsound : CatchUp.Sound w w.catchUp)
    (horderly : Orderly w.consumer) : Sound w where
  log := h.log
  modes := ⟨fun hlive => by simp [h.live] at hlive, fun _ => h.idle,
    ⟨fun hdraining => by simp [h.draining] at hdraining, fun hidle => absurd h.idle hidle⟩⟩
  catchUp := hsound
  drain := by
    rw [h.idle]
    trivial
  orderly := horderly

theorem Sound.atDrain (h : Sound w) (hdrain : w.drain ≠ .idle) : AtDrain w := by
  have hlive : w.subscription.liveReady = true := by
    by_contra hlive
    exact hdrain (h.modes.waits (by simpa using hlive))
  exact ⟨h.log, hlive, h.modes.live hlive, h.modes.draining.mpr hdrain⟩

theorem Sound.atCatchUp (h : Sound w) (hcatchUp : w.catchUp ≠ .finished) : AtCatchUp w := by
  have hlive : w.subscription.liveReady = false := by
    by_contra hlive
    exact hcatchUp (h.modes.live (by simpa using hlive))
  have hidle := h.modes.waits hlive
  refine ⟨h.log, hlive, hidle, ?_⟩
  by_contra hdraining
  exact h.modes.draining.mp (by simpa using hdraining) hidle

theorem sound_drainOnce (h : AtDrain w) (horderly : Orderly (w.consumerWith [] w.position)) :
    Sound (drainOnce w) := by
  have horderly' : Orderly (drainOnce w).consumer := by
    rw [consumer_drainOnce h.finished]
    exact horderly
  unfold drainOnce at horderly' ⊢
  by_cases hclosed : w.subscription.closed = true
  · rw [if_pos hclosed] at horderly' ⊢
    exact AtDrain.sound ⟨h.log, h.live, h.finished, h.draining⟩ (by simp) trivial horderly'
  · rw [if_neg hclosed] at horderly' ⊢
    exact AtDrain.sound ⟨h.log, h.live, h.finished, h.draining⟩ (by simp) ⟨rfl, le_rfl⟩ horderly'

theorem AtDrain.moveCursor (h : AtDrain w) (cursor : ProgressToken) : AtDrain (w.moveCursor cursor) :=
  ⟨h.log, h.live, h.finished, h.draining⟩

theorem AtCatchUp.moveCursor (h : AtCatchUp w) (cursor : ProgressToken) :
    AtCatchUp (w.moveCursor cursor) :=
  ⟨h.log, h.live, h.idle, h.draining⟩

theorem sound_drainEntries {page : FeedPage} {pageCursor token : ProgressToken}
    {entries : List FeedEntry} (h : AtDrain w) (hopen : w.subscription.closed = false)
    (hends : page.cursor = some token)
    (horderly : Orderly (w.consumerWith (entries.map FeedEntry.key) token.position)) :
    Sound (drainEntries w page pageCursor entries) := by
  have horderly' := (moves_drainEntries (fun _ => True) pageCursor
    hopen h.finished hends horderly).orderly horderly
  unfold drainEntries at horderly' ⊢
  rw [if_neg (by simp [hopen])] at horderly' ⊢
  cases entries with
  | cons entry rest =>
    refine AtDrain.sound ⟨h.log, h.live, h.finished, h.draining⟩ (by simp)
      ⟨token, hends, ?_⟩ horderly'
    have hhanded := handed_event w pageCursor entry
    have hmem : entry.key ∈ w.handed ++ [entry.key] := by simp
    rw [← hhanded] at hmem
    exact hmem
  | nil =>
    simp only [hends, Option.getD_some] at horderly' ⊢
    by_cases hdrained : page.drained = true
    · rw [if_pos hdrained] at horderly' ⊢
      exact AtDrain.sound ⟨h.log, h.live, h.finished, h.draining⟩ (by simp) trivial horderly'
    · rw [if_neg hdrained] at horderly' ⊢
      rw [consumer_drainOnce (h.moveCursor token).finished] at horderly'
      exact sound_drainOnce (h.moveCursor token) horderly'

theorem sound_finishCatchUp {frozenCursor : ProgressToken} (h : AtCatchUp w)
    (hopen : w.subscription.closed = false)
    (horderly : Orderly (finishCatchUp w frozenCursor).consumer) :
    Sound (finishCatchUp w frozenCursor) := by
  have hopen' : (w.moveCursor frozenCursor).subscription.closed = false := hopen
  unfold finishCatchUp at horderly ⊢
  rw [if_neg (by simp [hopen'])] at horderly ⊢
  exact AtCatchUp.sound ⟨h.log, h.live, h.idle, h.draining⟩ trivial horderly

theorem sound_catchUpOnce {frozenCursor : ProgressToken} (h : AtCatchUp w)
    (hopen : w.subscription.closed = false)
    (hfrozen : w.position < frozenCursor.position → frozenCursor.position ≤ w.log.head)
    (horderly : Orderly (catchUpOnce w frozenCursor).consumer) :
    Sound (catchUpOnce w frozenCursor) := by
  unfold catchUpOnce at horderly ⊢
  by_cases hread : w.position < frozenCursor.position
  · rw [if_pos (by simpa [hopen, position] using hread)] at horderly ⊢
    exact AtCatchUp.sound ⟨h.log, h.live, h.idle, h.draining⟩
      ⟨rfl, hread, hfrozen hread, le_rfl⟩ horderly
  · rw [if_neg (by simpa [hopen, position] using hread)] at horderly ⊢
    exact sound_finishCatchUp h hopen horderly

theorem sound_finishCatchUpPage {frozenCursor : ProgressToken} {page : FeedPage} {reached : Bool}
    (h : AtCatchUp w) (hopen : w.subscription.closed = false)
    (hfrozen : frozenCursor.position ≤ w.log.head)
    (horderly : Orderly (finishCatchUpPage w frozenCursor page reached).consumer) :
    Sound (finishCatchUpPage w frozenCursor page reached) := by
  unfold finishCatchUpPage at horderly ⊢
  dsimp only at horderly ⊢
  by_cases hfinish : (reached || page.drained || decide (frozenCursor.position ≤
      (page.cursor.getD w.subscription.cursor).position)) = true
  · rw [if_pos hfinish] at horderly ⊢
    exact sound_finishCatchUp h hopen horderly
  · rw [if_neg hfinish] at horderly ⊢
    exact sound_catchUpOnce (h.moveCursor _) hopen (fun _ => hfrozen) horderly

theorem sound_catchUpEntries {page : FeedPage} {frozenCursor pageCursor token : ProgressToken}
    {entries : List FeedEntry} (h : AtCatchUp w) (hopen : w.subscription.closed = false)
    (hends : page.cursor = some token) (hfrozen : frozenCursor.position ≤ w.log.head)
    (hdrained : page.drained = true → frozenCursor.position ≤ token.position)
    (hrising : ((entries.map FeedEntry.key).map Prod.fst).Pairwise (· < ·))
    (hbound : ∀ x ∈ entries.map FeedEntry.key, x.1 ≤ token.position)
    (horderly : Orderly (w.consumerWith (upTo frozenCursor.position entries)
      (min token.position frozenCursor.position))) :
    Sound (catchUpEntries w frozenCursor page pageCursor entries) := by
  have horderly' := (moves_catchUpEntries (fun _ => True) pageCursor
    hopen h.idle hends hdrained hrising hbound horderly).orderly horderly
  unfold catchUpEntries at horderly' ⊢
  rw [if_neg (by simp [hopen])] at horderly' ⊢
  cases entries with
  | cons entry rest =>
    dsimp only at horderly' ⊢
    by_cases hbeyond : frozenCursor.position < entry.position
    · rw [if_pos hbeyond] at horderly' ⊢
      exact sound_finishCatchUpPage h hopen hfrozen horderly'
    · rw [if_neg hbeyond] at horderly' ⊢
      refine AtCatchUp.sound ⟨h.log, h.live, h.idle, h.draining⟩
        ⟨token, ⟨hends, ?_⟩, hfrozen, hdrained, ?_, ?_⟩ horderly'
      · have hmem : entry.key ∈ w.handed ++ [entry.key] := by simp
        rw [← handed_event w pageCursor entry] at hmem
        exact hmem
      · rw [List.map_cons, List.map_cons, List.pairwise_cons] at hrising
        exact hrising.2
      · intro x hx
        exact hbound x (by rw [List.map_cons]; exact List.mem_cons_of_mem _ hx)
  | nil => exact sound_finishCatchUpPage h hopen hfrozen horderly'

variable (filters) in
structure Advance (w w' : Subscribed) : Prop where
  sound : Sound w'
  moves : Moves (w.Shows filters) w.consumer w'.consumer

theorem advance_of_consumer_eq {w' : Subscribed} (hsound : w.consumer = w'.consumer → Sound w')
    (heq : w.consumer = w'.consumer) : Advance filters w w' :=
  ⟨hsound heq, heq ▸ .refl⟩

theorem advance_commit (h : Sound w) (call : StoreCall) :
    Advance filters w { w with log := call.apply w.log } := by
  have hhead := (StoreCall.evolves_apply w.log call).head_le
  refine advance_of_consumer_eq (fun heq => ⟨StoreCall.positioned_apply h.log call,
    ⟨h.modes.live, h.modes.waits, h.modes.draining⟩, ?_, ?_, heq ▸ h.orderly⟩) rfl
  · have hcatchUp := h.catchUp
    dsimp only
    cases hphase : w.catchUp with
    | bounding head =>
      rw [hphase] at hcatchUp
      exact ⟨hcatchUp.1, fun k hk => (hcatchUp.2 k hk).trans hhead⟩
    | validating frozenCursor head =>
      rw [hphase] at hcatchUp
      exact ⟨hcatchUp.1, fun hlt => (hcatchUp.2.1 hlt).trans hhead,
        fun k hk => (hcatchUp.2.2 k hk).trans hhead⟩
    | reading frozenCursor readCursor head =>
      rw [hphase] at hcatchUp
      obtain ⟨hcursor, hlt, hfrozen, hle⟩ := hcatchUp
      cases head with
      | none => exact ⟨hcursor, hlt, hfrozen.trans hhead, le_rfl⟩
      | some k => exact ⟨hcursor, hlt, hfrozen, le_trans hle hhead⟩
    | delivering frozenCursor d =>
      rw [hphase] at hcatchUp
      obtain ⟨token, hd, hfrozen, hrest⟩ := hcatchUp
      exact ⟨token, ⟨hd.ends, hd.handed⟩, hfrozen.trans hhead, hrest⟩
    | completing => trivial
    | finished => trivial
  · have hdrain := h.drain
    dsimp only
    cases hphase : w.drain with
    | reading readCursor head =>
      rw [hphase] at hdrain
      cases head with
      | none => exact ⟨hdrain.1, le_rfl⟩
      | some k => exact ⟨hdrain.1, le_trans hdrain.2 hhead⟩
    | delivering d =>
      rw [hphase] at hdrain
      obtain ⟨token, hd⟩ := hdrain
      exact ⟨token, hd.ends, hd.handed⟩
    | idle => trivial
    | settled => trivial
    | failed => trivial
    | retrying => trivial

theorem advance_drainOnce (h : AtDrain w) (horderly : Orderly w.consumer)
    (hidle : ∀ d, w.drain ≠ .delivering d) : Advance filters w (drainOnce w) := by
  have hconsumer : w.consumer = w.consumerWith [] w.position :=
    consumer_of_idle (by simp [h.finished]) hidle
  rw [hconsumer] at horderly
  exact ⟨sound_drainOnce h horderly, by rw [consumer_drainOnce h.finished, hconsumer]⟩

theorem Advance.of_same {w' w'' : Subscribed} (h : Advance filters w' w'')
    (hconsumer : w.consumer = w'.consumer) (hlog : w.log = w'.log) : Advance filters w w'' where
  sound := h.sound
  moves := by
    have hshows : w.Shows filters = w'.Shows filters := by
      unfold Shows
      rw [hlog]
    rw [hconsumer, hshows]
    exact h.moves

theorem Sound.request (h : Sound w) (requested : Bool) :
    Sound { w with subscription := { w.subscription with redrainRequested := requested } } :=
  ⟨h.log, ⟨h.modes.live, h.modes.waits, h.modes.draining⟩, h.catchUp, h.drain, h.orderly⟩

theorem advance_scheduleDrain (h : Sound w) : Advance filters w (scheduleDrain w) := by
  unfold scheduleDrain
  by_cases hlive : w.subscription.liveReady = true
  · rw [if_pos hlive]
    unfold drainSubscription
    by_cases hdraining : w.subscription.draining = true
    · rw [if_pos hdraining]
      exact advance_of_consumer_eq (fun _ => h.request true) rfl
    · rw [if_neg hdraining]
      have hidle : w.drain = .idle := by
        by_contra hidle
        exact hdraining (h.modes.draining.mpr hidle)
      exact (advance_drainOnce
        (w := { w with subscription :=
          { w.subscription with draining := true, redrainRequested := false } })
        ⟨h.log, hlive, h.modes.live hlive, rfl⟩ h.orderly (by simp [hidle])).of_same rfl rfl
  · rw [if_neg hlive]
    exact advance_of_consumer_eq (fun _ => h.request true) rfl

theorem advance_handleWake (h : Sound w) : Advance filters w (handleWake w) := by
  unfold handleWake
  by_cases hclosed : w.subscription.closed = true
  · rw [if_pos hclosed]
    exact ⟨h, .refl⟩
  · rw [if_neg hclosed]
    exact advance_scheduleDrain h

theorem advance_redrain (h : Sound w) (hdrain : w.drain ≠ .idle)
    (hidle : ∀ d, w.drain ≠ .delivering d) : Advance filters w (redrain w) := by
  have hat := h.atDrain hdrain
  unfold redrain
  by_cases hagain : (w.subscription.redrainRequested && !w.subscription.closed) = true
  · rw [if_pos hagain]
    exact (advance_drainOnce
      (w := { w with subscription := { w.subscription with redrainRequested := false } })
      ⟨hat.log, hat.live, hat.finished, hat.draining⟩ h.orderly hidle).of_same rfl rfl
  · rw [if_neg hagain]
    have hconsumer : w.consumer = w.consumerWith [] w.position :=
      consumer_of_idle (by simp [hat.finished]) hidle
    refine advance_of_consumer_eq (fun heq => ?_) ?_
    · refine ⟨h.log, ⟨fun _ => hat.finished, fun _ => rfl, by simp⟩, h.catchUp, trivial, ?_⟩
      rw [← heq]
      exact h.orderly
    · rw [hconsumer, consumer_of_idle (by simp [hat.finished]) (by simp)]
      rfl

theorem advance_drainPage {page : FeedPage} {token pageCursor : ProgressToken} {head : Nat}
    (h : AtDrain w) (hopen : w.subscription.closed = false) (horderly : Orderly w.consumer)
    (hidle : ∀ d, w.drain ≠ .delivering d)
    (hpage : Paged filters head w.log w.subscription.cursor page token) :
    Advance filters w (drainEntries w page pageCursor page.events) := by
  have hconsumer : w.consumer = w.consumerWith [] w.position :=
    consumer_of_idle (by simp [h.finished]) hidle
  rw [hconsumer] at horderly
  have hread : Move (w.Shows filters) (w.consumerWith [] w.position)
      (w.consumerWith (page.events.map FeedEntry.key) token.position) :=
    Move.read _ _ rfl hpage.forward hpage.entries hpage.rising
  have hnext := hread.orderly horderly
  refine ⟨sound_drainEntries h hopen hpage.ends hnext, ?_⟩
  rw [hconsumer]
  exact .head hread (moves_drainEntries _ pageCursor hopen h.finished hpage.ends hnext)

theorem complete_delivered (visible : Nat × Cid → Prop) {waiting : List (Nat × Cid)}
    {covered : Nat} {d : PageDelivery} {token : ProgressToken}
    (horderly : Orderly (w.consumerWith waiting covered))
    (hd : PageDelivery.Sound w.handed d token) :
    Move visible (w.consumerWith waiting covered)
      ((w.moveCursor (entryToken d.pageCursor d.entry)).consumerWith waiting covered) := by
  refine Move.complete d.entry.position (horderly.bounded _ (List.mem_append_left _ hd.handed)) ?_
  intro x hx
  have hrising := horderly.rising
  rw [List.map_append, List.pairwise_append] at hrising
  exact hrising.2.2 _ (List.mem_map_of_mem hd.handed) _ (List.mem_map_of_mem hx)

theorem advance_drainDelivered {d : PageDelivery} (h : Sound w)
    (hopen : w.subscription.closed = false) (hdrain : w.drain = .delivering d) :
    Advance filters w (drainEntries (w.moveCursor (entryToken d.pageCursor d.entry)) d.page
      d.pageCursor d.rest) := by
  have hat := h.atDrain (by simp [hdrain])
  have hsound := h.drain
  rw [hdrain] at hsound
  obtain ⟨token, hd⟩ := hsound
  have hconsumer : w.consumer = w.consumerWith (d.rest.map FeedEntry.key) token.position := by
    simp only [consumer, hat.finished, hdrain, hd.ends]
    rfl
  have horderly := h.orderly
  rw [hconsumer] at horderly
  have hcomplete := complete_delivered (w.Shows filters) horderly hd
  have hnext := hcomplete.orderly horderly
  refine ⟨sound_drainEntries (hat.moveCursor _) hopen hd.ends hnext, ?_⟩
  rw [hconsumer]
  exact .head hcomplete (moves_drainEntries _ d.pageCursor hopen hat.finished hd.ends hnext)

theorem advance_drainPhase (h : Sound w) (hdrain : w.drain ≠ .idle)
    (hidle : ∀ d, w.drain ≠ .delivering d) {phase : Drain} (hphase : phase ≠ .idle)
    (hidle' : ∀ d, phase ≠ .delivering d) (hsound : Drain.Sound w phase) :
    Advance filters w { w with drain := phase } := by
  have hat := h.atDrain hdrain
  refine advance_of_consumer_eq (fun heq => ?_) ?_
  · refine AtDrain.sound ⟨hat.log, hat.live, hat.finished, hat.draining⟩ hphase hsound ?_
    rw [← heq]
    exact h.orderly
  · rw [consumer_of_idle (by simp [hat.finished]) hidle,
      consumer_of_idle (by simp [hat.finished]) hidle']
    rfl

theorem closed_redrain (h : w.subscription.closed = true) :
    (redrain w).subscription.closed = true := by
  unfold redrain
  rw [if_neg (by simp [h])]
  exact h

theorem closed_drainEntries (h : w.subscription.closed = true) (page : FeedPage)
    (pageCursor : ProgressToken) (entries : List FeedEntry) :
    (drainEntries w page pageCursor entries).subscription.closed = true := by
  unfold drainEntries
  rw [if_pos h]
  exact h

theorem advance_handleDrainError (h : Sound w) (hdrain : w.drain ≠ .idle)
    (hidle : ∀ d, w.drain ≠ .delivering d) (e : Failure)
    (hopen' : (handleDrainError w e).subscription.closed = false) :
    Advance filters w (handleDrainError w e) := by
  have hfailed : Advance filters w { w with drain := .failed } :=
    advance_drainPhase h hdrain hidle (by simp) (by simp) trivial
  unfold handleDrainError at hopen' ⊢
  by_cases hclosed : w.subscription.closed = true
  · rw [if_pos hclosed]
    exact hfailed
  · rw [if_neg hclosed] at hopen' ⊢
    by_cases hgap : isProgressGap e = true
    · rw [if_pos hgap] at hopen'
      cases hopen'
    · rw [if_neg hgap]
      exact hfailed

theorem advance_resumeDrain (h : Sound w)
    (hopen' : (resumeDrain domain readLimit filters w).subscription.closed = false) :
    Advance filters w (resumeDrain domain readLimit filters w) := by
  unfold resumeDrain at hopen' ⊢
  have hsound := h.drain
  cases hdrain : w.drain with
  | idle => exact ⟨h, .refl⟩
  | reading readCursor head =>
    have hne : w.drain ≠ .idle := by simp [hdrain]
    have hidle : ∀ d, w.drain ≠ .delivering d := by simp [hdrain]
    rw [hdrain] at hsound hopen'
    cases head with
    | none =>
      exact advance_drainPhase h hne hidle (by simp) (by simp) ⟨hsound.1, le_rfl⟩
    | some head =>
      dsimp only at hopen' ⊢
      cases hread : readSubscriptionPage domain readLimit filters head w.log readCursor with
      | error e =>
        rw [hread] at hopen'
        exact advance_handleDrainError h hne hidle e hopen'
      | ok page =>
        rw [hread] at hopen'
        obtain ⟨token, hpage⟩ := paged_of_readSubscriptionPage h.log hread
        rw [hsound.1] at hpage
        refine advance_drainPage (h.atDrain hne) ?_ h.orderly hidle hpage
        by_contra hclosed
        have := closed_drainEntries (by simpa using hclosed) page (page.cursor.getD readCursor)
          page.events
        rw [this] at hopen'
        cases hopen'
  | delivering d =>
    rw [hdrain] at hopen'
    dsimp only at hopen' ⊢
    by_cases hclosed : w.subscription.closed = true
    · rw [if_pos hclosed] at hopen'
      rw [hopen'] at hclosed
      cases hclosed
    · rw [if_neg hclosed]
      exact advance_drainDelivered h (by simpa using hclosed) hdrain
  | settled => exact advance_redrain h (by simp [hdrain]) (by simp [hdrain])
  | failed =>
    dsimp only
    by_cases hagain : (w.subscription.redrainRequested && !w.subscription.closed) = true
    · rw [if_pos hagain]
      exact advance_drainPhase h (by simp [hdrain]) (by simp [hdrain]) (by simp) (by simp) trivial
    · rw [if_neg hagain]
      exact advance_redrain h (by simp [hdrain]) (by simp [hdrain])
  | retrying => exact advance_redrain h (by simp [hdrain]) (by simp [hdrain])

theorem advance_catchUpPhase (h : Sound w) (hcatchUp : w.catchUp ≠ .finished)
    (hidle : ∀ f d, w.catchUp ≠ .delivering f d) {phase : CatchUp}
    (hidle' : ∀ f d, phase ≠ .delivering f d) (hsound : CatchUp.Sound w phase) :
    Advance filters w { w with catchUp := phase } := by
  have hat := h.atCatchUp hcatchUp
  refine advance_of_consumer_eq (fun heq => ?_) ?_
  · refine AtCatchUp.sound ⟨hat.log, hat.live, hat.idle, hat.draining⟩ hsound ?_
    rw [← heq]
    exact h.orderly
  · rw [consumer_of_idle hidle (by simp [hat.idle]), consumer_of_idle hidle' (by simp [hat.idle])]
    rfl

theorem advance_catchUpOnce {frozenCursor : ProgressToken} (h : Sound w)
    (hopen : w.subscription.closed = false) (hcatchUp : w.catchUp ≠ .finished)
    (hidle : ∀ f d, w.catchUp ≠ .delivering f d) (hfresh : w.events = [])
    (hfrozen : w.position < frozenCursor.position → frozenCursor.position ≤ w.log.head) :
    Advance filters w (catchUpOnce w frozenCursor) := by
  have hat := h.atCatchUp hcatchUp
  have hconsumer : w.consumer = w.consumerWith [] w.position :=
    consumer_of_idle hidle (by simp [hat.idle])
  have hmoves : Moves (w.Shows filters) w.consumer (catchUpOnce w frozenCursor).consumer := by
    rw [hconsumer]
    unfold catchUpOnce
    by_cases hread : w.position < frozenCursor.position
    · rw [if_pos (by simpa [hopen, position] using hread),
        consumer_of_idle (by simp) (by simp [hat.idle])]
      exact .refl
    · rw [if_neg (by simpa [hopen, position] using hread)]
      exact moves_finishCatchUp hopen hat.idle (by omega) (by simp [handed, hfresh]) (by simp)
  exact ⟨sound_catchUpOnce hat hopen hfrozen (hmoves.orderly h.orderly), hmoves⟩

theorem advance_catchUpPage {page : FeedPage} {token frozenCursor pageCursor : ProgressToken}
    {head : Nat} (h : Sound w) (hopen : w.subscription.closed = false)
    (hcatchUp : w.catchUp ≠ .finished) (hidle : ∀ f d, w.catchUp ≠ .delivering f d)
    (hlt : w.position < frozenCursor.position) (hhead : frozenCursor.position ≤ head)
    (hlog : head ≤ w.log.head)
    (hpage : Paged filters head w.log w.subscription.cursor page token) :
    Advance filters w (catchUpEntries w frozenCursor page pageCursor page.events) := by
  have hat := h.atCatchUp hcatchUp
  have hconsumer : w.consumer = w.consumerWith [] w.position :=
    consumer_of_idle hidle (by simp [hat.idle])
  have hforward : w.position ≤ token.position := hpage.forward
  have hread : Move (w.Shows filters) (w.consumerWith [] w.position)
      (w.consumerWith (upTo frozenCursor.position page.events)
        (min token.position frozenCursor.position)) := by
    refine Move.read _ _ rfl (le_min hforward hlt.le) (fun x => ?_) ?_
    · unfold upTo
      rw [List.mem_filter, hpage.entries x, decide_eq_true_eq, le_min_iff]
      exact ⟨fun h => ⟨h.1.1, h.1.2.1, h.1.2.2, h.2⟩, fun h => ⟨⟨h.1, h.2.1, h.2.2.1⟩, h.2.2.2⟩⟩
    · exact hpage.rising.sublist (List.filter_sublist.map _)
  have horderly := h.orderly
  rw [hconsumer] at horderly
  have hnext := hread.orderly horderly
  have hbound : ∀ x ∈ page.events.map FeedEntry.key, x.1 ≤ token.position := fun x hx =>
    ((hpage.entries x).mp hx).2.2
  have hdrained : page.drained = true → frozenCursor.position ≤ token.position := fun hdrained =>
    hhead.trans (hpage.drained hdrained)
  refine ⟨sound_catchUpEntries hat hopen hpage.ends (hhead.trans hlog) hdrained hpage.rising
    hbound hnext, ?_⟩
  rw [hconsumer]
  exact .head hread
    (moves_catchUpEntries _ pageCursor hopen hat.idle hpage.ends hdrained hpage.rising hbound hnext)

theorem advance_catchUpDelivered {d : PageDelivery} {frozenCursor : ProgressToken} (h : Sound w)
    (hopen : w.subscription.closed = false) (hcatchUp : w.catchUp = .delivering frozenCursor d) :
    Advance filters w (catchUpEntries (w.moveCursor (entryToken d.pageCursor d.entry)) frozenCursor
      d.page d.pageCursor d.rest) := by
  have hat := h.atCatchUp (by simp [hcatchUp])
  have hsound := h.catchUp
  rw [hcatchUp] at hsound
  obtain ⟨token, hd, hfrozen, hdrained, hrising, hbound⟩ := hsound
  have hconsumer : w.consumer = w.consumerWith (upTo frozenCursor.position d.rest)
      (min token.position frozenCursor.position) := by
    simp only [consumer, hcatchUp, hd.ends]
    rfl
  have horderly := h.orderly
  rw [hconsumer] at horderly
  have hcomplete := complete_delivered (w.Shows filters) horderly hd
  have hnext := hcomplete.orderly horderly
  refine ⟨sound_catchUpEntries (hat.moveCursor _) hopen hd.ends hfrozen hdrained hrising hbound
    hnext, ?_⟩
  rw [hconsumer]
  exact .head hcomplete
    (moves_catchUpEntries _ d.pageCursor hopen hat.idle hd.ends hdrained hrising hbound hnext)

theorem closed_finishCatchUp (h : w.subscription.closed = true) (frozenCursor : ProgressToken) :
    (finishCatchUp w frozenCursor).subscription.closed = true := by
  have hclosed : (w.moveCursor frozenCursor).subscription.closed = true := h
  unfold finishCatchUp
  rw [if_pos hclosed]
  exact h

theorem closed_catchUpOnce (h : w.subscription.closed = true) (frozenCursor : ProgressToken) :
    (catchUpOnce w frozenCursor).subscription.closed = true := by
  unfold catchUpOnce
  rw [if_neg (by simp [h])]
  exact closed_finishCatchUp h frozenCursor

theorem closed_catchUpEntries (h : w.subscription.closed = true) (frozenCursor : ProgressToken)
    (page : FeedPage) (pageCursor : ProgressToken) (entries : List FeedEntry) :
    (catchUpEntries w frozenCursor page pageCursor entries).subscription.closed = true := by
  unfold catchUpEntries
  rw [if_pos h]
  exact h

theorem advance_resumeCatchUp (h : Sound w)
    (hopen' : (resumeCatchUp domain readLimit filters w).subscription.closed = false) :
    Advance filters w (resumeCatchUp domain readLimit filters w) := by
  unfold resumeCatchUp at hopen' ⊢
  have hsound := h.catchUp
  cases hcatchUp : w.catchUp with
  | finished => exact ⟨h, .refl⟩
  | bounding head =>
    have hne : w.catchUp ≠ .finished := by simp [hcatchUp]
    have hidle : ∀ f d, w.catchUp ≠ .delivering f d := by simp [hcatchUp]
    rw [hcatchUp] at hsound
    cases head with
    | none =>
      refine advance_catchUpPhase h hne hidle (by simp) ⟨hsound.1, fun k hk => ?_⟩
      rw [Option.mem_some_iff] at hk
      exact hk ▸ le_rfl
    | some head =>
      refine advance_catchUpPhase h hne hidle (by simp) ⟨hsound.1, fun hlt => ?_, by simp⟩
      -- a frozen cursor beyond the subscription's own is the head that was captured
      unfold latestBound at hlt ⊢
      by_cases hzero : head = 0
      · rw [if_pos hzero] at hlt
        exact absurd hlt (lt_irrefl _)
      · rw [if_neg hzero]
        exact hsound.2 head rfl
  | validating frozenCursor head =>
    have hne : w.catchUp ≠ .finished := by simp [hcatchUp]
    have hidle : ∀ f d, w.catchUp ≠ .delivering f d := by simp [hcatchUp]
    rw [hcatchUp] at hsound hopen'
    obtain ⟨hfresh, hfrozen, hhead⟩ := hsound
    cases head with
    | none =>
      refine advance_catchUpPhase h hne hidle (by simp) ⟨hfresh, hfrozen, fun k hk => ?_⟩
      rw [Option.mem_some_iff] at hk
      exact hk ▸ le_rfl
    | some head =>
      dsimp only at hopen' ⊢
      cases hread : read domain head w.log (some w.subscription.cursor) (some 0) none with
      | error e =>
        rw [hread] at hopen'
        cases hopen'
      | ok page =>
        rw [hread] at hopen'
        refine advance_catchUpOnce h ?_ hne hidle hfresh hfrozen
        by_contra hclosed
        have := closed_catchUpOnce (by simpa using hclosed) frozenCursor
        rw [this] at hopen'
        cases hopen'
  | reading frozenCursor readCursor head =>
    have hne : w.catchUp ≠ .finished := by simp [hcatchUp]
    have hidle : ∀ f d, w.catchUp ≠ .delivering f d := by simp [hcatchUp]
    rw [hcatchUp] at hsound hopen'
    obtain ⟨hcursor, hlt, hfrozen, hhead⟩ := hsound
    cases head with
    | none =>
      exact advance_catchUpPhase h hne hidle (by simp) ⟨hcursor, hlt, hfrozen, le_rfl⟩
    | some head =>
      dsimp only at hopen' ⊢
      cases hread : readSubscriptionPage domain readLimit filters head w.log readCursor with
      | error e =>
        rw [hread] at hopen'
        cases hopen'
      | ok page =>
        rw [hread] at hopen'
        obtain ⟨token, hpage⟩ := paged_of_readSubscriptionPage h.log hread
        rw [hcursor] at hpage
        refine advance_catchUpPage h ?_ hne hidle hlt hfrozen hhead hpage
        by_contra hclosed
        have := closed_catchUpEntries (by simpa using hclosed) frozenCursor page
          (page.cursor.getD readCursor) page.events
        rw [this] at hopen'
        cases hopen'
  | delivering frozenCursor d =>
    rw [hcatchUp] at hopen'
    dsimp only at hopen' ⊢
    by_cases hclosed : w.subscription.closed = true
    · rw [if_pos hclosed] at hopen'
      rw [hopen'] at hclosed
      cases hclosed
    · rw [if_neg hclosed]
      exact advance_catchUpDelivered h (by simpa using hclosed) hcatchUp
  | completing =>
    rw [hcatchUp] at hopen'
    dsimp only at hopen' ⊢
    have hat := h.atCatchUp (by simp [hcatchUp])
    by_cases hclosed : w.subscription.closed = true
    · rw [if_pos hclosed] at hopen'
      rw [hopen'] at hclosed
      cases hclosed
    · rw [if_neg hclosed]
      have hsame : w.consumer = ({ w with
          catchUp := .finished
          subscription := { w.subscription with liveReady := true } } : Subscribed).consumer := by
        rw [consumer_of_idle (by simp [hcatchUp]) (by simp [hat.idle]),
          consumer_of_idle (by simp) (by simp [hat.idle])]
        rfl
      have hlive : Sound { w with
          catchUp := .finished
          subscription := { w.subscription with liveReady := true } } := by
        refine ⟨h.log, ⟨fun _ => rfl, fun _ => hat.idle, h.modes.draining⟩, trivial, ?_, ?_⟩
        · exact h.drain
        · rw [← hsame]
          exact h.orderly
      by_cases hredrain : w.subscription.redrainRequested = true
      · rw [if_pos hredrain]
        exact (advance_scheduleDrain hlive).of_same hsame rfl
      · rw [if_neg hredrain]
        exact advance_of_consumer_eq (fun _ => hlive) hsame

end Steps

end Subscribed

end EnboxDwn
