import EnboxDwn.DurableDelivery

/-! Whole runs of a subscription: what the listener is handed, and what a wake causes. -/
namespace EnboxDwn
open KeyValues MessageStore Consuming DurableEventLog

variable [P : Platform]

namespace Subscribed
variable {domain : StreamDomain} {readLimit : Nat} {filters : Option (List Filter)}
  {w : Subscribed}

/-! ## Order and completeness -/

theorem advance_step (h : Sound w) (action : SubscribedAction)
    (hopen : (w.step domain readLimit filters action).subscription.closed = false) :
    Advance filters w (w.step domain readLimit filters action) := by
  cases action with
  | commit call => exact advance_commit h call
  | wake => exact advance_handleWake h
  | close => cases hopen
  | resumeCatchUp => exact advance_resumeCatchUp h hopen
  | resumeDrain => exact advance_resumeDrain h hopen

theorem events_drainOnce (w : Subscribed) : (drainOnce w).events = w.events := by
  unfold drainOnce
  split <;> rfl

theorem events_redrain (w : Subscribed) : (redrain w).events = w.events := by
  unfold redrain
  split
  · exact events_drainOnce _
  · rfl

theorem events_scheduleDrain (w : Subscribed) : (scheduleDrain w).events = w.events := by
  unfold scheduleDrain drainSubscription
  split
  · split
    · rfl
    · exact events_drainOnce _
  · rfl

theorem events_finishCatchUp (w : Subscribed) (frozenCursor : ProgressToken) :
    (finishCatchUp w frozenCursor).events = w.events := by
  unfold finishCatchUp
  dsimp only
  split
  · rfl
  · exact (events_deliverMessage _ _).trans (List.append_nil _)

theorem events_catchUpOnce (w : Subscribed) (frozenCursor : ProgressToken) :
    (catchUpOnce w frozenCursor).events = w.events := by
  unfold catchUpOnce
  split
  · rfl
  · exact events_finishCatchUp w frozenCursor

theorem events_finishCatchUpPage (w : Subscribed) (frozenCursor : ProgressToken) (page : FeedPage)
    (reached : Bool) : (finishCatchUpPage w frozenCursor page reached).events = w.events := by
  unfold finishCatchUpPage
  dsimp only
  split
  · exact events_finishCatchUp w frozenCursor
  · exact events_catchUpOnce _ frozenCursor

theorem events_drainEntries_of_closed {page : FeedPage} {pageCursor : ProgressToken}
    {entries : List FeedEntry}
    (h : (drainEntries w page pageCursor entries).subscription.closed = true) :
    (drainEntries w page pageCursor entries).events = w.events := by
  unfold drainEntries at h ⊢
  by_cases hclosed : w.subscription.closed = true
  · rw [if_pos hclosed]
    rfl
  · rw [if_neg hclosed] at h ⊢
    cases entries with
    | cons entry rest => exact absurd h hclosed
    | nil =>
      dsimp only
      split
      · rfl
      · exact events_drainOnce _

theorem events_catchUpEntries_of_closed {page : FeedPage} {frozenCursor pageCursor : ProgressToken}
    {entries : List FeedEntry}
    (h : (catchUpEntries w frozenCursor page pageCursor entries).subscription.closed = true) :
    (catchUpEntries w frozenCursor page pageCursor entries).events = w.events := by
  unfold catchUpEntries at h ⊢
  by_cases hclosed : w.subscription.closed = true
  · rw [if_pos hclosed]
    rfl
  · rw [if_neg hclosed] at h ⊢
    cases entries with
    | cons entry rest =>
      dsimp only at h ⊢
      by_cases hbeyond : frozenCursor.position < entry.position
      · rw [if_pos hbeyond]
        exact events_finishCatchUpPage _ _ _ _
      · rw [if_neg hbeyond] at h
        exact absurd h hclosed
    | nil => exact events_finishCatchUpPage _ _ _ _

theorem events_handleDrainError (w : Subscribed) (e : Failure) :
    (handleDrainError w e).events = w.events := by
  unfold handleDrainError
  split
  · rfl
  · split
    · exact (events_deliverMessage _ _).trans (List.append_nil _)
    · rfl

theorem events_step_of_closed {action : SubscribedAction}
    (h : (w.step domain readLimit filters action).subscription.closed = true) :
    (w.step domain readLimit filters action).events = w.events := by
  cases action with
  | commit call => rfl
  | close => rfl
  | wake =>
    change (handleWake w).events = w.events
    unfold handleWake
    split
    · rfl
    · exact events_scheduleDrain w
  | resumeDrain =>
    change (resumeDrain domain readLimit filters w).subscription.closed = true at h
    change (resumeDrain domain readLimit filters w).events = w.events
    unfold resumeDrain at h ⊢
    cases hdrain : w.drain with
    | idle => rfl
    | reading readCursor head =>
      cases head with
      | none => rfl
      | some head =>
        rw [hdrain] at h
        dsimp only at h ⊢
        cases hread : readSubscriptionPage domain readLimit filters head w.log readCursor with
        | error e => exact events_handleDrainError w e
        | ok page =>
          rw [hread] at h
          exact events_drainEntries_of_closed h
    | delivering d =>
      rw [hdrain] at h
      dsimp only at h ⊢
      split at h
      · rw [if_pos ‹_›]
        rfl
      · rw [if_neg ‹_›]
        exact events_drainEntries_of_closed h
    | settled => exact events_redrain w
    | failed =>
      dsimp only
      split
      · rfl
      · exact events_redrain w
    | retrying => exact events_redrain w
  | resumeCatchUp =>
    change (resumeCatchUp domain readLimit filters w).subscription.closed = true at h
    change (resumeCatchUp domain readLimit filters w).events = w.events
    unfold resumeCatchUp at h ⊢
    cases hcatchUp : w.catchUp with
    | finished => rfl
    | bounding head => cases head <;> rfl
    | validating frozenCursor head =>
      cases head with
      | none => rfl
      | some head =>
        dsimp only
        cases read domain head w.log (some w.subscription.cursor) (some 0) none with
        | error e => rfl
        | ok page => exact events_catchUpOnce w frozenCursor
    | reading frozenCursor readCursor head =>
      cases head with
      | none => rfl
      | some head =>
        rw [hcatchUp] at h
        dsimp only at h ⊢
        cases hread : readSubscriptionPage domain readLimit filters head w.log readCursor with
        | error e => rfl
        | ok page =>
          rw [hread] at h
          exact events_catchUpEntries_of_closed h
    | delivering frozenCursor d =>
      rw [hcatchUp] at h
      dsimp only at h ⊢
      split at h
      · rw [if_pos ‹_›]
        rfl
      · rw [if_neg ‹_›]
        exact events_catchUpEntries_of_closed h
    | completing =>
      dsimp only
      split
      · rfl
      · split
        · exact events_scheduleDrain _
        · rfl

theorem closed_step (h : w.subscription.closed = true) (action : SubscribedAction) :
    (w.step domain readLimit filters action).subscription.closed = true := by
  cases action with
  | commit call => exact h
  | close => rfl
  | wake =>
    change (handleWake w).subscription.closed = true
    unfold handleWake
    rw [if_pos h]
    exact h
  | resumeDrain =>
    change (resumeDrain domain readLimit filters w).subscription.closed = true
    unfold resumeDrain
    cases w.drain with
    | idle => exact h
    | reading readCursor head =>
      cases head with
      | none => exact h
      | some head =>
        dsimp only
        cases readSubscriptionPage domain readLimit filters head w.log readCursor with
        | error e =>
          dsimp only
          unfold handleDrainError
          rw [if_pos h]
          exact h
        | ok page => exact closed_drainEntries h _ _ _
    | delivering d =>
      dsimp only
      rw [if_pos h]
      exact h
    | settled => exact closed_redrain h
    | failed =>
      dsimp only
      rw [if_neg (by simp [h])]
      exact closed_redrain h
    | retrying => exact closed_redrain h
  | resumeCatchUp =>
    change (resumeCatchUp domain readLimit filters w).subscription.closed = true
    unfold resumeCatchUp
    cases w.catchUp with
    | finished => exact h
    | bounding head => cases head <;> exact h
    | validating frozenCursor head =>
      cases head with
      | none => exact h
      | some head =>
        dsimp only
        cases read domain head w.log (some w.subscription.cursor) (some 0) none with
        | error e => rfl
        | ok page => exact closed_catchUpOnce h frozenCursor
    | reading frozenCursor readCursor head =>
      cases head with
      | none => exact h
      | some head =>
        dsimp only
        cases readSubscriptionPage domain readLimit filters head w.log readCursor with
        | error e => rfl
        | ok page => exact closed_catchUpEntries h _ _ _ _
    | delivering frozenCursor d =>
      dsimp only
      rw [if_pos h]
      exact h
    | completing =>
      dsimp only
      rw [if_pos h]
      exact h

theorem open_of_step {action : SubscribedAction}
    (h : (w.step domain readLimit filters action).subscription.closed = false) :
    w.subscription.closed = false := by
  by_contra hclosed
  rw [closed_step (by simpa using hclosed) action] at h
  cases h

theorem open_of_run {actions : List SubscribedAction}
    (h : (w.run domain readLimit filters actions).subscription.closed = false) :
    w.subscription.closed = false := by
  induction actions generalizing w with
  | nil => exact h
  | cons action actions ih => exact open_of_step (ih h)

/-- Order holds at all times, the rest while the subscription is open. -/
structure Safe (w : Subscribed) : Prop where
  rising : (w.handed.map Prod.fst).Pairwise (· < ·)
  sound : w.subscription.closed = false → Sound w

theorem handed_consumer (w : Subscribed) : w.consumer.handed = w.handed := by
  unfold consumer
  split
  · rfl
  · split <;> rfl

theorem position_consumer (w : Subscribed) : w.consumer.position = w.position := by
  unfold consumer
  split
  · rfl
  · split <;> rfl

theorem Sound.safe (h : Sound w) : Safe w where
  rising := by
    have := h.orderly.rising
    rw [List.map_append, List.pairwise_append, handed_consumer] at this
    exact this.1
  sound := fun _ => h

theorem Safe.step (h : Safe w) (action : SubscribedAction) :
    Safe (w.step domain readLimit filters action) := by
  by_cases hclosed : (w.step domain readLimit filters action).subscription.closed = true
  · refine ⟨?_, fun hopen => by simp [hclosed] at hopen⟩
    unfold handed
    rw [events_step_of_closed hclosed]
    exact h.rising
  · have hopen := Bool.eq_false_iff.mpr hclosed
    exact (advance_step (h.sound (open_of_step hopen)) action hopen).sound.safe

theorem Safe.run (h : Safe w) (actions : List SubscribedAction) :
    Safe (w.run domain readLimit filters actions) := by
  induction actions generalizing w with
  | nil => exact h
  | cons action actions ih => exact ih (h.step action)

theorem handed_subset_run (h : Sound w) {actions : List SubscribedAction}
    (hopen : (w.run domain readLimit filters actions).subscription.closed = false) :
    w.handed ⊆ (w.run domain readLimit filters actions).handed := by
  induction actions generalizing w with
  | nil => exact List.Subset.refl _
  | cons action actions ih =>
    have hadvance : Advance filters w _ := advance_step h action (open_of_run hopen)
    have hstep := hadvance.moves.handed_subset
    rw [handed_consumer, handed_consumer] at hstep
    exact List.Subset.trans hstep (ih hadvance.sound hopen)

/-- An entry that stays live and selected until the cursor passes it was handed on. -/
theorem Sound.mem_handed_run (h : Sound w) {x : Nat × Cid} (howes : Owes w.consumer x)
    (actions : List SubscribedAction)
    (hopen : (w.run domain readLimit filters actions).subscription.closed = false)
    (hshows : ∀ l, l <+: actions → (w.run domain readLimit filters l).position < x.1 →
      (w.run domain readLimit filters l).Shows filters x)
    (hpassed : x.1 ≤ (w.run domain readLimit filters actions).position) :
    x ∈ (w.run domain readLimit filters actions).handed := by
  induction actions generalizing w with
  | nil =>
    have := howes.mem_handed h.orderly (by rw [position_consumer]; exact hpassed)
    rwa [handed_consumer] at this
  | cons action actions ih =>
    by_cases hbefore : w.position < x.1
    · have hadvance := advance_step h action (open_of_run hopen)
      refine ih hadvance.sound ?_ hopen (fun l hl => ?_) hpassed
      · exact hadvance.moves.owes howes (hshows [] List.nil_prefix hbefore)
      · exact hshows (action :: l) (List.cons_prefix_cons.mpr ⟨rfl, hl⟩)
    · have hmem := howes.mem_handed h.orderly (by rw [position_consumer]; omega)
      rw [handed_consumer] at hmem
      exact handed_subset_run h hopen hmem

/-! ## The tokens a subscription holds -/

section Tokens
variable {head : Nat} {log : Log} {cursor : ProgressToken} {page : FeedPage}

/-- Every entry of a page and its end are places to resume from. -/
structure Resumes (domain : StreamDomain) (log : Log) (page : FeedPage) (pageCursor : ProgressToken)
    (entries : List FeedEntry) : Prop where
  ends : ∀ token, page.cursor = some token → Resumable domain log (some token)
  entry : ∀ e ∈ entries, Resumable domain log (some (entryToken pageCursor e))

theorem Resumes.evolves {log' : Log} {pageCursor : ProgressToken} {entries : List FeedEntry}
    (h : Resumes domain log page pageCursor entries) (hlog : log.Positioned)
    (hevolves : log.Evolves log') : Resumes domain log' page pageCursor entries where
  ends := fun token htoken => (h.ends token htoken).evolves hlog hevolves
  entry := fun e he => (h.entry e he).evolves hlog hevolves

theorem resumable_of_row (hlog : log.Positioned) {r : Row} (hr : r ∈ log.rows) :
    Resumable domain log (some (buildToken domain r.seq (some r.cid))) := by
  intro token htoken
  cases htoken
  refine validateCursorPosition_eq_none.mpr ⟨rfl, (hlog.issued r hr).2, ?_⟩
  intro c c' hc hc'
  cases hc
  obtain ⟨r', hr', hseq, rfl⟩ := getMessageCidAtPosition_eq_some hc'
  have hsame : r' = r :=
    List.inj_on_of_nodup_map (hlog.rising.imp fun h => h.ne) hr' hr hseq
  rw [hsame]

theorem domain_of_resumable (h : Resumable domain log (some cursor)) :
    cursor.toStreamDomain = domain := (validateCursorPosition_eq_none.mp (h cursor rfl)).1

theorem resumes_of_readSubscriptionPage (hlog : log.Positioned) (hhead : head ≤ log.head)
    (hcursor : Resumable domain log (some cursor))
    (h : readSubscriptionPage domain readLimit filters head log cursor = .ok page) :
    Resumes domain log page (page.cursor.getD cursor) page.events := by
  obtain ⟨page', hread, h⟩ := bind_eq_ok h
  have hsame : page' = page := by
    split at h
    · cases h
    · exact Except.ok.inj h
  subst hsame
  obtain ⟨_, -, hread⟩ := bind_eq_ok hread
  obtain ⟨result, hresult, hread⟩ := bind_eq_ok hread
  cases hread
  have hpage := pageOf_logPage hlog hresult
  have hends := hpage.resumable hlog hhead hcursor
  refine ⟨fun token htoken => htoken ▸ hends, fun e he => ?_⟩
  obtain ⟨e', he', rfl⟩ := List.mem_map.mp he
  rw [hpage.events] at he'
  obtain ⟨r, hr, rfl⟩ := List.mem_map.mp he'
  have hdomain : (result.cursor.getD cursor).toStreamDomain = domain := by
    cases hc : result.cursor with
    | none => exact domain_of_resumable hcursor
    | some token =>
      rw [hc] at hends
      exact domain_of_resumable hends
  have htoken : entryToken (result.cursor.getD cursor)
      (attachInitialWrite log (readEventFromLogEntry r)) =
      buildToken domain r.seq (some r.cid) := by
    unfold entryToken
    rw [hdomain]
    rfl
  dsimp only
  rw [htoken]
  exact resumable_of_row hlog (List.mem_filter.mp hr).1

theorem error_of_readSubscriptionPage (hlog : log.Positioned) (hhead : head ≤ log.head)
    (hcursor : Resumable domain log (some cursor)) (hposition : cursor.position ≤ head)
    {e : Failure} (h : readSubscriptionPage domain readLimit filters head log cursor = .error e) :
    e = .typeError := by
  unfold readSubscriptionPage DurableEventLog.read at h
  cases hfilters : FilterUtility.assertValidSubtreeFilters (filters.getD []) with
  | error e' =>
    rw [hfilters] at h
    cases h
    unfold FilterUtility.assertValidSubtreeFilters at hfilters
    split at hfilters
    · cases hfilters
    · exact (Except.error.inj hfilters).symm
  | ok u =>
    obtain ⟨hdomain, -, hcid⟩ := validateCursorPosition_eq_none.mp (hcursor cursor rfl)
    have hvalid : ∀ token, some cursor = some token →
        validateCursorPosition domain head log token = none := by
      intro token htoken
      cases htoken
      exact validateCursorPosition_eq_none.mpr ⟨hdomain, hposition, hcid⟩
    obtain ⟨result, hresult⟩ : ∃ result, logPage domain head log (some cursor)
        (some (max 1 readLimit : Nat)) filters = .ok result :=
      logPage_returns hlog hhead hvalid
    have hends := (pageOf_logPage hlog hresult).resumable hlog hhead hcursor
    rw [hfilters] at h
    simp only [ok_bind, hresult, pure_bind] at h
    rw [if_neg] at h
    · cases h
    · -- the page stays in the domain of the cursor
      cases hc : result.cursor with
      | none => simp
      | some token =>
        rw [hc] at hends
        simp [domain_of_resumable hends, hdomain]

end Tokens

/-- The store accepts the tokens that catch-up holds, once the first cursor is validated. -/
def CatchUp.Accepted (domain : StreamDomain) (w : Subscribed) : CatchUp → Prop
  | .bounding _ => True
  | .validating frozenCursor _ =>
    Resumable domain w.log (some frozenCursor) ∨ frozenCursor = w.subscription.cursor
  | .reading frozenCursor _ _ =>
    Resumable domain w.log (some w.subscription.cursor) ∧ Resumable domain w.log (some frozenCursor)
  | .delivering frozenCursor d =>
    Resumable domain w.log (some w.subscription.cursor) ∧
      Resumable domain w.log (some frozenCursor) ∧
      Resumes domain w.log d.page d.pageCursor (d.entry :: d.rest)
  | .completing => Resumable domain w.log (some w.subscription.cursor)
  | .finished => Resumable domain w.log (some w.subscription.cursor)

def Drain.Accepted (domain : StreamDomain) (w : Subscribed) : Drain → Prop
  | .reading readCursor head => ∀ k ∈ head, readCursor.position ≤ k
  | .delivering d => Resumes domain w.log d.page d.pageCursor (d.entry :: d.rest)
  | _ => True

structure Accepted (domain : StreamDomain) (w : Subscribed) : Prop where
  catchUp : CatchUp.Accepted domain w w.catchUp
  drain : Drain.Accepted domain w w.drain

section Accepted
variable {page : FeedPage} {pageCursor frozenCursor : ProgressToken} {entries : List FeedEntry}

theorem Resumes.tail {log : Log} {e : FeedEntry} (h : Resumes domain log page pageCursor (e :: entries)) :
    Resumes domain log page pageCursor entries :=
  ⟨h.ends, fun e' he' => h.entry e' (List.mem_cons_of_mem _ he')⟩

theorem accepted_commit (h : Accepted domain w) (hsound : Sound w) (call : StoreCall) :
    Accepted domain { w with log := call.apply w.log } := by
  have hevolves := StoreCall.evolves_apply w.log call
  constructor
  · have hcatchUp := h.catchUp
    dsimp only
    cases hphase : w.catchUp with
    | bounding head => trivial
    | validating frozenCursor head =>
      rw [hphase] at hcatchUp
      exact hcatchUp.imp (fun h => h.evolves hsound.log hevolves) id
    | reading frozenCursor readCursor head =>
      rw [hphase] at hcatchUp
      exact ⟨hcatchUp.1.evolves hsound.log hevolves, hcatchUp.2.evolves hsound.log hevolves⟩
    | delivering frozenCursor d =>
      rw [hphase] at hcatchUp
      exact ⟨hcatchUp.1.evolves hsound.log hevolves, hcatchUp.2.1.evolves hsound.log hevolves,
        hcatchUp.2.2.evolves hsound.log hevolves⟩
    | completing =>
      rw [hphase] at hcatchUp
      exact Resumable.evolves hcatchUp hsound.log hevolves
    | finished =>
      rw [hphase] at hcatchUp
      exact Resumable.evolves hcatchUp hsound.log hevolves
  · have hdrain := h.drain
    dsimp only
    cases hphase : w.drain with
    | reading readCursor head =>
      rw [hphase] at hdrain
      exact hdrain
    | delivering d =>
      rw [hphase] at hdrain
      exact Resumes.evolves hdrain hsound.log hevolves
    | idle => trivial
    | settled => trivial
    | failed => trivial
    | retrying => trivial

theorem accepted_drainOnce (hcatchUp : CatchUp.Accepted domain w w.catchUp) :
    Accepted domain (drainOnce w) := by
  unfold drainOnce
  split
  · exact ⟨hcatchUp, trivial⟩
  · exact ⟨hcatchUp, by simp [Drain.Accepted]⟩

theorem accepted_scheduleDrain (h : Accepted domain w) : Accepted domain (scheduleDrain w) := by
  unfold scheduleDrain drainSubscription
  split
  · split
    · exact ⟨h.catchUp, h.drain⟩
    · exact accepted_drainOnce h.catchUp
  · exact ⟨h.catchUp, h.drain⟩

theorem accepted_redrain (h : Accepted domain w) : Accepted domain (redrain w) := by
  unfold redrain
  split
  · exact accepted_drainOnce h.catchUp
  · exact ⟨h.catchUp, trivial⟩

theorem accepted_drainEntries (hfinished : w.catchUp = .finished)
    (hcursor : Resumable domain w.log (some w.subscription.cursor))
    (h : Resumes domain w.log page pageCursor entries) :
    Accepted domain (drainEntries w page pageCursor entries) := by
  have hcatchUp : CatchUp.Accepted domain w w.catchUp := by
    rw [hfinished]
    exact hcursor
  unfold drainEntries
  split
  · exact ⟨hcatchUp, trivial⟩
  · cases entries with
    | cons entry rest => exact ⟨hcatchUp, h⟩
    | nil =>
      dsimp only
      have hmoved : CatchUp.Accepted domain (w.moveCursor (page.cursor.getD w.subscription.cursor))
          (w.moveCursor (page.cursor.getD w.subscription.cursor)).catchUp := by
        change CatchUp.Accepted domain _ w.catchUp
        rw [hfinished]
        change Resumable domain w.log (some (page.cursor.getD w.subscription.cursor))
        cases hc : page.cursor with
        | none => exact hcursor
        | some token => exact h.ends token hc
      split
      · exact ⟨hmoved, trivial⟩
      · exact accepted_drainOnce hmoved

theorem Accepted.finished (h : Accepted domain w) (hfinished : w.catchUp = .finished) :
    Resumable domain w.log (some w.subscription.cursor) := by
  have := h.catchUp
  rw [hfinished] at this
  exact this

theorem position_le_of_resumable {log : Log} {cursor : ProgressToken}
    (h : Resumable domain log (some cursor)) : cursor.position ≤ log.head :=
  (validateCursorPosition_eq_none.mp (h cursor rfl)).2.1

theorem open_drainOnce (h : w.subscription.closed = false) :
    (drainOnce w).subscription.closed = false := by
  unfold drainOnce
  split <;> exact h

theorem open_redrain (h : w.subscription.closed = false) :
    (redrain w).subscription.closed = false := by
  unfold redrain
  split
  · exact open_drainOnce h
  · exact h

theorem open_drainEntries (h : w.subscription.closed = false) :
    (drainEntries w page pageCursor entries).subscription.closed = false := by
  unfold drainEntries
  rw [if_neg (by simp [h])]
  cases entries with
  | cons entry rest => exact h
  | nil =>
    dsimp only
    split
    · exact h
    · exact open_drainOnce h

theorem accepted_resumeDrain (h : Accepted domain w) (hsound : Sound w)
    (hopen : w.subscription.closed = false) :
    Accepted domain (resumeDrain domain readLimit filters w) ∧
      (resumeDrain domain readLimit filters w).subscription.closed = false := by
  unfold resumeDrain
  have hphase := hsound.drain
  have hdrain := h.drain
  cases hphase' : w.drain with
  | idle => exact ⟨h, hopen⟩
  | reading readCursor head =>
    have hat := hsound.atDrain (by simp [hphase'])
    have hcursor := h.finished hat.finished
    rw [hphase'] at hphase hdrain
    obtain ⟨rfl, hhead⟩ := hphase
    cases head with
    | none =>
      refine ⟨⟨h.catchUp, fun k hk => ?_⟩, hopen⟩
      rw [Option.mem_some_iff] at hk
      rw [← hk]
      exact position_le_of_resumable hcursor
    | some head =>
      dsimp only
      cases hread : readSubscriptionPage domain readLimit filters head w.log
          w.subscription.cursor with
      | error e =>
        have he := error_of_readSubscriptionPage hsound.log hhead hcursor (hdrain head rfl) hread
        subst he
        have hfailed : handleDrainError w .typeError = { w with drain := .failed } := by
          unfold handleDrainError
          rw [if_neg (by simp [hopen]), if_neg (by simp [isProgressGap])]
        dsimp only
        rw [hfailed]
        exact ⟨⟨h.catchUp, trivial⟩, hopen⟩
      | ok page =>
        refine ⟨accepted_drainEntries hat.finished hcursor
          (resumes_of_readSubscriptionPage hsound.log hhead hcursor hread), ?_⟩
        exact open_drainEntries hopen
  | delivering d =>
    have hat := hsound.atDrain (by simp [hphase'])
    rw [hphase'] at hdrain
    dsimp only
    rw [if_neg (by simp [hopen])]
    refine ⟨accepted_drainEntries hat.finished (hdrain.entry d.entry (by simp)) hdrain.tail, ?_⟩
    exact open_drainEntries hopen
  | settled => exact ⟨accepted_redrain h, open_redrain hopen⟩
  | failed =>
    dsimp only
    split
    · exact ⟨⟨h.catchUp, trivial⟩, hopen⟩
    · exact ⟨accepted_redrain h, open_redrain hopen⟩
  | retrying => exact ⟨accepted_redrain h, open_redrain hopen⟩

theorem accepted_finishCatchUp (hdrain : w.drain = .idle)
    (hfrozen : Resumable domain w.log (some frozenCursor)) :
    Accepted domain (finishCatchUp w frozenCursor) := by
  have hidle : Drain.Accepted domain w w.drain := by
    rw [hdrain]
    trivial
  unfold finishCatchUp
  dsimp only
  split
  · exact ⟨hfrozen, hidle⟩
  · exact ⟨hfrozen, hidle⟩

theorem accepted_catchUpOnce (hdrain : w.drain = .idle)
    (hcursor : Resumable domain w.log (some w.subscription.cursor))
    (hfrozen : Resumable domain w.log (some frozenCursor)) :
    Accepted domain (catchUpOnce w frozenCursor) := by
  have hidle : Drain.Accepted domain w w.drain := by
    rw [hdrain]
    trivial
  unfold catchUpOnce
  split
  · exact ⟨⟨hcursor, hfrozen⟩, hidle⟩
  · exact accepted_finishCatchUp hdrain hfrozen

theorem accepted_finishCatchUpPage {reached : Bool} (hdrain : w.drain = .idle)
    (hcursor : Resumable domain w.log (some w.subscription.cursor))
    (hfrozen : Resumable domain w.log (some frozenCursor))
    (h : ∀ token, page.cursor = some token → Resumable domain w.log (some token)) :
    Accepted domain (finishCatchUpPage w frozenCursor page reached) := by
  unfold finishCatchUpPage
  dsimp only
  split
  · exact accepted_finishCatchUp hdrain hfrozen
  · refine accepted_catchUpOnce hdrain ?_ hfrozen
    change Resumable domain w.log (some (page.cursor.getD w.subscription.cursor))
    cases hc : page.cursor with
    | none => exact hcursor
    | some token => exact h token hc

theorem accepted_catchUpEntries (hdrain : w.drain = .idle)
    (hcursor : Resumable domain w.log (some w.subscription.cursor))
    (hfrozen : Resumable domain w.log (some frozenCursor))
    (h : Resumes domain w.log page pageCursor entries) :
    Accepted domain (catchUpEntries w frozenCursor page pageCursor entries) := by
  have hidle : Drain.Accepted domain w w.drain := by
    rw [hdrain]
    trivial
  unfold catchUpEntries
  split
  · exact ⟨hcursor, hidle⟩
  · cases entries with
    | cons entry rest =>
      dsimp only
      split
      · exact accepted_finishCatchUpPage hdrain hcursor hfrozen h.ends
      · exact ⟨⟨hcursor, hfrozen, h⟩, hidle⟩
    | nil => exact accepted_finishCatchUpPage hdrain hcursor hfrozen h.ends

theorem resumable_latestBound {log : Log} {head : Nat} {token : ProgressToken}
    (hhead : head ≤ log.head) (h : latestBound domain head log = some token) :
    Resumable domain log (some token) := by
  unfold latestBound at h
  split at h
  · cases h
  · cases h
    intro token htoken
    cases htoken
    refine validateCursorPosition_eq_none.mpr ⟨rfl, hhead, fun c c' hc hc' => ?_⟩
    exact Option.some.inj (hc'.symm.trans hc)

theorem resumable_of_read {head : Nat} {log : Log} {cursor : ProgressToken} {limit : Option Int}
    (hhead : head ≤ log.head)
    (h : DurableEventLog.read domain head log (some cursor) limit filters = .ok page) :
    Resumable domain log (some cursor) := by
  obtain ⟨_, -, h⟩ := bind_eq_ok h
  obtain ⟨_, h, -⟩ := bind_eq_ok h
  obtain ⟨_, h, -⟩ := bind_eq_ok h
  have h : validateCursor domain head log cursor = .ok () := h
  unfold validateCursor at h
  cases hv : validateCursorPosition domain head log cursor with
  | some reason =>
    rw [hv] at h
    cases h
  | none =>
    obtain ⟨hdomain, hle, hcid⟩ := validateCursorPosition_eq_none.mp hv
    intro token htoken
    cases htoken
    exact validateCursorPosition_eq_none.mpr ⟨hdomain, hle.trans hhead, hcid⟩

theorem accepted_resumeCatchUp (h : Accepted domain w) (hsound : Sound w)
    (hopen' : (resumeCatchUp domain readLimit filters w).subscription.closed = false) :
    Accepted domain (resumeCatchUp domain readLimit filters w) := by
  unfold resumeCatchUp at hopen' ⊢
  have hphase := hsound.catchUp
  have hcatchUp := h.catchUp
  cases hphase' : w.catchUp with
  | finished => exact h
  | bounding head =>
    rw [hphase'] at hphase
    cases head with
    | none => exact ⟨trivial, h.drain⟩
    | some head =>
      refine ⟨?_, h.drain⟩
      change Resumable _ _ _ ∨ _
      cases hbound : latestBound domain head w.log with
      | none => exact Or.inr rfl
      | some token => exact Or.inl (resumable_latestBound (hphase.2 head rfl) hbound)
  | validating frozenCursor head =>
    have hat := hsound.atCatchUp (by simp [hphase'])
    rw [hphase'] at hphase hcatchUp hopen'
    cases head with
    | none => exact ⟨hcatchUp, h.drain⟩
    | some head =>
      dsimp only at hopen' ⊢
      cases hread : DurableEventLog.read domain head w.log (some w.subscription.cursor)
          (some 0) none with
      | error e =>
        rw [hread] at hopen'
        cases hopen'
      | ok page =>
        have hcursor := resumable_of_read (hphase.2.2 head rfl) hread
        refine accepted_catchUpOnce hat.idle hcursor ?_
        obtain hfrozen | hfrozen := hcatchUp
        · exact hfrozen
        · rw [hfrozen]
          exact hcursor
  | reading frozenCursor readCursor head =>
    have hat := hsound.atCatchUp (by simp [hphase'])
    rw [hphase'] at hphase hcatchUp hopen'
    obtain ⟨rfl, -, -, hhead⟩ := hphase
    cases head with
    | none => exact ⟨hcatchUp, h.drain⟩
    | some head =>
      dsimp only at hopen' ⊢
      cases hread : readSubscriptionPage domain readLimit filters head w.log
          w.subscription.cursor with
      | error e =>
        rw [hread] at hopen'
        cases hopen'
      | ok page =>
        exact accepted_catchUpEntries hat.idle hcatchUp.1 hcatchUp.2
          (resumes_of_readSubscriptionPage hsound.log hhead hcatchUp.1 hread)
  | delivering frozenCursor d =>
    have hat := hsound.atCatchUp (by simp [hphase'])
    rw [hphase'] at hcatchUp
    obtain ⟨hcursor, hfrozen, hresumes⟩ := hcatchUp
    dsimp only
    split
    · exact ⟨hcursor, h.drain⟩
    · exact accepted_catchUpEntries hat.idle (hresumes.entry d.entry (by simp)) hfrozen
        hresumes.tail
  | completing =>
    rw [hphase'] at hcatchUp
    dsimp only
    split
    · exact ⟨hcatchUp, h.drain⟩
    · split
      · exact accepted_scheduleDrain ⟨hcatchUp, h.drain⟩
      · exact ⟨hcatchUp, h.drain⟩

theorem Accepted.step (h : Accepted domain w) (hsound : Sound w) (action : SubscribedAction)
    (hopen : (w.step domain readLimit filters action).subscription.closed = false) :
    Accepted domain (w.step domain readLimit filters action) := by
  cases action with
  | commit call => exact accepted_commit h hsound call
  | close => cases hopen
  | wake =>
    change Accepted domain (handleWake w)
    unfold handleWake
    split
    · exact h
    · exact accepted_scheduleDrain h
  | resumeCatchUp => exact accepted_resumeCatchUp h hsound hopen
  | resumeDrain => exact (accepted_resumeDrain h hsound (open_of_step hopen)).1

theorem sound_accepted_run (hsound : Sound w) (h : Accepted domain w)
    {actions : List SubscribedAction}
    (hopen : (w.run domain readLimit filters actions).subscription.closed = false) :
    Sound (w.run domain readLimit filters actions) ∧
      Accepted domain (w.run domain readLimit filters actions) := by
  induction actions generalizing w with
  | nil => exact ⟨hsound, h⟩
  | cons action actions ih =>
    have hstep : (w.step domain readLimit filters action).subscription.closed = false :=
      open_of_run hopen
    exact ih (advance_step hsound action hstep).sound (h.step hsound action hstep) hopen

theorem sound_subscribe {log : Log} (hlog : log.Positioned) (cursor : Option ProgressToken) :
    Sound (subscribe domain log cursor) := by
  cases cursor with
  | some cursor =>
    refine ⟨hlog, ⟨by simp [subscribe], fun _ => rfl, by simp [subscribe]⟩,
      ⟨rfl, by simp⟩, trivial, ?_⟩
    exact ⟨by simp [consumer, subscribe, consumerWith, handed, events],
      by simp [consumer, subscribe, consumerWith, handed, events], le_rfl,
      by simp [consumer, subscribe, consumerWith]⟩
  | none =>
    refine ⟨hlog, ⟨fun _ => rfl, fun _ => rfl, by simp [subscribe]⟩, trivial, trivial, ?_⟩
    exact ⟨by simp [consumer, subscribe, consumerWith, handed, events],
      by simp [consumer, subscribe, consumerWith, handed, events], le_rfl,
      by simp [consumer, subscribe, consumerWith]⟩

theorem accepted_subscribe (log : Log) (cursor : Option ProgressToken) :
    Accepted domain (subscribe domain log cursor) := by
  cases cursor with
  | some cursor => exact ⟨trivial, trivial⟩
  | none =>
    refine ⟨?_, trivial⟩
    change Resumable domain log (some ((latestBound domain log.head log).getD (buildToken domain 0 none)))
    cases hbound : latestBound domain log.head log with
    | some token => exact resumable_latestBound le_rfl hbound
    | none =>
      intro token htoken
      cases htoken
      refine validateCursorPosition_eq_none.mpr ⟨rfl, Nat.zero_le _, fun c c' hc => ?_⟩
      cases hc

end Accepted

/-! ## What a wake causes -/

section Wakes

/-- How often the drain has to be resumed until it is done with the page it is at. -/
def patience (readLimit : Nat) : Drain → Nat
  | .idle => 0
  | .reading _ none => max 1 readLimit + 3
  | .reading _ (some _) => max 1 readLimit + 2
  | .delivering d => d.rest.length + 2
  | .settled => 1
  | .failed => 2
  | .retrying => 1

/-- A wake has left its mark on a drain, which is still at the page it was at. -/
structure Asked (readLimit bound : Nat) (w : Subscribed) : Prop where
  opened : w.subscription.closed = false
  draining : w.subscription.draining = true
  requested : w.subscription.redrainRequested = true
  within : patience readLimit w.drain ≤ bound

theorem reads_drainOnce (h : w.subscription.closed = false) :
    (drainOnce w).reads = w.reads + 1 := by
  unfold drainOnce
  rw [if_neg (by simp [h])]

theorem reads_redrain (hopen : w.subscription.closed = false)
    (h : w.subscription.redrainRequested = true) : (redrain w).reads = w.reads + 1 := by
  unfold redrain
  rw [if_pos (by simp [h, hopen])]
  exact reads_drainOnce hopen

/-- The next entry is handed on, or the page is done: then the log is read again, now or
when the drain looks at its mark. -/
theorem asked_drainEntries {bound : Nat} {page : FeedPage} {pageCursor : ProgressToken}
    {entries : List FeedEntry} (hopen : w.subscription.closed = false)
    (hdraining : w.subscription.draining = true)
    (hrequested : w.subscription.redrainRequested = true) (hbound : entries.length + 1 ≤ bound) :
    w.reads < (drainEntries w page pageCursor entries).reads ∨
      Asked readLimit bound (drainEntries w page pageCursor entries) := by
  unfold drainEntries
  rw [if_neg (by simp [hopen])]
  cases entries with
  | cons entry rest => exact Or.inr ⟨hopen, hdraining, hrequested, hbound⟩
  | nil =>
    dsimp only
    split
    · refine Or.inr ⟨hopen, hdraining, hrequested, ?_⟩
      simpa [patience] using hbound
    · left
      rw [reads_drainOnce (w := w.moveCursor (page.cursor.getD w.subscription.cursor)) hopen]
      exact Nat.lt_succ_self _

theorem length_of_readSubscriptionPage {head : Nat} {log : Log} {cursor : ProgressToken}
    {page : FeedPage}
    (h : readSubscriptionPage domain readLimit filters head log cursor = .ok page) :
    page.events.length ≤ max 1 readLimit := by
  obtain ⟨page', hread, h⟩ := bind_eq_ok h
  have hsame : page' = page := by
    split at h
    · cases h
    · exact Except.ok.inj h
  subst hsame
  obtain ⟨_, -, hread⟩ := bind_eq_ok hread
  obtain ⟨result, hresult, hread⟩ := bind_eq_ok hread
  cases hread
  rw [List.length_map]
  exact length_logPage hresult

theorem asked_resumeDrain {bound : Nat} (h : Asked readLimit (bound + 1) w) (hsound : Sound w)
    (haccepted : Accepted domain w) :
    w.reads < (resumeDrain domain readLimit filters w).reads ∨
      Asked readLimit bound (resumeDrain domain readLimit filters w) := by
  have hbound := h.within
  have hcursor := haccepted.finished (hsound.modes.live (hsound.atDrain
    (hsound.modes.draining.mp h.draining)).live)
  have hphase := hsound.drain
  have hdrain := haccepted.drain
  unfold resumeDrain
  cases hphase' : w.drain with
  | idle => exact absurd hphase' (hsound.modes.draining.mp h.draining)
  | reading readCursor head =>
    rw [hphase'] at hbound hphase hdrain
    obtain ⟨rfl, hhead⟩ := hphase
    cases head with
    | none =>
      refine Or.inr ⟨h.opened, h.draining, h.requested, ?_⟩
      simp only [patience] at hbound ⊢
      omega
    | some head =>
      simp only [patience] at hbound
      dsimp only
      cases hread : readSubscriptionPage domain readLimit filters head w.log
          w.subscription.cursor with
      | error e =>
        have he := error_of_readSubscriptionPage hsound.log hhead hcursor (hdrain head rfl) hread
        subst he
        dsimp only
        unfold handleDrainError
        rw [if_neg (by simp [h.opened]), if_neg (by simp [isProgressGap])]
        refine Or.inr ⟨h.opened, h.draining, h.requested, ?_⟩
        simp only [patience]
        omega
      | ok page =>
        have hlength := length_of_readSubscriptionPage hread
        exact asked_drainEntries h.opened h.draining h.requested (by omega)
  | delivering d =>
    rw [hphase'] at hbound
    simp only [patience] at hbound
    dsimp only
    rw [if_neg (by simp [h.opened])]
    have hrest : d.rest.length + 1 ≤ bound := by omega
    exact asked_drainEntries (w := w.moveCursor (entryToken d.pageCursor d.entry)) h.opened
      h.draining h.requested hrest
  | settled =>
    left
    dsimp only
    rw [reads_redrain h.opened h.requested]
    exact Nat.lt_succ_self _
  | failed =>
    rw [hphase'] at hbound
    dsimp only
    rw [if_pos (by simp [h.opened, h.requested])]
    refine Or.inr ⟨h.opened, h.draining, h.requested, ?_⟩
    simp only [patience] at hbound ⊢
    omega
  | retrying =>
    left
    dsimp only
    rw [reads_redrain h.opened h.requested]
    exact Nat.lt_succ_self _

theorem reads_le_drainOnce (w : Subscribed) : w.reads ≤ (drainOnce w).reads := by
  unfold drainOnce
  split
  · exact le_rfl
  · exact Nat.le_succ _

theorem reads_le_redrain (w : Subscribed) : w.reads ≤ (redrain w).reads := by
  unfold redrain
  split
  · exact reads_le_drainOnce { w with
      subscription := { w.subscription with redrainRequested := false } }
  · exact le_rfl

theorem reads_le_drainEntries (w : Subscribed) (page : FeedPage) (pageCursor : ProgressToken)
    (entries : List FeedEntry) : w.reads ≤ (drainEntries w page pageCursor entries).reads := by
  unfold drainEntries
  split
  · exact le_rfl
  · cases entries with
    | cons entry rest => exact le_rfl
    | nil =>
      dsimp only
      split
      · exact le_rfl
      · exact reads_le_drainOnce (w.moveCursor (page.cursor.getD w.subscription.cursor))

theorem reads_le_handleDrainError (w : Subscribed) (e : Failure) :
    w.reads ≤ (handleDrainError w e).reads := by
  unfold handleDrainError
  split
  · exact le_rfl
  · split <;> exact le_rfl

theorem reads_le_resumeDrain (w : Subscribed) :
    w.reads ≤ (resumeDrain domain readLimit filters w).reads := by
  unfold resumeDrain
  cases w.drain with
  | idle => exact le_rfl
  | reading readCursor head =>
    cases head with
    | none => exact le_rfl
    | some head =>
      dsimp only
      cases readSubscriptionPage domain readLimit filters head w.log readCursor with
      | error e => exact reads_le_handleDrainError w e
      | ok page => exact reads_le_drainEntries w _ _ _
  | delivering d =>
    dsimp only
    split
    · exact le_rfl
    · exact reads_le_drainEntries (w.moveCursor (entryToken d.pageCursor d.entry)) _ _ _
  | settled => exact reads_le_redrain w
  | failed =>
    dsimp only
    split
    · exact le_rfl
    · exact reads_le_redrain w
  | retrying => exact reads_le_redrain w

/-- While a drain is at work, catch-up is over. -/
theorem step_of_draining (hsound : Sound w) (h : w.subscription.draining = true) :
    w.step domain readLimit filters .resumeCatchUp = w := by
  have hat := hsound.atDrain (hsound.modes.draining.mp h)
  change resumeCatchUp domain readLimit filters w = w
  unfold resumeCatchUp
  rw [hat.finished]

theorem handleWake_of_draining (hsound : Sound w) (hopen : w.subscription.closed = false)
    (h : w.subscription.draining = true) : handleWake w =
      { w with subscription := { w.subscription with redrainRequested := true } } := by
  have hat := hsound.atDrain (hsound.modes.draining.mp h)
  unfold handleWake scheduleDrain drainSubscription
  rw [if_neg (by simp [hopen]), if_pos hat.live, if_pos h]

end Wakes

/-- The run closes the subscription. -/
def closes : SubscribedAction → Bool
  | .close => true
  | _ => false

def resumesDrain : SubscribedAction → Bool
  | .resumeDrain => true
  | _ => false

section Wakes

theorem reads_le_scheduleDrain (w : Subscribed) : w.reads ≤ (scheduleDrain w).reads := by
  unfold scheduleDrain drainSubscription
  split
  · split
    · exact le_rfl
    · exact reads_le_drainOnce { w with
        subscription := { w.subscription with draining := true, redrainRequested := false } }
  · exact le_rfl

theorem reads_finishCatchUp (w : Subscribed) (frozenCursor : ProgressToken) :
    (finishCatchUp w frozenCursor).reads = w.reads := by
  unfold finishCatchUp
  dsimp only
  split <;> rfl

theorem reads_le_catchUpOnce (w : Subscribed) (frozenCursor : ProgressToken) :
    w.reads ≤ (catchUpOnce w frozenCursor).reads := by
  unfold catchUpOnce
  split
  · exact Nat.le_succ _
  · rw [reads_finishCatchUp]

theorem reads_le_finishCatchUpPage (w : Subscribed) (frozenCursor : ProgressToken)
    (page : FeedPage) (reached : Bool) :
    w.reads ≤ (finishCatchUpPage w frozenCursor page reached).reads := by
  unfold finishCatchUpPage
  dsimp only
  split
  · rw [reads_finishCatchUp]
  · exact reads_le_catchUpOnce (w.moveCursor (page.cursor.getD w.subscription.cursor)) _

theorem reads_le_catchUpEntries (w : Subscribed) (frozenCursor : ProgressToken) (page : FeedPage)
    (pageCursor : ProgressToken) (entries : List FeedEntry) :
    w.reads ≤ (catchUpEntries w frozenCursor page pageCursor entries).reads := by
  unfold catchUpEntries
  split
  · exact le_rfl
  · cases entries with
    | cons entry rest =>
      dsimp only
      split
      · exact reads_le_finishCatchUpPage w _ _ _
      · exact le_rfl
    | nil => exact reads_le_finishCatchUpPage w _ _ _

theorem reads_le_resumeCatchUp (w : Subscribed) :
    w.reads ≤ (resumeCatchUp domain readLimit filters w).reads := by
  unfold resumeCatchUp
  cases w.catchUp with
  | finished => exact le_rfl
  | bounding head => cases head <;> exact le_rfl
  | validating frozenCursor head =>
    cases head with
    | none => exact le_rfl
    | some head =>
      dsimp only
      cases DurableEventLog.read domain head w.log (some w.subscription.cursor) (some 0) none with
      | error e => exact le_rfl
      | ok page => exact reads_le_catchUpOnce w frozenCursor
  | reading frozenCursor readCursor head =>
    cases head with
    | none => exact le_rfl
    | some head =>
      dsimp only
      cases readSubscriptionPage domain readLimit filters head w.log readCursor with
      | error e => exact le_rfl
      | ok page => exact reads_le_catchUpEntries w _ _ _ _
  | delivering frozenCursor d =>
    dsimp only
    split
    · exact le_rfl
    · exact reads_le_catchUpEntries (w.moveCursor (entryToken d.pageCursor d.entry)) _ _ _ _
  | completing =>
    dsimp only
    split
    · exact le_rfl
    · split
      · exact reads_le_scheduleDrain { w with
          catchUp := .finished, subscription := { w.subscription with liveReady := true } }
      · exact le_rfl

theorem reads_le_step (w : Subscribed) (action : SubscribedAction) :
    w.reads ≤ (w.step domain readLimit filters action).reads := by
  cases action with
  | commit call => exact le_rfl
  | close => exact le_rfl
  | wake =>
    change w.reads ≤ (handleWake w).reads
    unfold handleWake
    split
    · exact le_rfl
    · exact reads_le_scheduleDrain w
  | resumeCatchUp => exact reads_le_resumeCatchUp w
  | resumeDrain => exact reads_le_resumeDrain w

theorem reads_le_run (w : Subscribed) (actions : List SubscribedAction) :
    w.reads ≤ (w.run domain readLimit filters actions).reads := by
  induction actions generalizing w with
  | nil => exact le_rfl
  | cons action actions ih => exact (reads_le_step w action).trans (ih _)

theorem Asked.pos {bound : Nat} (h : Asked readLimit bound w) (hsound : Sound w) : 0 < bound := by
  have hpatience := h.within
  cases hdrain : w.drain with
  | idle => exact absurd hdrain (hsound.modes.draining.mp h.draining)
  | reading readCursor head =>
    rw [hdrain] at hpatience
    cases head <;> simp only [patience] at hpatience <;> omega
  | _ =>
    rw [hdrain] at hpatience
    simp only [patience] at hpatience
    omega

theorem asked_step {bound : Nat} (h : Asked readLimit bound w) (hsound : Sound w)
    {action : SubscribedAction} (hclose : closes action = false)
    (hdrain : resumesDrain action = false) :
    Asked readLimit bound (w.step domain readLimit filters action) := by
  cases action with
  | commit call => exact ⟨h.opened, h.draining, h.requested, h.within⟩
  | close => cases hclose
  | wake =>
    change Asked readLimit bound (handleWake w)
    rw [handleWake_of_draining hsound h.opened h.draining]
    exact ⟨h.opened, h.draining, rfl, h.within⟩
  | resumeCatchUp =>
    rw [step_of_draining hsound h.draining]
    exact h
  | resumeDrain => cases hdrain

/-- A drain that was asked to reads the log again before it ends, and as soon as it is
done with its page. -/
theorem reads_lt_run {bound : Nat} (h : Asked readLimit bound w) (hsound : Sound w)
    (haccepted : Accepted domain w) (actions : List SubscribedAction)
    (hclose : ∀ action ∈ actions, closes action = false)
    (hend : (w.run domain readLimit filters actions).subscription.draining = false ∨
      bound ≤ actions.countP resumesDrain) :
    w.reads < (w.run domain readLimit filters actions).reads := by
  induction actions generalizing w bound with
  | nil =>
    have hpos := h.pos hsound
    obtain hend | hend := hend
    · have hdraining : w.subscription.draining = false := hend
      rw [h.draining] at hdraining
      cases hdraining
    · simp at hend
      omega
  | cons action actions ih =>
    have hthis := hclose action (by simp)
    have hrest : ∀ a ∈ actions, closes a = false := fun a ha => hclose a (by simp [ha])
    by_cases hdrain : resumesDrain action = true
    · have haction : action = .resumeDrain := by cases action <;> simp_all [resumesDrain]
      subst haction
      obtain ⟨bound, rfl⟩ : ∃ b, bound = b + 1 := ⟨bound - 1, by have := h.pos hsound; omega⟩
      obtain hread | hasked : w.reads < (resumeDrain domain readLimit filters w).reads ∨
          Asked readLimit bound (resumeDrain domain readLimit filters w) :=
        asked_resumeDrain h hsound haccepted
      · exact lt_of_lt_of_le hread (reads_le_run _ actions)
      · refine lt_of_le_of_lt (reads_le_resumeDrain w) (ih hasked ?_ ?_ hrest ?_)
        · exact (advance_resumeDrain hsound hasked.opened).sound
        · exact (accepted_resumeDrain haccepted hsound h.opened).1
        · rw [List.countP_cons_of_pos hdrain] at hend
          exact hend.imp id (by omega)
    · have hasked : Asked readLimit bound (w.step domain readLimit filters action) :=
        asked_step h hsound hthis (by simpa using hdrain)
      refine lt_of_le_of_lt (reads_le_step w action) (ih hasked ?_ ?_ hrest ?_)
      · exact (advance_step hsound action hasked.opened).sound
      · exact haccepted.step hsound action hasked.opened
      · rw [List.countP_cons_of_neg hdrain] at hend
        exact hend

end Wakes

/-! ## Delivery -/

/-- The position up to which the log has been read for the listener: the end of the page
in delivery, and no further than the frozen cursor during catch-up. -/
def readUpTo (w : Subscribed) : Nat :=
  match w.catchUp with
  | .delivering frozenCursor d => min (positionOf d.page.cursor) frozenCursor.position
  | _ =>
    match w.drain with
    | .delivering d => positionOf d.page.cursor
    | _ => w.position

theorem covered_consumer (w : Subscribed) : w.consumer.covered = w.readUpTo := by
  unfold consumer readUpTo
  cases w.catchUp <;> cases w.drain <;> rfl

theorem run_append (w : Subscribed) (pre post : List SubscribedAction) :
    w.run domain readLimit filters (pre ++ post) =
      (w.run domain readLimit filters pre).run domain readLimit filters post :=
  List.foldl_append

theorem mem_handed {x : Nat × Cid} :
    x ∈ w.handed ↔ ∃ e ∈ w.events, e.cursor.position = x.1 ∧ e.messageCid = x.2 := by
  unfold handed
  rw [List.mem_map]
  constructor
  · rintro ⟨e, he, rfl⟩
    exact ⟨e, he, rfl, rfl⟩
  · rintro ⟨e, he, hposition, hcid⟩
    exact ⟨e, he, Prod.ext hposition hcid⟩

end Subscribed

/-- A subscribe call: the configuration of the event log, the log and the options. -/
structure SubscribeCall where
  domain : StreamDomain
  readLimit : Nat
  filters : Option (List Filter)
  log : Log
  cursor : Option ProgressToken

namespace SubscribeCall
open Subscribed

def after (call : SubscribeCall) (actions : List SubscribedAction) : Subscribed :=
  (subscribe call.domain call.log call.cursor).run call.domain call.readLimit call.filters actions

variable {call : SubscribeCall}

theorem after_append (pre post : List SubscribedAction) : call.after (pre ++ post) =
    (call.after pre).run call.domain call.readLimit call.filters post :=
  Subscribed.run_append _ pre post

/-- What every run hands to the listener. Positions rise, also across the switch from
catch-up to live. A row that is live and selected, from some point before the log was
read as far as it until the cursor passes it, is among the events. And a wake that finds
a drain at work is answered by a read that starts after it: before that drain ends, and
as soon as the drain is done with its page. -/
theorem deliveries (hlog : call.log.Positioned) (actions : List SubscribedAction) :
    ((call.after actions).events.map fun e => e.cursor.position).Pairwise (· < ·) ∧
    (∀ pre post, actions = pre ++ post → ∀ position c,
      (call.after pre).readUpTo < position →
      (∀ l, l <+: post → (call.after (pre ++ l)).position < position →
        (call.after (pre ++ l)).Shows call.filters (position, c)) →
      (call.after actions).subscription.closed = false →
      position ≤ (call.after actions).position →
      ∃ e ∈ (call.after actions).events, e.cursor.position = position ∧ e.messageCid = c) ∧
    (∀ pre post, actions = pre ++ .wake :: post →
      (call.after pre).subscription.draining = true →
      (call.after pre).subscription.closed = false →
      (∀ action ∈ post, closes action = false) →
      ((call.after actions).subscription.draining = false ∨
        patience call.readLimit (call.after pre).drain ≤ post.countP resumesDrain) →
      (call.after (pre ++ [.wake])).reads < (call.after actions).reads) := by
  have hsound : Sound (call.after []) := sound_subscribe hlog call.cursor
  have haccepted : Accepted call.domain (call.after []) := accepted_subscribe call.log call.cursor
  have hsafe : ∀ l, Safe (call.after l) := fun l => hsound.safe.run l
  refine ⟨?_, ?_, ?_⟩
  · have hrising := (hsafe actions).rising
    unfold handed at hrising
    rw [List.map_map] at hrising
    exact hrising
  · intro pre post hactions position c hbefore hshows hopen hpassed
    subst hactions
    rw [after_append] at hopen hpassed ⊢
    have hpre := (hsafe pre).sound (open_of_run hopen)
    refine mem_handed.mp (hpre.mem_handed_run (x := (position, c)) ?_ post hopen ?_ hpassed)
    · left
      rw [covered_consumer]
      exact hbefore
    · intro l hl
      rw [← after_append]
      exact hshows l hl
  · intro pre post hactions hdraining hopen hclose hend
    subst hactions
    have hsplit : pre ++ .wake :: post = (pre ++ [.wake]) ++ post := by simp
    have hwake : call.after (pre ++ [.wake]) = handleWake (call.after pre) := by
      rw [after_append]
      rfl
    have hrun : call.after (pre ++ .wake :: post) =
        (handleWake (call.after pre)).run call.domain call.readLimit call.filters post := by
      rw [hsplit, after_append, hwake]
    rw [hrun] at hend ⊢
    rw [hwake]
    obtain ⟨hpre, hprea⟩ : Sound (call.after pre) ∧ Accepted call.domain (call.after pre) :=
      sound_accepted_run hsound haccepted hopen
    have hmarked := handleWake_of_draining hpre hopen hdraining
    have hasked : Asked call.readLimit (patience call.readLimit (call.after pre).drain)
        (handleWake (call.after pre)) := by
      rw [hmarked]
      exact ⟨hopen, hdraining, rfl, le_rfl⟩
    have hadvance : Advance call.filters (call.after pre) (handleWake (call.after pre)) :=
      advance_handleWake hpre
    refine reads_lt_run hasked hadvance.sound ?_ post hclose hend
    rw [hmarked]
    exact ⟨hprea.catchUp, hprea.drain⟩

end SubscribeCall

end EnboxDwn

namespace EnboxDwn.SubscribeCall
open KeyValues MessageStore Subscribed

local instance : Platform := Platform.ofText

def letter (signature : String) : StoredMessage where
  message := .recordsWrite
    { recordId := signature, contextId := signature,
      descriptor := { module := "mail", modulePath := "letter", dataCid := "text", dataSize := 4,
                      dataFormat := "text/plain", dateCreated := "1", messageTimestamp := "1" },
      authorization := { signature, signer := "alice" } }

def commitLetter (signature : String) : SubscribedAction :=
  .commit (.put (letter signature) [("recordId", text signature)])

/-- A subscriber that reads the log from its beginning, one row at a time. -/
def inbox : SubscribeCall where
  domain := ⟨"alice", "epoch"⟩
  readLimit := 1
  filters := none
  log := {}
  cursor := some { streamId := "alice", epoch := "epoch", position := 0 }

/-- One letter is caught up with, the second drained, the third arrives with its wake while
the second is in delivery. -/
def threeLetters : List SubscribedAction :=
  [commitLetter "a"] ++ List.replicate 9 .resumeCatchUp ++ [commitLetter "b", .wake] ++
    List.replicate 2 .resumeDrain ++ [commitLetter "c", .wake] ++ List.replicate 7 .resumeDrain

/-- The wake finds the drain at work and the third letter is read and handed on. -/
theorem deliveries_threeLetters :
    (inbox.after threeLetters).events.map (fun e => e.cursor.position) = [1, 2, 3] ∧
    (inbox.after (threeLetters.take 16)).reads < (inbox.after threeLetters).reads := by
  refine ⟨by decide, ?_⟩
  have hlog : inbox.log.Positioned := Log.positioned_empty
  obtain ⟨-, -, hwake⟩ := deliveries hlog threeLetters
  exact hwake (threeLetters.take 15) (threeLetters.drop 16) rfl (by decide)
    (by decide) (by decide) (Or.inr (by decide))

end EnboxDwn.SubscribeCall
