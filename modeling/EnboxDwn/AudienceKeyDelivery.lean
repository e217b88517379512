import Mathlib.Data.List.Basic

/-! The scheduler of role-delivery repairs: requests that come at any time, runs that succeed, ask
for a retry or throw, and the one retry timer. The coordinator is not closed. -/
namespace EnboxDwn

/-- A drain that has been handed to the task group, or that awaits a run. -/
inductive DrainStage where
  | due
  | running (includeDormant : Bool)
  deriving DecidableEq, Repr

inductive RunOutcome where
  | resolved (retry : Bool)
  | threw (replicaNotCurrent : Bool)
  deriving DecidableEq, Repr

/-- A run that throws asks for a retry, and for dormant work if it had it. -/
def RunOutcome.retry : RunOutcome → Bool
  | .resolved retry => retry
  | .threw _ => true

def RunOutcome.retryDormant (includeDormant : Bool) : RunOutcome → Bool
  | .resolved _ => false
  | .threw _ => includeDormant

def RunOutcome.waitingForCurrent : RunOutcome → Bool
  | .resolved _ => false
  | .threw replicaNotCurrent => replicaNotCurrent

/-- What has happened; a run that throws is noted with the retry attempt of that moment. -/
inductive DeliveryNote where
  | woken
  | reconciled
  | started (includeDormant : Bool)
  | threw (includeDormant : Bool) (retryAttempt : Nat)
  deriving DecidableEq, Repr

/-- The fields, the timer, the drains that are under way and what has happened. -/
structure AudienceKeyDeliveryCoordinator where
  retryDelays : List Nat
  pending : Option Bool := none
  retryAttempt : Nat := 0
  retryDormant : Bool := false
  running : Bool := false
  waitingForCurrent : Bool := false
  timer : Option Nat := none
  drains : List DrainStage := []
  history : List DeliveryNote := []
  deriving DecidableEq, Repr

namespace AudienceKeyDeliveryCoordinator

abbrev Coordinator := AudienceKeyDeliveryCoordinator

def note (c : Coordinator) (n : DeliveryNote) : Coordinator := { c with history := c.history ++ [n] }

def startDrain (c : Coordinator) : Coordinator :=
  { c with running := true, drains := c.drains ++ [.due] }

def startDrainIfIdle (c : Coordinator) : Coordinator := if c.running then c else c.startDrain

def request (c : Coordinator) (includeDormant : Bool) : Coordinator :=
  let retryDormant := includeDormant || c.retryDormant
  startDrainIfIdle
    { c with
      timer := none
      retryDormant := false
      retryAttempt := 0
      pending := some (retryDormant || c.pending = some true) }

def reconcile (c : Coordinator) : Coordinator := (c.note .reconciled).request false

def wake (c : Coordinator) : Coordinator := (c.note .woken).request true

def scheduleRetry (c : Coordinator) (includeDormant : Bool) : Coordinator :=
  if c.timer.isSome then { c with retryDormant := c.retryDormant || includeDormant }
  else
    match c.retryDelays[c.retryAttempt]? with
    | none => c
    | some delay =>
      { c with
        retryDormant := includeDormant
        retryAttempt := c.retryAttempt + 1
        timer := some delay }

def retry (c : Coordinator) : Coordinator :=
  scheduleRetry { c with timer := none, retryAttempt := 0 } c.retryDormant

/-- The callback of the timer, which is no longer armed then. -/
def timerFired (c : Coordinator) : Coordinator :=
  startDrainIfIdle
    { c with
      timer := none
      pending := some (c.retryDormant || c.pending = some true)
      retryDormant := false }

/-- The head of the loop, for one drain: the next run begins, or the drain is over. -/
def loop (c : Coordinator) (n : Nat) : Coordinator :=
  match c.pending with
  | some includeDormant =>
    note { c with pending := none, drains := c.drains.set n (.running includeDormant) }
      (.started includeDormant)
  | none => { c with running := false, drains := c.drains.eraseIdx n }

def keepDormant (c : Coordinator) (retryDormant : Bool) : Coordinator :=
  { c with pending := if retryDormant && c.pending.isSome then some true else c.pending }

def retryAfterRun (c : Coordinator) (retry retryDormant : Bool) : Coordinator :=
  if retry && c.pending.isNone then c.scheduleRetry retryDormant
  else if !retry && c.timer.isNone then { c with retryAttempt := 0 }
  else c

/-- What the body of the loop does when the run has ended. -/
def settle (c : Coordinator) (includeDormant : Bool) (outcome : RunOutcome) : Coordinator :=
  let retryDormant := outcome.retryDormant includeDormant
  let c := keepDormant { c with waitingForCurrent := outcome.waitingForCurrent } retryDormant
  c.retryAfterRun outcome.retry retryDormant

def noteOutcome (c : Coordinator) (includeDormant : Bool) : RunOutcome → Coordinator
  | .resolved _ => c
  | .threw _ => c.note (.threw includeDormant c.retryAttempt)

inductive Event where
  | wake
  | reconcile
  | retry
  | timerFires
  | drainBegins (n : Nat)
  | runEnds (n : Nat) (outcome : RunOutcome)
  deriving DecidableEq, Repr

def step (c : Coordinator) : Event → Option Coordinator
  | .wake => some c.wake
  | .reconcile => some c.reconcile
  | .retry => some c.retry
  | .timerFires => if c.timer.isSome then some c.timerFired else none
  | .drainBegins n => if c.drains[n]? = some .due then some (c.loop n) else none
  | .runEnds n outcome =>
    match c.drains[n]? with
    | some (.running includeDormant) =>
      some (((c.noteOutcome includeDormant outcome).settle includeDormant outcome).loop n)
    | _ => none

def run (c : Coordinator) : List Event → Option Coordinator
  | [] => some c
  | event :: events => (c.step event).bind fun c' => run c' events

/-- Drains and timer in the fields: there is one drain while `running` is set, a dormant retry has
its timer, and a timer has been armed for one of the delays. -/
structure Steady (c : Coordinator) : Prop where
  drains : c.drains.length = if c.running then 1 else 0
  dormant : c.retryDormant = true → c.timer.isSome = true
  delays : c.timer.isSome = true → c.retryDelays ≠ []

theorem Steady.startDrainIfIdle {c : Coordinator} (h : Steady c) : Steady c.startDrainIfIdle := by
  rw [AudienceKeyDeliveryCoordinator.startDrainIfIdle]
  split_ifs with hrunning
  · exact h
  · have hdrains := h.drains
    rw [if_neg hrunning] at hdrains
    exact ⟨by simp [startDrain, hdrains], h.dormant, h.delays⟩

theorem Steady.request {c : Coordinator} (h : Steady c) (includeDormant : Bool) :
    Steady (c.request includeDormant) := by
  apply Steady.startDrainIfIdle
  exact ⟨h.drains, by simp, by simp⟩

theorem Steady.note {c : Coordinator} (h : Steady c) (n : DeliveryNote) : Steady (c.note n) :=
  ⟨h.drains, h.dormant, h.delays⟩

theorem Steady.scheduleRetry {c : Coordinator} (hdrains : c.drains.length = if c.running then 1 else 0)
    (hdormant : c.retryDormant = true → c.timer.isSome = true ∨ c.retryDelays[c.retryAttempt]?.isSome)
    (hdelays : c.timer.isSome = true → c.retryDelays ≠ []) (includeDormant : Bool) :
    Steady (c.scheduleRetry includeDormant) := by
  rw [AudienceKeyDeliveryCoordinator.scheduleRetry]
  split_ifs with htimer
  · exact ⟨hdrains, fun _ => htimer, hdelays⟩
  · split
    · rename_i hnone
      refine ⟨hdrains, ?_, hdelays⟩
      intro hretry
      rcases hdormant hretry with hsome | hsome
      · exact hsome
      · rw [hnone] at hsome
        cases hsome
    · rename_i delay hsome
      refine ⟨hdrains, fun _ => rfl, fun _ => ?_⟩
      intro hnil
      change c.retryDelays = [] at hnil
      rw [hnil] at hsome
      cases hsome

theorem Steady.retry {c : Coordinator} (h : Steady c) : Steady c.retry := by
  rw [AudienceKeyDeliveryCoordinator.retry]
  apply Steady.scheduleRetry
  · exact h.drains
  · intro hretry
    right
    have hne := h.delays (h.dormant hretry)
    cases hdelays : c.retryDelays with
    | nil => exact absurd hdelays hne
    | cons delay rest => rfl
  · intro htimer
    cases htimer

theorem Steady.timerFired {c : Coordinator} (h : Steady c) : Steady c.timerFired := by
  apply Steady.startDrainIfIdle
  exact ⟨h.drains, by simp, by simp⟩

theorem Steady.loop {c : Coordinator} (h : Steady c) {n : Nat} (hn : n < c.drains.length) :
    Steady (c.loop n) := by
  rw [AudienceKeyDeliveryCoordinator.loop.eq_def]
  split
  · apply Steady.note
    exact ⟨by simpa using h.drains, h.dormant, h.delays⟩
  · refine ⟨?_, h.dormant, h.delays⟩
    have hdrains := h.drains
    simp only [Bool.false_eq_true, if_false, List.length_eraseIdx]
    split_ifs at hdrains ⊢ <;> omega

theorem Steady.settle {c : Coordinator} (h : Steady c) (includeDormant : Bool)
    (outcome : RunOutcome) : Steady (c.settle includeDormant outcome) := by
  rw [AudienceKeyDeliveryCoordinator.settle, retryAfterRun]
  split_ifs
  · apply Steady.scheduleRetry
    · exact h.drains
    · intro hretry
      exact .inl (h.dormant hretry)
    · exact h.delays
  · exact ⟨h.drains, h.dormant, h.delays⟩
  · exact ⟨h.drains, h.dormant, h.delays⟩

theorem scheduleRetry_frame (c : Coordinator) (includeDormant : Bool) :
    (c.scheduleRetry includeDormant).drains = c.drains ∧
      (c.scheduleRetry includeDormant).history = c.history ∧
      (c.scheduleRetry includeDormant).pending = c.pending := by
  rw [AudienceKeyDeliveryCoordinator.scheduleRetry.eq_def]
  split_ifs
  · exact ⟨rfl, rfl, rfl⟩
  · split <;> exact ⟨rfl, rfl, rfl⟩

theorem retryAfterRun_frame (c : Coordinator) (retry retryDormant : Bool) :
    (c.retryAfterRun retry retryDormant).drains = c.drains ∧
      (c.retryAfterRun retry retryDormant).history = c.history ∧
      (c.retryAfterRun retry retryDormant).pending = c.pending := by
  rw [retryAfterRun]
  split_ifs
  · exact scheduleRetry_frame c retryDormant
  · exact ⟨rfl, rfl, rfl⟩
  · exact ⟨rfl, rfl, rfl⟩

theorem Steady.step {c c' : Coordinator} (h : Steady c) {event : Event}
    (hstep : c.step event = some c') : Steady c' := by
  cases event with
  | wake =>
    cases hstep
    exact (h.note .woken).request true
  | reconcile =>
    cases hstep
    exact (h.note .reconciled).request false
  | retry =>
    cases hstep
    exact h.retry
  | timerFires =>
    obtain ⟨-, hc⟩ := Option.ite_none_right_eq_some.mp hstep
    cases hc
    exact h.timerFired
  | drainBegins n =>
    obtain ⟨hdue, hc⟩ := Option.ite_none_right_eq_some.mp hstep
    cases hc
    exact h.loop (List.getElem?_eq_some_iff.mp hdue).1
  | runEnds n outcome =>
    rw [AudienceKeyDeliveryCoordinator.step.eq_def] at hstep
    dsimp only at hstep
    split at hstep
    · rename_i includeDormant hstage
      cases hstep
      have hnoted : Steady (c.noteOutcome includeDormant outcome) := by
        cases outcome with
        | resolved retry => exact h
        | threw replicaNotCurrent => exact h.note _
      apply (hnoted.settle includeDormant outcome).loop
      have hn := (List.getElem?_eq_some_iff.mp hstage).1
      have hframe := (retryAfterRun_frame (keepDormant
        { c.noteOutcome includeDormant outcome with waitingForCurrent := outcome.waitingForCurrent }
        (outcome.retryDormant includeDormant)) outcome.retry
        (outcome.retryDormant includeDormant)).1
      rw [AudienceKeyDeliveryCoordinator.settle, hframe]
      cases outcome <;> exact hn
    · cases hstep

/-! ## Nothing is lost or downgraded -/

/-- One note of the first kind has been followed by none of the second. -/
def Open (asked answered : DeliveryNote → Prop) (history : List DeliveryNote) : Prop :=
  ∃ before n after, history = before ++ n :: after ∧ asked n ∧ ∀ m ∈ after, ¬ answered m

theorem open_snoc {asked answered : DeliveryNote → Prop} {history : List DeliveryNote}
    {n : DeliveryNote} (h : Open asked answered (history ++ [n])) :
    asked n ∨ ¬ answered n ∧ Open asked answered history := by
  obtain ⟨before, m, after, heq, hasked, hnone⟩ := h
  rcases List.eq_nil_or_concat after with rfl | ⟨rest, k, rfl⟩
  · have hlast := (List.append_inj' heq rfl).2
    rw [List.singleton_inj] at hlast
    rw [hlast]
    exact .inl hasked
  · rw [List.concat_eq_append, ← List.cons_append, ← List.append_assoc] at heq
    obtain ⟨rfl, hk⟩ := List.append_inj' heq rfl
    rw [List.singleton_inj] at hk
    subst hk
    right
    refine ⟨hnone n (by simp), before, m, rest, rfl, hasked, ?_⟩
    intro j hj
    exact hnone j (by simp [hj])

def IsStart : DeliveryNote → Prop
  | .started _ => True
  | _ => False

def IsDormantThrow (retryDelays : List Nat) : DeliveryNote → Prop
  | .threw true retryAttempt => retryAttempt < retryDelays.length
  | _ => False

def CarriesDormant (c : Coordinator) : Prop := c.timer.isSome = true ∧ c.retryDormant = true

/-- What is still asked for is pending, or carried by the timer. -/
structure Kept (c : Coordinator) : Prop where
  woken : Open (· = .woken) (· = .started true) c.history → c.pending = some true
  reconciled : Open (· = .reconciled) IsStart c.history → c.pending.isSome = true
  thrown : Open (IsDormantThrow c.retryDelays) (· = .started true) c.history →
    c.pending = some true ∨ c.CarriesDormant

theorem Kept.startDrainIfIdle {c : Coordinator} (h : Kept c) : Kept c.startDrainIfIdle := by
  rw [AudienceKeyDeliveryCoordinator.startDrainIfIdle]
  split_ifs
  · exact h
  · exact ⟨h.woken, h.reconciled, h.thrown⟩

theorem Kept.wake (c : Coordinator) : Kept c.wake := by
  apply Kept.startDrainIfIdle
  exact ⟨fun _ => rfl, fun _ => rfl, fun _ => .inl rfl⟩

theorem Kept.reconcile {c : Coordinator} (h : Kept c) : Kept c.reconcile := by
  apply Kept.startDrainIfIdle
  constructor
  · intro hopen
    rcases open_snoc hopen with heq | ⟨-, hopen⟩
    · cases heq
    · simp [AudienceKeyDeliveryCoordinator.note, h.woken hopen]
  · intro _
    rfl
  · intro hopen
    rcases open_snoc hopen with hasked | ⟨-, hopen⟩
    · exact hasked.elim
    · left
      rcases h.thrown hopen with hpending | hcarries
      · simp [AudienceKeyDeliveryCoordinator.note, hpending]
      · simp [AudienceKeyDeliveryCoordinator.note, hcarries.2]

theorem CarriesDormant.scheduleRetry {c : Coordinator} (h : c.CarriesDormant)
    (includeDormant : Bool) : (c.scheduleRetry includeDormant).CarriesDormant := by
  rw [AudienceKeyDeliveryCoordinator.scheduleRetry, if_pos h.1]
  exact ⟨h.1, by simp [h.2]⟩

theorem carriesDormant_of_delay {c : Coordinator} (h : c.retryAttempt < c.retryDelays.length) :
    (c.scheduleRetry true).CarriesDormant := by
  rw [AudienceKeyDeliveryCoordinator.scheduleRetry.eq_def]
  split_ifs with htimer
  · exact ⟨htimer, by simp⟩
  · rw [List.getElem?_eq_getElem h]
    exact ⟨rfl, rfl⟩

theorem scheduleRetry_delays (c : Coordinator) (includeDormant : Bool) :
    (c.scheduleRetry includeDormant).retryDelays = c.retryDelays := by
  rw [AudienceKeyDeliveryCoordinator.scheduleRetry.eq_def]
  split_ifs
  · rfl
  · split <;> rfl

theorem Kept.retry {c : Coordinator} (h : Kept c) (hsteady : Steady c) : Kept c.retry := by
  obtain ⟨-, hhistory, hpending⟩ :=
    scheduleRetry_frame { c with timer := none, retryAttempt := 0 } c.retryDormant
  have hdelays := scheduleRetry_delays { c with timer := none, retryAttempt := 0 } c.retryDormant
  rw [AudienceKeyDeliveryCoordinator.retry]
  constructor
  · rw [hhistory, hpending]
    exact h.woken
  · rw [hhistory, hpending]
    exact h.reconciled
  · rw [hhistory, hpending, hdelays]
    intro hopen
    rcases h.thrown hopen with htrue | hcarries
    · exact .inl htrue
    · right
      rw [hcarries.2]
      apply carriesDormant_of_delay
      exact List.length_pos_iff.mpr (hsteady.delays hcarries.1)

theorem Kept.timerFired {c : Coordinator} (h : Kept c) : Kept c.timerFired := by
  apply Kept.startDrainIfIdle
  constructor
  · intro hopen
    simp [h.woken hopen]
  · intro _
    rfl
  · intro hopen
    left
    rcases h.thrown hopen with hpending | hcarries
    · simp [hpending]
    · simp [hcarries.2]

theorem Kept.loop {c : Coordinator} (h : Kept c) (n : Nat) : Kept (c.loop n) := by
  rw [AudienceKeyDeliveryCoordinator.loop.eq_def]
  split
  · rename_i includeDormant hpending
    constructor
    · intro hopen
      rcases open_snoc hopen with heq | ⟨hnot, hopen⟩
      · cases heq
      · have htrue := h.woken hopen
        rw [hpending, Option.some.injEq] at htrue
        exact absurd (congrArg DeliveryNote.started htrue) hnot
    · intro hopen
      rcases open_snoc hopen with heq | ⟨hnot, -⟩
      · cases heq
      · exact absurd trivial hnot
    · intro hopen
      rcases open_snoc hopen with hasked | ⟨hnot, hopen⟩
      · exact hasked.elim
      · rcases h.thrown hopen with htrue | hcarries
        · rw [hpending, Option.some.injEq] at htrue
          exact absurd (congrArg DeliveryNote.started htrue) hnot
        · exact .inr hcarries
  · exact ⟨h.woken, h.reconciled, h.thrown⟩

theorem Kept.keepDormant {c : Coordinator} (h : Kept c) (retryDormant : Bool) :
    Kept (c.keepDormant retryDormant) := by
  rw [AudienceKeyDeliveryCoordinator.keepDormant]
  split_ifs with hsome
  · exact ⟨fun _ => rfl, fun _ => rfl, fun _ => .inl rfl⟩
  · exact ⟨h.woken, h.reconciled, h.thrown⟩

theorem Kept.retryAfterRun {c : Coordinator} (h : Kept c) (retry retryDormant : Bool) :
    Kept (c.retryAfterRun retry retryDormant) := by
  rw [AudienceKeyDeliveryCoordinator.retryAfterRun]
  split_ifs
  · obtain ⟨-, hhistory, hpending⟩ := scheduleRetry_frame c retryDormant
    constructor
    · rw [hhistory, hpending]
      exact h.woken
    · rw [hhistory, hpending]
      exact h.reconciled
    · rw [hhistory, hpending, scheduleRetry_delays]
      intro hopen
      rcases h.thrown hopen with htrue | hcarries
      · exact .inl htrue
      · exact .inr (hcarries.scheduleRetry retryDormant)
  · exact ⟨h.woken, h.reconciled, h.thrown⟩
  · exact h

theorem Kept.resolved {c : Coordinator} (h : Kept c) (includeDormant retry : Bool) :
    Kept (c.settle includeDormant (.resolved retry)) := by
  rw [settle]
  apply Kept.retryAfterRun
  apply Kept.keepDormant
  exact ⟨h.woken, h.reconciled, h.thrown⟩

theorem Kept.threw {c : Coordinator} (h : Kept c) (includeDormant replicaNotCurrent : Bool) :
    Kept ((c.note (.threw includeDormant c.retryAttempt)).settle includeDormant
      (.threw replicaNotCurrent)) := by
  have hold : ∀ {asked answered : DeliveryNote → Prop},
      Open asked answered (c.history ++ [.threw includeDormant c.retryAttempt]) →
      ¬ asked (.threw includeDormant c.retryAttempt) → Open asked answered c.history := by
    intro asked answered hopen hnot
    rcases open_snoc hopen with hasked | ⟨-, hopen⟩
    · exact absurd hasked hnot
    · exact hopen
  rw [settle]
  cases hpending : c.pending with
  | some pending =>
    apply Kept.retryAfterRun
    cases includeDormant with
    | true =>
      have htrue : (({ c.note (.threw true c.retryAttempt) with
          waitingForCurrent := replicaNotCurrent } : Coordinator).keepDormant true).pending =
          some true := by
        simp [AudienceKeyDeliveryCoordinator.keepDormant, AudienceKeyDeliveryCoordinator.note, hpending]
      exact ⟨fun _ => htrue, fun _ => Option.isSome_of_mem htrue, fun _ => .inl htrue⟩
    | false =>
      apply Kept.keepDormant
      constructor
      · exact fun hopen => h.woken (hold hopen (fun heq => by cases heq))
      · exact fun hopen => h.reconciled (hold hopen (fun heq => by cases heq))
      · exact fun hopen => h.thrown (hold hopen id)
  | none =>
    have hscheduled : (({ c.note (.threw includeDormant c.retryAttempt) with
        waitingForCurrent := replicaNotCurrent } : Coordinator).keepDormant
          includeDormant).retryAfterRun true includeDormant =
        ({ c.note (.threw includeDormant c.retryAttempt) with
          waitingForCurrent := replicaNotCurrent } : Coordinator).scheduleRetry includeDormant := by
      simp [AudienceKeyDeliveryCoordinator.keepDormant, AudienceKeyDeliveryCoordinator.retryAfterRun,
        AudienceKeyDeliveryCoordinator.note, hpending]
    obtain ⟨-, hhistory, hframe⟩ := scheduleRetry_frame
      { c.note (.threw includeDormant c.retryAttempt) with
        waitingForCurrent := replicaNotCurrent } includeDormant
    rw [RunOutcome.retry, RunOutcome.retryDormant, RunOutcome.waitingForCurrent, hscheduled]
    constructor
    · rw [hhistory, hframe]
      exact fun hopen => h.woken (hold hopen (fun heq => by cases heq))
    · rw [hhistory, hframe]
      exact fun hopen => h.reconciled (hold hopen (fun heq => by cases heq))
    · rw [hhistory, hframe, scheduleRetry_delays]
      intro hopen
      right
      rcases open_snoc hopen with hasked | ⟨-, hopen⟩
      · cases includeDormant with
        | true => exact carriesDormant_of_delay hasked
        | false => exact hasked.elim
      · rcases h.thrown hopen with htrue | hcarries
        · rw [hpending] at htrue
          cases htrue
        · apply CarriesDormant.scheduleRetry
          exact hcarries

theorem Kept.step {c c' : Coordinator} (h : Kept c) (hsteady : Steady c) {event : Event}
    (hstep : c.step event = some c') : Kept c' := by
  cases event with
  | wake =>
    cases hstep
    exact Kept.wake c
  | reconcile =>
    cases hstep
    exact h.reconcile
  | retry =>
    cases hstep
    exact h.retry hsteady
  | timerFires =>
    obtain ⟨-, hc⟩ := Option.ite_none_right_eq_some.mp hstep
    cases hc
    exact h.timerFired
  | drainBegins n =>
    obtain ⟨-, hc⟩ := Option.ite_none_right_eq_some.mp hstep
    cases hc
    exact h.loop n
  | runEnds n outcome =>
    rw [AudienceKeyDeliveryCoordinator.step.eq_def] at hstep
    dsimp only at hstep
    split at hstep
    · rename_i includeDormant _
      cases hstep
      apply Kept.loop
      cases outcome with
      | resolved retry => exact h.resolved includeDormant retry
      | threw replicaNotCurrent => exact h.threw includeDormant replicaNotCurrent
    · cases hstep

theorem reached {c c' : Coordinator} (hsteady : Steady c) (hkept : Kept c) {events : List Event}
    (hrun : run c events = some c') : Steady c' ∧ Kept c' := by
  induction events generalizing c with
  | nil =>
    cases hrun
    exact ⟨hsteady, hkept⟩
  | cons event events ih =>
    obtain ⟨next, hnext, hrest⟩ := Option.bind_eq_some_iff.mp hrun
    exact ih (hsteady.step hnext) (hkept.step hsteady hnext) hrest

/-- What holds of every coordinator that has come about. -/
structure Delivers (c : Coordinator) : Prop where
  single : c.drains.length ≤ 1
  reconciled : (∀ includeDormant, .running includeDormant ∉ c.drains) → c.pending = none →
    ¬ Open (fun n => n = .woken ∨ n = .reconciled) IsStart c.history
  woken : (∀ includeDormant, .running includeDormant ∉ c.drains) → c.pending = none →
    ¬ Open (· = .woken) (· = .started true) c.history
  thrown : Open (IsDormantThrow c.retryDelays) (· = .started true) c.history →
    c.pending = some true ∨ c.CarriesDormant

end AudienceKeyDeliveryCoordinator
end EnboxDwn
