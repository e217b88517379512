import EnboxDwn.FlowController
import Mathlib.Algebra.GroupWithZero.Nat

/-! The guarded listener of a subscription: deliveries that wait for one another in a chain of
promises, the processing of each event and its failure, and the one close of the subscription, whose
handle may come after the first of them. -/
namespace EnboxDwn
open Agent (ProgressToken)
open Server (SubscriptionMessage)

/-- What the promise of `processEvent` settles with. -/
inductive Settlement (α : Type) where
  | rejected
  | resolved (projected : Option (ProgressToken × α))
  deriving DecidableEq, Repr

/-- How far a delivery is. It waits for those before it; its event is processed; its continuation is
due; the inner listener has been called; `deliver` has rejected, and the handler of that is due; the
handler waits for the close; its promise has resolved. -/
inductive Phase (α : Type) where
  | waiting
  | processing (terminalError : Option (SubscriptionMessage α))
  | processed (terminalError : Option (SubscriptionMessage α)) (settlement : Settlement α)
  | listening
  | rejected
  | closing
  | done
  deriving DecidableEq, Repr

structure Delivery (α : Type) where
  message : SubscriptionMessage α
  phase : Phase α := .waiting
  deriving DecidableEq, Repr

inductive ClosePromise where
  | none
  | scheduled
  | called
  | settled
  deriving DecidableEq, Repr

/-- The variables of the handler, the signal, and the deliveries in the order of their arrival. -/
structure GuardedSubscription (α : Type) where
  deliveries : List (Delivery α) := []
  subscription : Bool := false
  closeRequested : Bool := false
  closePromise : ClosePromise := .none
  aborted : Bool := false
  deriving DecidableEq, Repr

namespace GuardedSubscription
variable {α : Type}

/-- What is seen from outside, with the position of the delivery it is about. -/
inductive Observation (α : Type) where
  | processing (n : Nat)
  | processed (n : Nat) (settlement : Settlement α)
  | failed (n : Nat) (code detail : String)
  | called (n : Nat) (message : SubscriptionMessage α)
  | returned (n : Nat) (rejected : Bool)
  | aborted
  | closed
  deriving DecidableEq, Repr

def phase? (s : GuardedSubscription α) (n : Nat) : Option (Phase α) :=
  s.deliveries[n]?.map Delivery.phase

def setPhase (s : GuardedSubscription α) (n : Nat) (phase : Phase α) : GuardedSubscription α :=
  { s with deliveries := s.deliveries.modify n fun d => { d with phase } }

def closeSubscription (s : GuardedSubscription α) : GuardedSubscription α :=
  { s with
    closeRequested := true
    closePromise :=
      if s.subscription = true ∧ s.closePromise = .none then .scheduled else s.closePromise }

def ready (s : GuardedSubscription α) : Nat → Bool
  | 0 => true
  | n + 1 => match s.phase? n with
    | some .done => true
    | _ => false

/-- The first part of `deliver`, up to its first `await`. -/
def deliver (s : GuardedSubscription α) (n : Nat) (message : SubscriptionMessage α) :
    GuardedSubscription α × List (Observation α) :=
  if s.closeRequested || s.aborted then (s.setPhase n .done, [])
  else
    match message with
    | .event _ _ => (s.setPhase n (.processing none), [.processing n])
    | message => (s.setPhase n .listening, [.called n message])

def fail (s : GuardedSubscription α) (n : Nat) (message : SubscriptionMessage α)
    (terminalError : Option (SubscriptionMessage α)) (code detail : String) :
    GuardedSubscription α :=
  if s.closeRequested || terminalError.isSome then s
  else (s.setPhase n (.processing (some (.error message.cursor code detail)))).closeSubscription

/-- The rest of `deliver` once the event has been processed. -/
def resume (s : GuardedSubscription α) (n : Nat) (terminalError : Option (SubscriptionMessage α)) :
    Settlement α → GuardedSubscription α × List (Observation α)
  | .rejected => (s.setPhase n .rejected, [])
  | .resolved projected =>
    if s.aborted then (s.setPhase n .done, [])
    else
      match terminalError, projected with
      | some error, _ => (s.setPhase n .listening, [.called n error])
      | none, some (cursor, event) =>
        (s.setPhase n .listening, [.called n (.event cursor event)])
      | none, none => (s.setPhase n .done, [])

def setSubscription (s : GuardedSubscription α) : GuardedSubscription α :=
  let s := { s with subscription := true }
  if s.closeRequested || s.aborted then s.closeSubscription else s

inductive Action (α : Type) where
  | listener (message : SubscriptionMessage α)
  | deliver (n : Nat)
  | fail (n : Nat) (code detail : String)
  | settleProcessEvent (n : Nat) (settlement : Settlement α)
  | resume (n : Nat)
  | settleListener (n : Nat) (rejected : Bool)
  | handleRejection (n : Nat)
  | resolve (n : Nat)
  | setSubscription
  | abort
  | close
  | settleClose
  deriving DecidableEq, Repr

/-- One action, where it can happen. `fail` is called while its event is processed. -/
def act (s : GuardedSubscription α) :
    Action α → Option (GuardedSubscription α × List (Observation α))
  | .listener message => some ({ s with deliveries := s.deliveries ++ [{ message }] }, [])
  | .deliver n =>
    match s.deliveries[n]? with
    | some ⟨message, .waiting⟩ => if s.ready n then some (s.deliver n message) else none
    | _ => none
  | .fail n code detail =>
    match s.deliveries[n]? with
    | some ⟨message, .processing terminalError⟩ =>
      some (s.fail n message terminalError code detail, [.failed n code detail])
    | _ => none
  | .settleProcessEvent n settlement =>
    match s.deliveries[n]? with
    | some ⟨_, .processing terminalError⟩ =>
      some (s.setPhase n (.processed terminalError settlement), [.processed n settlement])
    | _ => none
  | .resume n =>
    match s.deliveries[n]? with
    | some ⟨_, .processed terminalError settlement⟩ => some (s.resume n terminalError settlement)
    | _ => none
  | .settleListener n rejected =>
    match s.deliveries[n]? with
    | some ⟨_, .listening⟩ =>
      some (s.setPhase n (if rejected then .rejected else .done), [.returned n rejected])
    | _ => none
  | .handleRejection n =>
    match s.deliveries[n]? with
    | some ⟨_, .rejected⟩ =>
      some (s.closeSubscription.setPhase n (if s.subscription then .closing else .done), [])
    | _ => none
  | .resolve n =>
    match s.deliveries[n]? with
    | some ⟨_, .closing⟩ =>
      if s.closePromise = .settled then some (s.setPhase n .done, []) else none
    | _ => none
  | .setSubscription => if s.subscription then none else some (s.setSubscription, [])
  | .abort => some ({ s with aborted := true }, [.aborted])
  | .close =>
    if s.closePromise = .scheduled then some ({ s with closePromise := .called }, [.closed])
    else none
  | .settleClose =>
    if s.closePromise = .called then some ({ s with closePromise := .settled }, []) else none

/-- The states that some order of actions leads to, each with what was seen on the way. -/
inductive Reaches : List (Observation α) → GuardedSubscription α → Prop
  | start : Reaches [] {}
  | step {trace seen : List (Observation α)} {s s' : GuardedSubscription α} (action : Action α)
      (before : Reaches trace s) (h : s.act action = some (s', seen)) :
      Reaches (trace ++ seen) s'

/-- The ways in which a delivery moves on without a request to close. -/
inductive Move (s : GuardedSubscription α) (n : Nat) :
    Phase α → List (Observation α) → Phase α → Prop
  | drop (hready : s.ready n = true) (hstop : s.closeRequested = true ∨ s.aborted = true) :
      Move s n .waiting [] .done
  | process (hready : s.ready n = true) (hopen : s.closeRequested = false) :
      Move s n .waiting [.processing n] (.processing none)
  | pass (message : SubscriptionMessage α) (hready : s.ready n = true)
      (hopen : s.closeRequested = false) (hsignal : s.aborted = false) :
      Move s n .waiting [.called n message] .listening
  | settle (terminalError : Option (SubscriptionMessage α)) (settlement : Settlement α) :
      Move s n (.processing terminalError) [.processed n settlement]
        (.processed terminalError settlement)
  | reject (terminalError : Option (SubscriptionMessage α)) :
      Move s n (.processed terminalError .rejected) [] .rejected
  | omit (terminalError : Option (SubscriptionMessage α))
      (projected : Option (ProgressToken × α)) :
      Move s n (.processed terminalError (.resolved projected)) [] .done
  | report (error : SubscriptionMessage α) (projected : Option (ProgressToken × α))
      (hsignal : s.aborted = false) :
      Move s n (.processed (some error) (.resolved projected)) [.called n error] .listening
  | hand (cursor : ProgressToken) (event : α) (hsignal : s.aborted = false) :
      Move s n (.processed none (.resolved (some (cursor, event))))
        [.called n (.event cursor event)] .listening
  | returned (rejected : Bool) :
      Move s n .listening [.returned n rejected] (if rejected then .rejected else .done)
  | resolve : Move s n .closing [] .done

inductive ClosingMove (s : GuardedSubscription α) (n : Nat) :
    Phase α → List (Observation α) → Phase α → Prop
  | fail (code detail : String) (message : SubscriptionMessage α)
      (h : s.deliveries[n]? = some ⟨message, .processing none⟩)
      (hopen : s.closeRequested = false) :
      ClosingMove s n (.processing none) [.failed n code detail]
        (.processing (some (.error message.cursor code detail)))
  | handle : ClosingMove s n .rejected [] (if s.subscription then .closing else .done)

/-- An action with everything it depends on and does. -/
inductive Step (s : GuardedSubscription α) :
    List (Observation α) → GuardedSubscription α → Prop
  | arrive (message : SubscriptionMessage α) :
      Step s [] { s with deliveries := s.deliveries ++ [{ message }] }
  | move {n : Nat} {before after : Phase α} {seen : List (Observation α)}
      (h : s.phase? n = some before) (hmove : Move s n before seen after) :
      Step s seen (s.setPhase n after)
  | closing {n : Nat} {before after : Phase α} {seen : List (Observation α)}
      (h : s.phase? n = some before) (hmove : ClosingMove s n before seen after) :
      Step s seen (s.closeSubscription.setPhase n after)
  | failAgain (n : Nat) (code detail : String) (terminalError : Option (SubscriptionMessage α))
      (h : s.phase? n = some (.processing terminalError))
      (hstop : s.closeRequested = true ∨ terminalError.isSome = true) :
      Step s [.failed n code detail] s
  | subscribe (h : s.subscription = false) : Step s [] s.setSubscription
  | abort : Step s [.aborted] { s with aborted := true }
  | close (h : s.closePromise = .scheduled) : Step s [.closed] { s with closePromise := .called }
  | settleClose (h : s.closePromise = .called) : Step s [] { s with closePromise := .settled }

variable {s s' : GuardedSubscription α} {seen trace : List (Observation α)}

theorem phase?_of_delivery {n : Nat} {message : SubscriptionMessage α} {phase : Phase α}
    (h : s.deliveries[n]? = some ⟨message, phase⟩) : s.phase? n = some phase := by
  simp [phase?, h]

theorem step_of_deliver {n : Nat} (message : SubscriptionMessage α)
    (h : s.phase? n = some .waiting) (hready : s.ready n = true) :
    Step s (s.deliver n message).2 (s.deliver n message).1 := by
  cases hclosed : s.closeRequested with
  | true =>
    simp only [deliver, hclosed, Bool.true_or, if_true]
    exact .move h (.drop hready (.inl hclosed))
  | false =>
    cases hsignal : s.aborted with
    | true =>
      simp only [deliver, hclosed, hsignal, Bool.or_true, if_true]
      exact .move h (.drop hready (.inr hsignal))
    | false =>
      cases message with
      | event cursor event =>
        simp only [deliver, hclosed, hsignal, Bool.or_self, Bool.false_eq_true, if_false]
        exact .move h (.process hready hclosed)
      | eose cursor =>
        simp only [deliver, hclosed, hsignal, Bool.or_self, Bool.false_eq_true, if_false]
        exact .move h (.pass _ hready hclosed hsignal)
      | error cursor code detail =>
        simp only [deliver, hclosed, hsignal, Bool.or_self, Bool.false_eq_true, if_false]
        exact .move h (.pass _ hready hclosed hsignal)

theorem step_of_fail {n : Nat} {message : SubscriptionMessage α}
    {terminalError : Option (SubscriptionMessage α)} {code detail : String}
    (h : s.deliveries[n]? = some ⟨message, .processing terminalError⟩) :
    Step s [.failed n code detail] (s.fail n message terminalError code detail) := by
  cases hclosed : s.closeRequested with
  | true =>
    simp only [GuardedSubscription.fail, hclosed, Bool.true_or, if_true]
    exact .failAgain n code detail terminalError (phase?_of_delivery h) (.inl hclosed)
  | false =>
    cases terminalError with
    | some error =>
      simp only [GuardedSubscription.fail, Option.isSome_some, Bool.or_true, if_true]
      exact .failAgain n code detail (some error) (phase?_of_delivery h) (.inr rfl)
    | none =>
      simp only [GuardedSubscription.fail, hclosed, Option.isSome_none, Bool.or_self,
        Bool.false_eq_true, if_false]
      exact .closing (phase?_of_delivery h) (.fail code detail message h hclosed)

theorem step_of_resume {n : Nat} {terminalError : Option (SubscriptionMessage α)}
    {settlement : Settlement α} (h : s.phase? n = some (.processed terminalError settlement)) :
    Step s (s.resume n terminalError settlement).2 (s.resume n terminalError settlement).1 := by
  cases settlement with
  | rejected => exact .move h (.reject terminalError)
  | resolved projected =>
    cases hsignal : s.aborted with
    | true =>
      simp only [GuardedSubscription.resume, hsignal, if_true]
      exact .move h (.omit terminalError projected)
    | false =>
      simp only [GuardedSubscription.resume, hsignal, Bool.false_eq_true, if_false]
      cases terminalError with
      | some error => exact .move h (.report error projected hsignal)
      | none =>
        cases projected with
        | some value => exact .move h (.hand value.1 value.2 hsignal)
        | none => exact .move h (.omit none none)

theorem step_of_act {action : Action α} (h : s.act action = some (s', seen)) : Step s seen s' := by
  cases action with
  | listener message =>
    cases h
    exact .arrive message
  | deliver n =>
    simp only [act] at h
    split at h
    · rename_i message hdelivery
      by_cases hready : s.ready n = true
      · rw [if_pos hready] at h
        have hstep := step_of_deliver message (phase?_of_delivery hdelivery) hready
        rw [Option.some.inj h] at hstep
        exact hstep
      · rw [if_neg hready] at h
        cases h
    · cases h
  | fail n code detail =>
    simp only [act] at h
    split at h
    · rename_i message terminalError hdelivery
      cases h
      exact step_of_fail hdelivery
    · cases h
  | settleProcessEvent n settlement =>
    simp only [act] at h
    split at h
    · rename_i message terminalError hdelivery
      cases h
      exact .move (phase?_of_delivery hdelivery) (.settle terminalError settlement)
    · cases h
  | resume n =>
    simp only [act] at h
    split at h
    · rename_i message terminalError settlement hdelivery
      have hstep := step_of_resume (phase?_of_delivery hdelivery)
      rw [Option.some.inj h] at hstep
      exact hstep
    · cases h
  | settleListener n rejected =>
    simp only [act] at h
    split at h
    · rename_i message hdelivery
      cases h
      exact .move (phase?_of_delivery hdelivery) (.returned rejected)
    · cases h
  | handleRejection n =>
    simp only [act] at h
    split at h
    · rename_i message hdelivery
      cases h
      exact .closing (phase?_of_delivery hdelivery) .handle
    · cases h
  | resolve n =>
    simp only [act] at h
    split at h
    · rename_i message hdelivery
      by_cases hsettled : s.closePromise = .settled
      · rw [if_pos hsettled] at h
        cases h
        exact .move (phase?_of_delivery hdelivery) .resolve
      · rw [if_neg hsettled] at h
        cases h
    · cases h
  | setSubscription =>
    simp only [act] at h
    by_cases hset : s.subscription = true
    · rw [if_pos hset] at h
      cases h
    · rw [if_neg hset] at h
      cases h
      exact .subscribe (Bool.eq_false_iff.mpr hset)
  | abort =>
    cases h
    exact .abort
  | close =>
    simp only [act] at h
    by_cases hscheduled : s.closePromise = .scheduled
    · rw [if_pos hscheduled] at h
      cases h
      exact .close hscheduled
    · rw [if_neg hscheduled] at h
      cases h
  | settleClose =>
    simp only [act] at h
    by_cases hcalled : s.closePromise = .called
    · rw [if_pos hcalled] at h
      cases h
      exact .settleClose hcalled
    · rw [if_neg hcalled] at h
      cases h

/-! ## What a step can do -/

theorem phase?_setPhase (s : GuardedSubscription α) (n i : Nat) (phase : Phase α) :
    (s.setPhase n phase).phase? i = if i = n then (s.phase? n).map fun _ => phase else s.phase? i := by
  simp only [phase?, setPhase, List.getElem?_modify]
  by_cases h : i = n
  · subst h
    cases s.deliveries[i]? <;> simp
  · cases s.deliveries[i]? <;> simp [h, Ne.symm h]

theorem phase?_closeSubscription (s : GuardedSubscription α) (i : Nat) :
    s.closeSubscription.phase? i = s.phase? i := rfl

theorem phase?_setSubscription (s : GuardedSubscription α) (i : Nat) :
    s.setSubscription.phase? i = s.phase? i := by
  simp only [setSubscription]
  split <;> rfl

theorem phase?_arrive (s : GuardedSubscription α) (message : SubscriptionMessage α) (i : Nat) :
    phase? { s with deliveries := s.deliveries ++ [{ message }] } i = s.phase? i ∨
      (s.phase? i = none ∧
        phase? { s with deliveries := s.deliveries ++ [{ message }] } i = some .waiting) := by
  simp only [phase?]
  by_cases hlt : i < s.deliveries.length
  · exact .inl (by rw [List.getElem?_append_left hlt])
  · by_cases heq : i = s.deliveries.length
    · subst heq
      exact .inr ⟨by simp, by simp⟩
    · refine .inl ?_
      rw [List.getElem?_eq_none (by simp; omega), List.getElem?_eq_none (by omega)]

/-- A delivery stays where it was, has just arrived, or makes one of the moves. -/
theorem Step.phase (hstep : Step s seen s') (i : Nat) :
    s'.phase? i = s.phase? i ∨ (s.phase? i = none ∧ s'.phase? i = some .waiting) ∨
      ∃ before after, s.phase? i = some before ∧ s'.phase? i = some after ∧
        (Move s i before seen after ∨ ClosingMove s i before seen after) := by
  cases hstep with
  | arrive message =>
    cases phase?_arrive s message i with
    | inl hsame => exact .inl hsame
    | inr hnew => exact .inr (.inl hnew)
  | @move n before after seen h hmove =>
    by_cases hi : i = n
    · subst hi
      exact .inr (.inr ⟨before, after, h, by simp [phase?_setPhase, h], .inl hmove⟩)
    · exact .inl (by rw [phase?_setPhase, if_neg hi])
  | @closing n before after seen h hmove =>
    by_cases hi : i = n
    · subst hi
      refine .inr (.inr ⟨before, after, h, ?_, .inr hmove⟩)
      simp [phase?_setPhase, phase?_closeSubscription, h]
    · exact .inl (by rw [phase?_setPhase, if_neg hi, phase?_closeSubscription])
  | failAgain => exact .inl rfl
  | subscribe => exact .inl (phase?_setSubscription s i)
  | abort => exact .inl rfl
  | close => exact .inl rfl
  | settleClose => exact .inl rfl

def Phase.rank : Phase α → Nat
  | .waiting => 0
  | .processing _ => 1
  | .processed _ _ => 2
  | .listening => 3
  | .rejected => 4
  | .closing => 5
  | .done => 6

theorem Step.rank_mono (hstep : Step s seen s') {i : Nat} {phase : Phase α}
    (h : s.phase? i = some phase) :
    ∃ after, s'.phase? i = some after ∧ Phase.rank phase ≤ Phase.rank after := by
  obtain hsame | hnew | ⟨before, after, hbefore, hafter, hmove⟩ := hstep.phase i
  · exact ⟨phase, hsame.trans h, le_refl _⟩
  · rw [hnew.1] at h
    cases h
  · rw [hbefore] at h
    cases h
    refine ⟨after, hafter, ?_⟩
    cases hmove with
    | inl hmove =>
      cases hmove with
      | returned rejected => cases rejected <;> simp [Phase.rank]
      | _ => simp [Phase.rank]
    | inr hmove =>
      cases hmove with
      | fail => simp [Phase.rank]
      | handle => split <;> simp [Phase.rank]

theorem Step.done_stays (hstep : Step s seen s') {i : Nat} (h : s.phase? i = some .done) :
    s'.phase? i = some .done := by
  obtain hsame | hnew | ⟨before, after, hbefore, hafter, hmove⟩ := hstep.phase i
  · exact hsame.trans h
  · rw [hnew.1] at h
    cases h
  · rw [hbefore] at h
    cases h
    cases hmove with
    | inl hmove => cases hmove
    | inr hmove => cases hmove

/-- Deliveries start one behind the other: all before one that has started are done. -/
def Chained (s : GuardedSubscription α) : Prop :=
  ∀ i j phase, i < j → s.phase? j = some phase → phase ≠ .waiting → s.phase? i = some .done

theorem ready_done {n : Nat} (h : s.ready (n + 1) = true) : s.phase? n = some .done := by
  simp only [ready] at h
  split at h
  · assumption
  · cases h

/-- Once the delivery before it is done, so are all before that. -/
theorem Chained.before_ready (hc : Chained s) {i n : Nat} (hready : s.ready n = true)
    (hi : i < n) : s.phase? i = some .done := by
  cases n with
  | zero => omega
  | succ n =>
    have hdone := ready_done hready
    by_cases heq : i = n
    · rw [heq]
      exact hdone
    · exact hc i n .done (by omega) hdone (by simp)

theorem Chained.step (hc : Chained s) (hstep : Step s seen s') : Chained s' := by
  intro i j phase hij hj hstarted
  have hbefore : s.phase? i = some .done := by
    obtain hsame | hnew | ⟨before, after, hbefore, hafter, hmove⟩ := hstep.phase j
    · exact hc i j phase hij (hsame.symm.trans hj) hstarted
    · rw [hnew.2] at hj
      cases hj
      exact absurd rfl hstarted
    · by_cases hwaiting : before = .waiting
      · subst hwaiting
        cases hmove with
        | inl hmove =>
          cases hmove with
          | drop hready => exact hc.before_ready hready hij
          | process hready => exact hc.before_ready hready hij
          | pass message hready => exact hc.before_ready hready hij
        | inr hmove => cases hmove
      · exact hc i j before hij hbefore hwaiting
  exact hstep.done_stays hbefore

theorem Chained.eq_of_active (hc : Chained s) {i j : Nat} {p q : Phase α}
    (hi : s.phase? i = some p) (hj : s.phase? j = some q) (hp : p ≠ .waiting) (hq : q ≠ .waiting)
    (hpd : p ≠ .done) (hqd : q ≠ .done) : i = j := by
  by_contra hne
  by_cases hij : i < j
  · have hdone := hc i j q hij hj hq
    rw [hi] at hdone
    cases hdone
    exact hpd rfl
  · have hdone := hc j i p (by omega) hi hp
    rw [hj] at hdone
    cases hdone
    exact hqd rfl

/-- What a call of the inner listener depends on. -/
structure Calls (s s' : GuardedSubscription α) (seen : List (Observation α)) (n : Nat)
    (message : SubscriptionMessage α) : Prop where
  only : seen = [.called n message]
  signal : s.aborted = false
  after : s'.phase? n = some .listening
  before : (s.phase? n = some .waiting ∧ s.ready n = true ∧ s.closeRequested = false) ∨
    (∃ projected, s.phase? n = some (.processed (some message) (.resolved projected))) ∨
    ∃ cursor event, message = .event cursor event ∧
      s.phase? n = some (.processed none (.resolved (some (cursor, event))))

theorem Step.called (hstep : Step s seen s') {n : Nat} {message : SubscriptionMessage α}
    (h : .called n message ∈ seen) : Calls s s' seen n message := by
  cases hstep with
  | @move m before after seen hphase hmove =>
    cases hmove with
    | pass message hready hopen hsignal =>
      simp only [List.mem_singleton, Observation.called.injEq] at h
      obtain ⟨rfl, rfl⟩ := h
      exact ⟨rfl, hsignal, by simp [phase?_setPhase, hphase], .inl ⟨hphase, hready, hopen⟩⟩
    | report error projected hsignal =>
      simp only [List.mem_singleton, Observation.called.injEq] at h
      obtain ⟨rfl, rfl⟩ := h
      exact ⟨rfl, hsignal, by simp [phase?_setPhase, hphase], .inr (.inl ⟨projected, hphase⟩)⟩
    | hand cursor event hsignal =>
      simp only [List.mem_singleton, Observation.called.injEq] at h
      obtain ⟨rfl, rfl⟩ := h
      exact ⟨rfl, hsignal, by simp [phase?_setPhase, hphase],
        .inr (.inr ⟨cursor, event, rfl, hphase⟩)⟩
    | _ => simp at h
  | closing hphase hmove => cases hmove <;> simp at h
  | _ => simp at h

theorem Calls.active {n : Nat} {message : SubscriptionMessage α} (h : Calls s s' seen n message) :
    ∃ phase, s.phase? n = some phase ∧ Phase.rank phase ≤ 2 := by
  obtain ⟨hwaiting, -⟩ | ⟨projected, herror⟩ | ⟨cursor, event, -, hevent⟩ := h.before
  · exact ⟨_, hwaiting, by simp [Phase.rank]⟩
  · exact ⟨_, herror, by simp [Phase.rank]⟩
  · exact ⟨_, hevent, by simp [Phase.rank]⟩

theorem Step.listening (hstep : Step s seen s') {n : Nat} (h : s.phase? n = some .listening) :
    s'.phase? n = some .listening ∨ ∃ rejected, .returned n rejected ∈ seen := by
  obtain hsame | hnew | ⟨before, after, hbefore, hafter, hmove⟩ := hstep.phase n
  · exact .inl (hsame.trans h)
  · rw [hnew.1] at h
    cases h
  · rw [hbefore] at h
    cases h
    cases hmove with
    | inl hmove =>
      cases hmove with
      | returned rejected => exact .inr ⟨rejected, by simp⟩
    | inr hmove => cases hmove

theorem Step.started (hstep : Step s seen s') {n : Nat} (h : .processing n ∈ seen) :
    seen = [.processing n] ∧ s.phase? n = some .waiting ∧
      s'.phase? n = some (.processing none) := by
  cases hstep with
  | @move m before after seen hphase hmove =>
    cases hmove with
    | process hready hopen =>
      simp only [List.mem_singleton, Observation.processing.injEq] at h
      subst h
      exact ⟨rfl, hphase, by simp [phase?_setPhase, hphase]⟩
    | _ => simp at h
  | closing hphase hmove => cases hmove <;> simp at h
  | _ => simp at h

theorem Step.processing (hstep : Step s seen s') {n : Nat}
    {terminalError : Option (SubscriptionMessage α)}
    (h : s.phase? n = some (.processing terminalError)) :
    (∃ later, s'.phase? n = some (.processing later)) ∨
      ∃ settlement, .processed n settlement ∈ seen := by
  obtain hsame | hnew | ⟨before, after, hbefore, hafter, hmove⟩ := hstep.phase n
  · exact .inl ⟨_, hsame.trans h⟩
  · rw [hnew.1] at h
    cases h
  · rw [hbefore] at h
    cases h
    cases hmove with
    | inl hmove =>
      cases hmove with
      | settle terminalError settlement => exact .inr ⟨settlement, by simp⟩
    | inr hmove =>
      cases hmove with
      | fail => exact .inl ⟨_, hafter⟩

theorem Step.processed (hstep : Step s seen s') {n : Nat} {settlement : Settlement α}
    (h : .processed n settlement ∈ seen) :
    ∃ terminalError, s.phase? n = some (.processing terminalError) ∧
      s'.phase? n = some (.processed terminalError settlement) := by
  cases hstep with
  | @move m before after seen hphase hmove =>
    cases hmove with
    | settle terminalError settlement =>
      simp only [List.mem_singleton, Observation.processed.injEq] at h
      obtain ⟨rfl, rfl⟩ := h
      exact ⟨terminalError, hphase, by simp [phase?_setPhase, hphase]⟩
    | _ => simp at h
  | closing hphase hmove => cases hmove <;> simp at h
  | _ => simp at h

/-! ## Runs -/

theorem Reaches.chained (h : Reaches trace s) : Chained s := by
  induction h with
  | start =>
    intro i j phase hij hj
    simp [phase?] at hj
  | step action before hact ih => exact ih.step (step_of_act hact)

/-- A delivery whose listener was called has gone at least that far. -/
theorem Reaches.called_rank (h : Reaches trace s) {n : Nat} {message : SubscriptionMessage α}
    (hcalled : .called n message ∈ trace) :
    ∃ phase, s.phase? n = some phase ∧ 3 ≤ Phase.rank phase := by
  induction h with
  | start => simp at hcalled
  | @step trace seen s s' action before hact ih =>
    have hstep := step_of_act hact
    cases List.mem_append.mp hcalled with
    | inl hold =>
      obtain ⟨phase, hphase, hrank⟩ := ih hold
      obtain ⟨after, hafter, hle⟩ := hstep.rank_mono hphase
      exact ⟨after, hafter, by omega⟩
    | inr hnew => exact ⟨.listening, (hstep.called hnew).after, by simp [Phase.rank]⟩

theorem rank_pos {phase : Phase α} (h : 1 ≤ Phase.rank phase) : phase ≠ .waiting := by
  intro heq
  rw [heq] at h
  simp [Phase.rank] at h

/-- Something went wrong in a delivery: `fail` was called, or a promise rejected. -/
def Observation.isFailure : Observation α → Bool
  | .failed _ _ _ => true
  | .processed _ .rejected => true
  | .returned _ true => true
  | _ => false

theorem setSubscription_closeRequested (s : GuardedSubscription α) :
    s.setSubscription.closeRequested = (s.closeRequested || s.aborted) := by
  cases hc : s.closeRequested with
  | true => simp [setSubscription, closeSubscription, hc]
  | false =>
    cases ha : s.aborted with
    | true => simp [setSubscription, closeSubscription, hc, ha]
    | false => simp [setSubscription, hc, ha]

theorem setSubscription_aborted (s : GuardedSubscription α) :
    s.setSubscription.aborted = s.aborted := by
  simp only [setSubscription]
  split <;> rfl

theorem Step.closeRequested_mono (hstep : Step s seen s') (h : s.closeRequested = true) :
    s'.closeRequested = true := by
  cases hstep with
  | subscribe => rw [setSubscription_closeRequested, h, Bool.true_or]
  | closing => rfl
  | _ => exact h

theorem Step.aborted_mono (hstep : Step s seen s') (h : s.aborted = true) : s'.aborted = true := by
  cases hstep with
  | subscribe => rw [setSubscription_aborted, h]
  | abort => rfl
  | _ => exact h

theorem Step.aborted_seen (hstep : Step s seen s') (h : .aborted ∈ seen) : s'.aborted = true := by
  cases hstep with
  | move hphase hmove => cases hmove <;> simp at h
  | closing hphase hmove => cases hmove <;> simp at h
  | abort => rfl
  | _ => simp at h

theorem Reaches.aborted (h : Reaches trace s) (hmem : .aborted ∈ trace) : s.aborted = true := by
  induction h with
  | start => simp at hmem
  | @step trace seen s s' action before hact ih =>
    cases List.mem_append.mp hmem with
    | inl hold => exact (step_of_act hact).aborted_mono (ih hold)
    | inr hnew => exact (step_of_act hact).aborted_seen hnew

def Phase.terminalError : Phase α → Option (Option (SubscriptionMessage α))
  | .processing terminalError => some terminalError
  | .processed terminalError _ => some terminalError
  | _ => none

/-- A terminal error has come from `fail` and has requested the close; while there is none, only an
aborted signal can have had the close requested. -/
structure Guarded (trace : List (Observation α)) (s : GuardedSubscription α) (n : Nat)
    (terminalError : Option (SubscriptionMessage α)) : Prop where
  failed : ∀ error ∈ terminalError, (∃ code detail, .failed n code detail ∈ trace) ∧
    s.closeRequested = true
  signal : terminalError = none → s.closeRequested = true → s.aborted = true

theorem terminalError_active {phase : Phase α} {terminalError : Option (SubscriptionMessage α)}
    (h : Phase.terminalError phase = some terminalError) : phase ≠ .waiting ∧ phase ≠ .done := by
  cases phase with
  | processing => simp
  | processed => simp
  | _ => simp [Phase.terminalError] at h

/-- Where a delivery has a terminal error or none from. -/
theorem Step.terminalError (hstep : Step s seen s') {n : Nat} {after : Phase α}
    {terminalError : Option (SubscriptionMessage α)} (hafter : s'.phase? n = some after)
    (herror : Phase.terminalError after = some terminalError) :
    (∃ before, s.phase? n = some before ∧ Phase.terminalError before = some terminalError) ∨
    (terminalError = none ∧ s'.closeRequested = false) ∨
    ((∃ error, terminalError = some error) ∧ (∃ code detail, .failed n code detail ∈ seen) ∧
      s.closeRequested = false ∧ s'.closeRequested = true) := by
  cases hstep with
  | arrive message =>
    cases phase?_arrive s message n with
    | inl hsame => exact .inl ⟨after, hsame.symm.trans hafter, herror⟩
    | inr hnew =>
      rw [hnew.2] at hafter
      cases hafter
      exact absurd rfl (terminalError_active herror).1
  | @move m p q seen hp hmove =>
    by_cases hnm : n = m
    · subst hnm
      rw [phase?_setPhase, if_pos rfl, hp, Option.map_some, Option.some.injEq] at hafter
      subst hafter
      cases hmove with
      | process hready hopen =>
        simp only [Phase.terminalError, Option.some.injEq] at herror
        exact .inr (.inl ⟨herror.symm, hopen⟩)
      | settle t settlement => exact .inl ⟨_, hp, herror⟩
      | returned rejected => cases rejected <;> simp [Phase.terminalError] at herror
      | _ => simp [Phase.terminalError] at herror
    · rw [phase?_setPhase, if_neg hnm] at hafter
      exact .inl ⟨after, hafter, herror⟩
  | @closing m p q seen hp hmove =>
    by_cases hnm : n = m
    · subst hnm
      rw [phase?_setPhase, if_pos rfl, phase?_closeSubscription, hp, Option.map_some,
        Option.some.injEq] at hafter
      subst hafter
      cases hmove with
      | fail code detail message h hopen =>
        simp only [Phase.terminalError, Option.some.injEq] at herror
        exact .inr (.inr ⟨⟨_, herror.symm⟩, ⟨code, detail, by simp⟩, hopen, rfl⟩)
      | handle => split at herror <;> simp [Phase.terminalError] at herror
    · rw [phase?_setPhase, if_neg hnm, phase?_closeSubscription] at hafter
      exact .inl ⟨after, hafter, herror⟩
  | failAgain => exact .inl ⟨after, hafter, herror⟩
  | subscribe =>
    rw [phase?_setSubscription] at hafter
    exact .inl ⟨after, hafter, herror⟩
  | abort => exact .inl ⟨after, hafter, herror⟩
  | close => exact .inl ⟨after, hafter, herror⟩
  | settleClose => exact .inl ⟨after, hafter, herror⟩

/-- Who requests the close: a delivery, or the arrival of the handle after an abort. -/
theorem Step.closeRequested_new (hstep : Step s seen s') (h : s'.closeRequested = true) :
    s.closeRequested = true ∨ s'.aborted = true ∨
      ∃ n before after, s.phase? n = some before ∧ s'.phase? n = some after ∧
        ClosingMove s n before seen after := by
  cases hstep with
  | @closing n before after seen hbefore hmove =>
    refine .inr (.inr ⟨n, before, after, hbefore, ?_, hmove⟩)
    simp [phase?_setPhase, phase?_closeSubscription, hbefore]
  | subscribe =>
    rw [setSubscription_closeRequested, Bool.or_eq_true] at h
    cases h with
    | inl h => exact .inl h
    | inr h => exact .inr (.inl (by rw [setSubscription_aborted, h]))
  | _ => exact .inl h

theorem Reaches.guarded (h : Reaches trace s) {n : Nat} {phase : Phase α}
    {terminalError : Option (SubscriptionMessage α)} (hphase : s.phase? n = some phase)
    (herror : Phase.terminalError phase = some terminalError) :
    Guarded trace s n terminalError := by
  induction h generalizing phase terminalError with
  | start => simp [phase?] at hphase
  | @step trace seen s s' action before hact ih =>
    have hstep := step_of_act hact
    obtain ⟨p, hp, hsame⟩ | ⟨hnone, hopen⟩ | ⟨⟨error, hsome⟩, ⟨code, detail, hmem⟩, -, hrequested⟩ :=
      hstep.terminalError hphase herror
    · have hguard := ih hp hsame
      constructor
      · intro error herror
        obtain ⟨⟨code, detail, hmem⟩, hrequested⟩ := hguard.failed error herror
        exact ⟨⟨code, detail, by simp [hmem]⟩, hstep.closeRequested_mono hrequested⟩
      · intro hnone hrequested
        obtain hbefore | hsignal | ⟨m, q, q', hq, hq', hmove⟩ :=
          hstep.closeRequested_new hrequested
        · exact hstep.aborted_mono (hguard.signal hnone hbefore)
        · exact hsignal
        · -- Only the one active delivery can have asked for the close, and then it has an error.
          have hactive : q ≠ .waiting ∧ q ≠ .done := by cases hmove <;> simp
          have hpa := terminalError_active hsame
          have heq : n = m :=
            before.chained.eq_of_active hp hq hpa.1 hactive.1 hpa.2 hactive.2
          subst heq
          rw [hphase] at hq'
          cases hq'
          rw [hnone] at herror hsame
          cases hmove with
          | fail => simp [Phase.terminalError] at herror
          | handle => split at herror <;> simp [Phase.terminalError] at herror
    · constructor
      · intro error hmem
        rw [hnone] at hmem
        cases hmem
      · intro _ hrequested
        rw [hopen] at hrequested
        cases hrequested
    · constructor
      · intro _ _
        exact ⟨⟨code, detail, by simp [hmem]⟩, hrequested⟩
      · intro hnone
        rw [hnone] at hsome
        cases hsome

/-- The calls of the inner listener, each with the delivery it is for. -/
def calls (trace : List (Observation α)) : List (Nat × SubscriptionMessage α) :=
  trace.filterMap fun
    | .called n message => some (n, message)
    | _ => none

theorem calls_append (front back : List (Observation α)) :
    calls (front ++ back) = calls front ++ calls back := by simp [calls]

theorem mem_calls {n : Nat} {message : SubscriptionMessage α} :
    (n, message) ∈ calls trace ↔ .called n message ∈ trace := by
  simp only [calls, List.mem_filterMap]
  constructor
  · rintro ⟨o, ho, heq⟩
    cases o <;> simp at heq
    obtain ⟨rfl, rfl⟩ := heq
    exact ho
  · intro h
    exact ⟨_, h, rfl⟩

/-- Since `fail` was called for a delivery with this as its error: the close is requested, all other
deliveries wait or are done, and the error is still to come, has come, or will not come. -/
structure Fenced (s : GuardedSubscription α) (n : Nat) (error : SubscriptionMessage α)
    (since : List (Observation α)) : Prop where
  requested : s.closeRequested = true
  others : ∀ i phase, i ≠ n → s.phase? i = some phase → phase = .waiting ∨ phase = .done
  this : ∃ phase, s.phase? n = some phase ∧ phase ≠ .waiting ∧
    ((calls since = [] ∧ ∀ terminalError, Phase.terminalError phase = some terminalError →
        terminalError = some error ∨ s.aborted = true) ∨
      (calls since = [(n, error)] ∧ Phase.terminalError phase = none))

/-- Once the close is requested, no delivery gets a terminal error or the lack of one anew. -/
theorem Step.terminalError_kept (hstep : Step s seen s') (hrequested : s.closeRequested = true)
    {n : Nat} {after : Phase α} {terminalError : Option (SubscriptionMessage α)}
    (hafter : s'.phase? n = some after) (herror : Phase.terminalError after = some terminalError) :
    ∃ before, s.phase? n = some before ∧ Phase.terminalError before = some terminalError := by
  obtain hkept | ⟨-, hopen⟩ | ⟨-, -, hopen, -⟩ := hstep.terminalError hafter herror
  · exact hkept
  · rw [hstep.closeRequested_mono hrequested] at hopen
    cases hopen
  · rw [hrequested] at hopen
    cases hopen

theorem calls_eq_nil (h : ∀ n message, .called n message ∉ trace) : calls trace = [] := by
  rw [List.eq_nil_iff_forall_not_mem]
  intro call hcall
  exact h call.1 call.2 (mem_calls.mp hcall)

theorem Fenced.step {n : Nat} {error : SubscriptionMessage α} {since : List (Observation α)}
    (hf : Fenced s n error since) (hstep : Step s seen s') :
    Fenced s' n error (since ++ seen) := by
  have hrequested := hf.requested
  obtain ⟨phase, hphase, hstarted, hcases⟩ := hf.this
  -- The only call there can be is that of the error.
  have honly : ∀ i message, .called i message ∈ seen → i = n ∧ message = error ∧
      calls since = [] ∧ seen = [.called n error] ∧ s'.phase? n = some .listening := by
    intro i message hmem
    have hcalls := hstep.called hmem
    obtain ⟨-, -, hopen⟩ | ⟨projected, hbefore⟩ | ⟨cursor, event, -, hbefore⟩ := hcalls.before
    · rw [hrequested] at hopen
      cases hopen
    · have hi : i = n := by
        by_contra hne
        have hother := hf.others i _ hne hbefore
        simp at hother
      subst hi
      rw [hphase] at hbefore
      cases hbefore
      obtain ⟨hnone, herror⟩ | ⟨-, hnone⟩ := hcases
      · cases herror _ rfl with
        | inl heq =>
          cases heq
          exact ⟨rfl, rfl, hnone, hcalls.only, hcalls.after⟩
        | inr hsignal =>
          rw [hcalls.signal] at hsignal
          cases hsignal
      · simp [Phase.terminalError] at hnone
    · have hi : i = n := by
        by_contra hne
        have hother := hf.others i _ hne hbefore
        simp at hother
      subst hi
      rw [hphase] at hbefore
      cases hbefore
      obtain ⟨-, herror⟩ | ⟨-, hnone⟩ := hcases
      · cases herror _ rfl with
        | inl heq => cases heq
        | inr hsignal =>
          rw [hcalls.signal] at hsignal
          cases hsignal
      · simp [Phase.terminalError] at hnone
  obtain ⟨after, hafter, hrank⟩ := hstep.rank_mono hphase
  have hafterStarted : after ≠ .waiting := by
    apply rank_pos
    cases phase with
    | waiting => exact absurd rfl hstarted
    | _ => simp only [Phase.rank] at hrank ⊢; omega
  refine ⟨hstep.closeRequested_mono hrequested, ?others, after, hafter, hafterStarted, ?this⟩
  case others =>
    intro i q hne hq
    obtain hsame | hnew | ⟨before, later, hbefore, hlater, hmove⟩ := hstep.phase i
    · exact hf.others i q hne (hsame.symm.trans hq)
    · rw [hnew.2] at hq
      cases hq
      exact .inl rfl
    · rw [hlater] at hq
      cases hq
      cases hf.others i before hne hbefore with
      | inl hwaiting =>
        subst hwaiting
        cases hmove with
        | inl hmove =>
          cases hmove with
          | drop => exact .inr rfl
          | process hready hopen =>
            rw [hrequested] at hopen
            cases hopen
          | pass message hready hopen =>
            rw [hrequested] at hopen
            cases hopen
        | inr hmove => cases hmove
      | inr hdone =>
        subst hdone
        cases hmove with
        | inl hmove => cases hmove
        | inr hmove => cases hmove
  case this =>
    rw [calls_append]
    by_cases hany : ∃ i message, .called i message ∈ seen
    · obtain ⟨i, message, hmem⟩ := hany
      obtain ⟨-, -, hnone, hseen, hlistening⟩ := honly i message hmem
      rw [hafter] at hlistening
      cases hlistening
      exact .inr ⟨by rw [hnone, hseen]; rfl, rfl⟩
    · have hquiet : calls seen = [] :=
        calls_eq_nil fun i message hmem => hany ⟨i, message, hmem⟩
      rw [hquiet, List.append_nil]
      obtain ⟨hnone, herror⟩ | ⟨hdone, hnone⟩ := hcases
      · refine .inl ⟨hnone, ?_⟩
        intro terminalError hterminal
        obtain ⟨before, hbefore, hsame⟩ := hstep.terminalError_kept hrequested hafter hterminal
        rw [hphase] at hbefore
        cases hbefore
        cases herror terminalError hsame with
        | inl heq => exact .inl heq
        | inr hsignal => exact .inr (hstep.aborted_mono hsignal)
      · refine .inr ⟨hdone, ?_⟩
        cases hterminal : Phase.terminalError after with
        | none => rfl
        | some terminalError =>
          obtain ⟨before, hbefore, hsame⟩ := hstep.terminalError_kept hrequested hafter hterminal
          rw [hphase] at hbefore
          cases hbefore
          rw [hnone] at hsame
          cases hsame

theorem Step.message (hstep : Step s seen s') {n : Nat} {d : Delivery α}
    (h : s.deliveries[n]? = some d) :
    ∃ later, s'.deliveries[n]? = some later ∧ later.message = d.message := by
  have hset : ∀ (t : GuardedSubscription α) m phase, t.deliveries = s.deliveries →
      ∃ later, (t.setPhase m phase).deliveries[n]? = some later ∧ later.message = d.message := by
    intro t m phase ht
    simp only [setPhase, ht, List.getElem?_modify, h]
    by_cases hm : m = n
    · simp [hm]
    · simp [hm]
  cases hstep with
  | arrive message =>
    have hlt : n < s.deliveries.length := (List.getElem?_eq_some_iff.mp h).1
    exact ⟨d, by rw [List.getElem?_append_left hlt, h], rfl⟩
  | move => exact hset _ _ _ rfl
  | closing => exact hset _ _ _ rfl
  | subscribe =>
    refine ⟨d, ?_, rfl⟩
    simp only [setSubscription]
    split <;> exact h
  | _ => exact ⟨d, h, rfl⟩

/-- What a call of `fail` does, and on which delivery. -/
theorem Step.failed (hstep : Step s seen s') {n : Nat} {code detail : String}
    (h : .failed n code detail ∈ seen) :
    seen = [.failed n code detail] ∧ ((∃ message, s.deliveries[n]? = some ⟨message, .processing none⟩ ∧
      s'.phase? n = some (.processing (some (.error message.cursor code detail))) ∧
      s'.closeRequested = true) ∨
      (s' = s ∧ ∃ terminalError, s.phase? n = some (.processing terminalError) ∧
        (s.closeRequested = true ∨ terminalError.isSome = true))) := by
  cases hstep with
  | move hphase hmove => cases hmove <;> simp at h
  | @closing m p q seen hphase hmove =>
    cases hmove with
    | fail code detail message hdelivery hopen =>
      simp only [List.mem_singleton, Observation.failed.injEq] at h
      obtain ⟨rfl, rfl, rfl⟩ := h
      refine ⟨rfl, .inl ⟨message, hdelivery, ?_, rfl⟩⟩
      simp [phase?_setPhase, phase?_closeSubscription, hphase]
    | handle => simp at h
  | failAgain m code detail terminalError hphase hstop =>
    simp only [List.mem_singleton, Observation.failed.injEq] at h
    obtain ⟨rfl, rfl, rfl⟩ := h
    exact ⟨rfl, .inr ⟨rfl, terminalError, hphase, hstop⟩⟩
  | _ => simp at h

/-- While one delivery is active, all others wait or are done. -/
theorem Chained.others (hc : Chained s) {n : Nat} {active : Phase α}
    (h : s.phase? n = some active) (hstarted : active ≠ .waiting) (hopen : active ≠ .done)
    (i : Nat) (phase : Phase α) (hne : i ≠ n) (hi : s.phase? i = some phase) :
    phase = .waiting ∨ phase = .done := by
  by_cases hwaiting : phase = .waiting
  · exact .inl hwaiting
  · by_cases hdone : phase = .done
    · exact .inr hdone
    · exact absurd (hc.eq_of_active hi h hwaiting hstarted hdone hopen) hne

/-- An event whose processing ended after the abort is not delivered. -/
theorem Reaches.late (h : Reaches trace s) {before since : List (Observation α)} {n : Nat}
    {settlement : Settlement α} (heq : trace = before ++ .aborted :: since)
    (hmem : .processed n settlement ∈ since) :
    (∃ phase, s.phase? n = some phase ∧ 2 ≤ Phase.rank phase) ∧
      ∀ message, .called n message ∉ trace := by
  induction h generalizing since with
  | start => simp at heq
  | @step trace seen s s' action hbefore hact ih =>
    have hstep := step_of_act hact
    -- A delivery that has not been called for is not called for once the signal is aborted.
    have hquiet : (∀ message, .called n message ∉ trace) → s.aborted = true →
        ∀ message, .called n message ∉ trace ++ seen := by
      intro hnone hsignal message hcalled
      cases List.mem_append.mp hcalled with
      | inl hold => exact hnone message hold
      | inr hnew =>
        have hopen := (hstep.called hnew).signal
        rw [hsignal] at hopen
        cases hopen
    have hended : .processed n settlement ∈ seen → s.aborted = true →
        (∃ phase, s'.phase? n = some phase ∧ 2 ≤ Phase.rank phase) ∧
          ∀ message, .called n message ∉ trace ++ seen := by
      intro hend hsignal
      obtain ⟨terminalError, hphase, hafter⟩ := hstep.processed hend
      refine ⟨⟨_, hafter, by simp [Phase.rank]⟩, hquiet ?_ hsignal⟩
      intro message hcalled
      obtain ⟨phase, hcalledPhase, hrank⟩ := hbefore.called_rank hcalled
      rw [hphase] at hcalledPhase
      cases hcalledPhase
      simp [Phase.rank] at hrank
    obtain ⟨rest, hb, hs⟩ | ⟨rest, ht, hs⟩ := List.append_eq_append_iff.mp heq
    · -- The abort is in this step, in which no processing ends.
      have hprocessed : .processed n settlement ∈ seen := by
        rw [hs]
        simp [hmem]
      have habort : .aborted ∈ seen := by
        rw [hs]
        simp
      cases hstep with
      | move hphase hmove => cases hmove <;> simp at habort
      | closing hphase hmove => cases hmove <;> simp at habort
      | abort => simp at hprocessed
      | _ => simp at habort
    · cases rest with
      | nil =>
        rw [List.nil_append] at hs
        have hprocessed : .processed n settlement ∈ seen := by
          rw [← hs]
          simp [hmem]
        have habort : .aborted ∈ seen := by
          rw [← hs]
          simp
        cases hstep with
        | move hphase hmove => cases hmove <;> simp at habort
        | closing hphase hmove => cases hmove <;> simp at habort
        | abort => simp at hprocessed
        | _ => simp at habort
      | cons o rest =>
        simp only [List.cons_append, List.cons.injEq] at hs
        obtain ⟨rfl, rfl⟩ := hs
        have hsignal : s.aborted = true := hbefore.aborted (by rw [ht]; simp)
        cases List.mem_append.mp hmem with
        | inl hold =>
          obtain ⟨⟨phase, hphase, hrank⟩, hnone⟩ := ih ht hold
          obtain ⟨after, hafter, hle⟩ := hstep.rank_mono hphase
          exact ⟨⟨after, hafter, by omega⟩, hquiet hnone hsignal⟩
        | inr hnew => exact hended hnew hsignal

/-! ## The close -/

def Observation.isClosed : Observation α → Bool
  | .closed => true
  | _ => false

def ClosePromise.calls : ClosePromise → Nat
  | .none | .scheduled => 0
  | .called | .settled => 1

theorem closeSubscription_calls (s : GuardedSubscription α) :
    ClosePromise.calls s.closeSubscription.closePromise = ClosePromise.calls s.closePromise := by
  simp only [closeSubscription]
  split
  · rename_i h
    rw [h.2]
    rfl
  · rfl

theorem setSubscription_calls (s : GuardedSubscription α) :
    ClosePromise.calls s.setSubscription.closePromise = ClosePromise.calls s.closePromise := by
  simp only [setSubscription]
  split
  · exact closeSubscription_calls _
  · rfl

theorem Step.closed (hstep : Step s seen s') :
    ClosePromise.calls s'.closePromise =
      ClosePromise.calls s.closePromise + seen.countP Observation.isClosed := by
  cases hstep with
  | move hphase hmove => cases hmove <;> simp [setPhase, Observation.isClosed]
  | closing hphase hmove =>
    have hsame := closeSubscription_calls s
    cases hmove <;> simpa [setPhase, Observation.isClosed] using hsame
  | subscribe => simpa using setSubscription_calls s
  | close h => simp [h, ClosePromise.calls, Observation.isClosed]
  | settleClose h => simp [h, ClosePromise.calls]
  | _ => simp [Observation.isClosed]

theorem Reaches.closed (h : Reaches trace s) :
    trace.countP Observation.isClosed = ClosePromise.calls s.closePromise := by
  induction h with
  | start => rfl
  | step action before hact ih =>
    rw [List.countP_append, ih, (step_of_act hact).closed]

/-- A close that has been requested is under way once there is a subscription. -/
theorem Reaches.requested (h : Reaches trace s) (hrequested : s.closeRequested = true)
    (hset : s.subscription = true) : s.closePromise ≠ .none := by
  induction h with
  | start => cases hset
  | @step trace seen s s' action before hact ih =>
    cases step_of_act hact with
    | closing hphase hmove =>
      simp only [setPhase, closeSubscription] at hset ⊢
      split
      · simp
      · rename_i hnot
        exact fun hnone => hnot ⟨hset, hnone⟩
    | subscribe hunset =>
      rw [setSubscription_closeRequested, Bool.or_eq_true] at hrequested
      simp only [setSubscription, Bool.or_eq_true, hrequested, if_true, closeSubscription]
      split
      · simp
      · rename_i hnot
        exact fun hnone => hnot ⟨trivial, hnone⟩
    | close => simp
    | settleClose => simp
    | _ => exact ih hrequested hset

/-- The handling of a rejection is still to come. -/
def Rejecting (s : GuardedSubscription α) : Prop :=
  ∃ n, s.phase? n = some .rejected ∨
    ∃ terminalError, s.phase? n = some (.processed terminalError .rejected)

theorem Step.rejecting (hstep : Step s seen s') (h : Rejecting s) :
    Rejecting s' ∨ s'.closeRequested = true := by
  obtain ⟨n, hrejected | ⟨terminalError, hprocessed⟩⟩ := h
  · cases hstep with
    | @closing m p q seen hphase hmove => exact .inr rfl
    | @move m p q seen hphase hmove =>
      have hne : n ≠ m := by
        intro heq
        subst heq
        rw [hrejected] at hphase
        cases hphase
        cases hmove
      exact .inl ⟨n, .inl (by rw [phase?_setPhase, if_neg hne, hrejected])⟩
    | arrive message =>
      cases phase?_arrive s message n with
      | inl hsame => exact .inl ⟨n, .inl (hsame.trans hrejected)⟩
      | inr hnew =>
        rw [hnew.1] at hrejected
        cases hrejected
    | subscribe => exact .inl ⟨n, .inl (by rw [phase?_setSubscription, hrejected])⟩
    | _ => exact .inl ⟨n, .inl hrejected⟩
  · obtain hsame | hnew | ⟨before, after, hbefore, hafter, hmove⟩ := hstep.phase n
    · exact .inl ⟨n, .inr ⟨terminalError, hsame.trans hprocessed⟩⟩
    · rw [hnew.1] at hprocessed
      cases hprocessed
    · rw [hbefore] at hprocessed
      cases hprocessed
      cases hmove with
      | inl hmove =>
        cases hmove with
        | reject => exact .inl ⟨n, .inl hafter⟩
      | inr hmove => cases hmove

theorem Step.failure (hstep : Step s seen s') (hg : ∀ n terminalError,
      s.phase? n = some (.processing terminalError) → Guarded trace s n terminalError)
    {o : Observation α} (hmem : o ∈ seen) (ho : Observation.isFailure o = true) :
    Rejecting s' ∨ s'.closeRequested = true := by
  cases hstep with
  | @move n p q seen hphase hmove =>
    cases hmove with
    | settle terminalError settlement =>
      simp only [List.mem_singleton] at hmem
      subst hmem
      cases settlement with
      | rejected =>
        refine .inl ⟨n, .inr ⟨terminalError, ?_⟩⟩
        simp [phase?_setPhase, hphase]
      | resolved => simp [Observation.isFailure] at ho
    | returned rejected =>
      simp only [List.mem_singleton] at hmem
      subst hmem
      cases rejected with
      | true =>
        refine .inl ⟨n, .inl ?_⟩
        simp [phase?_setPhase, hphase]
      | false => simp [Observation.isFailure] at ho
    | process =>
      simp only [List.mem_singleton] at hmem
      subst hmem
      simp [Observation.isFailure] at ho
    | pass =>
      simp only [List.mem_singleton] at hmem
      subst hmem
      simp [Observation.isFailure] at ho
    | report =>
      simp only [List.mem_singleton] at hmem
      subst hmem
      simp [Observation.isFailure] at ho
    | hand =>
      simp only [List.mem_singleton] at hmem
      subst hmem
      simp [Observation.isFailure] at ho
    | _ => simp at hmem
  | closing => exact .inr rfl
  | failAgain n code detail terminalError hphase hstop =>
    cases hstop with
    | inl hrequested => exact .inr hrequested
    | inr hsome =>
      obtain ⟨error, herror⟩ := Option.isSome_iff_exists.mp hsome
      exact .inr ((hg n terminalError hphase).failed error herror).2
  | abort =>
    simp only [List.mem_singleton] at hmem
    subst hmem
    simp [Observation.isFailure] at ho
  | close =>
    simp only [List.mem_singleton] at hmem
    subst hmem
    simp [Observation.isFailure] at ho
  | _ => simp at hmem

/-- After a failure the close is requested, or the handling of the rejection is still to come. -/
theorem Reaches.failure (h : Reaches trace s) {o : Observation α} (hmem : o ∈ trace)
    (ho : Observation.isFailure o = true) : Rejecting s ∨ s.closeRequested = true := by
  induction h with
  | start => simp at hmem
  | @step trace seen s s' action before hact ih =>
    have hstep := step_of_act hact
    cases List.mem_append.mp hmem with
    | inl hold =>
      cases ih hold with
      | inl hrejecting => exact hstep.rejecting hrejecting
      | inr hrequested => exact .inr (hstep.closeRequested_mono hrequested)
    | inr hnew =>
      exact hstep.failure (fun n terminalError hphase => before.guarded hphase rfl) hnew ho

/-- What the handler does by itself: continuations and the call of the close that are due. -/
def Action.isOwn : Action α → Bool
  | .resume _ => true
  | .handleRejection _ => true
  | .close => true
  | _ => false

def Settled (s : GuardedSubscription α) : Prop :=
  ∀ action, Action.isOwn action = true → s.act action = none

def Phase.due : Phase α → Nat
  | .processed _ _ => 3
  | .rejected => 2
  | _ => 0

/-- A bound on what the handler still does by itself. -/
def due (s : GuardedSubscription α) : Nat :=
  (s.deliveries.map fun d => Phase.due d.phase).sum +
    if s.closePromise = .scheduled then 1 else 0

def follow (s : GuardedSubscription α) : List (Action α) → Option (GuardedSubscription α)
  | [] => some s
  | action :: actions => do
    let next ← s.act action
    next.1.follow actions

end GuardedSubscription
end EnboxDwn
