import Mathlib.Data.List.Nodup

/-! Operations that share a key, chained through the map of pending completions. What is due after
a promise has settled may come in any order, and calls may be made at any time between. -/
namespace EnboxDwn
namespace SerializedByKey
variable {κ ο : Type}

/-- The operation of a call: it awaits the completion before it, it runs, its promise has settled;
at last the caller has its outcome. -/
inductive Phase (ο : Type) where
  | waiting
  | running
  | settled (outcome : ο)
  | returned (outcome : ο)

def Phase.outcome? : Phase ο → Option ο
  | .settled outcome | .returned outcome => some outcome
  | _ => none

/-- `previous` is the call whose completion was the tail; `completed` tells that the completion of
this one has settled. -/
structure Call (κ ο : Type) where
  key : κ
  previous : Option Nat
  phase : Phase ο
  completed : Bool := false

/-- The calls in their order, the map with the call of each tail, and the operations in the order in
which they have started. -/
structure State (κ ο : Type) where
  calls : List (Call κ ο) := []
  pending : κ → Option Nat := fun _ => none
  starts : List Nat := []

/-- What goes on: a call; an operation resumes behind its predecessor; an operation ends; its
completion settles; the caller goes on. -/
inductive Event (κ ο : Type) where
  | runSerializedByKey (key : κ)
  | start (n : Nat)
  | finish (n : Nat) (outcome : ο)
  | complete (n : Nat)
  | return_ (n : Nat)

/-- The completion that the call awaits has settled. -/
def State.isFree (s : State κ ο) (c : Call κ ο) : Bool :=
  match c.previous with
  | none => true
  | some m => (s.calls[m]?).elim false Call.completed

/-! ## The chain of a key -/

def Call.IsOver (c : Call κ ο) : Prop := c.phase.outcome?.isSome = true

def Call.IsWaiting (c : Call κ ο) : Prop := c.phase = .waiting

theorem not_waiting_of_over {c : Call κ ο} (h : c.IsOver) : ¬ c.IsWaiting := by
  intro hwaiting
  rw [Call.IsOver, show c.phase = .waiting from hwaiting] at h
  cases h

/-- A call that has begun has those of its key before it behind it; one that waits does so for the
last of them. -/
structure Chained (calls : List (Call κ ο)) : Prop where
  begun : ∀ {m n : Nat} {c d : Call κ ο}, m < n → calls[m]? = some c → calls[n]? = some d →
    c.key = d.key → ¬ d.IsWaiting → c.IsOver
  linked : ∀ {n : Nat} {d : Call κ ο}, calls[n]? = some d → d.IsWaiting → ∃ m c, m < n ∧
    d.previous = some m ∧ calls[m]? = some c ∧ c.key = d.key ∧
      ∀ i e, m < i → i < n → calls[i]? = some e → e.key ≠ d.key
  completed : ∀ {n : Nat} {c : Call κ ο}, calls[n]? = some c → c.completed = true → c.IsOver

theorem getElem?_set_cases {calls : List (Call κ ο)} {n i : Nat} {c d : Call κ ο}
    (h : (calls.set n c)[i]? = some d) : i = n ∧ d = c ∨ i ≠ n ∧ calls[i]? = some d := by
  rw [List.getElem?_set] at h
  split_ifs at h with hi hlt
  · exact .inl ⟨hi.symm, (Option.some.inj h).symm⟩
  · exact .inr ⟨fun heq => hi heq.symm, h⟩

theorem getElem?_set_of {calls : List (Call κ ο)} {n i : Nat} {c d : Call κ ο}
    (c' : Call κ ο) (hc : calls[n]? = some c) (h : calls[i]? = some d) :
    ∃ d', (calls.set n c')[i]? = some d' ∧ (i = n ∧ d' = c' ∧ d = c ∨ i ≠ n ∧ d' = d) := by
  by_cases hi : i = n
  · subst hi
    have hlt := (List.getElem?_eq_some_iff.mp hc).1
    rw [hc, Option.some.injEq] at h
    exact ⟨c', by rw [List.getElem?_set_self hlt], .inl ⟨rfl, rfl, h.symm⟩⟩
  · exact ⟨d, by rw [List.getElem?_set_ne (Ne.symm hi), h], .inr ⟨hi, rfl⟩⟩

theorem getElem?_append_cases {calls : List (Call κ ο)} {c d : Call κ ο} {i : Nat}
    (h : (calls ++ [c])[i]? = some d) :
    calls[i]? = some d ∨ i = calls.length ∧ d = c := by
  rw [List.getElem?_append] at h
  split_ifs at h with hlt
  · exact .inl h
  · have hzero : i - calls.length = 0 := by
      by_contra hne
      rw [List.getElem?_singleton, if_neg hne] at h
      cases h
    rw [hzero] at h
    exact .inr ⟨by omega, (Option.some.inj h).symm⟩

theorem getElem?_append_of {calls : List (Call κ ο)} {c d : Call κ ο} {i : Nat}
    (h : calls[i]? = some d) : (calls ++ [c])[i]? = some d := by
  rw [List.getElem?_append_left (List.getElem?_eq_some_iff.mp h).1, h]

theorem Chained.advance {calls : List (Call κ ο)} (h : Chained calls) {n : Nat} {c c' : Call κ ο}
    (hc : calls[n]? = some c) (hkey : c'.key = c.key) (hprevious : c'.previous = c.previous)
    (hover : c.IsOver → c'.IsOver) (hwaiting : c'.IsWaiting → c.IsWaiting)
    (hbegun : ¬ c'.IsWaiting → ∀ m d, m < n → calls[m]? = some d → d.key = c.key → d.IsOver)
    (hcompleted : c'.completed = true → c'.IsOver) : Chained (calls.set n c') where
  begun := by
    intro m i d e hlt hd he hkeys hnot
    rcases getElem?_set_cases he with ⟨rfl, rfl⟩ | ⟨hin, he'⟩
    · rcases getElem?_set_cases hd with ⟨heq, -⟩ | ⟨-, hd⟩
      · omega
      · exact hbegun hnot m d hlt hd (hkeys.trans hkey)
    · rcases getElem?_set_cases hd with ⟨rfl, rfl⟩ | ⟨-, hd'⟩
      · exact hover (h.begun hlt hc he' (hkey.symm.trans hkeys) hnot)
      · exact h.begun hlt hd' he' hkeys hnot
  linked := by
    intro i d hd hwait
    have hold : ∃ d₀, calls[i]? = some d₀ ∧ d₀.IsWaiting ∧ d₀.previous = d.previous ∧
        d₀.key = d.key := by
      rcases getElem?_set_cases hd with ⟨rfl, rfl⟩ | ⟨-, hd⟩
      · exact ⟨c, hc, hwaiting hwait, hprevious.symm, hkey.symm⟩
      · exact ⟨d, hd, hwait, rfl, rfl⟩
    obtain ⟨d₀, hd₀, hwait₀, hprev₀, hkey₀⟩ := hold
    obtain ⟨m, e, hlt, hm, he, hkeys, hbetween⟩ := h.linked hd₀ hwait₀
    obtain ⟨e', he', hcases⟩ := getElem?_set_of c' hc he
    refine ⟨m, e', hlt, hprev₀ ▸ hm, he', ?_, ?_⟩
    · rcases hcases with ⟨-, rfl, rfl⟩ | ⟨-, rfl⟩
      · rw [hkey, hkeys, hkey₀]
      · rw [hkeys, hkey₀]
    · intro j f hmj hji hf
      rcases getElem?_set_cases hf with ⟨rfl, rfl⟩ | ⟨-, hf⟩
      · rw [hkey, ← hkey₀]
        exact hbetween _ c hmj hji hc
      · rw [← hkey₀]
        exact hbetween j f hmj hji hf
  completed := by
    intro i d hd hdone
    rcases getElem?_set_cases hd with ⟨rfl, rfl⟩ | ⟨-, hd⟩
    · exact hcompleted hdone
    · exact h.completed hd hdone

/-- A call that waits begins only when all calls of its key before it are over. -/
theorem Chained.over_of_free {s : State κ ο} (h : Chained s.calls) {n : Nat} {c : Call κ ο}
    (hc : s.calls[n]? = some c) (hwaiting : c.IsWaiting) (hfree : s.isFree c = true) :
    ∀ m d, m < n → s.calls[m]? = some d → d.key = c.key → d.IsOver := by
  intro m d hlt hd hkey
  obtain ⟨p, e, hpn, hprevious, he, hpkey, hbetween⟩ := h.linked hc hwaiting
  have hover : e.IsOver := by
    simp only [State.isFree, hprevious, he, Option.elim_some] at hfree
    exact h.completed he hfree
  rcases Nat.lt_trichotomy m p with hmp | rfl | hpm
  · exact h.begun hmp hd he (hkey.trans hpkey.symm) (not_waiting_of_over hover)
  · rw [he, Option.some.injEq] at hd
    rw [← hd]
    exact hover
  · exact absurd hkey (hbetween m d hpm hlt hd)

theorem Chained.append {calls : List (Call κ ο)} (h : Chained calls) {c : Call κ ο}
    (hlast : c.IsWaiting → ∃ m d, c.previous = some m ∧ calls[m]? = some d ∧ d.key = c.key ∧
      ∀ i e, m < i → calls[i]? = some e → e.key ≠ c.key)
    (hfirst : ¬ c.IsWaiting → ∀ (m : Nat) (d : Call κ ο), calls[m]? = some d → d.key = c.key → d.IsOver)
    (hcompleted : c.completed = false) : Chained (calls ++ [c]) where
  begun := by
    intro m n d e hlt hd he hkeys hnot
    rcases getElem?_append_cases he with he | ⟨hn, rfl⟩
    · rcases getElem?_append_cases hd with hd | ⟨hm, -⟩
      · exact h.begun hlt hd he hkeys hnot
      · have hlt' := (List.getElem?_eq_some_iff.mp he).1
        omega
    · rcases getElem?_append_cases hd with hd | ⟨hm, -⟩
      · exact hfirst hnot m d hd hkeys
      · omega
  linked := by
    intro n d hd hwait
    rcases getElem?_append_cases hd with hd | ⟨hn, rfl⟩
    · obtain ⟨m, e, hlt, hprevious, he, hkeys, hbetween⟩ := h.linked hd hwait
      refine ⟨m, e, hlt, hprevious, getElem?_append_of he, hkeys, ?_⟩
      intro i f hmi hin hf
      rcases getElem?_append_cases hf with hf | ⟨hi, -⟩
      · exact hbetween i f hmi hin hf
      · have hlt' := (List.getElem?_eq_some_iff.mp hd).1
        omega
    · obtain ⟨m, e, hprevious, he, hkeys, hafter⟩ := hlast hwait
      have hlt' := (List.getElem?_eq_some_iff.mp he).1
      refine ⟨m, e, by omega, hprevious, getElem?_append_of he, hkeys, ?_⟩
      intro i f hmi hin hf
      rcases getElem?_append_cases hf with hf | ⟨hi, -⟩
      · exact hafter i f hmi hf
      · omega
  completed := by
    intro n d hd hdone
    rcases getElem?_append_cases hd with hd | ⟨-, rfl⟩
    · exact h.completed hd hdone
    · rw [hcompleted] at hdone
      cases hdone

variable [DecidableEq κ]

/-- Without a tail the operation begins at once, before the call is over. -/
def State.call (s : State κ ο) (key : κ) : State κ ο :=
  let previous := s.pending key
  let n := s.calls.length
  { calls := s.calls ++ [{ key, previous, phase := if previous.isSome then .waiting else .running }]
    pending := Function.update s.pending key (some n)
    starts := if previous.isSome then s.starts else s.starts ++ [n] }

/-- One event, if it can happen. -/
def State.step (s : State κ ο) : Event κ ο → Option (State κ ο)
  | .runSerializedByKey key => some (s.call key)
  | .start n =>
    match s.calls[n]? with
    | some c =>
      match c.phase with
      | .waiting =>
        if s.isFree c then
          some { s with calls := s.calls.set n { c with phase := .running }, starts := s.starts ++ [n] }
        else none
      | _ => none
    | none => none
  | .finish n outcome =>
    match s.calls[n]? with
    | some c =>
      match c.phase with
      | .running => some { s with calls := s.calls.set n { c with phase := .settled outcome } }
      | _ => none
    | none => none
  | .complete n =>
    match s.calls[n]? with
    | some c =>
      if c.phase.outcome?.isSome && !c.completed then
        some { s with calls := s.calls.set n { c with completed := true } }
      else none
    | none => none
  | .return_ n =>
    match s.calls[n]? with
    | some c =>
      match c.phase with
      | .settled outcome =>
        -- The tail is removed by the caller that finds itself still last.
        some { s with
          calls := s.calls.set n { c with phase := .returned outcome }
          pending := if s.pending c.key = some n then Function.update s.pending c.key none
            else s.pending }
      | _ => none
    | none => none

def run (s : State κ ο) : List (Event κ ο) → Option (State κ ο)
  | [] => some s
  | event :: events => (s.step event).bind fun s' => run s' events

/-! ## What an event can do -/

/-- The state after each event, with what the event found. -/
inductive Took (s : State κ ο) : Event κ ο → State κ ο → Prop
  | call (key : κ) : Took s (.runSerializedByKey key) (s.call key)
  | start {n : Nat} {c : Call κ ο} (hc : s.calls[n]? = some c) (hphase : c.phase = .waiting)
      (hfree : s.isFree c = true) :
      Took s (.start n)
        { s with calls := s.calls.set n { c with phase := .running }, starts := s.starts ++ [n] }
  | finish {n : Nat} {c : Call κ ο} (outcome : ο) (hc : s.calls[n]? = some c)
      (hphase : c.phase = .running) :
      Took s (.finish n outcome)
        { s with calls := s.calls.set n { c with phase := .settled outcome } }
  | complete {n : Nat} {c : Call κ ο} (hc : s.calls[n]? = some c)
      (houtcome : c.phase.outcome?.isSome = true) :
      Took s (.complete n) { s with calls := s.calls.set n { c with completed := true } }
  | return_ {n : Nat} {c : Call κ ο} (outcome : ο) (hc : s.calls[n]? = some c)
      (hphase : c.phase = .settled outcome) :
      Took s (.return_ n)
        { s with
          calls := s.calls.set n { c with phase := .returned outcome }
          pending := if s.pending c.key = some n then Function.update s.pending c.key none
            else s.pending }

theorem took_of_step {s s' : State κ ο} {event : Event κ ο} (h : s.step event = some s') :
    Took s event s' := by
  cases event with
  | runSerializedByKey key =>
    cases h
    exact .call key
  | start n =>
    rw [State.step] at h
    cases hc : s.calls[n]? with
    | none => simp [hc] at h
    | some c =>
      cases hphase : c.phase <;> simp only [hc, hphase, Option.ite_none_right_eq_some] at h
      case waiting =>
        obtain ⟨hfree, h⟩ := h
        cases h
        exact .start hc hphase hfree
      all_goals cases h
  | finish n outcome =>
    rw [State.step] at h
    cases hc : s.calls[n]? with
    | none => simp [hc] at h
    | some c =>
      cases hphase : c.phase <;> simp only [hc, hphase] at h <;> cases h
      exact .finish outcome hc hphase
  | complete n =>
    rw [State.step] at h
    cases hc : s.calls[n]? with
    | none => simp [hc] at h
    | some c =>
      simp only [hc, Option.ite_none_right_eq_some, Bool.and_eq_true] at h
      obtain ⟨⟨houtcome, -⟩, h⟩ := h
      cases h
      exact .complete hc houtcome
  | return_ n =>
    rw [State.step] at h
    cases hc : s.calls[n]? with
    | none => simp [hc] at h
    | some c =>
      cases hphase : c.phase <;> simp only [hc, hphase] at h <;> cases h
      exact .return_ _ hc hphase

/-- The tails of the map are the last calls of their keys, and those that have not returned. -/
structure Tails (s : State κ ο) : Prop where
  tail : ∀ {key : κ} {n : Nat}, s.pending key = some n → ∃ c, s.calls[n]? = some c ∧ c.key = key ∧
    (∀ outcome, c.phase ≠ .returned outcome) ∧
      ∀ i e, n < i → s.calls[i]? = some e → e.key ≠ key
  free : ∀ {key : κ}, s.pending key = none → ∀ {n : Nat} {c : Call κ ο}, s.calls[n]? = some c →
    c.key = key → c.IsOver

/-- The operations start one behind the other where they share a key, and each has begun. -/
structure Ordered (s : State κ ο) : Prop where
  begun : ∀ n ∈ s.starts, ∃ c, s.calls[n]? = some c ∧ ¬ c.IsWaiting
  inOrder : s.starts.Pairwise fun m n => ∀ c d, s.calls[m]? = some c → s.calls[n]? = some d →
    c.key = d.key → m < n

structure Inv (s : State κ ο) : Prop where
  chained : Chained s.calls
  tails : Tails s
  ordered : Ordered s

/-- A call that goes on keeps its key, its place and whether it is over. -/
structure Continues (c c' : Call κ ο) : Prop where
  key : c'.key = c.key
  previous : c'.previous = c.previous
  isOver : c.IsOver → c'.IsOver
  waiting : c'.IsWaiting → c.IsWaiting

section
omit [DecidableEq κ]

theorem Tails.advance {s : State κ ο} (h : Tails s) {n : Nat} {c c' : Call κ ο}
    (hc : s.calls[n]? = some c) (hnext : Continues c c') (starts : List Nat)
    (hreturned : ∀ outcome, c'.phase = .returned outcome → c.phase = .returned outcome) :
    Tails { s with calls := s.calls.set n c', starts } where
  tail := by
    intro key m hm
    obtain ⟨d, hd, hkey, hnot, hafter⟩ := h.tail hm
    obtain ⟨d', hd', hcases⟩ := getElem?_set_of c' hc hd
    refine ⟨d', hd', ?_, ?_, ?_⟩
    · rcases hcases with ⟨-, rfl, rfl⟩ | ⟨-, rfl⟩
      · rw [hnext.key, hkey]
      · exact hkey
    · intro outcome hphase
      rcases hcases with ⟨-, rfl, rfl⟩ | ⟨-, rfl⟩
      · exact hnot outcome (hreturned outcome hphase)
      · exact hnot outcome hphase
    · intro i e hlt he
      rcases getElem?_set_cases he with ⟨rfl, rfl⟩ | ⟨-, he⟩
      · rw [hnext.key]
        exact hafter _ c hlt hc
      · exact hafter i e hlt he
  free := by
    intro key hnone m d hd hkey
    rcases getElem?_set_cases hd with ⟨rfl, rfl⟩ | ⟨-, hd⟩
    · exact hnext.isOver (h.free hnone hc (hnext.key.symm.trans hkey))
    · exact h.free hnone hd hkey

theorem Ordered.advance {s : State κ ο} (h : Ordered s) {n : Nat} {c c' : Call κ ο}
    (hc : s.calls[n]? = some c) (hnext : Continues c c') (pending : κ → Option Nat) :
    Ordered { s with calls := s.calls.set n c', pending } where
  begun := by
    intro m hm
    obtain ⟨d, hd, hbegun⟩ := h.begun m hm
    obtain ⟨d', hd', hcases⟩ := getElem?_set_of c' hc hd
    refine ⟨d', hd', ?_⟩
    rcases hcases with ⟨-, rfl, rfl⟩ | ⟨-, rfl⟩
    · exact fun hwaiting => hbegun (hnext.waiting hwaiting)
    · exact hbegun
  inOrder := by
    apply h.inOrder.imp
    intro m i hmi d e hd he hkeys
    have hold : ∀ {j : Nat} {f : Call κ ο}, (s.calls.set n c')[j]? = some f →
        ∃ f₀, s.calls[j]? = some f₀ ∧ f₀.key = f.key := by
      intro j f hf
      rcases getElem?_set_cases hf with ⟨rfl, rfl⟩ | ⟨-, hf⟩
      · exact ⟨c, hc, hnext.key.symm⟩
      · exact ⟨f, hf, rfl⟩
    obtain ⟨d₀, hd₀, hkd⟩ := hold hd
    obtain ⟨e₀, he₀, hke⟩ := hold he
    exact hmi d₀ e₀ hd₀ he₀ (by rw [hkd, hkeys, hke])

/-- What a call that is under way keeps when it goes on to a stage behind its start. -/
theorem Inv.advance {s : State κ ο} (h : Inv s) {n : Nat} {c c' : Call κ ο}
    (hc : s.calls[n]? = some c) (hnext : Continues c c') (hbegun : ¬ c.IsWaiting)
    (hcompleted : c'.completed = true → c'.IsOver)
    (hreturned : ∀ outcome, c'.phase = .returned outcome → c.phase = .returned outcome) :
    Inv { s with calls := s.calls.set n c' } where
  chained := by
    apply h.chained.advance hc hnext.key hnext.previous hnext.isOver hnext.waiting _ hcompleted
    intro _ m d hlt hd hkey
    exact h.chained.begun hlt hd hc hkey hbegun
  tails := h.tails.advance hc hnext s.starts hreturned
  ordered := h.ordered.advance hc hnext s.pending

end

/-- The call that is added by `call`. -/
def State.next (s : State κ ο) (key : κ) : Call κ ο :=
  { key, previous := s.pending key, phase := if (s.pending key).isSome then .waiting else .running }

theorem calls_call (s : State κ ο) (key : κ) : (s.call key).calls = s.calls ++ [s.next key] := rfl

omit [DecidableEq κ] in
theorem next_waiting {s : State κ ο} {key : κ} (h : (s.next key).IsWaiting) :
    ∃ m, s.pending key = some m := by
  cases hpending : s.pending key with
  | none => simp [Call.IsWaiting, State.next, hpending] at h
  | some m => exact ⟨m, rfl⟩

omit [DecidableEq κ] in
theorem next_begun {s : State κ ο} {key : κ} (h : ¬ (s.next key).IsWaiting) :
    s.pending key = none := by
  cases hpending : s.pending key with
  | none => rfl
  | some m => simp [Call.IsWaiting, State.next, hpending] at h

theorem Tails.call {s : State κ ο} (h : Tails s) (key : κ) : Tails (s.call key) where
  tail := by
    intro key' n hn
    rw [calls_call]
    change Function.update s.pending key (some s.calls.length) key' = some n at hn
    by_cases hkey : key' = key
    · subst hkey
      rw [Function.update_self, Option.some.injEq] at hn
      subst hn
      refine ⟨s.next key', List.getElem?_concat_length, rfl, ?_, ?_⟩
      · intro outcome hphase
        cases hpending : s.pending key' <;> simp [State.next, hpending] at hphase
      · intro i e hlt he
        have hle := (List.getElem?_eq_some_iff.mp he).1
        rw [List.length_append, List.length_singleton] at hle
        omega
    · rw [Function.update_of_ne hkey] at hn
      obtain ⟨c, hc, hck, hnot, hafter⟩ := h.tail hn
      refine ⟨c, getElem?_append_of hc, hck, hnot, ?_⟩
      intro i e hlt he
      rcases getElem?_append_cases he with he | ⟨-, rfl⟩
      · exact hafter i e hlt he
      · exact fun heq => hkey heq.symm
  free := by
    intro key' hnone n c hc hck
    change Function.update s.pending key (some s.calls.length) key' = none at hnone
    have hkey : key' ≠ key := by
      intro heq
      rw [heq, Function.update_self] at hnone
      cases hnone
    rw [Function.update_of_ne hkey] at hnone
    rw [calls_call] at hc
    rcases getElem?_append_cases hc with hc | ⟨-, rfl⟩
    · exact h.free hnone hc hck
    · exact absurd hck.symm hkey

theorem Ordered.call {s : State κ ο} (h : Ordered s) (key : κ) : Ordered (s.call key) := by
  have hold : ∀ m ∈ s.starts, ∃ c, (s.calls ++ [s.next key])[m]? = some c ∧ ¬ c.IsWaiting := by
    intro m hm
    obtain ⟨c, hc, hbegun⟩ := h.begun m hm
    exact ⟨c, getElem?_append_of hc, hbegun⟩
  have hlt : ∀ m ∈ s.starts, m < s.calls.length := by
    intro m hm
    obtain ⟨c, hc, -⟩ := h.begun m hm
    exact (List.getElem?_eq_some_iff.mp hc).1
  have hpairs : s.starts.Pairwise fun m n => ∀ c d, (s.calls ++ [s.next key])[m]? = some c →
      (s.calls ++ [s.next key])[n]? = some d → c.key = d.key → m < n := by
    apply h.inOrder.imp_of_mem
    intro m n hm hn hmn c d hc hd
    rw [List.getElem?_append_left (hlt m hm)] at hc
    rw [List.getElem?_append_left (hlt n hn)] at hd
    exact hmn c d hc hd
  cases hpending : s.pending key with
  | none =>
    have hstarts : (s.call key).starts = s.starts ++ [s.calls.length] := by
      simp [State.call, hpending]
    constructor
    · rw [hstarts, calls_call]
      intro m hm
      rcases List.mem_append.mp hm with hm | hm
      · exact hold m hm
      · rw [List.mem_singleton.mp hm]
        refine ⟨s.next key, List.getElem?_concat_length, ?_⟩
        intro hwaiting
        obtain ⟨m, hm⟩ := next_waiting hwaiting
        rw [hpending] at hm
        cases hm
    · rw [hstarts, calls_call, List.pairwise_append]
      refine ⟨hpairs, List.pairwise_singleton _ _, ?_⟩
      intro m hm n hn c d _ _ _
      rw [List.mem_singleton.mp hn]
      exact hlt m hm
  | some m =>
    have hstarts : (s.call key).starts = s.starts := by
      simp [State.call, hpending]
    constructor
    · rw [hstarts]
      exact hold
    · rw [hstarts]
      exact hpairs

theorem Inv.call {s : State κ ο} (h : Inv s) (key : κ) : Inv (s.call key) where
  chained := by
    rw [calls_call]
    apply h.chained.append
    · intro hwaiting
      obtain ⟨m, hm⟩ := next_waiting hwaiting
      obtain ⟨c, hc, hkey, -, hafter⟩ := h.tails.tail hm
      exact ⟨m, c, hm, hc, hkey, hafter⟩
    · intro hbegun m d hd hkey
      exact h.tails.free (next_begun hbegun) hd hkey
    · rfl
  tails := h.tails.call key
  ordered := h.ordered.call key

omit [DecidableEq κ] in
theorem Inv.start {s : State κ ο} (h : Inv s) {n : Nat} {c : Call κ ο} (hc : s.calls[n]? = some c)
    (hphase : c.phase = .waiting) (hfree : s.isFree c = true) :
    Inv { s with calls := s.calls.set n { c with phase := .running }, starts := s.starts ++ [n] } := by
  have hover := h.chained.over_of_free hc hphase hfree
  have hnext : Continues c { c with phase := .running } := by
    refine ⟨rfl, rfl, ?_, fun hwaiting => by cases hwaiting⟩
    intro hc
    exact absurd hphase (not_waiting_of_over hc)
  have hordered := h.ordered.advance hc hnext s.pending
  constructor
  · apply h.chained.advance hc hnext.key hnext.previous hnext.isOver hnext.waiting (fun _ => hover)
    intro hcompleted
    exact absurd hphase (not_waiting_of_over (h.chained.completed hc hcompleted))
  · exact h.tails.advance hc hnext _ (fun outcome hreturned => by cases hreturned)
  · constructor
    · intro m hm
      rcases List.mem_append.mp hm with hm | hm
      · exact hordered.begun m hm
      · rw [List.mem_singleton.mp hm]
        exact ⟨_, List.getElem?_set_self (List.getElem?_eq_some_iff.mp hc).1, fun hw => by cases hw⟩
    · rw [List.pairwise_append]
      refine ⟨hordered.inOrder, List.pairwise_singleton _ _, ?_⟩
      -- Whatever has started and stands behind would have found this call over.
      intro m hm i hi d e hd he hkeys
      rw [List.mem_singleton.mp hi] at he ⊢
      obtain ⟨f, hf, hbegun⟩ := h.ordered.begun m hm
      have hne : m ≠ n := by
        intro heq
        rw [heq, hc, Option.some.injEq] at hf
        exact hbegun (hf ▸ hphase)
      rw [List.getElem?_set_ne (Ne.symm hne), hf, Option.some.injEq] at hd
      rw [List.getElem?_set_self (List.getElem?_eq_some_iff.mp hc).1, Option.some.injEq] at he
      subst hd he
      by_contra hnot
      have hlt : n < m := by omega
      exact not_waiting_of_over (h.chained.begun hlt hc hf hkeys.symm hbegun) hphase

theorem Inv.return_ {s : State κ ο} (h : Inv s) {n : Nat} {c : Call κ ο} {outcome : ο}
    (hc : s.calls[n]? = some c) (hphase : c.phase = .settled outcome) :
    Inv { s with
      calls := s.calls.set n { c with phase := .returned outcome }
      pending := if s.pending c.key = some n then Function.update s.pending c.key none
        else s.pending } := by
  have hover : c.IsOver := by rw [Call.IsOver, hphase]; rfl
  have hnext : Continues c { c with phase := .returned outcome } :=
    ⟨rfl, rfl, fun _ => rfl, fun hwaiting => by cases hwaiting⟩
  constructor
  · apply h.chained.advance hc hnext.key hnext.previous hnext.isOver hnext.waiting _ (fun _ => rfl)
    intro _ m d hlt hd hkey
    exact h.chained.begun hlt hd hc hkey (not_waiting_of_over hover)
  · split_ifs with hlast
    · constructor
      · intro key m hm
        change Function.update s.pending c.key none key = some m at hm
        have hkey : key ≠ c.key := by
          intro heq
          rw [heq, Function.update_self] at hm
          cases hm
        rw [Function.update_of_ne hkey] at hm
        obtain ⟨d, hd, hdk, hnot, hafter⟩ := h.tails.tail hm
        obtain ⟨d', hd', hcases⟩ := getElem?_set_of { c with phase := .returned outcome } hc hd
        rcases hcases with ⟨-, rfl, rfl⟩ | ⟨-, rfl⟩
        · exact absurd hdk.symm hkey
        · refine ⟨d', hd', hdk, hnot, ?_⟩
          intro i e hlt he
          rcases getElem?_set_cases he with ⟨rfl, rfl⟩ | ⟨-, he⟩
          · exact fun heq => hkey heq.symm
          · exact hafter i e hlt he
      · intro key hnone m d hd hdk
        change Function.update s.pending c.key none key = none at hnone
        rcases getElem?_set_cases hd with ⟨rfl, rfl⟩ | ⟨hmn, hd⟩
        · rfl
        · by_cases hkey : key = c.key
          · -- Every other call of the key stands before the tail.
            obtain ⟨e, he, -, -, hafter⟩ := h.tails.tail hlast
            have hlt : m < n := by
              by_contra hnot
              exact hafter m d (by omega) hd (hdk.trans hkey)
            exact h.chained.begun hlt hd hc (hdk.trans hkey) (not_waiting_of_over hover)
          · rw [Function.update_of_ne hkey] at hnone
            exact h.tails.free hnone hd hdk
    · constructor
      · intro key m hm
        obtain ⟨d, hd, hdk, hnot, hafter⟩ := h.tails.tail hm
        obtain ⟨d', hd', hcases⟩ := getElem?_set_of { c with phase := .returned outcome } hc hd
        rcases hcases with ⟨rfl, rfl, rfl⟩ | ⟨-, rfl⟩
        · exact absurd (hdk ▸ hm) hlast
        · refine ⟨d', hd', hdk, hnot, ?_⟩
          intro i e hlt he
          rcases getElem?_set_cases he with ⟨rfl, rfl⟩ | ⟨-, he⟩
          · exact hafter _ c hlt hc
          · exact hafter i e hlt he
      · intro key hnone m d hd hdk
        rcases getElem?_set_cases hd with ⟨rfl, rfl⟩ | ⟨-, hd⟩
        · rfl
        · exact h.tails.free hnone hd hdk
  · exact h.ordered.advance hc hnext _

theorem Inv.step {s s' : State κ ο} (h : Inv s) {event : Event κ ο}
    (hstep : s.step event = some s') : Inv s' := by
  cases took_of_step hstep with
  | call key => exact h.call key
  | start hc hphase hfree => exact h.start hc hphase hfree
  | @finish n c outcome hc hphase =>
    apply h.advance hc
    · refine ⟨rfl, rfl, fun _ => rfl, fun hwaiting => by cases hwaiting⟩
    · intro hwaiting
      rw [show c.phase = .waiting from hwaiting] at hphase
      cases hphase
    · intro _
      rfl
    · intro other hreturned
      cases hreturned
  | @complete n c hc houtcome =>
    apply h.advance hc
    · exact ⟨rfl, rfl, id, id⟩
    · exact not_waiting_of_over houtcome
    · intro _
      exact houtcome
    · intro _ hreturned
      exact hreturned
  | return_ outcome hc hphase => exact h.return_ hc hphase

omit [DecidableEq κ] in
theorem inv_initial : Inv ({} : State κ ο) := by
  constructor
  · constructor <;> simp
  · constructor <;> simp
  · constructor <;> simp

theorem inv_run {s s' : State κ ο} (h : Inv s) {events : List (Event κ ο)}
    (hrun : run s events = some s') : Inv s' := by
  induction events generalizing s with
  | nil =>
    cases hrun
    exact h
  | cons event events ih =>
    obtain ⟨t, ht, hrest⟩ := Option.bind_eq_some_iff.mp hrun
    exact ih (h.step ht) hrest

/-! ## Outcomes -/

theorem outcome_step {s s' : State κ ο} {event : Event κ ο} (hstep : s.step event = some s')
    {n : Nat} {c' : Call κ ο} (hc' : s'.calls[n]? = some c') {outcome : ο}
    (houtcome : c'.phase.outcome? = some outcome) :
    (∃ c, s.calls[n]? = some c ∧ c.phase.outcome? = some outcome) ∨ event = .finish n outcome := by
  cases took_of_step hstep with
  | call key =>
    rw [calls_call] at hc'
    rcases getElem?_append_cases hc' with hc | ⟨-, rfl⟩
    · exact .inl ⟨c', hc, houtcome⟩
    · cases hpending : s.pending key <;> simp [State.next, hpending, Phase.outcome?] at houtcome
  | start hc hphase hfree =>
    rcases getElem?_set_cases hc' with ⟨rfl, rfl⟩ | ⟨-, hc'⟩
    · cases houtcome
    · exact .inl ⟨c', hc', houtcome⟩
  | finish other hc hphase =>
    rcases getElem?_set_cases hc' with ⟨rfl, rfl⟩ | ⟨-, hc'⟩
    · right
      rw [← Option.some.inj houtcome]
    · exact .inl ⟨c', hc', houtcome⟩
  | @complete _ c hc _ =>
    rcases getElem?_set_cases hc' with ⟨rfl, rfl⟩ | ⟨-, hc'⟩
    · exact .inl ⟨c, hc, houtcome⟩
    · exact .inl ⟨c', hc', houtcome⟩
  | @return_ _ c other hc hphase =>
    rcases getElem?_set_cases hc' with ⟨rfl, rfl⟩ | ⟨-, hc'⟩
    · refine .inl ⟨c, hc, ?_⟩
      rw [hphase]
      exact houtcome
    · exact .inl ⟨c', hc', houtcome⟩

theorem outcome_run {s s' : State κ ο} {events : List (Event κ ο)} (hrun : run s events = some s')
    {n : Nat} {c' : Call κ ο} (hc' : s'.calls[n]? = some c') {outcome : ο}
    (houtcome : c'.phase.outcome? = some outcome) :
    (∃ c, s.calls[n]? = some c ∧ c.phase.outcome? = some outcome) ∨
      .finish n outcome ∈ events := by
  induction events generalizing s with
  | nil =>
    cases hrun
    exact .inl ⟨c', hc', houtcome⟩
  | cons event events ih =>
    obtain ⟨t, ht, hrest⟩ := Option.bind_eq_some_iff.mp hrun
    rcases ih hrest with ⟨c, hc, hold⟩ | hin
    · rcases outcome_step ht hc hold with hbefore | rfl
      · exact .inl hbefore
      · exact .inr List.mem_cons_self
    · exact .inr (List.mem_cons_of_mem _ hin)

/-! ## Progress -/

/-- Nothing is due for a key, and none of its operations is under way. -/
def Quiet (s : State κ ο) (key : κ) : Prop :=
  ∀ n c, s.calls[n]? = some c → c.key = key → c.phase ≠ .running ∧ s.step (.start n) = none ∧
    s.step (.complete n) = none ∧ s.step (.return_ n) = none

theorem begun_of_quiet {s : State κ ο} (h : Inv s) {key : κ} (hquiet : Quiet s key) (n : Nat)
    {c : Call κ ο} (hc : s.calls[n]? = some c) (hkey : c.key = key) : ¬ c.IsWaiting := by
  induction n using Nat.strongRecOn generalizing c with
  | ind n ih =>
    intro hwaiting
    obtain ⟨m, d, hlt, hprevious, hd, hdk, -⟩ := h.chained.linked hc hwaiting
    have hbegun := ih m hlt hd (hdk.trans hkey)
    obtain ⟨hrunning, -, hcomplete, -⟩ := hquiet m d hd (hdk.trans hkey)
    have hover : d.phase.outcome?.isSome = true := by
      cases hphase : d.phase with
      | waiting => exact absurd hphase hbegun
      | running => exact absurd hphase hrunning
      | settled outcome => rfl
      | returned outcome => rfl
    have hcompleted : d.completed = true := by
      cases hdone : d.completed with
      | true => rfl
      | false => simp [State.step, hd, hover, hdone] at hcomplete
    have hfree : s.isFree c = true := by
      simp [State.isFree, hprevious, hd, hcompleted]
    obtain ⟨-, hstart, -, -⟩ := hquiet n c hc hkey
    have hphase : c.phase = .waiting := hwaiting
    simp [State.step, hc, hphase, hfree] at hstart

theorem returned_of_quiet {s : State κ ο} (h : Inv s) {key : κ} (hquiet : Quiet s key) {n : Nat}
    {c : Call κ ο} (hc : s.calls[n]? = some c) (hkey : c.key = key) :
    ∃ outcome, c.phase = .returned outcome := by
  have hbegun := begun_of_quiet h hquiet n hc hkey
  obtain ⟨hrunning, -, -, hreturn⟩ := hquiet n c hc hkey
  cases hphase : c.phase with
  | waiting => exact absurd hphase hbegun
  | running => exact absurd hphase hrunning
  | settled outcome => simp [State.step, hc, hphase] at hreturn
  | returned outcome => exact ⟨outcome, rfl⟩

/-! ## Serialization -/

/-- What holds of a state that the events have led to. -/
structure Serialized (events : List (Event κ ο)) (s : State κ ο) : Prop where
  exclusive : ∀ {m n : Nat} {c d : Call κ ο}, s.calls[m]? = some c → s.calls[n]? = some d →
    c.key = d.key → c.phase = .running → d.phase = .running → m = n
  inOrder : s.starts.Pairwise fun m n => ∀ c d, s.calls[m]? = some c → s.calls[n]? = some d →
    c.key = d.key → m < n
  own : ∀ {n : Nat} {c : Call κ ο} {outcome : ο}, s.calls[n]? = some c →
    c.phase.outcome? = some outcome → .finish n outcome ∈ events
  returned : ∀ {key : κ}, Quiet s key → ∀ {n : Nat} {c : Call κ ο}, s.calls[n]? = some c →
    c.key = key → ∃ outcome, c.phase = .returned outcome
  removed : ∀ {key : κ}, (∀ (n : Nat) (c : Call κ ο), s.calls[n]? = some c → c.key = key →
    ∃ outcome, c.phase = .returned outcome) → s.pending key = none

/-- Operations of a key follow one another in the order of the calls; each outcome is that of the
caller's own operation; a key waits for nothing but its own operations, and its entry goes with the
last of them. -/
theorem serialized {events : List (Event κ ο)} {s : State κ ο} (h : run {} events = some s) :
    Serialized events s where
  exclusive := by
    intro m n c d hc hd hkeys hcr hdr
    have hinv := inv_run inv_initial h
    have hnot : ∀ {c : Call κ ο}, c.phase = .running → ¬ c.IsOver ∧ ¬ c.IsWaiting := by
      intro c hphase
      rw [Call.IsOver, Call.IsWaiting, hphase]
      constructor
      · simp [Phase.outcome?]
      · simp
    rcases Nat.lt_trichotomy m n with hlt | heq | hlt
    · exact absurd (hinv.chained.begun hlt hc hd hkeys (hnot hdr).2) (hnot hcr).1
    · exact heq
    · exact absurd (hinv.chained.begun hlt hd hc hkeys.symm (hnot hcr).2) (hnot hdr).1
  inOrder := (inv_run inv_initial h).ordered.inOrder
  own := by
    intro n c outcome hc houtcome
    rcases outcome_run h hc houtcome with ⟨d, hd, -⟩ | hin
    · simp at hd
    · exact hin
  returned := by
    intro key hquiet n c hc hkey
    exact returned_of_quiet (inv_run inv_initial h) hquiet hc hkey
  removed := by
    intro key hall
    cases hpending : s.pending key with
    | none => rfl
    | some n =>
      obtain ⟨c, hc, hkey, hnot, -⟩ := (inv_run inv_initial h).tails.tail hpending
      obtain ⟨outcome, hphase⟩ := hall n c hc hkey
      exact absurd hphase (hnot outcome)

theorem serialized_two :
    Serialized ([.runSerializedByKey 0, .runSerializedByKey 0] : List (Event Nat Bool))
      ((State.call {} 0).call 0) :=
  serialized rfl

end SerializedByKey
end EnboxDwn
