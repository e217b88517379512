import EnboxDwn.SyncCheckpoint

/-! Flow control of one subscription: a window of unacknowledged messages, a buffer behind it, and
the promise that holds back the producer while the buffer is full. -/
namespace EnboxDwn.Server
open Agent (ProgressToken)

/-- What a subscription delivers; `α` is the payload of an event. -/
inductive SubscriptionMessage (α : Type) where
  | event (cursor : ProgressToken) (event : α)
  | eose (cursor : ProgressToken)
  | error (cursor : ProgressToken) (code detail : String)
  deriving DecidableEq, Repr

def SubscriptionMessage.cursor {α : Type} : SubscriptionMessage α → ProgressToken
  | event cursor _ => cursor
  | eose cursor => cursor
  | error cursor _ _ => cursor

/-- The promise that `push` returned at capacity, and the message its deadline reports. -/
structure CapacityWait (α : Type) where
  promise : Nat
  message : SubscriptionMessage α

/-- The controller, with what it has done to its surroundings: the messages handed to `send`, the
number of promises returned, those of them that are resolved, and the calls of `onOverflow`. -/
structure FlowController (α : Type) where
  unacked : List ProgressToken := []
  buffer : List (SubscriptionMessage α) := []
  closed : Bool := false
  capacityWait : Option (CapacityWait α) := none
  sent : List (SubscriptionMessage α) := []
  promises : Nat := 0
  resolved : List Nat := []
  overflows : Nat := 0

namespace FlowController
variable {α : Type}

def maxBufferSize : Nat := 1000

def sendMessage (s : FlowController α) (message : SubscriptionMessage α) : FlowController α :=
  { s with sent := s.sent ++ [message], unacked := s.unacked ++ [message.cursor] }

def resumeCapacity (s : FlowController α) : FlowController α :=
  match s.capacityWait with
  | some wait => { s with capacityWait := none, resolved := s.resolved ++ [wait.promise] }
  | none => s

def close (s : FlowController α) : FlowController α :=
  resumeCapacity { s with closed := true, buffer := [], unacked := [] }

def fail (s : FlowController α) (message : SubscriptionMessage α) (code detail : String) :
    FlowController α :=
  { s.close with
    sent := s.close.sent ++ [.error message.cursor code detail]
    overflows := s.close.overflows + 1 }

def waitForCapacity (s : FlowController α) (message : SubscriptionMessage α) : FlowController α :=
  { s with capacityWait := some ⟨s.promises, message⟩, promises := s.promises + 1 }

def push (maxInFlight : Nat) (s : FlowController α) (message : SubscriptionMessage α) :
    FlowController α :=
  if s.closed then s
  else if s.unacked.length < maxInFlight then s.sendMessage message
  else
    let s := { s with buffer := s.buffer ++ [message] }
    if maxBufferSize < s.buffer.length then
      s.fail message "SubscriptionBufferOverflow"
        "subscription producer exceeded the flow-control buffer capacity"
    else if s.buffer.length = maxBufferSize then s.waitForCapacity message
    else s

/-- The deadline of a full buffer; it is cleared together with the wait. -/
def expire (s : FlowController α) : FlowController α :=
  match s.capacityWait with
  | some wait => s.fail wait.message "SubscriptionBufferTimeout"
      "subscription ACKs did not free buffer capacity before the deadline"
  | none => s

/-- Sends from the front of the buffer while the window has room. -/
def flush (maxInFlight : Nat) (s : FlowController α) :
    List (SubscriptionMessage α) → FlowController α
  | [] => { s with buffer := [] }
  | message :: rest =>
    if s.unacked.length < maxInFlight then flush maxInFlight (s.sendMessage message) rest
    else { s with buffer := message :: rest }

def matchesCursor (cursor token : ProgressToken) : Bool :=
  token.position == cursor.position &&
    (cursor.messageCid == none || token.messageCid == cursor.messageCid)

def ack (maxInFlight : Nat) (s : FlowController α) (cursor : ProgressToken) : FlowController α :=
  if s.closed then s
  else if s.unacked.head?.any fun expected => cursor.domain ≠ expected.domain then s
  else
    match s.unacked.findIdx? (matchesCursor cursor) with
    | none => s
    | some idx =>
      let s := flush maxInFlight { s with unacked := s.unacked.drop (idx + 1) } s.buffer
      if s.buffer.length < maxBufferSize then s.resumeCapacity else s

inductive Event (α : Type) where
  | push (message : SubscriptionMessage α)
  | ack (cursor : ProgressToken)
  | close
  | expire

def step (maxInFlight : Nat) (s : FlowController α) : Event α → FlowController α
  | .push message => s.push maxInFlight message
  | .ack cursor => s.ack maxInFlight cursor
  | .close => s.close
  | .expire => s.expire

def run (maxInFlight : Nat) (s : FlowController α) (events : List (Event α)) : FlowController α :=
  events.foldl (step maxInFlight) s

/-! ## Windows -/

def pushed (events : List (Event α)) : List (SubscriptionMessage α) :=
  events.filterMap fun event =>
    match event with
    | .push message => some message
    | _ => none

def acknowledged (s : FlowController α) : Nat := s.sent.length - s.unacked.length

/-- The cursor is the token's own, or a high-water cursor at its position. -/
def Names (cursor token : ProgressToken) : Prop :=
  cursor.domain = token.domain ∧ matchesCursor cursor token = true

instance (cursor token : ProgressToken) : Decidable (Names cursor token) :=
  inferInstanceAs (Decidable (_ ∧ _))

/-- What holds of a controller between two calls, after the messages were pushed. -/
structure Ordered (maxInFlight : Nat) (pushed : List (SubscriptionMessage α))
    (s : FlowController α) : Prop where
  fifo : s.closed = false → s.sent ++ s.buffer = pushed
  window : s.unacked.length ≤ maxInFlight
  full : s.buffer ≠ [] → s.unacked.length = maxInFlight
  bounded : s.buffer.length ≤ maxBufferSize
  resolved : ∀ promise < s.promises,
    s.buffer.length < maxBufferSize ∨ s.closed = true → promise ∈ s.resolved

/-- Every message that the step acknowledges is sent no later than one the cursor names. -/
def AcksNamed (cursor : ProgressToken) (s s' : FlowController α) : Prop :=
  ∀ k, s.acknowledged ≤ k → k < s'.acknowledged →
    ∃ j, k ≤ j ∧ ∃ message, s.sent[j]? = some message ∧ Names cursor message.cursor

/-- Nothing is lost, reordered or overfilled in any state of the run, and no acknowledgement goes
beyond what it names. -/
structure Sound (maxInFlight : Nat) (events : List (Event α)) : Prop where
  ordered : ∀ before, before <+: events → Ordered maxInFlight (pushed before) (run maxInFlight {} before)
  acks : ∀ before cursor after, events = before ++ .ack cursor :: after →
    AcksNamed cursor (run maxInFlight {} before) (run maxInFlight {} (before ++ [.ack cursor]))

/-! ## One call -/

section Calls
variable {maxInFlight : Nat} {s : FlowController α}

@[simp] theorem resumeCapacity_buffer (s : FlowController α) :
    s.resumeCapacity.buffer = s.buffer := by
  unfold resumeCapacity
  split <;> rfl

@[simp] theorem resumeCapacity_unacked (s : FlowController α) :
    s.resumeCapacity.unacked = s.unacked := by
  unfold resumeCapacity
  split <;> rfl

@[simp] theorem resumeCapacity_closed (s : FlowController α) :
    s.resumeCapacity.closed = s.closed := by
  unfold resumeCapacity
  split <;> rfl

@[simp] theorem resumeCapacity_sent (s : FlowController α) : s.resumeCapacity.sent = s.sent := by
  unfold resumeCapacity
  split <;> rfl

@[simp] theorem resumeCapacity_promises (s : FlowController α) :
    s.resumeCapacity.promises = s.promises := by
  unfold resumeCapacity
  split <;> rfl

@[simp] theorem resumeCapacity_capacityWait (s : FlowController α) :
    s.resumeCapacity.capacityWait = none := by
  unfold resumeCapacity
  split
  · rfl
  · assumption

theorem flush_eq (maxInFlight : Nat) (s : FlowController α) (buffer : List (SubscriptionMessage α)) :
    flush maxInFlight s buffer =
      { s with
        sent := s.sent ++ buffer.take (maxInFlight - s.unacked.length)
        unacked := s.unacked ++ (buffer.take (maxInFlight - s.unacked.length)).map (·.cursor)
        buffer := buffer.drop (maxInFlight - s.unacked.length) } := by
  induction buffer generalizing s with
  | nil => simp [flush]
  | cons message rest ih =>
    unfold flush
    by_cases hroom : s.unacked.length < maxInFlight
    · rw [if_pos hroom, ih]
      have hcount : maxInFlight - s.unacked.length =
          (maxInFlight - (s.unacked.length + 1)) + 1 := by omega
      simp [sendMessage, hcount]
    · have hcount : maxInFlight - s.unacked.length = 0 := by omega
      simp [hroom, hcount]

/-- An acknowledgement does nothing, or frees the window up to the first match. -/
theorem ack_cases (maxInFlight : Nat) (s : FlowController α) (cursor : ProgressToken) :
    (s.ack maxInFlight cursor = s ∧
      (s.closed = true ∨ (s.unacked.head?.any fun expected => cursor.domain ≠ expected.domain) ∨
        s.unacked.any (matchesCursor cursor) = false)) ∨
    s.closed = false ∧ (s.unacked.head?.any fun expected => cursor.domain ≠ expected.domain) = false ∧
      ∃ idx, s.unacked.findIdx? (matchesCursor cursor) = some idx ∧
        let freed := flush maxInFlight { s with unacked := s.unacked.drop (idx + 1) } s.buffer
        s.ack maxInFlight cursor =
          if freed.buffer.length < maxBufferSize then freed.resumeCapacity else freed := by
  unfold ack
  by_cases hclosed : s.closed = true
  · rw [if_pos hclosed]
    exact Or.inl ⟨rfl, Or.inl hclosed⟩
  · rw [if_neg hclosed]
    by_cases hdomain : s.unacked.head?.any fun expected => cursor.domain ≠ expected.domain
    · rw [if_pos hdomain]
      exact Or.inl ⟨rfl, Or.inr (Or.inl hdomain)⟩
    · rw [if_neg hdomain]
      cases hidx : s.unacked.findIdx? (matchesCursor cursor) with
      | none =>
        refine Or.inl ⟨rfl, Or.inr (Or.inr ?_)⟩
        simpa [List.findIdx?_eq_none_iff] using hidx
      | some idx =>
        exact Or.inr ⟨by simpa using hclosed, by simpa using hdomain, idx, rfl, rfl⟩

end Calls

/-! ## Runs -/

/-- The invariant behind `Ordered`: the window holds the cursors last sent, and the one promise
that is not resolved waits on a full buffer. -/
structure Kept (maxInFlight : Nat) (pushed : List (SubscriptionMessage α))
    (s : FlowController α) : Prop where
  fifo : s.closed = false → s.sent ++ s.buffer = pushed
  tokens : s.closed = false → s.unacked <:+ s.sent.map (·.cursor)
  idle : s.closed = true → s.unacked = []
  window : s.unacked.length ≤ maxInFlight
  full : s.buffer ≠ [] → s.unacked.length = maxInFlight
  bounded : s.buffer.length ≤ maxBufferSize
  waiting : ∀ wait ∈ s.capacityWait, s.closed = false ∧ s.buffer.length = maxBufferSize
  pending : ∀ promise < s.promises,
    promise ∈ s.resolved ∨ ∃ wait ∈ s.capacityWait, wait.promise = promise

section Runs
variable {maxInFlight : Nat} {s : FlowController α} {messages : List (SubscriptionMessage α)}

theorem Kept.ordered (h : Kept maxInFlight messages s) : Ordered maxInFlight messages s where
  fifo := h.fifo
  window := h.window
  full := h.full
  bounded := h.bounded
  resolved := by
    intro promise hpromise hfree
    refine (h.pending promise hpromise).resolve_right ?_
    rintro ⟨wait, hwait, -⟩
    obtain ⟨hopen, hfull⟩ := h.waiting wait hwait
    cases hfree with
    | inl hroom => omega
    | inr hclosed => simp [hopen] at hclosed

theorem resumeCapacity_resolved (s : FlowController α) {promise : Nat}
    (h : promise ∈ s.resolved ∨ ∃ wait ∈ s.capacityWait, wait.promise = promise) :
    promise ∈ s.resumeCapacity.resolved := by
  unfold resumeCapacity
  cases hwait : s.capacityWait with
  | none =>
    refine h.resolve_right ?_
    rintro ⟨wait, hmem, -⟩
    simp [hwait] at hmem
  | some wait =>
    cases h with
    | inl hresolved => exact List.mem_append_left _ hresolved
    | inr hpending =>
      obtain ⟨wait', hmem, rfl⟩ := hpending
      simp [hwait] at hmem
      simp [hmem]

theorem kept_close (hpending : ∀ promise < s.promises,
      promise ∈ s.resolved ∨ ∃ wait ∈ s.capacityWait, wait.promise = promise) :
    Kept maxInFlight messages s.close where
  fifo := by simp [close]
  tokens := by simp [close]
  idle := by simp [close]
  window := by simp [close]
  full := by simp [close]
  bounded := by simp [close]
  waiting := by simp [close]
  pending := by
    intro promise hpromise
    refine Or.inl (resumeCapacity_resolved _ (hpending promise ?_))
    simpa [close] using hpromise

theorem kept_fail (hpending : ∀ promise < s.promises,
      promise ∈ s.resolved ∨ ∃ wait ∈ s.capacityWait, wait.promise = promise)
    (message : SubscriptionMessage α) (code detail : String) :
    Kept maxInFlight messages (s.fail message code detail) := by
  have hclosed : s.close.closed = true := by simp [close]
  have hclose : Kept maxInFlight messages s.close := kept_close hpending
  exact
    { fifo := fun hopen => by simp [fail, hclosed] at hopen
      tokens := fun hopen => by simp [fail, hclosed] at hopen
      idle := hclose.idle
      window := hclose.window
      full := hclose.full
      bounded := hclose.bounded
      waiting := hclose.waiting
      pending := hclose.pending }

theorem Kept.push (h : Kept maxInFlight messages s) (message : SubscriptionMessage α) :
    Kept maxInFlight (messages ++ [message]) (s.push maxInFlight message) := by
  unfold FlowController.push
  by_cases hclosed : s.closed = true
  · rw [if_pos hclosed]
    exact
      { h with
        fifo := fun hopen => by simp [hclosed] at hopen }
  rw [if_neg hclosed]
  have hopen : s.closed = false := by simpa using hclosed
  by_cases hroom : s.unacked.length < maxInFlight
  · rw [if_pos hroom]
    have hempty : s.buffer = [] := by
      by_contra hbuffer
      have hfull := h.full hbuffer
      omega
    have hfifo := h.fifo hopen
    have htokens := h.tokens hopen
    rw [hempty, List.append_nil] at hfifo
    refine
      { fifo := fun _ => by simp [sendMessage, hempty, hfifo]
        tokens := fun _ => ?_
        idle := fun hclosed => by simp [sendMessage, hopen] at hclosed
        window := by simp only [sendMessage, List.length_append, List.length_singleton]; omega
        full := by simp [sendMessage, hempty]
        bounded := h.bounded
        waiting := h.waiting
        pending := h.pending }
    obtain ⟨before, hbefore⟩ := htokens
    exact ⟨before, by simp [sendMessage, ← hbefore]⟩
  · rw [if_neg hroom]
    have hwindow := h.window
    have hwaiting := h.waiting
    have hfifo : s.sent ++ (s.buffer ++ [message]) = messages ++ [message] := by
      rw [← List.append_assoc, h.fifo hopen]
    simp only [List.length_append, List.length_singleton]
    by_cases hover : maxBufferSize < s.buffer.length + 1
    · rw [if_pos hover]
      exact kept_fail h.pending _ _ _
    · rw [if_neg hover]
      -- The buffer was not full before, so no promise waits on it.
      have hnone : s.capacityWait = none := by
        cases hwait : s.capacityWait with
        | none => rfl
        | some wait =>
          have hfull := (h.waiting wait (by simp [hwait])).2
          omega
      have hresolved : ∀ promise < s.promises, promise ∈ s.resolved := by
        intro promise hpromise
        simpa [hnone] using h.pending promise hpromise
      by_cases hat : s.buffer.length + 1 = maxBufferSize
      · rw [if_pos hat]
        refine
          { fifo := fun _ => hfifo
            tokens := fun _ => h.tokens hopen
            idle := h.idle
            window := hwindow
            full := fun _ => by simp only [waitForCapacity]; omega
            bounded := by simp only [waitForCapacity, List.length_append, List.length_singleton]; omega
            waiting := by simp [waitForCapacity, hopen, hat]
            pending := ?_ }
        intro promise hpromise
        simp only [waitForCapacity] at hpromise ⊢
        cases Nat.lt_succ_iff_lt_or_eq.mp hpromise with
        | inl hlt => exact Or.inl (hresolved promise hlt)
        | inr heq => exact Or.inr ⟨_, rfl, heq.symm⟩
      · rw [if_neg hat]
        exact
          { fifo := fun _ => hfifo
            tokens := h.tokens
            idle := h.idle
            window := hwindow
            full := fun _ => by show s.unacked.length = maxInFlight; omega
            bounded := by simp only [List.length_append, List.length_singleton]; omega
            waiting := by simp [hnone]
            pending := h.pending }

theorem Kept.expire (h : Kept maxInFlight messages s) : Kept maxInFlight messages s.expire := by
  unfold FlowController.expire
  split
  · exact kept_fail h.pending _ _ _
  · exact h

/-- Freeing a part of the window keeps the order: what is flushed follows what was sent. -/
theorem Kept.free (h : Kept maxInFlight messages s) (hopen : s.closed = false) (idx : Nat) :
    let freed := flush maxInFlight { s with unacked := s.unacked.drop (idx + 1) } s.buffer
    Kept maxInFlight messages
      (if freed.buffer.length < maxBufferSize then freed.resumeCapacity else freed) := by
  intro freed
  have hwindow : (s.unacked.drop (idx + 1)).length ≤ maxInFlight :=
    (List.drop_sublist _ _).length_le.trans h.window
  generalize hroom : maxInFlight - (s.unacked.drop (idx + 1)).length = room
  have hfreed : freed = { s with
      sent := s.sent ++ s.buffer.take room
      unacked := s.unacked.drop (idx + 1) ++ (s.buffer.take room).map (·.cursor)
      buffer := s.buffer.drop room } := by
    rw [← hroom]
    exact flush_eq maxInFlight _ _
  have hfifo : (s.sent ++ s.buffer.take room) ++ s.buffer.drop room = messages := by
    rw [List.append_assoc, List.take_append_drop, h.fifo hopen]
  have htokens : s.unacked.drop (idx + 1) ++ (s.buffer.take room).map (·.cursor) <:+
      (s.sent ++ s.buffer.take room).map (·.cursor) := by
    obtain ⟨before, hbefore⟩ := (List.drop_suffix (idx + 1) s.unacked).trans (h.tokens hopen)
    exact ⟨before, by rw [List.map_append, ← hbefore, List.append_assoc]⟩
  have hlength : (s.unacked.drop (idx + 1) ++ (s.buffer.take room).map (·.cursor)).length =
      (s.unacked.drop (idx + 1)).length + min room s.buffer.length := by simp
  have hfull : s.buffer.drop room ≠ [] → (s.unacked.drop (idx + 1) ++
      (s.buffer.take room).map (·.cursor)).length = maxInFlight := by
    intro hne
    have hlt : room < s.buffer.length := by
      by_contra hle
      exact hne (List.drop_eq_nil_of_le (by omega))
    omega
  have hbounded : (s.buffer.drop room).length ≤ maxBufferSize :=
    (List.drop_sublist _ _).length_le.trans h.bounded
  rw [hfreed]
  by_cases hspace : (s.buffer.drop room).length < maxBufferSize
  · rw [if_pos hspace]
    exact
      { fifo := fun _ => by simpa using hfifo
        tokens := fun _ => by simpa using htokens
        idle := fun hclosed => by simp [hopen] at hclosed
        window := by rw [resumeCapacity_unacked, hlength]; omega
        full := by rw [resumeCapacity_buffer, resumeCapacity_unacked]; exact hfull
        bounded := by rw [resumeCapacity_buffer]; exact hbounded
        waiting := by simp
        pending := fun promise hpromise => Or.inl (resumeCapacity_resolved _
          (h.pending promise (by simpa using hpromise))) }
  · rw [if_neg hspace]
    exact
      { fifo := fun _ => hfifo
        tokens := fun _ => htokens
        idle := fun hclosed => by simp [hopen] at hclosed
        window := by rw [hlength]; omega
        full := hfull
        bounded := hbounded
        waiting := fun wait hwait => ⟨hopen, by show (s.buffer.drop room).length = maxBufferSize; omega⟩
        pending := h.pending }

theorem Kept.ack (h : Kept maxInFlight messages s) (cursor : ProgressToken) :
    Kept maxInFlight messages (s.ack maxInFlight cursor) := by
  obtain ⟨heq, -⟩ | ⟨hopen, -, idx, -, heq⟩ := ack_cases maxInFlight s cursor
  · rw [heq]
    exact h
  · rw [heq]
    exact h.free hopen idx

theorem Kept.step (h : Kept maxInFlight messages s) (event : Event α) :
    Kept maxInFlight (messages ++ pushed [event]) (step maxInFlight s event) := by
  cases event with
  | push message => exact h.push message
  | ack cursor => simpa [pushed, FlowController.step] using h.ack cursor
  | close => exact kept_close h.pending
  | expire => simpa [pushed, FlowController.step] using h.expire

theorem kept_initial (maxInFlight : Nat) : Kept maxInFlight [] ({} : FlowController α) where
  fifo := by simp
  tokens := by simp
  idle := by simp
  window := by simp
  full := by simp
  bounded := by simp
  waiting := by simp
  pending := by simp

theorem Kept.run (h : Kept maxInFlight messages s) (events : List (Event α)) :
    Kept maxInFlight (messages ++ pushed events) (run maxInFlight s events) := by
  induction events generalizing messages s with
  | nil => simpa [pushed, FlowController.run] using h
  | cons event events ih =>
    have hrest := ih (h.step event)
    rw [List.append_assoc, pushed, pushed, ← List.filterMap_append] at hrest
    exact hrest

theorem kept_run (maxInFlight : Nat) (events : List (Event α)) :
    Kept maxInFlight (pushed events) (run maxInFlight {} events) :=
  (kept_initial maxInFlight).run events

/-! ## Acknowledgements -/

/-- The cursors sent are the acknowledged ones and then the window. -/
theorem Kept.split (h : Kept maxInFlight messages s) (hopen : s.closed = false) :
    ∃ before, before ++ s.unacked = s.sent.map (·.cursor) ∧ before.length = s.acknowledged := by
  obtain ⟨before, hbefore⟩ := h.tokens hopen
  have hlength := congrArg List.length hbefore
  simp only [List.length_append, List.length_map] at hlength
  exact ⟨before, hbefore, by unfold acknowledged; omega⟩

theorem Kept.sent_of_unacked (h : Kept maxInFlight messages s) (hopen : s.closed = false) {i : Nat}
    {token : ProgressToken} :
    s.unacked[i]? = some token ↔
      ∃ message, s.sent[s.acknowledged + i]? = some message ∧ message.cursor = token := by
  obtain ⟨before, hbefore, hlength⟩ := h.split hopen
  have hplace : s.unacked[i]? = (s.sent.map (·.cursor))[s.acknowledged + i]? := by
    rw [← hbefore, ← hlength, List.getElem?_append_right (Nat.le_add_right _ _),
      Nat.add_sub_cancel_left]
  rw [hplace, List.getElem?_map, Option.map_eq_some_iff]

theorem Kept.acknowledged_free (h : Kept maxInFlight messages s) (hopen : s.closed = false)
    {idx : Nat} (hidx : idx < s.unacked.length) :
    let freed := flush maxInFlight { s with unacked := s.unacked.drop (idx + 1) } s.buffer
    (if freed.buffer.length < maxBufferSize then freed.resumeCapacity else freed).acknowledged =
      s.acknowledged + (idx + 1) := by
  intro freed
  obtain ⟨before, hbefore, -⟩ := h.split hopen
  have hlength := congrArg List.length hbefore
  simp only [List.length_append, List.length_map] at hlength
  have hfreed : freed.acknowledged = s.acknowledged + (idx + 1) := by
    unfold freed
    rw [flush_eq]
    simp only [acknowledged, List.length_append, List.length_map, List.length_take,
      List.length_drop]
    omega
  split
  · rw [← hfreed]
    simp [acknowledged]
  · exact hfreed

/-- Where the first token of the window is of the cursor's stream and epoch, and the window has
the cursor's position, the window has this position in the cursor's stream and epoch. -/
def Meets (s : FlowController α) : Event α → Prop
  | .ack cursor => (∀ expected ∈ s.unacked.head?, cursor.domain = expected.domain) →
      s.unacked.any (matchesCursor cursor) = true → ∃ token ∈ s.unacked, Names cursor token
  | _ => True

instance (s : FlowController α) (event : Event α) : Decidable (s.Meets event) := by
  unfold Meets
  exact match event with
    | .ack cursor => inferInstanceAs (Decidable (_ → _ → _))
    | .push _ => inferInstanceAs (Decidable True)
    | .close => inferInstanceAs (Decidable True)
    | .expire => inferInstanceAs (Decidable True)

/-- An acknowledgement stays within what it names exactly under the condition. -/
theorem Kept.acksNamed_iff (h : Kept maxInFlight messages s) (cursor : ProgressToken) :
    AcksNamed cursor s (s.ack maxInFlight cursor) ↔ s.Meets (.ack cursor) := by
  obtain ⟨heq, hnone⟩ | ⟨hopen, hdomain, idx, hidx, heq⟩ := ack_cases maxInFlight s cursor
  · rw [heq]
    refine iff_of_true (fun k hk hlt => absurd hlt (Nat.not_lt.mpr hk)) fun hhead hany => ?_
    obtain hclosed | hforeign | hno := hnone
    · simp [h.idle hclosed] at hany
    · cases hfirst : s.unacked.head? with
      | none => simp [hfirst] at hforeign
      | some expected => simp [hfirst, hhead expected (by simp [hfirst])] at hforeign
    · simp [hno] at hany
  · rw [heq]
    obtain ⟨hlt, hfirst⟩ := List.findIdx?_eq_some_iff_findIdx_eq.mp hidx
    have hacked := h.acknowledged_free hopen hlt
    constructor
    · intro hnamed hhead hany
      obtain ⟨j, hj, message, hmessage, hnames⟩ := hnamed (s.acknowledged + idx) (by omega) (by
        rw [hacked]
        omega)
      have htoken := (h.sent_of_unacked hopen (i := j - s.acknowledged)).mpr
        ⟨message, by rwa [Nat.add_sub_cancel' (by omega)], rfl⟩
      exact ⟨message.cursor, List.mem_of_getElem? htoken, hnames⟩
    · intro hmeets k hk hbelow
      rw [hacked] at hbelow
      have hmatch : matchesCursor cursor (s.unacked.get ⟨idx, hlt⟩) = true := by
        have hget := @List.findIdx_getElem _ (matchesCursor cursor) s.unacked (by omega)
        simpa [hfirst] using hget
      have hany : s.unacked.any (matchesCursor cursor) = true :=
        List.any_eq_true.mpr ⟨_, List.get_mem _ _, hmatch⟩
      obtain ⟨token, htoken, hnames⟩ := hmeets (by
        intro expected hexpected
        simpa [Option.mem_def.mp hexpected] using hdomain) hany
      obtain ⟨i, hi⟩ := List.mem_iff_getElem?.mp htoken
      -- The search stops at the first match, so the named token stands no earlier.
      have hle : idx ≤ i := by
        by_contra hearlier
        have hbefore : i < s.unacked.findIdx (matchesCursor cursor) := by omega
        have hnot := List.not_of_lt_findIdx hbefore
        obtain ⟨hi', heq⟩ := List.getElem?_eq_some_iff.mp hi
        rw [heq] at hnot
        rw [hnames.2] at hnot
        cases hnot
      obtain ⟨message, hmessage, hcursor⟩ := (h.sent_of_unacked hopen).mp hi
      exact ⟨s.acknowledged + i, by omega, message, hmessage, hcursor ▸ hnames⟩

def MeetsAll (maxInFlight : Nat) (s : FlowController α) : List (Event α) → Prop
  | [] => True
  | event :: events => s.Meets event ∧ MeetsAll maxInFlight (step maxInFlight s event) events

instance decidableMeetsAll (maxInFlight : Nat) (s : FlowController α) :
    (events : List (Event α)) → Decidable (MeetsAll maxInFlight s events)
  | [] => inferInstanceAs (Decidable True)
  | event :: events =>
    have := decidableMeetsAll maxInFlight (step maxInFlight s event) events
    inferInstanceAs (Decidable (_ ∧ _))

theorem meetsAll_iff (maxInFlight : Nat) (s : FlowController α) (events : List (Event α)) :
    MeetsAll maxInFlight s events ↔ ∀ before event after, events = before ++ event :: after →
      (run maxInFlight s before).Meets event := by
  induction events generalizing s with
  | nil => simp [MeetsAll]
  | cons event events ih =>
    rw [MeetsAll, ih]
    constructor
    · rintro ⟨hfirst, hrest⟩ before event' after heq
      cases before with
      | nil =>
        obtain ⟨rfl, -⟩ := List.cons.inj heq
        exact hfirst
      | cons event'' before =>
        obtain ⟨rfl, hevents⟩ := List.cons.inj heq
        exact hrest before event' after hevents
    · intro hall
      exact ⟨hall [] event events rfl, fun before event' after heq =>
        hall (event :: before) event' after (congrArg (event :: ·) heq)⟩

/-- A run is sound exactly if every acknowledgement in it meets the condition. -/
theorem sound_iff (maxInFlight : Nat) (events : List (Event α)) :
    Sound maxInFlight events ↔ MeetsAll maxInFlight {} events := by
  rw [meetsAll_iff]
  have hack : ∀ before cursor, run maxInFlight ({} : FlowController α) (before ++ [.ack cursor]) =
      (run maxInFlight {} before).ack maxInFlight cursor := by
    intro before cursor
    rw [run, List.foldl_append]
    rfl
  constructor
  · intro h before event after heq
    cases event with
    | ack cursor =>
      rw [← (kept_run maxInFlight before).acksNamed_iff, ← hack]
      exact h.acks before cursor after heq
    | push message => trivial
    | close => trivial
    | expire => trivial
  · intro hmeets
    refine ⟨fun before _ => (kept_run maxInFlight before).ordered, ?_⟩
    intro before cursor after heq
    rw [hack, (kept_run maxInFlight before).acksNamed_iff]
    exact hmeets before (.ack cursor) after heq

end Runs

def token (epoch position : String) : ProgressToken := { streamId := "stream", epoch, position }

/-- The first message is acknowledged twice, the second time with two more messages in the window:
the next one, and one of the new epoch at the position of the first. -/
def staleAck : List (Event Unit) :=
  [.push (.event (token "a" "3") ()), .ack (token "a" "3"), .push (.event (token "a" "5") ()),
    .push (.event (token "b" "3") ()), .ack (token "a" "3")]

/-- The second acknowledgement frees both messages, and names neither. -/
theorem not_sound_staleAck : ¬ Sound 2 staleAck := by
  intro h
  have hacks := h.acks (staleAck.take 4) (token "a" "3") [] rfl
  have hmeets := ((kept_run 2 (staleAck.take 4)).acksNamed_iff (token "a" "3")).mp hacks
  revert hmeets
  decide

end FlowController

end EnboxDwn.Server
