import Mathlib.Data.List.Count
import Mathlib.Logic.Function.Basic

/-! The executor of a replication link: coalesced work marks and caller-specific calls, drained
by one owner at a time. The world around it takes the steps that JavaScript may take between two
awaits; a drain call runs on synchronously into the first entry, and only then becomes the
owner. -/
namespace EnboxDwn.SyncLinkExecutor

inductive WorkKind where
  | pull | push | repair | reconcile
  deriving DecidableEq, Repr

/-- Calls and marks are objects, told apart by their number. -/
inductive Entry where
  | call (id : Nat)
  | mark (id : Nat) (kind : WorkKind)
  deriving DecidableEq, Repr

/-- How the promise of a call is settled; a fenced call resolves without a value. -/
inductive Settlement (α ε : Type) where
  | resolved (value : Option α)
  | rejected (reason : ε)
  deriving DecidableEq, Repr

/-! ## The executor -/

structure Executor where
  active : Bool := true
  activeWorkKind : Option WorkKind := none
  drain : Option Nat := none
  entries : List Entry := []
  pendingMarks : WorkKind → Option Nat := fun _ => none
  ready : Bool := false

def Entry.isCall : Entry → Bool
  | .call _ => true
  | .mark _ _ => false

def Entry.isRepair : Entry → Bool
  | .call _ => false
  | .mark _ kind => kind = .repair

/-- Whether a ready executor may take the entry. -/
def Entry.isTakeable (isEligible : WorkKind → Bool) : Entry → Bool
  | .call _ => true
  | .mark _ kind => isEligible kind

namespace Executor

def isReady (x : Executor) : Bool := x.active && x.ready

def request (kind : WorkKind) (id : Nat) (x : Executor) : Executor :=
  if !x.active || (x.pendingMarks kind).isSome then x
  else { x with pendingMarks := Function.update x.pendingMarks kind (some id)
                entries := x.entries ++ [.mark id kind] }

def consumePending (kind : WorkKind) (x : Executor) : Executor :=
  match x.pendingMarks kind with
  | none => x
  | some id => { x with entries := x.entries.erase (.mark id kind)
                        pendingMarks := Function.update x.pendingMarks kind none }

def markReady (x : Executor) : Executor := if x.active then { x with ready := true } else x

/-- The calls that `resolveQueuedCallsUndefined` resolves, last first. -/
def queuedCalls (x : Executor) : List Nat :=
  (x.entries.filterMap fun
    | .call id => some id
    | .mark _ _ => none).reverse

def withoutCalls (x : Executor) : Executor :=
  { x with entries := x.entries.filter fun entry => !entry.isCall }

def reset (x : Executor) : Executor :=
  if x.active then { x with ready := false }.withoutCalls else x

def dispose (x : Executor) : Executor :=
  if x.active then
    { x with active := false, ready := false, pendingMarks := fun _ => none, entries := [] }
  else x

/-- Repair comes first, ready or not; everything else keeps its order of arrival. -/
def nextIndex (isEligible : WorkKind → Bool) (x : Executor) : Option Nat :=
  match x.entries.findIdx? Entry.isRepair with
  | some index => some index
  | none => if x.ready then x.entries.findIdx? (Entry.isTakeable isEligible) else none

def forget (entry : Entry) (pendingMarks : WorkKind → Option Nat) : WorkKind → Option Nat :=
  match entry with
  | .call _ => pendingMarks
  | .mark id kind =>
    if pendingMarks kind = some id then Function.update pendingMarks kind none else pendingMarks

def takeNextEligibleEntry (isEligible : WorkKind → Bool) (x : Executor) :
    Option (Entry × Executor) := do
  let index ← x.nextIndex isEligible
  let entry ← x.entries[index]?
  return (entry, { x with entries := x.entries.eraseIdx index
                          pendingMarks := forget entry x.pendingMarks })

/-- The synchronous part of executing an entry. -/
def enter (entry : Entry) (x : Executor) : Executor :=
  match entry with
  | .call _ => x
  | .mark _ kind => { x with activeWorkKind := some kind }

end Executor

/-! ## Drains -/

inductive Phase where
  | executing (entry : Entry)
  | between
  | exited
  deriving DecidableEq, Repr

/-- A run of `drainOwned`. It has returned when the `drain` call that began it has made it the
owner; `waiting` counts the calls that joined it. -/
structure Drain (ε : Type) where
  phase : Phase
  returned : Bool := false
  released : Bool := false
  waiting : Nat := 0
  workFailure : Option ε := none

/-- `started` lists the entries taken so far, `settlements` every call of a `resolve` or
`reject`. -/
structure World (α ε : Type) where
  executor : Executor := {}
  drains : List (Drain ε) := []
  calls : Nat := 0
  marks : Nat := 0
  started : List Entry := []
  settlements : List (Nat × Settlement α ε) := []

inductive Action (α ε : Type) where
  | request (kind : WorkKind)
  | enqueue
  | consumePending (kind : WorkKind)
  | markReady
  | reset
  | dispose
  | drain (isEligible : WorkKind → Bool)
  /-- The `drain` call that began the drain makes it the owner and returns. -/
  | own (d : Nat)
  /-- The handler or the operation settles. -/
  | finish (d : Nat) (result : Except ε α)
  /-- The loop goes on behind a settled entry. -/
  | next (d : Nat) (isEligible : WorkKind → Bool)
  | release (d : Nat)
  /-- A call that joined the drain calls `drain` again. -/
  | rejoin (d : Nat) (isEligible : WorkKind → Bool)

variable {α ε : Type}

def settlementOf (isReady : Bool) : Except ε α → Settlement α ε
  | .ok value => .resolved (if isReady then some value else none)
  | .error reason => if isReady then .rejected reason else .resolved none

namespace World

def enqueue (w : World α ε) : World α ε :=
  if w.executor.isReady then
    { w with executor := { w.executor with entries := w.executor.entries ++ [.call w.calls] }
             calls := w.calls + 1 }
  else { w with calls := w.calls + 1, settlements := w.settlements ++ [(w.calls, .resolved none)] }

def fence (change : Executor → Executor) (w : World α ε) : World α ε :=
  if w.executor.active then
    { w with executor := change w.executor
             settlements := w.settlements ++
               w.executor.queuedCalls.map fun id => (id, .resolved none) }
  else w

/-- One turn of the loop of a drain that is at the head of it. -/
def turn (isEligible : WorkKind → Bool) (drain : Drain ε) (w : World α ε) : Drain ε × World α ε :=
  match w.executor.takeNextEligibleEntry isEligible with
  | none => ({ drain with phase := .exited }, w)
  | some (entry, x) =>
    ({ drain with phase := .executing entry },
      { w with executor := x.enter entry, started := w.started ++ [entry] })

def drainOwned (isEligible : WorkKind → Bool) (w : World α ε) : World α ε :=
  let (drain, w) := w.turn isEligible { phase := .between }
  { w with drains := w.drains ++ [drain] }

def drain (isEligible : WorkKind → Bool) (w : World α ε) : World α ε :=
  if !w.executor.active then w
  else match w.executor.drain with
    | some d =>
      match w.drains[d]? with
      | none => w
      | some x => { w with drains := w.drains.set d { x with waiting := x.waiting + 1 } }
    | none => w.drainOwned isEligible

def own (d : Nat) (w : World α ε) : World α ε :=
  match w.drains[d]? with
  | none => w
  | some x =>
    if x.returned then w
    else { w with executor := { w.executor with drain := some d }
                  drains := w.drains.set d { x with returned := true } }

def finish (d : Nat) (result : Except ε α) (w : World α ε) : World α ε :=
  match w.drains[d]? with
  | none => w
  | some x =>
    match x.phase with
    | .executing (.mark _ _) =>
      let entryFailure : Option ε := match result with
        | .ok _ => none
        | .error reason => some reason
      { w with executor := { w.executor with activeWorkKind := none }
               drains := w.drains.set d
                 { x with phase := .between, workFailure := x.workFailure <|> entryFailure } }
    | .executing (.call id) =>
      { w with drains := w.drains.set d { x with phase := .between }
               settlements := w.settlements ++ [(id, settlementOf w.executor.isReady result)] }
    | .between | .exited => w

def next (d : Nat) (isEligible : WorkKind → Bool) (w : World α ε) : World α ε :=
  match w.drains[d]? with
  | none => w
  | some x =>
    if x.phase = .between then
      if w.executor.active then
        let (x, w) := w.turn isEligible x
        { w with drains := w.drains.set d x }
      else { w with drains := w.drains.set d { x with phase := .exited } }
    else w

def release (d : Nat) (w : World α ε) : World α ε :=
  match w.drains[d]? with
  | none => w
  | some x =>
    if x.phase = .exited ∧ x.returned = true ∧ x.released = false then
      { w with executor := { w.executor with
                 drain := if w.executor.drain = some d then none else w.executor.drain }
               drains := w.drains.set d { x with released := true } }
    else w

def rejoin (d : Nat) (isEligible : WorkKind → Bool) (w : World α ε) : World α ε :=
  match w.drains[d]? with
  | none => w
  | some x =>
    if x.released = true ∧ 0 < x.waiting then
      { w with drains := w.drains.set d { x with waiting := x.waiting - 1 } }.drain isEligible
    else w

def step (w : World α ε) : Action α ε → World α ε
  | .request kind =>
    { w with executor := w.executor.request kind w.marks, marks := w.marks + 1 }
  | .enqueue => w.enqueue
  | .consumePending kind => { w with executor := w.executor.consumePending kind }
  | .markReady => { w with executor := w.executor.markReady }
  | .reset => w.fence Executor.reset
  | .dispose => w.fence Executor.dispose
  | .drain isEligible => w.drain isEligible
  | .own d => w.own d
  | .finish d result => w.finish d result
  | .next d isEligible => w.next d isEligible
  | .release d => w.release d
  | .rejoin d isEligible => w.rejoin d isEligible

def run (w : World α ε) (actions : List (Action α ε)) : World α ε := actions.foldl step w

end World

/-! ## Taking entries -/

namespace Executor
variable {x x' : Executor} {isEligible : WorkKind → Bool} {entry : Entry}

theorem nextIndex_eq_some {index : Nat} (h : x.nextIndex isEligible = some index) :
    ∃ entry, x.entries[index]? = some entry ∧ (entry.isRepair = true ∨
      (∀ e ∈ x.entries, e.isRepair = false) ∧ x.ready = true ∧
        entry.isTakeable isEligible = true) := by
  unfold nextIndex at h
  split at h
  · next i hrepair =>
    cases h
    obtain ⟨hlt, hp, -⟩ := List.findIdx?_eq_some_iff_getElem.mp hrepair
    exact ⟨_, List.getElem?_eq_getElem hlt, Or.inl hp⟩
  · next hnone =>
    rw [List.findIdx?_eq_none_iff] at hnone
    split at h
    · next hready =>
      obtain ⟨hlt, hp, -⟩ := List.findIdx?_eq_some_iff_getElem.mp h
      exact ⟨_, List.getElem?_eq_getElem hlt, Or.inr ⟨by simpa using hnone, hready, hp⟩⟩
    · cases h

theorem take_eq_some (h : x.takeNextEligibleEntry isEligible = some (entry, x')) :
    ∃ l r, x.entries = l ++ entry :: r ∧
      x' = { x with entries := l ++ r, pendingMarks := forget entry x.pendingMarks } ∧
      (entry.isRepair = true ∨ (∀ e ∈ x.entries, e.isRepair = false) ∧ x.ready = true ∧
        entry.isTakeable isEligible = true) := by
  obtain ⟨index, hindex, h⟩ := Option.bind_eq_some_iff.mp h
  obtain ⟨e, he, hkind⟩ := nextIndex_eq_some hindex
  rw [he] at h
  cases h
  obtain ⟨hlt, heq⟩ := List.getElem?_eq_some_iff.mp he
  refine ⟨x.entries.take index, x.entries.drop (index + 1), ?_, ?_, hkind⟩
  · rw [← heq, List.getElem_cons_drop, List.take_append_drop]
  · rw [List.eraseIdx_eq_take_drop_succ]

/-- A loop stops only when neither a repair nor an eligible entry is left. -/
theorem take_eq_none (h : x.takeNextEligibleEntry isEligible = none) :
    (∀ e ∈ x.entries, e.isRepair = false) ∧
      (x.ready = true → ∀ e ∈ x.entries, e.isTakeable isEligible = false) := by
  have hindex : x.nextIndex isEligible = none := by
    by_contra hne
    obtain ⟨index, hindex⟩ := Option.ne_none_iff_exists'.mp hne
    obtain ⟨e, he, -⟩ := nextIndex_eq_some hindex
    simp [takeNextEligibleEntry, hindex, he] at h
  unfold nextIndex at hindex
  split at hindex
  · cases hindex
  · next hnone =>
    rw [List.findIdx?_eq_none_iff] at hnone
    refine ⟨by simpa using hnone, fun hready => ?_⟩
    rw [if_pos hready, List.findIdx?_eq_none_iff] at hindex
    simpa using hindex

/-! ## Pending marks -/

/-- A mark is queued, once, exactly while it is pending. -/
def Marked (x : Executor) : Prop :=
  ∀ id kind, x.entries.count (.mark id kind) = (x.pendingMarks kind).toList.count id

theorem Marked.mem (h : x.Marked) {id : Nat} {kind : WorkKind} :
    .mark id kind ∈ x.entries ↔ x.pendingMarks kind = some id := by
  rw [← List.count_pos_iff, h id kind, List.count_pos_iff, Option.mem_toList]

theorem Marked.request (h : x.Marked) (kind : WorkKind) (id : Nat) : (x.request kind id).Marked := by
  unfold Executor.request
  split
  · exact h
  · next hnew =>
    simp only [Bool.or_eq_true, not_or, Bool.not_eq_true, Option.isSome_eq_false_iff,
      Option.isNone_iff_eq_none] at hnew
    intro id' kind'
    have hcount := h id' kind'
    dsimp only
    rw [List.count_append, hcount]
    by_cases hkind : kind' = kind
    · subst hkind
      rw [hnew.2, Function.update_self]
      simp [List.count_singleton]
    · rw [Function.update_of_ne hkind]
      simp [Ne.symm hkind]

theorem Marked.consumePending (h : x.Marked) (kind : WorkKind) : (x.consumePending kind).Marked := by
  unfold Executor.consumePending
  split
  · exact h
  · next id hid =>
    intro id' kind'
    have hcount := h id' kind'
    dsimp only
    rw [List.count_erase, hcount]
    by_cases hkind : kind' = kind
    · subst hkind
      rw [hid, Function.update_self]
      simp [List.count_singleton]
    · rw [Function.update_of_ne hkind]
      simp [Ne.symm hkind]

theorem Marked.withoutCalls (h : x.Marked) : x.withoutCalls.Marked := by
  intro id kind
  exact (List.count_filter rfl).trans (h id kind)

theorem Marked.reset (h : x.Marked) : x.reset.Marked := by
  unfold Executor.reset
  split
  · exact Marked.withoutCalls h
  · exact h

theorem Marked.dispose (h : x.Marked) : x.dispose.Marked := by
  unfold Executor.dispose
  split
  · intro id kind
    simp
  · exact h

theorem Marked.take (h : x.Marked) (htake : x.takeNextEligibleEntry isEligible = some (entry, x')) :
    x'.Marked := by
  obtain ⟨l, r, hentries, rfl, -⟩ := take_eq_some htake
  intro id kind
  have hcount := h id kind
  rw [hentries, List.count_append, List.count_cons] at hcount
  dsimp only
  rw [List.count_append]
  cases entry with
  | call c =>
    rw [if_neg (by simp), Nat.add_zero] at hcount
    exact hcount
  | mark c taken =>
    -- the entry taken is the pending mark of its kind
    have hpending : x.pendingMarks taken = some c := h.mem.mp (by simp [hentries])
    unfold forget
    dsimp only
    rw [if_pos hpending]
    by_cases hkind : kind = taken
    · subst hkind
      rw [hpending] at hcount
      rw [Function.update_self]
      simp only [Option.toList_some, List.count_singleton, beq_iff_eq, Entry.mark.injEq,
        and_true] at hcount
      simp only [Option.toList_none, List.count_nil]
      omega
    · rw [Function.update_of_ne hkind]
      simpa [Ne.symm hkind] using hcount

end Executor

/-! ## One turn of a drain -/

namespace World
variable {w : World α ε} {isEligible : WorkKind → Bool}

theorem turn_cases (isEligible : WorkKind → Bool) (drain : Drain ε) (w : World α ε) :
    (w.executor.takeNextEligibleEntry isEligible = none ∧
      w.turn isEligible drain = ({ drain with phase := .exited }, w)) ∨
    ∃ entry x, w.executor.takeNextEligibleEntry isEligible = some (entry, x) ∧
      w.turn isEligible drain = ({ drain with phase := .executing entry },
        { w with executor := x.enter entry, started := w.started ++ [entry] }) := by
  unfold turn
  cases htake : w.executor.takeNextEligibleEntry isEligible with
  | none => exact Or.inl ⟨rfl, rfl⟩
  | some taken => exact Or.inr ⟨taken.1, taken.2, rfl, rfl⟩

theorem marked_turn (h : w.executor.Marked) (drain : Drain ε) :
    (w.turn isEligible drain).2.executor.Marked := by
  obtain ⟨-, heq⟩ | ⟨entry, x, htake, heq⟩ := turn_cases isEligible drain w
  · rw [heq]
    exact h
  · rw [heq]
    have hx := h.take htake
    cases entry <;> exact hx

theorem marked_drain (h : w.executor.Marked) : (w.drain isEligible).executor.Marked := by
  unfold World.drain
  split
  · exact h
  · split
    · split <;> exact h
    · exact marked_turn h _

theorem marked_fence {change : Executor → Executor} (h : w.executor.Marked)
    (hchange : (change w.executor).Marked) : (w.fence change).executor.Marked := by
  unfold fence
  split
  · exact hchange
  · exact h

theorem marked_step (h : w.executor.Marked) (action : Action α ε) :
    (w.step action).executor.Marked := by
  cases action with
  | request kind => exact h.request kind _
  | enqueue =>
    simp only [step, World.enqueue]
    split
    · intro id kind
      have hcount := h id kind
      simpa using hcount
    · exact h
  | consumePending kind => exact h.consumePending kind
  | markReady =>
    simp only [step, Executor.markReady]
    split <;> exact h
  | reset => exact marked_fence h h.reset
  | dispose => exact marked_fence h h.dispose
  | drain isEligible => exact marked_drain h
  | own d =>
    simp only [step, World.own]
    split
    · exact h
    · split <;> exact h
  | finish d result =>
    simp only [step, World.finish]
    split
    · exact h
    · split <;> exact h
  | next d isEligible =>
    simp only [step, World.next]
    split
    · exact h
    · split
      · split
        · exact marked_turn h _
        · exact h
      · exact h
  | release d =>
    simp only [step, World.release]
    split
    · exact h
    · split <;> exact h
  | rejoin d isEligible =>
    simp only [step, World.rejoin]
    split
    · exact h
    · split
      · exact marked_drain h
      · exact h

end World

/-! ## Promises -/

theorem countP_set {β : Type} {l : List β} {i : Nat} {x : β} (h : l[i]? = some x) (p : β → Bool)
    (y : β) : (l.set i y).countP p + (if p x then 1 else 0) = l.countP p + if p y then 1 else 0 := by
  obtain ⟨hlt, rfl⟩ := List.getElem?_eq_some_iff.mp h
  rw [List.countP_set hlt]
  by_cases hp : p l[i] = true
  · have := List.countP_pos_iff.mpr ⟨l[i], List.getElem_mem hlt, hp⟩
    simp only [hp, if_true]
    omega
  · simp [hp]

def Drain.executes (id : Nat) (drain : Drain ε) : Bool := drain.phase = .executing (.call id)

theorem Executor.count_queuedCalls (x : Executor) (id : Nat) :
    x.queuedCalls.count id = x.entries.count (.call id) := by
  unfold queuedCalls
  rw [List.count_reverse]
  induction x.entries with
  | nil => rfl
  | cons entry entries ih =>
    cases entry with
    | call c => simp [List.count_cons, ih]
    | mark c kind => simp [ih]

namespace World
variable {w : World α ε} {isEligible : WorkKind → Bool}

/-- Every call so far is queued, under way or settled, and only one of these, once. -/
def Accounted (w : World α ε) : Prop :=
  ∀ id, w.executor.entries.count (.call id) + w.drains.countP (Drain.executes id) +
    (w.settlements.map Prod.fst).count id = (List.range w.calls).count id

theorem accounted_fence {change : Executor → Executor} (h : w.Accounted)
    (hchange : ∀ id, w.executor.active = true → (change w.executor).entries.count (.call id) = 0) :
    (w.fence change).Accounted := by
  unfold fence
  split
  · next hactive =>
    intro id
    have hid := h id
    have hqueued := w.executor.count_queuedCalls id
    simp only [List.map_append, List.map_map, Function.comp_def, List.map_id', List.count_append]
    rw [hchange id hactive, hqueued]
    omega
  · exact h

theorem accounted_turn (h : w.Accounted) (isEligible : WorkKind → Bool) (drain : Drain ε) (id : Nat) :
    (w.turn isEligible drain).2.executor.entries.count (.call id) +
      (w.drains.countP (Drain.executes id) +
        if (w.turn isEligible drain).1.executes id then 1 else 0) +
      (w.settlements.map Prod.fst).count id = (List.range w.calls).count id := by
  have hid := h id
  obtain ⟨-, heq⟩ | ⟨entry, x, htake, heq⟩ := turn_cases isEligible drain w
  · rw [heq]
    simpa [Drain.executes] using hid
  · rw [heq]
    obtain ⟨l, r, hentries, rfl, -⟩ := Executor.take_eq_some htake
    rw [hentries, List.count_append, List.count_cons] at hid
    cases entry with
    | call c =>
      simp only [Executor.enter, List.count_append, Drain.executes, Phase.executing.injEq,
        Entry.call.injEq, decide_eq_true_eq]
      simp only [beq_iff_eq, Entry.call.injEq] at hid
      omega
    | mark c kind =>
      simp only [Executor.enter, List.count_append, Drain.executes, Phase.executing.injEq,
        reduceCtorEq, decide_false, Bool.false_eq_true, if_false]
      simp only [beq_iff_eq, reduceCtorEq, if_false] at hid
      omega

theorem turn_frame (w : World α ε) (isEligible : WorkKind → Bool) (drain : Drain ε) :
    (w.turn isEligible drain).2.drains = w.drains ∧
    (w.turn isEligible drain).2.calls = w.calls ∧
    (w.turn isEligible drain).2.settlements = w.settlements := by
  obtain ⟨-, heq⟩ | ⟨entry, x, -, heq⟩ := turn_cases isEligible drain w
  · rw [heq]
    exact ⟨rfl, rfl, rfl⟩
  · rw [heq]
    exact ⟨rfl, rfl, rfl⟩

theorem accounted_set {d : Nat} {x y : Drain ε} (h : w.Accounted) (hd : w.drains[d]? = some x)
    (hphase : y.phase = x.phase) : World.Accounted { w with drains := w.drains.set d y } := by
  intro id
  have hcount := countP_set hd (Drain.executes id) y
  have hsame : y.executes id = x.executes id := by rw [Drain.executes, hphase, Drain.executes]
  rw [hsame] at hcount
  have hid := h id
  dsimp only
  omega

theorem accounted_drain (h : w.Accounted) : (w.drain isEligible).Accounted := by
  unfold World.drain
  split
  · exact h
  · split
    · split
      · exact h
      · next hd => exact accounted_set h hd rfl
    · intro id
      obtain ⟨hdrains, hcalls, hsettlements⟩ :=
        w.turn_frame isEligible { phase := .between }
      have hturn := accounted_turn h isEligible { phase := .between } id
      simp only [drainOwned, hdrains, hcalls, hsettlements, List.countP_append, List.countP_singleton]
      exact hturn

theorem accounted_finish (h : w.Accounted) (d : Nat) (result : Except ε α) :
    (w.finish d result).Accounted := by
  unfold World.finish
  split
  · exact h
  · next x hd =>
    split
    · next c kind hphase =>
      intro id
      have hid := h id
      have hcount := countP_set hd (Drain.executes id) { x with
        phase := .between
        workFailure := x.workFailure <|> match result with
          | .ok _ => none
          | .error reason => some reason }
      simp only [Drain.executes, hphase, Phase.executing.injEq, reduceCtorEq, decide_false,
        Bool.false_eq_true, if_false, Nat.add_zero] at hcount
      dsimp only
      omega
    · next c hphase =>
      intro id
      have hid := h id
      have hcount := countP_set hd (Drain.executes id) { x with phase := .between }
      simp only [Drain.executes, hphase, Phase.executing.injEq, Entry.call.injEq, reduceCtorEq,
        decide_false, decide_eq_true_eq, Bool.false_eq_true, if_false, Nat.add_zero] at hcount
      simp only [List.map_append, List.map_cons, List.map_nil, List.count_append,
        List.count_singleton, beq_iff_eq]
      omega
    · exact h
    · exact h

theorem accounted_next (h : w.Accounted) (d : Nat) : (w.next d isEligible).Accounted := by
  unfold World.next
  split
  · exact h
  · next x hd =>
    split
    · next hphase =>
      split
      · intro id
        obtain ⟨hdrains, hcalls, hsettlements⟩ := w.turn_frame isEligible x
        have hturn := accounted_turn h isEligible x id
        have hcount := countP_set hd (Drain.executes id) (w.turn isEligible x).1
        have hidle : x.executes id = false := by simp [Drain.executes, hphase]
        rw [hidle] at hcount
        simp only [hdrains, hcalls, hsettlements]
        simp only [Bool.false_eq_true, if_false, Nat.add_zero] at hcount
        rw [hcount]
        exact hturn
      · intro id
        have hid := h id
        have hcount := countP_set hd (Drain.executes id) { x with phase := .exited }
        simp only [Drain.executes, hphase, reduceCtorEq, decide_false, Bool.false_eq_true, if_false,
          Nat.add_zero] at hcount
        dsimp only
        omega
    · exact h

theorem accounted_step (h : w.Accounted) (action : Action α ε) : (w.step action).Accounted := by
  cases action with
  | request kind =>
    intro id
    have hid := h id
    simp only [step, Executor.request]
    split
    · exact hid
    · simpa using hid
  | enqueue =>
    intro id
    have hid := h id
    simp only [step, World.enqueue]
    split
    · simp only [List.count_append, List.count_singleton, beq_iff_eq, Entry.call.injEq,
        List.range_succ]
      omega
    · simp only [List.map_append, List.map_cons, List.map_nil, List.count_append,
        List.count_singleton, beq_iff_eq, List.range_succ]
      omega
  | consumePending kind =>
    intro id
    have hid := h id
    simp only [step, Executor.consumePending]
    split
    · exact hid
    · simpa [List.count_erase] using hid
  | markReady =>
    simp only [step, Executor.markReady]
    split <;> exact h
  | reset =>
    refine accounted_fence h fun id hactive => ?_
    rw [Executor.reset, if_pos hactive, List.count_eq_zero]
    simp [Executor.withoutCalls, Entry.isCall]
  | dispose =>
    refine accounted_fence h fun id hactive => ?_
    simp [Executor.dispose, hactive]
  | drain isEligible => exact accounted_drain h
  | own d =>
    simp only [step, World.own]
    split
    · exact h
    · next x hd =>
      split
      · exact h
      · exact accounted_set h hd rfl
  | finish d result => exact accounted_finish h d result
  | next d isEligible => exact accounted_next h d
  | release d =>
    simp only [step, World.release]
    split
    · exact h
    · next x hd =>
      split
      · exact accounted_set h hd rfl
      · exact h
  | rejoin d isEligible =>
    simp only [step, World.rejoin]
    split
    · exact h
    · next x hd =>
      split
      · exact accounted_drain (accounted_set h hd rfl)
      · exact h

end World

end EnboxDwn.SyncLinkExecutor
