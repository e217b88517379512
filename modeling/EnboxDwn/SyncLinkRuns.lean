import EnboxDwn.SyncLinkExecutor
import Mathlib.Data.List.Nodup

/-! Runs of the link executor. One drain is live at a time as long as no `drain` call is made
from inside another one; marks stay until they are taken, and every call is settled once. -/
namespace EnboxDwn.SyncLinkExecutor
variable {α ε : Type}

/-! ## Owners -/

def Drain.live (x : Drain ε) : Bool := x.phase ≠ .exited

namespace World
variable {w w' : World α ε} {isEligible : WorkKind → Bool} {d : Nat} {x y : Drain ε}

/-- A live drain is the owner once its call has returned, and nothing runs beside it before. -/
structure Serial (w : World α ε) : Prop where
  owner : ∀ (d : Nat) (x : Drain ε), w.drains[d]? = some x → x.live = true → x.returned = true →
    w.executor.drain = some d
  alone : ∀ (d : Nat) (x : Drain ε), w.drains[d]? = some x → x.returned = false →
    ∀ (d' : Nat) (x' : Drain ε), w.drains[d']? = some x' → d' ≠ d → x'.live = false

theorem Serial.unique (h : w.Serial) {d' : Nat} {x' : Drain ε} (hd : w.drains[d]? = some x)
    (hd' : w.drains[d']? = some x') (hlive : x.live = true) (hlive' : x'.live = true) : d = d' := by
  by_contra hne
  by_cases hx : x.returned = true
  · by_cases hx' : x'.returned = true
    · have howner := h.owner d x hd hlive hx
      rw [h.owner d' x' hd' hlive' hx', Option.some.injEq] at howner
      exact hne howner.symm
    · rw [h.alone d' x' hd' (by simpa using hx') d x hd hne] at hlive
      cases hlive
  · rw [h.alone d x hd (by simpa using hx) d' x' hd' (Ne.symm hne)] at hlive'
    cases hlive'

/-- A change of one drain that neither revives it nor makes it return. -/
theorem Serial.set (h : w.Serial) (hd : w.drains[d]? = some x) (hlive : y.live = true → x.live = true)
    (hreturned : y.returned = x.returned) (hdrains : w'.drains = w.drains.set d y)
    (hdrain : w'.executor.drain = w.executor.drain) : w'.Serial := by
  have hget : ∀ (d' : Nat) (x' : Drain ε), w'.drains[d']? = some x' → ∃ x₀ : Drain ε,
      w.drains[d']? = some x₀ ∧
      (x'.live = true → x₀.live = true) ∧ x'.returned = x₀.returned := by
    intro d' x' hx'
    rw [hdrains, List.getElem?_set] at hx'
    split at hx'
    · next heq =>
      subst heq
      split at hx'
      · cases hx'
        exact ⟨x, hd, hlive, hreturned⟩
      · cases hx'
    · exact ⟨x', hx', id, rfl⟩
  refine ⟨fun d' x' hx' hl hr => ?_, fun d' x' hx' hr d'' x'' hx'' hne => ?_⟩
  · obtain ⟨x₀, hx₀, hl₀, hr₀⟩ := hget d' x' hx'
    rw [hdrain]
    exact h.owner d' x₀ hx₀ (hl₀ hl) (hr₀ ▸ hr)
  · obtain ⟨x₀, hx₀, -, hr₀⟩ := hget d' x' hx'
    obtain ⟨x₁, hx₁, hl₁, -⟩ := hget d'' x'' hx''
    have hdead := h.alone d' x₀ hx₀ (hr₀ ▸ hr) d'' x₁ hx₁ hne
    by_contra hl
    rw [hl₁ (by simpa using hl)] at hdead
    cases hdead

theorem Serial.frame (h : w.Serial) (hdrains : w'.drains = w.drains)
    (hdrain : w'.executor.drain = w.executor.drain) : w'.Serial := by
  refine ⟨fun d x hx => ?_, fun d x hx => ?_⟩
  · rw [hdrains] at hx
    rw [hdrain]
    exact h.owner d x hx
  · rw [hdrains] at hx ⊢
    exact h.alone d x hx

theorem turn_drain (w : World α ε) (isEligible : WorkKind → Bool) (drain : Drain ε) :
    (w.turn isEligible drain).2.executor.drain = w.executor.drain := by
  obtain ⟨-, heq⟩ | ⟨entry, x, htake, heq⟩ := turn_cases isEligible drain w
  · rw [heq]
  · rw [heq]
    obtain ⟨l, r, -, rfl, -⟩ := Executor.take_eq_some htake
    cases entry <;> rfl

theorem turn_returned (w : World α ε) (isEligible : WorkKind → Bool) (drain : Drain ε) :
    (w.turn isEligible drain).1.returned = drain.returned := by
  obtain ⟨-, heq⟩ | ⟨entry, x, -, heq⟩ := turn_cases isEligible drain w <;> rw [heq]

/-- The `drain` calls that began drains have all returned. -/
def Returned (w : World α ε) : Prop := ∀ x ∈ w.drains, x.returned = true

instance (w : World α ε) : Decidable w.Returned :=
  inferInstanceAs (Decidable (∀ x ∈ w.drains, x.returned = true))

theorem serial_drain (h : w.Serial) (hreturned : w.Returned) : (w.drain isEligible).Serial := by
  unfold World.drain
  split
  · exact h
  · split
    · split
      · exact h
      · next hd =>
        refine h.set hd ?_ ?_ rfl rfl
        · exact id
        · rfl
    · next hnone =>
      have hdead : ∀ (d : Nat) (x : Drain ε), w.drains[d]? = some x → x.live = false := by
        intro d x hx
        by_contra hl
        have howner := h.owner d x hx (by simpa using hl) (hreturned x (List.mem_of_getElem? hx))
        rw [hnone] at howner
        cases howner
      have hnew : ∀ (d : Nat) (x : Drain ε), (w.drainOwned isEligible).drains[d]? = some x →
          x.live = false ∨ d = w.drains.length ∧ x.returned = false := by
        intro d x hx
        simp only [drainOwned, (w.turn_frame isEligible { phase := .between }).1] at hx
        by_cases hlt : d < w.drains.length
        · rw [List.getElem?_append_left hlt] at hx
          exact Or.inl (hdead d x hx)
        · rw [List.getElem?_append_right (by omega), List.getElem?_singleton] at hx
          split at hx
          · cases hx
            exact Or.inr ⟨by omega, turn_returned w isEligible _⟩
          · cases hx
      refine ⟨fun d x hx hl hr => ?_, fun d x hx hr d' x' hx' hne => ?_⟩
      · obtain hdead | ⟨-, hr'⟩ := hnew d x hx
        · rw [hdead] at hl
          cases hl
        · rw [hr'] at hr
          cases hr
      · obtain hdead | ⟨heq, -⟩ := hnew d' x' hx'
        · exact hdead
        · have hlt : d < w.drains.length := by
            obtain ⟨hlt, -⟩ := List.getElem?_eq_some_iff.mp hx
            simp only [drainOwned, (w.turn_frame isEligible { phase := .between }).1,
              List.length_append, List.length_singleton] at hlt
            omega
          have hx₀ : w.drains[d]? = some x := by
            simp only [drainOwned, (w.turn_frame isEligible { phase := .between }).1,
              List.getElem?_append_left hlt] at hx
            exact hx
          rw [hreturned x (List.mem_of_getElem? hx₀)] at hr
          cases hr

theorem serial_own (h : w.Serial) (d : Nat) : (w.own d).Serial := by
  unfold World.own
  split
  · exact h
  · next x hd =>
    split
    · exact h
    · next hx =>
      have hothers := h.alone d x hd (by simpa using hx)
      have hget : ∀ (d' : Nat) (x' : Drain ε),
          (w.drains.set d { x with returned := true })[d']? = some x' →
          d' = d ∧ x' = { x with returned := true } ∨ d' ≠ d ∧ w.drains[d']? = some x' := by
        intro d' x' hx'
        rw [List.getElem?_set] at hx'
        split at hx'
        · next heq =>
          split at hx'
          · cases hx'
            exact Or.inl ⟨heq.symm, rfl⟩
          · cases hx'
        · next hne => exact Or.inr ⟨Ne.symm hne, hx'⟩
      refine ⟨fun d' x' hx' hl hr => ?_, fun d' x' hx' hr d'' x'' hx'' hne => ?_⟩
      · obtain ⟨rfl, -⟩ | ⟨hne, hx'⟩ := hget d' x' hx'
        · rfl
        · rw [hothers d' x' hx' hne] at hl
          cases hl
      · obtain ⟨-, rfl⟩ | ⟨-, hold⟩ := hget d' x' hx'
        · cases hr
        · obtain ⟨rfl, rfl⟩ | ⟨hne', hold'⟩ := hget d'' x'' hx''
          · exact h.alone d' x' hold hr _ x hd hne
          · exact hothers d'' x'' hold' hne'

theorem serial_finish (h : w.Serial) (d : Nat) (result : Except ε α) :
    (w.finish d result).Serial := by
  unfold World.finish
  split
  · exact h
  · next x hd =>
    split
    · next hphase =>
      refine h.set hd ?_ ?_ rfl rfl
      · intro _
        simp [Drain.live, hphase]
      · rfl
    · next hphase =>
      refine h.set hd ?_ ?_ rfl rfl
      · intro _
        simp [Drain.live, hphase]
      · rfl
    · exact h
    · exact h

theorem serial_next (h : w.Serial) (d : Nat) : (w.next d isEligible).Serial := by
  unfold World.next
  split
  · exact h
  · next x hd =>
    split
    · next hphase =>
      have hlive : x.live = true := by simp [Drain.live, hphase]
      split
      · refine h.set hd (fun _ => hlive) (turn_returned w isEligible x) ?_ (turn_drain w isEligible x)
        rw [← (w.turn_frame isEligible x).1]
      · refine h.set hd ?_ ?_ rfl rfl
        · exact fun _ => hlive
        · rfl
    · exact h

theorem serial_release (h : w.Serial) (d : Nat) : (w.release d).Serial := by
  unfold World.release
  split
  · exact h
  · next x hd =>
    split
    · next hexited =>
      have hset : World.Serial { w with drains := w.drains.set d { x with released := true } } := by
        refine h.set hd ?_ ?_ rfl rfl
        · exact id
        · rfl
      refine ⟨fun d' x' hx' hl hr => ?_, hset.alone⟩
      have howner := hset.owner d' x' hx' hl hr
      have hne : d' ≠ d := by
        rintro rfl
        obtain ⟨hlt, -⟩ := List.getElem?_eq_some_iff.mp hd
        dsimp only at hx'
        rw [List.getElem?_set_self hlt] at hx'
        cases hx'
        simp [Drain.live, hexited.1] at hl
      dsimp only at howner ⊢
      rw [if_neg (by rw [howner]; simpa using hne)]
      exact howner
    · exact h

/-- A call of `drain`, by anyone. -/
def callsDrain : Action α ε → Bool
  | .drain _ | .rejoin _ _ => true
  | _ => false

theorem serial_step (h : w.Serial) (action : Action α ε)
    (hreturned : callsDrain action = true → w.Returned) : (w.step action).Serial := by
  cases action with
  | request kind =>
    refine h.frame rfl ?_
    simp only [step, Executor.request]
    split <;> rfl
  | enqueue =>
    simp only [step, World.enqueue]
    split
    · exact h.frame rfl rfl
    · exact h.frame rfl rfl
  | consumePending kind =>
    refine h.frame rfl ?_
    simp only [step, Executor.consumePending]
    split <;> rfl
  | markReady =>
    refine h.frame rfl ?_
    simp only [step, Executor.markReady]
    split <;> rfl
  | reset =>
    simp only [step, World.fence]
    split
    · next hactive =>
      refine h.frame rfl ?_
      rw [Executor.reset, if_pos hactive]
      rfl
    · exact h
  | dispose =>
    simp only [step, World.fence]
    split
    · next hactive =>
      refine h.frame rfl ?_
      rw [Executor.dispose, if_pos hactive]
    · exact h
  | drain isEligible => exact serial_drain h (hreturned rfl)
  | own d => exact serial_own h d
  | finish d result => exact serial_finish h d result
  | next d isEligible => exact serial_next h d
  | release d => exact serial_release h d
  | rejoin d isEligible =>
    simp only [step, World.rejoin]
    split
    · exact h
    · next x hd =>
      split
      · apply serial_drain
        · refine h.set hd ?_ ?_ rfl rfl
          · exact id
          · rfl
        · intro y hy
          obtain hy | rfl := List.mem_or_eq_of_mem_set hy
          · exact hreturned rfl y hy
          · exact hreturned rfl x (List.mem_of_getElem? hd)
      · exact h

end World

/-! ## The queue -/

/-- What a step may change of the executor besides its owner. -/
structure Queue where
  active : Bool
  ready : Bool
  entries : List Entry
  pendingMarks : WorkKind → Option Nat

def Executor.queue (x : Executor) : Queue := ⟨x.active, x.ready, x.entries, x.pendingMarks⟩

namespace World
variable {w : World α ε} {isEligible : WorkKind → Bool}

def Takes (w w' : World α ε) (isEligible : WorkKind → Bool) (entry : Entry) : Prop :=
  ∃ x, w.executor.takeNextEligibleEntry isEligible = some (entry, x) ∧
    w'.executor.queue = x.queue ∧ w'.started = w.started ++ [entry]

def Keeps (w w' : World α ε) : Prop :=
  w'.executor.queue = w.executor.queue ∧ w'.started = w.started

theorem turn_queue (w : World α ε) (isEligible : WorkKind → Bool) (drain : Drain ε) :
    w.Keeps (w.turn isEligible drain).2 ∨
      ∃ entry, w.Takes (w.turn isEligible drain).2 isEligible entry := by
  obtain ⟨-, heq⟩ | ⟨entry, x, htake, heq⟩ := turn_cases isEligible drain w
  · rw [heq]
    exact Or.inl ⟨rfl, rfl⟩
  · rw [heq]
    refine Or.inr ⟨entry, x, htake, ?_, rfl⟩
    cases entry <;> rfl

theorem drain_queue (w : World α ε) (isEligible : WorkKind → Bool) :
    w.Keeps (w.drain isEligible) ∨ ∃ entry, w.Takes (w.drain isEligible) isEligible entry := by
  unfold World.drain
  split
  · exact Or.inl ⟨rfl, rfl⟩
  · split
    · split <;> exact Or.inl ⟨rfl, rfl⟩
    · exact turn_queue w isEligible _

/-- A step keeps the queue, takes one entry off it, or is one of the calls that change it. -/
theorem step_queue (w : World α ε) (action : Action α ε) :
    w.Keeps (w.step action) ∨ (∃ isEligible entry, w.Takes (w.step action) isEligible entry) ∨
    (w.step action).started = w.started ∧
      ((∃ kind, action = .request kind ∧ (w.step action).executor = w.executor.request kind w.marks) ∨
      (action = .enqueue ∧ (w.step action).executor.queue =
        { w.executor.queue with entries := w.executor.entries ++ [.call w.calls] } ∧
        w.executor.isReady = true) ∨
      (∃ kind, action = .consumePending kind ∧
        (w.step action).executor = w.executor.consumePending kind) ∨
      (action = .markReady ∧ (w.step action).executor = w.executor.markReady) ∨
      (action = .reset ∧ (w.step action).executor = w.executor.reset) ∨
      action = .dispose ∧ (w.step action).executor = w.executor.dispose) := by
  cases action with
  | request kind => exact Or.inr (Or.inr ⟨rfl, Or.inl ⟨kind, rfl, rfl⟩⟩)
  | enqueue =>
    by_cases hready : w.executor.isReady = true
    · refine Or.inr (Or.inr ⟨?_, Or.inr (Or.inl ⟨rfl, ?_, hready⟩)⟩) <;>
        simp [step, World.enqueue, hready, Executor.queue]
    · refine Or.inl ⟨?_, ?_⟩ <;> simp [step, World.enqueue, hready]
  | consumePending kind => exact Or.inr (Or.inr ⟨rfl, Or.inr (Or.inr (Or.inl ⟨kind, rfl, rfl⟩))⟩)
  | markReady => exact Or.inr (Or.inr ⟨rfl, Or.inr (Or.inr (Or.inr (Or.inl ⟨rfl, rfl⟩)))⟩)
  | reset =>
    by_cases hactive : w.executor.active = true
    · refine Or.inr (Or.inr ⟨?_, Or.inr (Or.inr (Or.inr (Or.inr (Or.inl ⟨rfl, ?_⟩))))⟩) <;>
        simp [step, fence, hactive]
    · refine Or.inl ⟨?_, ?_⟩ <;> simp [step, fence, hactive]
  | dispose =>
    by_cases hactive : w.executor.active = true
    · refine Or.inr (Or.inr ⟨?_, Or.inr (Or.inr (Or.inr (Or.inr (Or.inr ⟨rfl, ?_⟩))))⟩) <;>
        simp [step, fence, hactive]
    · refine Or.inl ⟨?_, ?_⟩ <;> simp [step, fence, hactive]
  | drain isEligible =>
    obtain h | ⟨entry, h⟩ := drain_queue w isEligible
    · exact Or.inl h
    · exact Or.inr (Or.inl ⟨isEligible, entry, h⟩)
  | own d =>
    simp only [step, World.own]
    split
    · exact Or.inl ⟨rfl, rfl⟩
    · split <;> exact Or.inl ⟨rfl, rfl⟩
  | finish d result =>
    simp only [step, World.finish]
    split
    · exact Or.inl ⟨rfl, rfl⟩
    · split <;> exact Or.inl ⟨rfl, rfl⟩
  | next d isEligible =>
    simp only [step, World.next]
    split
    · exact Or.inl ⟨rfl, rfl⟩
    · next x _ =>
      split
      · split
        · obtain h | ⟨entry, h⟩ := turn_queue w isEligible x
          · exact Or.inl h
          · exact Or.inr (Or.inl ⟨isEligible, entry, h⟩)
        · exact Or.inl ⟨rfl, rfl⟩
      · exact Or.inl ⟨rfl, rfl⟩
  | release d =>
    simp only [step, World.release]
    split
    · exact Or.inl ⟨rfl, rfl⟩
    · split <;> exact Or.inl ⟨rfl, rfl⟩
  | rejoin d isEligible =>
    simp only [step, World.rejoin]
    split
    · exact Or.inl ⟨rfl, rfl⟩
    · next x _ =>
      split
      · obtain h | ⟨entry, h⟩ := drain_queue
          { w with drains := w.drains.set d { x with waiting := x.waiting - 1 } } isEligible
        · exact Or.inl h
        · exact Or.inr (Or.inl ⟨isEligible, entry, h⟩)
      · exact Or.inl ⟨rfl, rfl⟩

/-- A repair that is queued is started before anything else. -/
theorem Takes.isRepair {w' : World α ε} {entry : Entry} (h : w.Takes w' isEligible entry)
    (hrepair : ∃ e ∈ w.executor.entries, e.isRepair = true) : entry.isRepair = true := by
  obtain ⟨x, htake, -, -⟩ := h
  obtain ⟨l, r, -, -, hkind⟩ := Executor.take_eq_some htake
  obtain ⟨e, he, hrepair⟩ := hrepair
  cases hkind with
  | inl hkind => exact hkind
  | inr hkind =>
    rw [hkind.1 e he] at hrepair
    cases hrepair

theorem takes_of_started {action : Action α ε} {entry : Entry}
    (h : (w.step action).started = w.started ++ [entry]) :
    ∃ isEligible, w.Takes (w.step action) isEligible entry := by
  have hgrows : (w.step action).started ≠ w.started := by
    rw [h]
    simp
  obtain hkeeps | ⟨isEligible, entry', htakes⟩ | ⟨hsame, -⟩ := step_queue w action
  · exact absurd hkeeps.2 hgrows
  · obtain ⟨x, htake, hqueue, hstarted⟩ := htakes
    rw [h, List.append_cancel_left_eq, List.singleton_inj] at hstarted
    exact ⟨isEligible, x, hstarted ▸ htake, hqueue, h⟩
  · exact absurd hsame hgrows

/-- A disposed executor has nothing left and is not ready. -/
def Disposed (q : Queue) : Prop := q.active = false → q.entries = [] ∧ q.ready = false

theorem disposed_step (h : Disposed w.executor.queue) (action : Action α ε) :
    Disposed (w.step action).executor.queue := by
  have hinactive : w.executor.active = false → w.executor.entries = [] ∧ w.executor.ready = false := h
  obtain hkeeps | ⟨isEligible, entry, x, htake, hqueue, -⟩ | ⟨-, hcall⟩ := step_queue w action
  · rw [hkeeps.1]
    exact h
  · rw [hqueue]
    obtain ⟨l, r, hentries, rfl, -⟩ := Executor.take_eq_some htake
    intro hx
    have hempty := (hinactive hx).1
    rw [hentries] at hempty
    simp at hempty
  · obtain ⟨kind, -, heq⟩ | ⟨-, heq, hready⟩ | ⟨kind, -, heq⟩ | ⟨-, heq⟩ | ⟨-, heq⟩ | ⟨-, heq⟩ := hcall
    · rw [heq]
      unfold Executor.request
      split
      · exact h
      · next hnew =>
        intro hx
        simp [show w.executor.active = false from hx] at hnew
    · rw [heq]
      intro hx
      simp [Executor.isReady, show w.executor.active = false from hx] at hready
    · rw [heq]
      unfold Executor.consumePending
      split
      · exact h
      · intro hx
        obtain ⟨hempty, hready⟩ := hinactive hx
        simp [Executor.queue, hempty, hready]
    · rw [heq]
      unfold Executor.markReady
      split
      · next hactive =>
        intro hx
        simp [Executor.queue, hactive] at hx
      · exact h
    · rw [heq]
      unfold Executor.reset
      split
      · next hactive =>
        intro hx
        simp [Executor.queue, Executor.withoutCalls, hactive] at hx
      · exact h
    · rw [heq]
      unfold Executor.dispose
      split
      · intro _
        exact ⟨rfl, rfl⟩
      · exact h

theorem active_step (h : w.executor.active = true) {action : Action α ε} (hdispose : action ≠ .dispose) :
    (w.step action).executor.active = true := by
  obtain hkeeps | ⟨isEligible, entry, x, htake, hqueue, -⟩ | ⟨-, hcall⟩ := step_queue w action
  · exact (congrArg Queue.active hkeeps.1).trans h
  · obtain ⟨l, r, -, rfl, -⟩ := Executor.take_eq_some htake
    exact (congrArg Queue.active hqueue).trans h
  · obtain ⟨kind, -, heq⟩ | ⟨-, heq, -⟩ | ⟨kind, -, heq⟩ | ⟨-, heq⟩ | ⟨-, heq⟩ | ⟨heq, -⟩ := hcall
    · rw [heq]
      unfold Executor.request
      split <;> exact h
    · exact (congrArg Queue.active heq).trans h
    · rw [heq]
      unfold Executor.consumePending
      split <;> exact h
    · rw [heq]
      unfold Executor.markReady
      split <;> exact h
    · rw [heq]
      unfold Executor.reset
      split <;> exact h
    · exact absurd heq hdispose

theorem ready_step (h : w.executor.ready = true) {action : Action α ε} (hreset : action ≠ .reset)
    (hdispose : action ≠ .dispose) : (w.step action).executor.ready = true := by
  obtain hkeeps | ⟨isEligible, entry, x, htake, hqueue, -⟩ | ⟨-, hcall⟩ := step_queue w action
  · exact (congrArg Queue.ready hkeeps.1).trans h
  · obtain ⟨l, r, -, rfl, -⟩ := Executor.take_eq_some htake
    exact (congrArg Queue.ready hqueue).trans h
  · obtain ⟨kind, -, heq⟩ | ⟨-, heq, -⟩ | ⟨kind, -, heq⟩ | ⟨-, heq⟩ | ⟨heq, -⟩ | ⟨heq, -⟩ := hcall
    · rw [heq]
      unfold Executor.request
      split <;> exact h
    · exact (congrArg Queue.ready heq).trans h
    · rw [heq]
      unfold Executor.consumePending
      split <;> exact h
    · rw [heq]
      unfold Executor.markReady
      split
      · rfl
      · exact h
    · exact absurd heq hreset
    · exact absurd heq hdispose

/-! ## Marks -/

/-- A pending mark stays pending until a mark of its kind is started. -/
theorem pending_step {kind : WorkKind} (h : (w.executor.pendingMarks kind).isSome = true)
    {action : Action α ε} (hconsume : action ≠ .consumePending kind) (hdispose : action ≠ .dispose) :
    ((w.step action).executor.pendingMarks kind).isSome = true ∨
      ∃ id, (w.step action).started = w.started ++ [.mark id kind] := by
  obtain hkeeps | ⟨isEligible, entry, x, htake, hqueue, hstarted⟩ | ⟨-, hcall⟩ := step_queue w action
  · have heq := congrArg (fun q => q.pendingMarks kind) hkeeps.1
    exact Or.inl ((congrArg Option.isSome heq).trans h)
  · obtain ⟨l, r, -, rfl, -⟩ := Executor.take_eq_some htake
    have heq := congrArg (fun q => (q.pendingMarks kind).isSome) hqueue
    cases entry with
    | call c => exact Or.inl (heq.trans h)
    | mark id taken =>
      by_cases hkind : kind = taken
      · exact Or.inr ⟨id, hkind ▸ hstarted⟩
      · refine Or.inl (heq.trans ?_)
        simp only [Executor.queue, Executor.forget]
        split
        · rwa [Function.update_of_ne hkind]
        · exact h
  · left
    obtain ⟨asked, -, heq⟩ | ⟨-, heq, -⟩ | ⟨asked, hasked, heq⟩ | ⟨-, heq⟩ | ⟨-, heq⟩ | ⟨heq, -⟩ := hcall
    · rw [heq]
      unfold Executor.request
      split
      · exact h
      · by_cases hkind : kind = asked
        · subst hkind
          simp
        · simpa [Function.update_of_ne hkind] using h
    · have heq := congrArg (fun q => (q.pendingMarks kind).isSome) heq
      exact heq.trans h
    · rw [heq]
      unfold Executor.consumePending
      split
      · exact h
      · have hkind : kind ≠ asked := by
          rintro rfl
          exact hconsume hasked
        simpa [Function.update_of_ne hkind] using h
    · rw [heq]
      unfold Executor.markReady
      split <;> exact h
    · rw [heq]
      unfold Executor.reset
      split <;> exact h
    · exact absurd heq hdispose

theorem pending_request {kind : WorkKind} (h : w.executor.active = true) :
    ((w.step (.request kind)).executor.pendingMarks kind).isSome = true := by
  simp only [step, Executor.request, h, Bool.not_true, Bool.false_or]
  split
  · assumption
  · simp

theorem started_step (w : World α ε) (action : Action α ε) : w.started <+: (w.step action).started := by
  obtain hkeeps | ⟨isEligible, entry, x, -, -, hstarted⟩ | ⟨hsame, -⟩ := step_queue w action
  · exact ⟨[], by rw [hkeeps.2, List.append_nil]⟩
  · exact ⟨[entry], hstarted.symm⟩
  · exact ⟨[], by rw [hsame, List.append_nil]⟩

theorem started_run (w : World α ε) (actions : List (Action α ε)) :
    w.started <+: (w.run actions).started := by
  induction actions generalizing w with
  | nil => exact List.prefix_refl _
  | cons action actions ih => exact (started_step w action).trans (ih (w.step action))

/-- The drain is under way: its loop has not ended. -/
def Live (w : World α ε) (d : Nat) : Prop := ∃ x : Drain ε, w.drains[d]? = some x ∧ x.live = true

theorem Live.set {w' : World α ε} {d d' : Nat} {x y : Drain ε} (h : w.Live d)
    (hd' : w.drains[d']? = some x) (hlive : x.live = true → y.live = true)
    (hdrains : w'.drains = w.drains.set d' y) : w'.Live d := by
  obtain ⟨x₀, hx₀, hl⟩ := h
  by_cases heq : d' = d
  · subst heq
    obtain ⟨hlt, -⟩ := List.getElem?_eq_some_iff.mp hd'
    rw [hd', Option.some.injEq] at hx₀
    exact ⟨y, by rw [hdrains, List.getElem?_set_self hlt], hlive (hx₀ ▸ hl)⟩
  · exact ⟨x₀, by rw [hdrains, List.getElem?_set_ne heq, hx₀], hl⟩

theorem live_drain {d : Nat} (h : w.Live d) : (w.drain isEligible).Live d := by
  unfold World.drain
  split
  · exact h
  · split
    · split
      · exact h
      · next hd => exact h.set hd (by exact id) rfl
    · obtain ⟨x, hx, hl⟩ := h
      obtain ⟨hlt, -⟩ := List.getElem?_eq_some_iff.mp hx
      refine ⟨x, ?_, hl⟩
      simp only [drainOwned, (w.turn_frame isEligible { phase := .between }).1]
      rw [List.getElem?_append_left hlt, hx]

/-- A loop ends only in a turn of its own that finds the executor disposed or nothing to take. -/
theorem live_step {d : Nat} (h : w.Live d) (action : Action α ε) :
    (w.step action).Live d ∨ ∃ isEligible, action = .next d isEligible ∧
      (w.executor.active = false ∨ w.executor.takeNextEligibleEntry isEligible = none) := by
  cases action with
  | request kind => exact Or.inl h
  | enqueue =>
    simp only [step, World.enqueue]
    split <;> exact Or.inl h
  | consumePending kind => exact Or.inl h
  | markReady => exact Or.inl h
  | reset =>
    simp only [step, World.fence]
    split <;> exact Or.inl h
  | dispose =>
    simp only [step, World.fence]
    split <;> exact Or.inl h
  | drain isEligible => exact Or.inl (live_drain h)
  | own d' =>
    simp only [step, World.own]
    split
    · exact Or.inl h
    · next x hd =>
      split
      · exact Or.inl h
      · exact Or.inl (h.set hd (by exact id) rfl)
  | finish d' result =>
    simp only [step, World.finish]
    split
    · exact Or.inl h
    · next x hd =>
      split
      · exact Or.inl (h.set hd (fun _ => rfl) rfl)
      · exact Or.inl (h.set hd (fun _ => rfl) rfl)
      · exact Or.inl h
      · exact Or.inl h
  | next d' isEligible =>
    simp only [step, World.next]
    split
    · exact Or.inl h
    · next x hd =>
      split
      · split
        · next hactive =>
          have hdrains : w.drains.set d' (w.turn isEligible x).1 =
              (w.turn isEligible x).2.drains.set d' (w.turn isEligible x).1 := by
            rw [(w.turn_frame isEligible x).1]
          obtain ⟨hnone, heq⟩ | ⟨entry, x', -, heq⟩ := turn_cases isEligible x w
          · by_cases hd' : d' = d
            · exact Or.inr ⟨isEligible, by rw [hd'], Or.inr hnone⟩
            · obtain ⟨x₀, hx₀, hl⟩ := h
              refine Or.inl ⟨x₀, ?_, hl⟩
              rw [← hdrains, List.getElem?_set_ne hd', hx₀]
          · refine Or.inl (h.set hd (fun _ => ?_) hdrains.symm)
            rw [heq]
            rfl
        · next hinactive =>
          by_cases hd' : d' = d
          · exact Or.inr ⟨isEligible, by rw [hd'], Or.inl (by simpa using hinactive)⟩
          · obtain ⟨x₀, hx₀, hl⟩ := h
            refine Or.inl ⟨x₀, ?_, hl⟩
            rw [List.getElem?_set_ne hd', hx₀]
      · exact Or.inl h
  | release d' =>
    simp only [step, World.release]
    split
    · exact Or.inl h
    · next x hd =>
      split
      · exact Or.inl (h.set hd (by exact id) rfl)
      · exact Or.inl h
  | rejoin d' isEligible =>
    simp only [step, World.rejoin]
    split
    · exact Or.inl h
    · next x hd =>
      split
      · exact Or.inl (live_drain (h.set hd (by exact id) rfl))
      · exact Or.inl h

/-- A drain whose loop ends while the mark is eligible has started a mark of that kind. -/
theorem started_again {d : Nat} {kind : WorkKind} {later : List (Action α ε)}
    (hmarked : w.executor.Marked) (hpending : (w.executor.pendingMarks kind).isSome = true)
    (hactive : w.executor.active = true) (hlive : w.Live d)
    (hlater : ∀ action ∈ later, action ≠ .consumePending kind ∧ action ≠ .reset ∧ action ≠ .dispose)
    (heligible : kind = .repair ∨ w.executor.ready = true ∧
      ∀ isEligible, .next d isEligible ∈ later → isEligible kind = true)
    (hexited : ¬ (w.run later).Live d) :
    ∃ id, .mark id kind ∈ (w.run later).started.drop w.started.length := by
  induction later generalizing w with
  | nil => exact absurd hlive hexited
  | cons action later ih =>
    obtain ⟨hconsume, hreset, hdispose⟩ := hlater action List.mem_cons_self
    have hrun : w.run (action :: later) = (w.step action).run later := rfl
    obtain ⟨suffix, hsuffix⟩ := started_run (w.step action) later
    obtain hpending' | ⟨id, hstarted⟩ := pending_step hpending hconsume hdispose
    · obtain hlive' | ⟨isEligible, rfl, hstopped⟩ := live_step hlive action
      · obtain ⟨id, hid⟩ := ih (marked_step hmarked action) hpending' (active_step hactive hdispose)
          hlive' (fun a ha => hlater a (List.mem_cons_of_mem _ ha))
          (heligible.imp id fun h => ⟨ready_step h.1 hreset hdispose,
            fun isEligible hmem => h.2 isEligible (List.mem_cons_of_mem _ hmem)⟩)
          hexited
        have hlength := (started_step w action).length_le
        exact ⟨id, (List.drop_suffix_drop_left _ hlength).subset hid⟩
      · -- the loop stopped although the mark was there to take
        exfalso
        obtain ⟨id, hid⟩ := Option.isSome_iff_exists.mp hpending
        have hmem := hmarked.mem.mpr hid
        obtain hinactive | hnone := hstopped
        · rw [hactive] at hinactive
          cases hinactive
        · obtain ⟨hrepair, hother⟩ := Executor.take_eq_none hnone
          obtain rfl | ⟨hready, hall⟩ := heligible
          · simpa [Entry.isRepair] using hrepair _ hmem
          · have htakeable := hother hready _ hmem
            rw [Entry.isTakeable, hall isEligible List.mem_cons_self] at htakeable
            cases htakeable
    · refine ⟨id, ?_⟩
      rw [hrun, ← hsuffix, hstarted, List.append_assoc, List.drop_left]
      simp

/-! ## Fences -/

theorem calls_drain (w : World α ε) (isEligible : WorkKind → Bool) :
    (w.drain isEligible).calls = w.calls := by
  unfold World.drain
  split
  · rfl
  · split
    · split <;> rfl
    · exact (w.turn_frame isEligible _).2.1

theorem calls_step (w : World α ε) (action : Action α ε) : w.calls ≤ (w.step action).calls := by
  cases action with
  | enqueue =>
    simp only [step, World.enqueue]
    split
    · exact Nat.le_succ _
    · exact Nat.le_succ _
  | drain isEligible => exact Nat.le_of_eq (calls_drain w isEligible).symm
  | next d isEligible =>
    simp only [step, World.next]
    split
    · exact Nat.le_refl _
    · next x _ =>
      split
      · split
        · exact Nat.le_of_eq (w.turn_frame isEligible x).2.1.symm
        · exact Nat.le_refl _
      · exact Nat.le_refl _
  | rejoin d isEligible =>
    simp only [step, World.rejoin]
    split
    · exact Nat.le_refl _
    · split
      · exact Nat.le_of_eq (by rw [calls_drain])
      · exact Nat.le_refl _
  | own d =>
    simp only [step, World.own]
    split
    · exact Nat.le_refl _
    · split <;> exact Nat.le_refl _
  | finish d result =>
    simp only [step, World.finish]
    split
    · exact Nat.le_refl _
    · split <;> exact Nat.le_refl _
  | release d =>
    simp only [step, World.release]
    split
    · exact Nat.le_refl _
    · split <;> exact Nat.le_refl _
  | reset =>
    simp only [step, World.fence]
    split <;> exact Nat.le_refl _
  | dispose =>
    simp only [step, World.fence]
    split <;> exact Nat.le_refl _
  | request kind => exact Nat.le_refl _
  | consumePending kind => exact Nat.le_refl _
  | markReady => exact Nat.le_refl _

theorem unqueued_step {id : Nat} (hid : id < w.calls) (h : .call id ∉ w.executor.entries)
    (action : Action α ε) : .call id ∉ (w.step action).executor.entries := by
  obtain hkeeps | ⟨isEligible, entry, x, htake, hqueue, -⟩ | ⟨-, hcall⟩ := step_queue w action
  · rwa [show (w.step action).executor.entries = _ from congrArg Queue.entries hkeeps.1]
  · obtain ⟨l, r, hentries, rfl, -⟩ := Executor.take_eq_some htake
    rw [show (w.step action).executor.entries = _ from congrArg Queue.entries hqueue]
    rw [hentries] at h
    simp only [Executor.queue, List.mem_append, List.mem_cons, not_or] at h ⊢
    exact ⟨h.1, h.2.2⟩
  · obtain ⟨kind, -, heq⟩ | ⟨-, heq, -⟩ | ⟨kind, -, heq⟩ | ⟨-, heq⟩ | ⟨-, heq⟩ | ⟨-, heq⟩ := hcall
    · rw [heq]
      unfold Executor.request
      split
      · exact h
      · simpa using h
    · rw [show (w.step action).executor.entries = _ from congrArg Queue.entries heq]
      simp only [List.mem_append, List.mem_singleton, Entry.call.injEq, not_or]
      exact ⟨h, by omega⟩
    · rw [heq]
      unfold Executor.consumePending
      split
      · exact h
      · exact fun hmem => h (List.mem_of_mem_erase hmem)
    · rw [heq]
      unfold Executor.markReady
      split <;> exact h
    · rw [heq]
      unfold Executor.reset
      split
      · exact fun hmem => h (List.mem_filter.mp hmem).1
      · exact h
    · rw [heq]
      unfold Executor.dispose
      split
      · simp
      · exact h

theorem unqueued_run {id : Nat} (later : List (Action α ε)) (hid : id < w.calls)
    (h : .call id ∉ w.executor.entries) :
    id < (w.run later).calls ∧ .call id ∉ (w.run later).executor.entries := by
  induction later generalizing w with
  | nil => exact ⟨hid, h⟩
  | cons action later ih =>
    exact ih (Nat.lt_of_lt_of_le hid (calls_step w action)) (unqueued_step hid h action)

theorem unqueued_fence (h : Disposed w.executor.queue) {fence : Action α ε}
    (hfence : fence = .reset ∨ fence = .dispose) (id : Nat) :
    .call id ∉ (w.step fence).executor.entries := by
  by_cases hactive : w.executor.active = true
  · obtain rfl | rfl := hfence
    · simp [step, World.fence, hactive, Executor.reset, Executor.withoutCalls, Entry.isCall]
    · simp [step, World.fence, hactive, Executor.dispose]
  · have hempty : w.executor.entries = [] := (h (by simpa [Executor.queue] using hactive)).1
    obtain rfl | rfl := hfence <;> simp [step, World.fence, hactive, hempty]

/-! ## Runs -/

/-- What holds in every run, however its steps are nested. -/
structure Sound (w : World α ε) : Prop where
  marked : w.executor.Marked
  accounted : w.Accounted
  disposed : Disposed w.executor.queue

theorem sound_run (h : w.Sound) (actions : List (Action α ε)) : (w.run actions).Sound := by
  induction actions generalizing w with
  | nil => exact h
  | cons action actions ih =>
    exact ih ⟨marked_step h.marked action, accounted_step h.accounted action,
      disposed_step h.disposed action⟩

theorem sound_init : (World.run (α := α) (ε := ε) {} []).Sound :=
  ⟨fun _ _ => rfl, fun _ => rfl, fun h => by cases h⟩

def Executes (w : World α ε) (d : Nat) (entry : Entry) : Prop :=
  ∃ x : Drain ε, w.drains[d]? = some x ∧ x.phase = .executing entry

/-- No call of `drain` is made from inside another one, by a handler or an operation that runs
before its `drain` call has returned. -/
def Unnested : World α ε → List (Action α ε) → Prop
  | _, [] => True
  | w, action :: actions =>
    (callsDrain action = true → w.Returned) ∧ Unnested (w.step action) actions

instance decidableUnnested : (w : World α ε) → (actions : List (Action α ε)) →
    Decidable (w.Unnested actions)
  | _, [] => inferInstanceAs (Decidable True)
  | w, action :: actions =>
    have := decidableUnnested (w.step action) actions
    inferInstanceAs (Decidable ((callsDrain action = true → w.Returned) ∧ _))

theorem serial_run (h : w.Serial) {actions : List (Action α ε)} (hrun : w.Unnested actions) :
    (w.run actions).Serial := by
  induction actions generalizing w with
  | nil => exact h
  | cons action actions ih => exact ih (serial_step h action hrun.1) hrun.2

/-- A call that is neither queued nor executed is settled, once. -/
theorem settled_once {id : Nat} (h : w.Accounted) (hid : id < w.calls)
    (hqueued : .call id ∉ w.executor.entries) (hexecuted : ∀ d, ¬ w.Executes d (.call id)) :
    (w.settlements.map Prod.fst).count id = 1 := by
  have hcount := h id
  have hqueued : w.executor.entries.count (.call id) = 0 := List.count_eq_zero.mpr hqueued
  have hexecuted : w.drains.countP (Drain.executes id) = 0 := by
    rw [List.countP_eq_zero]
    intro x hx hexecutes
    obtain ⟨d, hd⟩ := List.mem_iff_getElem?.mp hx
    exact hexecuted d ⟨x, hd, by simpa [Drain.executes] using hexecutes⟩
  have hissued : (List.range w.calls).count id = 1 :=
    List.count_eq_one_of_mem (List.nodup_range) (List.mem_range.mpr hid)
  omega

/-- In a run without nested `drain` calls one entry executes at a time, repairs come first, a
mark is not lost on the drain that is under way, and promises are settled once, none later than
the entry that runs when a fence falls. -/
theorem run_serialized (actions : List (Action α ε)) (hrun : Unnested {} actions) :
    (∀ d d' entry entry', (run {} actions).Executes d entry →
      (run {} actions).Executes d' entry' → d = d') ∧
    (∀ action entry, ((run {} actions).step action).started = (run {} actions).started ++ [entry] →
      (∃ e ∈ (run {} actions).executor.entries, e.isRepair = true) → entry.isRepair = true) ∧
    (∀ kind d later, (run {} actions).executor.active = true → (run {} actions).Live d →
      (∀ action ∈ later, action ≠ .consumePending kind ∧ action ≠ .reset ∧ action ≠ .dispose) →
      (kind = .repair ∨ (run {} actions).executor.ready = true ∧
        ∀ isEligible, .next d isEligible ∈ later → isEligible kind = true) →
      ¬ (run {} (actions ++ .request kind :: later)).Live d →
      ∃ id, .mark id kind ∈ (run {} (actions ++ .request kind :: later)).started.drop
        (run {} actions).started.length) ∧
    (∀ id, ((run {} actions).settlements.map Prod.fst).count id ≤ 1) ∧
    ∀ fence later id, fence = .reset ∨ fence = .dispose → id < (run {} actions).calls →
      (∀ d, ¬ (run {} (actions ++ fence :: later)).Executes d (.call id)) →
      ((run {} (actions ++ fence :: later)).settlements.map Prod.fst).count id = 1 := by
  have hsound : (run {} actions).Sound := sound_run sound_init actions
  have happend : ∀ action later, run {} (actions ++ action :: later) =
      ((run {} actions).step action).run later := by
    intro action later
    simp [run]
  refine ⟨fun d d' entry entry' hd hd' => ?_, fun action entry hstarted hrepair => ?_,
    fun kind d later hactive hlive hlater heligible hexited => ?_, fun id => ?_,
    fun fence later id hfence hid hexecuted => ?_⟩
  · have hserial : (run {} actions).Serial :=
      serial_run ⟨fun d x hx => by simp at hx, fun d x hx => by simp at hx⟩ hrun
    obtain ⟨x, hx, hphase⟩ := hd
    obtain ⟨x', hx', hphase'⟩ := hd'
    exact hserial.unique hx hx' (by simp [Drain.live, hphase]) (by simp [Drain.live, hphase'])
  · obtain ⟨isEligible, htakes⟩ := takes_of_started hstarted
    exact htakes.isRepair hrepair
  · rw [happend] at hexited ⊢
    refine started_again (marked_step hsound.marked _) (pending_request hactive)
      (active_step hactive (by simp)) hlive hlater ?_ hexited
    exact heligible.imp id fun h => ⟨ready_step h.1 (by simp) (by simp), h.2⟩
  · have hcount := hsound.accounted id
    have hissued : (List.range (run {} actions).calls).count id ≤ 1 :=
      List.nodup_iff_count_le_one.mp List.nodup_range id
    omega
  · rw [happend] at hexecuted ⊢
    have hsound' : ((run {} actions).step fence).Sound := sound_run hsound [fence]
    obtain ⟨hid', hqueued⟩ := unqueued_run later (Nat.lt_of_lt_of_le hid (calls_step _ fence))
      (unqueued_fence hsound.disposed hfence id)
    exact settled_once (sound_run hsound' later).accounted hid' hqueued hexecuted

/-- A drain has begun to handle a pull; a push is waiting. -/
def pulling : List (Action Unit Unit) :=
  [.markReady, .request .pull, .request .push, .drain fun _ => true]

/-- The handler calls `drain` before its first await: the executor has no owner yet, and the
push is handled beside the pull. -/
theorem executes_two_of_nested :
    ¬ ∀ d d' entry entry', (run {} (pulling ++ [.drain fun _ => true])).Executes d entry →
      (run {} (pulling ++ [.drain fun _ => true])).Executes d' entry' → d = d' := by
  intro h
  have heq := h 0 1 (.mark 0 .pull) (.mark 1 .push) ⟨_, rfl, rfl⟩ ⟨_, rfl, rfl⟩
  cases heq

/-- The handler calls `drain` behind an await, when its own drain is the owner. -/
theorem run_serialized_pulling :
    Unnested {} (pulling ++ [.own 0, .drain fun _ => true]) ∧
      (run {} (pulling ++ [.own 0, .drain fun _ => true])).Executes 0 (.mark 0 .pull) ∧
      ∀ d d' entry entry', (run {} (pulling ++ [.own 0, .drain fun _ => true])).Executes d entry →
        (run {} (pulling ++ [.own 0, .drain fun _ => true])).Executes d' entry' → d = d' := by
  have hrun : Unnested {} (pulling ++ [.own 0, .drain fun _ => true]) := by decide
  exact ⟨hrun, ⟨_, rfl, rfl⟩, (run_serialized _ hrun).1⟩

end World

end EnboxDwn.SyncLinkExecutor
