import EnboxDwn.Lib.Level
import Mathlib.Data.String.Basic

/-! Resumable tasks: the task store and the manager over it. Tasks that run, their extension
timers and the resume loop take their steps in any order; a store call that reads before it writes
takes two steps. A copy that was read remembers whether the task has been overtaken since. -/
namespace EnboxDwn

structure ManagedResumableTask (τ : Type) where
  id : String
  timeout : Nat
  retryCount : Nat
  task : τ
  deriving DecidableEq, Repr

namespace ResumableTasks
variable {τ : Type}

/-! ## The store -/

abbrev Store (τ : Type) := Level.Sublevel String (ManagedResumableTask τ)

/-- The timeout a grab gives the tasks it returns. -/
def taskTimeoutInSeconds : Nat := 60

def timeoutExtensionFrequencyInSeconds : Nat := 30

/-- The timeout of a registration or an extension leaves ample time for the next extension. -/
def extensionInSeconds : Nat := timeoutExtensionFrequencyInSeconds * 2

def resumableTaskBatchSize : Nat := 100

def registered (computeCid : τ → String) (now : Nat) (task : τ) : ManagedResumableTask τ :=
  ⟨computeCid task, now + extensionInSeconds * 1000, 0, task⟩

def extended (now : Nat) (task : ManagedResumableTask τ) : ManagedResumableTask τ :=
  { task with timeout := now + extensionInSeconds * 1000 }

def grabbed (now : Nat) (task : ManagedResumableTask τ) : ManagedResumableTask τ :=
  { task with timeout := now + taskTimeoutInSeconds * 1000, retryCount := task.retryCount + 1 }

/-! ## The manager -/

inductive Phase where
  | handling | deleting
  deriving DecidableEq, Repr

/-- A task that runs under its extension timer; the resume loop waits for the ones it resumed. -/
structure Run (τ : Type) where
  managedTask : ManagedResumableTask τ
  phase : Phase := .handling
  resumed : Bool := false

/-- A call of `extend`: the copy it read, and whether the task was deleted after that. -/
structure Extension (τ : Type) where
  id : String
  copy : Option (ManagedResumableTask τ) := none
  overtaken : Bool := false

/-- An entry of a grab's iterator: the copy, and whether the task was written or deleted since. -/
structure Entry (τ : Type) where
  copy : ManagedResumableTask τ
  overtaken : Bool := false

inductive Loop (τ : Type) where
  | idle
  | grabbing (remaining : List (Entry τ)) (tasks : List (ManagedResumableTask τ))
  | retrying (waiting failed : List (ManagedResumableTask τ))
  | executing (waiting failed : List (ManagedResumableTask τ))
  | stopped

/-- A task handed out by a grab, with the timeout that was stored for it right before. -/
structure Return where
  id : String
  time : Nat
  stored : Option Nat
  deriving DecidableEq, Repr

structure System (τ : Type) where
  store : Store τ := ∅
  runs : List (Run τ) := []
  extensions : List (Extension τ) := []
  loop : Loop τ := .idle
  /-- Deleted after completion and not registered again. -/
  gone : List String := []
  returns : List Return := []

inductive Event (τ : Type) where
  | run (task : τ)
  | fire (i : Nat)
  | extendRead (i : Nat)
  | extendWrite (i : Nat)
  | handlerReturns (i : Nat)
  | handlerThrows (i : Nat)
  | delete (i : Nat)
  | grab
  | grabNext
  | resume
  | read (taskId : String)

def Loop.overtake (id : String) : Loop τ → Loop τ
  | .grabbing remaining tasks =>
    .grabbing (remaining.map fun e => { e with overtaken := e.overtaken || e.copy.id == id }) tasks
  | loop => loop

/-- The loop goes on when a run it resumed is over. -/
def Loop.runEnded (failure : Option (ManagedResumableTask τ)) : Loop τ → Loop τ
  | .executing waiting failed => .retrying waiting (failed ++ failure.toList)
  | loop => loop

/-- The end of a grab: nothing to resume ends the loop. -/
def Loop.grabReturns (tasks : List (ManagedResumableTask τ)) : Loop τ :=
  if tasks.isEmpty then .stopped else .retrying tasks []

namespace System

def put (task : ManagedResumableTask τ) (s : System τ) : System τ :=
  { s with
    store := (Level.Operation.put task.id task).apply s.store
    loop := s.loop.overtake task.id }

def erase (id : String) (s : System τ) : System τ :=
  { s with
    store := (Level.Operation.del id).apply s.store
    extensions := s.extensions.map fun e => { e with overtaken := e.overtaken || e.id == id }
    loop := s.loop.overtake id
    gone := id :: s.gone }

def register (computeCid : τ → String) (now : Nat) (task : τ) (s : System τ) : System τ :=
  let managed := registered computeCid now task
  let s := s.put managed
  { s with
    runs := s.runs ++ [{ managedTask := managed }]
    gone := s.gone.filter fun id => id ≠ managed.id }

/-- The timer of a run starts an extension; it is cleared only after the deletion. -/
def fire (i : Nat) (s : System τ) : System τ :=
  match s.runs[i]? with
  | none => s
  | some run => { s with extensions := s.extensions ++ [{ id := run.managedTask.id }] }

def extendRead (i : Nat) (s : System τ) : System τ :=
  match s.extensions[i]? with
  | some ⟨id, none, _⟩ =>
    match Level.get s.store id with
    | none => { s with extensions := s.extensions.eraseIdx i }
    | some task => { s with extensions := s.extensions.set i ⟨id, some task, false⟩ }
  | _ => s

def extendWrite (now : Nat) (i : Nat) (s : System τ) : System τ :=
  match s.extensions[i]? with
  | some ⟨_, some task, _⟩ =>
    { s with extensions := s.extensions.eraseIdx i }.put (extended now task)
  | _ => s

def handlerReturns (i : Nat) (s : System τ) : System τ :=
  match s.runs[i]? with
  | some run => { s with runs := s.runs.set i { run with phase := .deleting } }
  | none => s

/-- The end of a run; the timer is cleared on every path. -/
def endRun (i : Nat) (run : Run τ) (failure : Option (ManagedResumableTask τ)) (s : System τ) :
    System τ :=
  { s with
    runs := s.runs.eraseIdx i
    loop := if run.resumed then s.loop.runEnded failure else s.loop }

def handlerThrows (i : Nat) (s : System τ) : System τ :=
  match s.runs[i]? with
  | some run =>
    if run.phase = .handling then s.endRun i run (some run.managedTask) else s
  | none => s

def delete (i : Nat) (s : System τ) : System τ :=
  match s.runs[i]? with
  | some run =>
    if run.phase = .deleting then (s.erase run.managedTask.id).endRun i run none else s
  | none => s

/-- The iterator reads a snapshot in the order of the keys. -/
def grab (s : System τ) : System τ :=
  match s.loop with
  | .idle =>
    let entries := Level.entries (fun a b => decide (a ≤ b)) (fun _ => true) s.store
    { s with loop := .grabbing (entries.map fun e => { copy := e.2 }) [] }
  | _ => s

/-- One turn of the grab: a timed-out task is written back and returned. -/
def grabNext (now : Nat) (s : System τ) : System τ :=
  match s.loop with
  | .grabbing [] tasks => { s with loop := .grabReturns tasks }
  | .grabbing (entry :: remaining) tasks =>
    if entry.copy.timeout ≤ now then
      let task := grabbed now entry.copy
      let returned : Return := ⟨task.id, now, (Level.get s.store task.id).map (·.timeout)⟩
      let next : Loop τ :=
        if resumableTaskBatchSize ≤ (tasks ++ [task]).length then .grabReturns (tasks ++ [task])
        else .grabbing remaining (tasks ++ [task])
      { s with loop := next, returns := s.returns ++ [returned] }.put task
    else { s with loop := .grabbing remaining tasks }
  | _ => s

/-- The loop runs the next task of its batch, retries the failed ones, or grabs again. -/
def resume (s : System τ) : System τ :=
  match s.loop with
  | .retrying (task :: waiting) failed =>
    { s with
      runs := s.runs ++ [{ managedTask := task, resumed := true }]
      loop := .executing waiting failed }
  | .retrying [] [] => { s with loop := .idle }
  | .retrying [] failed => { s with loop := .retrying failed [] }
  | _ => s

def step (computeCid : τ → String) (now : Nat) : Event τ → System τ → System τ
  | .run task, s => s.register computeCid now task
  | .fire i, s => s.fire i
  | .extendRead i, s => s.extendRead i
  | .extendWrite i, s => s.extendWrite now i
  | .handlerReturns i, s => s.handlerReturns i
  | .handlerThrows i, s => s.handlerThrows i
  | .delete i, s => s.delete i
  | .grab, s => s.grab
  | .grabNext, s => s.grabNext now
  | .resume, s => s.resume
  | .read _, s => s

def run (computeCid : τ → String) : List (Nat × Event τ) → System τ → System τ
  | [], s => s
  | (now, event) :: rest, s => run computeCid rest (s.step computeCid now event)

end System

/-! ## What the manager relies on -/

/-- The timeout that was stored for the task had been reached when it was handed out. -/
def Return.Expired (r : Return) : Prop := ∃ timeout, r.stored = some timeout ∧ timeout ≤ r.time

/-- A deleted task does not come back, and no task is handed out twice unless its timeout has
expired in between. -/
structure System.Sound (s : System τ) : Prop where
  gone : ∀ id ∈ s.gone, Level.get s.store id = none
  returns : s.returns.Pairwise fun earlier later => earlier.id = later.id → later.Expired

/-- The entry a grab comes to next. -/
def Loop.nextEntry : Loop τ → Option (Entry τ)
  | .grabbing (entry :: _) _ => some entry
  | _ => none

/-- No write-back is overtaken: an extension writes a task that was not deleted since it was read,
a grab hands out a task that was neither written nor deleted since. -/
def System.Meets (now : Nat) : Event τ → System τ → Prop
  | .extendWrite i, s => ∀ e ∈ s.extensions[i]?, e.overtaken = false
  | .grabNext, s => ∀ e ∈ s.loop.nextEntry, e.copy.timeout ≤ now → e.overtaken = false
  | _, _ => True

instance System.decidableMeets (now : Nat) (s : System τ) : (event : Event τ) →
    Decidable (s.Meets now event)
  | .extendWrite i => inferInstanceAs (Decidable (∀ e ∈ s.extensions[i]?, e.overtaken = false))
  | .grabNext => inferInstanceAs (Decidable (∀ e ∈ s.loop.nextEntry,
      e.copy.timeout ≤ now → e.overtaken = false))
  | .run _ | .fire _ | .extendRead _ | .handlerReturns _ | .handlerThrows _ | .delete _ | .grab
  | .resume | .read _ => inferInstanceAs (Decidable True)

def System.MeetsAll (computeCid : τ → String) : List (Nat × Event τ) → System τ → Prop
  | [], _ => True
  | (now, event) :: rest, s =>
    s.Meets now event ∧ MeetsAll computeCid rest (s.step computeCid now event)

instance System.decidableMeetsAll (computeCid : τ → String) : (events : List (Nat × Event τ)) →
    (s : System τ) → Decidable (s.MeetsAll computeCid events)
  | [], _ => inferInstanceAs (Decidable True)
  | (now, event) :: rest, s =>
    haveI := System.decidableMeetsAll computeCid rest (s.step computeCid now event)
    inferInstanceAs (Decidable (s.Meets now event ∧
      MeetsAll computeCid rest (s.step computeCid now event)))

/-! ## What a step preserves -/

namespace System
variable {s : System τ} {now : Nat}

/-- Every copy that was not overtaken still agrees with the store. -/
structure Sane (s : System τ) : Prop where
  keyed : Level.All (fun key task => task.id = key) s.store
  extensions : ∀ e ∈ s.extensions, ∀ task, e.copy = some task →
    task.id = e.id ∧ (e.overtaken = false → (Level.get s.store e.id).isSome = true)
  entries : ∀ remaining tasks, s.loop = .grabbing remaining tasks → ∀ e ∈ remaining,
    e.overtaken = false → Level.get s.store e.copy.id = some e.copy
  sound : s.Sound

theorem sane_initial : Sane ({} : System τ) where
  keyed := Level.All.empty _
  extensions := by simp
  entries := by simp
  sound := ⟨by simp, List.Pairwise.nil⟩

theorem get_put (task : ManagedResumableTask τ) (s : System τ) (id : String) :
    Level.get (s.put task).store id = if id = task.id then some task else Level.get s.store id := by
  by_cases h : id = task.id
  · rw [if_pos h, h]
    exact Level.get_put _ _ _
  · rw [if_neg h]
    exact Level.get_apply_of_ne h

theorem get_erase (id' : String) (s : System τ) (id : String) :
    Level.get (s.erase id').store id = if id = id' then none else Level.get s.store id := by
  by_cases h : id = id'
  · rw [if_pos h, h]
    exact Level.get_del _ _
  · rw [if_neg h]
    exact Level.get_apply_of_ne h

/-- An entry that was not overtaken by a write or a deletion has another id and was not overtaken
before. -/
theorem mem_overtake {loop : Loop τ} {id : String} {remaining : List (Entry τ)}
    {tasks : List (ManagedResumableTask τ)} (h : loop.overtake id = .grabbing remaining tasks)
    {e : Entry τ} (he : e ∈ remaining) (hovertaken : e.overtaken = false) :
    e.copy.id ≠ id ∧ ∃ remaining₀, loop = .grabbing remaining₀ tasks ∧ e ∈ remaining₀ := by
  cases loop with
  | grabbing remaining₀ tasks₀ =>
    cases h
    obtain ⟨e₀, he₀, rfl⟩ := List.mem_map.mp he
    have hflags := Bool.or_eq_false_iff.mp hovertaken
    refine ⟨by simpa using hflags.2, remaining₀, rfl, ?_⟩
    have hsame : ({ e₀ with overtaken := e₀.overtaken || e₀.copy.id == id } : Entry τ) = e₀ := by
      rw [hflags.1, hflags.2, Bool.or_self, ← hflags.1]
    rw [hsame]
    exact he₀
  | idle => cases h
  | retrying waiting failed => cases h
  | executing waiting failed => cases h
  | stopped => cases h

theorem Sane.put (h : s.Sane) (task : ManagedResumableTask τ) (hgone : task.id ∉ s.gone) :
    (s.put task).Sane where
  keyed := by
    intro key value hvalue
    rw [get_put] at hvalue
    split at hvalue
    next heq =>
      cases hvalue
      exact heq.symm
    · exact h.keyed key value hvalue
  extensions := by
    intro e he copy hcopy
    obtain ⟨hid, hstored⟩ := h.extensions e he copy hcopy
    refine ⟨hid, fun hovertaken => ?_⟩
    rw [get_put]
    split
    · rfl
    · exact hstored hovertaken
  entries := by
    intro remaining tasks hloop e he hovertaken
    obtain ⟨hne, remaining₀, hloop₀, he₀⟩ := mem_overtake hloop he hovertaken
    rw [get_put, if_neg hne]
    exact h.entries remaining₀ tasks hloop₀ e he₀ hovertaken
  sound := by
    refine ⟨fun id hid => ?_, h.sound.returns⟩
    have hne : id ≠ task.id := fun heq => hgone (heq ▸ hid)
    rw [get_put, if_neg hne]
    exact h.sound.gone id hid

theorem Sane.erase (h : s.Sane) (id : String) : (s.erase id).Sane where
  keyed := by
    intro key value hvalue
    rw [get_erase] at hvalue
    split at hvalue
    · cases hvalue
    · exact h.keyed key value hvalue
  extensions := by
    intro e he copy hcopy
    obtain ⟨e₀, he₀, rfl⟩ := List.mem_map.mp he
    obtain ⟨hid, hstored⟩ := h.extensions e₀ he₀ copy hcopy
    refine ⟨hid, fun hovertaken => ?_⟩
    have hflags := Bool.or_eq_false_iff.mp hovertaken
    have hne : e₀.id ≠ id := by simpa using hflags.2
    rw [get_erase, if_neg hne]
    exact hstored hflags.1
  entries := by
    intro remaining tasks hloop e he hovertaken
    obtain ⟨hne, remaining₀, hloop₀, he₀⟩ := mem_overtake hloop he hovertaken
    rw [get_erase, if_neg hne]
    exact h.entries remaining₀ tasks hloop₀ e he₀ hovertaken
  sound := by
    refine ⟨fun id' hid' => ?_, h.sound.returns⟩
    rw [get_erase]
    split
    · rfl
    next hne =>
      cases List.mem_cons.mp hid' with
      | inl heq => exact absurd heq hne
      | inr hid' => exact h.sound.gone id' hid'

/-- A stored task is not gone. -/
theorem Sane.not_gone (h : s.Sane) {id : String} (hstored : (Level.get s.store id).isSome = true) :
    id ∉ s.gone := by
  intro hid
  rw [h.sound.gone id hid] at hstored
  cases hstored

theorem Sane.register (h : s.Sane) (computeCid : τ → String) (task : τ) :
    (s.register computeCid now task).Sane := by
  have hfiltered : ({ s with gone := s.gone.filter fun id =>
      id ≠ (registered computeCid now task).id } : System τ).Sane :=
    ⟨h.keyed, h.extensions, h.entries, fun id hid => h.sound.gone id (List.mem_of_mem_filter hid),
      h.sound.returns⟩
  have hput := hfiltered.put (registered computeCid now task) (by simp)
  exact ⟨hput.keyed, hput.extensions, hput.entries, hput.sound.gone, hput.sound.returns⟩

theorem Sane.extendRead (h : s.Sane) (i : Nat) : (s.extendRead i).Sane := by
  unfold System.extendRead
  split
  next id _ he =>
    split
    · refine ⟨h.keyed, fun e he' => ?_, h.entries, h.sound.gone, h.sound.returns⟩
      exact h.extensions e (List.mem_of_mem_eraseIdx he')
    next task hstored =>
      refine ⟨h.keyed, fun e he' copy hcopy => ?_, h.entries, h.sound.gone, h.sound.returns⟩
      cases List.mem_or_eq_of_mem_set he' with
      | inl he' => exact h.extensions e he' copy hcopy
      | inr heq =>
        cases heq
        cases hcopy
        refine ⟨h.keyed id task hstored, fun _ => ?_⟩
        rw [hstored]
        rfl
  · exact h

theorem Sane.extendWrite (h : s.Sane) {i : Nat} (hmeets : s.Meets now (.extendWrite i)) :
    (s.extendWrite now i).Sane := by
  unfold System.extendWrite
  split
  next id task overtaken he =>
    have hovertaken : overtaken = false := hmeets _ he
    obtain ⟨hid, hstored⟩ := h.extensions _ (List.mem_of_getElem? he) task rfl
    have hrest : ({ s with extensions := s.extensions.eraseIdx i } : System τ).Sane := by
      refine ⟨h.keyed, fun e he' => ?_, h.entries, h.sound.gone, h.sound.returns⟩
      exact h.extensions e (List.mem_of_mem_eraseIdx he')
    apply hrest.put
    apply h.not_gone
    rw [show (extended now task).id = id from hid]
    exact hstored hovertaken
  · exact h

/-- The runs, the ended loop and the new extensions without a copy concern no stored task. -/
theorem Sane.of_store_eq (h : s.Sane) {s' : System τ} (hstore : s'.store = s.store)
    (hgone : s'.gone = s.gone) (hreturns : s'.returns = s.returns)
    (hextensions : ∀ e ∈ s'.extensions, e ∈ s.extensions ∨ e.copy = none)
    (hloop : ∀ remaining tasks, s'.loop = .grabbing remaining tasks →
      s.loop = .grabbing remaining tasks) : s'.Sane where
  keyed := hstore ▸ h.keyed
  extensions := by
    intro e he task htask
    rw [hstore]
    cases hextensions e he with
    | inl he => exact h.extensions e he task htask
    | inr hnone =>
      rw [hnone] at htask
      cases htask
  entries := by
    intro remaining tasks hgrabbing
    rw [hstore]
    exact h.entries remaining tasks (hloop remaining tasks hgrabbing)
  sound := by
    constructor
    · rw [hstore, hgone]
      exact h.sound.gone
    · rw [hreturns]
      exact h.sound.returns

theorem Sane.endRun (h : s.Sane) (i : Nat) (run : Run τ)
    (failure : Option (ManagedResumableTask τ)) : (s.endRun i run failure).Sane := by
  refine h.of_store_eq rfl rfl rfl ?_ ?_
  · intro e he
    exact Or.inl he
  · intro remaining tasks hgrabbing
    simp only [System.endRun] at hgrabbing
    split at hgrabbing
    · cases hloop : s.loop with
      | grabbing remaining₀ tasks₀ =>
        rw [hloop] at hgrabbing
        exact hgrabbing
      | idle => rw [hloop] at hgrabbing; cases hgrabbing
      | retrying waiting failed => rw [hloop] at hgrabbing; cases hgrabbing
      | executing waiting failed => rw [hloop] at hgrabbing; cases hgrabbing
      | stopped => rw [hloop] at hgrabbing; cases hgrabbing
    · exact hgrabbing

theorem Sane.grab (h : s.Sane) : s.grab.Sane := by
  unfold System.grab
  split
  · refine ⟨h.keyed, h.extensions, ?_, h.sound.gone, h.sound.returns⟩
    intro remaining tasks hloop e he _
    cases hloop
    obtain ⟨⟨key, task⟩, hentry, rfl⟩ := List.mem_map.mp he
    have hget := (Level.mem_entries.mp hentry).1
    rw [show task.id = key from h.keyed key task hget]
    exact hget
  · exact h

theorem grabReturns_ne (tasks : List (ManagedResumableTask τ)) (remaining : List (Entry τ))
    (tasks' : List (ManagedResumableTask τ)) : Loop.grabReturns tasks ≠ .grabbing remaining tasks' := by
  intro h
  unfold Loop.grabReturns at h
  split at h
  · cases h
  · cases h

theorem Sane.grabNext (h : s.Sane) (hmeets : s.Meets now .grabNext) : (s.grabNext now).Sane := by
  unfold System.grabNext
  split
  next tasks hloop =>
    refine h.of_store_eq rfl rfl rfl (fun e he => Or.inl he) ?_
    intro remaining tasks' hgrabbing
    exact absurd hgrabbing (grabReturns_ne tasks remaining tasks')
  next entry remaining tasks hloop =>
    have hentries := h.entries _ _ hloop
    split
    next hexpired =>
      have hovertaken : entry.overtaken = false := by
        apply hmeets entry _ hexpired
        rw [hloop]
        rfl
      have hstored := hentries entry List.mem_cons_self hovertaken
      dsimp only
      generalize hnext : (if resumableTaskBatchSize ≤ (tasks ++ [grabbed now entry.copy]).length then
        Loop.grabReturns (tasks ++ [grabbed now entry.copy])
        else .grabbing remaining (tasks ++ [grabbed now entry.copy])) = next
      apply Sane.put
      · refine ⟨h.keyed, h.extensions, ?_, h.sound.gone, ?_⟩
        · intro remaining' tasks' hgrabbing e he
          rw [← hnext] at hgrabbing
          split at hgrabbing
          · exact absurd hgrabbing (grabReturns_ne _ _ _)
          · cases hgrabbing
            exact hentries e (List.mem_cons_of_mem _ he)
        · rw [List.pairwise_append]
          refine ⟨h.sound.returns, List.pairwise_singleton _ _, ?_⟩
          intro earlier _ later hlater _
          cases List.mem_singleton.mp hlater
          refine ⟨entry.copy.timeout, ?_, hexpired⟩
          show (Level.get s.store entry.copy.id).map (·.timeout) = some entry.copy.timeout
          rw [hstored]
          rfl
      · apply h.not_gone
        show (Level.get s.store entry.copy.id).isSome = true
        rw [hstored]
        rfl
    · refine ⟨h.keyed, h.extensions, ?_, h.sound.gone, h.sound.returns⟩
      intro remaining' tasks' hgrabbing e he
      cases hgrabbing
      exact hentries e (List.mem_cons_of_mem _ he)
  · exact h

theorem Sane.step (h : s.Sane) (computeCid : τ → String) {event : Event τ}
    (hmeets : s.Meets now event) : (s.step computeCid now event).Sane := by
  cases event with
  | run task => exact h.register computeCid task
  | fire i =>
    simp only [System.step, System.fire]
    split
    · exact h
    · refine h.of_store_eq rfl rfl rfl ?_ fun _ _ hloop => hloop
      intro e he
      cases List.mem_append.mp he with
      | inl he => exact Or.inl he
      | inr he =>
        cases List.mem_singleton.mp he
        exact Or.inr rfl
  | extendRead i => exact h.extendRead i
  | extendWrite i => exact h.extendWrite hmeets
  | handlerReturns i =>
    simp only [System.step, System.handlerReturns]
    split
    · exact h.of_store_eq rfl rfl rfl (fun _ he => Or.inl he) fun _ _ hloop => hloop
    · exact h
  | handlerThrows i =>
    simp only [System.step, System.handlerThrows]
    split
    · split
      · exact h.endRun i _ _
      · exact h
    · exact h
  | delete i =>
    simp only [System.step, System.delete]
    split
    · split
      · exact (h.erase _).endRun i _ _
      · exact h
    · exact h
  | grab => exact h.grab
  | grabNext => exact h.grabNext hmeets
  | resume =>
    simp only [System.step, System.resume]
    -- No state of the loop after this step is a grab.
    split
    · exact h.of_store_eq rfl rfl rfl (fun _ he => Or.inl he) fun _ _ hloop => nomatch hloop
    · exact h.of_store_eq rfl rfl rfl (fun _ he => Or.inl he) fun _ _ hloop => nomatch hloop
    · exact h.of_store_eq rfl rfl rfl (fun _ he => Or.inl he) fun _ _ hloop => nomatch hloop
    · exact h
  | read taskId => exact h

theorem Sane.run (h : s.Sane) (computeCid : τ → String) (events : List (Nat × Event τ))
    (hmeets : s.MeetsAll computeCid events) : (s.run computeCid events).Sane := by
  induction events generalizing s with
  | nil => exact h
  | cons event rest ih =>
    obtain ⟨now, event⟩ := event
    exact ih (h.step computeCid hmeets.1) hmeets.2

end System

/-- In every state of a run in which no write-back is overtaken, a deleted task stays away and no
task was handed out twice before its timeout. -/
theorem run_sound (computeCid : τ → String) (events : List (Nat × Event τ))
    (hmeets : ({} : System τ).MeetsAll computeCid events) :
    (({} : System τ).run computeCid events).Sound :=
  (System.sane_initial.run computeCid events hmeets).sound

/-- A task that is extended once and then completes. -/
def extendedOnce : List (Nat × Event String) :=
  [(0, .run "prune"), (30000, .fire 0), (30000, .extendRead 0), (30001, .extendWrite 0),
    (40000, .handlerReturns 0), (40001, .delete 0)]

theorem run_sound_extendedOnce :
    (({} : System String).run id extendedOnce).Sound ∧
      (({} : System String).run id extendedOnce).gone = ["prune"] :=
  ⟨run_sound id extendedOnce (by decide), by decide⟩

/-- The extension has read the task when the run completes, and writes it back afterwards. -/
def overtakenExtension : List (Nat × Event String) :=
  [(0, .run "prune"), (30000, .fire 0), (30000, .extendRead 0), (30000, .handlerReturns 0),
    (30001, .delete 0), (30002, .extendWrite 0)]

theorem deleted_task_reappears : ¬ (({} : System String).run id overtakenExtension).Sound := by
  intro h
  have hgone := h.gone "prune" (by decide)
  revert hgone
  decide

end ResumableTasks

end EnboxDwn
