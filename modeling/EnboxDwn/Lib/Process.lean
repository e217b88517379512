import Mathlib.Data.List.Induction

/-! Calls that work on a shared store and wait between their operations. What a call does next may
depend on every answer; between two of its operations any other call may go on. -/

/-- A call: its result, or its next operation and how it goes on with the answer. -/
inductive Process (Op : Type) (Answer : Op → Type) (α : Type) where
  | done (a : α)
  | ask (op : Op) (next : Answer op → Process Op Answer α)

namespace Process

section Programs
variable {Op : Type} {Answer : Op → Type} {α β : Type}

protected def bind : Process Op Answer α → (α → Process Op Answer β) → Process Op Answer β
  | done a, f => f a
  | ask op next, f => ask op fun answer => (next answer).bind f

instance : Monad (Process Op Answer) where
  pure := done
  bind := Process.bind

/-- The operation that the process is about to do. -/
def next? : Process Op Answer α → Option Op
  | done _ => none
  | ask op _ => some op

def via {Op' : Type} {Answer' : Op' → Type} (f : (op : Op) → Process Op' Answer' (Answer op)) :
    Process Op Answer α → Process Op' Answer' α
  | done a => done a
  | ask op next => f op >>= fun answer => (next answer).via f

/-! ## Complete runs -/

abbrev Trace (Op : Type) (Answer : Op → Type) := List (Sigma Answer)

/-- With these answers the process comes to this result. -/
inductive Runs : Process Op Answer α → Trace Op Answer → α → Prop
  | done (a : α) : Runs (done a) [] a
  | ask {op : Op} {next : Answer op → Process Op Answer α} {trace : Trace Op Answer} {a : α}
      (answer : Answer op) (h : Runs (next answer) trace a) :
      Runs (ask op next) (⟨op, answer⟩ :: trace) a

theorem runs_done {a b : α} {trace : Trace Op Answer} (h : Runs (done a) trace b) :
    trace = [] ∧ b = a := by
  cases h
  exact ⟨rfl, rfl⟩

theorem runs_ask {op : Op} {next : Answer op → Process Op Answer α} {trace : Trace Op Answer}
    {a : α} (h : Runs (ask op next) trace a) :
    ∃ answer rest, trace = ⟨op, answer⟩ :: rest ∧ Runs (next answer) rest a := by
  cases h with
  | ask answer h => exact ⟨answer, _, rfl, h⟩

theorem runs_bind {x : Process Op Answer α} {f : α → Process Op Answer β}
    {trace : Trace Op Answer} {b : β} (h : Runs (x >>= f) trace b) :
    ∃ first rest a, trace = first ++ rest ∧ Runs x first a ∧ Runs (f a) rest b := by
  induction x generalizing trace with
  | done a => exact ⟨[], trace, a, rfl, .done a, h⟩
  | ask op next ih =>
    obtain ⟨answer, tail, rfl, hnext⟩ := runs_ask h
    obtain ⟨first, rest, a, rfl, hfirst, hrest⟩ := ih answer hnext
    exact ⟨⟨op, answer⟩ :: first, rest, a, rfl, .ask answer hfirst, hrest⟩

/-! ## What a process asks -/

/-- Whatever is answered, every operation has the property. -/
def Asks (p : Op → Prop) : Process Op Answer α → Prop
  | done _ => True
  | ask op next => p op ∧ ∀ answer, Asks p (next answer)

theorem Asks.mono {p q : Op → Prop} {x : Process Op Answer α} (h : Asks p x)
    (himp : ∀ op, p op → q op) : Asks q x := by
  induction x with
  | done a => trivial
  | ask op next ih => exact ⟨himp op h.1, fun answer => ih answer (h.2 answer)⟩

theorem asks_of_forall {p : Op → Prop} (h : ∀ op, p op) (x : Process Op Answer α) : Asks p x := by
  induction x with
  | done a => trivial
  | ask op next ih => exact ⟨h op, ih⟩

theorem asks_bind {p : Op → Prop} {x : Process Op Answer α} {f : α → Process Op Answer β}
    (hx : Asks p x) (hf : ∀ a, Asks p (f a)) : Asks p (x >>= f) := by
  induction x with
  | done a => exact hf a
  | ask op next ih => exact ⟨hx.1, fun answer => ih answer (hx.2 answer)⟩

theorem asks_except_bind {ε : Type} {p : Op → Prop} {x : ExceptT ε (Process Op Answer) α}
    {f : α → ExceptT ε (Process Op Answer) β} (hx : Asks p x.run) (hf : ∀ a, Asks p (f a).run) :
    Asks p (x >>= f).run := by
  apply asks_bind hx
  intro result
  cases result with
  | ok a => exact hf a
  | error e => trivial

theorem asks_via {Op' : Type} {Answer' : Op' → Type} {p : Op → Prop} {q : Op' → Prop}
    {f : (op : Op) → Process Op' Answer' (Answer op)} {x : Process Op Answer α} (hx : Asks p x)
    (hf : ∀ op, p op → Asks q (f op)) : Asks q (x.via f) := by
  induction x with
  | done a => trivial
  | ask op next ih => exact asks_bind (hf op hx.1) fun answer => ih answer (hx.2 answer)

/-! ## Processes that keep a discipline -/

/-- A discipline: which answers there can be, what an answer teaches, and what may be done next by
one who has just learned that. -/
structure Discipline (Op : Type) (Answer : Op → Type) (γ : Type) where
  possible : (op : Op) → Answer op → Prop
  learned : (op : Op) → Answer op → γ
  allowed : γ → Op → Prop

namespace Discipline
variable {γ : Type} (d : Discipline Op Answer γ)

/-- Every operation is allowed by what the answer before it has taught. -/
def Follows : γ → Process Op Answer α → Prop
  | _, done _ => True
  | g, ask op next =>
    d.allowed g op ∧ ∀ answer, d.possible op answer → Follows (d.learned op answer) (next answer)

/-- The discipline is kept whatever was learned before. -/
def Safe (x : Process Op Answer α) : Prop := ∀ g, d.Follows g x

variable {d}

theorem safe_done (a : α) : d.Safe (done a : Process Op Answer α) := fun _ => trivial

theorem safe_ask {op : Op} {next : Answer op → Process Op Answer α} (hop : ∀ g, d.allowed g op)
    (hnext : ∀ answer, d.possible op answer → d.Follows (d.learned op answer) (next answer)) :
    d.Safe (ask op next) :=
  fun g => ⟨hop g, hnext⟩

theorem follows_bind {x : Process Op Answer α} {f : α → Process Op Answer β} {g : γ}
    (hx : d.Follows g x) (hf : ∀ a, d.Safe (f a)) : d.Follows g (x >>= f) := by
  induction x generalizing g with
  | done a => exact hf a g
  | ask op next ih => exact ⟨hx.1, fun answer hanswer => ih answer (hx.2 answer hanswer)⟩

theorem safe_bind {x : Process Op Answer α} {f : α → Process Op Answer β} (hx : d.Safe x)
    (hf : ∀ a, d.Safe (f a)) : d.Safe (x >>= f) :=
  fun g => follows_bind (hx g) hf

/-- What was learned matters for the next operation only. -/
theorem Follows.weaken {x : Process Op Answer α} {g g' : γ} (h : d.Follows g x)
    (hnext : ∀ op, x.next? = some op → d.allowed g' op) : d.Follows g' x := by
  cases x with
  | done a => trivial
  | ask op next => exact ⟨hnext op rfl, h.2⟩

end Discipline

end Programs

/-! ## Calls that an operation can reject -/

section Calls
variable {Op : Type} {Result : Op → Type} {ε α β : Type}

abbrev Call (Op : Type) (Result : Op → Type) (ε α : Type) :=
  ExceptT ε (Process Op fun op => Except ε (Result op)) α

def call (op : Op) : Call Op Result ε (Result op) := ExceptT.mk (ask op done)

/-- The cleanup is done however the call ends. -/
def ensuring (x : Call Op Result ε α) (cleanup : Call Op Result ε Unit) : Call Op Result ε α :=
  ExceptT.mk (x.run >>= fun result => cleanup.run >>= fun _ => pure result)

theorem runs_call {op : Op} {trace : Trace Op fun op => Except ε (Result op)} {a : Result op}
    (h : Runs (call op : Call Op Result ε (Result op)).run trace (.ok a)) :
    trace = [⟨op, .ok a⟩] := by
  obtain ⟨answer, rest, rfl, hrest⟩ := runs_ask h
  obtain ⟨rfl, rfl⟩ := runs_done hrest
  rfl

theorem runs_pure {a b : α} {trace : Trace Op fun op => Except ε (Result op)}
    (h : Runs (pure a : Call Op Result ε α).run trace (.ok b)) : trace = [] ∧ b = a := by
  obtain ⟨htrace, hresult⟩ := runs_done h
  exact ⟨htrace, Except.ok.inj hresult⟩

/-- A call that is not rejected was not rejected on its way. -/
theorem runs_call_bind {x : Call Op Result ε α} {f : α → Call Op Result ε β}
    {trace : Trace Op fun op => Except ε (Result op)} {b : β}
    (h : Runs (x >>= f).run trace (.ok b)) :
    ∃ first rest a, trace = first ++ rest ∧ Runs x.run first (.ok a) ∧
      Runs (f a).run rest (.ok b) := by
  obtain ⟨first, rest, result, rfl, hfirst, hrest⟩ := runs_bind h
  cases result with
  | ok a => exact ⟨first, rest, a, rfl, hfirst, hrest⟩
  | error e =>
    obtain ⟨-, hresult⟩ := runs_done hrest
    cases hresult

namespace Discipline
variable {γ : Type} {d : Discipline Op (fun op => Except ε (Result op)) γ}

theorem safe_pure (a : α) : d.Safe (pure a : Call Op Result ε α).run := safe_done _

theorem safe_call {op : Op} (hop : ∀ g, d.allowed g op) :
    d.Safe (call op : Call Op Result ε (Result op)).run :=
  safe_ask hop fun _ _ => trivial

theorem safe_call_bind {x : Call Op Result ε α} {f : α → Call Op Result ε β} (hx : d.Safe x.run)
    (hf : ∀ a, d.Safe (f a).run) : d.Safe (x >>= f).run := by
  apply safe_bind hx
  intro result
  cases result with
  | ok a => exact hf a
  | error e => exact safe_done _

/-- The rest of a call may use what its first operation has taught. -/
theorem safe_ask_bind {op : Op} {f : Result op → Call Op Result ε β} (hop : ∀ g, d.allowed g op)
    (hf : ∀ a, d.possible op (.ok a) → d.Follows (d.learned op (.ok a)) (f a).run) :
    d.Safe (call op >>= f : Call Op Result ε β).run := by
  apply safe_ask hop
  intro answer hanswer
  cases answer with
  | ok a => exact hf a hanswer
  | error e => exact safe_done _ _

theorem safe_ensuring {x : Call Op Result ε α} {cleanup : Call Op Result ε Unit}
    (hx : d.Safe x.run) (hcleanup : d.Safe cleanup.run) : d.Safe (ensuring x cleanup).run :=
  safe_bind hx fun _ => safe_bind hcleanup fun _ => safe_done _

theorem safe_forM {δ : Type} {f : δ → Call Op Result ε Unit} (xs : List δ)
    (h : ∀ x ∈ xs, d.Safe (f x).run) : d.Safe (xs.forM f).run := by
  induction xs with
  | nil => exact safe_pure ()
  | cons x xs ih =>
    exact safe_call_bind (h x List.mem_cons_self)
      fun _ => ih fun y hy => h y (List.mem_cons_of_mem _ hy)

theorem safe_foldlM {δ : Type} {f : β → δ → Call Op Result ε β} (xs : List δ) (b : β)
    (h : ∀ b x, d.Safe (f b x).run) : d.Safe (xs.foldlM f b).run := by
  induction xs generalizing b with
  | nil => exact safe_pure b
  | cons x xs ih => exact safe_call_bind (h b x) fun b' => ih b'

end Discipline

end Calls

/-! ## Calls under way together -/

section Pool
variable {ρ Op : Type} {Answer : Op → Type} {α σ : Type}

/-- A call under way: its request, what it has asked so far, and how it goes on. -/
structure Running (ρ Op : Type) (Answer : Op → Type) (α : Type) where
  request : ρ
  trace : Trace Op Answer := []
  process : Process Op Answer α

structure Pool (ρ Op : Type) (Answer : Op → Type) (α σ : Type) where
  store : σ
  running : List (Running ρ Op Answer α) := []

/-- What happens next: a new call, or the next operation of a call. What the store does not decide
of the answer is given. -/
inductive Event (ρ Op : Type) (Answer : Op → Type) where
  | start (request : ρ)
  | advance (n : Nat) (given : (op : Op) → Answer op)

variable (body : ρ → Process Op Answer α)
  (perform : (op : Op) → Answer op → σ → Option (Answer op × σ))

namespace Pool

/-- An operation that the store does not answer yet leaves everything as it is. -/
def step (w : Pool ρ Op Answer α σ) : Event ρ Op Answer → Pool ρ Op Answer α σ
  | .start request => { w with running := w.running ++ [⟨request, [], body request⟩] }
  | .advance n given =>
    match w.running[n]? with
    | some ⟨request, trace, .ask op next⟩ =>
      match perform op (given op) w.store with
      | some (answer, store) =>
        { store, running := w.running.set n ⟨request, trace ++ [⟨op, answer⟩], next answer⟩ }
      | none => w
    | _ => w

def run (w : Pool ρ Op Answer α σ) (events : List (Event ρ Op Answer)) : Pool ρ Op Answer α σ :=
  events.foldl (step body perform) w

theorem run_concat (w : Pool ρ Op Answer α σ) (events : List (Event ρ Op Answer))
    (e : Event ρ Op Answer) :
    run body perform w (events ++ [e]) = step body perform (run body perform w events) e := by
  simp [run]

variable {body perform}

/-- A step starts a call, performs one operation of one call, or does nothing. -/
theorem step_cases (w : Pool ρ Op Answer α σ) (e : Event ρ Op Answer) :
    step body perform w e = w ∨
    (∃ request, e = .start request ∧
      step body perform w e = { w with running := w.running ++ [⟨request, [], body request⟩] }) ∨
    ∃ n given request trace op next answer store, e = .advance n given ∧
      w.running[n]? = some ⟨request, trace, .ask op next⟩ ∧
      perform op (given op) w.store = some (answer, store) ∧
      step body perform w e =
        { store, running := w.running.set n ⟨request, trace ++ [⟨op, answer⟩], next answer⟩ } := by
  cases e with
  | start request => exact Or.inr (Or.inl ⟨request, rfl, rfl⟩)
  | advance n given =>
    unfold step
    dsimp only
    split
    · next request trace op next hn =>
      split
      · next answer store hperform =>
        exact Or.inr (Or.inr ⟨n, given, request, trace, op, next, answer, store, rfl, hn,
          hperform, rfl⟩)
      · exact Or.inl rfl
    · exact Or.inl rfl

/-- Every call goes on as its request began. -/
def Traced (body : ρ → Process Op Answer α) (w : Pool ρ Op Answer α σ) : Prop :=
  ∀ c ∈ w.running, ∀ trace a, Runs c.process trace a → Runs (body c.request) (c.trace ++ trace) a

theorem Traced.step {w : Pool ρ Op Answer α σ} (h : Traced body w) (e : Event ρ Op Answer) :
    Traced body (step body perform w e) := by
  obtain hsame | ⟨request, -, hstep⟩ |
    ⟨n, given, request, trace, op, next, answer, store, -, hn, -, hstep⟩ := step_cases w e
  · rw [hsame]
    exact h
  · rw [hstep]
    intro c hc rest a hrun
    obtain hmem | hnew := List.mem_append.mp hc
    · exact h c hmem rest a hrun
    · cases List.mem_singleton.mp hnew
      exact hrun
  · rw [hstep]
    intro c hc rest a hrun
    obtain hmem | rfl := List.mem_or_eq_of_mem_set hc
    · exact h c hmem rest a hrun
    · have hbefore := h _ (List.mem_of_getElem? hn) (⟨op, answer⟩ :: rest) a (.ask answer hrun)
      simpa using hbefore

theorem traced_run {w : Pool ρ Op Answer α σ} (h : Traced body w)
    (events : List (Event ρ Op Answer)) : Traced body (run body perform w events) := by
  induction events using List.reverseRecOn with
  | nil => exact h
  | append_singleton events e ih =>
    rw [run_concat]
    exact ih.step e

/-- A call that is over has run from its request to its result. -/
theorem Traced.runs {w : Pool ρ Op Answer α σ} (h : Traced body w)
    {c : Running ρ Op Answer α} (hc : c ∈ w.running) {a : α} (hdone : c.process = .done a) :
    Runs (body c.request) c.trace a := by
  have hrun := h c hc [] a (by rw [hdone]; exact .done a)
  rwa [List.append_nil] at hrun

/-- Each call has asked, and goes on to ask, only what its request may ask. -/
def Asking (p : ρ → Op → Prop) (w : Pool ρ Op Answer α σ) : Prop :=
  ∀ c ∈ w.running, Asks (p c.request) c.process ∧ ∀ x ∈ c.trace, p c.request x.1

theorem Asking.step {p : ρ → Op → Prop} {w : Pool ρ Op Answer α σ} (h : Asking p w)
    (hbody : ∀ request, Asks (p request) (body request)) (e : Event ρ Op Answer) :
    Asking p (step body perform w e) := by
  obtain hsame | ⟨request, -, hstep⟩ |
    ⟨n, given, request, trace, op, next, answer, store, -, hn, -, hstep⟩ := step_cases w e
  · rw [hsame]
    exact h
  · rw [hstep]
    intro c hc
    obtain hmem | hnew := List.mem_append.mp hc
    · exact h c hmem
    · cases List.mem_singleton.mp hnew
      exact ⟨hbody request, by simp⟩
  · rw [hstep]
    intro c hc
    obtain hmem | rfl := List.mem_or_eq_of_mem_set hc
    · exact h c hmem
    · obtain ⟨hasks, htrace⟩ := h _ (List.mem_of_getElem? hn)
      refine ⟨hasks.2 answer, fun x hx => ?_⟩
      obtain hx | hx := List.mem_append.mp hx
      · exact htrace x hx
      · cases List.mem_singleton.mp hx
        exact hasks.1

end Pool

end Pool

end Process
