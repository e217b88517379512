import EnboxDwn.Lib.Process

/-! Calls that keep a state of their own between their operations and can be given up with an error,
the state being kept then as well. -/
namespace Process
variable {Op : Type} {Answer : Op → Type} {σ ε α β : Type}

/-! ## Every process ends -/

def follow (environment : Trace Op Answer → (op : Op) → Answer op) :
    Process Op Answer α → Trace Op Answer × α
  | done a => ([], a)
  | ask op next =>
    let answer := environment [] op
    let (trace, a) := follow (fun before => environment (⟨op, answer⟩ :: before)) (next answer)
    (⟨op, answer⟩ :: trace, a)

abbrev Routine (Op : Type) (Answer : Op → Type) (σ ε α : Type) :=
  ExceptT ε (StateT σ (Process Op Answer)) α

/-- The routine goes from one state to another with these answers. -/
def Goes (x : Routine Op Answer σ ε α) (s : σ) (trace : Trace Op Answer) (r : Except ε α) (s' : σ) :
    Prop :=
  Runs (x.run.run s) trace (r, s')

def perform (op : Op) : Routine Op Answer σ ε (Answer op) :=
  ExceptT.lift (StateT.lift (ask op done))

theorem goes_pure {a : α} {s s' : σ} {trace : Trace Op Answer} {r : Except ε α} :
    Goes (pure a : Routine Op Answer σ ε α) s trace r s' ↔ trace = [] ∧ r = .ok a ∧ s' = s := by
  constructor
  · intro h
    obtain ⟨htrace, hresult⟩ := runs_done h
    cases hresult
    exact ⟨htrace, rfl, rfl⟩
  · rintro ⟨rfl, rfl, rfl⟩
    exact .done _

theorem goes_throw {e : ε} {s s' : σ} {trace : Trace Op Answer} {r : Except ε α} :
    Goes (throw e : Routine Op Answer σ ε α) s trace r s' ↔
      trace = [] ∧ r = .error e ∧ s' = s := by
  constructor
  · intro h
    obtain ⟨htrace, hresult⟩ := runs_done h
    cases hresult
    exact ⟨htrace, rfl, rfl⟩
  · rintro ⟨rfl, rfl, rfl⟩
    exact .done _

theorem goes_get_bind {f : σ → Routine Op Answer σ ε β} {s s' : σ} {trace : Trace Op Answer}
    {r : Except ε β} : Goes (get >>= f) s trace r s' ↔ Goes (f s) s trace r s' := Iff.rfl

theorem goes_modify_bind {g : σ → σ} {f : PUnit → Routine Op Answer σ ε β} {s s' : σ}
    {trace : Trace Op Answer} {r : Except ε β} :
    Goes (modify g >>= f) s trace r s' ↔ Goes (f ⟨⟩) (g s) trace r s' := Iff.rfl

theorem goes_perform_bind {op : Op} {f : Answer op → Routine Op Answer σ ε β} {s s' : σ}
    {trace : Trace Op Answer} {r : Except ε β} :
    Goes (perform op >>= f) s trace r s' ↔
      ∃ answer rest, trace = ⟨op, answer⟩ :: rest ∧ Goes (f answer) s rest r s' := by
  constructor
  · intro h
    exact runs_ask h
  · rintro ⟨answer, rest, rfl, h⟩
    exact .ask answer h

/-- A routine in two parts ends with its first part, or goes on with the second. -/
theorem goes_bind {x : Routine Op Answer σ ε α} {f : α → Routine Op Answer σ ε β} {s s' : σ}
    {trace : Trace Op Answer} {r : Except ε β} (h : Goes (x >>= f) s trace r s') :
    (∃ e, r = .error e ∧ Goes x s trace (.error e) s') ∨
    ∃ first rest a s₁, trace = first ++ rest ∧ Goes x s first (.ok a) s₁ ∧
      Goes (f a) s₁ rest r s' := by
  obtain ⟨first, rest, ⟨result, s₁⟩, rfl, hfirst, hrest⟩ := runs_bind h
  cases result with
  | ok a => exact Or.inr ⟨first, rest, a, s₁, rfl, hfirst, hrest⟩
  | error e =>
    obtain ⟨rfl, hresult⟩ := runs_done hrest
    cases hresult
    exact Or.inl ⟨e, rfl, by rwa [List.append_nil]⟩

/-! ## What every routine of a kind keeps -/

/-- A relation between the states around a stretch of the trace that holds of stretches one after
the other when it holds of each. -/
structure Composable (R : σ → Trace Op Answer → σ → Prop) : Prop where
  refl : ∀ s, R s [] s
  trans : ∀ {s s₁ s' first rest}, R s first s₁ → R s₁ rest s' → R s (first ++ rest) s'

/-- However the routine ends, its states and its trace are so related. -/
def Keeps (R : σ → Trace Op Answer → σ → Prop) (x : Routine Op Answer σ ε α) : Prop :=
  ∀ s trace r s', Goes x s trace r s' → R s trace s'

/-- What the routine returns has the property. -/
def Returns (Q : α → Prop) (x : Routine Op Answer σ ε α) : Prop :=
  ∀ s trace a s', Goes x s trace (.ok a) s' → Q a

variable {R : σ → Trace Op Answer → σ → Prop}

theorem keeps_pure (hR : Composable R) (a : α) : Keeps R (pure a : Routine Op Answer σ ε α) := by
  intro s trace r s' h
  obtain ⟨rfl, -, rfl⟩ := goes_pure.mp h
  exact hR.refl s'

theorem keeps_throw (hR : Composable R) (e : ε) : Keeps R (throw e : Routine Op Answer σ ε α) := by
  intro s trace r s' h
  obtain ⟨rfl, -, rfl⟩ := goes_throw.mp h
  exact hR.refl s'

theorem keeps_bind (hR : Composable R) {x : Routine Op Answer σ ε α}
    {f : α → Routine Op Answer σ ε β} (hx : Keeps R x) (hf : ∀ a, Keeps R (f a)) :
    Keeps R (x >>= f) := by
  intro s trace r s' h
  obtain ⟨e, -, hfirst⟩ | ⟨first, rest, a, s₁, rfl, hfirst, hrest⟩ := goes_bind h
  · exact hx _ _ _ _ hfirst
  · exact hR.trans (hx _ _ _ _ hfirst) (hf a _ _ _ _ hrest)

theorem keeps_get_bind {f : σ → Routine Op Answer σ ε β}
    (hf : ∀ s trace r s', Goes (f s) s trace r s' → R s trace s') : Keeps R (get >>= f) :=
  fun s trace r s' h => hf s trace r s' (goes_get_bind.mp h)

theorem keeps_perform_bind (hR : Composable R) {op : Op} {f : Answer op → Routine Op Answer σ ε β}
    (hop : ∀ s answer, R s [⟨op, answer⟩] s) (hf : ∀ answer, Keeps R (f answer)) :
    Keeps R (perform op >>= f) := by
  intro s trace r s' h
  obtain ⟨answer, rest, rfl, hrest⟩ := goes_perform_bind.mp h
  exact hR.trans (hop s answer) (hf answer _ _ _ _ hrest)

theorem returns_pure {Q : α → Prop} {a : α} (h : Q a) :
    Returns Q (pure a : Routine Op Answer σ ε α) := by
  intro s trace b s' hgoes
  obtain ⟨-, hb, -⟩ := goes_pure.mp hgoes
  cases hb
  exact h

theorem returns_throw (Q : α → Prop) (e : ε) : Returns Q (throw e : Routine Op Answer σ ε α) := by
  intro s trace b s' hgoes
  obtain ⟨-, hb, -⟩ := goes_throw.mp hgoes
  cases hb

theorem returns_bind {Q : β → Prop} {x : Routine Op Answer σ ε α}
    {f : α → Routine Op Answer σ ε β} (hf : ∀ a, Returns Q (f a)) : Returns Q (x >>= f) := by
  intro s trace b s' h
  obtain ⟨e, hr, -⟩ | ⟨first, rest, a, s₁, -, -, hrest⟩ := goes_bind h
  · cases hr
  · exact hf a _ _ _ _ hrest

theorem returns_bind_of {P : α → Prop} {Q : β → Prop} {x : Routine Op Answer σ ε α}
    {f : α → Routine Op Answer σ ε β} (hx : Returns P x) (hf : ∀ a, P a → Returns Q (f a)) :
    Returns Q (x >>= f) := by
  intro s trace b s' h
  obtain ⟨e, hr, -⟩ | ⟨first, rest, a, s₁, -, hfirst, hrest⟩ := goes_bind h
  · cases hr
  · exact hf a (hx _ _ _ _ hfirst) _ _ _ _ hrest

end Process
