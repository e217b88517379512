import Mathlib.Data.List.Basic

/-! Programs that read sequences whose elements come one after another, until the sequence ends or
fails. The failures that a program runs into are logged, whether or not the program handles them,
and the program's own state outlives what it throws. -/
namespace Scan

structure Sequence (α ε : Type) where
  elements : List α
  failure : Option ε := none

/-- The number of scans opened so far, the failures in which scans ended, and the program's state. -/
structure World (ε σ : Type) where
  turn : Nat
  failures : List ε
  state : σ

/-- What a scan yields may depend on how many scans came before it. -/
abbrev Environment (ρ α ε : Type) := Nat → ρ → Sequence α ε

abbrev Program (ε σ α : Type) := ExceptT ε (StateM (World ε σ)) α

section Programs
variable {ρ α β δ ε σ : Type}

/-- A loop over the elements, left as soon as its body is done. -/
def fold (body : δ → α → ForInStep δ) : List α → δ → ForInStep δ
  | [], d => .yield d
  | a :: as, d =>
    match body d a with
    | .yield d' => fold body as d'
    | .done d' => .done d'

/-- A loop that is left early does not see how the sequence ends. -/
def forEach (env : Environment ρ α ε) (request : ρ) (init : δ) (body : δ → α → ForInStep δ) :
    Program ε σ δ :=
  ExceptT.mk fun w =>
    let sequence := env w.turn request
    match fold body sequence.elements init, sequence.failure with
    | .done d, _ => (.ok d, { w with turn := w.turn + 1 })
    | .yield d, none => (.ok d, { w with turn := w.turn + 1 })
    | .yield _, some e => (.error e, ⟨w.turn + 1, w.failures ++ [e], w.state⟩)

def compute (x : ExceptT ε (StateM σ) α) : Program ε σ α :=
  ExceptT.mk fun w => ((x.run w.state).1, { w with state := (x.run w.state).2 })

/-- What the program comes to, and the failures that it ran into. -/
def outcome (x : Program ε σ α) (init : σ) : Except ε α × List ε :=
  ((x.run ⟨0, [], init⟩).1, (x.run ⟨0, [], init⟩).2.failures)

theorem run_bind (x : Program ε σ α) (f : α → Program ε σ β) (w : World ε σ) :
    (x >>= f).run w = match x.run w with
      | (.ok a, w') => (f a).run w'
      | (.error e, w') => (.error e, w') := by
  change (ExceptT.bind x f).run w = _
  unfold ExceptT.bind
  dsimp only [ExceptT.run, ExceptT.mk, bind, StateT.bind]
  generalize x w = out
  obtain ⟨found, w'⟩ := out
  cases found with
  | ok a => rfl
  | error e => rfl

theorem run_tryCatch (x : Program ε σ α) (handler : ε → Program ε σ α) (w : World ε σ) :
    (tryCatch x handler).run w = match x.run w with
      | (.ok a, w') => (.ok a, w')
      | (.error e, w') => (handler e).run w' := by
  change (ExceptT.tryCatch x handler).run w = _
  unfold ExceptT.tryCatch
  dsimp only [ExceptT.run, ExceptT.mk, bind, StateT.bind]
  generalize x w = out
  obtain ⟨found, w'⟩ := out
  cases found with
  | ok a => rfl
  | error e => rfl

/-! ## Programs that hand on every failure -/

/-- A failure ends the program, as what it throws. -/
def HandsOn (x : Program ε σ α) : Prop :=
  ∀ w, match x.run w with
    | (.ok _, w') => w'.failures = w.failures
    | (.error e, w') => w'.failures = w.failures ∨ w'.failures = w.failures ++ [e]

theorem handsOn_forEach (env : Environment ρ α ε) (request : ρ) (init : δ)
    (body : δ → α → ForInStep δ) : HandsOn (σ := σ) (forEach env request init body) := by
  intro w
  unfold forEach
  dsimp only [ExceptT.run, ExceptT.mk]
  cases fold body (env w.turn request).elements init with
  | done d => rfl
  | yield d =>
    cases (env w.turn request).failure with
    | none => rfl
    | some e => exact Or.inr rfl

theorem HandsOn.outcome {x : Program ε σ α} (h : HandsOn x) {init : σ} {e : ε}
    (he : e ∈ (outcome x init).2) : (Scan.outcome x init).1 = .error e := by
  have hfirst := h ⟨0, [], init⟩
  unfold Scan.outcome at he ⊢
  generalize x.run ⟨0, [], init⟩ = out at hfirst he ⊢
  obtain ⟨found, w'⟩ := out
  cases found with
  | ok a => simp_all
  | error e' =>
    obtain hnone | hone := hfirst
    · simp_all
    · have : e = e' := by simpa [hone] using he
      rw [this]

/-! ## Programs whose scans all reach the end -/

/-- The environment in which every scan reads the same content to its end. -/
def complete (content : ρ → List α) : Environment ρ α ε := fun _ request => ⟨content request, none⟩

end Programs

end Scan
