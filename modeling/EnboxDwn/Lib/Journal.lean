import Mathlib.Data.List.Chain
import Mathlib.Logic.Relation
import Mathlib.Order.Defs.Unbundled

/-! Programs over a store whose mutations are atomic and leave a trail: the state
after each mutation, in order. A process that stops anywhere between two
mutations leaves the store in the start state or in a state of the trail. -/
namespace Journal
variable {σ ε α β : Type}

/-- What a run returns or throws, and the states it went through. -/
structure Run (σ ε α : Type) where
  result : Except ε α
  trail : List σ

def Program (σ ε α : Type) : Type := σ → Run σ ε α

namespace Program

def result (p : Program σ ε α) (s : σ) : Except ε α := (p s).result

def trail (p : Program σ ε α) (s : σ) : List σ := (p s).trail

/-- The state a run leaves behind, whether it returns or throws. -/
def final (p : Program σ ε α) (s : σ) : σ := (p.trail s).getLastD s

/-- The states in which a crash can leave the store. -/
def cuts (p : Program σ ε α) (s : σ) : List σ := s :: p.trail s

protected def pure (a : α) : Program σ ε α := fun _ => ⟨.ok a, []⟩

protected def bind (p : Program σ ε α) (f : α → Program σ ε β) : Program σ ε β := fun s =>
  match (p s).result with
  | .ok a => ⟨(f a (p.final s)).result, (p s).trail ++ (f a (p.final s)).trail⟩
  | .error e => ⟨.error e, (p s).trail⟩

instance : Monad (Program σ ε) where
  pure := Program.pure
  bind := Program.bind

def throw (e : ε) : Program σ ε α := fun _ => ⟨.error e, []⟩

def read (f : σ → α) : Program σ ε α := fun s => ⟨.ok (f s), []⟩

def ofExcept (r : Except ε α) : Program σ ε α := fun _ => ⟨r, []⟩

/-- A validation that reads the state and throws when it fails. -/
def check (f : σ → Except ε α) : Program σ ε α := fun s => ⟨f s, []⟩

/-- One atomic mutation, which may be refused and then changes nothing. -/
def mutate (f : σ → Except ε (α × σ)) : Program σ ε α := fun s =>
  match f s with
  | .ok (a, s') => ⟨.ok a, [s']⟩
  | .error e => ⟨.error e, []⟩

/-- Runs the body and hands its outcome to the program, as a `try` block does. -/
def attempt (p : Program σ ε α) : Program σ ε (Except ε α) := fun s =>
  ⟨.ok (p.result s), p.trail s⟩

def forEach (f : α → Program σ ε Unit) : List α → Program σ ε Unit
  | [] => pure ()
  | x :: xs => do f x; forEach f xs

section Equations
variable (s : σ)

@[simp] theorem result_pure (a : α) : (pure a : Program σ ε α).result s = .ok a := rfl
@[simp] theorem trail_pure (a : α) : (pure a : Program σ ε α).trail s = [] := rfl
@[simp] theorem final_pure (a : α) : (pure a : Program σ ε α).final s = s := rfl
@[simp] theorem result_throw (e : ε) : (throw e : Program σ ε α).result s = .error e := rfl
@[simp] theorem trail_throw (e : ε) : (throw e : Program σ ε α).trail s = [] := rfl
@[simp] theorem final_throw (e : ε) : (throw e : Program σ ε α).final s = s := rfl
@[simp] theorem result_read (f : σ → α) : (read f : Program σ ε α).result s = .ok (f s) := rfl
@[simp] theorem trail_read (f : σ → α) : (read f : Program σ ε α).trail s = [] := rfl
@[simp] theorem final_read (f : σ → α) : (read f : Program σ ε α).final s = s := rfl
@[simp] theorem result_ofExcept (r : Except ε α) :
    (ofExcept r : Program σ ε α).result s = r := rfl
@[simp] theorem trail_ofExcept (r : Except ε α) : (ofExcept r : Program σ ε α).trail s = [] := rfl
@[simp] theorem final_ofExcept (r : Except ε α) : (ofExcept r : Program σ ε α).final s = s := rfl
@[simp] theorem result_check (f : σ → Except ε α) :
    (check f : Program σ ε α).result s = f s := rfl
@[simp] theorem trail_check (f : σ → Except ε α) : (check f : Program σ ε α).trail s = [] := rfl
@[simp] theorem final_check (f : σ → Except ε α) : (check f : Program σ ε α).final s = s := rfl
@[simp] theorem result_attempt (p : Program σ ε α) :
    p.attempt.result s = .ok (p.result s) := rfl
@[simp] theorem trail_attempt (p : Program σ ε α) : p.attempt.trail s = p.trail s := rfl
@[simp] theorem final_attempt (p : Program σ ε α) : p.attempt.final s = p.final s := rfl

variable {s}

theorem result_mutate_ok {f : σ → Except ε (α × σ)} {a : α} {t : σ} (h : f s = .ok (a, t)) :
    (mutate f).result s = .ok a := by
  simp [result, mutate, h]

theorem trail_mutate_ok {f : σ → Except ε (α × σ)} {a : α} {t : σ} (h : f s = .ok (a, t)) :
    (mutate f).trail s = [t] := by
  simp [trail, mutate, h]

theorem final_mutate_ok {f : σ → Except ε (α × σ)} {a : α} {t : σ} (h : f s = .ok (a, t)) :
    (mutate f).final s = t := by
  simp [final, trail_mutate_ok h]

theorem result_mutate_error {f : σ → Except ε (α × σ)} {e : ε} (h : f s = .error e) :
    (mutate f).result s = .error e := by
  simp [result, mutate, h]

theorem trail_mutate_error {f : σ → Except ε (α × σ)} {e : ε} (h : f s = .error e) :
    (mutate f).trail s = [] := by
  simp [trail, mutate, h]

theorem final_mutate_error {f : σ → Except ε (α × σ)} {e : ε} (h : f s = .error e) :
    (mutate f).final s = s := by
  simp [final, trail_mutate_error h]

variable {p : Program σ ε α} {f : α → Program σ ε β} {a : α} {e : ε}

theorem result_bind_ok (h : p.result s = .ok a) :
    (p >>= f).result s = (f a).result (p.final s) := by
  have h' : (p s).result = .ok a := h
  simp only [result, bind, Program.bind, h']

theorem trail_bind_ok (h : p.result s = .ok a) :
    (p >>= f).trail s = p.trail s ++ (f a).trail (p.final s) := by
  have h' : (p s).result = .ok a := h
  simp only [trail, bind, Program.bind, h']

theorem final_bind_ok (h : p.result s = .ok a) :
    (p >>= f).final s = (f a).final (p.final s) := by
  simp [final, trail_bind_ok h]

theorem result_bind_error (h : p.result s = .error e) : (p >>= f).result s = .error e := by
  have h' : (p s).result = .error e := h
  simp only [result, bind, Program.bind, h']

theorem trail_bind_error (h : p.result s = .error e) : (p >>= f).trail s = p.trail s := by
  have h' : (p s).result = .error e := h
  simp only [trail, bind, Program.bind, h']

theorem trail_bind_ne_nil (h : p.trail s ≠ []) : (p >>= f).trail s ≠ [] := by
  cases hresult : p.result s with
  | ok a =>
    rw [trail_bind_ok hresult]
    exact fun hnil => h (List.append_eq_nil_iff.mp hnil).1
  | error e => rwa [trail_bind_error hresult]

theorem final_bind_error (h : p.result s = .error e) : (p >>= f).final s = p.final s := by
  simp only [final, trail_bind_error h]

theorem final_bind_silent (hf : ∀ a t, (f a).final t = t) : (p >>= f).final s = p.final s := by
  cases hp : p.result s with
  | error e => exact final_bind_error hp
  | ok a => rw [final_bind_ok hp, hf]

theorem final_bind_pure (p : Program σ ε α) (g : α → β) (s : σ) :
    (p >>= fun a => (pure (g a) : Program σ ε β)).final s = p.final s :=
  final_bind_silent fun _ _ => rfl

theorem bind_eq_ok {b : β} (h : (p >>= f).result s = .ok b) :
    ∃ a, p.result s = .ok a ∧ (f a).result (p.final s) = .ok b ∧
      (p >>= f).final s = (f a).final (p.final s) := by
  cases hp : p.result s with
  | error e => simp [result_bind_error hp] at h
  | ok a => exact ⟨a, rfl, by rwa [result_bind_ok hp] at h, final_bind_ok hp⟩

/-- A sequence throws when its first part does or when the second does after it. -/
theorem bind_eq_error (h : (p >>= f).result s = .error e) :
    (p.result s = .error e ∧ (p >>= f).final s = p.final s) ∨
    ∃ a, p.result s = .ok a ∧ (f a).result (p.final s) = .error e ∧
      (p >>= f).final s = (f a).final (p.final s) := by
  cases hp : p.result s with
  | error e' =>
    rw [result_bind_error hp] at h
    cases h
    exact Or.inl ⟨rfl, final_bind_error hp⟩
  | ok a => exact Or.inr ⟨a, rfl, by rwa [result_bind_ok hp] at h, final_bind_ok hp⟩

end Equations

/-! A program that changes nothing passes its value on. -/

section Apply
variable (s : σ)

theorem bind_apply {p : Program σ ε α} {a : α} (h : p s = ⟨.ok a, []⟩) (f : α → Program σ ε β) :
    (p >>= f) s = f a s := by
  have hfinal : p.final s = s := by simp [final, trail, h]
  change Program.bind p f s = f a s
  simp [Program.bind, h, hfinal]

theorem bind_congr_left {p q : Program σ ε α} (h : p s = q s) (f : α → Program σ ε β) :
    (p >>= f) s = (q >>= f) s := by
  have hfinal : p.final s = q.final s := by simp only [final, trail, h]
  change Program.bind p f s = Program.bind q f s
  simp only [Program.bind, h, hfinal]

theorem read_bind (f : σ → α) (g : α → Program σ ε β) : (read f >>= g) s = g (f s) s :=
  bind_apply s rfl g

end Apply

/-! Big steps: what a run that does not throw returns and where it ends. -/

structure Runs (p : Program σ ε α) (s : σ) (a : α) (t : σ) : Prop where
  result_eq : p.result s = .ok a
  final_eq : p.final s = t

section Runs
variable {s t u : σ} {a : α} {b : β} {p : Program σ ε α} {f : α → Program σ ε β}

theorem runs_pure (a : α) (s : σ) : Runs (pure a : Program σ ε α) s a s := ⟨rfl, rfl⟩

theorem runs_read (f : σ → α) (s : σ) : Runs (read f : Program σ ε α) s (f s) s := ⟨rfl, rfl⟩

theorem runs_ofExcept {r : Except ε α} (h : r = .ok a) (s : σ) : Runs (ofExcept r) s a s :=
  ⟨h, rfl⟩

theorem runs_check (f : σ → Except ε α) (h : f s = .ok a) : Runs (check f) s a s := ⟨h, rfl⟩

theorem runs_mutate {f : σ → Except ε (α × σ)} (h : f s = .ok (a, t)) : Runs (mutate f) s a t :=
  ⟨result_mutate_ok h, final_mutate_ok h⟩

theorem Runs.bind (hp : Runs p s a t) (hf : Runs (f a) t b u) : Runs (p >>= f) s b u := by
  refine ⟨?_, ?_⟩
  · rw [result_bind_ok hp.result_eq, hp.final_eq, hf.result_eq]
  · rw [final_bind_ok hp.result_eq, hp.final_eq, hf.final_eq]

theorem Runs.of_apply {q : Program σ ε α} (h : p s = q s) (hq : Runs q s a t) : Runs p s a t := by
  refine ⟨?_, ?_⟩
  · rw [result, h]
    exact hq.result_eq
  · rw [final, trail, h]
    exact hq.final_eq

theorem Runs.attempt (hp : Runs p s a t) : Runs p.attempt s (.ok a) t :=
  ⟨congrArg Except.ok hp.result_eq, hp.final_eq⟩

theorem Runs.final_bind (hp : Runs p s a t) : (p >>= f).final s = (f a).final t := by
  rw [final_bind_ok hp.result_eq, hp.final_eq]

end Runs

/-! Rules for what every state of a run satisfies. -/

/-- Every state the program passes through is related to the state it started from. -/
def Moves (R : σ → σ → Prop) (p : Program σ ε α) : Prop := ∀ s, ∀ t ∈ p.trail s, R s t

section Moves
variable {R : σ → σ → Prop}

theorem Moves.final [Std.Refl R] {p : Program σ ε α} (h : Moves R p) (s : σ) :
    R s (p.final s) := by
  unfold Program.final
  rcases List.eq_nil_or_concat (p.trail s) with ht | ⟨l, x, ht⟩
  · rw [ht]
    exact refl_of R s
  · simpa [ht] using h s x (by simp [ht])

theorem moves_pure (a : α) : Moves R (pure a : Program σ ε α) := by simp [Moves]

theorem moves_throw (e : ε) : Moves R (throw e : Program σ ε α) := by simp [Moves]

theorem moves_read (f : σ → α) : Moves R (read f : Program σ ε α) := by simp [Moves]

theorem moves_ofExcept (r : Except ε α) : Moves R (ofExcept r : Program σ ε α) := by simp [Moves]

theorem moves_check (f : σ → Except ε α) : Moves R (check f : Program σ ε α) := by simp [Moves]

theorem moves_mutate {f : σ → Except ε (α × σ)} (h : ∀ s a t, f s = .ok (a, t) → R s t) :
    Moves R (mutate f) := by
  intro s t ht
  cases hf : f s with
  | error e => simp [trail_mutate_error hf] at ht
  | ok r =>
    obtain ⟨a, t'⟩ := r
    simp only [trail_mutate_ok hf, List.mem_singleton] at ht
    exact ht ▸ h s a t' hf

theorem moves_bind [Std.Refl R] [IsTrans σ R] {p : Program σ ε α} {f : α → Program σ ε β}
    (hp : Moves R p) (hf : ∀ a, Moves R (f a)) : Moves R (p >>= f) := by
  intro s t ht
  cases hr : p.result s with
  | error e => exact hp s t (by simpa [trail_bind_error hr] using ht)
  | ok a =>
    rw [trail_bind_ok hr, List.mem_append] at ht
    rcases ht with ht | ht
    · exact hp s t ht
    · exact trans_of R (hp.final s) (hf a _ t ht)

theorem moves_forEach [Std.Refl R] [IsTrans σ R] {f : α → Program σ ε Unit}
    (hf : ∀ x, Moves R (f x)) (l : List α) : Moves R (forEach f l) := by
  induction l with
  | nil => exact moves_pure ()
  | cons x xs ih => exact moves_bind (hf x) fun _ => ih

end Moves

/-! Invariants: what holds in the start state and in every state of the trail. -/

/-- The relation an invariant induces between a state and the states after it. -/
def Keeping (Inv : σ → Prop) (s t : σ) : Prop := Inv s → Inv t

instance (Inv : σ → Prop) : Std.Refl (Keeping Inv) := ⟨fun _ h => h⟩

instance (Inv : σ → Prop) : IsTrans σ (Keeping Inv) := ⟨fun _ _ _ hst htu h => htu (hst h)⟩

abbrev Preserves (Inv : σ → Prop) (p : Program σ ε α) : Prop := Moves (Keeping Inv) p

section Preserves
variable {Inv : σ → Prop}

theorem Preserves.of_final {p : Program σ ε α} (h : Preserves Inv p) {s : σ} (hs : Inv s) :
    Inv (p.final s) :=
  h.final s hs

theorem preserves_mutate {f : σ → Except ε (α × σ)}
    (h : ∀ s a t, f s = .ok (a, t) → Inv s → Inv t) : Preserves Inv (mutate f) :=
  moves_mutate h

/-- What is read may be used to show that the rest keeps the invariant. -/
theorem preserves_read_bind {f : σ → α} {g : α → Program σ ε β}
    (h : ∀ s, Inv s → Preserves Inv (g (f s))) : Preserves Inv (read f >>= g) := by
  intro s t ht hs
  rw [trail_bind_ok (result_read s f)] at ht
  exact h s hs s t (by simpa using ht) hs

theorem preserves_forEach_mem {f : α → Program σ ε Unit} {l : List α}
    (hf : ∀ x ∈ l, Preserves Inv (f x)) : Preserves Inv (forEach f l) := by
  induction l with
  | nil => exact moves_pure ()
  | cons x xs ih =>
    exact moves_bind (hf x (by simp)) fun _ => ih fun y hy => hf y (by simp [hy])

end Preserves

/-! Triples about the state a run leaves behind, whether it returns or throws. -/

def Leads (Pre Post : σ → Prop) (p : Program σ ε α) : Prop := ∀ s, Pre s → Post (p.final s)

section Leads
variable {Pre Mid Post : σ → Prop}

theorem Preserves.leads {p : Program σ ε α} (h : Preserves Pre p) : Leads Pre Pre p :=
  fun _ hs => h.of_final hs

/-- What every value the program returns satisfies. -/
def Yields (Q : α → Prop) (p : Program σ ε α) : Prop := ∀ s a, p.result s = .ok a → Q a

section Yields
variable {Q : α → Prop} {R : β → Prop}

theorem yields_pure {a : α} (h : Q a) : Yields Q (pure a : Program σ ε α) := by
  intro s a' ha
  cases ha
  exact h

theorem yields_throw (e : ε) : Yields Q (throw e : Program σ ε α) := by
  intro s a ha
  cases ha

theorem yields_check {f : σ → Except ε α} (h : ∀ s a, f s = .ok a → Q a) : Yields Q (check f) := h

theorem yields_bind {p : Program σ ε α} {f : α → Program σ ε β} (hp : Yields Q p)
    (hf : ∀ a, Q a → Yields R (f a)) : Yields R (p >>= f) := by
  intro s b hb
  obtain ⟨a, ha, hfa, -⟩ := bind_eq_ok hb
  exact hf a (hp s a ha) _ b hfa

end Yields

/-- The first part may throw, so what it leaves behind must do as well; what it returns may
be used to show where the second part leads. -/
theorem leads_bind_of_yields {p : Program σ ε α} {f : α → Program σ ε β} {Q : α → Prop}
    (hp : Leads Pre Mid p) (hq : Yields Q p) (hmid : ∀ s, Mid s → Post s)
    (hf : ∀ a, Q a → Leads Mid Post (f a)) : Leads Pre Post (p >>= f) := by
  intro s hs
  cases hr : p.result s with
  | error e =>
    rw [final_bind_error hr]
    exact hmid _ (hp s hs)
  | ok a =>
    rw [final_bind_ok hr]
    exact hf a (hq s a hr) _ (hp s hs)

theorem leads_bind {p : Program σ ε α} {f : α → Program σ ε β} (hp : Leads Pre Mid p)
    (hmid : ∀ s, Mid s → Post s) (hf : ∀ a, Leads Mid Post (f a)) : Leads Pre Post (p >>= f) :=
  leads_bind_of_yields hp (fun _ _ _ => trivial) hmid fun a _ => hf a

theorem leads_mutate {f : σ → Except ε (α × σ)} (hweak : ∀ s, Pre s → Post s)
    (h : ∀ s a t, Pre s → f s = .ok (a, t) → Post t) : Leads Pre Post (mutate f) := by
  intro s hs
  cases hf : f s with
  | error e =>
    rw [final_mutate_error hf]
    exact hweak s hs
  | ok r =>
    obtain ⟨a, t⟩ := r
    rw [final_mutate_ok hf]
    exact h s a t hs hf

end Leads

theorem mem_cuts_bind {p : Program σ ε α} {f : α → Program σ ε β} {s t : σ}
    (h : t ∈ (p >>= f).cuts s) :
    t ∈ p.cuts s ∨ ∃ a, p.result s = .ok a ∧ t ∈ (f a).cuts (p.final s) := by
  unfold cuts at h
  cases hp : p.result s with
  | error e =>
    rw [trail_bind_error hp] at h
    exact Or.inl h
  | ok a =>
    rw [trail_bind_ok hp, ← List.cons_append, List.mem_append] at h
    exact h.imp_right fun h => ⟨a, rfl, List.mem_cons_of_mem _ h⟩

/-! Programs that never throw. -/

def Returns (p : Program σ ε α) : Prop := ∀ s, ∃ a, p.result s = .ok a

theorem returns_pure (a : α) : Returns (pure a : Program σ ε α) := fun _ => ⟨a, rfl⟩

theorem returns_bind {p : Program σ ε α} {f : α → Program σ ε β} (hp : Returns p)
    (hf : ∀ a, Returns (f a)) : Returns (p >>= f) := by
  intro s
  obtain ⟨a, ha⟩ := hp s
  obtain ⟨b, hb⟩ := hf a (p.final s)
  exact ⟨b, by rw [result_bind_ok ha, hb]⟩

theorem returns_forEach {f : α → Program σ ε Unit} (hf : ∀ x, Returns (f x)) (l : List α) :
    Returns (forEach f l) := by
  induction l with
  | nil => exact returns_pure ()
  | cons x xs ih => exact returns_bind (hf x) fun _ => ih

theorem Returns.result_unit {p : Program σ ε Unit} (h : Returns p) (s : σ) :
    p.result s = .ok () := by
  obtain ⟨a, ha⟩ := h s
  exact ha

/-! Programs that throw only certain failures. -/

def Throws (Q : ε → Prop) (p : Program σ ε α) : Prop := ∀ s e, p.result s = .error e → Q e

section Throws
variable {Q : ε → Prop}

theorem throws_of_returns {p : Program σ ε α} (h : Returns p) : Throws Q p := by
  intro s e he
  obtain ⟨a, ha⟩ := h s
  rw [ha] at he
  cases he

theorem throws_mutate {f : σ → Except ε (α × σ)} (h : ∀ s e, f s = .error e → Q e) :
    Throws Q (mutate f) := by
  intro s e he
  cases hf : f s with
  | ok r =>
    obtain ⟨a, t⟩ := r
    simp [result_mutate_ok hf] at he
  | error e' =>
    rw [result_mutate_error hf] at he
    cases he
    exact h s e hf

theorem throws_bind {p : Program σ ε α} {f : α → Program σ ε β} (hp : Throws Q p)
    (hf : ∀ a, Throws Q (f a)) : Throws Q (p >>= f) := by
  intro s e he
  obtain ⟨h, -⟩ | ⟨a, -, h, -⟩ := bind_eq_error he
  · exact hp s e h
  · exact hf a _ e h

end Throws

end Program

end Journal
