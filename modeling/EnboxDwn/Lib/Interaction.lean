import Mathlib.Data.List.Chain
import Mathlib.Data.List.Infix

/-! Programs that ask their environment one operation after another. The environment answers as it
likes, or fails; what was asked and answered is the trace, and a program may keep a state of its
own. -/
namespace Interaction

/-- An operation with its answer, and the turn it was asked in. -/
structure Event (Op : Type) (Answer : Op → Type) (ε : Type) where
  turn : Nat
  op : Op
  answer : Except ε (Answer op)

structure World (Op : Type) (Answer : Op → Type) (ε σ : Type) where
  turn : Nat
  state : σ
  trace : List (Event Op Answer ε)

/-- What is answered may depend on all that happened before. -/
abbrev Environment (Op : Type) (Answer : Op → Type) (ε : Type) :=
  List (Event Op Answer ε) → (op : Op) → Except ε (Answer op)

abbrev Program (Op : Type) (Answer : Op → Type) (ε σ α : Type) :=
  ExceptT ε (StateM (World Op Answer ε σ)) α

section Programs
variable {Op : Type} {Answer : Op → Type} {ε σ α β : Type}

def World.log (w : World Op Answer ε σ) (op : Op) (answer : Except ε (Answer op)) :
    World Op Answer ε σ :=
  { w with trace := w.trace ++ [⟨w.turn, op, answer⟩] }

def ask (env : Environment Op Answer ε) (op : Op) : Program Op Answer ε σ (Answer op) :=
  ExceptT.mk fun w => (env w.trace op, w.log op (env w.trace op))

def compute (x : Except ε α) : Program Op Answer ε σ α := ExceptT.mk fun w => (x, w)

def getState : Program Op Answer ε σ σ := ExceptT.mk fun w => (.ok w.state, w)

def setState (state : σ) : Program Op Answer ε σ Unit :=
  ExceptT.mk fun w => (.ok (), { w with state })

/-- What holds of the result and the world when the program returns, and of the world when it
throws. -/
def wp (x : Program Op Answer ε σ α) (w : World Op Answer ε σ)
    (Q : α → World Op Answer ε σ → Prop) (E : World Op Answer ε σ → Prop) : Prop :=
  match x.run w with
  | (.ok a, w') => Q a w'
  | (.error _, w') => E w'

variable {env : Environment Op Answer ε} {op : Op} {x : Program Op Answer ε σ α}
  {f : α → Program Op Answer ε σ β} {w : World Op Answer ε σ} {a : α}
  {Q Q' : α → World Op Answer ε σ → Prop} {R : β → World Op Answer ε σ → Prop}
  {E E' : World Op Answer ε σ → Prop}

theorem wp_pure (h : Q a w) : wp (pure a) w Q E := h

theorem wp_throw {e : ε} (h : E w) : wp (throw e : Program Op Answer ε σ α) w Q E := h

theorem wp_compute {c : Except ε α} (hok : ∀ a, c = .ok a → Q a w)
    (herror : ∀ e, c = .error e → E w) : wp (compute c) w Q E := by
  cases c with
  | ok a => exact hok a rfl
  | error e => exact herror e rfl

theorem wp_getState {Q : σ → World Op Answer ε σ → Prop} (h : Q w.state w) : wp getState w Q E := h

theorem wp_setState {Q : Unit → World Op Answer ε σ → Prop} {state : σ}
    (h : Q () { w with state }) : wp (setState state) w Q E := h

theorem wp_ask {Q : Answer op → World Op Answer ε σ → Prop}
    (hok : ∀ a, env w.trace op = .ok a → Q a (w.log op (.ok a)))
    (herror : ∀ e, env w.trace op = .error e → E (w.log op (.error e))) :
    wp (ask env op) w Q E := by
  unfold wp ask
  dsimp only [ExceptT.run, ExceptT.mk]
  cases h : env w.trace op with
  | ok a => exact hok a h
  | error e => exact herror e h

theorem wp_bind (h : wp x w (fun a w' => wp (f a) w' R E) E) : wp (x >>= f) w R E := by
  unfold wp at h ⊢
  change match (ExceptT.bind x f).run w with | (.ok a, w') => R a w' | (.error _, w') => E w'
  unfold ExceptT.bind
  dsimp only [ExceptT.run, ExceptT.mk, bind, StateT.bind, ExceptT.bindCont] at h ⊢
  generalize x w = out at h ⊢
  obtain ⟨result, w'⟩ := out
  cases result with
  | ok a => exact h
  | error e => exact h

theorem wp_mono (h : wp x w Q E) (hQ : ∀ a w', Q a w' → Q' a w') (hE : ∀ w', E w' → E' w') :
    wp x w Q' E' := by
  unfold wp at h ⊢
  generalize x.run w = out at h ⊢
  obtain ⟨result, w'⟩ := out
  cases result with
  | ok a => exact hQ a w' h
  | error e => exact hE w' h

theorem wp_and (h : wp x w Q E) (h' : wp x w Q' E') :
    wp x w (fun a w' => Q a w' ∧ Q' a w') (fun w' => E w' ∧ E' w') := by
  unfold wp at h h' ⊢
  generalize x.run w = out at h h' ⊢
  obtain ⟨result, w'⟩ := out
  cases result with
  | ok a => exact ⟨h, h'⟩
  | error e => exact ⟨h, h'⟩

theorem wp_tryCatch {handler : ε → Program Op Answer ε σ α} (h : wp x w Q E')
    (hcatch : ∀ e w', E' w' → wp (handler e) w' Q E) : wp (tryCatch x handler) w Q E := by
  unfold wp at h ⊢
  change match (ExceptT.tryCatch x handler).run w with
    | (.ok a, w') => Q a w' | (.error _, w') => E w'
  unfold ExceptT.tryCatch
  dsimp only [ExceptT.run, ExceptT.mk, bind, StateT.bind] at h ⊢
  generalize x w = out at h ⊢
  obtain ⟨result, w'⟩ := out
  cases result with
  | ok a => exact h
  | error e => exact hcatch e w' h

/-- What the program comes to, with the world it leaves. -/
theorem wp_run (h : wp x w Q E) : (∃ a, (x.run w).1 = .ok a ∧ Q a (x.run w).2) ∨
    (∃ e, (x.run w).1 = .error e) ∧ E (x.run w).2 := by
  unfold wp at h
  generalize x.run w = out at h
  obtain ⟨result, w'⟩ := out
  cases result with
  | ok a => exact Or.inl ⟨a, rfl, h⟩
  | error e => exact Or.inr ⟨⟨e, rfl⟩, h⟩

/-! ## Programs with results of a kind -/

/-- Whatever it is answered, what the program returns is of the kind. -/
def Returns (P : α → Prop) (x : Program Op Answer ε σ α) : Prop :=
  ∀ w, wp x w (fun a _ => P a) fun _ => True

section Returns
variable {P : α → Prop} {P' : β → Prop}

theorem returns_pure (h : P a) : Returns P (pure a : Program Op Answer ε σ α) :=
  fun _ => wp_pure h

theorem returns_throw {e : ε} : Returns P (throw e : Program Op Answer ε σ α) :=
  fun _ => wp_throw trivial

theorem returns_any : Returns (fun _ => True) x := by
  intro w
  unfold wp
  split
  · trivial
  · trivial

theorem returns_bind (h : ∀ a, Returns P' (f a)) : Returns P' (x >>= f) :=
  fun w => wp_bind (wp_mono (returns_any w) (fun a w' _ => h a w') fun _ _ => trivial)

theorem Returns.bind (hx : Returns P x) (h : ∀ a, P a → Returns P' (f a)) :
    Returns P' (x >>= f) :=
  fun w => wp_bind (wp_mono (hx w) (fun a w' ha => h a ha w') fun _ _ => trivial)

end Returns

/-! ## Programs that only ask -/

structure World.Extends (w w' : World Op Answer ε σ) : Prop where
  turn : w'.turn = w.turn
  state : w'.state = w.state
  trace : w.trace <+: w'.trace

theorem World.Extends.refl (w : World Op Answer ε σ) : w.Extends w := ⟨rfl, rfl, List.prefix_rfl⟩

theorem World.Extends.trans {w w₁ w₂ : World Op Answer ε σ} (h : w.Extends w₁)
    (h' : w₁.Extends w₂) : w.Extends w₂ :=
  ⟨h'.turn.trans h.turn, h'.state.trans h.state, h.trace.trans h'.trace⟩

theorem World.extends_log (w : World Op Answer ε σ) (op : Op) (answer : Except ε (Answer op)) :
    w.Extends (w.log op answer) :=
  ⟨rfl, rfl, List.prefix_append _ _⟩

theorem World.mem_log (w : World Op Answer ε σ) (op : Op) (answer : Except ε (Answer op)) :
    ⟨w.turn, op, answer⟩ ∈ (w.log op answer).trace :=
  List.mem_append_right _ List.mem_cons_self

theorem wp_ask_extends {Q : Answer op → World Op Answer ε σ → Prop}
    (hok : ∀ a w', w.Extends w' → ⟨w.turn, op, .ok a⟩ ∈ w'.trace → Q a w')
    (herror : ∀ w', w.Extends w' → E w') : wp (ask env op) w Q E :=
  wp_ask (fun a _ => hok a _ (w.extends_log op _) (w.mem_log op _))
    fun _ _ => herror _ (w.extends_log op _)

/-! ## Programs that heed an answer -/

/-- What was asked since then, and none of the answers halts. -/
def World.Quiet (halts : Event Op Answer ε → Prop) (w w' : World Op Answer ε σ) : Prop :=
  ∃ events, w'.trace = w.trace ++ events ∧ ∀ e ∈ events, ¬ halts e

/-- The last answer since then halts, and it is the first that does. -/
def World.Halted (halts : Event Op Answer ε → Prop) (w w' : World Op Answer ε σ) : Prop :=
  ∃ events e, w'.trace = w.trace ++ events ++ [e] ∧ (∀ e' ∈ events, ¬ halts e') ∧ halts e

section Heeds
variable {halts : Event Op Answer ε → Prop} {stopped : α → Prop} {stopped' : β → Prop}
  {w₁ w' : World Op Answer ε σ}

theorem World.Quiet.refl (w : World Op Answer ε σ) : w.Quiet halts w := ⟨[], by simp, by simp⟩

theorem World.Quiet.trans (h : w.Quiet halts w₁) (h' : w₁.Quiet halts w') : w.Quiet halts w' := by
  obtain ⟨events, htrace, hquiet⟩ := h
  obtain ⟨events', htrace', hquiet'⟩ := h'
  refine ⟨events ++ events', ?_, ?_⟩
  · rw [htrace', htrace, List.append_assoc]
  · intro e he
    cases List.mem_append.mp he with
    | inl he => exact hquiet e he
    | inr he => exact hquiet' e he

theorem World.Quiet.halted (h : w.Quiet halts w₁) (h' : w₁.Halted halts w') : w.Halted halts w' := by
  obtain ⟨events, htrace, hquiet⟩ := h
  obtain ⟨events', e, htrace', hquiet', hhalts⟩ := h'
  refine ⟨events ++ events', e, ?_, ?_, hhalts⟩
  · rw [htrace', htrace]
    simp
  · intro e' he'
    cases List.mem_append.mp he' with
    | inl he' => exact hquiet e' he'
    | inr he' => exact hquiet' e' he'

/-- The program asks nothing after an answer that halts and returns a stopped result then; without
such an answer it throws or returns another result. -/
def Heeds (halts : Event Op Answer ε → Prop) (stopped : α → Prop)
    (x : Program Op Answer ε σ α) : Prop :=
  ∀ w, wp x w (fun a w' => (stopped a ∧ w.Halted halts w') ∨ (¬ stopped a ∧ w.Quiet halts w'))
    (w.Quiet halts)

theorem Heeds.grows (hx : Heeds halts stopped x) (w : World Op Answer ε σ) :
    wp x w (fun _ w' => w.trace <+: w'.trace) fun w' => w.trace <+: w'.trace := by
  refine wp_mono (hx w) (fun a w' h => ?_) fun w' h => ?_
  · obtain ⟨-, events, e, htrace, -⟩ | ⟨-, events, htrace, -⟩ := h
    · exact ⟨events ++ [e], by rw [htrace, List.append_assoc]⟩
    · exact ⟨events, htrace.symm⟩
  · obtain ⟨events, htrace, -⟩ := h
    exact ⟨events, htrace.symm⟩

/-- No answer to the program halts. -/
abbrev NeverHalts (halts : Event Op Answer ε → Prop) (x : Program Op Answer ε σ α) : Prop :=
  Heeds halts (fun _ => False) x

theorem heeds_pure (h : ¬ stopped a) :
    Heeds halts stopped (pure a : Program Op Answer ε σ α) :=
  fun w => wp_pure (Or.inr ⟨h, .refl w⟩)

theorem heeds_throw {e : ε} : Heeds halts stopped (throw e : Program Op Answer ε σ α) :=
  fun w => wp_throw (.refl w)

theorem heeds_compute {c : Except ε α} (h : ∀ a, c = .ok a → ¬ stopped a) :
    Heeds halts stopped (compute c : Program Op Answer ε σ α) :=
  fun w => wp_compute (fun a ha => Or.inr ⟨h a ha, .refl w⟩) fun _ _ => .refl w

theorem heeds_getState : NeverHalts halts (getState : Program Op Answer ε σ σ) :=
  fun w => wp_getState (Or.inr ⟨id, .refl w⟩)

theorem heeds_setState {state : σ} :
    NeverHalts halts (setState state : Program Op Answer ε σ Unit) :=
  fun _ => wp_setState (Or.inr ⟨id, [], by simp, by simp⟩)

theorem heeds_ask {stopped : Answer op → Prop}
    (h : ∀ turn answer, halts ⟨turn, op, answer⟩ ↔ ∃ a, answer = .ok a ∧ stopped a) :
    Heeds halts stopped (ask env op : Program Op Answer ε σ (Answer op)) := by
  intro w
  refine wp_ask (fun a _ => ?_) fun e _ => ?_
  · by_cases ha : stopped a
    · refine Or.inl ⟨ha, [], ⟨w.turn, op, .ok a⟩, by simp [World.log], by simp, ?_⟩
      exact (h _ _).mpr ⟨a, rfl, ha⟩
    · refine Or.inr ⟨ha, [⟨w.turn, op, .ok a⟩], rfl, ?_⟩
      intro e he hhalts
      rw [List.mem_singleton.mp he] at hhalts
      obtain ⟨a', ha', hstopped⟩ := (h _ _).mp hhalts
      cases ha'
      exact ha hstopped
  · refine ⟨[⟨w.turn, op, .error e⟩], rfl, ?_⟩
    intro e' he' hhalts
    rw [List.mem_singleton.mp he'] at hhalts
    obtain ⟨a, ha, -⟩ := (h _ _).mp hhalts
    cases ha

theorem neverHalts_ask (h : ∀ turn answer, ¬ halts ⟨turn, op, answer⟩) :
    NeverHalts halts (ask env op : Program Op Answer ε σ (Answer op)) :=
  heeds_ask fun turn answer => ⟨fun hhalts => absurd hhalts (h turn answer), fun ⟨_, _, hf⟩ => hf.elim⟩

theorem heeds_bind (hx : Heeds halts stopped x)
    (hstop : ∀ a, stopped a → ∃ b, f a = pure b ∧ stopped' b)
    (hf : ∀ a, ¬ stopped a → Heeds halts stopped' (f a)) : Heeds halts stopped' (x >>= f) := by
  intro w
  refine wp_bind (wp_mono (hx w) (fun a w₁ h => ?_) fun _ h => h)
  obtain ⟨hstopped, hhalted⟩ | ⟨hgoes, hquiet⟩ := h
  · obtain ⟨b, hb, hstopped'⟩ := hstop a hstopped
    rw [hb]
    exact wp_pure (Or.inl ⟨hstopped', hhalted⟩)
  · refine wp_mono (hf a hgoes w₁) (fun b w' h => ?_) fun _ h => hquiet.trans h
    obtain ⟨hstopped', hhalted⟩ | ⟨hgoes', hquiet'⟩ := h
    · exact Or.inl ⟨hstopped', hquiet.halted hhalted⟩
    · exact Or.inr ⟨hgoes', hquiet.trans hquiet'⟩

theorem NeverHalts.bind (hx : NeverHalts halts x) (hf : ∀ a, Heeds halts stopped' (f a)) :
    Heeds halts stopped' (x >>= f) :=
  heeds_bind hx (fun _ h => h.elim) fun a _ => hf a

theorem heeds_tryCatch {handler : ε → Program Op Answer ε σ α} (hx : Heeds halts stopped x)
    (hhandler : ∀ e, Heeds halts stopped (handler e)) :
    Heeds halts stopped (tryCatch x handler) := by
  intro w
  refine wp_tryCatch (hx w) fun e w₁ hquiet => ?_
  refine wp_mono (hhandler e w₁) (fun b w' h => ?_) fun _ h => hquiet.trans h
  obtain ⟨hstopped', hhalted⟩ | ⟨hgoes', hquiet'⟩ := h
  · exact Or.inl ⟨hstopped', hquiet.halted hhalted⟩
  · exact Or.inr ⟨hgoes', hquiet.trans hquiet'⟩

end Heeds

/-! ## Programs that leave the state -/

/-- The state is left as it is, whether the program returns or throws. -/
def Keeps (x : Program Op Answer ε σ α) : Prop :=
  ∀ w, wp x w (fun _ w' => w'.state = w.state) fun w' => w'.state = w.state

theorem keeps_pure : Keeps (pure a : Program Op Answer ε σ α) := fun _ => wp_pure rfl

theorem keeps_ask : Keeps (ask env op : Program Op Answer ε σ (Answer op)) :=
  fun _ => wp_ask (fun _ _ => rfl) fun _ _ => rfl

theorem Keeps.bind (hx : Keeps x) (hf : ∀ a, Keeps (f a)) : Keeps (x >>= f) := by
  intro w
  refine wp_bind (wp_mono (hx w) (fun a w₁ h => ?_) fun _ h => h)
  exact wp_mono (hf a w₁) (fun _ _ h' => h'.trans h) fun _ h' => h'.trans h

theorem keeps_tryCatch {handler : ε → Program Op Answer ε σ α} (hx : Keeps x)
    (hhandler : ∀ e, Keeps (handler e)) : Keeps (tryCatch x handler) := by
  intro w
  refine wp_tryCatch (hx w) fun e w₁ h => ?_
  exact wp_mono (hhandler e w₁) (fun _ _ h' => h'.trans h) fun _ h' => h'.trans h

/-! ## Loops -/

section Loops
variable {ι : Type} {round : ι → Program Op Answer ε σ (α ⊕ ι)}

/-- Rounds until one of them returns; each hands the next one where it begins. -/
def loop (outOfFuel : ε) (round : ι → Program Op Answer ε σ (α ⊕ ι)) :
    Nat → ι → Program Op Answer ε σ α
  | 0, _ => throw outOfFuel
  | fuel + 1, i => do
    match ← round i with
    | .inl a => return a
    | .inr j => loop outOfFuel round fuel j

def visits (round : ι → Program Op Answer ε σ (α ⊕ ι)) :
    Nat → ι → World Op Answer ε σ → List ι
  | 0, _, _ => []
  | fuel + 1, i, w =>
    i :: match (round i).run w with
      | (.ok (.inr j), w') => visits round fuel j w'
      | _ => []

theorem visits_head? (fuel : Nat) (i : ι) (w : World Op Answer ε σ) :
    ∀ j ∈ (visits round fuel i w).head?, j = i := by
  cases fuel with
  | zero => simp [visits]
  | succ fuel => simp [visits]

/-- What relates the begin of a round to the begin of the next one relates all of them. -/
theorem isChain_visits {R : ι → ι → Prop} {I : ι → World Op Answer ε σ → Prop}
    (hround : ∀ i w, I i w →
      wp (round i) w (fun next w' => ∀ j, next = .inr j → R i j ∧ I j w') fun _ => True)
    (fuel : Nat) (i : ι) (w : World Op Answer ε σ) (h : I i w) :
    (visits round fuel i w).IsChain R := by
  induction fuel generalizing i w with
  | zero => exact List.isChain_nil
  | succ fuel ih =>
    have hnext := hround i w h
    unfold wp at hnext
    rw [visits]
    split
    · next j w' hrun =>
      rw [hrun] at hnext
      obtain ⟨hrel, hinv⟩ := hnext j rfl
      rw [List.isChain_cons]
      refine ⟨fun j' hj' => ?_, ih j w' hinv⟩
      rw [visits_head? fuel j w' j' hj']
      exact hrel
    · exact List.isChain_singleton i

end Loops

end Programs

end Interaction
