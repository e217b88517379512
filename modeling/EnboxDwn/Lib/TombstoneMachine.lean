import Mathlib.Data.Prod.Lex
import Mathlib.Data.Finset.Insert
import Mathlib.Data.List.Perm.Basic

/-! A replicated item with last-writer-wins updates and competing tombstones, over an
arbitrary linear order of ages. A store that sees one event at a time keeps the first
write, the newest write it has accepted and at most one tombstone. The results say
for which sets of events every order of arrival ends with the same winner, and for
which sets it ends with the same stored items. -/
namespace TombstoneMachine

/-- A write, or a tombstone that is strong (a prune) or plain. -/
inductive Event (κ : Type*) where
  | write (age : κ)
  | delete (prune : Bool) (age : κ)
  deriving DecidableEq

def Event.age {κ : Type*} : Event κ → κ
  | .write k => k
  | .delete _ k => k

variable {κ : Type*} [LinearOrder κ]

/-- The items kept: `newest` is the newest of the `writes`. -/
@[ext]
structure State (κ : Type*) where
  writes : Finset κ
  newest : κ
  tomb : Option (Bool × κ)

/-- Strong tombstones come after plain ones, then the age decides. -/
def rank (t : Bool × κ) : Bool ×ₗ κ := toLex t

namespace State

def init (first : κ) : State κ := ⟨{first}, first, none⟩

/-- What is presented as the current state of the item. -/
def top (s : State κ) : Event κ :=
  match s.tomb with
  | some t => .delete t.1 t.2
  | none => .write s.newest

def Stored (s : State κ) (k : κ) : Prop := k ∈ s.writes ∨ ∃ t ∈ s.tomb, t.2 = k

end State

section Step
variable (b : Bool) (first : κ)

/-- A write that is not the newest item is refused. A newest write displaces everything
but the first write, unless the newest item was a tombstone: then it is refused, or
stored beside the tombstone. -/
def accept (s : State κ) (k : κ) : State κ :=
  match s.tomb with
  | none => if k ≤ s.newest then s else ⟨{first, k}, k, none⟩
  | some t =>
    if k ≤ s.newest ∨ k ≤ t.2 then s
    else if s.newest < t.2 then
      if b then ⟨insert k s.writes, k, s.tomb⟩ else s
    else ⟨{first, k}, k, none⟩

/-- A tombstone is refused only when the newest item is a tombstone that outranks it. -/
def bury (s : State κ) (t : Bool × κ) : State κ :=
  match s.tomb with
  | none => ⟨{first, s.newest}, s.newest, some t⟩
  | some u =>
    if s.newest < u.2 ∧ rank t ≤ rank u then s else ⟨{first, s.newest}, s.newest, some t⟩

def step (s : State κ) : Event κ → State κ
  | .write k => accept b first s k
  | .delete p k => bury first s (p, k)

def run (events : List (Event κ)) : State κ := events.foldl (step b first) (State.init first)

end Step

section Reached
variable {b : Bool} {first : κ} {events : List (Event κ)} {s : State κ}

theorem accept_cases (b : Bool) (first : κ) (s : State κ) (k : κ) :
    accept b first s k = s ∨
    (s.newest < k ∧ accept b first s k = ⟨{first, k}, k, none⟩) ∨
    (s.newest < k ∧ (∃ t, s.tomb = some t ∧ s.newest < t.2 ∧ t.2 < k) ∧
      accept b first s k = ⟨insert k s.writes, k, s.tomb⟩) := by
  unfold accept
  cases ht : s.tomb with
  | none =>
    by_cases h : k ≤ s.newest
    · exact Or.inl (by simp [h])
    · exact Or.inr (Or.inl ⟨not_le.mp h, by simp [h]⟩)
  | some t =>
    by_cases h : k ≤ s.newest ∨ k ≤ t.2
    · exact Or.inl (by simp [h])
    · have hk : s.newest < k := not_le.mp fun hk => h (Or.inl hk)
      have htk : t.2 < k := not_le.mp fun hk => h (Or.inr hk)
      by_cases hb : s.newest < t.2
      · cases b with
        | false => exact Or.inl (by simp [h, hb])
        | true => exact Or.inr (Or.inr ⟨hk, ⟨t, rfl, hb, htk⟩, by simp [h, hb]⟩)
      · exact Or.inr (Or.inl ⟨hk, by simp [h, hb]⟩)

theorem bury_cases (first : κ) (s : State κ) (t : Bool × κ) :
    bury first s t = ⟨{first, s.newest}, s.newest, some t⟩ ∨
    (bury first s t = s ∧ ∃ u, s.tomb = some u ∧ s.newest < u.2 ∧ rank t ≤ rank u) := by
  unfold bury
  cases ht : s.tomb with
  | none => exact Or.inl rfl
  | some u =>
    by_cases h : s.newest < u.2 ∧ rank t ≤ rank u
    · exact Or.inr ⟨by simp [h], u, rfl, h⟩
    · exact Or.inl (by simp [h])

theorem accept_of_le {k : κ} (hk : k ≤ s.newest) : accept b first s k = s := by
  cases ht : s.tomb <;> simp [accept, ht, hk]

theorem accept_refused {k : κ} (h : k ≤ s.newest ∨ ∃ t, s.tomb = some t ∧ k ≤ t.2) :
    accept b first s k = s := by
  obtain h | ⟨t, ht, h⟩ := h
  · exact accept_of_le h
  · simp [accept, ht, h]

theorem accept_after_tomb {k : κ} {t : Bool × κ} (ht : s.tomb = some t) (hlt : s.newest < t.2)
    (hk : t.2 < k) :
    accept b first s k = if b then ⟨insert k s.writes, k, s.tomb⟩ else s := by
  have hk' : ¬ (k ≤ s.newest ∨ k ≤ t.2) := not_or.mpr ⟨(hlt.trans hk).not_ge, hk.not_ge⟩
  simp [accept, ht, hk', hlt]

theorem accept_newest {k : κ} (hk : s.newest < k) (h : ∀ t, s.tomb = some t → t.2 < s.newest) :
    accept b first s k = ⟨{first, k}, k, none⟩ := by
  cases ht : s.tomb with
  | none => simp [accept, ht, hk.not_ge]
  | some t =>
    have hlt := h t ht
    have hk' : ¬ (k ≤ s.newest ∨ k ≤ t.2) := not_or.mpr ⟨hk.not_ge, (hlt.trans hk).not_ge⟩
    simp [accept, ht, hk', hlt.not_gt]

theorem bury_refused {t u : Bool × κ} (hu : s.tomb = some u) (hlt : s.newest < u.2)
    (hle : rank t ≤ rank u) : bury first s t = s := by
  simp [bury, hu, hlt, hle]

theorem bury_performed {t : Bool × κ}
    (h : ∀ u, s.tomb = some u → s.newest < u.2 → ¬ rank t ≤ rank u) :
    bury first s t = ⟨{first, s.newest}, s.newest, some t⟩ := by
  cases hu : s.tomb with
  | none => simp [bury, hu]
  | some u =>
    have hnot : ¬ (s.newest < u.2 ∧ rank t ≤ rank u) := fun h' => h u hu h'.1 h'.2
    simp [bury, hu, hnot]

/-- Everything kept comes from the events; the first and the newest write are kept, and
nothing else while there is no tombstone. -/
structure Reached (first : κ) (events : List (Event κ)) (s : State κ) : Prop where
  writes_mem : ∀ x ∈ s.writes, .write x ∈ .write first :: events
  first_kept : first ∈ s.writes
  newest_kept : s.newest ∈ s.writes
  le_newest : ∀ x ∈ s.writes, x ≤ s.newest
  ge_first : ∀ x ∈ s.writes, first ≤ x
  live : s.tomb = none → s.writes = {first, s.newest}
  tomb_mem : ∀ t, s.tomb = some t → .delete t.1 t.2 ∈ events

theorem Reached.newest_mem (hs : Reached first events s) :
    .write s.newest ∈ .write first :: events :=
  hs.writes_mem _ hs.newest_kept

theorem Reached.first_le (hs : Reached first events s) : first ≤ s.newest :=
  hs.le_newest _ hs.first_kept

theorem reached_init : Reached first events (State.init first) := by
  constructor <;> simp [State.init]

theorem reached_pair {k : κ} (h : first ≤ k) : Reached first [.write k] ⟨{first, k}, k, none⟩ := by
  constructor <;> simp [h]

theorem newest_le_step (s : State κ) (e : Event κ) :
    s.newest ≤ (step b first s e).newest := by
  cases e with
  | write k =>
    obtain h | ⟨hk, h⟩ | ⟨hk, -, h⟩ := accept_cases b first s k
    · simp [step, h]
    · simpa [step, h] using hk.le
    · simpa [step, h] using hk.le
  | delete p k =>
    obtain h | ⟨h, -⟩ := bury_cases first s (p, k)
    · simp [step, h]
    · simp [step, h]

variable (first) in
theorem newest_le_foldl (l : List (Event κ)) (s : State κ) :
    s.newest ≤ (l.foldl (step b first) s).newest := by
  induction l generalizing s with
  | nil => exact le_refl _
  | cons e l ih => exact (newest_le_step s e).trans (ih _)

theorem reached_accept (hs : Reached first events s) {k : κ} (hk : .write k ∈ events) :
    Reached first events (accept b first s k) := by
  have hkmem : .write k ∈ .write first :: events := List.mem_cons_of_mem _ hk
  obtain h | ⟨hlt, h⟩ | ⟨hlt, ⟨t, ht, -, -⟩, h⟩ := accept_cases b first s k
  · rwa [h]
  · rw [h]
    exact
      { writes_mem := by simp [hk]
        first_kept := by simp
        newest_kept := by simp
        le_newest := by simpa using hs.first_le.trans hlt.le
        ge_first := by simpa using hs.first_le.trans hlt.le
        live := by simp
        tomb_mem := by simp }
  · rw [h]
    exact
      { writes_mem := by
          intro x hx
          cases Finset.mem_insert.mp hx with
          | inl hx => exact hx ▸ hkmem
          | inr hx => exact hs.writes_mem x hx
        first_kept := Finset.mem_insert_of_mem hs.first_kept
        newest_kept := Finset.mem_insert_self _ _
        le_newest := by
          intro x hx
          cases Finset.mem_insert.mp hx with
          | inl hx => exact hx.le
          | inr hx => exact (hs.le_newest x hx).trans hlt.le
        ge_first := by
          intro x hx
          cases Finset.mem_insert.mp hx with
          | inl hx => exact hx ▸ hs.first_le.trans hlt.le
          | inr hx => exact hs.ge_first x hx
        live := by simp [ht]
        tomb_mem := hs.tomb_mem }

theorem reached_bury (hs : Reached first events s) {t : Bool × κ}
    (ht : .delete t.1 t.2 ∈ events) : Reached first events (bury first s t) := by
  obtain h | ⟨h, -⟩ := bury_cases first s t
  · rw [h]
    exact
      { writes_mem := by
          intro x hx
          cases Finset.mem_insert.mp hx with
          | inl hx => simp [hx]
          | inr hx => exact Finset.mem_singleton.mp hx ▸ hs.newest_mem
        first_kept := by simp
        newest_kept := by simp
        le_newest := by simpa using hs.first_le
        ge_first := by simpa using hs.first_le
        live := by simp
        tomb_mem := by
          intro u hu
          cases hu
          exact ht }
  · rwa [h]

theorem reached_step (hs : Reached first events s) {e : Event κ} (he : e ∈ events) :
    Reached first events (step b first s e) := by
  cases e with
  | write k => exact reached_accept hs he
  | delete p k => exact reached_bury hs he

theorem reached_foldl (hs : Reached first events s) {l : List (Event κ)}
    (hl : ∀ e ∈ l, e ∈ events) : Reached first events (l.foldl (step b first) s) := by
  induction l generalizing s with
  | nil => exact hs
  | cons e l ih =>
    have hstep : Reached first events (step b first s e) := reached_step hs (hl e (by simp))
    exact ih hstep fun e' he' => hl e' (by simp [he'])

theorem reached_run {l : List (Event κ)} (hl : l.Perm events) :
    Reached first events (run b first l) :=
  reached_foldl reached_init fun _ he => hl.mem_iff.mp he

variable (first) in
/-- A run of writes over a store without a tombstone is last-writer-wins. -/
theorem foldl_writes (l : List (Event κ)) (hl : ∀ p k, Event.delete p k ∉ l) (s : State κ)
    (hs : s.tomb = none) :
    (l.foldl (step b first) s).tomb = none ∧
      ∀ k, .write k ∈ l → k ≤ (l.foldl (step b first) s).newest := by
  induction l generalizing s with
  | nil => exact ⟨hs, by simp⟩
  | cons e l ih =>
    cases e with
    | delete p k => exact absurd (List.mem_cons_self) (hl p k)
    | write k =>
      have htomb : (step b first s (.write k)).tomb = none := by
        by_cases h : k ≤ s.newest <;> simp [step, accept, hs, h]
      have hk : k ≤ (step b first s (.write k)).newest := by
        by_cases h : k ≤ s.newest
        · exact h.trans (newest_le_step s _)
        · simp [step, accept, hs, h]
      obtain ⟨hnone, hmax⟩ := ih (fun p k' hm => hl p k' (List.mem_cons_of_mem _ hm)) _ htomb
      refine ⟨hnone, fun k' hk' => ?_⟩
      cases List.mem_cons.mp hk' with
      | inl h =>
        cases h
        exact hk.trans (newest_le_foldl first l _)
      | inr h => exact hmax k' h

end Reached

/-! ## The winner -/

section Winner
variable {b : Bool} {first : κ} {events : List (Event κ)}

/-- The greatest tombstone if there is one, else the greatest write. -/
def IsWinner (first : κ) (events : List (Event κ)) : Event κ → Prop
  | .delete p k =>
    .delete p k ∈ events ∧ ∀ p' k', .delete p' k' ∈ events → rank (p', k') ≤ rank (p, k)
  | .write k =>
    (∀ p' k', Event.delete p' k' ∉ events) ∧ .write k ∈ .write first :: events ∧
      ∀ k', .write k' ∈ .write first :: events → k' ≤ k

/-- Either there is no tombstone, or the greatest one is newer than every write, or it
is the only one and at most one write that can be accepted is newer. -/
def Converges (first : κ) (events : List (Event κ)) : Prop :=
  (∀ p k, Event.delete p k ∉ events) ∨
  ∃ p k, IsWinner first events (.delete p k) ∧
    ((∀ x, .write x ∈ .write first :: events → x < k) ∨
      ((∀ p' k', .delete p' k' ∈ events → (p', k') = (p, k)) ∧
        ∀ x y, .write x ∈ .write first :: events → .write y ∈ .write first :: events →
          first ≤ x → first ≤ y → k < x → k < y → x = y))

/-- No write has the age of a tombstone. -/
def AgesDistinct (first : κ) (events : List (Event κ)) : Prop :=
  ∀ p k, .delete p k ∈ events → .write k ∉ .write first :: events

variable (first) in
theorem exists_winner (h : ∃ p k, Event.delete p k ∈ events) :
    ∃ p k, IsWinner first events (.delete p k) := by
  induction events with
  | nil =>
    obtain ⟨p, k, h⟩ := h
    cases h
  | cons e l ih =>
    by_cases hl : ∃ p k, Event.delete p k ∈ l
    · obtain ⟨p, k, hmem, hmax⟩ := ih hl
      cases e with
      | write x =>
        refine ⟨p, k, List.mem_cons_of_mem _ hmem, fun p' k' h' => hmax p' k' ?_⟩
        simpa using h'
      | delete q j =>
        by_cases hle : rank (q, j) ≤ rank (p, k)
        · refine ⟨p, k, List.mem_cons_of_mem _ hmem, fun p' k' h' => ?_⟩
          cases List.mem_cons.mp h' with
          | inl h' => cases h'; exact hle
          | inr h' => exact hmax p' k' h'
        · refine ⟨q, j, List.mem_cons_self, fun p' k' h' => ?_⟩
          cases List.mem_cons.mp h' with
          | inl h' => cases h'; exact le_refl _
          | inr h' => exact (hmax p' k' h').trans (le_of_lt (not_le.mp hle))
    · obtain ⟨p, k, h⟩ := h
      cases List.mem_cons.mp h with
      | inr h => exact absurd ⟨p, k, h⟩ hl
      | inl h =>
        subst h
        refine ⟨p, k, List.mem_cons_self, fun p' k' h' => ?_⟩
        cases List.mem_cons.mp h' with
        | inl h' => cases h'; exact le_refl _
        | inr h' => exact absurd ⟨p', k', h'⟩ hl

/-- A tombstone that outranks all others and is newer than every write is final. -/
theorem foldl_of_newest_winner {p : Bool} {k : κ} (hwin : IsWinner first events (.delete p k))
    (hnew : ∀ x, .write x ∈ .write first :: events → x < k) {l : List (Event κ)}
    (hl : ∀ e ∈ l, e ∈ events) {s : State κ} (hs : Reached first events s)
    (ht : s.tomb = some (p, k)) : l.foldl (step b first) s = s := by
  induction l with
  | nil => rfl
  | cons e l ih =>
    have hburied : s.newest < k := hnew _ hs.newest_mem
    have hkeep : step b first s e = s := by
      cases e with
      | write x =>
        have hx : x ≤ k := le_of_lt (hnew x (List.mem_cons_of_mem _ (hl _ (by simp))))
        simp [step, accept, ht, hx]
      | delete q j =>
        have hj : rank (q, j) ≤ rank (p, k) := hwin.2 q j (hl _ (by simp))
        simp [step, bury, ht, hburied, hj]
    rw [List.foldl_cons, hkeep]
    exact ih fun e' he' => hl e' (by simp [he'])

/-- The only tombstone stays when no two acceptable writes are newer. -/
theorem foldl_of_only_winner {p : Bool} {k : κ} (hages : AgesDistinct first events)
    (honly : ∀ p' k', .delete p' k' ∈ events → (p', k') = (p, k))
    (hone : ∀ x y, .write x ∈ .write first :: events → .write y ∈ .write first :: events →
      first ≤ x → first ≤ y → k < x → k < y → x = y)
    {l : List (Event κ)} (hl : ∀ e ∈ l, e ∈ events) {s : State κ} (hs : Reached first events s)
    (ht : s.tomb = some (p, k)) : (l.foldl (step false first) s).tomb = some (p, k) := by
  induction l generalizing s with
  | nil => exact ht
  | cons e l ih =>
    have htomb : (step false first s e).tomb = some (p, k) := by
      cases e with
      | delete q j =>
        cases honly q j (hl _ (by simp))
        obtain h | ⟨h, -⟩ := bury_cases first s (p, k)
        · simp [step, h]
        · simp [step, h, ht]
      | write x =>
        by_cases hx : x ≤ s.newest ∨ x ≤ k
        · simp [step, accept, ht, hx]
        · by_cases hb : s.newest < k
          · simp [step, accept, ht, hx, hb]
          · -- a write accepted here would be a second write newer than the tombstone
            have hnx : s.newest < x := not_le.mp fun h => hx (Or.inl h)
            have hkx : k < x := not_le.mp fun h => hx (Or.inr h)
            have hxmem : .write x ∈ .write first :: events :=
              List.mem_cons_of_mem _ (hl _ (by simp))
            have hne : k ≠ s.newest := by
              intro h
              exact hages p k (hs.tomb_mem (p, k) ht) (h ▸ hs.newest_mem)
            have hkn : k < s.newest := lt_of_le_of_ne (not_lt.mp hb) hne
            have := hone s.newest x hs.newest_mem hxmem hs.first_le
              (hs.first_le.trans hnx.le) hkn hkx
            exact absurd this hnx.ne
    rw [List.foldl_cons]
    exact ih (fun e' he' => hl e' (by simp [he'])) (reached_step hs (hl e (by simp))) htomb

omit [LinearOrder κ] in
theorem top_of_tomb {s : State κ} {t : Bool × κ} (h : s.tomb = some t) :
    s.top = .delete t.1 t.2 := by
  simp [State.top, h]

omit [LinearOrder κ] in
theorem top_of_no_tomb {s : State κ} (h : s.tomb = none) : s.top = .write s.newest := by
  simp [State.top, h]

/-- The winning tombstone is always accepted. -/
theorem tomb_step_winner {p : Bool} {k : κ} (hwin : IsWinner first events (.delete p k))
    {s : State κ} (hs : Reached first events s) :
    (step b first s (.delete p k)).tomb = some (p, k) := by
  obtain h | ⟨h, u, hu, -, hle⟩ := bury_cases first s (p, k)
  · simp [step, h]
  · have hmax : rank u ≤ rank (p, k) := hwin.2 u.1 u.2 (hs.tomb_mem u hu)
    have heq : (p, k) = u := toLex.injective (le_antisymm hle hmax)
    simp only [step, h]
    exact heq ▸ hu

theorem isWinner_of_converges (hages : AgesDistinct first events) (hconv : Converges first events)
    {l : List (Event κ)} (hl : l.Perm events) :
    IsWinner first events (run false first l).top := by
  have hmem : ∀ e ∈ l, e ∈ events := fun e he => hl.mem_iff.mp he
  have hreached : Reached first events (run false first l) := reached_run hl
  cases hconv with
  | inl hnone =>
    have hnone' : ∀ p k, Event.delete p k ∉ l := fun p k h => hnone p k (hmem _ h)
    obtain ⟨htomb, hmax⟩ := foldl_writes (b := false) first l hnone'
      (State.init first) rfl
    rw [top_of_no_tomb (s := run false first l) htomb]
    refine ⟨hnone, hreached.newest_mem, fun k' hk' => ?_⟩
    cases List.mem_cons.mp hk' with
    | inl h => cases h; exact hreached.first_le
    | inr h => exact hmax k' (hl.mem_iff.mpr h)
  | inr hsome =>
    obtain ⟨p, k, hwin, hcase⟩ := hsome
    obtain ⟨l₁, l₂, rfl⟩ := List.append_of_mem (hl.mem_iff.mpr hwin.1)
    have h₁ : Reached first events (l₁.foldl (step false first) (State.init first)) :=
      reached_foldl reached_init fun e he => hmem e (by simp [he])
    have h₂ := reached_step (b := false) h₁ hwin.1
    have htomb : (run false first (l₁ ++ .delete p k :: l₂)).tomb = some (p, k) := by
      rw [run, List.foldl_append, List.foldl_cons]
      cases hcase with
      | inl hnew =>
        rw [foldl_of_newest_winner hwin hnew (fun e he => hmem e (by simp [he])) h₂
          (tomb_step_winner hwin h₁)]
        exact tomb_step_winner hwin h₁
      | inr honly =>
        exact foldl_of_only_winner hages honly.1 honly.2 (fun e he => hmem e (by simp [he])) h₂
          (tomb_step_winner hwin h₁)
    rw [top_of_tomb htomb]
    exact hwin

/-- An acceptable write can be brought about as the newest item before all else. -/
theorem exists_lead {x : κ} {rest : List (Event κ)} (hx : .write x ∈ .write first :: rest)
    (hfirst : first ≤ x) :
    ∃ l r, (l ++ r).Perm rest ∧ (run b first l).tomb = none ∧
      (run b first l).newest = x ∧ (run b first l).writes = {first, x} := by
  cases List.mem_cons.mp hx with
  | inl h =>
    cases h
    exact ⟨[], rest, List.Perm.refl _, rfl, rfl, by simp [run, State.init]⟩
  | inr h =>
    refine ⟨[.write x], rest.erase (.write x), (List.perm_cons_erase h).symm, ?_⟩
    by_cases hle : x ≤ first
    · cases le_antisymm hle hfirst
      simp [run, step, accept, State.init]
    · simp [run, step, accept, State.init, hle]

/-- Two tombstones of which the winner is older than an acceptable write: the other one
can be the last to arrive. -/
theorem exists_order_of_two_tombstones {p q : Bool} {k j x : κ}
    (hwin : IsWinner first events (.delete p k)) (hj : .delete q j ∈ events)
    (hne : (q, j) ≠ (p, k)) (hx : .write x ∈ .write first :: events) (hfirst : first ≤ x)
    (hkx : k < x) :
    ∃ l, l.Perm events ∧ (run b first l).tomb = some (q, j) := by
  have hne' : Event.delete q j ≠ Event.delete p k := by
    intro h
    cases h
    exact hne rfl
  have hj' : .delete q j ∈ events.erase (.delete p k) := (List.mem_erase_of_ne hne').mpr hj
  have hperm := ((List.perm_cons_erase hj').symm.cons (.delete p k)).trans
    (List.perm_cons_erase hwin.1).symm
  have hxr : .write x ∈ .write first :: (events.erase (.delete p k)).erase (.delete q j) := by
    simpa [List.mem_erase_of_ne] using hx
  obtain ⟨l, r, hlr, -, hlead, -⟩ := exists_lead (b := b) hxr hfirst
  have hl₀ : (l ++ r ++ [Event.delete p k, .delete q j]).Perm events :=
    List.perm_append_comm.trans ((hlr.append_left _).trans hperm)
  refine ⟨_, hl₀, ?_⟩
  have hreached : Reached first events (run b first (l ++ r)) :=
    reached_foldl reached_init fun e he => hl₀.mem_iff.mp (List.mem_append_left _ he)
  -- the newest write is never older than the leading one, so no tombstone is on top
  have hnewest : k < (run b first (l ++ r)).newest := by
    rw [run, List.foldl_append]
    exact lt_of_lt_of_le (hlead ▸ hkx) (newest_le_foldl first r (run b first l))
  have htomb := tomb_step_winner (b := b) hwin hreached
  have hnewest' : k < (step b first (run b first (l ++ r)) (.delete p k)).newest :=
    lt_of_lt_of_le hnewest (newest_le_step _ _)
  have hrun : run b first (l ++ r ++ [.delete p k, .delete q j]) =
      step b first (step b first (run b first (l ++ r)) (.delete p k))
        (.delete q j) := by
    simp [run]
  rw [hrun]
  generalize step b first (run b first (l ++ r)) (.delete p k) = s at htomb hnewest'
  simp [step, bury, htomb, hnewest'.not_gt]

/-- One tombstone with two acceptable writes newer than it: the second displaces it. -/
theorem exists_order_of_two_newer_writes {p : Bool} {k x y : κ} (hnodup : events.Nodup)
    (honly : ∀ p' k', .delete p' k' ∈ events → (p', k') = (p, k)) (hk : .delete p k ∈ events)
    (hx : .write x ∈ .write first :: events) (hy : .write y ∈ events)
    (hfirst : first ≤ x) (hkx : k < x) (hxy : x < y) :
    ∃ l, l.Perm events ∧ (run b first l).tomb = none := by
  have hy' : .write y ∈ events.erase (.delete p k) := (List.mem_erase_of_ne (by simp)).mpr hy
  have hperm := ((List.perm_cons_erase hy').symm.cons (.delete p k)).trans
    (List.perm_cons_erase hk).symm
  have hxr : .write x ∈ .write first :: (events.erase (.delete p k)).erase (.write y) := by
    simpa [List.mem_erase_of_ne, hxy.ne] using hx
  obtain ⟨l, r, hlr, hlead, hnewest, -⟩ := exists_lead (b := b) hxr hfirst
  have hl : (l ++ .delete p k :: .write y :: r).Perm events := by
    have hmid : (l ++ .delete p k :: .write y :: r).Perm (.delete p k :: .write y :: (l ++ r)) :=
      List.perm_middle.trans (List.perm_middle.cons _)
    exact hmid.trans (((hlr.cons _).cons _).trans hperm)
  refine ⟨_, hl, ?_⟩
  have hrest : ∀ p' k', Event.delete p' k' ∉ r := by
    intro p' k' h
    have hnd := hl.nodup_iff.mpr hnodup
    have hmem : .delete p' k' ∈ events := hl.mem_iff.mp (by simp [h])
    cases honly p' k' hmem
    simp [List.nodup_append, h] at hnd
  have htomb : (run b first (l ++ [.delete p k, .write y])).tomb = none := by
    simp only [run, List.foldl_append, List.foldl_cons, List.foldl_nil] at hlead hnewest ⊢
    simp [step, bury, accept, hlead, hnewest, hkx.not_gt, hxy.not_ge, (hkx.trans hxy).not_ge]
  have hrun : run b first (l ++ .delete p k :: .write y :: r) =
      r.foldl (step b first) (run b first (l ++ [.delete p k, .write y])) := by
    simp [run]
  rw [hrun]
  exact (foldl_writes first r hrest _ htomb).1

/-- Where the winner is older than an acceptable write and the events do not converge,
some order of arrival misses it. -/
theorem exists_order_without_winner {p : Bool} {k x : κ} (hnodup : events.Nodup)
    (hwin : IsWinner first events (.delete p k)) (hx : .write x ∈ .write first :: events)
    (hfirst : first ≤ x) (hkx : k < x) (hconv : ¬ Converges first events) :
    ∃ l : List (Event κ), l.Perm events ∧ ¬ IsWinner first events (run false first l).top := by
  by_cases hrival : ∃ q j, .delete q j ∈ events ∧ (q, j) ≠ (p, k)
  · obtain ⟨q, j, hj, hne⟩ := hrival
    obtain ⟨l, hl, htomb⟩ :=
      exists_order_of_two_tombstones (b := false) hwin hj hne hx hfirst hkx
    refine ⟨l, hl, fun hbad => hne ?_⟩
    rw [top_of_tomb htomb] at hbad
    exact toLex.injective (le_antisymm (hwin.2 q j hj) (hbad.2 p k hwin.1))
  · have honly : ∀ p' k', .delete p' k' ∈ events → (p', k') = (p, k) := by
      intro p' k' h
      by_contra hne
      exact hrival ⟨p', k', h, hne⟩
    have htwo : ∃ x y, .write x ∈ .write first :: events ∧ .write y ∈ .write first :: events ∧
        first ≤ x ∧ k < x ∧ x < y := by
      by_contra h
      refine hconv (Or.inr ⟨p, k, hwin, Or.inr ⟨honly, ?_⟩⟩)
      intro a b ha hb hfa hfb hka hkb
      by_contra hab
      cases lt_or_gt_of_ne hab with
      | inl hlt => exact h ⟨a, b, ha, hb, hfa, hka, hlt⟩
      | inr hgt => exact h ⟨b, a, hb, ha, hfb, hkb, hgt⟩
    obtain ⟨a, b, ha, hb, hfa, hka, hab⟩ := htwo
    have hb' : .write b ∈ events := by
      cases List.mem_cons.mp hb with
      | inl h => cases h; exact absurd hfa hab.not_ge
      | inr h => exact h
    obtain ⟨l, hl, htomb⟩ := exists_order_of_two_newer_writes (b := false) hnodup honly
      hwin.1 ha hb' hfa hka hab
    refine ⟨l, hl, fun hbad => ?_⟩
    rw [top_of_no_tomb htomb] at hbad
    exact hbad.1 p k hwin.1

/-- Every order of arrival ends with the winner exactly when the events converge. -/
theorem forall_isWinner_iff (hnodup : events.Nodup) (hages : AgesDistinct first events) :
    (∀ l : List (Event κ), l.Perm events → IsWinner first events (run false first l).top) ↔
      Converges first events := by
  constructor
  · intro hall
    by_contra hconv
    have hdel : ∃ p k, Event.delete p k ∈ events := by
      by_contra h
      exact hconv (Or.inl fun p k hm => h ⟨p, k, hm⟩)
    obtain ⟨p, k, hwin⟩ := exists_winner first hdel
    have hold : ∃ x, .write x ∈ .write first :: events ∧ ¬ x < k := by
      by_contra h
      exact hconv (Or.inr ⟨p, k, hwin, Or.inl fun x hx => by_contra fun hlt => h ⟨x, hx, hlt⟩⟩)
    obtain ⟨x, hx, hxk⟩ := hold
    have hkx : k < x := by
      refine lt_of_le_of_ne (not_lt.mp hxk) fun h => ?_
      exact hages p k hwin.1 (h ▸ hx)
    have hlost : ∃ l : List (Event κ), l.Perm events ∧
        ¬ IsWinner first events (run false first l).top := by
      by_cases hfirst : first ≤ x
      · exact exists_order_without_winner hnodup hwin hx hfirst hkx hconv
      · exact exists_order_without_winner hnodup hwin List.mem_cons_self le_rfl
          (hkx.trans (not_le.mp hfirst)) hconv
    obtain ⟨l, hl, hbad⟩ := hlost
    exact hbad (hall l hl)
  · intro hconv l hl
    exact isWinner_of_converges hages hconv hl

end Winner

/-! ## The stored items -/

section Agreement
variable {first : κ} {events : List (Event κ)}

/-- With plain tombstones only: there is none; or no write can displace the first one,
and the tombstone is the only one or newer than the first write; or one tombstone and
one acceptable write, newer than the tombstone, are all there is. -/
def Agrees (first : κ) (events : List (Event κ)) : Prop :=
  (∀ p k, Event.delete p k ∉ events) ∨
  ∃ p k, IsWinner first events (.delete p k) ∧
    (((∀ x, .write x ∈ events → x ≤ first) ∧
        ((∀ p' k', .delete p' k' ∈ events → (p', k') = (p, k)) ∨ first < k)) ∨
      ((∀ p' k', .delete p' k' ∈ events → (p', k') = (p, k)) ∧ first < k ∧
        ∃ w, .write w ∈ events ∧ k < w ∧ ∀ x, .write x ∈ events → x ≤ first ∨ x = w))

theorem stored_inj (hages : AgesDistinct first events)
    (hplain : ∀ p k, .delete p k ∈ events → p = false) {s s' : State κ}
    (hs : Reached first events s) (hs' : Reached first events s')
    (h : ∀ k, s.Stored k ↔ s'.Stored k) : s = s' := by
  have hwrites : ∀ {a b : State κ}, Reached first events a → Reached first events b →
      (∀ k, a.Stored k ↔ b.Stored k) → ∀ x ∈ a.writes, x ∈ b.writes := by
    intro a b ha hb hab x hx
    cases (hab x).mp (Or.inl hx) with
    | inl h => exact h
    | inr h =>
      obtain ⟨t, ht, rfl⟩ := h
      exact absurd (ha.writes_mem _ hx) (hages _ _ (hb.tomb_mem t ht))
  have htomb : ∀ {a b : State κ}, Reached first events a → Reached first events b →
      (∀ k, a.Stored k ↔ b.Stored k) → ∀ t, a.tomb = some t → b.tomb = some t := by
    intro a b ha hb hab t ht
    cases (hab t.2).mp (Or.inr ⟨t, ht, rfl⟩) with
    | inl h => exact absurd (hb.writes_mem _ h) (hages _ _ (ha.tomb_mem t ht))
    | inr h =>
      obtain ⟨u, hu, hut⟩ := h
      have hp : u.1 = t.1 := by
        rw [hplain _ _ (hb.tomb_mem u hu), hplain _ _ (ha.tomb_mem t ht)]
      rw [hu, Prod.ext hp hut]
  have h' : ∀ k, s'.Stored k ↔ s.Stored k := fun k => (h k).symm
  apply State.ext
  · exact Finset.ext fun x => ⟨hwrites hs hs' h x, hwrites hs' hs h' x⟩
  · exact le_antisymm (hs'.le_newest _ (hwrites hs hs' h _ hs.newest_kept))
      (hs.le_newest _ (hwrites hs' hs h' _ hs'.newest_kept))
  · cases ht : s.tomb with
    | some t => exact (htomb hs hs' h t ht).symm
    | none =>
      cases ht' : s'.tomb with
      | none => rfl
      | some t => rw [htomb hs' hs h' t ht'] at ht; cases ht

/-- Without a tombstone the newest write of all is kept beside the first one. -/
theorem run_eq_of_no_tombstone (hnone : ∀ p k, Event.delete p k ∉ events) {l l' : List (Event κ)}
    (hl : l.Perm events) (hl' : l'.Perm events) : run true first l = run true first l' := by
  have key : ∀ {l : List (Event κ)}, l.Perm events → (run true first l).tomb = none ∧
      ∀ k, .write k ∈ .write first :: events → k ≤ (run true first l).newest := by
    intro l hl
    obtain ⟨htomb, hmax⟩ := foldl_writes (b := true) first l
      (fun p k h => hnone p k (hl.mem_iff.mp h)) (State.init first) rfl
    refine ⟨htomb, fun k hk => ?_⟩
    cases List.mem_cons.mp hk with
    | inl h => cases h; exact (reached_run hl).first_le
    | inr h => exact hmax k (hl.mem_iff.mpr h)
  have hs : Reached first events (run true first l) := reached_run hl
  have hs' : Reached first events (run true first l') := reached_run hl'
  have hnewest : (run true first l).newest = (run true first l').newest :=
    le_antisymm ((key hl').2 _ hs.newest_mem) ((key hl).2 _ hs'.newest_mem)
  apply State.ext
  · rw [hs.live (key hl).1, hs'.live (key hl').1, hnewest]
  · exact hnewest
  · rw [(key hl).1, (key hl').1]

/-- Where no write displaces the first one, only the tombstones matter. -/
theorem foldl_of_refused_writes (hold : ∀ x, .write x ∈ events → x ≤ first)
    {l : List (Event κ)} (hl : ∀ e ∈ l, e ∈ events) {s : State κ} (hs : s.writes = {first})
    (hn : s.newest = first) :
    (l.foldl (step true first) s).writes = {first} ∧
      (l.foldl (step true first) s).newest = first := by
  induction l generalizing s with
  | nil => exact ⟨hs, hn⟩
  | cons e l ih =>
    have hstep : (step true first s e).writes = {first} ∧ (step true first s e).newest = first := by
      cases e with
      | write k =>
        have hk : k ≤ s.newest := hn ▸ hold k (hl _ (by simp))
        have hkeep : accept true first s k = s := accept_of_le hk
        exact ⟨by simp [step, hkeep, hs], by simp [step, hkeep, hn]⟩
      | delete p k =>
        obtain h | ⟨h, -⟩ := bury_cases first s (p, k)
        · exact ⟨by simp [step, h, hn], by simp [step, h, hn]⟩
        · exact ⟨by simp [step, h, hs], by simp [step, h, hn]⟩
    exact ih (fun e' he' => hl e' (by simp [he'])) hstep.1 hstep.2

theorem tomb_foldl_of_refused_writes {p : Bool} {k : κ}
    (hold : ∀ x, .write x ∈ events → x ≤ first)
    (honly : ∀ p' k', .delete p' k' ∈ events → (p', k') = (p, k))
    {l : List (Event κ)} (hl : ∀ e ∈ l, e ∈ events) {s : State κ} (hn : first ≤ s.newest)
    (ht : s.tomb = some (p, k)) : (l.foldl (step true first) s).tomb = some (p, k) := by
  induction l generalizing s with
  | nil => exact ht
  | cons e l ih =>
    have hstep : (step true first s e).tomb = some (p, k) := by
      cases e with
      | write x => simp [step, accept_of_le ((hold x (hl _ (by simp))).trans hn), ht]
      | delete q j =>
        cases honly q j (hl _ (by simp))
        obtain h | ⟨h, -⟩ := bury_cases first s (p, k)
        · simp [step, h]
        · simp [step, h, ht]
    exact ih (fun e' he' => hl e' (by simp [he'])) (hn.trans (newest_le_step s e)) hstep

theorem run_of_refused_writes {p : Bool} {k : κ} (hwin : IsWinner first events (.delete p k))
    (hold : ∀ x, .write x ∈ events → x ≤ first)
    (hk : (∀ p' k', .delete p' k' ∈ events → (p', k') = (p, k)) ∨ first < k)
    {l : List (Event κ)} (hl : l.Perm events) :
    run true first l = ⟨{first}, first, some (p, k)⟩ := by
  have hmem : ∀ e ∈ l, e ∈ events := fun e he => hl.mem_iff.mp he
  obtain ⟨hwrites, hnewest⟩ := foldl_of_refused_writes hold hmem (s := State.init first) rfl rfl
  obtain ⟨l₁, l₂, rfl⟩ := List.append_of_mem (hl.mem_iff.mpr hwin.1)
  have h₁ : Reached first events (run true first l₁) :=
    reached_foldl reached_init fun e he => hmem e (by simp [he])
  have h₂ := reached_step (b := true) h₁ hwin.1
  have htomb₁ := tomb_step_winner (b := true) hwin h₁
  have hl₂ : ∀ e ∈ l₂, e ∈ events := fun e he => hmem e (by simp [he])
  have hrun : run true first (l₁ ++ .delete p k :: l₂) =
      l₂.foldl (step true first) (step true first (run true first l₁) (.delete p k)) := by
    simp [run]
  have htomb : (run true first (l₁ ++ .delete p k :: l₂)).tomb = some (p, k) := by
    rw [hrun]
    cases hk with
    | inr hlt =>
      have hnew : ∀ x, .write x ∈ .write first :: events → x < k := by
        intro x hx
        cases List.mem_cons.mp hx with
        | inl h => cases h; exact hlt
        | inr h => exact lt_of_le_of_lt (hold x h) hlt
      rw [foldl_of_newest_winner hwin hnew hl₂ h₂ htomb₁]
      exact htomb₁
    | inl honly => exact tomb_foldl_of_refused_writes hold honly hl₂ h₂.first_le htomb₁
  exact State.ext hwrites hnewest htomb

/-- The four states one tombstone and one acceptable write can be in. -/
def pairState (first w : κ) (t : Bool × κ) (written buried : Bool) : State κ :=
  ⟨if written then {first, w} else {first}, if written then w else first,
    if buried then some t else none⟩

theorem step_pairState_write {w : κ} {t : Bool × κ} (hfirst : first < t.2) (hw : t.2 < w)
    (written buried : Bool) :
    step true first (pairState first w t written buried) (.write w) =
      pairState first w t true buried := by
  have hfw : first < w := hfirst.trans hw
  cases written with
  | true => cases buried <;> simp [step, accept, pairState]
  | false =>
    cases buried with
    | false => simp [step, accept, pairState, hfw.not_ge]
    | true =>
      simp [step, accept, pairState, hfw.not_ge, hw.not_ge, hfirst, Finset.pair_comm]

theorem step_pairState_refused {w x : κ} {t : Bool × κ} (hw : first < w) (hx : x ≤ first)
    (written buried : Bool) :
    step true first (pairState first w t written buried) (.write x) =
      pairState first w t written buried := by
  have hxw : x ≤ w := hx.trans hw.le
  cases written <;> cases buried <;> simp [step, accept, pairState, hx, hxw]

theorem step_pairState_delete {w : κ} {t : Bool × κ} (hfirst : first < t.2) (hw : t.2 < w)
    (written buried : Bool) :
    step true first (pairState first w t written buried) (.delete t.1 t.2) =
      pairState first w t written true := by
  cases written with
  | false => cases buried <;> simp [step, bury, pairState, hfirst]
  | true => cases buried <;> simp [step, bury, pairState, hw.not_gt]

theorem foldl_pairState {w : κ} {t : Bool × κ} (hfirst : first < t.2) (hw : t.2 < w)
    {l : List (Event κ)} (hl : ∀ e ∈ l, e = .write w ∨ e = .delete t.1 t.2 ∨
      ∃ x, e = .write x ∧ x ≤ first) (written buried : Bool) :
    l.foldl (step true first) (pairState first w t written buried) =
      pairState first w t (written || l.contains (.write w))
        (buried || l.contains (.delete t.1 t.2)) := by
  induction l generalizing written buried with
  | nil => simp
  | cons e l ih =>
    have hl' : ∀ e ∈ l, e = .write w ∨ e = .delete t.1 t.2 ∨ ∃ x, e = .write x ∧ x ≤ first :=
      fun e' he' => hl e' (by simp [he'])
    obtain rfl | rfl | ⟨x, rfl, hx⟩ := hl e (by simp)
    · rw [List.foldl_cons, step_pairState_write hfirst hw, ih hl']
      simp
    · rw [List.foldl_cons, step_pairState_delete hfirst hw, ih hl']
      simp
    · have hne : w ≠ x := (lt_of_le_of_lt hx (hfirst.trans hw)).ne'
      rw [List.foldl_cons, step_pairState_refused (hfirst.trans hw) hx, ih hl']
      simp [hne]

theorem run_eq_of_agrees (hagrees : Agrees first events) {l l' : List (Event κ)}
    (hl : l.Perm events) (hl' : l'.Perm events) : run true first l = run true first l' := by
  obtain hnone | ⟨p, k, hwin, ⟨hold, hk⟩ | ⟨honly, hfirst, w, hwmem, hkw, hw⟩⟩ := hagrees
  · exact run_eq_of_no_tombstone hnone hl hl'
  · rw [run_of_refused_writes hwin hold hk hl, run_of_refused_writes hwin hold hk hl']
  · have key : ∀ {l : List (Event κ)}, l.Perm events →
        run true first l = pairState first w (p, k) true true := by
      intro l hl
      have hshape : ∀ e ∈ l, e = .write w ∨ e = .delete p k ∨ ∃ x, e = .write x ∧ x ≤ first := by
        intro e he
        cases e with
        | write x =>
          cases hw x (hl.mem_iff.mp he) with
          | inl h => exact Or.inr (Or.inr ⟨x, rfl, h⟩)
          | inr h => exact Or.inl (by rw [h])
        | delete q j =>
          cases honly q j (hl.mem_iff.mp he)
          exact Or.inr (Or.inl rfl)
      have hrun : run true first l = _ :=
        foldl_pairState (t := (p, k)) hfirst hkw hshape false false
      have hwl : .write w ∈ l := hl.mem_iff.mpr hwmem
      have hkl : .delete p k ∈ l := hl.mem_iff.mpr hwin.1
      simpa [hwl, hkl] using hrun
    rw [key hl, key hl']

/-- The winning tombstone can be the last to arrive. -/
theorem run_ending_in_winner {p : Bool} {k : κ} (hwin : IsWinner first events (.delete p k))
    {l : List (Event κ)} (hl : (l ++ [Event.delete p k]).Perm events)
    (hnewest : ¬ (run true first l).newest < k) :
    run true first (l ++ [.delete p k]) =
      ⟨{first, (run true first l).newest}, (run true first l).newest, some (p, k)⟩ := by
  have hreached : Reached first events (run true first l) :=
    reached_foldl reached_init fun e he => hl.mem_iff.mp (List.mem_append_left _ he)
  have hrun : run true first (l ++ [.delete p k]) = bury first (run true first l) (p, k) := by
    simp [run, step]
  rw [hrun]
  obtain h | ⟨-, u, hu, hlt, hle⟩ := bury_cases first (run true first l) (p, k)
  · exact h
  · have heq : (p, k) = u :=
      toLex.injective (le_antisymm hle (hwin.2 u.1 u.2 (hreached.tomb_mem u hu)))
    subst heq
    exact absurd hlt hnewest

/-- A write between the first one and the tombstone stays when the tombstone and then a
newer write arrive, and goes when the newer write comes first. -/
theorem exists_orders_of_middle_write {p : Bool} {k x z : κ} (hnodup : events.Nodup)
    (hwin : IsWinner first events (.delete p k))
    (honly : ∀ p' k', .delete p' k' ∈ events → (p', k') = (p, k))
    (hx : .write x ∈ events) (hz : .write z ∈ events) (hfz : first < z) (hzk : z < k)
    (hkx : k < x) (hmax : ∀ y, .write y ∈ events → y ≤ x) :
    ∃ l l' : List (Event κ), l.Perm events ∧ l'.Perm events ∧
      (run true first l).writes ≠ (run true first l').writes := by
  have hzx : z < x := hzk.trans hkx
  have hx' : .write x ∈ events.erase (.delete p k) := (List.mem_erase_of_ne (by simp)).mpr hx
  have hz' : .write z ∈ (events.erase (.delete p k)).erase (.write x) := by
    rw [List.mem_erase_of_ne (by simpa using hzx.ne), List.mem_erase_of_ne (by simp)]
    exact hz
  have hperm := ((List.perm_cons_erase hx').symm.cons (.delete p k)).trans
    (List.perm_cons_erase hwin.1).symm
  generalize hrest : ((events.erase (.delete p k)).erase (.write x)).erase (.write z) = rest
  have hsplit : (.write z :: rest).Perm ((events.erase (.delete p k)).erase (.write x)) :=
    hrest ▸ (List.perm_cons_erase hz').symm
  have hl : (.write z :: .delete p k :: .write x :: rest).Perm events := by
    have hmove : (.write z :: .delete p k :: .write x :: rest).Perm
        (.delete p k :: .write x :: .write z :: rest) :=
      (List.Perm.swap _ _ _).trans ((List.Perm.swap _ _ _).cons _)
    exact hmove.trans (((hsplit.cons _).cons _).trans hperm)
  have hl' : (.write x :: .write z :: rest ++ [Event.delete p k]).Perm events :=
    List.perm_append_comm.trans (((hsplit.cons _).cons _).trans hperm)
  refine ⟨_, _, hl, hl', fun heq => ?_⟩
  have hmid : z ∈ (run true first (.write z :: .delete p k :: .write x :: rest)).writes := by
    have hstart : run true first [.write z, .delete p k, .write x] =
        ⟨{x, first, z}, x, some (p, k)⟩ := by
      simp [run, step, accept, bury, State.init, hfz.not_ge, hzx.not_ge, hkx.not_ge, hzk]
    have hkeep : ∀ l : List (Event κ), (∀ e ∈ l, ∃ y, e = .write y ∧ y ≤ x) →
        l.foldl (step true first) ⟨{x, first, z}, x, some (p, k)⟩ =
          ⟨{x, first, z}, x, some (p, k)⟩ := by
      intro l hwrites
      induction l with
      | nil => rfl
      | cons e l ih =>
        obtain ⟨y, rfl, hy⟩ := hwrites e (by simp)
        rw [List.foldl_cons, step, accept_of_le (by simpa using hy)]
        exact ih fun e' he' => hwrites e' (by simp [he'])
    have hwrites : ∀ e ∈ rest, ∃ y, e = .write y ∧ y ≤ x := by
      intro e he
      have hmem : e ∈ events := hl.mem_iff.mp (by simp [he])
      cases e with
      | write y => exact ⟨y, rfl, hmax y hmem⟩
      | delete q j =>
        cases honly q j hmem
        have hnd := hl.nodup_iff.mpr hnodup
        simp [he] at hnd
    have hrun : run true first (.write z :: .delete p k :: .write x :: rest) =
        rest.foldl (step true first) (run true first [.write z, .delete p k, .write x]) := by
      simp [run]
    rw [hrun, hstart, hkeep rest hwrites]
    simp
  have hlead : x ≤ (run true first (.write x :: .write z :: rest)).newest := by
    have hx₁ : (step true first (State.init first) (.write x)).newest = x := by
      simp [step, accept, State.init, (hfz.trans hzx).not_ge]
    have := newest_le_foldl (b := true) first (.write z :: rest)
      (step true first (State.init first) (.write x))
    rwa [hx₁] at this
  have hend := run_ending_in_winner hwin hl' (hkx.trans_le hlead).not_gt
  rw [heq, hend] at hmid
  simp only [Finset.mem_insert, Finset.mem_singleton] at hmid
  obtain h | h := hmid
  · exact hfz.ne' h
  · exact (hzx.trans_le hlead).ne h

/-- A tombstone newer than every write refuses an update that comes after it and keeps
one that came before. -/
theorem exists_orders_of_newest_tombstone {p : Bool} {k u : κ}
    (hwin : IsWinner first events (.delete p k)) (hu : .write u ∈ events) (hfu : first < u)
    (hnew : ∀ x, .write x ∈ .write first :: events → x < k) :
    ∃ l l' : List (Event κ), l.Perm events ∧ l'.Perm events ∧
      (run true first l).newest ≠ (run true first l').newest := by
  generalize hrest : events.erase (.delete p k) = rest
  have hl : (.delete p k :: rest).Perm events := hrest ▸ (List.perm_cons_erase hwin.1).symm
  have hu' : .write u ∈ rest := hrest ▸ (List.mem_erase_of_ne (by simp)).mpr hu
  have hl' : (.write u :: (rest.erase (.write u) ++ [Event.delete p k])).Perm events :=
    ((List.perm_cons_erase hu').symm.append_right _).trans (List.perm_append_comm.trans hl)
  have hearly : (run true first (.delete p k :: rest)).newest = first := by
    have hstart : Reached first events (step true first (State.init first) (.delete p k)) :=
      reached_step reached_init hwin.1
    have hfinal := foldl_of_newest_winner (b := true) (l := rest) hwin hnew
      (fun e he => hl.mem_iff.mp (by simp [he])) hstart (tomb_step_winner hwin reached_init)
    rw [run, List.foldl_cons, hfinal]
    simp [step, bury, State.init]
  have hlate : u ≤ (run true first (.write u :: (rest.erase (.write u) ++
      [Event.delete p k]))).newest := by
    have hu₁ : (step true first (State.init first) (.write u)).newest = u := by
      simp [step, accept, State.init, hfu.not_ge]
    have := newest_le_foldl (b := true) first
      (rest.erase (.write u) ++ [Event.delete p k]) (step true first (State.init first) (.write u))
    rwa [hu₁] at this
  refine ⟨_, _, hl, hl', fun h => ?_⟩
  rw [← h, hearly] at hlate
  exact absurd hlate hfu.not_ge

theorem agrees_of_run_eq (hnodup : events.Nodup) (hages : AgesDistinct first events)
    (hall : ∀ l l' : List (Event κ), l.Perm events → l'.Perm events →
      run true first l = run true first l') : Agrees first events := by
  by_cases hdel : ∃ p k, Event.delete p k ∈ events
  case neg => exact Or.inl fun p k h => hdel ⟨p, k, h⟩
  obtain ⟨p, k, hwin⟩ := exists_winner first hdel
  have hkw : ∀ x, .write x ∈ .write first :: events → k ≠ x := by
    intro x hx h
    exact hages p k hwin.1 (h ▸ hx)
  have hlast : (events.erase (.delete p k) ++ [Event.delete p k]).Perm events :=
    List.perm_append_comm.trans (List.perm_cons_erase hwin.1).symm
  have htomb : ∀ l : List (Event κ), l.Perm events → (run true first l).tomb = some (p, k) := by
    intro l hl
    have hreached : Reached first events (run true first (events.erase (.delete p k))) :=
      reached_foldl reached_init fun e he => List.mem_of_mem_erase he
    rw [hall _ _ hl hlast]
    simpa [run] using tomb_step_winner (b := true) hwin hreached
  have hrival : ∀ x, .write x ∈ .write first :: events → first ≤ x → k < x →
      ∀ p' k', .delete p' k' ∈ events → (p', k') = (p, k) := by
    intro x hx hfx hkx q j hj
    by_contra hne
    obtain ⟨l, hl, h⟩ := exists_order_of_two_tombstones (b := true) hwin hj hne hx hfx hkx
    rw [htomb l hl] at h
    exact hne (Option.some.inj h).symm
  have hpair : ∀ x y, .write x ∈ .write first :: events → .write y ∈ events → first ≤ x →
      k < x → ¬ x < y := by
    intro x y hx hy hfx hkx hxy
    obtain ⟨l, hl, h⟩ := exists_order_of_two_newer_writes (b := true) hnodup
      (hrival x hx hfx hkx) hwin.1 hx hy hfx hkx hxy
    rw [htomb l hl] at h
    cases h
  refine Or.inr ⟨p, k, hwin, ?_⟩
  by_cases hold : ∀ x, .write x ∈ events → x ≤ first
  · refine Or.inl ⟨hold, ?_⟩
    by_cases hlt : first < k
    · exact Or.inr hlt
    · have hkf : k < first := lt_of_le_of_ne (not_lt.mp hlt) (hkw first (by simp))
      exact Or.inl (hrival first (by simp) le_rfl hkf)
  · simp only [not_forall, not_le] at hold
    obtain ⟨u, hu, hfu⟩ := hold
    by_cases hnewer : ∃ x, .write x ∈ events ∧ k < x ∧ first ≤ x
    · obtain ⟨x, hx, hkx, hfx⟩ := hnewer
      have hx' : .write x ∈ .write first :: events := List.mem_cons_of_mem _ hx
      have honly := hrival x hx' hfx hkx
      have hfk : first < k := by
        by_contra h
        have hkf : k < first := lt_of_le_of_ne (not_lt.mp h) (hkw first (by simp))
        exact hpair first u (by simp) hu le_rfl hkf hfu
      have hmax : ∀ y, .write y ∈ events → y ≤ x :=
        fun y hy => not_lt.mp (hpair x y hx' hy hfx hkx)
      refine Or.inr ⟨honly, hfk, x, hx, hkx, fun z hz => ?_⟩
      by_contra hz'
      have hfz : first < z := not_le.mp fun h => hz' (Or.inl h)
      have hzx : z < x := lt_of_le_of_ne (hmax z hz) fun h => hz' (Or.inr h)
      have hzk : z < k := by
        by_contra h
        have hkz : k < z :=
          lt_of_le_of_ne (not_lt.mp h) (hkw z (List.mem_cons_of_mem _ hz))
        exact hpair z x (List.mem_cons_of_mem _ hz) hx hfz.le hkz hzx
      obtain ⟨l, l', hl, hl', hne⟩ :=
        exists_orders_of_middle_write hnodup hwin honly hx hz hfz hzk hkx hmax
      exact hne (by rw [hall l l' hl hl'])
    · exfalso
      have hnew : ∀ x, .write x ∈ .write first :: events → x < k := by
        have hfk : first < k :=
          lt_of_lt_of_le hfu (not_lt.mp fun h => hnewer ⟨u, hu, h, hfu.le⟩)
        intro x hx
        cases List.mem_cons.mp hx with
        | inl h => cases h; exact hfk
        | inr h =>
          by_cases hfx : first ≤ x
          · exact lt_of_le_of_ne (not_lt.mp fun h' => hnewer ⟨x, h, h', hfx⟩) (hkw x hx).symm
          · exact (not_le.mp hfx).trans hfk
      obtain ⟨l, l', hl, hl', hne⟩ := exists_orders_of_newest_tombstone hwin hu hfu hnew
      exact hne (by rw [hall l l' hl hl'])

/-- Every two orders of arrival end with the same stored items exactly when the events
agree. -/
theorem forall_stored_iff (hnodup : events.Nodup) (hages : AgesDistinct first events)
    (hplain : ∀ p k, .delete p k ∈ events → p = false) :
    (∀ l l' : List (Event κ), l.Perm events → l'.Perm events →
      ∀ k, (run true first l).Stored k ↔ (run true first l').Stored k) ↔ Agrees first events := by
  constructor
  · intro hall
    refine agrees_of_run_eq hnodup hages fun l l' hl hl' => ?_
    exact stored_inj hages hplain (reached_run hl) (reached_run hl') (hall l l' hl hl')
  · intro hagrees l l' hl hl' k
    rw [run_eq_of_agrees hagrees hl hl']

end Agreement

end TombstoneMachine
