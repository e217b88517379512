import Mathlib.Data.List.Nodup

/-! Processes that share a state and take their steps in any order. A process works on
one key; when no two processes work on the same key at a time, what holds of a key
between the processes is kept by every run. -/
namespace Interleaving
variable {π σ κ : Type}

section Modify
variable {xs : List π} {i : Nat} {p : π}

/-- After one process has changed, the processes are the old ones and the changed one. -/
theorem mem_modify {f : π → π} (hi : xs[i]? = some p) {q : π} (hq : q ∈ xs.modify i f) :
    q ∈ xs ∨ q = f p := by
  obtain ⟨j, hj⟩ := List.mem_iff_getElem?.mp hq
  rw [List.getElem?_modify] at hj
  by_cases hij : i = j
  · subst hij
    simp only [hi, if_true, Option.map_eq_map, Option.map_some, Option.some.injEq] at hj
    exact Or.inr hj.symm
  · simp only [hij, if_false, id_map'] at hj
    exact Or.inl (List.mem_of_getElem? hj)

theorem modify_mem (f : π → π) (hi : xs[i]? = some p) : f p ∈ xs.modify i f := by
  apply List.mem_of_getElem? (i := i)
  simp [hi]

theorem mem_modify_of_ne (f : π → π) (hi : xs[i]? = some p) {q : π} (hq : q ∈ xs) :
    q ∈ xs.modify i f ∨ q = p := by
  obtain ⟨j, hj⟩ := List.mem_iff_getElem?.mp hq
  by_cases hij : i = j
  · subst hij
    rw [hi] at hj
    exact Or.inr (Option.some.inj hj).symm
  · refine Or.inl (List.mem_of_getElem? (i := j) ?_)
    simp [hij, hj]

end Modify

/-- The shared state and the processes under way. -/
structure Pool (π σ : Type) where
  shared : σ
  inFlight : List π := []

inductive Action (π : Type) where
  | start (p : π)
  | advance (n : Nat)

namespace Pool

/-- `next` takes one step of a process; a process that returns nothing is over. -/
def step (next : π → σ → Option π × σ) (w : Pool π σ) : Action π → Pool π σ
  | .start p => { w with inFlight := w.inFlight ++ [p] }
  | .advance n =>
    match w.inFlight[n]? with
    | none => w
    | some p =>
      match next p w.shared with
      | (none, s) => { shared := s, inFlight := w.inFlight.eraseIdx n }
      | (some p', s) => { shared := s, inFlight := w.inFlight.set n p' }

def run (next : π → σ → Option π × σ) (w : Pool π σ) (actions : List (Action π)) : Pool π σ :=
  actions.foldl (step next) w

/-- No process of the same key is under way when one starts. -/
def Free (key : π → κ) (w : Pool π σ) : Action π → Prop
  | .start p => ∀ q ∈ w.inFlight, key q ≠ key p
  | .advance _ => True

instance [DecidableEq κ] (key : π → κ) (w : Pool π σ) (action : Action π) :
    Decidable (w.Free key action) :=
  match action with
  | .start p => inferInstanceAs (Decidable (∀ q ∈ w.inFlight, key q ≠ key p))
  | .advance _ => inferInstanceAs (Decidable True)

def Exclusive (next : π → σ → Option π × σ) (key : π → κ) : Pool π σ → List (Action π) → Prop
  | _, [] => True
  | w, action :: actions => w.Free key action ∧ Exclusive next key (w.step next action) actions

instance decidableExclusive [DecidableEq κ] (next : π → σ → Option π × σ) (key : π → κ) :
    (w : Pool π σ) → (actions : List (Action π)) → Decidable (w.Exclusive next key actions)
  | _, [] => inferInstanceAs (Decidable True)
  | w, action :: actions =>
    have := decidableExclusive next key (w.step next action) actions
    inferInstanceAs (Decidable (w.Free key action ∧ _))

end Pool

/-- What a process relies on: `idle` holds of a key no process works on, `busy` of the
state while the process is under way. -/
structure Discipline (next : π → σ → Option π × σ) (key : π → κ) (entry : π → Prop) where
  idle : κ → σ → Prop
  busy : π → σ → Prop
  enter : ∀ p s, entry p → idle (key p) s → busy p s
  leave : ∀ p s s', busy p s → next p s = (none, s') → idle (key p) s'
  resume : ∀ p p' s s', busy p s → next p s = (some p', s') → key p' = key p ∧ busy p' s'
  idle_frame : ∀ p s k, k ≠ key p → idle k s → idle k (next p s).2
  busy_frame : ∀ p q s, key q ≠ key p → busy q s → busy q (next p s).2

section Rule
variable {next : π → σ → Option π × σ} {key : π → κ} {entry : π → Prop}

structure Discipline.Holds (d : Discipline next key entry) (w : Pool π σ) : Prop where
  distinct : (w.inFlight.map key).Nodup
  idle : ∀ k, (∀ p ∈ w.inFlight, key p ≠ k) → d.idle k w.shared
  busy : ∀ p ∈ w.inFlight, d.busy p w.shared

variable {d : Discipline next key entry} {w : Pool π σ}

theorem key_ne_of_getElem? (hdistinct : (w.inFlight.map key).Nodup) {n : Nat} {p q : π}
    (hp : w.inFlight[n]? = some p) {m : Nat} (hq : w.inFlight[m]? = some q) (h : m ≠ n) :
    key q ≠ key p := by
  intro heq
  obtain ⟨hn, hpn⟩ := List.getElem?_eq_some_iff.mp hp
  obtain ⟨hm, hqm⟩ := List.getElem?_eq_some_iff.mp hq
  have hm' : m < (w.inFlight.map key).length := by simpa using hm
  have hn' : n < (w.inFlight.map key).length := by simpa using hn
  have hsame : (w.inFlight.map key)[m] = (w.inFlight.map key)[n] := by
    simpa [hpn, hqm] using heq
  exact h (hdistinct.getElem_inj_iff.mp hsame)

theorem Discipline.Holds.start (h : d.Holds w) {p : π} (hentry : entry p)
    (hfree : ∀ q ∈ w.inFlight, key q ≠ key p) : d.Holds (w.step next (.start p)) where
  distinct := by
    rw [Pool.step, List.map_append, List.nodup_append]
    refine ⟨h.distinct, by simp, ?_⟩
    intro k hk k' hk' heq
    obtain ⟨q, hq, rfl⟩ := List.mem_map.mp hk
    rw [List.map_singleton, List.mem_singleton] at hk'
    exact hfree q hq (heq.trans hk')
  idle := fun k hk => h.idle k fun q hq => hk q (by simp [Pool.step, hq])
  busy := by
    intro q hq
    obtain hq | hq := List.mem_append.mp hq
    · exact h.busy q hq
    · rw [List.mem_singleton.mp hq]
      exact d.enter p _ hentry (h.idle _ hfree)

theorem Discipline.Holds.finish (h : d.Holds w) {n : Nat} {p : π} {s : σ}
    (hp : w.inFlight[n]? = some p) (hnext : next p w.shared = (none, s)) :
    d.Holds { shared := s, inFlight := w.inFlight.eraseIdx n } where
  distinct := by
    exact h.distinct.sublist ((List.eraseIdx_sublist _ _).map key)
  idle := by
    intro k hk
    by_cases hkey : k = key p
    · rw [hkey]
      exact d.leave p _ _ (h.busy p (List.mem_of_getElem? hp)) hnext
    · have hidle : d.idle k w.shared := by
        refine h.idle k fun q hq hqk => ?_
        obtain ⟨m, hm⟩ := List.getElem?_of_mem hq
        by_cases hmn : m = n
        · rw [hmn, hp, Option.some.injEq] at hm
          exact hkey (by rw [hm, hqk])
        · exact hk q (List.mem_eraseIdx_iff_getElem?.mpr ⟨m, hmn, hm⟩) hqk
      have hframe := d.idle_frame p w.shared k hkey hidle
      rwa [hnext] at hframe
  busy := by
    intro q hq
    obtain ⟨m, hmn, hm⟩ := List.mem_eraseIdx_iff_getElem?.mp hq
    have hframe := d.busy_frame p q w.shared (key_ne_of_getElem? h.distinct hp hm hmn)
      (h.busy q (List.mem_of_getElem? hm))
    rwa [hnext] at hframe

theorem Discipline.Holds.advance (h : d.Holds w) {n : Nat} {p p' : π} {s : σ}
    (hp : w.inFlight[n]? = some p) (hnext : next p w.shared = (some p', s)) :
    d.Holds { shared := s, inFlight := w.inFlight.set n p' } := by
  obtain ⟨hkey, hbusy⟩ := d.resume p p' _ _ (h.busy p (List.mem_of_getElem? hp)) hnext
  obtain ⟨hn, hpn⟩ := List.getElem?_eq_some_iff.mp hp
  have hmap : (w.inFlight.set n p').map key = w.inFlight.map key := by
    rw [List.map_set, hkey, ← hpn, ← List.getElem_map key (h := by simpa using hn),
      List.set_getElem_self]
  refine ⟨hmap ▸ h.distinct, ?_, ?_⟩
  · intro k hk
    have hkeys : ∀ q ∈ w.inFlight, key q ≠ k := by
      intro q hq hqk
      have : k ∈ (w.inFlight.set n p').map key := by
        rw [hmap]
        exact List.mem_map.mpr ⟨q, hq, hqk⟩
      obtain ⟨q', hq', hqk'⟩ := List.mem_map.mp this
      exact hk q' hq' hqk'
    have hframe := d.idle_frame p w.shared k
      (fun heq => hkeys p (List.mem_of_getElem? hp) heq.symm) (h.idle k hkeys)
    rwa [hnext] at hframe
  · intro q hq
    obtain ⟨m, hm⟩ := List.getElem?_of_mem hq
    by_cases hmn : m = n
    · rw [hmn, List.getElem?_set_self hn, Option.some.injEq] at hm
      rwa [← hm]
    · rw [List.getElem?_set_ne (Ne.symm hmn)] at hm
      have hframe := d.busy_frame p q w.shared (key_ne_of_getElem? h.distinct hp hm hmn)
        (h.busy q (List.mem_of_getElem? hm))
      rwa [hnext] at hframe

/-- The discipline holds in every state an exclusive run leads to. -/
theorem Discipline.holds_run {actions : List (Action π)} (h : d.Holds w)
    (hentry : ∀ p, Action.start p ∈ actions → entry p) (hexcl : w.Exclusive next key actions) :
    d.Holds (w.run next actions) := by
  induction actions generalizing w with
  | nil => exact h
  | cons action actions ih =>
    refine ih ?_ (fun p hp => hentry p (List.mem_cons_of_mem _ hp)) hexcl.2
    cases action with
    | start p => exact h.start (hentry p (by simp)) hexcl.1
    | advance n =>
      simp only [Pool.step]
      cases hp : w.inFlight[n]? with
      | none => exact h
      | some p =>
        dsimp only
        rcases hnext : next p w.shared with ⟨result, s⟩
        cases result with
        | none => exact h.finish hp hnext
        | some p' => exact h.advance hp hnext

end Rule

end Interleaving
