import Mathlib.Data.Finset.Card
import Mathlib.Data.Finset.SDiff
import Mathlib.Logic.Relation

/-! Depth-first search of a graph whose nodes are fetched by key. A node is active until all
its edges have been followed; meeting an active node is a failure, so a search that ends well
has seen a graph without cycles. -/
namespace DepthFirst

variable {κ ν β ε : Type}

inductive Halt (ε : Type) where
  | failed (e : ε)
  | outOfFuel
  deriving DecidableEq, Repr

/-- A node is checked when it is entered; an edge is checked before its target is looked at, and
the node behind it is fetched only when its key is new. -/
structure Graph (κ ν β ε : Type) where
  key : ν → κ
  enter : ν → Except ε Unit
  edges : ν → List β
  target : β → κ
  check : ν → β → Except ε Unit
  fetch : ν → β → Except ε ν
  nodeActive : ν → ε
  targetActive : ν → β → ε

structure Search (κ ν : Type) where
  visited : List (κ × ν) := []
  active : List κ := []

def Search.keys (s : Search κ ν) : List κ := s.visited.map Prod.fst

section Visit
variable [DecidableEq κ] (G : Graph κ ν β ε)

def follow (visit : ν → Search κ ν → Except (Halt ε) (Search κ ν)) (v : ν) (s : Search κ ν)
    (e : β) : Except (Halt ε) (Search κ ν) :=
  match G.check v e with
  | .error err => .error (.failed err)
  | .ok () =>
    if G.target e ∈ s.active then .error (.failed (G.targetActive v e))
    else if G.target e ∈ s.keys then .ok s
    else match G.fetch v e with
      | .error err => .error (.failed err)
      | .ok w => visit w s

def visit : Nat → ν → Search κ ν → Except (Halt ε) (Search κ ν)
  | 0, _, _ => .error .outOfFuel
  | fuel + 1, v, s =>
    if G.key v ∈ s.active then .error (.failed (G.nodeActive v))
    else if G.key v ∈ s.keys then .ok s
    else match G.enter v with
      | .error err => .error (.failed err)
      | .ok () =>
        match (G.edges v).foldlM (follow G (visit fuel) v)
            ⟨s.visited ++ [(G.key v, v)], G.key v :: s.active⟩ with
        | .error halt => .error halt
        | .ok s => .ok { s with active := s.active.erase (G.key v) }

end Visit

section Search
variable [DecidableEq κ] {G : Graph κ ν β ε} {s s' : Search κ ν} {v : ν} {fuel : Nat}
  {next : ν → Search κ ν → Except (Halt ε) (Search κ ν)}

theorem follow_eq_ok {e : β} (h : follow G next v s e = .ok s') :
    G.target e ∉ s.active ∧ (G.target e ∈ s.keys ∧ s' = s ∨
      ∃ w, G.fetch v e = .ok w ∧ next w s = .ok s') := by
  unfold follow at h
  split at h
  · cases h
  · split at h
    · cases h
    · next hactive =>
      split at h
      · next hvisited =>
        cases h
        exact ⟨hactive, Or.inl ⟨hvisited, rfl⟩⟩
      · split at h
        · cases h
        · next w hw => exact ⟨hactive, Or.inr ⟨w, hw, h⟩⟩

theorem visit_eq_ok (h : visit G (fuel + 1) v s = .ok s') :
    G.key v ∉ s.active ∧ (G.key v ∈ s.keys ∧ s' = s ∨ G.key v ∉ s.keys ∧
      ∃ s₁, (G.edges v).foldlM (follow G (visit G fuel) v)
          ⟨s.visited ++ [(G.key v, v)], G.key v :: s.active⟩ = .ok s₁ ∧
        s' = { s₁ with active := s₁.active.erase (G.key v) }) := by
  rw [visit] at h
  split at h
  · cases h
  · next hactive =>
    split at h
    · next hvisited =>
      cases h
      exact ⟨hactive, Or.inl ⟨hvisited, rfl⟩⟩
    · next hnew =>
      split at h
      · cases h
      · split at h
        · cases h
        · next s₁ hs₁ =>
          cases h
          exact ⟨hactive, Or.inr ⟨hnew, s₁, hs₁, rfl⟩⟩

/-- A successful search makes no node active that was not, and keeps what was visited. -/
structure Extends (G : Graph κ ν β ε) (s s' : Search κ ν) : Prop where
  active_eq : s'.active = s.active
  subset : s.visited ⊆ s'.visited

theorem follow_extends (hnext : ∀ w s s', next w s = .ok s' → Extends G s s') {e : β}
    (h : follow G next v s e = .ok s') : Extends G s s' := by
  obtain ⟨-, ⟨-, rfl⟩ | ⟨w, -, hw⟩⟩ := follow_eq_ok h
  · exact ⟨rfl, List.Subset.refl _⟩
  · exact hnext w s s' hw

theorem fold_extends (hnext : ∀ w s s', next w s = .ok s' → Extends G s s') {l : List β}
    (h : l.foldlM (follow G next v) s = .ok s') : Extends G s s' := by
  induction l generalizing s with
  | nil =>
    cases h
    exact ⟨rfl, List.Subset.refl _⟩
  | cons e l ih =>
    rw [List.foldlM_cons] at h
    cases hstep : follow G next v s e with
    | error halt =>
      rw [hstep] at h
      cases h
    | ok s₁ =>
      rw [hstep] at h
      have hfirst := follow_extends hnext hstep
      have hrest := ih h
      exact ⟨hrest.active_eq.trans hfirst.active_eq, List.Subset.trans hfirst.subset hrest.subset⟩

theorem visit_extends (h : visit G fuel v s = .ok s') : Extends G s s' := by
  induction fuel generalizing v s s' with
  | zero => cases h
  | succ fuel ih =>
    obtain ⟨-, ⟨-, rfl⟩ | ⟨-, s₁, hfold, rfl⟩⟩ := visit_eq_ok h
    · exact ⟨rfl, List.Subset.refl _⟩
    · have hext := fold_extends (fun _ _ _ h => ih h) hfold
      refine ⟨?_, fun p hp => hext.subset (List.mem_append_left _ hp)⟩
      dsimp only
      rw [hext.active_eq, List.erase_cons_head]

/-! ## What is not fetched -/

theorem follow_congr {next' : ν → Search κ ν → Except (Halt ε) (Search κ ν)}
    {fetch : ν → β → Except ε ν} {k : κ}
    (hfetch : ∀ u e, G.target e ≠ k → G.fetch u e = fetch u e)
    (hnext : ∀ w, next w s = next' w s) (hk : k ∈ s.keys) (e : β) :
    follow G next v s e = follow { G with fetch := fetch } next' v s e := by
  unfold follow
  cases G.check v e with
  | error err => rfl
  | ok _ =>
    by_cases hactive : G.target e ∈ s.active
    · simp [hactive]
    · by_cases hvisited : G.target e ∈ s.keys
      · simp [hactive, hvisited]
      · have hne : G.target e ≠ k := fun heq => hvisited (heq ▸ hk)
        simp only [hactive, hvisited, if_false, hfetch v e hne]
        cases fetch v e with
        | error err => rfl
        | ok w => exact hnext w

theorem fold_congr {next' : ν → Search κ ν → Except (Halt ε) (Search κ ν)}
    {fetch : ν → β → Except ε ν} {k : κ}
    (hfetch : ∀ u e, G.target e ≠ k → G.fetch u e = fetch u e)
    (hnext : ∀ w s, k ∈ s.keys → next w s = next' w s)
    (hext : ∀ w s s', next w s = .ok s' → Extends G s s') (l : List β) (hk : k ∈ s.keys) :
    l.foldlM (follow G next v) s = l.foldlM (follow { G with fetch := fetch } next' v) s := by
  induction l generalizing s with
  | nil => rfl
  | cons e l ih =>
    rw [List.foldlM_cons, List.foldlM_cons,
      ← follow_congr hfetch (fun w => hnext w s hk) hk e]
    cases hstep : follow G next v s e with
    | error halt => rfl
    | ok s₁ =>
      refine ih ?_
      obtain ⟨p, hp, rfl⟩ := List.mem_map.mp hk
      exact List.mem_map.mpr ⟨p, (follow_extends hext hstep).subset hp, rfl⟩

/-- A key that is visited is never fetched, so it does not matter what a fetch of it would give. -/
theorem visit_congr {fetch : ν → β → Except ε ν} {k : κ}
    (hfetch : ∀ u e, G.target e ≠ k → G.fetch u e = fetch u e) (hk : k ∈ s.keys ∨ G.key v = k) :
    visit G fuel v s = visit { G with fetch := fetch } fuel v s := by
  induction fuel generalizing v s with
  | zero => rfl
  | succ fuel ih =>
    have hentered : k ∈ Search.keys (⟨s.visited ++ [(G.key v, v)], G.key v :: s.active⟩ :
        Search κ ν) := by
      rw [Search.keys, List.map_append, List.mem_append]
      exact hk.imp id fun heq => by simp [heq]
    have hfold := fold_congr (v := v) hfetch (fun w s hs => ih (v := w) (s := s) (Or.inl hs))
      (fun _ _ _ h => visit_extends h) (G.edges v) hentered
    rw [visit, visit, hfold]

end Search

end DepthFirst
