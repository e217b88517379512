import Mathlib.Logic.Relation
import Mathlib.Data.List.Basic
import Mathlib.Order.Nat

/-! A consumer of a numbered log: it reads a page ahead, hands the entries on one by one,
and keeps a position to resume from. -/
namespace Consuming
variable {κ : Type*}

/-- What was handed on, what was read and waits, the number up to which the log was read,
and the position to resume from. -/
structure Consumer (κ : Type*) where
  handed : List (Nat × κ) := []
  waiting : List (Nat × κ) := []
  covered : Nat
  position : Nat

/-- The moves of a consumer while the entries in `visible` are in the log. -/
inductive Move (visible : Nat × κ → Prop) : Consumer κ → Consumer κ → Prop
  | read {s : Consumer κ} (page : List (Nat × κ)) (covered : Nat) (hidle : s.waiting = [])
      (hforward : s.covered ≤ covered)
      (hpage : ∀ x, x ∈ page ↔ visible x ∧ s.covered < x.1 ∧ x.1 ≤ covered)
      (hrising : (page.map Prod.fst).Pairwise (· < ·)) :
      Move visible s { s with waiting := page, covered }
  | hand {s : Consumer κ} {x : Nat × κ} {rest : List (Nat × κ)} (hnext : s.waiting = x :: rest) :
      Move visible s { s with handed := s.handed ++ [x], waiting := rest }
  | complete {s : Consumer κ} (position : Nat) (hcovered : position ≤ s.covered)
      (hwaiting : ∀ x ∈ s.waiting, position < x.1) : Move visible s { s with position }
  | settle {s : Consumer κ} (position : Nat) (hcovered : position ≤ s.covered)
      (hhanded : ∀ x ∈ s.handed, x.1 ≤ position) (hwaiting : ∀ x ∈ s.waiting, position < x.1) :
      Move visible s { handed := s.handed, covered := position, position }

/-- Entries are handed on in order and nothing that waits is behind the position. -/
structure Orderly (s : Consumer κ) : Prop where
  rising : ((s.handed ++ s.waiting).map Prod.fst).Pairwise (· < ·)
  bounded : ∀ x ∈ s.handed ++ s.waiting, x.1 ≤ s.covered
  behind : s.position ≤ s.covered
  ahead : ∀ x ∈ s.waiting, s.position < x.1

/-- The consumer has not read as far as the entry, or has it. -/
def Owes (s : Consumer κ) (x : Nat × κ) : Prop := s.covered < x.1 ∨ x ∈ s.waiting ∨ x ∈ s.handed

variable {visible : Nat × κ → Prop} {s s' : Consumer κ}

theorem Move.orderly (h : Move visible s s') (hs : Orderly s) : Orderly s' := by
  cases h with
  | read page covered hidle hforward hpage hrising =>
    have hhanded : (s.handed.map Prod.fst).Pairwise (· < ·) := by
      simpa [hidle] using hs.rising
    have hbounded : ∀ x ∈ s.handed, x.1 ≤ s.covered := fun x hx =>
      hs.bounded x (List.mem_append_left _ hx)
    refine ⟨?_, ?_, hs.behind.trans hforward, ?_⟩
    · rw [List.map_append, List.pairwise_append]
      refine ⟨hhanded, hrising, ?_⟩
      intro a ha b hb
      obtain ⟨x, hx, rfl⟩ := List.mem_map.mp ha
      obtain ⟨y, hy, rfl⟩ := List.mem_map.mp hb
      exact lt_of_le_of_lt (hbounded x hx) ((hpage y).mp hy).2.1
    · intro x hx
      obtain hx | hx := List.mem_append.mp hx
      · exact (hbounded x hx).trans hforward
      · exact ((hpage x).mp hx).2.2
    · intro x hx
      exact lt_of_le_of_lt hs.behind ((hpage x).mp hx).2.1
  | @hand x rest hnext =>
    have heq : (s.handed ++ [x]) ++ rest = s.handed ++ s.waiting := by
      rw [hnext, List.append_assoc, List.singleton_append]
    refine ⟨?_, ?_, hs.behind, ?_⟩
    · dsimp only
      rw [heq]
      exact hs.rising
    · dsimp only
      rw [heq]
      exact hs.bounded
    · intro y hy
      exact hs.ahead y (by rw [hnext]; exact List.mem_cons_of_mem _ hy)
  | complete position hcovered hwaiting => exact ⟨hs.rising, hs.bounded, hcovered, hwaiting⟩
  | settle position hcovered hhanded hwaiting =>
    refine ⟨?_, ?_, le_rfl, by simp⟩
    · have := hs.rising
      rw [List.map_append, List.pairwise_append] at this
      simpa using this.1
    · simpa using hhanded

theorem Move.owes (h : Move visible s s') {x : Nat × κ} (hx : Owes s x) (hvisible : visible x) :
    Owes s' x := by
  cases h with
  | read page covered hidle hforward hpage hrising =>
    obtain hx | hx | hx := hx
    · by_cases hle : x.1 ≤ covered
      · exact Or.inr (Or.inl ((hpage x).mpr ⟨hvisible, hx, hle⟩))
      · exact Or.inl (by dsimp only; omega)
    · rw [hidle] at hx
      cases hx
    · exact Or.inr (Or.inr hx)
  | hand hnext =>
    obtain hx | hx | hx := hx
    · exact Or.inl hx
    · rw [hnext] at hx
      obtain rfl | hx := List.mem_cons.mp hx
      · exact Or.inr (Or.inr (by simp))
      · exact Or.inr (Or.inl hx)
    · exact Or.inr (Or.inr (List.mem_append_left _ hx))
  | complete position hcovered hwaiting => exact hx
  | settle position hcovered hhanded hwaiting =>
    obtain hx | hx | hx := hx
    · exact Or.inl (by dsimp only; omega)
    · exact Or.inl (hwaiting x hx)
    · exact Or.inr (Or.inr hx)

/-- A visible entry that the position has passed was handed on. -/
theorem Owes.mem_handed {x : Nat × κ} (h : Owes s x) (hs : Orderly s) (hpassed : x.1 ≤ s.position) :
    x ∈ s.handed := by
  obtain h | h | h := h
  · have := hs.behind
    omega
  · have := hs.ahead x h
    omega
  · exact h

abbrev Moves (visible : Nat × κ → Prop) : Consumer κ → Consumer κ → Prop :=
  Relation.ReflTransGen (Move visible)

theorem Moves.orderly (h : Moves visible s s') (hs : Orderly s) : Orderly s' := by
  induction h with
  | refl => exact hs
  | tail _ hmove ih => exact hmove.orderly ih

theorem Moves.owes (h : Moves visible s s') {x : Nat × κ} (hx : Owes s x) (hvisible : visible x) :
    Owes s' x := by
  induction h with
  | refl => exact hx
  | tail _ hmove ih => exact hmove.owes ih hvisible

theorem Moves.handed_subset (h : Moves visible s s') : s.handed ⊆ s'.handed := by
  induction h with
  | refl => exact List.Subset.refl _
  | tail _ hmove ih =>
    cases hmove with
    | read => exact ih
    | hand => exact List.Subset.trans ih (List.subset_append_left _ _)
    | complete => exact ih
    | settle => exact ih

end Consuming
