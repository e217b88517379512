import Mathlib.Data.List.Sort

/-! Sorting by a comparator that answers with a number and may fail. Where its answers are those of
a rank in a linear order, the sort succeeds, and its first element is one of the least rank. -/
namespace CompareSort
variable {ε α : Type}

/-- Puts an element in front of the first one that it does not come after. -/
def insertBy (compare : α → α → Except ε Int) (x : α) : List α → Except ε (List α)
  | [] => .ok [x]
  | y :: ys => do
    if (← compare x y) ≤ 0 then return x :: y :: ys
    else return y :: (← insertBy compare x ys)

/-- A stable sort: elements that compare equal keep their order. -/
def sortBy (compare : α → α → Except ε Int) : List α → Except ε (List α)
  | [] => .ok []
  | x :: xs => do insertBy compare x (← sortBy compare xs)

/-- The comparator answers for the elements of the list, and by their rank. -/
def RanksBy {ρ : Type} [LinearOrder ρ] (compare : α → α → Except ε Int) (rank : α → ρ)
    (xs : List α) : Prop :=
  ∀ x ∈ xs, ∀ y ∈ xs, ∃ n, compare x y = .ok n ∧ (n ≤ 0 ↔ rank x ≤ rank y)

section Rank
variable {ρ : Type} [LinearOrder ρ] {compare : α → α → Except ε Int} {rank : α → ρ}

theorem RanksBy.perm {xs ys : List α} (h : RanksBy compare rank xs) (hperm : ys.Perm xs) :
    RanksBy compare rank ys := by
  intro x hx y hy
  exact h x (hperm.mem_iff.mp hx) y (hperm.mem_iff.mp hy)

theorem insertBy_eq_ok {x : α} {ys : List α} (h : RanksBy compare rank (x :: ys))
    (hsorted : ys.Pairwise fun a b => rank a ≤ rank b) :
    ∃ zs, insertBy compare x ys = .ok zs ∧ zs.Perm (x :: ys) ∧
      zs.Pairwise fun a b => rank a ≤ rank b := by
  induction ys with
  | nil => exact ⟨[x], rfl, .refl _, List.pairwise_singleton _ _⟩
  | cons y ys ih =>
    obtain ⟨n, hn, hle⟩ := h x List.mem_cons_self y (List.mem_cons_of_mem _ List.mem_cons_self)
    have hys : ys.Pairwise fun a b => rank a ≤ rank b := hsorted.of_cons
    have hy : ∀ z ∈ ys, rank y ≤ rank z := (List.pairwise_cons.mp hsorted).1
    by_cases hfront : n ≤ 0
    · refine ⟨x :: y :: ys, ?_, .refl _, List.pairwise_cons.mpr ⟨?_, hsorted⟩⟩
      · simp only [insertBy, hn, bind, Except.bind, hfront, if_true]
        rfl
      · intro z hz
        have hxy := hle.mp hfront
        cases List.mem_cons.mp hz with
        | inl heq => exact heq ▸ hxy
        | inr hz => exact hxy.trans (hy z hz)
    · have hrest : RanksBy compare rank (x :: ys) := by
        intro a ha b hb
        apply h a _ b
        · cases List.mem_cons.mp hb with
          | inl heq => exact heq ▸ List.mem_cons_self
          | inr hb => exact List.mem_cons_of_mem _ (List.mem_cons_of_mem _ hb)
        · cases List.mem_cons.mp ha with
          | inl heq => exact heq ▸ List.mem_cons_self
          | inr ha => exact List.mem_cons_of_mem _ (List.mem_cons_of_mem _ ha)
      obtain ⟨zs, hzs, hperm, hsorted'⟩ := ih hrest hys
      refine ⟨y :: zs, ?_, (hperm.cons y).trans (.swap x y ys), List.pairwise_cons.mpr ⟨?_, hsorted'⟩⟩
      · simp only [insertBy, hn, hzs, bind, Except.bind, hfront, if_false]
        rfl
      · intro z hz
        have hyx : rank y ≤ rank x := le_of_not_ge fun hxy => hfront (hle.mpr hxy)
        cases List.mem_cons.mp (hperm.mem_iff.mp hz) with
        | inl heq => exact heq ▸ hyx
        | inr hz => exact hy z hz

theorem sortBy_eq_ok {xs : List α} (h : RanksBy compare rank xs) :
    ∃ ys, sortBy compare xs = .ok ys ∧ ys.Perm xs ∧ ys.Pairwise fun a b => rank a ≤ rank b := by
  induction xs with
  | nil => exact ⟨[], rfl, .refl _, .nil⟩
  | cons x xs ih =>
    have hrest : RanksBy compare rank xs := by
      intro a ha b hb
      exact h a (List.mem_cons_of_mem _ ha) b (List.mem_cons_of_mem _ hb)
    obtain ⟨ys, hys, hperm, hsorted⟩ := ih hrest
    obtain ⟨zs, hzs, hperm', hsorted'⟩ := insertBy_eq_ok (h.perm (hperm.cons x)) hsorted
    refine ⟨zs, ?_, hperm'.trans (hperm.cons x), hsorted'⟩
    simp only [sortBy, hys, bind, Except.bind]
    exact hzs

/-- The first element after the sort has the least rank. -/
theorem least_of_sortBy {xs ys : List α} (h : RanksBy compare rank xs)
    (hsort : sortBy compare xs = .ok ys) {x : α} (hx : ys.head? = some x) :
    x ∈ xs ∧ ∀ y ∈ xs, rank x ≤ rank y := by
  obtain ⟨ys', hys', hperm, hsorted⟩ := sortBy_eq_ok h
  rw [hsort] at hys'
  cases hys'
  obtain ⟨rest, rfl⟩ := List.head?_eq_some_iff.mp hx
  refine ⟨hperm.mem_iff.mp List.mem_cons_self, ?_⟩
  intro y hy
  cases List.mem_cons.mp (hperm.mem_iff.mpr hy) with
  | inl heq => exact heq ▸ le_refl _
  | inr hy => exact (List.pairwise_cons.mp hsorted).1 y hy

end Rank

end CompareSort
