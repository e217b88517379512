import Mathlib.Data.List.Sort

/-! Vectors read as binary trees in which no element is greater than the one above it, the order
while an element is moved along a path, and lists of smallest elements. -/
namespace HeapOrder
variable {α : Type} [LinearOrder α] {n : Nat} {heap : Vector α n} {hole : Nat}

/-- One place of the tree is directly above the other. -/
def Above (p i : Nat) : Prop := 0 < i ∧ p = (i - 1) / 2

theorem Above.lt {p i : Nat} (h : Above p i) : p < i := by
  have hpos := h.1
  have heq := h.2
  omega

theorem Above.unique {p q i : Nat} (hp : Above p i) (hq : Above q i) : p = q := by
  rw [hp.2, hq.2]

theorem above_iff {p i : Nat} : Above p i ↔ i = p * 2 + 1 ∨ i = p * 2 + 1 + 1 := by
  rw [Above]
  omega

def Ordered (heap : Vector α n) : Prop :=
  ∀ i p (hi : i < n) (hp : p < n), Above p i → heap[i] ≤ heap[p]

/-- Ordered, but for an element that may be greater than the one above it. -/
structure UpOrdered (heap : Vector α n) (hole : Nat) : Prop where
  others : ∀ i p (hi : i < n) (hp : p < n), Above p i → i ≠ hole → heap[i] ≤ heap[p]
  around : ∀ i g (hi : i < n) (hg : g < n), Above hole i → Above g hole → heap[i] ≤ heap[g]

/-- Ordered, but for an element that may be less than those below it. -/
structure DownOrdered (heap : Vector α n) (hole : Nat) : Prop where
  others : ∀ i p (hi : i < n) (hp : p < n), Above p i → p ≠ hole → heap[i] ≤ heap[p]
  around : ∀ i g (hi : i < n) (hg : g < n), Above hole i → Above g hole → heap[i] ≤ heap[g]

theorem Ordered.toArray (h : Ordered heap) : Ordered heap.toArray.toVector := by
  intro i p hi hp habove
  rw [Vector.size_toArray] at hi hp
  exact h i p hi hp habove

theorem UpOrdered.ordered (h : UpOrdered heap hole)
    (hhole : ∀ p (hi : hole < n) (hp : p < n), Above p hole → heap[hole] ≤ heap[p]) :
    Ordered heap := by
  intro i p hi hp habove
  by_cases heq : i = hole
  · subst heq
    exact hhole p hi hp habove
  · exact h.others i p hi hp habove heq

theorem DownOrdered.ordered (h : DownOrdered heap hole)
    (hhole : ∀ i (hi : i < n) (hp : hole < n), Above hole i → heap[i] ≤ heap[hole]) :
    Ordered heap := by
  intro i p hi hp habove
  by_cases heq : p = hole
  · subst heq
    exact hhole i hi hp habove
  · exact h.others i p hi hp habove heq

theorem UpOrdered.swap {p : Nat} (h : UpOrdered heap hole) (hp : p < n) (hhole : hole < n)
    (habove : Above p hole) (hlt : heap[p] < heap[hole]) : UpOrdered (heap.swap p hole) p where
  others := by
    intro i q hi hq hiq hne
    have hql := hiq.lt
    by_cases heq : i = hole
    · subst heq
      have hqp := hiq.unique habove
      subst hqp
      simpa using hlt.le
    · rw [Vector.getElem_swap_of_ne hne heq]
      by_cases hqp : q = p
      · subst hqp
        rw [Vector.getElem_swap_left]
        exact (h.others i q hi hq hiq heq).trans hlt.le
      · by_cases hqh : q = hole
        · subst hqh
          rw [Vector.getElem_swap_right]
          exact h.around i p hi hp hiq habove
        · rw [Vector.getElem_swap_of_ne hqp hqh]
          exact h.others i q hi hq hiq heq
  around := by
    intro i g hi hg hip hgp
    have hgl := hgp.lt
    have hpl := habove.lt
    have hil := hip.lt
    have hpg : heap[p] ≤ heap[g] := h.others p g hp hg hgp (by omega)
    rw [Vector.getElem_swap_of_ne (by omega : g ≠ p) (by omega : g ≠ hole)]
    by_cases heq : i = hole
    · subst heq
      rw [Vector.getElem_swap_right]
      exact hpg
    · rw [Vector.getElem_swap_of_ne (by omega : i ≠ p) heq]
      exact (h.others i p hi hp hip heq).trans hpg

theorem DownOrdered.swap {child : Nat} (h : DownOrdered heap hole) (hhole : hole < n)
    (hchild : child < n) (habove : Above hole child) (hlt : heap[hole] < heap[child])
    (hlargest : ∀ i (hi : i < n), Above hole i → heap[i] ≤ heap[child]) :
    DownOrdered (heap.swap hole child) child where
  others := by
    intro i q hi hq hiq hne
    have hql := hiq.lt
    have hcl := habove.lt
    by_cases hqh : q = hole
    · subst hqh
      rw [Vector.getElem_swap_left]
      by_cases heq : i = child
      · subst heq
        rw [Vector.getElem_swap_right]
        exact hlt.le
      · rw [Vector.getElem_swap_of_ne (by omega : i ≠ q) heq]
        exact hlargest i hi hiq
    · rw [Vector.getElem_swap_of_ne hqh hne]
      by_cases hih : i = hole
      · subst hih
        rw [Vector.getElem_swap_left]
        exact h.around child q hchild hq habove hiq
      · have hic : i ≠ child := by
          intro heq
          subst heq
          exact hqh (hiq.unique habove)
        rw [Vector.getElem_swap_of_ne hih hic]
        exact h.others i q hi hq hiq hqh
  around := by
    intro i g hi hg hic hgc
    have hgh := hgc.unique habove
    subst hgh
    have hil := hic.lt
    have hcl := habove.lt
    rw [Vector.getElem_swap_left, Vector.getElem_swap_of_ne (by omega : i ≠ g) (by omega : i ≠ child)]
    exact h.others i child hi hchild hic (by omega)

/-- The first element is the greatest. -/
theorem Ordered.le_first (h : Ordered heap) (hn : 0 < n) {i : Nat} (hi : i < n) :
    heap[i] ≤ heap[0] := by
  induction i using Nat.strong_induction_on with
  | _ i ih =>
    by_cases hzero : i = 0
    · subst hzero
      exact le_rfl
    · have habove : Above ((i - 1) / 2) i := ⟨by omega, rfl⟩
      have hlt := habove.lt
      exact (h i _ hi (by omega) habove).trans (ih _ hlt (by omega))

/-! ## Smallest elements -/

/-- So many smallest elements of a list, each as often as it occurs there. -/
def Smallest (k : Nat) (xs kept : List α) : Prop := kept.Perm ((xs.mergeSort (· ≤ ·)).take k)

theorem smallest_of_split {k : Nat} {xs kept dropped : List α} (hperm : xs.Perm (kept ++ dropped))
    (hle : ∀ a ∈ kept, ∀ b ∈ dropped, a ≤ b) (hlength : kept.length = min k xs.length) :
    Smallest k xs kept := by
  have hsorted : (kept.mergeSort (· ≤ ·) ++ dropped.mergeSort (· ≤ ·)).Pairwise (· ≤ ·) := by
    rw [List.pairwise_append]
    refine ⟨List.pairwise_mergeSort' (· ≤ ·) kept, List.pairwise_mergeSort' (· ≤ ·) dropped, ?_⟩
    intro a ha b hb
    exact hle a (List.mem_mergeSort.mp ha) b (List.mem_mergeSort.mp hb)
  have hxs : (xs.mergeSort (· ≤ ·)) = kept.mergeSort (· ≤ ·) ++ dropped.mergeSort (· ≤ ·) := by
    refine List.Perm.eq_of_pairwise ?_ (List.pairwise_mergeSort' (· ≤ ·) xs) hsorted ?_
    · intro a b _ _
      exact le_antisymm
    · exact (List.mergeSort_perm xs _).trans (hperm.trans
        ((List.mergeSort_perm kept _).symm.append (List.mergeSort_perm dropped _).symm))
  rw [Smallest, hxs, List.take_append, List.length_mergeSort]
  have hall : (kept.mergeSort (· ≤ ·)).take k = kept.mergeSort (· ≤ ·) := by
    apply List.take_of_length_le
    rw [List.length_mergeSort]
    omega
  have hnone : (dropped.mergeSort (· ≤ ·)).take (k - kept.length) = [] := by
    have hlen := hperm.length_eq
    rw [List.length_append] at hlen
    by_cases hk : k ≤ xs.length
    · have hzero : k - kept.length = 0 := by omega
      rw [hzero, List.take_zero]
    · have hempty : dropped.length = 0 := by omega
      rw [List.length_eq_zero_iff.mp hempty]
      simp
  rw [hall, hnone, List.append_nil]
  exact (List.mergeSort_perm kept _).symm

end HeapOrder
