import Mathlib.Algebra.Order.Ring.Int
import Mathlib.Data.Finset.Card
import Mathlib.Data.List.Perm.Subperm

/-! Kahn's algorithm on the nodes below a bound. A node enters the queue when its last open
predecessor has left it; what a cycle keeps out is appended at the end, so the order always is a
permutation of the nodes, and only a cycle puts a node before one of its predecessors. -/
namespace Kahn

variable {n : Nat} {edges : Nat → List Nat}

structure State where
  queue : List Nat
  inDegree : Nat → Int
  sorted : List Nat := []

/-- One open predecessor less; the node enters the queue when none is left. -/
def decrement (s : (Nat → Int) × List Nat) (neighbor : Nat) : (Nat → Int) × List Nat :=
  let degree := s.1 neighbor - 1
  (Function.update s.1 neighbor degree, if degree = 0 then s.2 ++ [neighbor] else s.2)

def decrementNeighborDegrees (neighbors : List Nat) (inDegree : Nat → Int) (queue : List Nat) :
    (Nat → Int) × List Nat :=
  neighbors.foldl decrement (inDegree, queue)

def drain (edges : Nat → List Nat) : Nat → State → List Nat
  | 0, s => s.sorted
  | fuel + 1, s =>
    match s.queue with
    | [] => s.sorted
    | node :: queue =>
      let next := decrementNeighborDegrees (edges node) s.inDegree queue
      drain edges fuel { queue := next.2, inDegree := next.1, sorted := s.sorted ++ [node] }

def inDegree (n : Nat) (edges : Nat → List Nat) (v : Nat) : Int :=
  ((Finset.range n).filter fun u => v ∈ edges u).card

def zeroInDegreeQueue (n : Nat) (inDegree : Nat → Int) : List Nat :=
  (List.range n).filter fun v => inDegree v = 0

/-- Every node leaves the queue at most once, so as many rounds as there are nodes are enough. -/
def sort (n : Nat) (edges : Nat → List Nat) : List Nat :=
  let sorted := drain edges n
    { queue := zeroInDegreeQueue n (inDegree n edges), inDegree := inDegree n edges }
  if n ≤ sorted.length then sorted
  else sorted ++ (List.range n).filter fun v => v ∉ sorted

def openPredecessors (n : Nat) (edges : Nat → List Nat) (sorted : List Nat) (v : Nat) : Finset Nat :=
  (Finset.range n).filter fun u => u ∉ sorted ∧ v ∈ edges u

structure Sorting (n : Nat) (edges : Nat → List Nat) (s : State) : Prop where
  distinct : (s.sorted ++ s.queue).Nodup
  bounded : ∀ v ∈ s.sorted ++ s.queue, v < n
  degree : ∀ v, s.inDegree v = (openPredecessors n edges s.sorted v).card
  free : ∀ v ∈ s.sorted ++ s.queue, s.inDegree v = 0

theorem decrementNeighborDegrees_eq {neighbors : List Nat} (h : neighbors.Nodup)
    (degree : Nat → Int) (queue : List Nat) :
    decrementNeighborDegrees neighbors degree queue =
      (fun v => degree v - if v ∈ neighbors then 1 else 0,
        queue ++ neighbors.filter fun v => degree v = 1) := by
  induction neighbors generalizing degree queue with
  | nil => simp [decrementNeighborDegrees]
  | cons a neighbors ih =>
    obtain ⟨ha, hnodup⟩ := List.nodup_cons.mp h
    have hstep : decrementNeighborDegrees (a :: neighbors) degree queue =
        decrementNeighborDegrees neighbors (Function.update degree a (degree a - 1))
          (if degree a - 1 = 0 then queue ++ [a] else queue) := rfl
    rw [hstep, ih hnodup]
    have hother : ∀ v ∈ neighbors, Function.update degree a (degree a - 1) v = degree v := by
      rintro v hv
      apply Function.update_of_ne
      rintro rfl
      exact ha hv
    refine Prod.ext (funext fun v => ?_) ?_
    · by_cases hv : v = a
      · subst hv
        simp [ha]
      · simp [hv]
    · have hfilter : neighbors.filter (fun v => Function.update degree a (degree a - 1) v = 1) =
          neighbors.filter fun v => degree v = 1 :=
        List.filter_congr fun v hv => by rw [hother v hv]
      dsimp only
      rw [hfilter, List.filter_cons]
      by_cases hone : degree a = 1
      · simp [hone]
      · have hzero : ¬ degree a - 1 = 0 := by omega
        simp [hone, hzero]

theorem openPredecessors_snoc {sorted : List Nat} {u v : Nat} :
    openPredecessors n edges (sorted ++ [u]) v = (openPredecessors n edges sorted v).erase u := by
  ext w
  simp only [openPredecessors, Finset.mem_filter, Finset.mem_erase, List.mem_append,
    List.mem_singleton, not_or]
  tauto

theorem card_openPredecessors_snoc {sorted : List Nat} {u v : Nat} (hu : u < n) (hnew : u ∉ sorted) :
    ((openPredecessors n edges (sorted ++ [u]) v).card : Int) =
      (openPredecessors n edges sorted v).card - if v ∈ edges u then 1 else 0 := by
  rw [openPredecessors_snoc]
  by_cases hv : v ∈ edges u
  · have hmem : u ∈ openPredecessors n edges sorted v :=
      Finset.mem_filter.mpr ⟨Finset.mem_range.mpr hu, hnew, hv⟩
    have hpos := Finset.card_pos.mpr ⟨u, hmem⟩
    rw [Finset.card_erase_of_mem hmem, if_pos hv]
    omega
  · have hmem : u ∉ openPredecessors n edges sorted v :=
      fun hmem => hv (Finset.mem_filter.mp hmem).2.2
    rw [Finset.erase_eq_of_notMem hmem, if_neg hv, Int.sub_zero]

/-- A free node has no predecessor that is not sorted. -/
theorem Sorting.mem_sorted {s : State} (h : Sorting n edges s) {u v : Nat}
    (hv : v ∈ s.sorted ++ s.queue) (hu : u < n) (hedge : v ∈ edges u) : u ∈ s.sorted := by
  by_contra hopen
  have hmem : u ∈ openPredecessors n edges s.sorted v :=
    Finset.mem_filter.mpr ⟨Finset.mem_range.mpr hu, hopen, hedge⟩
  have hcard := h.degree v
  rw [h.free v hv] at hcard
  have := Finset.card_pos.mpr ⟨u, hmem⟩
  omega

/-- One round keeps the queue free of repetitions and of nodes with open predecessors. -/
theorem Sorting.round {s : State} (h : Sorting n edges s) (hedges : ∀ u, (edges u).Nodup)
    (hbound : ∀ u, ∀ v ∈ edges u, v < n) {node : Nat} {queue : List Nat}
    (hqueue : s.queue = node :: queue) :
    Sorting n edges
      { queue := (decrementNeighborDegrees (edges node) s.inDegree queue).2
        inDegree := (decrementNeighborDegrees (edges node) s.inDegree queue).1
        sorted := s.sorted ++ [node] } := by
  rw [decrementNeighborDegrees_eq (hedges node)]
  have hall : s.sorted ++ s.queue = s.sorted ++ [node] ++ queue := by simp [hqueue]
  have hdistinct := h.distinct
  have hbounded := h.bounded
  have hfree := h.free
  rw [hall] at hdistinct hbounded hfree
  have hnode : node < n := hbounded node (by simp)
  have hnew : node ∉ s.sorted := by
    intro hmem
    have := (List.nodup_append.mp (List.nodup_append.mp hdistinct).1).2.2 node hmem node (by simp)
    exact this rfl
  have hfresh : ∀ v ∈ (edges node).filter fun v => s.inDegree v = 1,
      v ∉ s.sorted ++ [node] ++ queue := by
    intro v hv hmem
    have hone : s.inDegree v = 1 := by simpa using (List.mem_filter.mp hv).2
    rw [hfree v hmem] at hone
    cases hone
  constructor
  · dsimp only
    rw [← List.append_assoc]
    refine List.nodup_append.mpr ⟨hdistinct, (hedges node).sublist List.filter_sublist, ?_⟩
    rintro a ha b hb rfl
    exact hfresh a hb ha
  · intro v hv
    dsimp only at hv
    rw [← List.append_assoc] at hv
    obtain hv | hv := List.mem_append.mp hv
    · exact hbounded v hv
    · exact hbound node v (List.mem_filter.mp hv).1
  · intro v
    rw [card_openPredecessors_snoc hnode hnew, ← h.degree v]
  · intro v hv
    dsimp only at hv ⊢
    rw [← List.append_assoc] at hv
    obtain hv | hv := List.mem_append.mp hv
    · have hnot : v ∉ edges node := fun hedge => hnew (h.mem_sorted (hall ▸ hv) hnode hedge)
      rw [hfree v hv, if_neg hnot, Int.sub_zero]
    · obtain ⟨hedge, hone⟩ := List.mem_filter.mp hv
      have hone : s.inDegree v = 1 := by simpa using hone
      rw [hone, if_pos hedge, Int.sub_self]

theorem sorting_start (n : Nat) (edges : Nat → List Nat) :
    Sorting n edges
      { queue := zeroInDegreeQueue n (inDegree n edges), inDegree := inDegree n edges } where
  distinct := List.nodup_range.sublist List.filter_sublist
  bounded v hv := List.mem_range.mp (List.mem_filter.mp hv).1
  degree v := by simp [inDegree, openPredecessors]
  free v hv := by simpa using (List.mem_filter.mp hv).2

/-- Besides, no node is sorted before one of its predecessors, and a free node is in the queue at the
latest. -/
structure Draining (n : Nat) (edges : Nat → List Nat) (s : State) : Prop
    extends Sorting n edges s where
  ordered : s.sorted.Pairwise fun u v => u ∉ edges v
  complete : ∀ v < n, s.inDegree v = 0 → v ∈ s.sorted ++ s.queue

section Order
variable (hedges : ∀ u, (edges u).Nodup) (hbound : ∀ u, ∀ v ∈ edges u, v < n)
include hedges hbound

theorem Draining.round {s : State} (h : Draining n edges s) {node : Nat} {queue : List Nat}
    (hqueue : s.queue = node :: queue) :
    Draining n edges
      { queue := (decrementNeighborDegrees (edges node) s.inDegree queue).2
        inDegree := (decrementNeighborDegrees (edges node) s.inDegree queue).1
        sorted := s.sorted ++ [node] } := by
  refine ⟨h.toSorting.round hedges hbound hqueue, ?_, ?_⟩
  · refine List.pairwise_append.mpr ⟨h.ordered, List.pairwise_singleton _ _, ?_⟩
    intro u hu v hv hedge
    rw [List.mem_singleton.mp hv] at hedge
    have hnode : node ∈ s.queue := hqueue ▸ List.mem_cons_self
    have hsorted := h.mem_sorted (List.mem_append_left _ hu)
      (h.bounded node (List.mem_append_right _ hnode)) hedge
    exact (List.nodup_append.mp h.distinct).2.2 node hsorted node hnode rfl
  · intro v hv hfree
    rw [decrementNeighborDegrees_eq (hedges node)] at hfree ⊢
    dsimp only at hfree ⊢
    by_cases hedge : v ∈ edges node
    · rw [if_pos hedge] at hfree
      have hone : s.inDegree v = 1 := by omega
      refine List.mem_append_right _ (List.mem_append_right _ ?_)
      exact List.mem_filter.mpr ⟨hedge, by simpa using hone⟩
    · rw [if_neg hedge, Int.sub_zero] at hfree
      have hmem := h.complete v hv hfree
      rw [hqueue] at hmem
      simp only [List.mem_append, List.mem_cons, List.not_mem_nil, or_false] at hmem ⊢
      tauto

/-- Each round sorts a node, so as many rounds as there are nodes empty the queue. -/
theorem drain_spec (fuel : Nat) {s : State} (h : Draining n edges s)
    (hfuel : n ≤ s.sorted.length + fuel) :
    ∃ s', Draining n edges s' ∧ s'.queue = [] ∧ drain edges fuel s = s'.sorted := by
  induction fuel generalizing s with
  | zero =>
    have hsub : s.sorted ++ s.queue ⊆ List.range n :=
      fun v hv => List.mem_range.mpr (h.bounded v hv)
    have hlength := (h.distinct.subperm hsub).length_le
    rw [List.length_append, List.length_range] at hlength
    exact ⟨s, h, List.length_eq_zero_iff.mp (by omega), rfl⟩
  | succ fuel ih =>
    unfold drain
    split
    · next hqueue => exact ⟨s, h, hqueue, rfl⟩
    · next node queue hqueue =>
      apply ih (h.round hedges hbound hqueue)
      dsimp only
      rw [List.length_append, List.length_singleton]
      omega

theorem sort_spec : ∃ s, Draining n edges s ∧ s.queue = [] ∧
    sort n edges = s.sorted ++ (List.range n).filter fun v => v ∉ s.sorted := by
  have hstart : Draining n edges
      { queue := zeroInDegreeQueue n (inDegree n edges), inDegree := inDegree n edges } :=
    ⟨sorting_start n edges, List.Pairwise.nil, fun v hv hfree =>
      List.mem_filter.mpr ⟨List.mem_range.mpr hv, by simpa using hfree⟩⟩
  obtain ⟨s, h, hqueue, hdrain⟩ := drain_spec hedges hbound n hstart (by simp)
  refine ⟨s, h, hqueue, ?_⟩
  unfold sort
  dsimp only
  rw [hdrain]
  split
  · next hlength =>
    have hsub : s.sorted ⊆ List.range n :=
      fun v hv => List.mem_range.mpr (h.bounded v (List.mem_append_left _ hv))
    have hperm := ((List.nodup_append.mp h.distinct).1.subperm hsub).perm_of_length_le
      (by rwa [List.length_range])
    rw [List.filter_eq_nil_iff.mpr fun v hv => by simpa using hperm.mem_iff.mpr hv,
      List.append_nil]
  · rfl

theorem sort_perm : (sort n edges).Perm (List.range n) := by
  obtain ⟨s, h, -, hsort⟩ := sort_spec hedges hbound
  rw [hsort]
  refine (List.perm_ext_iff_of_nodup ?_ List.nodup_range).mpr fun v => ?_
  · refine List.nodup_append.mpr ⟨(List.nodup_append.mp h.distinct).1,
      List.nodup_range.sublist List.filter_sublist, ?_⟩
    rintro a ha b hb rfl
    exact of_decide_eq_true (List.mem_filter.mp hb).2 ha
  · rw [List.mem_append, List.mem_filter, decide_eq_true_eq]
    have hsub : v ∈ s.sorted → v ∈ List.range n :=
      fun hv => List.mem_range.mpr (h.bounded v (List.mem_append_left _ hv))
    tauto

/-- A node comes before one of its predecessors only when its predecessors lead into a cycle. -/
theorem sort_ordered :
    (sort n edges).Pairwise fun u v => u ∈ edges v → ¬ Acc (fun a b => b ∈ edges a) u := by
  obtain ⟨s, h, hqueue, hsort⟩ := sort_spec hedges hbound
  have hopen : ∀ v, Acc (fun a b => b ∈ edges a) v → v < n → v ∈ s.sorted := by
    intro v hacc
    induction hacc with
    | intro v _ ih =>
      intro hv
      by_contra hnew
      have hdegree : s.inDegree v ≠ 0 := by
        intro hfree
        have hmem := h.complete v hv hfree
        rw [hqueue, List.append_nil] at hmem
        exact hnew hmem
      rw [h.degree v] at hdegree
      obtain ⟨u, hu⟩ := Finset.card_pos.mp (by omega :
        0 < (openPredecessors n edges s.sorted v).card)
      obtain ⟨hrange, hunsorted, hedge⟩ := Finset.mem_filter.mp hu
      exact hunsorted (ih u hedge (Finset.mem_range.mp hrange))
  rw [hsort]
  refine List.pairwise_append.mpr ⟨h.ordered.imp fun hnot hedge => absurd hedge hnot, ?_, ?_⟩
  · refine List.pairwise_of_forall_mem_list fun u hu v _ _ hacc => ?_
    obtain ⟨hrange, hunsorted⟩ := List.mem_filter.mp hu
    exact of_decide_eq_true hunsorted (hopen u hacc (List.mem_range.mp hrange))
  · intro u hu v hv hedge
    obtain ⟨hrange, hunsorted⟩ := List.mem_filter.mp hv
    exact absurd (h.mem_sorted (List.mem_append_left _ hu) (List.mem_range.mp hrange) hedge)
      (of_decide_eq_true hunsorted)

end Order

end Kahn
