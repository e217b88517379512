import EnboxDwn.Lib.HeapOrder
import Mathlib.Data.List.Induction

/-! The bounded heap that keeps the earliest rank keys of a record limit while all keys go by. -/
namespace EnboxDwn
namespace RecordLimitRank
open HeapOrder
variable {α : Type} [LinearOrder α] {n : Nat}

def lexicographicalCompare (a b : α) : Int := if b < a then 1 else if a < b then -1 else 0

theorem compare_nonneg {a b : α} : 0 ≤ lexicographicalCompare a b ↔ b ≤ a := by
  rw [lexicographicalCompare]
  split_ifs with hba hab
  · simp [hba.le]
  · simp [hab]
  · simp [not_lt.mp hab]

theorem compare_pos {a b : α} : 0 < lexicographicalCompare a b ↔ b < a := by
  rw [lexicographicalCompare]
  split_ifs with hba hab
  · simp [hba]
  · simp [hab.le]
  · simp [not_lt.mp hba]

def siftRecordLimitRankHeapUp (heap : Vector α n) (index : Nat) (h : index < n) : Vector α n :=
  if hpos : 0 < index then
    let parentIndex := (index - 1) / 2
    have hparent : parentIndex < n := by omega
    if 0 ≤ lexicographicalCompare heap[parentIndex] heap[index] then heap
    else siftRecordLimitRankHeapUp (heap.swap parentIndex index) parentIndex hparent
  else heap
termination_by index

/-- The child that is compared: the right one where it is the larger. -/
def largerChildIndex (heap : Vector α n) (leftIndex : Nat) (hleft : leftIndex < n) : Nat :=
  let rightIndex := leftIndex + 1
  if hright : rightIndex < n then
    if 0 < lexicographicalCompare heap[rightIndex] heap[leftIndex] then rightIndex else leftIndex
  else leftIndex

theorem largerChildIndex_cases (heap : Vector α n) {leftIndex : Nat} (hleft : leftIndex < n) :
    largerChildIndex heap leftIndex hleft = leftIndex ∨
      largerChildIndex heap leftIndex hleft = leftIndex + 1 ∧ leftIndex + 1 < n := by
  rw [largerChildIndex]
  split_ifs with hright hpos
  · exact .inr ⟨rfl, hright⟩
  · exact .inl rfl
  · exact .inl rfl

theorem largerChildIndex_lt (heap : Vector α n) {leftIndex : Nat} (hleft : leftIndex < n) :
    largerChildIndex heap leftIndex hleft < n := by
  have h := largerChildIndex_cases heap hleft
  omega

theorem le_largerChildIndex (heap : Vector α n) {leftIndex : Nat} (hleft : leftIndex < n) :
    leftIndex ≤ largerChildIndex heap leftIndex hleft := by
  have h := largerChildIndex_cases heap hleft
  omega

def siftRecordLimitRankHeapDown (heap : Vector α n) (index : Nat) (h : index < n) : Vector α n :=
  let leftIndex := index * 2 + 1
  if hleft : leftIndex < n then
    let larger := largerChildIndex heap leftIndex hleft
    have hlarger : larger < n := largerChildIndex_lt heap hleft
    have hdown : leftIndex ≤ larger := le_largerChildIndex heap hleft
    if 0 ≤ lexicographicalCompare heap[index] heap[larger] then heap
    else siftRecordLimitRankHeapDown (heap.swap index larger) larger hlarger
  else heap
termination_by n - index
decreasing_by
  have hle : index * 2 + 1 ≤ largerChildIndex heap (index * 2 + 1) hleft :=
    le_largerChildIndex heap hleft
  omega

/-- A heap that holds nothing has no root to compare with, and stays as it is. -/
def addToRecordLimitRankHeap (heap : Array α) (value : α) (max : Nat) : Array α :=
  if heap.size < max then
    (siftRecordLimitRankHeapUp (heap.toVector.push value) heap.size (by omega)).toArray
  else if hroot : 0 < heap.size then
    if 0 ≤ lexicographicalCompare value heap[0] then heap
    else (siftRecordLimitRankHeapDown (heap.toVector.set 0 value) 0 hroot).toArray
  else heap

/-- The heap after all keys have gone by. -/
def rankHeap (rankKeys : List α) (max : Nat) : Array α :=
  rankKeys.foldl (fun heap value => addToRecordLimitRankHeap heap value max) #[]

/-! ## Sifting -/

theorem siftUp_perm (heap : Vector α n) (index : Nat) (h : index < n) :
    (siftRecordLimitRankHeapUp heap index h).Perm heap := by
  induction heap, index, h using siftRecordLimitRankHeapUp.induct with
  | case1 heap index h hpos parentIndex hparent hcompare =>
    rw [siftRecordLimitRankHeapUp, dif_pos hpos, if_pos hcompare]
  | case2 heap index h hpos parentIndex hparent hcompare ih =>
    rw [siftRecordLimitRankHeapUp, dif_pos hpos, if_neg hcompare]
    exact ih.trans (Vector.swap_perm hparent h)
  | case3 heap index h hpos => rw [siftRecordLimitRankHeapUp, dif_neg hpos]

theorem siftUp_ordered (heap : Vector α n) (index : Nat) (h : index < n)
    (hup : UpOrdered heap index) : Ordered (siftRecordLimitRankHeapUp heap index h) := by
  induction heap, index, h using siftRecordLimitRankHeapUp.induct with
  | case1 heap index h hpos parentIndex hparent hcompare =>
    rw [siftRecordLimitRankHeapUp, dif_pos hpos, if_pos hcompare]
    apply hup.ordered
    intro p hi hp habove
    have hp : p = parentIndex := habove.2
    subst hp
    exact compare_nonneg.mp hcompare
  | case2 heap index h hpos parentIndex hparent hcompare ih =>
    rw [siftRecordLimitRankHeapUp, dif_pos hpos, if_neg hcompare]
    apply ih
    apply hup.swap hparent h ⟨hpos, rfl⟩
    exact not_le.mp fun hle => hcompare (compare_nonneg.mpr hle)
  | case3 heap index h hpos =>
    rw [siftRecordLimitRankHeapUp, dif_neg hpos]
    apply hup.ordered
    intro p hi hp habove
    exact absurd habove.1 hpos

theorem le_largerChild (heap : Vector α n) {leftIndex : Nat} (hleft : leftIndex < n)
    (hlarger : largerChildIndex heap leftIndex hleft < n) :
    heap[leftIndex] ≤ heap[largerChildIndex heap leftIndex hleft] ∧
      ∀ hright : leftIndex + 1 < n,
        heap[leftIndex + 1] ≤ heap[largerChildIndex heap leftIndex hleft] := by
  by_cases hright : leftIndex + 1 < n
  · by_cases hpos : 0 < lexicographicalCompare heap[leftIndex + 1] heap[leftIndex]
    · have heq : largerChildIndex heap leftIndex hleft = leftIndex + 1 := by
        rw [largerChildIndex, dif_pos hright, if_pos hpos]
      simp only [heq]
      exact ⟨(compare_pos.mp hpos).le, fun _ => le_rfl⟩
    · have heq : largerChildIndex heap leftIndex hleft = leftIndex := by
        rw [largerChildIndex, dif_pos hright, if_neg hpos]
      simp only [heq]
      exact ⟨le_rfl, fun _ => not_lt.mp fun hlt => hpos (compare_pos.mpr hlt)⟩
  · have heq : largerChildIndex heap leftIndex hleft = leftIndex := by
      rw [largerChildIndex, dif_neg hright]
    simp only [heq]
    exact ⟨le_rfl, fun h => absurd h hright⟩

/-- No child is greater than the one that is compared. -/
theorem child_le_larger (heap : Vector α n) {index i : Nat} (hleft : index * 2 + 1 < n) (hi : i < n)
    (hlarger : largerChildIndex heap (index * 2 + 1) hleft < n) (habove : Above index i) :
    heap[i] ≤ heap[largerChildIndex heap (index * 2 + 1) hleft] := by
  have hle := le_largerChild heap hleft hlarger
  rcases above_iff.mp habove with rfl | rfl
  · exact hle.1
  · exact hle.2 hi

theorem siftDown_perm (heap : Vector α n) (index : Nat) (h : index < n) :
    (siftRecordLimitRankHeapDown heap index h).Perm heap := by
  induction heap, index, h using siftRecordLimitRankHeapDown.induct with
  | case1 heap index h leftIndex hleft larger hlarger hdown hcompare =>
    rw [siftRecordLimitRankHeapDown, dif_pos hleft, if_pos hcompare]
  | case2 heap index h leftIndex hleft larger hlarger hdown hcompare ih =>
    rw [siftRecordLimitRankHeapDown, dif_pos hleft, if_neg hcompare]
    exact ih.trans (Vector.swap_perm h hlarger)
  | case3 heap index h leftIndex hleft => rw [siftRecordLimitRankHeapDown, dif_neg hleft]

theorem siftDown_ordered (heap : Vector α n) (index : Nat) (h : index < n)
    (hdown : DownOrdered heap index) : Ordered (siftRecordLimitRankHeapDown heap index h) := by
  induction heap, index, h using siftRecordLimitRankHeapDown.induct with
  | case1 heap index h leftIndex hleft larger hlarger _ hcompare =>
    rw [siftRecordLimitRankHeapDown, dif_pos hleft, if_pos hcompare]
    apply hdown.ordered
    intro i hi hp habove
    exact (child_le_larger heap hleft hi hlarger habove).trans (compare_nonneg.mp hcompare)
  | case2 heap index h leftIndex hleft larger hlarger _ hcompare ih =>
    rw [siftRecordLimitRankHeapDown, dif_pos hleft, if_neg hcompare]
    apply ih
    apply hdown.swap h hlarger
    · apply above_iff.mpr
      have hcases := largerChildIndex_cases heap hleft
      omega
    · exact not_le.mp fun hle => hcompare (compare_nonneg.mpr hle)
    · intro i hi habove
      exact child_le_larger heap hleft hi hlarger habove
  | case3 heap index h leftIndex hleft =>
    rw [siftRecordLimitRankHeapDown, dif_neg hleft]
    apply hdown.ordered
    intro i hi hp habove
    rcases above_iff.mp habove with heq | heq
    · omega
    · omega

/-! ## Kept keys -/

structure Keeps (max : Nat) (rankKeys : List α) (heap : Array α) : Prop where
  ordered : Ordered heap.toVector
  split : ∃ dropped, rankKeys.Perm (heap.toList ++ dropped) ∧
    ∀ a ∈ heap.toList, ∀ b ∈ dropped, a ≤ b
  size : heap.size = min max rankKeys.length

theorem Keeps.le_root {max : Nat} {rankKeys : List α} {heap : Array α} (h : Keeps max rankKeys heap)
    (hroot : 0 < heap.size) : ∀ a ∈ heap.toList, a ≤ heap[0] := by
  intro a ha
  obtain ⟨i, hi, rfl⟩ := Array.mem_iff_getElem.mp (Array.mem_toList_iff.mp ha)
  exact h.ordered.le_first hroot hi

theorem keeps_push {max : Nat} {rankKeys : List α} {heap : Array α} (h : Keeps max rankKeys heap)
    (value : α) (hroom : heap.size < max) :
    Keeps max (rankKeys ++ [value]) (addToRecordLimitRankHeap heap value max) := by
  rw [addToRecordLimitRankHeap, if_pos hroom]
  have hperm := (siftUp_perm (heap.toVector.push value) heap.size (by omega)).toList
  obtain ⟨dropped, hkeys, -⟩ := h.split
  have hsize := h.size
  have hlength := hkeys.length_eq
  simp only [List.length_append, Array.length_toList] at hlength
  have hdropped : dropped = [] := List.length_eq_zero_iff.mp (by omega)
  subst hdropped
  constructor
  · apply Ordered.toArray
    apply siftUp_ordered
    constructor
    · intro i p hi hp habove hne
      have hlt := habove.lt
      have hi' : i < heap.size := by omega
      rw [Vector.getElem_push_lt hi', Vector.getElem_push_lt (by omega)]
      exact h.ordered i p hi' (by omega) habove
    · intro i g hi hg habove _
      have hlt := habove.lt
      omega
  · refine ⟨[], ?_, by simp⟩
    rw [List.append_nil] at hkeys ⊢
    refine (hkeys.append_right [value]).trans ?_
    have hpush : (heap.toVector.push value).toList = heap.toList ++ [value] := by simp
    rw [← hpush]
    exact hperm.symm
  · simp only [Vector.size_toArray, List.length_append, List.length_singleton]
    omega

theorem keeps_drop {max : Nat} {rankKeys : List α} {heap : Array α} (h : Keeps max rankKeys heap)
    (value : α) (hfull : ¬ heap.size < max) (hle : ∀ a ∈ heap.toList, a ≤ value) :
    Keeps max (rankKeys ++ [value]) heap := by
  obtain ⟨dropped, hkeys, hbelow⟩ := h.split
  refine ⟨h.ordered, ⟨dropped ++ [value], ?_, ?_⟩, ?_⟩
  · rw [← List.append_assoc]
    exact hkeys.append_right [value]
  · intro a ha b hb
    rcases List.mem_append.mp hb with hb | hb
    · exact hbelow a ha b hb
    · rw [List.mem_singleton.mp hb]
      exact hle a ha
  · have hsize := h.size
    rw [List.length_append, List.length_singleton]
    omega

theorem keeps_replace {max : Nat} {rankKeys : List α} {heap : Array α}
    (h : Keeps max rankKeys heap) (value : α) (hfull : ¬ heap.size < max) (hroot : 0 < heap.size)
    (hlt : value < heap[0]) :
    Keeps max (rankKeys ++ [value])
      (siftRecordLimitRankHeapDown (heap.toVector.set 0 value) 0 hroot).toArray := by
  have hperm := (siftDown_perm (heap.toVector.set 0 value) 0 hroot).toList
  have hmax := h.le_root hroot
  obtain ⟨dropped, hkeys, hbelow⟩ := h.split
  obtain ⟨root, rest, hlist⟩ := List.exists_cons_of_length_pos
    (show 0 < heap.toList.length by simpa using hroot)
  have hfirst : heap[0] = root := by
    rw [← Array.getElem_toList]
    simp [hlist]
  have hset : (heap.toVector.set 0 value).toList = value :: rest := by
    simp [hlist]
  rw [hset] at hperm
  rw [hlist] at hkeys hbelow hmax
  rw [hfirst] at hlt hmax
  constructor
  · apply Ordered.toArray
    apply siftDown_ordered
    constructor
    · intro i p hi hp habove hne
      have hpos := habove.1
      rw [Vector.getElem_set_ne _ _ (by omega), Vector.getElem_set_ne _ _ (by omega)]
      exact h.ordered i p hi hp habove
    · intro i g hi hg _ habove
      have hpos := habove.1
      omega
  · refine ⟨root :: dropped, ?_, ?_⟩
    · calc rankKeys ++ [value]
          _ |>.Perm ((root :: rest ++ dropped) ++ [value]) := hkeys.append_right [value]
          _ |>.Perm (value :: (root :: rest ++ dropped)) := List.perm_append_singleton _ _
          _ |>.Perm ((value :: rest) ++ root :: dropped) := by
            apply List.Perm.cons
            exact List.perm_middle.symm
          _ |>.Perm _ := hperm.symm.append_right _
    · intro a ha b hb
      have hroota : a ≤ root := by
        cases List.mem_cons.mp (hperm.mem_iff.mp ha) with
        | inl heq =>
          rw [heq]
          exact hlt.le
        | inr hin => exact hmax a (List.mem_cons_of_mem _ hin)
      cases List.mem_cons.mp hb with
      | inl heq =>
        rw [heq]
        exact hroota
      | inr hin => exact hroota.trans (hbelow root List.mem_cons_self b hin)
  · have hsize := h.size
    simp only [Vector.size_toArray, List.length_append, List.length_singleton]
    omega

theorem keeps_add {max : Nat} {rankKeys : List α} {heap : Array α} (h : Keeps max rankKeys heap)
    (value : α) (hmax : 1 ≤ max) :
    Keeps max (rankKeys ++ [value]) (addToRecordLimitRankHeap heap value max) := by
  by_cases hroom : heap.size < max
  · exact keeps_push h value hroom
  · have hroot : 0 < heap.size := by omega
    rw [addToRecordLimitRankHeap, if_neg hroom, dif_pos hroot]
    split_ifs with hcompare
    · apply keeps_drop h value hroom
      intro a ha
      exact (h.le_root hroot a ha).trans (compare_nonneg.mp hcompare)
    · apply keeps_replace h value hroom hroot
      exact not_le.mp fun hle => hcompare (compare_nonneg.mpr hle)

theorem keeps_rankHeap (rankKeys : List α) {max : Nat} (hmax : 1 ≤ max) :
    Keeps max rankKeys (rankHeap rankKeys max) := by
  induction rankKeys using List.reverseRecOn with
  | nil =>
    refine ⟨?_, ⟨[], by simp [rankHeap], by simp⟩, by simp [rankHeap]⟩
    intro i p hi
    exact absurd hi (Nat.not_lt_zero i)
  | append_singleton rankKeys value ih =>
    rw [rankHeap, List.foldl_append]
    exact keeps_add ih value hmax

/-- The heap ends with the smallest keys, each as often as it went by, and the root is the largest of
them. -/
theorem rankHeap_smallest (rankKeys : List α) (max : Nat) (hmax : 1 ≤ max) :
    Smallest max rankKeys (rankHeap rankKeys max).toList ∧
      (rankHeap rankKeys max).size = min max rankKeys.length ∧
      ∀ hroot : 0 < (rankHeap rankKeys max).size, ∀ a ∈ (rankHeap rankKeys max).toList,
        a ≤ (rankHeap rankKeys max)[0] := by
  have h := keeps_rankHeap rankKeys hmax
  obtain ⟨dropped, hperm, hle⟩ := h.split
  refine ⟨smallest_of_split hperm hle ?_, h.size, ?_⟩
  · rw [Array.length_toList]
    exact h.size
  · intro hroot
    exact h.le_root hroot

theorem rankHeap_smallest_two : Smallest 2 [3, 1, 2] (rankHeap [3, 1, 2] 2).toList ∧
    (rankHeap [3, 1, 2] 2).size = 2 ∧ ∀ hroot : 0 < (rankHeap [3, 1, 2] 2).size,
      ∀ a ∈ (rankHeap [3, 1, 2] 2).toList, a ≤ (rankHeap [3, 1, 2] 2)[0] :=
  rankHeap_smallest [3, 1, 2] 2 (by decide)

end RecordLimitRank
end EnboxDwn
