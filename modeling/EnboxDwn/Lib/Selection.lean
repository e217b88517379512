import Mathlib.Order.Defs.LinearOrder
import Mathlib.Order.Basic
import Mathlib.Data.List.Nodup
import Mathlib.Data.List.Perm.Basic
import Mathlib.Order.Lattice

/-! Selection loops: the single pass that keeps the best element seen so far, and the
search by a key. The comparison is an arbitrary Boolean test that decides a strict
order on keys. -/
namespace Selection
variable {α κ : Type*}

/-- One turn of the loop: an empty slot is filled, a better candidate replaces. -/
def keepBetter (better : α → α → Bool) (current : Option α) (candidate : α) : Option α :=
  match current with
  | none => some candidate
  | some best => if better candidate best then some candidate else some best

def selectBy (better : α → α → Bool) (l : List α) : Option α :=
  l.foldl (keepBetter better) none

section
variable [LinearOrder κ] {key : α → κ} {better : α → α → Bool}

theorem foldl_keepBetter_spec (hb : ∀ a b, better a b = true ↔ key b < key a)
    (l : List α) (best : α) :
    ∃ m, l.foldl (keepBetter better) (some best) = some m ∧ m ∈ best :: l ∧
      ∀ x ∈ best :: l, key x ≤ key m := by
  induction l generalizing best with
  | nil => exact ⟨best, rfl, by simp, by simp⟩
  | cons x xs ih =>
    by_cases hx : better x best = true
    · obtain ⟨m, hm, hmem, hmax⟩ := ih x
      refine ⟨m, by simpa [keepBetter, hx] using hm, List.mem_cons_of_mem _ hmem, ?_⟩
      intro y hy
      rcases List.mem_cons.mp hy with rfl | hy
      · exact (le_of_lt ((hb x y).mp hx)).trans (hmax x (by simp))
      · exact hmax y hy
    · obtain ⟨m, hm, hmem, hmax⟩ := ih best
      have hle : key x ≤ key best := not_lt.mp fun h => hx ((hb x best).mpr h)
      refine ⟨m, by simpa [keepBetter, hx] using hm, ?_, ?_⟩
      · rcases List.mem_cons.mp hmem with rfl | h
        · simp
        · exact List.mem_cons_of_mem _ (List.mem_cons_of_mem _ h)
      · intro y hy
        rcases List.mem_cons.mp hy with rfl | hy
        · exact hmax y (by simp)
        · rcases List.mem_cons.mp hy with rfl | hy
          · exact hle.trans (hmax best (by simp))
          · exact hmax y (List.mem_cons_of_mem _ hy)

/-- A nonempty pass ends with a greatest element. -/
theorem selectBy_spec (hb : ∀ a b, better a b = true ↔ key b < key a)
    {l : List α} (hl : l ≠ []) :
    ∃ m, selectBy better l = some m ∧ m ∈ l ∧ ∀ x ∈ l, key x ≤ key m := by
  cases l with
  | nil => exact absurd rfl hl
  | cons x xs => exact foldl_keepBetter_spec hb xs x

theorem selectBy_eq_some (hb : ∀ a b, better a b = true ↔ key b < key a)
    {l : List α} {m : α} (h : selectBy better l = some m) :
    m ∈ l ∧ ∀ x ∈ l, key x ≤ key m := by
  have hl : l ≠ [] := by rintro rfl; cases h
  obtain ⟨m', hm', hspec⟩ := selectBy_spec hb hl
  rw [h] at hm'
  cases hm'
  exact hspec

theorem selectBy_eq_none (hb : ∀ a b, better a b = true ↔ key b < key a)
    {l : List α} : selectBy better l = none ↔ l = [] := by
  constructor
  · intro h
    by_contra hl
    obtain ⟨m, hm, -⟩ := selectBy_spec hb hl
    rw [h] at hm
    cases hm
  · rintro rfl
    rfl

/-- Where keys tell the members apart, the greatest member is what the pass selects. -/
theorem selectBy_eq_of_greatest (hb : ∀ a b, better a b = true ↔ key b < key a)
    {l : List α} {m : α} (hm : m ∈ l) (hmax : ∀ x ∈ l, key x ≤ key m)
    (hinj : ∀ x ∈ l, key x = key m → x = m) : selectBy better l = some m := by
  obtain ⟨m', hm', hmem, hmax'⟩ := selectBy_spec hb (List.ne_nil_of_mem hm)
  rw [hm', hinj m' hmem (le_antisymm (hmax m' hmem) (hmax' m hm))]

end

/-- Where a key tells the members apart, a search by key finds the member. -/
theorem find?_of_nodup_map [DecidableEq κ] {key : α → κ} {l : List α} (h : (l.map key).Nodup)
    {x : α} (hx : x ∈ l) : l.find? (fun y => key y = key x) = some x := by
  cases hf : l.find? fun y => key y = key x with
  | none =>
    have := List.find?_eq_none.mp hf x hx
    simp at this
  | some y =>
    have hy : key y = key x := by simpa using List.find?_some hf
    rw [List.inj_on_of_nodup_map h (List.mem_of_find?_eq_some hf) hx hy]

theorem filter_of_nodup_map [DecidableEq κ] {key : α → κ} {l : List α} (h : (l.map key).Nodup)
    {x : α} (hx : x ∈ l) : l.filter (fun y => key y = key x) = [x] := by
  induction l with
  | nil => cases hx
  | cons z zs ih =>
    rw [List.map_cons, List.nodup_cons] at h
    obtain rfl | hx := List.mem_cons.mp hx
    · have hnone : zs.filter (fun y => key y = key x) = [] := by
        refine List.filter_eq_nil_iff.mpr fun y hy hkey => h.1 ?_
        exact List.mem_map.mpr ⟨y, hy, of_decide_eq_true hkey⟩
      rw [List.filter_cons_of_pos (by simp), hnone]
    · have hne : ¬ key z = key x := fun heq => h.1 (List.mem_map.mpr ⟨x, hx, heq.symm⟩)
      rw [List.filter_cons_of_neg (by simpa using hne), ih h.2 hx]

/-- Every order of the images comes from an order of the elements. -/
theorem exists_perm_of_perm_map {f : α → κ} {l : List κ} {l' : List α} (h : l.Perm (l'.map f)) :
    ∃ l'' : List α, l''.Perm l' ∧ l''.map f = l := by
  have hall : List.Forall₂ (fun y x => y = f x) (l'.map f) l' := by
    rw [List.forall₂_map_left_iff]
    exact List.forall₂_same.mpr fun x _ => rfl
  obtain ⟨l'', hforall, hperm⟩ := List.perm_comp_forall₂ h hall
  refine ⟨l'', hperm, ?_⟩
  rw [← List.forall₂_map_right_iff, List.forall₂_eq_eq_eq] at hforall
  exact hforall.symm

end Selection
