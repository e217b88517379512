import Mathlib.Data.List.Induction
import Mathlib.Data.List.Nodup
import Mathlib.Data.List.Perm.Basic
import Mathlib.Order.Basic
import Mathlib.Order.Lattice

/-! Entries with times, some of which are floors. An entry is refused at or below the time of
a stored floor; a floor that is stored removes the entries strictly below it. Which entries
are left depends on the order of arrival exactly when the time of the greatest floor is not
its alone. -/
namespace TemporalFloor
variable {α T : Type*} [LinearOrder T] (time : α → T) (isFloor : α → Bool)

def Refuses (stored : List α) (x : α) : Prop := ∃ q ∈ stored, isFloor q = true ∧ time x ≤ time q

instance (stored : List α) (x : α) : Decidable (Refuses time isFloor stored x) :=
  inferInstanceAs (Decidable (∃ q ∈ stored, _))

def enter (stored : List α) (x : α) : List α :=
  if Refuses time isFloor stored x then stored
  else (if isFloor x then stored.filter fun y => time x ≤ time y else stored) ++ [x]

/-- What is stored after the entries have arrived in order. -/
def run (entries : List α) : List α := entries.foldl (enter time isFloor) []

/-- Every floor before the entry is below it and no floor after it is above it. -/
def Survives (entries : List α) (x : α) : Prop :=
  ∃ before after, entries = before ++ x :: after ∧
    (∀ q ∈ before, isFloor q = true → time q < time x) ∧
    ∀ q ∈ after, isFloor q = true → time q ≤ time x

/-- No other entry bears the time of the greatest floor. -/
def Settled (entries : List α) : Prop :=
  ∀ q ∈ entries, isFloor q = true → (∀ q' ∈ entries, isFloor q' = true → time q' ≤ time q) →
    ∀ x ∈ entries, time x = time q → x = q

instance [DecidableEq α] (entries : List α) : Decidable (Settled time isFloor entries) :=
  inferInstanceAs (Decidable (∀ q ∈ entries, _))

section Run
variable {time isFloor} {entries : List α} {x m : α}

theorem run_concat :
    run time isFloor (entries ++ [m]) = enter time isFloor (run time isFloor entries) m := by
  simp [run]

theorem mem_admit {stored : List α} :
    x ∈ enter time isFloor stored m ↔ (Refuses time isFloor stored m ∧ x ∈ stored) ∨
      ¬ Refuses time isFloor stored m ∧
        (x = m ∨ x ∈ stored ∧ (isFloor m = true → time m ≤ time x)) := by
  unfold enter
  by_cases h : Refuses time isFloor stored m
  · simp [h]
  · by_cases hm : isFloor m = true
    · simp [h, hm, or_comm]
    · simp [h, hm, or_comm]

theorem mem_of_mem_run (h : x ∈ run time isFloor entries) : x ∈ entries := by
  induction entries using List.reverseRecOn with
  | nil => exact h
  | append_singleton entries m ih =>
    rw [run_concat, mem_admit] at h
    rw [List.mem_append, List.mem_singleton]
    obtain ⟨-, h⟩ | ⟨-, h | ⟨h, -⟩⟩ := h
    · exact Or.inl (ih h)
    · exact Or.inr h
    · exact Or.inl (ih h)

/-- The floors that have arrived are covered by the floors that are stored. -/
theorem exists_stored_floor {q : α} (hq : q ∈ entries) (hfloor : isFloor q = true) :
    ∃ q' ∈ run time isFloor entries, isFloor q' = true ∧ time q ≤ time q' := by
  induction entries using List.reverseRecOn with
  | nil => cases hq
  | append_singleton entries m ih =>
    simp only [run_concat, mem_admit]
    by_cases hrefused : Refuses time isFloor (run time isFloor entries) m
    · rw [List.mem_append, List.mem_singleton] at hq
      obtain hq | rfl := hq
      · obtain ⟨q', hq', h⟩ := ih hq
        exact ⟨q', Or.inl ⟨hrefused, hq'⟩, h⟩
      · obtain ⟨q', hq', h⟩ := hrefused
        exact ⟨q', Or.inl ⟨⟨q', hq', h⟩, hq'⟩, h⟩
    · rw [List.mem_append, List.mem_singleton] at hq
      obtain hq | rfl := hq
      · obtain ⟨q', hq', hfloor', hle⟩ := ih hq
        by_cases hremoved : isFloor m = true → time m ≤ time q'
        · exact ⟨q', Or.inr ⟨hrefused, Or.inr ⟨hq', hremoved⟩⟩, hfloor', hle⟩
        · obtain ⟨hm, hlt⟩ := Classical.not_imp.mp hremoved
          exact ⟨m, Or.inr ⟨hrefused, Or.inl rfl⟩, hm, hle.trans (not_le.mp hlt).le⟩
      · exact ⟨q, Or.inr ⟨hrefused, Or.inl rfl⟩, hfloor, le_rfl⟩

theorem refuses_iff : Refuses time isFloor (run time isFloor entries) m ↔
    ∃ q ∈ entries, isFloor q = true ∧ time m ≤ time q := by
  constructor
  · intro ⟨q, hq, h⟩
    exact ⟨q, mem_of_mem_run hq, h⟩
  · intro ⟨q, hq, hfloor, hle⟩
    have hcovered : ∃ q' ∈ run time isFloor entries, isFloor q' = true ∧ time q ≤ time q' :=
      exists_stored_floor hq hfloor
    obtain ⟨q', hq', hfloor', hle'⟩ := hcovered
    exact ⟨q', hq', hfloor', hle.trans hle'⟩

/-- No stored entry is below a stored floor. -/
theorem floor_le {q : α} (hx : x ∈ run time isFloor entries) (hq : q ∈ run time isFloor entries)
    (hfloor : isFloor q = true) : time q ≤ time x := by
  induction entries using List.reverseRecOn with
  | nil => cases hx
  | append_singleton entries m ih =>
    rw [run_concat, mem_admit] at hx hq
    obtain ⟨hrefused, hx⟩ | ⟨haccepted, hx⟩ := hx
    · exact ih hx (hq.elim And.right fun h => absurd hrefused h.1)
    obtain ⟨hrefused, -⟩ | ⟨-, hq⟩ := hq
    · exact absurd hrefused haccepted
    obtain rfl | ⟨hx, hxm⟩ := hx
    · obtain rfl | ⟨hq, -⟩ := hq
      · exact le_rfl
      · exact le_of_not_ge fun hle => haccepted ⟨q, hq, hfloor, hle⟩
    · obtain rfl | ⟨hq, -⟩ := hq
      · exact hxm hfloor
      · exact ih hx hq

theorem survives_concat_self (hfresh : m ∉ entries) :
    Survives time isFloor (entries ++ [m]) m ↔ ∀ q ∈ entries, isFloor q = true → time q < time m := by
  constructor
  · intro ⟨before, after, heq, hbefore, _⟩
    have hlast : entries = before ∧ [m] = m :: after := by
      refine List.append_inj' heq ?_
      cases after with
      | nil => rfl
      | cons y ys =>
        -- another occurrence of the entry would be among the earlier ones
        have hmem : m ∈ (entries ++ [m]).dropLast := by
          rw [heq, List.dropLast_append_of_ne_nil (by simp), List.dropLast_cons_of_ne_nil (by simp)]
          simp
        rw [List.dropLast_concat] at hmem
        exact absurd hmem hfresh
    rwa [hlast.1]
  · intro h
    exact ⟨entries, [], rfl, h, by simp⟩

theorem survives_concat (hne : x ≠ m) : Survives time isFloor (entries ++ [m]) x ↔
    Survives time isFloor entries x ∧ (isFloor m = true → time m ≤ time x) := by
  constructor
  · intro ⟨before, after, heq, hbefore, hafter⟩
    cases after using List.reverseRecOn with
    | nil =>
      have hlast := (List.append_inj' heq rfl).2
      simp only [List.cons.injEq, and_true] at hlast
      exact absurd hlast.symm hne
    | append_singleton after y =>
      rw [← List.cons_append, ← List.append_assoc] at heq
      obtain ⟨rfl, hy⟩ := List.append_inj' heq rfl
      obtain rfl : m = y := by simpa using hy
      refine ⟨⟨before, after, rfl, hbefore, fun q hq => ?_⟩, ?_⟩
      · exact hafter q (List.mem_append_left _ hq)
      · exact hafter m (by simp)
  · intro ⟨⟨before, after, heq, hbefore, hafter⟩, hm⟩
    refine ⟨before, after ++ [m], by simp [heq], hbefore, fun q hq => ?_⟩
    rw [List.mem_append, List.mem_singleton] at hq
    obtain hq | rfl := hq
    · exact hafter q hq
    · exact hm

theorem mem_run_iff (hnodup : entries.Nodup) :
    x ∈ run time isFloor entries ↔ Survives time isFloor entries x := by
  induction entries using List.reverseRecOn with
  | nil => simp [run, Survives]
  | append_singleton entries m ih =>
    have hfresh : m ∉ entries := fun h =>
      (List.nodup_append.mp hnodup).2.2 m h m (by simp) rfl
    have ih := ih (List.nodup_append.mp hnodup).1
    rw [run_concat, mem_admit]
    by_cases hxm : x = m
    · subst hxm
      rw [survives_concat_self hfresh, refuses_iff]
      have hold : x ∉ run time isFloor entries := fun h => hfresh (mem_of_mem_run h)
      simp only [hold, and_false, false_or, and_true, false_and, or_false]
      push Not
      rfl
    · rw [survives_concat hxm, ← ih]
      by_cases hrefused : Refuses time isFloor (run time isFloor entries) m
      · -- what is stored is not below the stored floor that refuses the newcomer
        have hkeep : x ∈ run time isFloor entries → isFloor m = true → time m ≤ time x := by
          intro hx _
          obtain ⟨q, hq, hfloor, hle⟩ := hrefused
          exact hle.trans (floor_le hx hq hfloor)
        simp only [hrefused, true_and, not_true_eq_false, false_and, or_false]
        exact ⟨fun hx => ⟨hx, hkeep hx⟩, And.left⟩
      · simp [hrefused, hxm]

end Run

/-! ## Orders -/

section Orders
variable {time isFloor} {entries : List α}

theorem mem_run_of_settled (hnodup : entries.Nodup) (h : Settled time isFloor entries)
    {order : List α} (horder : order.Perm entries) {x : α} :
    x ∈ run time isFloor order ↔
      x ∈ entries ∧ ∀ q ∈ entries, isFloor q = true → q ≠ x → time q < time x := by
  rw [mem_run_iff (horder.nodup_iff.mpr hnodup)]
  constructor
  · intro ⟨before, after, heq, hbefore, hafter⟩
    have hmem : ∀ q, q ∈ entries ↔ q ∈ before ∨ q = x ∨ q ∈ after := by
      intro q
      rw [← horder.mem_iff, heq]
      simp
    have hle : ∀ q ∈ entries, isFloor q = true → time q ≤ time x := by
      intro q hq hfloor
      obtain hq | rfl | hq := (hmem q).mp hq
      · exact (hbefore q hq hfloor).le
      · exact le_rfl
      · exact hafter q hq hfloor
    have hx : x ∈ entries := (hmem x).mpr (Or.inr (Or.inl rfl))
    refine ⟨hx, fun q hq hfloor hne => lt_of_le_of_ne (hle q hq hfloor) fun htime => ?_⟩
    refine hne (h q hq hfloor (fun q' hq' hfloor' => ?_) x hx htime.symm).symm
    rw [htime]
    exact hle q' hq' hfloor'
  · intro ⟨hx, hbelow⟩
    obtain ⟨before, after, heq⟩ := List.append_of_mem (horder.mem_iff.mpr hx)
    have hnodup' := horder.nodup_iff.mpr hnodup
    rw [heq, List.nodup_append, List.nodup_cons] at hnodup'
    have hmem : ∀ q ∈ before ++ x :: after, q ∈ entries := fun q hq =>
      horder.mem_iff.mp (heq ▸ hq)
    refine ⟨before, after, heq, fun q hq hfloor => ?_, fun q hq hfloor => ?_⟩
    · refine hbelow q (hmem q (by simp [hq])) hfloor ?_
      rintro rfl
      exact hnodup'.2.2 q hq q (by simp) rfl
    · refine (hbelow q (hmem q (by simp [hq])) hfloor ?_).le
      rintro rfl
      exact hnodup'.2.1.1 hq

/-- The entries left are the same in every order exactly when the time of the greatest floor
is its alone. -/
theorem settled_iff (hnodup : entries.Nodup) : Settled time isFloor entries ↔
    ∀ order order' : List α, order.Perm entries → order'.Perm entries →
      ∀ x, x ∈ run time isFloor order ↔ x ∈ run time isFloor order' := by
  classical
  constructor
  · intro h order order' horder horder' x
    rw [mem_run_of_settled hnodup h horder, mem_run_of_settled hnodup h horder']
  · intro h q hq hfloor hgreatest x hx htime
    by_contra hne
    -- the entry first, or the floor first
    have hfirst : ∀ y ∈ entries, (y :: entries.erase y).Perm entries :=
      fun y hy => (List.perm_cons_erase hy).symm
    have hkept : x ∈ run time isFloor (x :: entries.erase x) := by
      rw [mem_run_iff ((hfirst x hx).nodup_iff.mpr hnodup)]
      refine ⟨[], entries.erase x, rfl, by simp, fun q' hq' hfloor' => ?_⟩
      rw [htime]
      exact hgreatest q' (List.mem_of_mem_erase hq') hfloor'
    rw [h _ _ (hfirst x hx) (hfirst q hq), mem_run_iff ((hfirst q hq).nodup_iff.mpr hnodup)]
      at hkept
    obtain ⟨before, after, heq, hbefore, -⟩ := hkept
    cases before with
    | nil =>
      simp only [List.nil_append, List.cons.injEq] at heq
      exact hne heq.1.symm
    | cons y before =>
      simp only [List.cons_append, List.cons.injEq] at heq
      exact absurd htime (hbefore q (by simp [heq.1]) hfloor).ne'

end Orders

end TemporalFloor
