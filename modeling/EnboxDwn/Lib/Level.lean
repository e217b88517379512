import Mathlib.Data.List.AList
import Mathlib.Data.List.Lex
import Mathlib.Data.List.Sort

/-! A level store: reads by key, scans of a part of the keys in their order, and batches of writes
and deletions that take effect together. -/
namespace Level

/-- One sublevel: each key has at most one value. -/
abbrev Sublevel (κ ν : Type) := AList fun _ : κ => ν

inductive Operation (κ ν : Type) where
  | put (key : κ) (value : ν)
  | del (key : κ)

section Store
variable {κ ν ρ : Type} [DecidableEq κ]

def get (s : Sublevel κ ν) (key : κ) : Option ν := s.lookup key

def Operation.apply (s : Sublevel κ ν) : Operation κ ν → Sublevel κ ν
  | .put key value => s.insert key value
  | .del key => s.erase key

def batch (operations : List (Operation κ ν)) (s : Sublevel κ ν) : Sublevel κ ν :=
  operations.foldl Operation.apply s

/-- The entries whose keys are selected, in the order of the keys. -/
def entries (le : κ → κ → Bool) (selected : κ → Bool) (s : Sublevel κ ν) : List (κ × ν) :=
  ((s.entries.filter fun e => selected e.1).map fun e => (e.1, e.2)).insertionSort
    fun a b => le a.1 b.1

def clear (selected : κ → Bool) (s : Sublevel κ ν) : Sublevel κ ν where
  entries := s.entries.filter fun e => !selected e.1
  nodupKeys := s.nodupKeys.sublist List.filter_sublist

theorem mem_entries {le : κ → κ → Bool} {selected : κ → Bool} {s : Sublevel κ ν} {key : κ}
    {value : ν} :
    (key, value) ∈ entries le selected s ↔ get s key = some value ∧ selected key = true := by
  unfold entries
  rw [List.mem_insertionSort, List.mem_map]
  constructor
  · rintro ⟨e, he, heq⟩
    cases heq
    obtain ⟨hmem, hselected⟩ := List.mem_filter.mp he
    exact ⟨AList.mem_lookup_iff.mpr hmem, hselected⟩
  · rintro ⟨hget, hselected⟩
    exact ⟨⟨key, value⟩, List.mem_filter.mpr ⟨AList.mem_lookup_iff.mp hget, hselected⟩, rfl⟩

theorem get_clear (selected : κ → Bool) (s : Sublevel κ ν) (key : κ) :
    get (clear selected s) key = if selected key then none else get s key := by
  by_cases hselected : selected key = true
  · rw [if_pos hselected]
    apply AList.lookup_eq_none.mpr
    intro hmem
    obtain ⟨value, hvalue⟩ := Option.isSome_iff_exists.mp (AList.lookup_isSome.mpr hmem)
    have := (List.mem_filter.mp (AList.mem_lookup_iff.mp hvalue)).2
    simp [hselected] at this
  · rw [if_neg hselected]
    apply Option.ext
    intro value
    unfold get
    rw [Option.mem_def.symm, AList.mem_lookup_iff, ← Option.mem_def, AList.mem_lookup_iff]
    unfold clear
    rw [List.mem_filter]
    simp [hselected]

@[simp] theorem get_put (s : Sublevel κ ν) (key : κ) (value : ν) :
    get ((Operation.put key value).apply s) key = some value := AList.lookup_insert s

@[simp] theorem get_del (s : Sublevel κ ν) (key : κ) :
    get ((Operation.del key : Operation κ ν).apply s) key = none := AList.lookup_erase key s

def Operation.key : Operation κ ν → κ
  | .put key _ => key
  | .del key => key

theorem get_apply_of_ne {operation : Operation κ ν} {s : Sublevel κ ν} {key : κ}
    (h : key ≠ operation.key) : get (operation.apply s) key = get s key := by
  cases operation with
  | put _ _ => exact AList.lookup_insert_ne h
  | del _ => exact AList.lookup_erase_ne h

@[simp] theorem batch_nil (s : Sublevel κ ν) : batch [] s = s := rfl

@[simp] theorem batch_cons (operation : Operation κ ν) (operations : List (Operation κ ν))
    (s : Sublevel κ ν) : batch (operation :: operations) s = batch operations (operation.apply s) :=
  rfl

theorem batch_append (a b : List (Operation κ ν)) (s : Sublevel κ ν) :
    batch (a ++ b) s = batch b (batch a s) := List.foldl_append

theorem get_batch_of_forall_ne {operations : List (Operation κ ν)} {key : κ}
    (h : ∀ operation ∈ operations, key ≠ operation.key) (s : Sublevel κ ν) :
    get (batch operations s) key = get s key := by
  induction operations generalizing s with
  | nil => rfl
  | cons operation operations ih =>
    rw [batch_cons, ih fun o ho => h o (List.mem_cons_of_mem _ ho)]
    exact get_apply_of_ne (h operation List.mem_cons_self)

/-- Deletions leave a key with its value or with none, and with none if they name it. -/
theorem get_batch_del (f : ρ → κ) (xs : List ρ) (s : Sublevel κ ν) (key : κ) :
    get (batch (xs.map fun x => .del (f x)) s) key =
      if key ∈ xs.map f then none else get s key := by
  induction xs generalizing s with
  | nil => simp
  | cons x xs ih =>
    rw [List.map_cons, batch_cons, ih, List.map_cons]
    by_cases hmem : key ∈ xs.map f
    · rw [if_pos hmem, if_pos (List.mem_cons_of_mem _ hmem)]
    · rw [if_neg hmem]
      by_cases hkey : key = f x
      · subst hkey
        rw [if_pos List.mem_cons_self, get_del]
      · rw [if_neg (by simp only [List.mem_cons, not_or]; exact ⟨hkey, hmem⟩)]
        exact get_apply_of_ne hkey

/-- A key that a batch of writes names ends with one of the values written to it. -/
theorem get_batch_put (f : ρ → κ) (g : ρ → ν) (xs : List ρ) (s : Sublevel κ ν) (key : κ) :
    (key ∉ xs.map f ∧ get (batch (xs.map fun x => .put (f x) (g x)) s) key = get s key) ∨
      ∃ x ∈ xs, f x = key ∧
        get (batch (xs.map fun x => .put (f x) (g x)) s) key = some (g x) := by
  induction xs generalizing s with
  | nil => exact Or.inl ⟨by simp, rfl⟩
  | cons x xs ih =>
    have hcons : batch ((x :: xs).map fun x => Operation.put (f x) (g x)) s =
        batch (xs.map fun x => Operation.put (f x) (g x)) (Operation.apply s (.put (f x) (g x))) :=
      rfl
    rw [hcons]
    obtain ⟨hnot, hget⟩ | ⟨y, hy, hkey, hget⟩ := ih (Operation.apply s (.put (f x) (g x)))
    · by_cases hkey : key = f x
      · subst hkey
        exact Or.inr ⟨x, List.mem_cons_self, rfl, by rw [hget, get_put]⟩
      · refine Or.inl ⟨?_, ?_⟩
        · rw [List.map_cons, List.mem_cons, not_or]
          exact ⟨hkey, hnot⟩
        · rw [hget]
          exact get_apply_of_ne hkey
    · exact Or.inr ⟨y, List.mem_cons_of_mem _ hy, hkey, hget⟩

theorem get_batch_put_one (s : Sublevel κ ν) (key key' : κ) (value : ν) :
    get (batch [.put key' value] s) key = if key = key' then some value else get s key := by
  split
  · next hkey =>
    subst hkey
    exact get_put s key value
  · next hkey => exact AList.lookup_insert_ne hkey

theorem get_batch_del_one (s : Sublevel κ ν) (key key' : κ) :
    get (batch [.del key'] s) key = if key = key' then none else get s key := by
  split
  · next hkey =>
    subst hkey
    exact get_del s key
  · next hkey => exact AList.lookup_erase_ne hkey

def All (P : κ → ν → Prop) (s : Sublevel κ ν) : Prop := ∀ key value, get s key = some value → P key value

theorem All.empty (P : κ → ν → Prop) : All P (∅ : Sublevel κ ν) := by
  intro key value h
  cases h

theorem All.apply {P : κ → ν → Prop} {s : Sublevel κ ν} (hs : All P s) {operation : Operation κ ν}
    (h : ∀ key value, operation = .put key value → P key value) : All P (operation.apply s) := by
  intro key value hget
  by_cases hkey : key = operation.key
  · cases operation with
    | put key' value' =>
      cases hkey
      rw [Operation.key, get_put, Option.some.injEq] at hget
      exact hget ▸ h key' value' rfl
    | del key' =>
      cases hkey
      rw [Operation.key, get_del] at hget
      cases hget
  · rw [get_apply_of_ne hkey] at hget
    exact hs key value hget

theorem All.batch {P : κ → ν → Prop} {s : Sublevel κ ν} (hs : All P s)
    {operations : List (Operation κ ν)}
    (h : ∀ key value, .put key value ∈ operations → P key value) :
    All P (batch operations s) := by
  induction operations generalizing s with
  | nil => exact hs
  | cons operation operations ih =>
    rw [batch_cons]
    refine ih (hs.apply fun key value heq => h key value ?_) fun key value hmem => ?_
    · rw [heq]
      exact List.mem_cons_self
    · exact h key value (List.mem_cons_of_mem _ hmem)

theorem All.put {P : κ → ν → Prop} {s : Sublevel κ ν} (hs : All P s) {key : κ} {value : ν}
    (h : P key value) : All P (Level.batch [.put key value] s) := by
  refine hs.batch fun key' value' hmem => ?_
  cases List.mem_singleton.mp hmem
  exact h

theorem All.del {P : κ → ν → Prop} {s : Sublevel κ ν} (hs : All P s) (f : ρ → κ) (xs : List ρ) :
    All P (Level.batch (xs.map fun x => .del (f x)) s) := by
  refine hs.batch fun key value hmem => ?_
  obtain ⟨x, -, hx⟩ := List.mem_map.mp hmem
  cases hx

theorem All.clear {P : κ → ν → Prop} {s : Sublevel κ ν} (hs : All P s) (selected : κ → Bool) :
    All P (clear selected s) := by
  intro key value hget
  rw [get_clear] at hget
  split at hget
  · cases hget
  · exact hs key value hget

end Store

section Order
variable {κ ν : Type} [LinearOrder κ]

theorem entries_ascending (selected : κ → Bool) (s : Sublevel κ ν) :
    (entries (fun a b => decide (a ≤ b)) selected s).Pairwise fun a b => a.1 < b.1 := by
  have hkeys : (((s.entries.filter fun e => selected e.1).map fun e => (e.1, e.2)).map
      Prod.fst).Nodup := by
    rw [List.map_map]
    exact (s.nodupKeys.sublist List.filter_sublist)
  have hsorted := List.pairwise_insertionSort (fun a b : κ × ν => decide (a.1 ≤ b.1) = true)
    ((s.entries.filter fun e => selected e.1).map fun e => (e.1, e.2))
  have hnodup := (List.perm_insertionSort (fun a b : κ × ν => decide (a.1 ≤ b.1) = true)
    ((s.entries.filter fun e => selected e.1).map fun e => (e.1, e.2))).map Prod.fst
  have hne := List.pairwise_map.mp (hnodup.symm.nodup hkeys)
  unfold entries
  exact (hsorted.and hne).imp fun h => lt_of_le_of_ne (of_decide_eq_true h.1) h.2

end Order

/-! ## Ranges of keys with a common beginning -/

section Prefix
variable {α : Type} [LinearOrder α]

/-- Between a word and its extension by one letter lie only extensions of the word. -/
theorem isPrefix_of_between {word key : List α} {last : α} (hlower : ¬ List.Lex (· < ·) key word)
    (hupper : ¬ List.Lex (· < ·) (word ++ [last]) key) : word <+: key := by
  induction word generalizing key with
  | nil => exact List.nil_prefix
  | cons a word ih =>
    cases key with
    | nil => exact absurd List.Lex.nil hlower
    | cons b key =>
      rw [List.cons_append] at hupper
      rw [List.cons_lex_cons_iff, not_or] at hlower hupper
      obtain rfl : a = b := le_antisymm (not_lt.mp hlower.1) (not_lt.mp hupper.1)
      refine List.cons_prefix_cons.mpr ⟨rfl, ih ?_ ?_⟩
      · intro hlex
        exact hlower.2 ⟨rfl, hlex⟩
      · intro hlex
        exact hupper.2 ⟨rfl, hlex⟩

theorem not_append_lex (word rest : List α) : ¬ List.Lex (· < ·) (word ++ rest) word := by
  induction word with
  | nil => exact List.not_lex_nil
  | cons a word ih =>
    rw [List.cons_append, List.cons_lex_cons_iff, not_or]
    exact ⟨lt_irrefl a, fun h => ih h.2⟩

/-- An extension that goes on with a smaller letter does not come after the one by the letter. -/
theorem not_lex_append_of_lt {first last : α} (h : first < last) (word rest : List α) :
    ¬ List.Lex (· < ·) (word ++ [last]) (word ++ first :: rest) := by
  induction word with
  | nil =>
    rw [List.nil_append, List.nil_append, List.cons_lex_cons_iff, not_or]
    exact ⟨h.asymm, fun heq => h.ne heq.1.symm⟩
  | cons a word ih =>
    rw [List.cons_append, List.cons_append, List.cons_lex_cons_iff, not_or]
    exact ⟨lt_irrefl a, fun heq => ih heq.2⟩

end Prefix

end Level
