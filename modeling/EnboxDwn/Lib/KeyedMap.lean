import Mathlib.Data.List.AList

/-! Maps with one value under each key, read in the order in which the keys came: changes of every
value, and removal of the entries that a test rejects. -/
abbrev KeyedMap (κ ν : Type) := AList fun _ : κ => ν

namespace KeyedMap
variable {κ ν : Type}

def values (m : KeyedMap κ ν) : List ν := (m.entries.map fun e => e.2).reverse

def update (f : ν → ν) (m : KeyedMap κ ν) : KeyedMap κ ν where
  entries := m.entries.map fun e => ⟨e.1, f e.2⟩
  nodupKeys := by
    have hkeys : (m.entries.map fun e => (⟨e.1, f e.2⟩ : Sigma fun _ : κ => ν)).keys =
        m.entries.keys := by simp [List.keys, Function.comp_def]
    rw [List.NodupKeys, hkeys]
    exact m.nodupKeys

def filter (p : ν → Bool) (m : KeyedMap κ ν) : KeyedMap κ ν where
  entries := m.entries.filter fun e => p e.2
  nodupKeys := m.nodupKeys.sublist List.filter_sublist

variable [DecidableEq κ]

/-- The key keeps its place when it has one. -/
def put (m : KeyedMap κ ν) (key : κ) (value : ν) : KeyedMap κ ν :=
  if key ∈ m then m.replace key value else m.insert key value

theorem lookup_update (f : ν → ν) (m : KeyedMap κ ν) (key : κ) :
    (update f m).lookup key = (m.lookup key).map f := by
  apply Option.ext
  intro value
  rw [← Option.mem_def, AList.mem_lookup_iff, Option.map_eq_some_iff]
  constructor
  · intro hmem
    obtain ⟨e, he, heq⟩ := List.mem_map.mp hmem
    cases heq
    exact ⟨e.2, AList.mem_lookup_iff.mpr he, rfl⟩
  · rintro ⟨old, hold, rfl⟩
    exact List.mem_map.mpr ⟨⟨key, old⟩, AList.mem_lookup_iff.mp hold, rfl⟩

theorem lookup_filter (p : ν → Bool) (m : KeyedMap κ ν) (key : κ) :
    (filter p m).lookup key = (m.lookup key).filter p := by
  apply Option.ext
  intro value
  rw [← Option.mem_def, AList.mem_lookup_iff, Option.filter_eq_some_iff]
  constructor
  · intro hmem
    obtain ⟨he, hp⟩ := List.mem_filter.mp hmem
    exact ⟨AList.mem_lookup_iff.mpr he, hp⟩
  · rintro ⟨hold, hp⟩
    exact List.mem_filter.mpr ⟨AList.mem_lookup_iff.mp hold, hp⟩

theorem lookup_insert_eq (m : KeyedMap κ ν) (key k : κ) (value : ν) :
    (m.insert key value).lookup k = if k = key then some value else m.lookup k := by
  by_cases h : k = key
  · subst h
    simp
  · rw [if_neg h, AList.lookup_insert_ne h]

theorem lookup_erase_eq (m : KeyedMap κ ν) (key k : κ) :
    (m.erase key).lookup k = if k = key then none else m.lookup k := by
  by_cases h : k = key
  · subst h
    simp
  · rw [if_neg h, AList.lookup_erase_ne h]

theorem dlookup_kreplace (l : List (Sigma fun _ : κ => ν)) (key k : κ) (value : ν) :
    List.dlookup k (List.kreplace key value l) =
      if k = key then (List.dlookup key l).map fun _ => value else List.dlookup k l := by
  induction l with
  | nil => simp [List.kreplace]
  | cons e l ih =>
    obtain ⟨a, old⟩ := e
    rw [List.kreplace, List.lookmap_cons]
    by_cases hkey : key = a
    · subst hkey
      by_cases hk : k = key
      · subst hk
        simp
      · have hne : k ≠ (⟨key, old⟩ : Sigma fun _ : κ => ν).1 := hk
        have hne' : k ≠ (⟨key, value⟩ : Sigma fun _ : κ => ν).1 := hk
        simp [hk, List.dlookup_cons_ne _ _ hne, List.dlookup_cons_ne _ _ hne']
    · have hkey' : key ≠ (⟨a, old⟩ : Sigma fun _ : κ => ν).1 := hkey
      rw [List.kreplace] at ih
      by_cases hk : k = a
      · subst hk
        simp [hkey, Ne.symm hkey]
      · have hne : k ≠ (⟨a, old⟩ : Sigma fun _ : κ => ν).1 := hk
        simp only [if_neg hkey]
        rw [List.dlookup_cons_ne _ _ hne, List.dlookup_cons_ne _ _ hkey',
          List.dlookup_cons_ne _ _ hne]
        exact ih

theorem lookup_put (m : KeyedMap κ ν) (key k : κ) (value : ν) :
    (put m key value).lookup k = if k = key then some value else m.lookup k := by
  unfold put
  split
  next hmem =>
    have hsome := AList.lookup_isSome.mpr hmem
    rw [AList.lookup, AList.replace, dlookup_kreplace]
    by_cases hk : k = key
    · obtain ⟨old, hold⟩ := Option.isSome_iff_exists.mp hsome
      rw [AList.lookup] at hold
      simp [hk, hold]
    · rw [if_neg hk, if_neg hk, AList.lookup]
  next => rw [lookup_insert_eq]

theorem lookup_eraseAll {β : Type} (key : β → κ) (l : List β) (m : KeyedMap κ ν) (k : κ) :
    (l.foldl (fun m x => m.erase (key x)) m).lookup k =
      if k ∈ l.map key then none else m.lookup k := by
  induction l generalizing m with
  | nil => simp
  | cons x l ih =>
    rw [List.foldl_cons, ih, lookup_erase_eq]
    by_cases hhead : k = key x
    · simp [hhead]
    · simp [hhead]

theorem mem_values {m : KeyedMap κ ν} {value : ν} :
    value ∈ values m ↔ ∃ key, m.lookup key = some value := by
  simp only [values, List.mem_reverse, List.mem_map]
  constructor
  · rintro ⟨e, he, rfl⟩
    exact ⟨e.1, AList.mem_lookup_iff.mpr he⟩
  · rintro ⟨key, hkey⟩
    exact ⟨⟨key, value⟩, AList.mem_lookup_iff.mp hkey, rfl⟩

end KeyedMap
