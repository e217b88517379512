import Mathlib.Data.List.Nodup

/-! A map from keys to the time up to which they count as recent. Expired entries are dropped
when they are looked up and, once the map has grown beyond a bound, all at once; neither is
visible in which keys are recent. -/
namespace Expiring
variable {κ : Type*} [DecidableEq κ]

abbrev Cache (κ : Type*) := List (κ × Nat)

def set (key : κ) (expiry : Nat) : Cache κ → Cache κ
  | [] => [(key, expiry)]
  | (k, e) :: rest => if k = key then (key, expiry) :: rest else (k, e) :: set key expiry rest

def delete (key : κ) (cache : Cache κ) : Cache κ := cache.filter fun entry => entry.1 ≠ key

def evict (now : Nat) (cache : Cache κ) : Cache κ := cache.filter fun entry => now ≤ entry.2

/-- Whether the key is recent; an expired entry is forgotten on the way. -/
def check (key : κ) (now : Nat) (cache : Cache κ) : Bool × Cache κ :=
  match cache.lookup key with
  | none => (false, cache)
  | some expiry => if expiry < now then (false, delete key cache) else (true, cache)

/-- Records the key as recent for `ttl` from now on. -/
def mark (bound ttl : Nat) (key : κ) (now : Nat) (cache : Cache κ) : Cache κ :=
  let marked := set key (now + ttl) cache
  if bound < marked.length then evict now marked else marked

def Recent (cache : Cache κ) (now : Nat) (key : κ) : Prop :=
  ∃ expiry, cache.lookup key = some expiry ∧ now ≤ expiry

/-- One entry for each key, as in a map. -/
def Keyed (cache : Cache κ) : Prop := (cache.map Prod.fst).Nodup

theorem lookup_cons (k key : κ) (e : Nat) (cache : Cache κ) :
    List.lookup key ((k, e) :: cache) = if key = k then some e else cache.lookup key := by
  by_cases h : key = k
  · simp [h]
  · simp [List.lookup_cons, h, beq_eq_false_iff_ne.mpr h]

theorem lookup_set (key k : κ) (expiry : Nat) (cache : Cache κ) :
    (set key expiry cache).lookup k = if k = key then some expiry else cache.lookup k := by
  induction cache with
  | nil => simp only [set, lookup_cons, List.lookup_nil]
  | cons entry rest ih =>
    obtain ⟨k', e⟩ := entry
    by_cases hk : k' = key
    · subst hk
      simp only [set, if_true, lookup_cons]
      by_cases h : k = k'
      · simp [h]
      · simp [h]
    · simp only [set, if_neg hk, lookup_cons, ih]
      by_cases h : k = key
      · simp [h, Ne.symm hk]
      · simp [h]

theorem lookup_delete (key k : κ) (cache : Cache κ) :
    (delete key cache).lookup k = if k = key then none else cache.lookup k := by
  induction cache with
  | nil => simp [delete]
  | cons entry rest ih =>
    obtain ⟨k', e⟩ := entry
    unfold delete at ih ⊢
    by_cases hk : k' = key
    · subst hk
      simp only [List.filter_cons, ne_eq, not_true_eq_false, decide_false, lookup_cons]
      by_cases h : k = k'
      · simpa [h] using ih
      · simpa [h] using ih
    · simp only [List.filter_cons, hk, ne_eq, not_false_eq_true, decide_true, if_true, lookup_cons,
        ih]
      by_cases h : k = k'
      · simp [h, hk]
      · simp [h]

theorem mem_of_lookup {cache : Cache κ} {key : κ} {expiry : Nat}
    (h : cache.lookup key = some expiry) : (key, expiry) ∈ cache := by
  induction cache with
  | nil => cases h
  | cons entry rest ih =>
    obtain ⟨k, e⟩ := entry
    rw [lookup_cons] at h
    split at h
    next heq =>
      cases h
      simp [heq]
    next => exact List.mem_cons_of_mem _ (ih h)

theorem lookup_of_mem {cache : Cache κ} (hkeys : Keyed cache) {key : κ} {expiry : Nat}
    (h : (key, expiry) ∈ cache) : cache.lookup key = some expiry := by
  induction cache with
  | nil => cases h
  | cons entry rest ih =>
    obtain ⟨k, e⟩ := entry
    have hnodup := List.nodup_cons.mp hkeys
    rw [lookup_cons]
    cases List.mem_cons.mp h with
    | inl heq =>
      cases heq
      exact if_pos rfl
    | inr hmem =>
      have hne : key ≠ k := by
        intro heq
        exact hnodup.1 (List.mem_map.mpr ⟨(key, expiry), hmem, heq⟩)
      rw [if_neg hne]
      exact ih hnodup.2 hmem

theorem mem_keys_set {key k : κ} {expiry : Nat} {cache : Cache κ}
    (h : k ∈ (set key expiry cache).map Prod.fst) : k = key ∨ k ∈ cache.map Prod.fst := by
  induction cache with
  | nil =>
    left
    simpa [set] using h
  | cons entry rest ih =>
    obtain ⟨k', e⟩ := entry
    simp only [set] at h
    split at h
    next heq =>
      simp only [List.map_cons, List.mem_cons] at h ⊢
      cases h with
      | inl h => exact Or.inl h
      | inr h => exact Or.inr (Or.inr h)
    next =>
      simp only [List.map_cons, List.mem_cons] at h ⊢
      cases h with
      | inl h => exact Or.inr (Or.inl h)
      | inr h =>
        cases ih h with
        | inl h => exact Or.inl h
        | inr h => exact Or.inr (Or.inr h)

namespace Keyed
variable {cache : Cache κ}

theorem set (h : Keyed cache) (key : κ) (expiry : Nat) : Keyed (set key expiry cache) := by
  induction cache with
  | nil => simp [Keyed, Expiring.set]
  | cons entry rest ih =>
    obtain ⟨k, e⟩ := entry
    have hnodup := List.nodup_cons.mp h
    simp only [Expiring.set]
    split
    next heq =>
      subst heq
      exact List.nodup_cons.mpr hnodup
    next hne =>
      apply List.nodup_cons.mpr
      constructor
      · intro hmem
        cases mem_keys_set hmem with
        | inl heq => exact hne heq
        | inr hmem => exact hnodup.1 hmem
      · exact ih hnodup.2

omit [DecidableEq κ] in
theorem filter (h : Keyed cache) (p : κ × Nat → Bool) : Keyed (cache.filter p) :=
  h.sublist (List.filter_sublist.map _)

theorem mark (h : Keyed cache) (bound ttl : Nat) (key : κ) (now : Nat) :
    Keyed (mark bound ttl key now cache) := by
  simp only [Expiring.mark]
  split
  · exact (h.set key (now + ttl)).filter _
  · exact h.set key (now + ttl)

theorem check (h : Keyed cache) (key : κ) (now : Nat) : Keyed (check key now cache).2 := by
  unfold Expiring.check
  split
  · exact h
  · split
    · exact h.filter _
    · exact h

theorem evict_recent (h : Keyed cache) (now : Nat) (key : κ) :
    Recent (evict now cache) now key ↔ Recent cache now key := by
  constructor
  · rintro ⟨expiry, hlookup, hle⟩
    have hmem := List.mem_of_mem_filter (mem_of_lookup hlookup)
    exact ⟨expiry, lookup_of_mem h hmem, hle⟩
  · rintro ⟨expiry, hlookup, hle⟩
    have hmem : (key, expiry) ∈ evict now cache :=
      List.mem_filter.mpr ⟨mem_of_lookup hlookup, decide_eq_true hle⟩
    exact ⟨expiry, lookup_of_mem (h.filter _) hmem, hle⟩

end Keyed

theorem check_recent (key : κ) (now : Nat) (cache : Cache κ) :
    (check key now cache).1 = true ↔ Recent cache now key := by
  unfold check Recent
  split
  next h => simp [h]
  next expiry h =>
    split
    next hlt => simp [h, hlt]
    next hle => simp [h, Nat.le_of_not_lt hle]

theorem recent_check (key k : κ) (now : Nat) (cache : Cache κ) :
    Recent (check key now cache).2 now k ↔ Recent cache now k := by
  unfold check
  split
  · rfl
  next expiry h =>
    split
    next hlt =>
      unfold Recent
      rw [lookup_delete]
      by_cases hk : k = key
      · subst hk
        simp [h, hlt]
      · simp [hk]
    · rfl

theorem recent_mark {cache : Cache κ} (h : Keyed cache) (bound ttl : Nat) (key k : κ) (now : Nat) :
    Recent (mark bound ttl key now cache) now k ↔ k = key ∨ Recent cache now k := by
  have hset : Recent (set key (now + ttl) cache) now k ↔ k = key ∨ Recent cache now k := by
    unfold Recent
    rw [lookup_set]
    by_cases hk : k = key
    · simp [hk]
    · simp [hk]
  simp only [mark]
  split
  · rw [(h.set key (now + ttl)).evict_recent, hset]
  · exact hset

theorem lookup_mark {cache : Cache κ} (h : Keyed cache) {bound ttl : Nat} {key k : κ} {now e : Nat}
    (hlookup : (mark bound ttl key now cache).lookup k = some e) :
    (k = key ∧ e = now + ttl) ∨ (k ≠ key ∧ cache.lookup k = some e) := by
  have hset : (set key (now + ttl) cache).lookup k = some e := by
    simp only [mark] at hlookup
    split at hlookup
    · have hmem := List.mem_of_mem_filter (mem_of_lookup hlookup)
      exact lookup_of_mem (h.set key (now + ttl)) hmem
    · exact hlookup
  rw [lookup_set] at hset
  split at hset
  next heq =>
    cases hset
    exact Or.inl ⟨heq, rfl⟩
  next hne => exact Or.inr ⟨hne, hset⟩

theorem lookup_check {cache : Cache κ} {key k : κ} {now e : Nat}
    (hlookup : (check key now cache).2.lookup k = some e) : cache.lookup k = some e := by
  unfold check at hlookup
  split at hlookup
  · exact hlookup
  · split at hlookup
    · rw [lookup_delete] at hlookup
      split at hlookup
      · cases hlookup
      · exact hlookup
    · exact hlookup

end Expiring
