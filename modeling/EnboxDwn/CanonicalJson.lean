import EnboxDwn.Lib.JsonText
import Mathlib.Data.List.Lex
import Mathlib.Data.List.Sort

/-! JSON with sorted keys: values in the memory of a program, the sorted copy that is made of one,
and its text. An entry `__proto__` is not copied: its assignment goes to an inherited setter. -/
namespace EnboxDwn
namespace CanonicalJson
open Utf16 Json

/-! ## Keys -/

def compareUtf16 (left right : Utf16) : Int :=
  if left = right then 0 else if left < right then -1 else 1

/-- The key whose assignment sets the prototype of an object. -/
def protoKey : Utf16 := ascii "__proto__"

/-- The number of an array index: decimal digits without a leading zero, below 2^32 - 1. -/
def arrayIndex? (key : Utf16) : Option Nat :=
  let value := key.foldl (fun n u => n * 10 + (u.val - 48)) 0
  if key ≠ [] ∧ key.all (fun u => 48 ≤ u.val && u.val ≤ 57) ∧
      (key.head? ≠ some 48 ∨ key.length = 1) ∧ value < 4294967295 then
    some value
  else none

section Entries
variable {β γ : Type}

abbrev Entries (β : Type) := List (Utf16 × β)

/-- The order of the properties of an object: array indices by number, then by creation. -/
def propertyOrder (entries : Entries β) : Entries β :=
  (entries.filter fun e => (arrayIndex? e.1).isSome).insertionSort
      (fun e f => (arrayIndex? e.1).getD 0 ≤ (arrayIndex? f.1).getD 0) ++
    entries.filter fun e => (arrayIndex? e.1).isNone

def sortEntries (entries : Entries β) : Entries β :=
  entries.insertionSort fun e f => compareUtf16 e.1 f.1 ≤ 0

def dropProto (entries : Entries β) : Entries β := entries.filter fun e => e.1 ≠ protoKey

def mapValues (f : β → γ) (entries : Entries β) : Entries γ := entries.map fun e => (e.1, f e.2)

theorem compareUtf16_le {left right : Utf16} : compareUtf16 left right ≤ 0 ↔ left ≤ right := by
  simp only [compareUtf16]
  split_ifs with heq hlt
  · simp [heq]
  · simp [le_of_lt hlt]
  · simp only [Int.reduceLE, false_iff, not_le]
    exact lt_of_le_of_ne (not_lt.mp hlt) (Ne.symm heq)

theorem mapValues_filter (f : β → γ) (p : Utf16 → Bool) (entries : Entries β) :
    (mapValues f entries).filter (fun e => p e.1) = mapValues f (entries.filter fun e => p e.1) := by
  simp only [mapValues, List.filter_map]
  rfl

theorem mapValues_sort (f : β → γ) (r : Utf16 → Utf16 → Prop) [DecidableRel r]
    (entries : Entries β) :
    (mapValues f entries).insertionSort (fun e g => r e.1 g.1) =
      mapValues f (entries.insertionSort fun e g => r e.1 g.1) :=
  (List.map_insertionSort (fun e g : Utf16 × β => r e.1 g.1) (fun e g : Utf16 × γ => r e.1 g.1)
    (fun e => (e.1, f e.2)) entries fun _ _ _ _ => Iff.rfl).symm

theorem mapValues_sortEntries (f : β → γ) (entries : Entries β) :
    sortEntries (mapValues f entries) = mapValues f (sortEntries entries) :=
  mapValues_sort f (fun left right => compareUtf16 left right ≤ 0) entries

theorem mapValues_dropProto (f : β → γ) (entries : Entries β) :
    dropProto (mapValues f entries) = mapValues f (dropProto entries) :=
  mapValues_filter f (fun key => key ≠ protoKey) entries

theorem mapValues_propertyOrder (f : β → γ) (entries : Entries β) :
    propertyOrder (mapValues f entries) = mapValues f (propertyOrder entries) := by
  simp only [propertyOrder]
  rw [mapValues_filter f (fun key => (arrayIndex? key).isSome),
    mapValues_filter f (fun key => (arrayIndex? key).isNone),
    mapValues_sort f (fun left right => (arrayIndex? left).getD 0 ≤ (arrayIndex? right).getD 0)]
  simp only [mapValues, List.map_append]

theorem mem_mapValues {f : β → γ} {entries : Entries β} {key : Utf16} {y : γ} :
    (key, y) ∈ mapValues f entries ↔ ∃ x, (key, x) ∈ entries ∧ f x = y := by
  simp only [mapValues, List.mem_map, Prod.mk.injEq, Prod.exists]
  constructor
  · rintro ⟨k, x, hmem, rfl, rfl⟩
    exact ⟨x, hmem, rfl⟩
  · rintro ⟨x, hmem, rfl⟩
    exact ⟨key, x, hmem, rfl, rfl⟩

theorem mem_mapValues_of_mem (f : β → γ) {entries : Entries β} {e : Utf16 × β} (h : e ∈ entries) :
    (e.1, f e.2) ∈ mapValues f entries := List.mem_map_of_mem h

theorem keys_mapValues (f : β → γ) (entries : Entries β) :
    (mapValues f entries).map Prod.fst = entries.map Prod.fst := by
  simp [mapValues, Function.comp_def]

theorem mem_dropProto {entries : Entries β} {e : Utf16 × β} :
    e ∈ dropProto entries ↔ e ∈ entries ∧ e.1 ≠ protoKey := by
  simp [dropProto]

theorem mem_sortEntries {entries : Entries β} {e : Utf16 × β} :
    e ∈ sortEntries entries ↔ e ∈ entries := List.mem_insertionSort _

theorem propertyOrder_perm (entries : Entries β) : (propertyOrder entries).Perm entries := by
  have hparts : ((entries.filter fun e => (arrayIndex? e.1).isSome) ++
      entries.filter fun e => (arrayIndex? e.1).isNone).Perm entries := by
    have hnone : (fun e : Utf16 × β => (arrayIndex? e.1).isNone) =
        fun e => !(arrayIndex? e.1).isSome := by simp
    rw [hnone]
    exact List.filter_append_perm _ _
  exact ((List.perm_insertionSort _ _).append_right _).trans hparts

theorem nodup_propertyOrder {entries : Entries β} (h : (entries.map Prod.fst).Nodup) :
    ((propertyOrder entries).map Prod.fst).Nodup :=
  ((propertyOrder_perm entries).map _).nodup_iff.mpr h

theorem mem_propertyOrder {entries : Entries β} {e : Utf16 × β} :
    e ∈ propertyOrder entries ↔ e ∈ entries := (propertyOrder_perm entries).mem_iff

theorem sortEntries_sorted (entries : Entries β) :
    (sortEntries entries).Pairwise fun e f => e.1 ≤ f.1 := by
  have hsorted : (sortEntries entries).Pairwise fun e f => compareUtf16 e.1 f.1 ≤ 0 := by
    have htotal : Std.Total fun e f : Utf16 × β => compareUtf16 e.1 f.1 ≤ 0 :=
      ⟨fun e f => by simp only [compareUtf16_le]; exact le_total e.1 f.1⟩
    have htrans : IsTrans (Utf16 × β) fun e f => compareUtf16 e.1 f.1 ≤ 0 :=
      ⟨fun e f g => by simp only [compareUtf16_le]; exact le_trans⟩
    exact List.pairwise_insertionSort _ _
  exact hsorted.imp fun h => compareUtf16_le.mp h

theorem eq_of_key {entries : Entries β} (h : (entries.map Prod.fst).Nodup) {key : Utf16} {x y : β}
    (hx : (key, x) ∈ entries) (hy : (key, y) ∈ entries) : x = y := by
  have heq := List.inj_on_of_nodup_map h hx hy rfl
  exact (Prod.mk.inj heq).2

theorem sorted_eq {es fs : Entries β} (hes : (es.map Prod.fst).Nodup)
    (hfs : (fs.map Prod.fst).Nodup)
    (h : ∀ e : Utf16 × β, e.1 ≠ protoKey → (e ∈ es ↔ e ∈ fs)) :
    dropProto (sortEntries es) = dropProto (sortEntries fs) := by
  have hperm : (dropProto (sortEntries es)).Perm (dropProto (sortEntries fs)) := by
    apply (List.perm_ext_iff_of_nodup ?_ ?_).mpr
    · intro e
      simp only [mem_dropProto, mem_sortEntries]
      constructor
      · intro he
        exact ⟨(h e he.2).mp he.1, he.2⟩
      · intro he
        exact ⟨(h e he.2).mpr he.1, he.2⟩
    · exact ((List.perm_insertionSort _ es).nodup_iff.mpr hes.of_map).filter _
    · exact ((List.perm_insertionSort _ fs).nodup_iff.mpr hfs.of_map).filter _
  refine List.Perm.eq_of_pairwise ?_ ((sortEntries_sorted es).filter _)
    ((sortEntries_sorted fs).filter _) hperm
  intro e f he hf hle hge
  simp only [mem_dropProto, mem_sortEntries] at he hf
  have hkey : e.1 = f.1 := le_antisymm hle hge
  have hfe : f ∈ es := (h f hf.2).mpr hf.1
  exact List.inj_on_of_nodup_map hes he.1 hfe hkey

end Entries

/-! ## Values as trees -/

mutual

/-- Every object of the value with its entries changed, the innermost first. -/
def mapObjects (f : Entries Json → Entries Json) : Json → Json
  | .array elements => .array (mapAll f elements)
  | .object entries => .object (f (mapEntries f entries))
  | t => t

def mapAll (f : Entries Json → Entries Json) : List Json → List Json
  | [] => []
  | t :: ts => mapObjects f t :: mapAll f ts

def mapEntries (f : Entries Json → Entries Json) : List (Utf16 × Json) → List (Utf16 × Json)
  | [] => []
  | (key, value) :: entries => (key, mapObjects f value) :: mapEntries f entries

end

theorem mapAll_eq (f : Entries Json → Entries Json) (ts : List Json) :
    mapAll f ts = ts.map (mapObjects f) := by
  induction ts with
  | nil => rfl
  | cons t ts ih => rw [mapAll, ih, List.map_cons]

theorem mapEntries_eq (f : Entries Json → Entries Json) (entries : Entries Json) :
    mapEntries f entries = mapValues (mapObjects f) entries := by
  induction entries with
  | nil => rfl
  | cons e entries ih =>
    rw [mapEntries, ih]
    rfl

def canonical : Json → Json :=
  mapObjects fun entries => dropProto (sortEntries (propertyOrder entries))

def written : Json → Json := mapObjects propertyOrder

mutual

/-- Equal as JSON: arrays elementwise, objects by their keys. -/
def Same : Json → Json → Prop
  | .null, .null => True
  | .bool b, .bool c => b = c
  | .number x, .number y => x = y
  | .string s, .string t => s = t
  | .array ts, .array us => SameAll ts us
  | .object es, .object fs =>
    (∀ key, key ∈ es.map Prod.fst ↔ key ∈ fs.map Prod.fst) ∧ SameEntries es fs
  | _, _ => False

def SameAll : List Json → List Json → Prop
  | [], [] => True
  | t :: ts, u :: us => Same t u ∧ SameAll ts us
  | _, _ => False

def SameEntries : List (Utf16 × Json) → List (Utf16 × Json) → Prop
  | [], _ => True
  | (key, value) :: es, fs => (∃ w, (key, w) ∈ fs ∧ Same value w) ∧ SameEntries es fs

end

inductive Valid : Json → Prop
  | null : Valid .null
  | bool (b : Bool) : Valid (.bool b)
  | number (x : Number) : Valid (.number x)
  | string (s : Utf16) : Valid (.string s)
  | array {ts : List Json} (h : ∀ t ∈ ts, Valid t) : Valid (.array ts)
  | object {es : Entries Json} (hkeys : (es.map Prod.fst).Nodup) (h : ∀ e ∈ es, Valid e.2) :
      Valid (.object es)

def arranged (t : Json) : Json := written (canonical t)

theorem arranged_array (ts : List Json) : arranged (.array ts) = .array (ts.map arranged) := by
  simp only [arranged, canonical, written, mapObjects, mapAll_eq, List.map_map]
  rfl

theorem arranged_object (es : Entries Json) :
    arranged (.object es) =
      .object (propertyOrder (dropProto (sortEntries (propertyOrder (mapValues arranged es))))) := by
  simp only [arranged, canonical, written, mapObjects, mapEntries_eq]
  congr 2
  rw [← mapValues_dropProto, ← mapValues_sortEntries, ← mapValues_propertyOrder]
  simp only [mapValues, List.map_map]
  rfl

theorem mem_keys {β : Type} {es : Entries β} {key : Utf16} :
    key ∈ es.map Prod.fst ↔ ∃ v, (key, v) ∈ es := by
  simp

theorem arranged_arranged {a : Json} (ha : Valid a) : arranged (arranged a) = arranged a := by
  induction a using Json.induction with
  | array ts ih =>
    cases ha with
    | array hts =>
      rw [arranged_array, arranged_array, List.map_map]
      congr 1
      exact List.map_congr_left fun t ht => ih t ht (hts t ht)
  | object es ih =>
    cases ha with
    | object hkeys hvalues =>
      have hnodup : ((propertyOrder (mapValues arranged es)).map Prod.fst).Nodup := by
        rw [mapValues_propertyOrder, keys_mapValues]
        exact nodup_propertyOrder hkeys
      rw [arranged_object, arranged_object]
      congr 2
      apply sorted_eq
      · rw [mapValues_propertyOrder, keys_mapValues]
        refine nodup_propertyOrder (nodup_propertyOrder ?_)
        exact (((List.perm_insertionSort _ _).map _).nodup_iff.mpr hnodup).sublist
          (List.filter_sublist.map _)
      · exact hnodup
      · rintro ⟨key, x⟩ hne
        simp only [mem_propertyOrder, mem_mapValues, mem_dropProto, mem_sortEntries]
        constructor
        · rintro ⟨y, ⟨⟨v, hv, rfl⟩, -⟩, rfl⟩
          exact ⟨v, hv, (ih (key, v) hv (hvalues _ hv)).symm⟩
        · rintro ⟨v, hv, rfl⟩
          exact ⟨_, ⟨⟨v, hv, rfl⟩, hne⟩, ih (key, v) hv (hvalues _ hv)⟩
  | _ => rfl

end CanonicalJson
end EnboxDwn
