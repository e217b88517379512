import EnboxDwn.CanonicalJson

/-! Canonical JSON as the program makes it: the argument lies in memory, the sorted copy is built
from fresh cells, and the text is read off the copy. -/
namespace EnboxDwn
namespace CanonicalJson
open Utf16
open Json (render joined)

/-! ## Memory -/

inductive JsValue where
  | undefined
  | null
  | bool (b : Bool)
  | number (x : Number)
  | string (s : Utf16)
  | ref (address : Nat)

/-- The own properties of an object in the order of their creation; no key occurs twice. -/
structure Properties where
  entries : Entries JsValue
  nodup : (entries.map Prod.fst).Nodup

namespace Properties

def empty : Properties := ⟨[], List.nodup_nil⟩

/-- `Object.keys`. -/
def keys (properties : Properties) : List Utf16 := (propertyOrder properties.entries).map Prod.fst

def get (properties : Properties) (key : Utf16) : JsValue :=
  match properties.entries.find? fun e => e.1 = key with
  | some e => e.2
  | none => .undefined

def replaced (entries : Entries JsValue) (key : Utf16) (value : JsValue) : Entries JsValue :=
  entries.map fun e => (e.1, if e.1 = key then value else e.2)

theorem keys_replaced (entries : Entries JsValue) (key : Utf16) (value : JsValue) :
    (replaced entries key value).map Prod.fst = entries.map Prod.fst := by
  simp [replaced, Function.comp_def]

/-- An assignment. The one to a missing `__proto__` calls the setter that every object inherits,
which gives the object another prototype and no property. -/
def set (properties : Properties) (key : Utf16) (value : JsValue) : Properties :=
  if hkey : key ∈ properties.entries.map Prod.fst then
    ⟨replaced properties.entries key value, by
      rw [keys_replaced]
      exact properties.nodup⟩
  else if key = protoKey then properties
  else
    ⟨properties.entries ++ [(key, value)], by
      rw [List.map_append]
      exact properties.nodup.append (List.nodup_singleton key) (by simpa using hkey)⟩

theorem get_of_mem {properties : Properties} {key : Utf16} {value : JsValue}
    (h : (key, value) ∈ properties.entries) : properties.get key = value := by
  rw [get]
  cases hfind : properties.entries.find? fun e => e.1 = key with
  | none =>
    have hnot := List.find?_eq_none.mp hfind _ h
    simp at hnot
  | some e =>
    have hmem := List.mem_of_find?_eq_some hfind
    have hkey : e.1 = key := by simpa using List.find?_some hfind
    subst hkey
    exact eq_of_key properties.nodup hmem h

theorem set_proto {properties : Properties} {key : Utf16} {value : JsValue}
    (hkey : key ∉ properties.entries.map Prod.fst) (h : key = protoKey) :
    properties.set key value = properties := by
  rw [set, dif_neg hkey, if_pos h]

theorem set_entries {properties : Properties} {key : Utf16} {value : JsValue}
    (hkey : key ∉ properties.entries.map Prod.fst) (h : key ≠ protoKey) :
    (properties.set key value).entries = properties.entries ++ [(key, value)] := by
  rw [set, dif_neg hkey, if_neg h]

end Properties

inductive Cell where
  | array (elements : List JsValue)
  | object (properties : Properties)

abbrev Heap := List Cell

/-- A run over the memory; it is none where it needs more fuel. -/
abbrev Run (α : Type) := StateT Heap Option α

def alloc (cell : Cell) : Run Nat := fun h => some (h.length, h ++ [cell])

def load (address : Nat) : Run Cell := fun h => h[address]?.map fun cell => (cell, h)

def getProperty (address : Nat) (key : Utf16) : Run JsValue := fun h =>
  match h[address]? with
  | some (.object properties) => some (properties.get key, h)
  | _ => none

def assign (address : Nat) (key : Utf16) (value : JsValue) : Run Unit := fun h =>
  match h[address]? with
  | some (.object properties) => some ((), h.set address (.object (properties.set key value)))
  | _ => none

/-! ## The program -/

def sortKeys (keys : List Utf16) : List Utf16 :=
  keys.insertionSort fun left right => compareUtf16 left right ≤ 0

/-- One round of the loop over the keys. -/
def copyEntry (canonicalize : JsValue → Run JsValue) (object canonical : Nat) (key : Utf16) :
    Run Unit := do
  match ← getProperty object key with
  | .undefined => pure ()
  | entry =>
    let copy ← canonicalize entry
    assign canonical key copy

def canonicalizeJson : Nat → JsValue → Run JsValue
  | 0, .ref _ => fun _ => none
  | fuel + 1, .ref value => do
    match ← load value with
    | .array elements =>
      let copies ← elements.mapM (canonicalizeJson fuel)
      return .ref (← alloc (.array copies))
    | .object object =>
      let canonical ← alloc (.object .empty)
      (sortKeys object.keys).forM (copyEntry (canonicalizeJson fuel) value canonical)
      return .ref canonical
  | _, value => pure value

/-- `JSON.stringify`: an undefined element is written as null, an undefined entry left out. -/
def stringify (h : Heap) : Nat → JsValue → Option (Option Utf16)
  | _, .undefined => some none
  | _, .null => some (some (render .null))
  | _, .bool b => some (some (render (.bool b)))
  | _, .number x => some (some (render (.number x)))
  | _, .string s => some (some (render (.string s)))
  | 0, .ref _ => none
  | fuel + 1, .ref value =>
    match h[value]? with
    | none => none
    | some (.array elements) => do
      let texts ← elements.mapM (stringify h fuel)
      return some (91 :: (joined (texts.map fun text => text.getD (render .null)) ++ [93]))
    | some (.object object) => do
      let texts ← (propertyOrder object.entries).mapM fun e => do
        return (← stringify h fuel e.2).map fun text => quote e.1 ++ 58 :: text
      return some (123 :: (joined (texts.filterMap id) ++ [125]))

def canonicalJsonStringify (fuel : Nat) (value : JsValue) : Run (Option Utf16) := do
  let copy ← canonicalizeJson fuel value
  fun h => (stringify h fuel copy).map fun text => (text, h)

/-! ## The value that lies at an address -/

mutual

/-- A value in memory stands for a JSON value; its cells are at or above `lo`. -/
def Represents (lo : Nat) (h : Heap) : Json → JsValue → Prop
  | .null, v => v = .null
  | .bool b, v => v = .bool b
  | .number x, v => v = .number x
  | .string s, v => v = .string s
  | .array ts, v => ∃ a elements, v = .ref a ∧ lo ≤ a ∧ h[a]? = some (.array elements) ∧
      RepresentsAll lo h ts elements
  | .object es, v => ∃ a properties, v = .ref a ∧ lo ≤ a ∧ h[a]? = some (.object properties) ∧
      RepresentsEntries lo h es properties.entries

def RepresentsAll (lo : Nat) (h : Heap) : List Json → List JsValue → Prop
  | [], vs => vs = []
  | t :: ts, vs => ∃ v us, vs = v :: us ∧ Represents lo h t v ∧ RepresentsAll lo h ts us

def RepresentsEntries (lo : Nat) (h : Heap) : List (Utf16 × Json) → Entries JsValue → Prop
  | [], ps => ps = []
  | (key, t) :: es, ps => ∃ v qs, ps = (key, v) :: qs ∧ Represents lo h t v ∧
      RepresentsEntries lo h es qs

end

theorem representsAll_iff {lo : Nat} {h : Heap} {ts : List Json} {vs : List JsValue} :
    RepresentsAll lo h ts vs ↔ List.Forall₂ (Represents lo h) ts vs := by
  induction ts generalizing vs with
  | nil => simp [RepresentsAll]
  | cons t ts ih =>
    simp only [RepresentsAll, ih, List.forall₂_cons_left_iff]
    constructor
    · rintro ⟨v, us, rfl, hhead, htail⟩
      exact ⟨v, us, hhead, htail, rfl⟩
    · rintro ⟨v, us, hhead, htail, rfl⟩
      exact ⟨v, us, rfl, hhead, htail⟩

/-- Keys with a JSON value and the value that stands for it. -/
abbrev Pairs := Entries (Json × JsValue)

theorem representsEntries_iff {lo : Nat} {h : Heap} {es : Entries Json} {ps : Entries JsValue} :
    RepresentsEntries lo h es ps ↔ ∃ zs : Pairs, es = mapValues Prod.fst zs ∧
      ps = mapValues Prod.snd zs ∧ ∀ z ∈ zs, Represents lo h z.2.1 z.2.2 := by
  induction es generalizing ps with
  | nil =>
    simp only [RepresentsEntries]
    constructor
    · intro hps
      exact ⟨[], rfl, hps, by simp⟩
    · rintro ⟨zs, hes, rfl, -⟩
      rw [eq_comm, mapValues, List.map_eq_nil_iff] at hes
      rw [hes]
      rfl
  | cons e es ih =>
    simp only [RepresentsEntries, ih]
    constructor
    · rintro ⟨v, qs, rfl, hhead, zs, rfl, rfl, htail⟩
      exact ⟨(e.1, e.2, v) :: zs, rfl, rfl, List.forall_mem_cons.mpr ⟨hhead, htail⟩⟩
    · rintro ⟨zs, hes, rfl, hall⟩
      cases zs with
      | nil => cases hes
      | cons z zs =>
        cases hes
        exact ⟨z.2.2, _, rfl, hall z (by simp), zs, rfl, rfl, fun z hz => hall z (by simp [hz])⟩

/-- What stands for a value stands for it in any memory that has its cells. -/
theorem Represents.frame {lo lo' : Nat} {h h' : Heap} {t : Json} {v : JsValue}
    (hrep : Represents lo h t v) (hlo : lo' ≤ lo)
    (hcells : ∀ a cell, lo ≤ a → h[a]? = some cell → h'[a]? = some cell) :
    Represents lo' h' t v := by
  induction t using Json.induction generalizing v with
  | null => exact hrep
  | bool b => exact hrep
  | number x => exact hrep
  | string s => exact hrep
  | array ts ih =>
    obtain ⟨a, elements, rfl, ha, hcell, hall⟩ := hrep
    refine ⟨a, elements, rfl, by omega, hcells a _ ha hcell, ?_⟩
    rw [representsAll_iff] at hall ⊢
    exact (List.forall₂_iff_get.mpr ⟨hall.length_eq, fun i hi hi' =>
      ih _ (List.get_mem ts ⟨i, hi⟩) (List.forall₂_iff_get.mp hall |>.2 i hi hi')⟩)
  | object es ih =>
    obtain ⟨a, properties, rfl, ha, hcell, hentries⟩ := hrep
    refine ⟨a, properties, rfl, by omega, hcells a _ ha hcell, ?_⟩
    obtain ⟨zs, rfl, hps, hall⟩ := representsEntries_iff.mp hentries
    apply representsEntries_iff.mpr
    refine ⟨zs, rfl, hps, ?_⟩
    intro z hz
    exact ih (z.1, z.2.1) (mem_mapValues_of_mem Prod.fst hz) (hall z hz)

theorem prefix_getElem? {h h' : Heap} ( hprefix : h <+: h') {a : Nat} {cell : Cell}
    (hcell : h[a]? = some cell) : h'[a]? = some cell := by
  obtain ⟨rest, rfl⟩ := hprefix
  rw [List.getElem?_append_left (List.getElem?_eq_some_iff.mp hcell).1]
  exact hcell

theorem Represents.extend {lo lo' : Nat} {h h' : Heap} {t : Json} {v : JsValue}
    (hrep : Represents lo h t v) (hlo : lo' ≤ lo) ( hprefix : h <+: h') :
    Represents lo' h' t v :=
  hrep.frame hlo fun _ _ _ hcell => prefix_getElem? hprefix hcell

theorem keys_of_represents {lo : Nat} {h : Heap} {es : Entries Json} {ps : Entries JsValue}
    (hentries : RepresentsEntries lo h es ps) : ps.map Prod.fst = es.map Prod.fst := by
  obtain ⟨zs, rfl, rfl, -⟩ := representsEntries_iff.mp hentries
  rw [keys_mapValues, keys_mapValues]

/-- Objects have unique keys, so what a value in memory stands for has. -/
theorem Represents.valid {lo : Nat} {h : Heap} {t : Json} {v : JsValue}
    (hrep : Represents lo h t v) : Valid t := by
  induction t using Json.induction generalizing v with
  | null => exact .null
  | bool b => exact .bool b
  | number x => exact .number x
  | string s => exact .string s
  | array ts ih =>
    obtain ⟨a, elements, rfl, -, -, hall⟩ := hrep
    rw [representsAll_iff] at hall
    apply Valid.array
    intro t ht
    obtain ⟨i, hi, rfl⟩ := List.getElem_of_mem ht
    have hi' : i < elements.length := by
      rw [← hall.length_eq]
      exact hi
    exact ih _ ht ((List.forall₂_iff_get.mp hall).2 i hi hi')
  | object es ih =>
    obtain ⟨a, properties, rfl, -, -, hentries⟩ := hrep
    have hkeys := keys_of_represents hentries
    obtain ⟨zs, rfl, -, hall⟩ := representsEntries_iff.mp hentries
    apply Valid.object
    · rw [← hkeys]
      exact properties.nodup
    · intro e he
      obtain ⟨z, hz, rfl⟩ := List.mem_map.mp he
      exact ih _ he (hall z hz)

/-! ## How deep values nest -/

mutual

def depth : Json → Nat
  | .array ts => depthAll ts + 1
  | .object es => depthEntries es + 1
  | _ => 0

def depthAll : List Json → Nat
  | [] => 0
  | t :: ts => max (depth t) (depthAll ts)

def depthEntries : List (Utf16 × Json) → Nat
  | [] => 0
  | (_, t) :: es => max (depth t) (depthEntries es)

end

theorem depthAll_le {ts : List Json} {n : Nat} : depthAll ts ≤ n ↔ ∀ t ∈ ts, depth t ≤ n := by
  induction ts with
  | nil => simp [depthAll]
  | cons t ts ih => simp [depthAll, ih]

theorem depthEntries_le {es : Entries Json} {n : Nat} :
    depthEntries es ≤ n ↔ ∀ e ∈ es, depth e.2 ≤ n := by
  induction es with
  | nil => simp [depthEntries]
  | cons e es ih => rw [depthEntries, max_le_iff, ih, List.forall_mem_cons]

theorem depth_canonical (t : Json) : depth (canonical t) ≤ depth t := by
  induction t using Json.induction with
  | array ts ih =>
    simp only [canonical, mapObjects, mapAll_eq, depth, Nat.add_le_add_iff_right]
    apply depthAll_le.mpr
    intro u hu
    obtain ⟨t, ht, rfl⟩ := List.mem_map.mp hu
    exact (ih t ht).trans (depthAll_le.mp le_rfl t ht)
  | object es ih =>
    simp only [canonical, mapObjects, depth, Nat.add_le_add_iff_right]
    apply depthEntries_le.mpr
    intro e he
    rw [mem_dropProto, mem_sortEntries, mem_propertyOrder, mapEntries_eq] at he
    obtain ⟨x, hx, heq⟩ := mem_mapValues.mp he.1
    rw [← heq]
    exact (ih (e.1, x) hx).trans (depthEntries_le.mp le_rfl _ hx)
  | _ => exact le_rfl

/-! ## The copy stands for the canonical value -/

/-- The program makes a copy of whatever stands for the value, and leaves all cells alone. -/
def Copies (f : JsValue → Run JsValue) (t : Json) : Prop :=
  ∀ h v, Represents 0 h t v →
    ∃ v' h', f v h = some (v', h') ∧ h <+: h' ∧ Represents h.length h' (canonical t) v'

theorem mapM_copies {f : JsValue → Run JsValue} {ts : List Json} {vs : List JsValue} {h : Heap}
    (hf : ∀ t ∈ ts, Copies f t) (hrep : RepresentsAll 0 h ts vs) :
    ∃ us h', vs.mapM f h = some (us, h') ∧ h <+: h' ∧
      RepresentsAll h.length h' (ts.map canonical) us := by
  induction ts generalizing vs h with
  | nil =>
    cases hrep
    exact ⟨[], h, rfl, List.prefix_rfl, rfl⟩
  | cons t ts ih =>
    obtain ⟨v, vs, rfl, hhead, htail⟩ := hrep
    obtain ⟨u, h₁, hrun, hprefix, hu⟩ := hf t (by simp) h v hhead
    have htail₁ : RepresentsAll 0 h₁ ts vs := by
      rw [representsAll_iff] at htail ⊢
      exact htail.imp fun t v hrep => hrep.extend le_rfl hprefix
    obtain ⟨us, h₂, hrest, hprefix₂, hus⟩ := ih (fun t ht => hf t (by simp [ht])) htail₁
    refine ⟨u :: us, h₂, ?_, hprefix.trans hprefix₂, ?_⟩
    · rw [List.mapM_cons]
      change (f v h).bind _ = _
      rw [hrun]
      change (vs.mapM f h₁).bind _ = _
      rw [hrest]
      rfl
    · refine ⟨u, us, rfl, hu.extend le_rfl hprefix₂, ?_⟩
      have hlength := hprefix.length_le
      rw [representsAll_iff] at hus ⊢
      exact hus.imp fun t v hrep => hrep.extend hlength List.prefix_rfl

theorem represents_defined {lo : Nat} {h : Heap} {t : Json} {v : JsValue}
    (hrep : Represents lo h t v) : v ≠ .undefined := by
  intro hv
  subst hv
  cases t with
  | array ts =>
    obtain ⟨a, elements, heq, -⟩ := hrep
    cases heq
  | object es =>
    obtain ⟨a, properties, heq, -⟩ := hrep
    cases heq
  | _ => cases hrep

theorem representsEntries_append {lo : Nat} {h : Heap} {es fs : Entries Json}
    {ps qs : Entries JsValue} (hes : RepresentsEntries lo h es ps)
    (hfs : RepresentsEntries lo h fs qs) : RepresentsEntries lo h (es ++ fs) (ps ++ qs) := by
  rw [representsEntries_iff] at hes hfs ⊢
  obtain ⟨xs, rfl, rfl, hxs⟩ := hes
  obtain ⟨ys, rfl, rfl, hys⟩ := hfs
  refine ⟨xs ++ ys, by simp [mapValues], by simp [mapValues], ?_⟩
  intro z hz
  cases List.mem_append.mp hz with
  | inl hz => exact hxs z hz
  | inr hz => exact hys z hz

theorem representsEntries_frame {lo lo' : Nat} {h h' : Heap} {es : Entries Json}
    {ps : Entries JsValue} (hrep : RepresentsEntries lo h es ps) (hlo : lo' ≤ lo)
    (hcells : ∀ a cell, lo ≤ a → h[a]? = some cell → h'[a]? = some cell) :
    RepresentsEntries lo' h' es ps := by
  rw [representsEntries_iff] at hrep ⊢
  obtain ⟨zs, hes, hps, hall⟩ := hrep
  exact ⟨zs, hes, hps, fun z hz => (hall z hz).frame hlo hcells⟩

theorem prefix_set {base h : Heap} ( hprefix : base <+: h) (cell : Cell) :
    base <+: h.set base.length cell := by
  obtain ⟨rest, rfl⟩ := hprefix
  rw [List.set_append_right _ _ le_rfl]
  exact List.prefix_append _ _

/-- The copy in the making: a fresh object and what its entries stand for. -/
structure Building (base : Heap) (ts : Entries Json) (h : Heap) (made : Properties) : Prop where
  kept : base <+: h
  cell : h[base.length]? = some (.object made)
  entries : RepresentsEntries (base.length + 1) h ts made.entries

theorem Building.keys {base h : Heap} {ts : Entries Json} {made : Properties}
    (hmade : Building base ts h made) : made.entries.map Prod.fst = ts.map Prod.fst :=
  keys_of_represents hmade.entries

theorem Building.extend {base h h' : Heap} {ts : Entries Json} {made : Properties}
    (hmade : Building base ts h made) ( hprefix : h <+: h') : Building base ts h' made where
  kept := hmade.kept.trans hprefix
  cell := prefix_getElem? hprefix hmade.cell
  entries := representsEntries_frame hmade.entries le_rfl fun _ _ _ hcell =>
    prefix_getElem? hprefix hcell

/-- Assigning the copy of an entry adds the entry, unless its key is `__proto__`. -/
theorem Building.assign {base h : Heap} {ts : Entries Json} {made : Properties}
    (hmade : Building base ts h made) {key : Utf16} (hkey : key ∉ ts.map Prod.fst) {t : Json}
    {v : JsValue} (hv : Represents (base.length + 1) h t v) :
    ∃ h' made', CanonicalJson.assign base.length key v h = some ((), h') ∧
      Building base (ts ++ dropProto [(key, t)]) h' made' := by
  have hfresh : key ∉ made.entries.map Prod.fst := by
    rw [hmade.keys]
    exact hkey
  have hlt : base.length < h.length := (List.getElem?_eq_some_iff.mp hmade.cell).1
  refine ⟨h.set base.length (.object (made.set key v)), made.set key v, ?_, ?_⟩
  · simp only [CanonicalJson.assign, hmade.cell]
  · have hcells : ∀ a cell, base.length + 1 ≤ a → h[a]? = some cell →
        (h.set base.length (.object (made.set key v)))[a]? = some cell := by
      intro a cell ha hcell
      rw [List.getElem?_set_ne (by omega), hcell]
    have hentries := representsEntries_frame hmade.entries le_rfl hcells
    refine ⟨prefix_set hmade.kept _, by rw [List.getElem?_set_self hlt], ?_⟩
    by_cases hproto : key = protoKey
    · have hnone : dropProto [(key, t)] = [] := by simp [dropProto, hproto]
      rw [Properties.set_proto hfresh hproto] at hentries ⊢
      rw [hnone, List.append_nil]
      exact hentries
    · have hone : dropProto [(key, t)] = [(key, t)] := by simp [dropProto, hproto]
      rw [hone, Properties.set_entries hfresh hproto]
      apply representsEntries_append hentries
      exact ⟨v, [], rfl, hv.frame le_rfl hcells, rfl⟩

theorem forM_copyEntry {f : JsValue → Run JsValue} {base : Heap} {address : Nat}
    {object : Properties} (hobject : base[address]? = some (.object object)) {zs : Pairs}
    (hf : ∀ z ∈ zs, Copies f z.2.1) (hget : ∀ z ∈ zs, object.get z.1 = z.2.2)
    (hrep : ∀ z ∈ zs, Represents 0 base z.2.1 z.2.2) {ts : Entries Json} {h : Heap}
    {made : Properties} (hmade : Building base ts h made)
    (hkeys : (ts.map Prod.fst ++ zs.map Prod.fst).Nodup) :
    ∃ h' made', (zs.map Prod.fst).forM (copyEntry f address base.length) h = some ((), h') ∧
      Building base (ts ++ dropProto (mapValues canonical (mapValues Prod.fst zs))) h' made' := by
  induction zs generalizing ts h made with
  | nil => exact ⟨h, made, rfl, by simpa [mapValues, dropProto] using hmade⟩
  | cons z zs ih =>
    have hcurrent := (hrep z (by simp)).extend le_rfl hmade.kept
    obtain ⟨v, h₁, hrun, hprefix, hv⟩ := hf z (by simp) h z.2.2 hcurrent
    have hlt : base.length < h.length := (List.getElem?_eq_some_iff.mp hmade.cell).1
    have hfresh : z.1 ∉ ts.map Prod.fst := by
      intro hmem
      exact (List.nodup_append.mp hkeys).2.2 z.1 hmem z.1 (by simp) rfl
    obtain ⟨h₂, made₂, hassign, hmade₂⟩ :=
      (hmade.extend hprefix).assign hfresh (hv.extend hlt List.prefix_rfl)
    have hround : copyEntry f address base.length z.1 h = some ((), h₂) := by
      have hproperty : getProperty address z.1 h = some (z.2.2, h) := by
        simp only [getProperty, prefix_getElem? hmade.kept hobject, hget z (by simp)]
      rw [copyEntry]
      change (getProperty address z.1 h).bind _ = _
      rw [hproperty]
      have hdefined := represents_defined hcurrent
      cases hz : z.2.2 with
      | undefined => exact absurd hz hdefined
      | _ =>
        rw [hz] at hrun
        change (f _ h).bind _ = _
        rw [hrun]
        exact hassign
    have hnext : ((ts ++ dropProto [(z.1, canonical z.2.1)]).map Prod.fst ++
        zs.map Prod.fst).Nodup := by
      refine List.Nodup.sublist ?_ hkeys
      simp only [List.map_append, List.map_cons, List.append_assoc]
      apply List.Sublist.append_left
      have hone : ((dropProto [(z.1, canonical z.2.1)]).map Prod.fst).Sublist [z.1] :=
        List.filter_sublist.map Prod.fst
      exact hone.append_right _
    obtain ⟨h₃, made₃, hrest, hmade₃⟩ := ih (fun z hz => hf z (by simp [hz]))
      (fun z hz => hget z (by simp [hz])) (fun z hz => hrep z (by simp [hz])) hmade₂ hnext
    refine ⟨h₃, made₃, ?_, ?_⟩
    · change (copyEntry f address base.length z.1 h).bind _ = _
      rw [hround]
      exact hrest
    · have happend : ts ++ dropProto (mapValues canonical (mapValues Prod.fst (z :: zs))) =
          ts ++ dropProto [(z.1, canonical z.2.1)] ++
            dropProto (mapValues canonical (mapValues Prod.fst zs)) := by
        rw [List.append_assoc, dropProto, dropProto, dropProto, ← List.filter_append]
        rfl
      rw [happend]
      exact hmade₃

theorem canonicalizeJson_copies (t : Json) :
    ∀ fuel, depth t ≤ fuel → Copies (canonicalizeJson fuel) t := by
  induction t using Json.induction with
  | null | bool b | number x | string s =>
    intro fuel _ h v hrep
    cases hrep
    cases fuel <;> exact ⟨_, h, rfl, List.prefix_rfl, rfl⟩
  | array ts ih =>
    intro fuel hfuel h v hrep
    obtain ⟨a, elements, rfl, -, hcell, hall⟩ := hrep
    cases fuel with
    | zero => simp [depth] at hfuel
    | succ fuel =>
      rw [depth, Nat.add_le_add_iff_right, depthAll_le] at hfuel
      obtain ⟨us, h', hrun, hprefix, hus⟩ := mapM_copies (fun t ht => ih t ht fuel (hfuel t ht)) hall
      refine ⟨.ref h'.length, h' ++ [.array us], ?_, hprefix.trans (List.prefix_append _ _), ?_⟩
      · have hload : load a h = some (.array elements, h) := by
          rw [load, hcell]
          rfl
        rw [canonicalizeJson]
        change (load a h).bind _ = _
        rw [hload]
        change (elements.mapM (canonicalizeJson fuel) h).bind _ = _
        rw [hrun]
        rfl
      · simp only [canonical, mapObjects, mapAll_eq]
        refine ⟨h'.length, us, rfl, List.IsPrefix.length_le hprefix, by simp, ?_⟩
        rw [representsAll_iff] at hus ⊢
        exact hus.imp fun t v hrep => hrep.extend le_rfl (List.prefix_append _ _)
  | object es ih =>
    intro fuel hfuel h v hrep
    obtain ⟨a, object, rfl, -, hcell, hentries⟩ := hrep
    cases fuel with
    | zero => simp [depth] at hfuel
    | succ fuel =>
      rw [depth, Nat.add_le_add_iff_right, depthEntries_le] at hfuel
      obtain ⟨zs, rfl, hps, hall⟩ := representsEntries_iff.mp hentries
      have hmem : ∀ z ∈ sortEntries (propertyOrder zs), z ∈ zs := by
        intro z hz
        rwa [mem_sortEntries, mem_propertyOrder] at hz
      have hkeys : sortKeys object.keys = (sortEntries (propertyOrder zs)).map Prod.fst := by
        rw [Properties.keys, hps, mapValues_propertyOrder, keys_mapValues]
        exact (List.map_insertionSort _ _ Prod.fst (propertyOrder zs) fun _ _ _ _ => Iff.rfl).symm
      have hnodup : ((sortEntries (propertyOrder zs)).map Prod.fst).Nodup := by
        have hzs : (zs.map Prod.fst).Nodup := by
          rw [← keys_mapValues Prod.snd, ← hps]
          exact object.nodup
        exact ((List.perm_insertionSort _ _).map _).nodup_iff.mpr (nodup_propertyOrder hzs)
      have hstart : Building h [] (h ++ [.object .empty]) .empty :=
        ⟨List.prefix_append _ _, by simp, rfl⟩
      obtain ⟨h', made, hloop, hmade⟩ := forM_copyEntry hcell
        (fun z hz => ih (z.1, z.2.1) (mem_mapValues_of_mem Prod.fst (hmem z hz)) fuel
          (hfuel _ (mem_mapValues_of_mem Prod.fst (hmem z hz))))
        (fun z hz => Properties.get_of_mem (by
          rw [hps]
          exact mem_mapValues_of_mem Prod.snd (hmem z hz)))
        (fun z hz => hall z (hmem z hz)) hstart (by simpa using hnodup)
      refine ⟨.ref h.length, h', ?_, hmade.kept, ?_⟩
      · have hload : load a h = some (.object object, h) := by
          rw [load, hcell]
          rfl
        rw [canonicalizeJson]
        change (load a h).bind _ = _
        rw [hload]
        change ((sortKeys object.keys).forM (copyEntry (canonicalizeJson fuel) a h.length)
          (h ++ [.object .empty])).bind _ = _
        rw [hkeys, hloop]
        rfl
      · simp only [canonical, mapObjects, mapEntries_eq]
        refine ⟨h.length, made, rfl, le_rfl, hmade.cell, ?_⟩
        have hsorted := hmade.entries
        rw [List.nil_append] at hsorted
        rw [mapValues_propertyOrder, mapValues_propertyOrder, mapValues_sortEntries,
          mapValues_sortEntries]
        exact representsEntries_frame hsorted (by omega) fun _ _ _ hcell => hcell

/-! ## The text of a value in memory -/

theorem stringify_written {lo : Nat} {h : Heap} (t : Json) :
    ∀ fuel v, depth t ≤ fuel → Represents lo h t v →
      stringify h fuel v = some (some (render (written t))) := by
  induction t using Json.induction with
  | null | bool b | number x | string s =>
    intro fuel v _ hrep
    cases hrep
    cases fuel <;> rfl
  | array ts ih =>
    intro fuel v hfuel hrep
    obtain ⟨a, elements, rfl, -, hcell, hall⟩ := hrep
    cases fuel with
    | zero => simp [depth] at hfuel
    | succ fuel =>
      rw [depth, Nat.add_le_add_iff_right, depthAll_le] at hfuel
      have htexts : elements.mapM (stringify h fuel) =
          some (ts.map fun t => some (render (written t))) := by
        rw [representsAll_iff] at hall
        clear hcell
        induction hall with
        | nil => rfl
        | cons hhead _ ihtail =>
          rw [List.mapM_cons, ih _ (by simp) fuel _ (hfuel _ (by simp)) hhead,
            ihtail (fun t ht => ih t (by simp [ht])) fun t ht => hfuel t (by simp [ht])]
          rfl
      simp only [stringify, hcell, htexts, written, mapObjects, mapAll_eq, render,
        Json.renderAll_eq]
      simp [Function.comp_def]
  | object es ih =>
    intro fuel v hfuel hrep
    obtain ⟨a, object, rfl, -, hcell, hentries⟩ := hrep
    cases fuel with
    | zero => simp [depth] at hfuel
    | succ fuel =>
      rw [depth, Nat.add_le_add_iff_right, depthEntries_le] at hfuel
      obtain ⟨zs, rfl, hps, hall⟩ := representsEntries_iff.mp hentries
      have htext : ∀ z ∈ propertyOrder zs,
          stringify h fuel z.2.2 = some (some (render (written z.2.1))) := by
        intro z hz
        rw [mem_propertyOrder] at hz
        have hmem := mem_mapValues_of_mem Prod.fst hz
        exact ih (z.1, z.2.1) hmem fuel z.2.2 (hfuel _ hmem) (hall z hz)
      have htexts : ((propertyOrder object.entries).mapM fun e => do
            return (← stringify h fuel e.2).map fun text => quote e.1 ++ 58 :: text) =
          some ((propertyOrder zs).map fun z => some (quote z.1 ++ 58 :: render (written z.2.1))) := by
        rw [hps, mapValues_propertyOrder]
        generalize propertyOrder zs = qs at htext
        induction qs with
        | nil => rfl
        | cons z qs ihtail =>
          have htail := ihtail fun z hz => htext z (by simp [hz])
          simp only [mapValues] at htail
          simp only [mapValues, List.map_cons, List.mapM_cons, htail, htext z (by simp)]
          rfl
      simp only [stringify, hcell, htexts, written, mapObjects, mapEntries_eq, render,
        Json.renderEntries_eq, mapValues_propertyOrder]
      simp [mapValues, Function.comp_def, Json.renderEntry]

/-! ## Equal texts -/

theorem canonicalJsonStringify_text {h : Heap} {v : JsValue} {t : Json} {fuel : Nat}
    (hrep : Represents 0 h t v) (hfuel : depth t ≤ fuel) :
    ∃ h', canonicalJsonStringify fuel v h = some (some (render (arranged t)), h') ∧ h <+: h' := by
  obtain ⟨copy, h', hrun, hprefix, hcopy⟩ := canonicalizeJson_copies t fuel hfuel h v hrep
  have htext := stringify_written _ fuel copy ((depth_canonical t).trans hfuel) hcopy
  refine ⟨h', ?_, hprefix⟩
  rw [canonicalJsonStringify]
  change (canonicalizeJson fuel v h).bind _ = _
  rw [hrun]
  change (stringify h' fuel copy).map _ = _
  rw [htext]
  rfl

/-- An object with an entry `__proto__` and an empty one. -/
def protoHeap : Heap :=
  [.object ⟨[(protoKey, .bool true)], List.nodup_singleton _⟩, .object .empty]

def protoObject : Json := .object [(protoKey, .bool true)]

/-- What is read of a canonical text has that text as its canonical text. -/
theorem canonical_text_stable {h h' h₁ : Heap} {v w : JsValue} {a b : Json} {fuel : Nat} {s : Utf16}
    (ha : Represents 0 h a v) (hb : Represents 0 h' b w) (hfuel : depth a ≤ fuel ∧ depth b ≤ fuel)
    (hrun : canonicalJsonStringify fuel v h = some (some s, h₁)) (hread : render b = s) :
    ∃ h₂, canonicalJsonStringify fuel w h' = some (some s, h₂) ∧ h' <+: h₂ := by
  obtain ⟨_, htext, -⟩ := canonicalJsonStringify_text ha hfuel.1
  obtain ⟨h₂, hagain, hprefix⟩ := canonicalJsonStringify_text hb hfuel.2
  obtain rfl : render (arranged a) = s := by
    rw [htext] at hrun
    cases hrun
    rfl
  rw [Json.render_injective hread, arranged_arranged ha.valid] at hagain
  exact ⟨h₂, hagain, hprefix⟩

theorem canonical_text_stable_proto : ∃ h₂,
    canonicalJsonStringify 1 (.ref 1) protoHeap = some (some (ascii "\x7b\x7d"), h₂) ∧
      protoHeap <+: h₂ :=
  canonical_text_stable (h := protoHeap) (a := protoObject) (b := .object [])
    ⟨0, _, rfl, le_rfl, rfl, _, [], rfl, rfl, rfl⟩ ⟨1, .empty, rfl, by decide, rfl, rfl⟩
    ⟨by decide, by decide⟩ rfl rfl

end CanonicalJson
end EnboxDwn
