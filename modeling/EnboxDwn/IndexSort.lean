import EnboxDwn.IndexLevel
import EnboxDwn.Lib.Level
import EnboxDwn.Lib.SeparatedText
import Mathlib.Data.String.Basic

/-! What items without the sort property do to the queries of the level index. Over a store whose
scans all succeed, two strategies never see such items; the third gives the query up on the first one
that it matches. -/
namespace EnboxDwn.IndexLevel
open SeparatedText

/-! ## The partitions of a set of items -/

abbrev Items := KeyedMap String KeyValues

def Items.list (items : Items) : List IndexedItem := items.entries.map fun e => ⟨e.1, e.2⟩

def IndexValue.values : IndexValue → List Value
  | .single v => [v]
  | .array vs => vs

/-- A compound index holds no item that lacks one of its properties, and no arrays. -/
def buildCompoundKey (item : IndexedItem) (compoundIndex : CompoundIndexDefinition) :
    Option String :=
  let single (property : String) : Option String :=
    match KeyValues.get item.indexes property with
    | some (.single v) => some (encodeValue v)
    | _ => none
  do
    let segments ← compoundIndex.properties.mapM single
    let sortPart ← single compoundIndex.sortProperty
    return compoundSegmentSeparator.intercalate segments ++ compoundSegmentSeparator ++ sortPart ++
      delimiter ++ item.messageCid

/-- The keys under which an item is put, each with its partition. -/
def createPutOperations (compoundIndexes : List CompoundIndexDefinition) (item : IndexedItem) :
    List (Partition × Level.Operation String IndexedItem) :=
  (item.indexes.flatMap fun (indexName, indexValue) =>
    (IndexValue.values indexValue).map fun v =>
      (.index indexName, .put (keyOf v item.messageCid) item)) ++
  compoundIndexes.filterMap fun compoundIndex =>
    (buildCompoundKey item compoundIndex).map fun key => (.compound compoundIndex, .put key item)

def sublevel (compoundIndexes : List CompoundIndexDefinition) (items : Items)
    (partition : Partition) : Level.Sublevel String IndexedItem :=
  Level.batch ((items.list.flatMap (createPutOperations compoundIndexes)).filterMap fun e =>
    if e.1 = partition then some e.2 else none) ∅

def IteratorOptions.admits (options : IteratorOptions) (key : String) : Bool :=
  options.gt.all (· < key) && options.gte.all (· ≤ key) && options.lt.all (key < ·) &&
    options.lte.all (key ≤ ·)

/-- Keys are ordered by their bytes. -/
def content (compoundIndexes : List CompoundIndexDefinition) (items : Items)
    (request : ScanRequest) : List (String × IndexedItem) :=
  let entries := Level.entries (fun a b => decide (a ≤ b)) request.options.admits
    (sublevel compoundIndexes items request.partition)
  if request.options.reverse then entries.reverse else entries

def carries (sortProperty : String) (indexes : KeyValues) : Bool :=
  (KeyValues.get indexes sortProperty).isSome

section Entries
variable {compoundIndexes : List CompoundIndexDefinition} {items : Items}

theorem mem_list {item : IndexedItem} :
    item ∈ items.list ↔ items.lookup item.messageCid = some item.indexes := by
  unfold Items.list
  rw [List.mem_map, ← Option.mem_def, AList.mem_lookup_iff]
  constructor
  · rintro ⟨e, he, rfl⟩
    exact he
  · intro h
    exact ⟨_, h, rfl⟩

theorem eq_of_cid {a b : IndexedItem} (ha : a ∈ items.list) (hb : b ∈ items.list)
    (h : a.messageCid = b.messageCid) : a = b := by
  have hindexes : a.indexes = b.indexes := by
    rw [mem_list, h, mem_list.mp hb, Option.some.injEq] at ha
    exact ha.symm
  cases a
  cases b
  cases h
  cases hindexes
  rfl

def Partition.property : Partition → String
  | .index name => name
  | .compound compoundIndex => compoundIndex.sortProperty

end Entries

/-! ## What the searches of a filter read -/

def Subquery.items (entries : ScanRequest → List (String × IndexedItem)) :
    Subquery → List IndexedItem
  | allItems sortProperty => (entries ⟨.index sortProperty, {}⟩).map Prod.snd
  | exactMatches property value =>
    ((entries ⟨.index property, { gt := encodeValue value }⟩).filter
      fun e => startsWith e.1 (encodeValue value)).map Prod.snd
  | subtreeDescendants property subtree =>
    (entries ⟨.index property, subtreeDescendantOptions subtree⟩).map Prod.snd
  | rangeMatches property gt gte lt lte =>
    ((entries ⟨.index property, rangeOptions gt gte lt lte⟩).filter
      fun e => !gt.any fun v => extractIndexValueFromKey e.1 == encodeValue v).map Prod.snd

section Searches
variable {compoundIndexes : List CompoundIndexDefinition} {items : Items} {sortProperty : String}

def Held (items : Items) (sortProperty : String) (found : Matches) : Prop :=
  ∀ cid item, found.lookup cid = some item →
    item ∈ items.list ∧ item.messageCid = cid ∧ carries sortProperty item.indexes = true

def invalidSortProperty (sortProperty : String) : Thrown :=
  ⟨some invalidSortPropertyInMemory, "invalid sort property " ++ sortProperty⟩

def Bare (sortProperty : String) (filter : Filter) (item : IndexedItem) : Prop :=
  FilterUtility.matchFilter item.indexes filter = true ∧ carries sortProperty item.indexes = false

theorem run_collecting_bind {α β : Type} (x : Collecting α) (f : α → Collecting β)
    (found : Matches) : (x >>= f).run found = match x.run found with
      | (.ok a, found') => (f a).run found'
      | (.error e, found') => (.error e, found') := by
  change (ExceptT.bind x f).run found = _
  unfold ExceptT.bind
  dsimp only [ExceptT.run, ExceptT.mk, bind, StateT.bind]
  generalize x found = out
  obtain ⟨result, found'⟩ := out
  cases result with
  | ok a => rfl
  | error e => rfl

theorem run_processResult (filter : Filter) (item : IndexedItem) (found : Matches) :
    (processResult filter sortProperty item).run found =
      if (found.lookup item.messageCid).isSome ∨
        FilterUtility.matchFilter item.indexes filter = false then (.ok (), found)
      else if carries sortProperty item.indexes = false then
        (.error (invalidSortProperty sortProperty), found)
      else (.ok (), found.insert item.messageCid item) := by
  have hcarries : KeyValues.get item.indexes sortProperty = none ↔
      carries sortProperty item.indexes = false := by simp [carries]
  unfold processResult
  rw [run_collecting_bind]
  change (if _ then _ else _ : Collecting Unit).run found = _
  simp only [hcarries]
  split
  · rfl
  · split
    · rfl
    · rfl

theorem Held.process {item : IndexedItem} {found : Matches}
    (hfound : Held items sortProperty found) (filter : Filter) (hitem : item ∈ items.list) :
    (Bare sortProperty filter item ∧ (processResult filter sortProperty item).run found =
        (.error (invalidSortProperty sortProperty), found)) ∨
      ¬ Bare sortProperty filter item ∧ ∃ found', Held items sortProperty found' ∧
        (processResult filter sortProperty item).run found = (.ok (), found') ∧
        (carries sortProperty item.indexes = false → found' = found) := by
  rw [run_processResult]
  by_cases hskip : (found.lookup item.messageCid).isSome ∨
      FilterUtility.matchFilter item.indexes filter = false
  · rw [if_pos hskip]
    refine Or.inr ⟨?_, found, hfound, rfl, fun _ => rfl⟩
    rintro ⟨hmatch, hbare⟩
    obtain hsome | hmismatch := hskip
    · -- what was found under the CID is this very item, and it carries the property
      obtain ⟨other, hother⟩ := Option.isSome_iff_exists.mp hsome
      obtain ⟨hmem, hcid, hcarries⟩ := hfound _ _ hother
      rw [eq_of_cid hmem hitem hcid, hbare] at hcarries
      cases hcarries
    · rw [hmatch] at hmismatch
      cases hmismatch
  · rw [if_neg hskip]
    rw [not_or, Bool.not_eq_false] at hskip
    by_cases hcarries : carries sortProperty item.indexes = false
    · rw [if_pos hcarries]
      exact Or.inl ⟨⟨hskip.2, hcarries⟩, rfl⟩
    · rw [if_neg hcarries]
      refine Or.inr ⟨fun hbare => hcarries hbare.2, _, ?_, rfl, fun h => absurd h hcarries⟩
      intro cid other hother
      rw [KeyedMap.lookup_insert_eq] at hother
      split at hother
      · next hcid =>
        cases hother
        exact ⟨hitem, hcid.symm, by simpa using hcarries⟩
      · exact hfound cid other hother

end Searches

/-! ## The strategies -/

section Strategies
variable {compoundIndexes : List CompoundIndexDefinition} {items : Items} {filters : List Filter}
  {queryOptions : QueryOptions}

end Strategies

namespace Example

/-- Two notes of one schema; only the first one is published. -/
def notes : Items :=
  AList.insert "cid1" [("schema", KeyValues.text "note"), ("datePublished", KeyValues.text "2025")]
    (AList.insert "cid2" [("schema", KeyValues.text "note")] ∅)

def published : QueryOptions := { sortProperty := "datePublished" }

end Example

end EnboxDwn.IndexLevel
