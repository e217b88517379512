import EnboxDwn.Lib.KeyedMap
import EnboxDwn.Lib.Scan
import EnboxDwn.ModuleGraph
import EnboxDwn.Query

/-! Queries of the level index of one tenant: the three strategies, each a sequence of range scans
over index partitions. -/
namespace EnboxDwn.IndexLevel

/-- What can be thrown; a node error has a code. -/
structure Thrown where
  code : Option String
  message : String
  deriving DecidableEq, Repr

structure IndexedItem where
  messageCid : String
  indexes : KeyValues
  deriving DecidableEq, Repr

/-- Names of compound indexes are unique. -/
structure CompoundIndexDefinition where
  name : String
  properties : List String
  sortProperty : String
  deriving DecidableEq, Repr

inductive SortDirection where
  | ascending
  | descending
  deriving DecidableEq, Repr

structure PaginationCursor where
  messageCid : String
  value : Value

structure QueryOptions where
  sortProperty : String
  sortDirection : SortDirection := .ascending
  limit : Option Nat := none
  cursor : Option PaginationCursor := none

/-! ## Keys -/

def delimiter : String := "\x00"
def compoundSegmentSeparator : String := "\x01"
/-- Above every character that follows an encoded value or a prefix in a key. -/
def upperSentinel : String := "\u00ff"

def jsonString (s : String) : String :=
  "\"" ++ String.ofList (s.toList.flatMap jsonEscape) ++ "\""

def jsonBoolean (b : Bool) : String := if b then "true" else "false"

def maxSafeInteger : Int := 9007199254740991

def padStart (length : Nat) (s : String) : String :=
  String.ofList (List.replicate (length - s.toList.length) '0') ++ s

/-- Negative numbers sort below the others by their sign, and among themselves by an offset. -/
def encodeNumberValue (value : Int) : String :=
  if value < 0 then "!" ++ padStart 16 (toString (value + maxSafeInteger))
  else padStart 16 (toString value)

def encodeValue : Value → String
  | .number n => encodeNumberValue n
  | .string s => jsonString s
  | .boolean b => jsonBoolean b

def encodeIndexValue : IndexValue → String
  | .single v => encodeValue v
  | .array vs => "[" ++ ",".intercalate (vs.map fun
      | .number n => toString n
      | .string s => jsonString s
      | .boolean b => jsonBoolean b) ++ "]"

def keyOf (value : Value) (messageCid : String) : String :=
  encodeValue value ++ delimiter ++ messageCid

def extractIndexValueFromKey (key : String) : String :=
  String.ofList (key.toList.takeWhile (· ≠ '\x00'))

/-! ## Scans -/

inductive Partition where
  | index (name : String)
  | compound (index : CompoundIndexDefinition)
  deriving DecidableEq, Repr

structure IteratorOptions where
  gt : Option String := none
  gte : Option String := none
  lt : Option String := none
  lte : Option String := none
  reverse : Bool := false

structure ScanRequest where
  partition : Partition
  options : IteratorOptions := {}

/-- What the scans of the tenant's partitions yield: keys with their items. -/
abbrev Scans := Scan.Environment ScanRequest (String × IndexedItem) Thrown

abbrev Matches := KeyedMap String IndexedItem

abbrev Program := Scan.Program Thrown Matches

/-! ## Iterator paging -/

def createStartingKeyFromCursor (cursor : PaginationCursor) : String :=
  keyOf cursor.value cursor.messageCid

def indexIteratorOptions (queryOptions : QueryOptions) : IteratorOptions :=
  let startKey := (queryOptions.cursor.map createStartingKeyFromCursor).getD ""
  match queryOptions.sortDirection, queryOptions.cursor with
  | .ascending, _ => { gt := startKey }
  | .descending, none => { gt := startKey, reverse := true }
  | .descending, some _ => { lt := startKey, reverse := true }

/-- The limit is looked at when the next item has come. -/
def queryWithIteratorPaging (scans : Scans) (filters : List Filter) (queryOptions : QueryOptions) :
    Program (List IndexedItem) :=
  Scan.forEach scans ⟨.index queryOptions.sortProperty, indexIteratorOptions queryOptions⟩ []
    fun found entry =>
      if queryOptions.limit = some found.length then .done found
      else if FilterUtility.matchAnyFilter entry.2.indexes filters then .yield (found ++ [entry.2])
      else .yield found

/-! ## Compound indexes -/

def equalityValue (filter : Filter) (property : String) : Option Value :=
  match filter.lookup property with
  | some (.equal v) => some v
  | _ => none

def selectCompoundIndex (filter : Filter) (queryOptions : QueryOptions)
    (compoundIndexes : List CompoundIndexDefinition) : Option CompoundIndexDefinition :=
  (compoundIndexes.foldl (fun (best : Option CompoundIndexDefinition × Nat) compoundIndex =>
    if compoundIndex.sortProperty ≠ queryOptions.sortProperty then best
    else if compoundIndex.properties.all (fun property => (equalityValue filter property).isSome)
        ∧ best.2 < compoundIndex.properties.length then
      (some compoundIndex, compoundIndex.properties.length)
    else best) (none, 0)).1

def buildCompoundPrefix (filter : Filter) (compoundIndex : CompoundIndexDefinition) :
    Option String := do
  let segments ← compoundIndex.properties.mapM fun property =>
    (equalityValue filter property).map encodeValue
  return compoundSegmentSeparator.intercalate segments ++ compoundSegmentSeparator

def buildCompoundQueryIteratorOptions (start : String) (sortDirection : SortDirection)
    (cursor : Option PaginationCursor) : IteratorOptions :=
  match cursor, sortDirection with
  | none, .ascending => { gt := start, lt := start ++ upperSentinel }
  | none, .descending => { gt := start, lt := start ++ upperSentinel, reverse := true }
  | some c, .ascending => { gt := start ++ createStartingKeyFromCursor c, lt := start ++ upperSentinel }
  | some c, .descending => { lt := start ++ createStartingKeyFromCursor c, gt := start, reverse := true }

/-- The properties that the compound key does not cover; the sort property is among them, since
its place in the key only orders. -/
def computeCompoundIndexResidualFilter (filter : Filter) (compoundIndex : CompoundIndexDefinition) :
    Filter :=
  filter.filter fun e => !compoundIndex.properties.contains e.1

def queryWithCompoundIndex (scans : Scans) (filter : Filter) (queryOptions : QueryOptions)
    (compoundIndex : CompoundIndexDefinition) : Program (List IndexedItem) :=
  match buildCompoundPrefix filter compoundIndex with
  | none => queryWithIteratorPaging scans [filter] queryOptions
  | some start =>
    let residualFilter := computeCompoundIndexResidualFilter filter compoundIndex
    Scan.forEach scans ⟨.compound compoundIndex,
      buildCompoundQueryIteratorOptions start queryOptions.sortDirection queryOptions.cursor⟩ []
      fun found entry =>
        if queryOptions.limit = some found.length then .done found
        else if !residualFilter.isEmpty && !FilterUtility.matchFilter entry.2.indexes residualFilter
        then .yield found
        else .yield (found ++ [entry.2])

/-! ## In-memory paging -/

namespace FilterSelector

/-- The properties a search prefers, best first. -/
def preferred : List String :=
  ["recordId", "attester", "parentId", "recipient", "contextId", "modulePath", "schema", "module"]

/-- One property of the filter to search by. -/
def reduceFilter (filter : Filter) : Filter :=
  if filter.length ≤ 1 then filter
  else
    match preferred.findSome? fun property => (filter.lookup property).map (property, ·) with
    | some chosen => [chosen]
    | none => (filter.filter fun e => !("author" :: preferred).contains e.1).take 1

end FilterSelector

/-- One scan that searches for the items of a filter. -/
inductive Subquery where
  | allItems (sortProperty : String)
  | exactMatches (property : String) (value : Value)
  | subtreeDescendants (property subtree : String)
  | rangeMatches (property : String) (gt gte lt lte : Option Value)

def getAllItems (scans : Scans) (sortProperty : String) : Program (List IndexedItem) :=
  Scan.forEach scans ⟨.index sortProperty, {}⟩ [] fun found entry => .yield (found ++ [entry.2])

/-- The keys of the value stand together, right behind the encoded value. -/
def filterExactMatches (scans : Scans) (property : String) (value : Value) :
    Program (List IndexedItem) :=
  let matchPrefix := encodeValue value
  Scan.forEach scans ⟨.index property, { gt := matchPrefix }⟩ [] fun found entry =>
    if startsWith entry.1 matchPrefix then .yield (found ++ [entry.2]) else .done found

/-- The lower bound is the encoded path without its closing quote. -/
def subtreeDescendantOptions (subtree : String) : IteratorOptions where
  gte := some (String.ofList (encodeValue (.string (subtree ++ "/"))).toList.dropLast)
  lt := some (encodeValue (.string (subtree ++ "0")))

def filterSubtreeDescendantMatches (scans : Scans) (property subtree : String) :
    Program (List IndexedItem) :=
  Scan.forEach scans ⟨.index property, subtreeDescendantOptions subtree⟩ []
    fun found entry => .yield (found ++ [entry.2])

/-- Without a lower bound the scan goes down from the upper one. -/
def rangeOptions (gt gte lt lte : Option Value) : IteratorOptions where
  gt := gt.map encodeValue
  gte := gte.map encodeValue
  lt := lt.map encodeValue
  lte := lte.map fun v => encodeValue v ++ upperSentinel
  reverse := gt.isNone && gte.isNone

def filterRangeMatches (scans : Scans) (property : String) (gt gte lt lte : Option Value) :
    Program (List IndexedItem) :=
  Scan.forEach scans ⟨.index property, rangeOptions gt gte lt lte⟩ [] fun found entry =>
    if gt.any fun v => extractIndexValueFromKey entry.1 == encodeValue v then .yield found
    else .yield (found ++ [entry.2])

def Subquery.run (scans : Scans) : Subquery → Program (List IndexedItem)
  | allItems sortProperty => getAllItems scans sortProperty
  | exactMatches property value => filterExactMatches scans property value
  | subtreeDescendants property subtree => filterSubtreeDescendantMatches scans property subtree
  | rangeMatches property gt gte lt lte => filterRangeMatches scans property gt gte lt lte

/-- The scans of one property filter. A range without a bound is no range filter. -/
def propertySubqueries (property : String) : FilterValue → List Subquery
  | .equal value => [.exactMatches property value]
  | .oneOf values => values.eraseDups.map (.exactMatches property)
  | .subtree path => [.exactMatches property (.string path), .subtreeDescendants property path]
  | .range none none none none => []
  | .range gt gte lt lte => [.rangeMatches property gt gte lt lte]

def subqueries (sortProperty : String) (filter : Filter) : List Subquery :=
  if filter.isEmpty then [.allItems sortProperty]
  else (FilterSelector.reduceFilter filter).flatMap fun e => propertySubqueries e.1 e.2

def invalidSortPropertyInMemory : String := "IndexInvalidSortPropertyInMemory"

abbrev Collecting := ExceptT Thrown (StateM Matches)

/-- An item that was found before is not looked at again. -/
def processResult (filter : Filter) (sortProperty : String) (item : IndexedItem) :
    Collecting Unit := do
  let found ← get
  if (found.lookup item.messageCid).isSome ∨ FilterUtility.matchFilter item.indexes filter = false
  then return
  else if KeyValues.get item.indexes sortProperty = none then
    throw ⟨some invalidSortPropertyInMemory, "invalid sort property " ++ sortProperty⟩
  else set (found.insert item.messageCid item)

def processResults (filter : Filter) (sortProperty : String) (indexItems : List IndexedItem) :
    Collecting Unit :=
  indexItems.forM (processResult filter sortProperty)

def executeSingleFilterQuery (scans : Scans) (sortProperty : String) (filter : Filter) :
    Program Unit :=
  (subqueries sortProperty filter).forM fun subquery => do
    let indexItems ← subquery.run scans
    Scan.compute (processResults filter sortProperty indexItems)

def sortValue (item : IndexedItem) (sortProperty : String) : String :=
  ((KeyValues.get item.indexes sortProperty).map encodeIndexValue).getD ""

def sortItems (sortProperty : String) (direction : SortDirection) (a b : IndexedItem) : Int :=
  let aCompareValue := sortValue a sortProperty ++ a.messageCid
  let bCompareValue := sortValue b sortProperty ++ b.messageCid
  match direction with
  | .ascending => lexicographicalCompare aCompareValue bCompareValue
  | .descending => lexicographicalCompare bCompareValue aCompareValue

def isItemAfterCursor (sortDirection : SortDirection) (sortProperty cursorStartingKey : String)
    (item : IndexedItem) : Bool :=
  let itemCompareValue := sortValue item sortProperty ++ delimiter ++ item.messageCid
  match sortDirection with
  | .ascending => lexicographicalCompare itemCompareValue cursorStartingKey = 1
  | .descending => lexicographicalCompare itemCompareValue cursorStartingKey = -1

/-- The search halves the interval, so as many rounds as there are items are enough. -/
def binarySearch (after : IndexedItem → Bool) (items : List IndexedItem) : Nat → Nat → Nat → Nat
  | 0, low, _ => low
  | rounds + 1, low, high =>
    if low < high then
      let mid := (low + high) / 2
      if items[mid]?.any after then binarySearch after items rounds low mid
      else binarySearch after items rounds (mid + 1) high
    else low

def findCursorStartingIndex (items : List IndexedItem) (sortDirection : SortDirection)
    (sortProperty cursorStartingKey : String) : Option Nat :=
  let low := binarySearch (isItemAfterCursor sortDirection sortProperty cursorStartingKey) items
    items.length 0 items.length
  if low < items.length then some low else none

def pageInMemory (queryOptions : QueryOptions) (found : Matches) : List IndexedItem :=
  let sortedValues := (KeyedMap.values found).insertionSort fun a b =>
    sortItems queryOptions.sortProperty queryOptions.sortDirection a b ≤ 0
  let start := match queryOptions.cursor with
    | none => some 0
    | some cursor => findCursorStartingIndex sortedValues queryOptions.sortDirection
        queryOptions.sortProperty (createStartingKeyFromCursor cursor)
  match start, queryOptions.limit with
  | none, _ => []
  | some start, none => sortedValues.drop start
  | some start, some limit => (sortedValues.drop start).take limit

/-- Without filters, one filter that matches everything. -/
def evaluatedFilters (filters : List Filter) : List Filter :=
  if filters.isEmpty then [[]] else filters

/-- Whatever else than an invalid sort property ends the search, the page is made of what was found
until then. -/
def queryWithInMemoryPaging (scans : Scans) (filters : List Filter) (queryOptions : QueryOptions) :
    Program (List IndexedItem) := do
  Scan.compute (set (∅ : Matches))
  let invalidSortProperty ← tryCatch
    (do
      (evaluatedFilters filters).forM (executeSingleFilterQuery scans queryOptions.sortProperty)
      return false)
    (fun thrown => return thrown.code == some invalidSortPropertyInMemory)
  if invalidSortProperty then return []
  else return pageInMemory queryOptions (← Scan.compute get)

/-! ## Choice of the strategy -/

/-- Only the hierarchical indexes have subtrees. -/
def assertValidSubtreeFilters (filters : List Filter) : Except Thrown Unit :=
  filters.forM fun filter => filter.forM fun e =>
    match e.2 with
    | .subtree _ =>
      if e.1 = "contextId" ∨ e.1 = "modulePath" then .ok ()
      else .error ⟨none, "SubtreeFilter is not supported for index '" ++ e.1 ++ "'."⟩
    | _ => .ok ()

def isFilterConcise (queryOptions : QueryOptions) (filter : Filter) : Bool :=
  let has (property : String) : Bool := (filter.lookup property).isSome
  has "recordId" || queryOptions.cursor.isNone &&
    (has "modulePath" || has "contextId" || has "parentId" || has "schema")

def shouldQueryWithInMemoryPaging (filters : List Filter) (queryOptions : QueryOptions) : Bool :=
  filters.all (isFilterConcise queryOptions)

/-- The filter of a query that consists of one, and the compound index that covers it. -/
def coveringIndex (compoundIndexes : List CompoundIndexDefinition) (filters : List Filter)
    (queryOptions : QueryOptions) : Option (Filter × CompoundIndexDefinition) :=
  match filters with
  | [filter] =>
    if filter.isEmpty then none
    else (selectCompoundIndex filter queryOptions compoundIndexes).map (filter, ·)
  | _ => none

def query (compoundIndexes : List CompoundIndexDefinition) (scans : Scans) (filters : List Filter)
    (queryOptions : QueryOptions) : Program (List IndexedItem) := do
  Scan.compute (ExceptT.mk (pure (assertValidSubtreeFilters filters)))
  match coveringIndex compoundIndexes filters queryOptions with
  | some (filter, compoundIndex) => queryWithCompoundIndex scans filter queryOptions compoundIndex
  | none =>
    if shouldQueryWithInMemoryPaging filters queryOptions then
      queryWithInMemoryPaging scans filters queryOptions
    else queryWithIteratorPaging scans filters queryOptions

def countWithCompoundIndex (compoundIndexes : List CompoundIndexDefinition) (scans : Scans)
    (filter : Filter) (compoundIndex : CompoundIndexDefinition) : Program Nat :=
  match buildCompoundPrefix filter compoundIndex with
  | none => do
    let results ← query compoundIndexes scans [filter] { sortProperty := compoundIndex.sortProperty }
    return results.length
  | some start =>
    let residualFilter := computeCompoundIndexResidualFilter filter compoundIndex
    Scan.forEach scans ⟨.compound compoundIndex, { gt := start, lt := start ++ upperSentinel }⟩ 0
      fun count entry =>
        if residualFilter.isEmpty || FilterUtility.matchFilter entry.2.indexes residualFilter
        then .yield (count + 1) else .yield count

def count (compoundIndexes : List CompoundIndexDefinition) (scans : Scans) (filters : List Filter)
    (queryOptions : QueryOptions) : Program Nat := do
  Scan.compute (ExceptT.mk (pure (assertValidSubtreeFilters filters)))
  match coveringIndex compoundIndexes filters queryOptions with
  | some (filter, compoundIndex) =>
    countWithCompoundIndex compoundIndexes scans filter compoundIndex
  | none => do
    let results ← query compoundIndexes scans filters queryOptions
    return results.length


/-! ## Failures of scans -/

/-- Only a search for one of no values opens no scan. -/
def OpensScan (filters : List Filter) (sortProperty : String) : Prop :=
  ∃ filter ∈ evaluatedFilters filters, subqueries sortProperty filter ≠ []

/-- The query passes its checks, and every filter is evaluated by searches of its own. -/
structure InMemory (compoundIndexes : List CompoundIndexDefinition) (filters : List Filter)
    (queryOptions : QueryOptions) : Prop where
  valid : assertValidSubtreeFilters filters = .ok ()
  uncovered : coveringIndex compoundIndexes filters queryOptions = none
  concise : shouldQueryWithInMemoryPaging filters queryOptions = true

section Failures
variable {compoundIndexes : List CompoundIndexDefinition} {scans : Scans} {filters : List Filter}
  {queryOptions : QueryOptions}

theorem handsOn_queryWithIteratorPaging :
    Scan.HandsOn (queryWithIteratorPaging scans filters queryOptions) := by
  apply Scan.handsOn_forEach

theorem handsOn_queryWithCompoundIndex (filter : Filter) (compoundIndex : CompoundIndexDefinition) :
    Scan.HandsOn (queryWithCompoundIndex scans filter queryOptions compoundIndex) := by
  unfold queryWithCompoundIndex
  split
  · exact handsOn_queryWithIteratorPaging
  · apply Scan.handsOn_forEach

theorem run_query (w : Scan.World Thrown Matches) (hvalid : assertValidSubtreeFilters filters = .ok ()) :
    (query compoundIndexes scans filters queryOptions).run w =
      (match coveringIndex compoundIndexes filters queryOptions with
        | some (filter, compoundIndex) =>
          queryWithCompoundIndex scans filter queryOptions compoundIndex
        | none =>
          if shouldQueryWithInMemoryPaging filters queryOptions then
            queryWithInMemoryPaging scans filters queryOptions
          else queryWithIteratorPaging scans filters queryOptions).run w := by
  unfold query
  rw [Scan.run_bind, hvalid]
  rfl

theorem run_query_of_invalid {e : Thrown} (w : Scan.World Thrown Matches)
    (hinvalid : assertValidSubtreeFilters filters = .error e) :
    (query compoundIndexes scans filters queryOptions).run w = (.error e, w) := by
  unfold query
  rw [Scan.run_bind, hinvalid]
  rfl

theorem run_queryWithInMemoryPaging (w : Scan.World Thrown Matches) :
    (queryWithInMemoryPaging scans filters queryOptions).run w =
      match ((evaluatedFilters filters).forM
          (executeSingleFilterQuery scans queryOptions.sortProperty)).run { w with state := ∅ } with
      | (.ok (), w') => (.ok (pageInMemory queryOptions w'.state), w')
      | (.error thrown, w') =>
        if thrown.code = some invalidSortPropertyInMemory then (.ok [], w')
        else (.ok (pageInMemory queryOptions w'.state), w') := by
  have hset : (Scan.compute (set (∅ : Matches)) : Program Unit).run w =
      (.ok (), { w with state := ∅ }) := rfl
  unfold queryWithInMemoryPaging
  rw [Scan.run_bind, hset]
  dsimp only
  rw [Scan.run_bind, Scan.run_tryCatch, Scan.run_bind]
  generalize ((evaluatedFilters filters).forM
    (executeSingleFilterQuery scans queryOptions.sortProperty)).run { w with state := ∅ } = out
  obtain ⟨result, w'⟩ := out
  cases result with
  | ok u => rfl
  | error thrown =>
    by_cases hcode : thrown.code = some invalidSortPropertyInMemory
    · dsimp only
      rw [if_pos hcode, beq_iff_eq.mpr hcode]
      rfl
    · dsimp only
      rw [if_neg hcode, beq_eq_false_iff_ne.mpr hcode]
      rfl

/-- Every scan fails before its first entry. -/
def failing (e : Thrown) : Scans := fun _ _ => ⟨[], some e⟩

theorem run_failing (e : Thrown) (subquery : Subquery) (w : Scan.World Thrown Matches) :
    (subquery.run (failing e)).run w =
      (.error e, ⟨w.turn + 1, w.failures ++ [e], w.state⟩) := by
  cases subquery with
  | allItems sortProperty => rfl
  | exactMatches property value => rfl
  | subtreeDescendants property subtree => rfl
  | rangeMatches property gt gte lt lte => rfl

theorem executeSingleFilterQuery_of_nil {sortProperty : String} {filter : Filter}
    (h : subqueries sortProperty filter = []) :
    executeSingleFilterQuery scans sortProperty filter = pure () := by
  unfold executeSingleFilterQuery
  rw [h]
  rfl

theorem run_executeSingleFilterQuery_failing (e : Thrown) {sortProperty : String} {filter : Filter}
    (h : subqueries sortProperty filter ≠ []) (w : Scan.World Thrown Matches) :
    (executeSingleFilterQuery (failing e) sortProperty filter).run w =
      (.error e, ⟨w.turn + 1, w.failures ++ [e], w.state⟩) := by
  unfold executeSingleFilterQuery
  obtain ⟨subquery, rest, heq⟩ := List.exists_cons_of_ne_nil h
  rw [heq, List.forM_eq_forM, List.forM_cons, Scan.run_bind, Scan.run_bind, run_failing]

theorem run_forM_failing (e : Thrown) {sortProperty : String} {filters : List Filter}
    (h : ∃ filter ∈ filters, subqueries sortProperty filter ≠ []) (w : Scan.World Thrown Matches) :
    (filters.forM (executeSingleFilterQuery (failing e) sortProperty)).run w =
      (.error e, ⟨w.turn + 1, w.failures ++ [e], w.state⟩) := by
  induction filters with
  | nil => simp at h
  | cons filter filters ih =>
    rw [List.forM_eq_forM, List.forM_cons, Scan.run_bind]
    by_cases hnil : subqueries sortProperty filter = []
    · rw [executeSingleFilterQuery_of_nil hnil]
      exact ih (by simpa [hnil] using h)
    · rw [run_executeSingleFilterQuery_failing e hnil]

theorem forM_of_not_opensScan {sortProperty : String} {filters : List Filter}
    (h : ∀ filter ∈ filters, subqueries sortProperty filter = []) :
    filters.forM (executeSingleFilterQuery scans sortProperty) = pure () := by
  induction filters with
  | nil => rfl
  | cons filter filters ih =>
    rw [List.forM_eq_forM, List.forM_cons,
      executeSingleFilterQuery_of_nil (h filter List.mem_cons_self), pure_bind]
    exact ih fun f hf => h f (List.mem_cons_of_mem _ hf)

end Failures

/-- A failed scan makes the query reject with that failure, except for the queries whose filters are
evaluated in memory: these report whatever ends their search, other than an invalid sort property, as
a page of what was found until then. -/
theorem failed_scan_rejects_iff (compoundIndexes : List CompoundIndexDefinition)
    (filters : List Filter) (queryOptions : QueryOptions) :
    (∀ (scans : Scans) (e : Thrown),
      e ∈ (Scan.outcome (query compoundIndexes scans filters queryOptions) ∅).2 →
        (Scan.outcome (query compoundIndexes scans filters queryOptions) ∅).1 = .error e) ↔
      ¬ (InMemory compoundIndexes filters queryOptions ∧
        OpensScan filters queryOptions.sortProperty) := by
  constructor
  · rintro hrejects ⟨⟨hvalid, huncovered, hconcise⟩, hopens⟩
    have hrun : (query compoundIndexes (failing ⟨none, "aborted"⟩) filters queryOptions).run
        ⟨0, [], ∅⟩ = (.ok (pageInMemory queryOptions ∅), ⟨1, [⟨none, "aborted"⟩], ∅⟩) := by
      rw [run_query _ hvalid, huncovered, if_pos hconcise, run_queryWithInMemoryPaging,
        run_forM_failing _ hopens]
      rfl
    have hreject := hrejects (failing ⟨none, "aborted"⟩) ⟨none, "aborted"⟩
    unfold Scan.outcome at hreject
    rw [hrun] at hreject
    exact nomatch hreject (List.mem_singleton.mpr rfl)
  · intro hcondition scans e he
    cases hvalid : assertValidSubtreeFilters filters with
    | error invalid =>
      unfold Scan.outcome at he
      rw [run_query_of_invalid _ hvalid] at he
      cases he
    | ok u =>
      have houtcome : Scan.outcome (query compoundIndexes scans filters queryOptions) ∅ = _ :=
        congrArg (fun out => (out.1, out.2.failures)) (run_query ⟨0, [], ∅⟩ hvalid)
      rw [houtcome] at he ⊢
      cases hcovering : coveringIndex compoundIndexes filters queryOptions with
      | some covering =>
        rw [hcovering] at he
        exact (handsOn_queryWithCompoundIndex covering.1 covering.2).outcome he
      | none =>
        rw [hcovering] at he
        by_cases hconcise : shouldQueryWithInMemoryPaging filters queryOptions = true
        · -- no scan is opened, so none fails
          have hnone : ∀ filter ∈ evaluatedFilters filters,
              subqueries queryOptions.sortProperty filter = [] := by
            intro filter hfilter
            by_contra hne
            exact hcondition ⟨⟨hvalid, hcovering, hconcise⟩, filter, hfilter, hne⟩
          rw [if_pos hconcise, run_queryWithInMemoryPaging, forM_of_not_opensScan hnone] at he
          cases he
        · rw [if_neg hconcise] at he ⊢
          exact handsOn_queryWithIteratorPaging.outcome he

namespace Example

/-- Two records by their ids; the scan for the second is aborted. -/
def filters : List Filter := [[Filters.equalText "recordId" "r1"], [Filters.equalText "recordId" "r2"]]

def first : IndexedItem :=
  ⟨"cid1", [("recordId", KeyValues.text "r1"), ("messageTimestamp", KeyValues.text "2025-01-01")]⟩

def scans : Scans
  | 0, _ => ⟨[("\"r1\"\x00cid1", first)], none⟩
  | _, _ => ⟨[], some ⟨none, "This operation was aborted"⟩⟩

theorem aborted_scan_resolves : Scan.outcome
    (query [] scans filters { sortProperty := "messageTimestamp" }) ∅ =
      (.ok [first], [⟨none, "This operation was aborted"⟩]) ∧
    ¬ ∀ (scans : Scans) (e : Thrown),
      e ∈ (Scan.outcome (query [] scans filters { sortProperty := "messageTimestamp" }) ∅).2 →
        (Scan.outcome (query [] scans filters { sortProperty := "messageTimestamp" }) ∅).1 =
          .error e := by
  have hpage : Scan.outcome (query [] scans filters { sortProperty := "messageTimestamp" }) ∅ =
      (.ok [first], [⟨none, "This operation was aborted"⟩]) := by rfl
  refine ⟨hpage, ?_⟩
  intro hrejects
  have hreject := hrejects scans ⟨none, "This operation was aborted"⟩
  rw [hpage] at hreject
  exact nomatch hreject (List.mem_singleton.mpr rfl)

end Example

end EnboxDwn.IndexLevel
