import EnboxDwn.Lib.JsonText

/-! The keys that come with a grant: the scopes for which keys are delivered, and the test whether
a grant covers a delivered scope. Runs that end with an error are none. -/
namespace EnboxDwn
namespace GrantKeyCoverage
open Utf16

/-! ## Values and their properties -/

abbrev Entries := List (Utf16 × Json)

def digitUnit (c : Char) : CodeUnit := Fin.ofNat 65536 c.toNat

/-- The index keys of a sequence from a number on. -/
def indexed : Nat → List Json → Entries
  | _, [] => []
  | i, t :: ts => ((Nat.toDigits 10 i).map digitUnit, t) :: indexed (i + 1) ts

/-- The enumerable own properties. The length of an array or a string is a property too, but not
one of these. -/
def ownEntries : Json → Entries
  | .object entries => entries
  | .array elements => indexed 0 elements
  | .string s => indexed 0 (s.map fun u => .string [u])
  | _ => []

def property (name : Utf16) : Json → Option (Option Json)
  | .null => none
  | value => some (((ownEntries value).find? fun e => e.1 = name).map Prod.snd)

structure ModuleDefinition where
  moduleStructure : Json

def isDirective (key : Utf16) : Bool := key.head? = some 36

def join (segments : List Utf16) : Utf16 := [47].intercalate segments

def split (modulePath : Utf16) : List Utf16 := modulePath.splitOn 47

/-- Down the own properties. A length that is named on the way is a number: it has no properties,
and is no more of a rule set than a missing one. -/
def ruleSetAt : Json → List Utf16 → Option (Option Json)
  | value, [] => some (some value)
  | .null, _ :: _ => none
  | value, segment :: rest =>
    match (ownEntries value).find? fun e => e.1 = segment with
    | none => some none
    | some e => ruleSetAt e.2 rest

def getRuleSetAtPath (modulePath : Utf16) (moduleStructure : Json) : Option (Option Json) :=
  ruleSetAt moduleStructure (split modulePath)

def isRoleRuleSet : Json → Bool
  | .object entries =>
    match entries.find? (fun e => e.1 = ascii "$role"),
      entries.find? (fun e => e.1 = ascii "$keyAgreement") with
    | some (_, .bool true), some _ => true
    | _, _ => false
  | _ => false

def isGrantKeyLocalRolePath (d : ModuleDefinition) (modulePath : Utf16) : Option Bool :=
  (getRuleSetAtPath modulePath d.moduleStructure).map fun ruleSet => ruleSet.elim false isRoleRuleSet

/-! ## Paths of roles -/

/-- One round of the loop over the entries: the path itself, the paths below it, and those of the
rounds to come. -/
def collected (modulePath : Utf16) (isRole : Option Bool) (below others : Option (List Utf16)) :
    Option (List Utf16) :=
  match isRole, below, others with
  | some isRole, some below, some others =>
    some ((if isRole then [modulePath] else []) ++ below ++ others)
  | _, _, _ => none

mutual

/-- The letters of a string are strings again, and so on without end. -/
def collectRolePaths (d : ModuleDefinition) (parentPath : List Utf16) : Json → Option (List Utf16)
  | .object entries => collectRoleEntries d parentPath entries
  | .array elements => collectRoleElements d parentPath 0 elements
  | .string [] => some []
  | .string (_ :: _) => none
  | .null => none
  | _ => some []

def collectRoleEntries (d : ModuleDefinition) (parentPath : List Utf16) :
    List (Utf16 × Json) → Option (List Utf16)
  | [] => some []
  | (key, value) :: rest =>
    if isDirective key then collectRoleEntries d parentPath rest
    else
      let path := parentPath ++ [key]
      collected (join path) (isGrantKeyLocalRolePath d (join path)) (collectRolePaths d path value)
        (collectRoleEntries d parentPath rest)

def collectRoleElements (d : ModuleDefinition) (parentPath : List Utf16) :
    Nat → List Json → Option (List Utf16)
  | _, [] => some []
  | i, value :: rest =>
    let path := parentPath ++ [(Nat.toDigits 10 i).map digitUnit]
    collected (join path) (isGrantKeyLocalRolePath d (join path)) (collectRolePaths d path value)
      (collectRoleElements d parentPath (i + 1) rest)

end

def includesText (text : Utf16) (part : Utf16) : Bool := part <:+: text

/-- `actionRule.can.includes`, of a list or of a text. -/
def includesRead : Option Json → Option Bool
  | some (.array actions) => some (actions.any fun action =>
      match action with
      | .string s => s = ascii "read"
      | _ => false)
  | some (.string s) => some (includesText s (ascii "read"))
  | _ => none

def readRolePath (d : ModuleDefinition) (actionRule : Json) : Option (List Utf16) := do
  let can ← property (ascii "can") actionRule
  if !(← includesRead can) then return []
  match ← property (ascii "role") actionRule with
  | none => return []
  | some (.string role) =>
    if 58 ∈ role then return []
    return if ← isGrantKeyLocalRolePath d role then [role] else []
  | some _ => none

/-- `ruleSet.$actions ?? []` as a sequence. -/
def actionRules (ruleSet : Json) : Option (List Json) := do
  match ← property (ascii "$actions") ruleSet with
  | none => return []
  | some .null => return []
  | some (.array actionRules) => return actionRules
  | some (.string []) => return []
  -- A text goes letter by letter, and a letter has no actions that could be searched.
  | some _ => none

/-- Adds to a set what is not yet in it. -/
def addAll (paths others : List Utf16) : List Utf16 :=
  others.foldl (fun paths path => if path ∈ paths then paths else paths ++ [path]) paths

def ownReadRolePaths (d : ModuleDefinition) (ruleSet : Json) : Option (List Utf16) := do
  let rules ← actionRules ruleSet
  let paths ← rules.mapM (readRolePath d)
  return addAll [] paths.flatten

def collectedBoth (below others : Option (List Utf16)) : Option (List Utf16) :=
  match below, others with
  | some below, some others => some (addAll below others)
  | _, _ => none

mutual

def collectReadRolePaths (d : ModuleDefinition) : Json → Option (List Utf16)
  | .object entries =>
    collectedBoth (ownReadRolePaths d (.object entries)) (collectReadEntries d entries)
  | .array elements => collectReadElements d elements
  | .string [] => some []
  | .string (_ :: _) => none
  | .null => none
  | _ => some []

def collectReadEntries (d : ModuleDefinition) : List (Utf16 × Json) → Option (List Utf16)
  | [] => some []
  | (key, value) :: rest =>
    if isDirective key then collectReadEntries d rest
    else collectedBoth (collectReadRolePaths d value) (collectReadEntries d rest)

def collectReadElements (d : ModuleDefinition) : List Json → Option (List Utf16)
  | [] => some []
  | value :: rest => collectedBoth (collectReadRolePaths d value) (collectReadElements d rest)

end

/-! ## Delivery and coverage -/

structure ModulePathScope where
  module : Utf16
  modulePath : Option Utf16
  deriving DecidableEq

def matchesSubtree (subtree candidate : Utf16) : Bool :=
  candidate = subtree || (subtree ++ [47]).isPrefixOf candidate

/-- `JSON.stringify`: an undefined element is written as null. -/
def getGrantKeyScopeCacheKey (scope : ModulePathScope) : Utf16 :=
  Json.render (.array [.string scope.module, scope.modulePath.elim .null .string])

def Keyed (found : List (Utf16 × ModulePathScope)) : Prop :=
  ∀ e ∈ found, e.1 = getGrantKeyScopeCacheKey e.2

variable {d : ModuleDefinition}

/-- Names of the tree that lead down from a value; no directive is among them. -/
inductive Reaches : Json → List Utf16 → Prop
  | here (value : Json) : Reaches value []
  | down {value : Json} {e : Utf16 × Json} {rest : List Utf16} (he : e ∈ ownEntries value)
      (hkey : isDirective e.1 = false) (h : Reaches e.2 rest) : Reaches value (e.1 :: rest)

def Derives : ModulePathScope → ModulePathScope → Prop
  | ⟨module, none⟩, ⟨module', _⟩ => module = module'
  | ⟨module, some path⟩, ⟨module', some path'⟩ => module = module' ∧ matchesSubtree path path' = true
  | ⟨_, some _⟩, ⟨_, none⟩ => False

theorem matchesSubtree_refl (path : Utf16) : matchesSubtree path path = true := by
  simp [matchesSubtree]

theorem Derives.refl (scope : ModulePathScope) : Derives scope scope := by
  cases scope with
  | mk module modulePath =>
    cases modulePath with
    | none => rfl
    | some path => exact ⟨rfl, matchesSubtree_refl path⟩

end GrantKeyCoverage
end EnboxDwn
