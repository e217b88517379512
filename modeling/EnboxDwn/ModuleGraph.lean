import EnboxDwn.Reply
import EnboxDwn.Lib.DepthFirst
import Mathlib.Data.List.Sort

/-! The module graph: the definitions a module uses are loaded depth first, then every declared
record path is resolved to a node that knows its physical ancestors. The loader that fetches
definitions beforehand walks the same edges. -/
namespace EnboxDwn
open DepthFirst

/-! ## Strings -/

/-- The UTF-16 code units, by which strings are compared. -/
def codeUnits (s : String) : List Nat :=
  s.toList.flatMap fun c =>
    if c.toNat < 0x10000 then [c.toNat]
    else [0xd800 + (c.toNat - 0x10000) / 0x400, 0xdc00 + (c.toNat - 0x10000) % 0x400]

def lexicographicalCompare (a b : String) : Int :=
  if codeUnits b < codeUnits a then 1 else if codeUnits a < codeUnits b then -1 else 0

namespace ModulePath

def split (path : String) : List String := (path.toList.splitOn '/').map String.ofList

def join (segments : List String) : String :=
  String.ofList (['/'].intercalate (segments.map String.toList))

/-- Everything before the last separator, if there is one. -/
def parent (path : String) : Option String :=
  if '/' ∈ path.toList then
    some (String.ofList ((path.toList.reverse.dropWhile (· ≠ '/')).drop 1).reverse)
  else none

def child (parentPath name : String) : String :=
  if parentPath = "" then name else parentPath ++ "/" ++ name

def reference (reference : String) : Option (String × String) :=
  match reference.toList.span (· ≠ ':') with
  | (_, []) => none
  | (aliasName, _ :: path) => some (String.ofList aliasName, String.ofList path)

end ModulePath

/-! ## Module definitions -/

structure ModuleActionRule where
  who : Option String := none
  role : Option String := none
  of : Option String := none
  can : List String := []
  deriving DecidableEq, Repr

/-- The directives of a rule set that the graph reads. -/
structure RuleSetDirectives where
  ref : Option String := none
  squash : Bool := false
  role : Bool := false
  keyAgreement : Bool := false
  actions : List ModuleActionRule := []
  deriving DecidableEq, Repr

/-- The named rule sets of an object, each with the rule sets it contains. -/
inductive RuleSets where
  | nil
  | cons (name : String) (directives : RuleSetDirectives) (children rest : RuleSets)
  deriving DecidableEq, Repr

structure DeclaredRuleSet where
  directives : RuleSetDirectives
  children : RuleSets
  deriving DecidableEq, Repr

def RuleSets.find? (name : String) : RuleSets → Option DeclaredRuleSet
  | .nil => none
  | .cons name' directives children rest =>
    if name' = name then some ⟨directives, children⟩ else rest.find? name

structure ModuleType where
  encryptionRequired : Bool := false
  schema : Option String := none
  dataFormats : Option (List String) := none
  deriving DecidableEq, Repr

structure ModuleDefinition where
  module : String
  uses : List (String × String) := []
  types : List (String × ModuleType) := []
  declaredStructure : RuleSets := .nil
  deriving DecidableEq, Repr

/-! ## Loading -/

/-- The normal form of a module URI, if it has one; URL parsing is the platform's. -/
abbrev NormalizeModuleUrl := String → Option String

def validateModuleUrlNormalized (normalizeModuleUrl : NormalizeModuleUrl) (url : String) :
    Except Failure Unit :=
  if normalizeModuleUrl url = some url then .ok ()
  else .error (.dwnError ⟨.urlModuleNotNormalized, "Module URI " ++ url ++ " must be normalized."⟩)

def invalidUsesCycle (message : String) : Failure :=
  .dwnError ⟨.modulesConfigureInvalidUsesCycle, message⟩

/-- An entry of `uses`; `repeated` when an entry before it has the same target. -/
structure UsesEdge where
  usesAlias : String
  targetUri : String
  repeated : Bool
  deriving DecidableEq, Repr

def usesEdges (usedUris : List String) : List (String × String) → List UsesEdge
  | [] => []
  | (usesAlias, targetUri) :: uses =>
    ⟨usesAlias, targetUri, usedUris.contains targetUri⟩ :: usesEdges (targetUri :: usedUris) uses

/-- What `loadDefinition` walks: the aliases in order, one module at most once. -/
def loadGraph (normalizeModuleUrl : NormalizeModuleUrl)
    (getDefinition : String → Option ModuleDefinition) :
    Graph String ModuleDefinition UsesEdge Failure where
  key := ModuleDefinition.module
  enter definition := validateModuleUrlNormalized normalizeModuleUrl definition.module
  edges definition := usesEdges []
    (definition.uses.insertionSort fun a b => lexicographicalCompare a.1 b.1 ≤ 0)
  target := UsesEdge.targetUri
  check definition e := do
    validateModuleUrlNormalized normalizeModuleUrl e.targetUri
    if e.repeated then
      .error (.dwnError ⟨.modulesConfigureDuplicateUsesModule, "module '" ++ definition.module ++
        "' declares multiple aliases for '" ++ e.targetUri ++ "'."⟩)
  fetch _ e :=
    match getDefinition e.targetUri with
    | none => .error (.dwnError ⟨.modulesConfigureComposedModuleNotInstalled, "composed module '" ++
        e.targetUri ++ "' (alias '" ++ e.usesAlias ++ "') is not installed."⟩)
    | some target =>
      if target.module ≠ e.targetUri then
        .error (.dwnError ⟨.modulesConfigureInvalidUsesModuleUrl, "lookup for '" ++ e.targetUri ++
          "' returned definition '" ++ target.module ++ "'."⟩)
      else .ok target
  nodeActive definition :=
    invalidUsesCycle ("module dependency cycle at '" ++ definition.module ++ "'.")
  targetActive definition e := invalidUsesCycle ("module dependency '" ++ definition.module ++
    "' -> '" ++ e.targetUri ++ "' forms a cycle.")

def loadDefinition (normalizeModuleUrl : NormalizeModuleUrl)
    (getDefinition : String → Option ModuleDefinition) :
    Nat → ModuleDefinition → Search String ModuleDefinition →
      Except (Halt Failure) (Search String ModuleDefinition) :=
  visit (loadGraph normalizeModuleUrl getDefinition)

/-- What the loader's `visit` walks: the used modules in order, each once. -/
def preloadGraph (fetchDefinition : String → Option ModuleDefinition) :
    Graph String ModuleDefinition String Failure where
  key := ModuleDefinition.module
  enter _ := .ok ()
  edges definition := (definition.uses.map Prod.snd).eraseDups.insertionSort
    fun a b => lexicographicalCompare a b ≤ 0
  target := id
  check _ _ := .ok ()
  fetch _ targetUri :=
    match fetchDefinition targetUri with
    | none => .error (.dwnError ⟨.modulesConfigureComposedModuleNotInstalled,
        "composed module '" ++ targetUri ++ "' is not installed."⟩)
    | some target =>
      if target.module ≠ targetUri then
        .error (.dwnError ⟨.modulesConfigureInvalidUsesModuleUrl, "lookup for '" ++ targetUri ++
          "' returned definition '" ++ target.module ++ "'."⟩)
      else .ok target
  nodeActive definition :=
    invalidUsesCycle ("module dependency cycle at '" ++ definition.module ++ "'.")
  targetActive definition targetUri := invalidUsesCycle ("module dependency '" ++
    definition.module ++ "' -> '" ++ targetUri ++ "' forms a cycle.")

def preloadModuleDefinitions (fuel : Nat) (root : ModuleDefinition)
    (fetchDefinition : String → Option ModuleDefinition) :
    Except (Halt Failure) (List (String × ModuleDefinition)) :=
  (visit (preloadGraph fetchDefinition) fuel root {}).map Search.visited

/-! ## Nodes -/

/-- The module that owns the records of a resolved node, and their path in it. -/
structure ResolvedModuleAddress where
  owningModuleUri : String
  owningModulePath : String
  deriving DecidableEq, Repr

structure ResolvedAncestorStep extends ResolvedModuleAddress where
  declaringModuleUri : String
  declaringModulePath : String
  typeName : String
  ruleSet : DeclaredRuleSet
  recordType : ModuleType
  deriving DecidableEq, Repr

structure ResolvedRoleReference extends ResolvedModuleAddress where
  rawRole : String
  physicalAncestors : List ResolvedAncestorStep
  physicalDepth : Nat
  parentPhysicalDepth : Nat
  parentAncestor : Option ResolvedModuleAddress
  ruleSet : DeclaredRuleSet
  deriving DecidableEq, Repr

structure ResolvedActorReference extends ResolvedModuleAddress where
  who : Option String
  rawOf : String
  physicalDepth : Nat
  deriving DecidableEq, Repr

structure ResolvedModuleAction where
  rule : ModuleActionRule
  resolvedRole : Option ResolvedRoleReference := none
  resolvedActor : Option ResolvedActorReference := none
  deriving DecidableEq, Repr

inductive NodeKind where
  | record | ref
  deriving DecidableEq, Repr

/-- Physical ancestors stand in root-to-parent order; references add no record. -/
structure ResolvedModuleNode extends ResolvedAncestorStep where
  kind : NodeKind
  declaredRuleSet : DeclaredRuleSet
  physicalAncestors : List ResolvedAncestorStep
  physicalDepth : Nat
  parentPhysicalDepth : Nat
  expectedParent : Option ResolvedModuleAddress
  rolesByRawRef : List (String × ResolvedRoleReference) := []
  actions : List ResolvedModuleAction := []
  deriving DecidableEq, Repr

structure ResolvedModuleGraph where
  rootModuleUri : String
  definitionsByUri : List (String × ModuleDefinition)
  nodesByDeclaredPath : List (String × ResolvedModuleNode)
  deriving DecidableEq, Repr

/-! ## Resolving -/

/-- The resolver's maps, in insertion order; `refTargets` is the path a module attached a target
at. -/
structure ResolverState where
  nodes : List ((String × String) × ResolvedModuleNode) := []
  resolving : List (String × String) := []
  refTargets : List ((String × ResolvedModuleAddress) × String) := []

abbrev Outcome := Except (Halt Failure)

/-- How a nested node is resolved. -/
abbrev ResolveNode :=
  String → String → ResolverState → Outcome (ResolvedModuleNode × ResolverState)

def refuse {α : Type} (code : DwnErrorCode) (message : String) : Outcome α :=
  .error (.failed (.dwnError ⟨code, message⟩))

def maxRecordNestingDepth : Nat := 10

def DeclaredRuleSet.descend : DeclaredRuleSet → List String → Option DeclaredRuleSet
  | node, [] => some node
  | node, segment :: segments =>
    if segment = "" ∨ startsWith segment "$" = true then none
    else match node.children.find? segment with
      | none => none
      | some child => child.descend segments

def jsonEscape (c : Char) : List Char :=
  let hex (n : Nat) : Char := "0123456789abcdef".toList.getD n '0'
  if c = '"' ∨ c = '\\' then ['\\', c]
  else if c.toNat = 8 then ['\\', 'b']
  else if c.toNat = 9 then ['\\', 't']
  else if c.toNat = 10 then ['\\', 'n']
  else if c.toNat = 12 then ['\\', 'f']
  else if c.toNat = 13 then ['\\', 'r']
  else if c.toNat < 32 then ['\\', 'u', '0', '0', hex (c.toNat / 16), hex (c.toNat % 16)]
  else [c]

/-- The text of a pair of strings as JSON. -/
def jsonPair (a b : String) : String :=
  let quoted (s : String) := "\"" ++ String.ofList (s.toList.flatMap jsonEscape) ++ "\""
  "[" ++ quoted a ++ "," ++ quoted b ++ "]"

def ResolvedModuleNode.address (node : ResolvedModuleNode) : ResolvedModuleAddress :=
  node.toResolvedModuleAddress

def ResolvedModuleNode.ancestorStep (node : ResolvedModuleNode) : ResolvedAncestorStep :=
  node.toResolvedAncestorStep

namespace ModuleGraphResolver
variable (definitions : List (String × ModuleDefinition))

def declaredRuleSet (moduleUri path : String) : Outcome DeclaredRuleSet :=
  match definitions.lookup moduleUri with
  | none => .error (.failed .typeError)
  | some definition =>
    match (DeclaredRuleSet.mk {} definition.declaredStructure).descend (ModulePath.split path) with
    | none => refuse .modulesConfigureInvalidRefModulePath
        ("module '" ++ moduleUri ++ "' has no declared record path '" ++ path ++ "'.")
    | some node => .ok node

def resolveReference (resolveNode : ResolveNode) (moduleUri reference : String)
    (s : ResolverState) : Outcome (ResolvedModuleNode × ResolverState) :=
  match ModulePath.reference reference with
  | none => resolveNode moduleUri reference s
  | some (usesAlias, path) =>
    match definitions.lookup moduleUri with
    | none => .error (.failed .typeError)
    | some definition =>
      match definition.uses.lookup usesAlias with
      | none => refuse .modulesConfigureInvalidRefAlias ("reference '" ++ reference ++
          "' has no alias '" ++ usesAlias ++ "' in module '" ++ moduleUri ++ "'.")
      | some targetUri => resolveNode targetUri path s

/-- A reference is its target under another name; the node keeps the target's ancestry. -/
def createReferenceNode (resolveNode : ResolveNode) (moduleUri path : String)
    (declared : DeclaredRuleSet) (ref : String) (s : ResolverState) :
    Outcome (ResolvedModuleNode × ResolverState) := do
  if '/' ∈ path.toList then
    refuse .modulesConfigureInvalidRefNotAtRoot ("reference at '" ++ moduleUri ++ "' path '" ++
      path ++ "' is not at the structure root.")
  else
    let (target, s) ← resolveReference definitions resolveNode moduleUri ref s
    if target.ruleSet.directives.squash ||
        target.physicalAncestors.any fun step => step.ruleSet.directives.squash then
      refuse .modulesConfigureInvalidRefTargetSquash ("reference '" ++ ref ++ "' at '" ++
        moduleUri ++ "' path '" ++ path ++ "' has squashable physical ancestry.")
    else
      match s.refTargets.lookup (moduleUri, target.address) with
      | some previousPath =>
        refuse .modulesConfigureDuplicateRefTarget ("references '" ++ previousPath ++ "' and '" ++
          path ++ "' in '" ++ moduleUri ++ "' resolve to the same target '" ++
          jsonPair target.owningModuleUri target.owningModulePath ++ "'.")
      | none =>
        .ok ({ target with
                declaringModuleUri := moduleUri
                declaringModulePath := path
                kind := .ref
                declaredRuleSet := declared
                rolesByRawRef := []
                actions := [] },
              { s with refTargets := ((moduleUri, target.address), path) :: s.refTargets })

def createRecordNode (resolveNode : ResolveNode) (moduleUri path : String)
    (declared : DeclaredRuleSet) (s : ResolverState) : Outcome (ResolvedModuleNode × ResolverState) := do
  let typeName := (ModulePath.split path).getLastD ""
  match definitions.lookup moduleUri with
  | none => .error (.failed .typeError)
  | some definition =>
    match definition.types.lookup typeName with
    | none =>
      refuse .modulesConfigureInvalidRuleSetRecordType ("record path '" ++ path ++ "' in '" ++
        moduleUri ++ "' has no local type '" ++ typeName ++ "'.")
    | some recordType =>
      let (parent, s) ← match ModulePath.parent path with
        | none => (.ok (none, s) : Outcome (Option ResolvedModuleNode × ResolverState))
        | some parentPath => do
          let (parent, s) ← resolveNode moduleUri parentPath s
          .ok (some parent, s)
      let physicalAncestors := match parent with
        | none => []
        | some parent => parent.physicalAncestors ++ [parent.ancestorStep]
      .ok ({ owningModuleUri := moduleUri
             owningModulePath := path
             declaringModuleUri := moduleUri
             declaringModulePath := path
             kind := .record
             typeName
             recordType
             ruleSet := declared
             declaredRuleSet := declared
             physicalAncestors
             physicalDepth := physicalAncestors.length + 1
             parentPhysicalDepth := physicalAncestors.length
             expectedParent := parent.map ResolvedModuleNode.address }, s)

def resolveNode : Nat → ResolveNode
  | 0, _, _, _ => .error .outOfFuel
  | fuel + 1, moduleUri, path, s =>
    match s.nodes.lookup (moduleUri, path) with
    | some existing => .ok (existing, s)
    | none =>
      if (moduleUri, path) ∈ s.resolving then
        .error (.failed (invalidUsesCycle
          ("cyclic reference at '" ++ moduleUri ++ "' path '" ++ path ++ "'.")))
      else do
        let s := { s with resolving := (moduleUri, path) :: s.resolving }
        let declared ← declaredRuleSet definitions moduleUri path
        let (node, s) ← match declared.directives.ref with
          | none => createRecordNode definitions (resolveNode fuel) moduleUri path declared s
          | some ref =>
            createReferenceNode definitions (resolveNode fuel) moduleUri path declared ref s
        if maxRecordNestingDepth < node.physicalDepth then
          refuse .modulesConfigureMaxDepthExceeded ("resolved record '" ++ moduleUri ++
            "' path '" ++ path ++ "' exceeds " ++ toString maxRecordNestingDepth ++
            " physical levels.")
        else
          .ok (node, { s with nodes := s.nodes ++ [((moduleUri, path), node)],
                              resolving := s.resolving.erase (moduleUri, path) })

/-- The declared paths below a path in the order they are resolved, by the name they begin with. -/
def declaredEntries (parentPath : String) : RuleSets → List (String × List String)
  | .nil => []
  | .cons name _ children rest =>
    let entries := declaredEntries parentPath rest
    if startsWith name "$" then entries
    else
      let path := ModulePath.child parentPath name
      (name, path :: ((declaredEntries path children).insertionSort
        fun a b => lexicographicalCompare a.1 b.1 ≤ 0).flatMap Prod.snd) :: entries

def declaredPaths (parentPath : String) (rules : RuleSets) : List String :=
  ((declaredEntries parentPath rules).insertionSort
    fun a b => lexicographicalCompare a.1 b.1 ≤ 0).flatMap Prod.snd

/-- Every declared path, parents before their children. -/
def resolveStructure (fuel : Nat) (moduleUri : String) (rules : RuleSets) (parentPath : String)
    (s : ResolverState) : Outcome ResolverState :=
  (declaredPaths parentPath rules).foldlM (fun s path => do
    let (_, s) ← resolveNode definitions fuel moduleUri path s
    .ok s) s

def resolveRole (fuel : Nat) (moduleUri rawRole : String) (s : ResolverState) :
    Outcome (ResolvedRoleReference × ResolverState) := do
  let (target, s) ← resolveReference definitions (resolveNode definitions fuel) moduleUri rawRole s
  if !target.ruleSet.directives.role then
    refuse .modulesConfigureRoleDoesNotExistAtGivenPath ("reference '" ++ rawRole ++ "' in '" ++
      moduleUri ++ "' does not resolve to a role record.")
  else
    .ok ({ toResolvedModuleAddress := target.address
           rawRole
           physicalAncestors := target.physicalAncestors
           physicalDepth := target.physicalDepth
           parentPhysicalDepth := target.parentPhysicalDepth
           parentAncestor := target.expectedParent
           ruleSet := target.ruleSet }, s)

def isSelfOrAncestor (node : ResolvedModuleNode) (address : ResolvedModuleAddress) : Bool :=
  (node.address :: node.physicalAncestors.map (·.toResolvedModuleAddress)).contains address

/-- The node while its actions are resolved, with the canonical roles and actors seen. -/
structure ActionState where
  node : ResolvedModuleNode
  roleKeys : List ResolvedModuleAddress := []
  actorKeys : List (Option String × Option ResolvedModuleAddress) := []
  resolver : ResolverState

def resolveRoleAction (fuel : Nat) (requireKeyAgreement : Bool) (rule : ModuleActionRule)
    (rawRole : String) (a : ActionState) : Outcome ActionState := do
  let node := a.node
  let (role, s) ← resolveRole definitions fuel node.declaringModuleUri rawRole a.resolver
  if role.parentAncestor.any fun parent => !isSelfOrAncestor node parent then
    refuse .modulesConfigureInvalidRoleAncestor ("role '" ++ rawRole ++
      "' cannot obtain its parent context from '" ++ node.declaringModulePath ++ "' in '" ++
      node.declaringModuleUri ++ "'.")
  else if a.roleKeys.contains role.toResolvedModuleAddress then
    refuse .modulesConfigureDuplicateRoleInRuleSet ("duplicate canonical role '" ++ rawRole ++
      "' at '" ++ node.declaringModulePath ++ "'.")
  else if requireKeyAgreement && node.kind = .record && node.recordType.encryptionRequired &&
      rule.can.contains "read" && !role.ruleSet.directives.keyAgreement then
    refuse .modulesConfigureInvalidEncryptedRoleMissingKeyAgreement ("encrypted path '" ++
      node.declaringModulePath ++ "' references role '" ++ rawRole ++ "' without $keyAgreement.")
  else
    .ok { a with
          node := { node with
            rolesByRawRef := node.rolesByRawRef ++ [(rawRole, role)]
            actions := node.actions ++ [{ rule, resolvedRole := some role }] }
          roleKeys := role.toResolvedModuleAddress :: a.roleKeys
          resolver := s }

def resolveActorAction (fuel : Nat) (rule : ModuleActionRule) (a : ActionState) :
    Outcome ActionState := do
  let node := a.node
  let (resolvedActor, s) ← match rule.of with
    | none => (.ok (none, a.resolver) : Outcome (Option ResolvedActorReference × ResolverState))
    | some rawOf => do
      let (target, s) ← resolveReference definitions (resolveNode definitions fuel)
        node.declaringModuleUri rawOf a.resolver
      if !isSelfOrAncestor node target.address then
        refuse .modulesConfigureInvalidActionOfNotAnAncestor ("actor target '" ++ rawOf ++
          "' is not an ancestor of '" ++ node.declaringModulePath ++ "' in '" ++
          node.declaringModuleUri ++ "'.")
      else
        .ok (some { toResolvedModuleAddress := target.address, who := rule.who, rawOf,
                    physicalDepth := target.physicalDepth }, s)
  let actorKey := (rule.who, resolvedActor.map (·.toResolvedModuleAddress))
  if a.actorKeys.contains actorKey then
    refuse .modulesConfigureDuplicateActorInRuleSet ("duplicate canonical actor '" ++
      rule.who.getD "undefined" ++ "' at '" ++ node.declaringModulePath ++ "'.")
  else
    .ok { a with
          node := { node with actions := node.actions ++ [{ rule, resolvedActor }] }
          actorKeys := actorKey :: a.actorKeys
          resolver := s }

def resolveActions (fuel : Nat) (requireKeyAgreement : Bool) (node : ResolvedModuleNode)
    (s : ResolverState) : Outcome ActionState :=
  node.declaredRuleSet.directives.actions.foldlM (fun a rule =>
    match rule.role with
    | none => resolveActorAction definitions fuel rule a
    | some rawRole => resolveRoleAction definitions fuel requireKeyAgreement rule rawRole a)
    { node, resolver := s }

/-- Resolving an action finds its nodes resolved already, so the nodes to go through are fixed. -/
def resolveAllActions (fuel : Nat) (requireKeyAgreement : Bool) (s : ResolverState) :
    Outcome (List ResolvedModuleNode × ResolverState) :=
  s.nodes.foldlM (fun done entry => do
    let a ← resolveActions definitions fuel requireKeyAgreement entry.2 done.2
    .ok (done.1 ++ [a.node], a.resolver)) ([], s)

def resolveDefinitions (fuel : Nat) : Outcome ResolverState :=
  definitions.foldlM (fun s entry =>
    resolveStructure definitions fuel entry.1 entry.2.declaredStructure "" s) {}

end ModuleGraphResolver

def resolveModuleGraph (normalizeModuleUrl : NormalizeModuleUrl) (fuel : Nat)
    (definition : ModuleDefinition) (getDefinition : String → Option ModuleDefinition)
    (requireKeyAgreement : Bool) : Outcome ResolvedModuleGraph := do
  let loaded ← loadDefinition normalizeModuleUrl getDefinition fuel definition {}
  let definitions := loaded.visited
  let s ← ModuleGraphResolver.resolveDefinitions definitions fuel
  let (nodes, _) ← ModuleGraphResolver.resolveAllActions definitions fuel requireKeyAgreement s
  .ok { rootModuleUri := definition.module
        definitionsByUri := definitions
        nodesByDeclaredPath :=
          (nodes.filter (·.declaringModuleUri = definition.module)).map
            fun node => (node.declaringModulePath, node) }

/-- The graph of an installed module, under definitions that are all fetched beforehand. -/
def loadModuleGraph (normalizeModuleUrl : NormalizeModuleUrl) (fuel : Nat)
    (fetchModuleDefinition : String → Option ModuleDefinition) (moduleUri : String) :
    Outcome ResolvedModuleGraph := do
  match fetchModuleDefinition moduleUri with
  | none => refuse .moduleAuthorizationModuleNotFound ("unable to find module definition for " ++
      moduleUri)
  | some root =>
    let definitions ← preloadModuleDefinitions fuel root fetchModuleDefinition
    resolveModuleGraph normalizeModuleUrl fuel root (fun uri => definitions.lookup uri) true

/-- The node a write is checked against. -/
def getRecordNode (modulePath : String) (graph : ResolvedModuleGraph) :
    Except Failure ResolvedModuleNode :=
  match graph.nodesByDeclaredPath.lookup modulePath with
  | none => .error (.dwnError ⟨.moduleAuthorizationInvalidType,
      "no local record type defined for modulePath " ++ modulePath⟩)
  | some node =>
    if node.kind = .ref then
      .error (.dwnError ⟨.moduleAuthorizationRefNodeWriteNotAllowed, "modulePath '" ++ modulePath ++
        "' is a virtual reference, not a local record."⟩)
    else .ok node

end EnboxDwn
