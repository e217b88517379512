import EnboxDwn.ModuleGraph

/-! What an update of a module must keep: its own aliases and the physical parents of its
attachments, and the contracts that unchanged dependents import from it. -/
namespace EnboxDwn

namespace ModuleUpgrade

def incompatible {α : Type} (consumer path contract : String) : Except Failure α :=
  .error (.dwnError ⟨.modulesConfigureIncompatibleContractUpdate, "module '" ++ consumer ++
    "' path '" ++ path ++ "' has an incompatible " ++ contract ++ "; use a new module URI"⟩)

def sameRecordAddress (left right : ResolvedModuleNode) : Bool :=
  left.owningModuleUri == right.owningModuleUri && left.owningModulePath == right.owningModulePath

def ancestry (physicalAncestors : List ResolvedAncestorStep) : List (String × String) :=
  physicalAncestors.map fun step => (step.owningModuleUri, step.owningModulePath)

/-- Compared as JSON text, in which an undefined property is left out. -/
structure AttachmentContract where
  owner : String × String
  ancestors : List (String × String)
  role : Bool
  squash : Bool
  schema : Option String
  formats : Option (List String)
  encrypted : Bool
  deriving DecidableEq

def attachmentContract (node : ResolvedModuleNode) : AttachmentContract where
  owner := (node.owningModuleUri, node.owningModulePath)
  ancestors := ancestry node.physicalAncestors
  role := node.ruleSet.directives.role
  squash := node.ruleSet.directives.squash
  schema := node.recordType.schema
  formats := node.recordType.dataFormats.map fun formats =>
    formats.eraseDups.insertionSort fun a b => lexicographicalCompare a b ≤ 0
  encrypted := node.recordType.encryptionRequired

structure RoleContract where
  owner : String × String
  ancestors : List (String × String)
  parentDepth : Nat
  parent : Option (String × String)
  role : Bool
  deriving DecidableEq

def roleContract (role : ResolvedRoleReference) : RoleContract where
  owner := (role.owningModuleUri, role.owningModulePath)
  ancestors := ancestry role.physicalAncestors
  parentDepth := role.parentPhysicalDepth
  parent := role.parentAncestor.map fun a => (a.owningModuleUri, a.owningModulePath)
  role := role.ruleSet.directives.role

/-- Includes the path itself and every descendant that still has stored records. -/
def hasStoredRecordsInSubtree (storedPaths : List String) (path : String) : Bool :=
  storedPaths.any fun stored => stored == path || startsWith stored (path ++ "/")

/-- Existing aliases may be removed when unused, but cannot be renamed or retargeted. -/
def validateUsesAliases (previous incoming : ModuleDefinition) : Except Failure Unit :=
  previous.uses.forM fun (usesAlias, uri) =>
    let nextUri := incoming.uses.lookup usesAlias
    let renamed := nextUri.isNone &&
      incoming.uses.any fun (nextAlias, target) => nextAlias ≠ usesAlias && target == uri
    if nextUri.any (· ≠ uri) || renamed then
      .error (.dwnError ⟨.modulesConfigureInvalidUsesUpdate, "module '" ++ incoming.module ++
        "' cannot rename or retarget uses alias '" ++ usesAlias ++ "'"⟩)
    else .ok ()

/-- Keeps each surviving node's kind and each retained reference's name and physical parent. -/
def validateExistingNodeBinding (moduleUri path : String) (oldNode : ResolvedModuleNode)
    (newGraph : ResolvedModuleGraph) (storedPaths : List String) : Except Failure Unit := do
  let newNode := newGraph.nodesByDeclaredPath.lookup path
  if newNode.any (·.kind ≠ oldNode.kind) then incompatible moduleUri path "node kind"
  else if oldNode.kind ≠ .ref then .ok ()
  else if newGraph.nodesByDeclaredPath.any fun (_, node) => node.kind == .ref &&
      node.declaringModulePath ≠ path && sameRecordAddress oldNode node then
    incompatible moduleUri path "attachment name"
  else
    match newNode with
    | none =>
      if hasStoredRecordsInSubtree storedPaths path then
        incompatible moduleUri path "attachment parent"
      else .ok ()
    | some newNode =>
      if oldNode.declaredRuleSet.directives.ref ≠ newNode.declaredRuleSet.directives.ref ∨
          !sameRecordAddress oldNode newNode ∨
          ancestry oldNode.physicalAncestors ≠ ancestry newNode.physicalAncestors then
        incompatible moduleUri path "attachment parent"
      else .ok ()

def validateModuleUpgrade (previous incoming : ModuleDefinition)
    (oldGraph newGraph : ResolvedModuleGraph) (storedPaths : List String) :
    Except Failure Unit := do
  validateUsesAliases previous incoming
  oldGraph.nodesByDeclaredPath.forM fun (path, oldNode) =>
    validateExistingNodeBinding incoming.module path oldNode newGraph storedPaths
  -- A temporary removal must not erase the physical binding of retained records.
  newGraph.nodesByDeclaredPath.forM fun (path, node) =>
    if node.kind = .ref ∧ (oldGraph.nodesByDeclaredPath.lookup path).isNone ∧
        hasStoredRecordsInSubtree storedPaths path then
      incompatible incoming.module path "retained record parent binding"
    else .ok ()

/-- An unchanged consumer must resolve each role and actor rule to the same imported contract. -/
def validateImportedActionContracts (moduleUri path : String)
    (oldNode newNode : ResolvedModuleNode) : Except Failure Unit :=
  oldNode.actions.zipIdx.forM fun (previous, index) => do
    let incoming := newNode.actions[index]?
    match previous.resolvedRole with
    | none => pure ()
    | some role =>
      if ((incoming.bind (·.resolvedRole)).map roleContract) = some (roleContract role) then pure ()
      else
        incompatible moduleUri path
          ("role '" ++ previous.rule.role.getD "undefined" ++ "' identity or context")
    match previous.resolvedActor with
    | none => pure ()
    | some actor =>
      if incoming.bind (·.resolvedActor) = some actor then pure ()
      else
        incompatible moduleUri path
          ("actor '" ++ previous.rule.of.getD "undefined" ++ "' identity or ancestry")

/-- Compares only contracts explicitly imported by an unchanged reverse dependent. -/
def validateImportedModuleContracts (oldGraph newGraph : ResolvedModuleGraph) :
    Except Failure Unit :=
  oldGraph.nodesByDeclaredPath.forM fun (path, oldNode) =>
    match newGraph.nodesByDeclaredPath.lookup path with
    | none => incompatible oldGraph.rootModuleUri path "missing path"
    | some newNode => do
      if oldNode.kind = .ref ∧ attachmentContract oldNode ≠ attachmentContract newNode then
        incompatible oldGraph.rootModuleUri path
          "attachment identity, ancestry, representation, or lifecycle"
      validateImportedActionContracts oldGraph.rootModuleUri path oldNode newNode

end ModuleUpgrade

end EnboxDwn
