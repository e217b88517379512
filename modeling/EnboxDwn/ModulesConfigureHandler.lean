import EnboxDwn.ModuleUpgrade
import EnboxDwn.RecordsHandlers

/-! The handler of a module configuration: the checks of its composition and of the update it
makes, the put of the new configuration, the demotion of those it found, and the purge of the
records that no configuration admits any more. -/
namespace EnboxDwn
open Journal DepthFirst MessageStore

variable [P : Platform]

namespace ModulesConfigure

def stored (m : ModulesConfigureMessage) : StoredMessage := { message := .modulesConfigure m }

end ModulesConfigure

def StoredMessage.asModulesConfigure (m : StoredMessage) : Option ModulesConfigureMessage :=
  match m.message with
  | .modulesConfigure c => some c
  | _ => none

inductive StoredInitialWriteConfigValidity where
  | valid | invalid | unknown
  deriving DecidableEq, Repr

/-- What the handler is given. A message stands for its signed content, so the definition it
carries and whether a write is encrypted are functions of it. -/
structure ModulesConfigureDependencies where
  definition : ModulesConfigureMessage → ModuleDefinition
  definition_module : ∀ m, (definition m).module = m.descriptor.definitionModule
  encrypted : RecordsWriteMessage → Bool
  parse : ModulesConfigureMessage → Except Failure Unit
  authenticate : ModulesConfigureMessage → Except Failure Unit
  authorizeModulesConfigure : Stores → Did → ModulesConfigureMessage → Except Failure Unit
  normalizeModuleUrl : NormalizeModuleUrl
  coreModules : String → Option ModuleDefinition
  /-- How deep calls may nest before the runtime's stack ends. -/
  callDepth : Nat
  getStoredInitialWriteConfigValidity :
    Stores → Did → RecordsWriteMessage → StoredInitialWriteConfigValidity
  hasDataStore : Bool := true

namespace ModulesConfigureHandler

/-! ## Reading configurations -/

def configureFilter (module : String) : Filter :=
  [Filters.equalText "interface" "Modules", Filters.equalText "method" "Configure",
    Filters.equalText "module" module]

def latestFilter : Filter :=
  [Filters.equalText "interface" "Modules", Filters.equalText "method" "Configure",
    Filters.equalFlag "isLatestBaseState" true]

def recordsWriteFilter (module : String) : Filter :=
  [Filters.equalText "interface" "Records", Filters.equalText "method" "Write",
    Filters.equalText "module" module]

/-- The configuration active at a time, else the earliest retained one; without a time, the
latest. -/
def queryModuleConfigure (log : Log) (module : String) (messageTimestamp : Option Timestamp) :
    Option StoredMessage :=
  match messageTimestamp with
  | none =>
    (query log [configureFilter module ++ [Filters.equalFlag "isLatestBaseState" true]]).getLast?
  | some t =>
    match (query log [configureFilter module ++
        [("messageTimestamp", .range none none none (some (.string t)))]]).getLast? with
    | some m => some m
    | none => (query log [configureFilter module]).head?

def fetchModuleDefinition (deps : ModulesConfigureDependencies) (log : Log) (moduleUri : String)
    (messageTimestamp : Option Timestamp) : Except Failure ModuleDefinition :=
  match deps.coreModules moduleUri with
  | some coreDefinition => .ok coreDefinition
  | none =>
    match (queryModuleConfigure log moduleUri messageTimestamp).bind
        StoredMessage.asModulesConfigure with
    | none => .error (.dwnError ⟨.moduleAuthorizationModuleNotFound,
        "unable to find module definition for " ++ moduleUri⟩)
    | some m => .ok (deps.definition m)

/-! ## Composition -/

/-- The loader with a fetch that throws instead of answering `undefined`. -/
def preloadGraphThrowing (fetchDefinition : String → Except Failure ModuleDefinition) :
    Graph String ModuleDefinition String Failure :=
  let graph := preloadGraph fun uri => (fetchDefinition uri).toOption
  { graph with
    fetch := fun definition uri =>
      match fetchDefinition uri with
      | .error e => .error e
      | .ok _ => graph.fetch definition uri }

def preloadOrThrow (callDepth : Nat) (root : ModuleDefinition)
    (fetchDefinition : String → Except Failure ModuleDefinition) :
    Outcome (List (String × ModuleDefinition)) :=
  (visit (preloadGraphThrowing fetchDefinition) callDepth root {}).map Search.visited

/-- A recursion that exceeds the stack throws as well. -/
def ofOutcome {α : Type} : Outcome α → Except Failure α
  | .ok a => .ok a
  | .error (.failed e) => .error e
  | .error .outOfFuel => .error .stackOverflow

/-- The closure of a definition, and the graph over it. -/
def resolveClosure (deps : ModulesConfigureDependencies) (definition : ModuleDefinition)
    (fetchDefinition : String → Except Failure ModuleDefinition) :
    Except Failure (List (String × ModuleDefinition) × ResolvedModuleGraph) := do
  let closure ← ofOutcome (preloadOrThrow deps.callDepth definition fetchDefinition)
  let graph ← ofOutcome (resolveModuleGraph deps.normalizeModuleUrl deps.callDepth definition
    (fun uri => closure.lookup uri) true)
  return (closure, graph)

def fetchComposed (deps : ModulesConfigureDependencies) (tenant : Did) (log : Log)
    (messageTimestamp : Option Timestamp) (uri : String) : Except Failure ModuleDefinition :=
  match fetchModuleDefinition deps log uri messageTimestamp with
  | .error (.dwnError ⟨.moduleAuthorizationModuleNotFound, _⟩) =>
    .error (.dwnError ⟨.modulesConfigureComposedModuleNotInstalled, "composed module '" ++ uri ++
      "' is not installed for tenant '" ++ tenant ++ "' at " ++
      messageTimestamp.getD "the active snapshot"⟩)
  | r => r

/-- The governing-time closure is loaded, then its complete graph is validated. -/
def validateCompositionDependencies (deps : ModulesConfigureDependencies) (tenant : Did)
    (log : Log) (definition : ModuleDefinition) (messageTimestamp : Option Timestamp) :
    Except Failure Unit := do
  let _ ← resolveClosure deps definition (fetchComposed deps tenant log messageTimestamp)

/-! ## Updates -/

/-- A map from module URIs to definitions, in insertion order. -/
abbrev Definitions := List (String × ModuleDefinition)

def Definitions.set (definitions : Definitions) (uri : String) (definition : ModuleDefinition) :
    Definitions :=
  if (definitions.lookup uri).isSome then
    definitions.map fun entry => if entry.1 = uri then (uri, definition) else entry
  else definitions ++ [(uri, definition)]

def fetchInstalled (deps : ModulesConfigureDependencies) (log : Log) (snapshot : Definitions)
    (uri : String) : Except Failure ModuleDefinition :=
  match snapshot.lookup uri with
  | some installed => .ok installed
  | none => fetchModuleDefinition deps log uri none

/-- The graph of a definition under a snapshot, which keeps what had to be fetched. -/
def snapshotGraph (deps : ModulesConfigureDependencies) (log : Log) (definition : ModuleDefinition)
    (snapshot : Definitions) : Except Failure (ResolvedModuleGraph × Definitions) := do
  let (closure, graph) ← resolveClosure deps definition (fetchInstalled deps log snapshot)
  return (graph, (closure.filter (·.1 ≠ definition.module)).foldl
    (fun snapshot entry => snapshot.set entry.1 entry.2) snapshot)

def activeDefinitions (deps : ModulesConfigureDependencies) (log : Log) : Definitions :=
  ((query log [latestFilter]).filterMap StoredMessage.asModulesConfigure).foldl
    (fun definitions m => definitions.set (deps.definition m).module (deps.definition m)) []

/-- One pass over the definitions of both snapshots. -/
def expandAffected (definitions : List ModuleDefinition) (affected : List String) : List String :=
  definitions.foldl (fun affected definition =>
    if definition.module ∉ affected ∧ definition.uses.any (fun entry => affected.contains entry.2)
    then affected ++ [definition.module]
    else affected) affected

/-- Passes are repeated until one adds nothing; each pass before adds a module. -/
def affectedModules (definitions : List ModuleDefinition) (changed : String) : List String :=
  (expandAffected definitions)^[definitions.length] [changed]

structure DependentWalk where
  visited : List String := []
  oldDefinitions : Definitions
  newDefinitions : Definitions

/-- What a coded failure of a dependent is reported as; any other failure is rethrown. -/
def breaksDependent {α : Type} (incoming uri : String) : Except Failure α → Except Failure α
  | .error (.dwnError e) => .error (.dwnError ⟨.modulesConfigureIncompatibleContractUpdate,
      "module '" ++ incoming ++ "' update breaks dependent '" ++ uri ++ "': " ++ e.detail⟩)
  | r => r

def compareDependent (deps : ModulesConfigureDependencies) (log : Log) (uri : String)
    (definition : ModuleDefinition) (w : DependentWalk) : Except Failure DependentWalk :=
  match w.oldDefinitions.lookup uri with
  | none => .error .typeError
  | some oldDefinition => do
    let (before, oldDefinitions) ← snapshotGraph deps log oldDefinition w.oldDefinitions
    let (after, newDefinitions) ← snapshotGraph deps log definition w.newDefinitions
    ModuleUpgrade.validateImportedModuleContracts before after
    return { w with oldDefinitions, newDefinitions }

/-- Dependencies are validated before the contracts that consume them. -/
def validateDependent (deps : ModulesConfigureDependencies) (log : Log) (incoming : String)
    (affected : List String) : Nat → String → DependentWalk → Except Failure DependentWalk
  | 0, _, _ => .error .stackOverflow
  | depth + 1, uri, w =>
    if uri ∈ w.visited then .ok w
    else
      match w.newDefinitions.lookup uri with
      | none => .error .typeError
      | some definition => do
        let w ← ((definition.uses.map Prod.snd).filter affected.contains).foldlM
          (fun w dependency => validateDependent deps log incoming affected depth dependency w)
          { w with visited := uri :: w.visited }
        if uri = incoming then return w
        else breaksDependent incoming uri (compareDependent deps log uri definition w)

def storedPaths (log : Log) (module : String) : List String :=
  ((query log [recordsWriteFilter module]).filterMap StoredMessage.asRecordsWrite).map
    fun write => write.descriptor.modulePath

/-- A reference declared in one graph and at no path of the other. -/
def dropsAttachment (graph other : ResolvedModuleGraph) : Bool :=
  graph.nodesByDeclaredPath.any fun (path, node) =>
    node.kind == .ref && (other.nodesByDeclaredPath.lookup path).isNone

/-- Compares the active snapshots before and after the update. -/
def validateCompositionUpgradeCompatibility (deps : ModulesConfigureDependencies) (log : Log)
    (previous incoming : ModuleDefinition) : Except Failure Unit := do
  let installed := (activeDefinitions deps log).set previous.module previous
  let (oldGraph, oldDefinitions) ← snapshotGraph deps log previous installed
  let (newGraph, newDefinitions) ← snapshotGraph deps log incoming
    (installed.set incoming.module incoming)
  let storedPaths := if dropsAttachment oldGraph newGraph || dropsAttachment newGraph oldGraph
    then storedPaths log incoming.module else []
  ModuleUpgrade.validateModuleUpgrade previous incoming oldGraph newGraph storedPaths
  let affected := affectedModules ((oldDefinitions ++ newDefinitions).map Prod.snd) incoming.module
  let _ ← (affected.insertionSort fun a b => lexicographicalCompare a b ≤ 0).foldlM
    (fun w uri => validateDependent deps log incoming.module affected deps.callDepth uri w)
    { oldDefinitions, newDefinitions }

/-- Validates the installed graph only when the configuration will become the active head. -/
def validateActiveConfiguration (deps : ModulesConfigureDependencies) (tenant : Did) (log : Log)
    (incoming : ModuleDefinition) (previous : Option ModuleDefinition) : Except Failure Unit :=
  match previous with
  | some previous => validateCompositionUpgradeCompatibility deps log previous incoming
  -- A late first installation must also bind against today's active providers.
  | none => validateCompositionDependencies deps tenant log incoming none

/-! ## Encryption policy -/

def encryptionRequired (definition : ModuleDefinition) (typeName : String) : Bool :=
  (definition.types.lookup typeName).any (·.encryptionRequired)

def hasEncryptionPolicyChange (previous incoming : ModuleDefinition) : Bool :=
  ((previous.types ++ incoming.types).map Prod.fst).any fun typeName =>
    encryptionRequired previous typeName != encryptionRequired incoming typeName

def getRuleSetAtPath (rules : RuleSets) : List String → Option DeclaredRuleSet
  | [] => none
  | [segment] => rules.find? segment
  | segment :: segments => (rules.find? segment).bind fun ruleSet =>
      getRuleSetAtPath ruleSet.children segments

/-- A stored record keeps its representation as long as its path exists. -/
def validateStoredRepresentation (deps : ModulesConfigureDependencies)
    (incoming : ModuleDefinition) (write : RecordsWriteMessage) : Except Failure Unit :=
  let modulePath := write.descriptor.modulePath
  if EncryptionControl.isControlMessage write then .ok ()
  else if (getRuleSetAtPath incoming.declaredStructure (ModulePath.split modulePath)).isNone then
    .ok ()
  else if deps.encrypted write =
      encryptionRequired incoming ((ModulePath.split modulePath).getLastD "") then .ok ()
  else .error (.dwnError ⟨.modulesConfigureEncryptionPolicyImmutable,
    "cannot change encryption policy for module path '" ++ modulePath ++
      "' after records exist; install the changed definition under a new module URI."⟩)

/-- The writes it had to read, for the purge to reuse. -/
def validateEncryptionPolicyIsImmutable (deps : ModulesConfigureDependencies) (log : Log)
    (incoming : ModuleDefinition) (previous : Option ModuleDefinition) :
    Except Failure (Option (List StoredMessage)) :=
  match previous with
  | none => .ok none
  | some previous =>
    if !hasEncryptionPolicyChange previous incoming then .ok none
    else do
      let messages := query log [recordsWriteFilter incoming.module]
      (messages.filterMap StoredMessage.asRecordsWrite).forM
        (validateStoredRepresentation deps incoming)
      return some messages

/-! ## Handling -/

/-- Whether the incoming configuration is newer than every one that was found. -/
def incomingMessageIsNewest (m : ModulesConfigureMessage) (existingMessages : List StoredMessage) :
    Bool :=
  (Message.getNewestMessage existingMessages).all fun newest =>
    Message.isNewer (ModulesConfigure.stored m) newest

/-- The configurations found that are not the newest message after the put. -/
def displacedConfigurations (m : ModulesConfigureMessage) (existingMessages : List StoredMessage) :
    List StoredMessage :=
  if incomingMessageIsNewest m existingMessages then existingMessages
  else existingMessages.filter fun e => some e ≠ Message.getNewestMessage existingMessages

/-- The message is stored as the latest state or as a historical version. -/
def putConfiguration (m : ModulesConfigureMessage) (existingMessages : List StoredMessage)
    (log : Log) : Except Failure (PutResult × Log) :=
  put log (ModulesConfigure.stored m)
    (ModulesConfigure.constructIndexes m (incomingMessageIsNewest m existingMessages))

/-- Demotes stored metadata without revalidating the definition. -/
def demoteConfiguration (message : StoredMessage) (log : Log) : Except Failure (Unit × Log) :=
  match message.asModulesConfigure with
  | none => .error .typeError
  | some m => updateIndexes log (Message.getCid message) (ModulesConfigure.constructIndexes m false)

def markConfigurationHistorical (tenant : Did) (message : StoredMessage) : Task Unit :=
  Stores.withLog tenant (demoteConfiguration message)

def isDuplicate (m : ModulesConfigureMessage) (existingMessages : List StoredMessage) : Bool :=
  existingMessages.any fun e => Message.getCid e = Message.getCid (ModulesConfigure.stored m)

/-- What the checks before the put leave to be done. -/
structure Admission where
  existingMessages : List StoredMessage
  prefetchedRecordsWrites : Option (List StoredMessage)

def previousDefinition (deps : ModulesConfigureDependencies)
    (existingMessages : List StoredMessage) : Option ModuleDefinition :=
  ((Message.getNewestMessage existingMessages).bind StoredMessage.asModulesConfigure).map
    deps.definition

/-- The checks against the configurations found. Historical imports are validated under their own
governing-time graph only, never under today's dependents. -/
def admitUpdate (deps : ModulesConfigureDependencies) (tenant : Did) (m : ModulesConfigureMessage)
    (log : Log) (existingMessages : List StoredMessage) : Except Reply Admission := do
  let prefetchedRecordsWrites ← RecordsWriteHandler.orReply
    (validateEncryptionPolicyIsImmutable deps log (deps.definition m)
      (previousDefinition deps existingMessages)) 400
  RecordsWriteHandler.orReply
    (if incomingMessageIsNewest m existingMessages then
      validateActiveConfiguration deps tenant log (deps.definition m)
        (previousDefinition deps existingMessages)
    else .ok ()) 400
  return { existingMessages, prefetchedRecordsWrites }

/-- Everything before the put. Nothing is written until then. -/
def admission (deps : ModulesConfigureDependencies) (tenant : Did) (m : ModulesConfigureMessage)
    (s : Stores) : Except Reply Admission := do
  RecordsWriteHandler.orReply (deps.parse m) 400
  RecordsWriteHandler.orReply (deps.authenticate m) 401
  RecordsWriteHandler.orReply (deps.authorizeModulesConfigure s tenant m) 401
  RecordsWriteHandler.orReply (validateCompositionDependencies deps tenant (s.messages tenant)
    (deps.definition m) m.descriptor.messageTimestamp) 400
  if isDuplicate m (query (s.messages tenant) [configureFilter (deps.definition m).module]) then
    .error { status := conflict }
  else
    admitUpdate deps tenant m (s.messages tenant)
      (query (s.messages tenant) [configureFilter (deps.definition m).module])

/-- Reconciles one initial write; the answer is whether its record was checked. -/
def purgeInvalidInitialWrite (deps : ModulesConfigureDependencies) (tenant : Did)
    (write : RecordsWriteMessage) : Task Bool :=
  if !RecordsWrite.isInitialWrite write then pure false
  else do
    let validity ← Program.read fun s =>
      deps.getStoredInitialWriteConfigValidity s tenant write
    if validity ≠ .invalid then return true
    else
      let recordMessages ← Stores.query tenant [recordFilter write.recordId]
      if recordMessages.isEmpty then return true
      else
        StorageController.purgeRecordMessages tenant recordMessages
        return true

/-- Later validity checks observe earlier purges. -/
def purgeRecords (deps : ModulesConfigureDependencies) (tenant : Did) :
    List RecordsWriteMessage → List String → Task Unit
  | [], _ => pure ()
  | write :: writes, checkedRecordIds =>
    if write.recordId ∈ checkedRecordIds then purgeRecords deps tenant writes checkedRecordIds
    else do
      let checked ← purgeInvalidInitialWrite deps tenant write
      purgeRecords deps tenant writes
        (if checked then write.recordId :: checkedRecordIds else checkedRecordIds)

def purgeRecordsInvalidatedByModuleConfig (deps : ModulesConfigureDependencies) (tenant : Did)
    (module : String) (prefetchedRecordsWrites : Option (List StoredMessage)) : Task Unit :=
  if !deps.hasDataStore then pure ()
  else do
    let recordsWrites ← match prefetchedRecordsWrites with
      | some messages => pure messages
      | none => Stores.query tenant [recordsWriteFilter module]
    purgeRecords deps tenant (recordsWrites.filterMap StoredMessage.asRecordsWrite) []

/-- The put, then the demotions, then the purges. -/
def install (deps : ModulesConfigureDependencies) (tenant : Did) (m : ModulesConfigureMessage)
    (a : Admission) : Task Reply := do
  let putResult ← Stores.withLog tenant (putConfiguration m a.existingMessages)
  Program.forEach (markConfigurationHistorical tenant)
    (displacedConfigurations m a.existingMessages)
  purgeRecordsInvalidatedByModuleConfig deps tenant (deps.definition m).module
    a.prefetchedRecordsWrites
  return { status := { code := 202, detail := "Accepted" }, position := putResult.position }

def handle (deps : ModulesConfigureDependencies) (tenant : Did) (m : ModulesConfigureMessage) :
    Task Reply := do
  match ← Program.read (admission deps tenant m) with
  | .error reply => return reply
  | .ok a => install deps tenant m a

end ModulesConfigureHandler

end EnboxDwn
