import EnboxDwn.Lib.Interaction
import EnboxDwn.PushPage
import EnboxDwn.ReplicationLinkStore
import EnboxDwn.SyncScope

/-! A one-shot drain of all registered sync targets to one endpoint. What the coordinator learns of
the outside is an answer to one of the operations below; the signal and the topology may change
between any two of them. -/
namespace EnboxDwn.Agent.SyncDrainCoordinator

open Interaction

/-! ## Operations -/

/-- No list of modules stands for `'all'`. -/
structure SyncIdentityOptions where
  delegateDid : Option String := none
  modules : Option (List String) := none
  deriving DecidableEq, Repr

inductive SyncIdentityStoreEntry where
  | valid (did : String) (options : SyncIdentityOptions)
  | corrupt (did : String) (error : String)
  deriving DecidableEq, Repr

/-- The registrations in order, and what the enumeration fails with after them, if it does. -/
structure Enumeration where
  entries : List SyncIdentityStoreEntry
  failure : Option String := none

structure SyncTarget where
  did : String
  dwnUrl : String
  scope : SyncScope
  deriving DecidableEq, Repr

structure SyncDurableFeedReconcileResult where
  aborted : Bool := false
  converged : Option Bool := none
  localFingerprint : Option String := none
  remoteFingerprint : Option String := none
  pushFailures : List PushFailure := []

inductive Operation where
  | registerEndpoint (remoteEndpoint : String)
  | aborted
  | getTopologyGeneration
  | entries
  | buildTargetsForEndpoint (did remoteEndpoint : String) (options : SyncIdentityOptions)
  | prepareLiveTarget (target : SyncTarget)
  | reconcileTarget (target : SyncTarget) (forceQuotaProbe verifyConvergence : Bool)
  | recordPushFailures (target : SyncTarget) (failures : List PushFailure)
  | getLink (target : SyncTarget)
  | verifyConvergence (target : SyncTarget)
  | handleVerifiedDivergence (target : SyncTarget) (result : SyncDurableFeedReconcileResult)
  | clear (target : SyncTarget)
  | getActiveBlocksForTarget (target : SyncTarget)
  | recordSuccess
  | recordFailure

@[reducible] def Operation.Answer : Operation → Type
  | registerEndpoint _ => Unit
  | aborted => Bool
  | getTopologyGeneration => Nat
  | entries => Enumeration
  | buildTargetsForEndpoint _ _ _ => List SyncTarget
  | prepareLiveTarget _ => Unit
  | reconcileTarget _ _ _ => SyncDurableFeedReconcileResult
  | recordPushFailures _ _ => Unit
  | getLink _ => ReplicationLinkState
  | verifyConvergence _ => SyncDurableFeedReconcileResult
  | handleVerifiedDivergence _ _ => Bool
  | clear _ => Unit
  | getActiveBlocksForTarget _ => List String
  | recordSuccess => Unit
  | recordFailure => Unit

abbrev DrainEvent := Event Operation Operation.Answer String

abbrev DrainWorld := Interaction.World Operation Operation.Answer String Unit

abbrev Drain (α : Type) := Program Operation Operation.Answer String Unit α

/-- An aborted signal stays aborted, and the target planner only counts its topology generation up;
without a signal `aborted` is always false. -/
structure Surroundings where
  answer : Environment Operation Operation.Answer String
  aborted : List DrainEvent → Bool
  generation : List DrainEvent → Nat
  aborted_mono : ∀ {t t' : List DrainEvent}, t <+: t' → aborted t = true → aborted t' = true
  generation_mono : ∀ {t t' : List DrainEvent}, t <+: t' → generation t ≤ generation t'

def Surroundings.env (s : Surroundings) : Environment Operation Operation.Answer String :=
  fun trace op =>
    match op with
    | .aborted => .ok (s.aborted trace)
    | .getTopologyGeneration => .ok (s.generation trace)
    | op => s.answer trace op

/-! ## Results -/

inductive SyncDrainStopReason where
  | cancelled | topologyChanged
  deriving DecidableEq, Repr

structure SyncDrainTargetResult where
  tenantDid : String
  remoteEndpoint : String
  scope : Option SyncScope := none
  completed : Bool := false
  cancelled : Bool := false
  converged : Bool := false
  quotaBlocked : Bool := false
  pushCheckpoint : Option ProgressToken := none
  localFingerprint : Option String := none
  remoteFingerprint : Option String := none
  error : Option String := none
  deriving DecidableEq, Repr

structure SyncDrainResult where
  endpoint : String
  completed : Bool
  cancelled : Bool
  topologyChanged : Bool
  targets : List SyncDrainTargetResult
  error : Option String
  deriving DecidableEq, Repr

structure SyncDrainPlan where
  failures : List SyncDrainTargetResult := []
  targets : List SyncTarget := []

def drainAborted : String := "drain aborted"

def registrationsChanged : String := "sync registrations changed during drain; retry required"

def pushFailed (failures : List PushFailure) : String :=
  s!"drain push failed for {failures.length} message(s)"

def SyncDrainStopReason.message : SyncDrainStopReason → String
  | cancelled => drainAborted
  | topologyChanged => registrationsChanged

def targetError (result : SyncDurableFeedReconcileResult) (pushFailures : List PushFailure)
    (paused headChanged : Bool) (stopReason : Option SyncDrainStopReason) : Option String :=
  match stopReason with
  | some reason => some reason.message
  | none =>
    if paused then some "replication link is paused"
    else if headChanged then some "feed head changed during drain; retry required"
    else if result.aborted then some drainAborted
    else if pushFailures ≠ [] then some (pushFailed pushFailures)
    else if result.converged ≠ some true then some "feed fingerprints did not converge"
    else none

def targetConverged (result : SyncDurableFeedReconcileResult) (paused headChanged : Bool)
    (stopReason : Option SyncDrainStopReason) : Bool :=
  result.converged == some true && !paused && !headChanged && stopReason.isNone

def stoppedTarget (target : SyncTarget) (stopReason : SyncDrainStopReason) :
    SyncDrainTargetResult where
  tenantDid := target.did
  remoteEndpoint := target.dwnUrl
  scope := some target.scope
  cancelled := stopReason = .cancelled
  error := some stopReason.message

def resultError (targets : List SyncDrainTargetResult)
    (stopReason : Option SyncDrainStopReason) : Option String :=
  match stopReason with
  | some reason => some reason.message
  | none => if targets = [] then some "drain plan contained no registered sync targets" else none

def syncScopeFromModules (modules : Option (List String)) : Except Thrown SyncScope :=
  match modules with
  | none => .ok .full
  | some modules => return .moduleSet (← normalizeSyncModules modules)

def scopeForFailure (options : SyncIdentityOptions) : Option SyncScope :=
  (syncScopeFromModules options.modules).toOption

/-! ## The drain -/

section Drain
variable (s : Surroundings) (topologyGeneration : Nat)

def getStopReason : Drain (Option SyncDrainStopReason) := do
  if ← ask s.env .aborted then return some .cancelled
  let generation ← ask s.env .getTopologyGeneration
  if generation ≠ topologyGeneration then return some .topologyChanged
  return none

def planEntry (remoteEndpoint : String) (plan : SyncDrainPlan) :
    SyncIdentityStoreEntry → Drain SyncDrainPlan
  | .corrupt did error =>
    return { plan with failures := plan.failures ++
      [{ tenantDid := did, remoteEndpoint, error := some s!"corrupt sync options: {error}" }] }
  | .valid did options =>
    tryCatch
      (do
        let targets ← ask s.env (.buildTargetsForEndpoint did remoteEndpoint options)
        return { plan with targets := plan.targets ++ targets })
      fun error => return { plan with failures := plan.failures ++
        [{ tenantDid := did, remoteEndpoint, scope := scopeForFailure options, error := some error }] }

def planEntries (remoteEndpoint : String) :
    List SyncIdentityStoreEntry → SyncDrainPlan → Drain SyncDrainPlan
  | [], plan => return plan
  | entry :: entries, plan => do
    planEntries remoteEndpoint entries (← planEntry s remoteEndpoint plan entry)

def buildPlan (remoteEndpoint : String) : Drain SyncDrainPlan := do
  let enumeration ← ask s.env .entries
  let plan ← planEntries s remoteEndpoint enumeration.entries {}
  match enumeration.failure with
  | some error => throw error
  | none => return plan

def prepareLiveTargets : List SyncTarget → Drain Unit
  | [] => return
  | target :: targets => do
    if (← getStopReason s topologyGeneration).isSome then return
    ask s.env (.prepareLiveTarget target)
    prepareLiveTargets targets

def feedHeadChanged (result stability : SyncDurableFeedReconcileResult) : Bool :=
  stability.converged ≠ some true ∨ stability.localFingerprint ≠ result.localFingerprint ∨
    stability.remoteFingerprint ≠ result.remoteFingerprint

def restated (result stability : SyncDurableFeedReconcileResult) :
    SyncDurableFeedReconcileResult :=
  { result with
    aborted := result.aborted || stability.aborted
    converged := some !feedHeadChanged result stability
    localFingerprint := stability.localFingerprint.or result.localFingerprint
    remoteFingerprint := stability.remoteFingerprint.or result.remoteFingerprint }

/-- Returns whether the feed head changed, and the result with what was seen. -/
def verifyStability (target : SyncTarget) (result : SyncDurableFeedReconcileResult)
    (link : ReplicationLinkState) (pushFailures : List PushFailure) :
    Drain (Bool × SyncDurableFeedReconcileResult) := do
  if link.status = .paused ∨ result.converged ≠ some true ∨ pushFailures ≠ [] then
    return (false, result)
  if (← getStopReason s topologyGeneration).isSome then return (false, result)
  let stability ← ask s.env (.verifyConvergence target)
  return (feedHeadChanged result stability, restated result stability)

def resolveDivergence (target : SyncTarget) (result : SyncDurableFeedReconcileResult)
    (headChanged : Bool) : Drain Bool := do
  if (← getStopReason s topologyGeneration).isSome then return false
  if result.converged = some false ∧ headChanged = false then
    ask s.env (.handleVerifiedDivergence target result)
  else
    if result.converged = some true then ask s.env (.clear target)
    return false

def concludeTarget (target : SyncTarget) (result : SyncDurableFeedReconcileResult)
    (link : ReplicationLinkState) : Drain SyncDrainTargetResult := do
  let pushFailures := result.pushFailures
  let (headChanged, result) ← verifyStability s topologyGeneration target result link pushFailures
  let divergenceExplained ← resolveDivergence s topologyGeneration target result headChanged
  let stopReason ← getStopReason s topologyGeneration
  let blocks ← ask s.env (.getActiveBlocksForTarget target)
  -- an omission that is resolved counts as convergence
  let result := { result with
    converged := if divergenceExplained ∧ blocks = [] then some true else result.converged }
  let error := targetError result pushFailures (link.status = .paused) headChanged stopReason
  return {
    tenantDid := target.did
    remoteEndpoint := target.dwnUrl
    scope := some target.scope
    completed := error.isNone
    cancelled := stopReason = some .cancelled
    converged := targetConverged result (link.status = .paused) headChanged stopReason
    quotaBlocked := blocks ≠ []
    pushCheckpoint := link.push.contiguousAppliedToken
    localFingerprint := result.localFingerprint
    remoteFingerprint := result.remoteFingerprint
    error }

def performTargetDrain (target : SyncTarget) : Drain SyncDrainTargetResult := do
  let result ← ask s.env (.reconcileTarget target true true)
  if result.pushFailures ≠ [] then ask s.env (.recordPushFailures target result.pushFailures)
  let link ← ask s.env (.getLink target)
  concludeTarget s topologyGeneration target result link

def drainTarget (target : SyncTarget) : Drain SyncDrainTargetResult := do
  match ← getStopReason s topologyGeneration with
  | some stopReason => return stoppedTarget target stopReason
  | none =>
    tryCatch (performTargetDrain s topologyGeneration target) fun error => do
      match ← getStopReason s topologyGeneration with
      | some stopReason => return stoppedTarget target stopReason
      | none =>
        return {
          tenantDid := target.did
          remoteEndpoint := target.dwnUrl
          scope := some target.scope
          error := some error }

def drainTargets : List SyncTarget → Drain (List SyncDrainTargetResult)
  | [] => return []
  | target :: targets => do
    let result ← drainTarget s topologyGeneration target
    return result :: (← drainTargets targets)

def updateConnectivity (targets : List SyncDrainTargetResult) (interrupted : Bool) : Drain Unit := do
  if targets = [] then return
  if targets.any fun target => target.completed || target.quotaBlocked then
    ask s.env .recordSuccess
  else if interrupted then return
  else ask s.env .recordFailure

end Drain

/-- Drain every registered sync target to one normalized remote endpoint. -/
def drain (s : Surroundings) (remoteEndpoint : String) : Drain SyncDrainResult := do
  ask s.env (.registerEndpoint remoteEndpoint)
  let topologyGeneration ← ask s.env .getTopologyGeneration
  let plan ← buildPlan s remoteEndpoint
  prepareLiveTargets s topologyGeneration plan.targets
  let targets := plan.failures ++ (← drainTargets s topologyGeneration plan.targets)
  let stopReason ← getStopReason s topologyGeneration
  let cancelled := stopReason = some .cancelled ∨ targets.any fun target => target.cancelled
  let topologyChanged := stopReason = some .topologyChanged
  let completed := targets ≠ [] ∧ ¬ cancelled ∧ ¬ topologyChanged ∧
    targets.all fun target => target.completed
  let error := resultError targets stopReason
  updateConnectivity s targets stopReason.isSome
  return {
    endpoint := remoteEndpoint
    completed := completed
    cancelled := cancelled
    topologyChanged := topologyChanged
    targets
    error }

end EnboxDwn.Agent.SyncDrainCoordinator
