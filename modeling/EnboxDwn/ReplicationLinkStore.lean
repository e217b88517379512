import EnboxDwn.SyncCheckpoint
import Mathlib.Logic.Function.Basic

/-! The store of replication links. Every call names a link by the copy its holder has in memory,
which may be old; the change itself is merged into the stored link under the lock of that link,
so a run is a sequence of calls with copies of any age. -/
namespace EnboxDwn.Agent

inductive LinkStatus where
  | initializing | live | repairing | paused
  deriving DecidableEq, Repr

inductive SyncConnectivityState where
  | online | offline | unknown
  deriving DecidableEq, Repr

inductive SyncDirection where
  | pull | push
  deriving DecidableEq, Repr

structure SyncLinkRecoveryState where
  error : String
  failedAt : String
  nextRetryAt : Option String := none
  deriving DecidableEq, Repr

structure LinkIdentity where
  tenantDid : String
  remoteEndpoint : String
  projectionId : String
  authorizationEpoch : String
  deriving DecidableEq, Repr

structure ReplicationLinkState extends LinkIdentity where
  status : LinkStatus
  recovery : Option SyncLinkRecoveryState := none
  pull : DirectionCheckpoint := {}
  push : DirectionCheckpoint := {}
  connectivity : SyncConnectivityState
  lastActivityAt : Option String := none
  deriving DecidableEq, Repr

def ReplicationLinkState.checkpoint (link : ReplicationLinkState) :
    SyncDirection → DirectionCheckpoint
  | .pull => link.pull
  | .push => link.push

def ReplicationLinkState.withCheckpoint (link : ReplicationLinkState)
    (checkpoint : DirectionCheckpoint) : SyncDirection → ReplicationLinkState
  | .pull => { link with pull := checkpoint }
  | .push => { link with push := checkpoint }

/-! ## Recovery diagnostics -/

def includes (s part : String) : Bool := decide (part.toList <:+: s.toList)

def terminalAuthorizationCodes : List String :=
  ["GrantAuthorizationGrantExpired", "GrantAuthorizationGrantRevoked",
    "MessagesSubscribeDeliveryAuthorizationFailed"]

def isTerminalSyncAuthorizationFailure (detail : String) : Bool :=
  terminalAuthorizationCodes.any (includes detail)

def isMissingRoleAuthorizationFailure (detail : String) : Bool :=
  includes detail "ModuleAuthorizationMatchingRoleRecordNotFound"

def isNonRetryableSyncAuthorizationFailure (detail : String) : Bool :=
  isTerminalSyncAuthorizationFailure detail || isMissingRoleAuthorizationFailure detail

def isRetryableSyncRecovery : Option SyncLinkRecoveryState → Bool
  | none => false
  | some recovery => !isNonRetryableSyncAuthorizationFailure recovery.error

/-! ## The store -/

namespace SyncReplicationLinkStore

abbrev Links := String → Option ReplicationLinkState

def buildKey (i : LinkIdentity) : String :=
  i.tenantDid ++ "^" ++ i.remoteEndpoint ++ "^" ++ i.projectionId ++ "^" ++ i.authorizationEpoch

def sameRecovery (recovery : Option SyncLinkRecoveryState) (expected : SyncLinkRecoveryState) : Bool :=
  match recovery with
  | none => false
  | some recovery => recovery.error = expected.error && recovery.failedAt = expected.failedAt &&
      recovery.nextRetryAt = expected.nextRetryAt

def assignRecovery (recovery : Option SyncLinkRecoveryState) (link : ReplicationLinkState) :
    ReplicationLinkState :=
  match recovery with
  | none => { link with recovery := none }
  | some recovery =>
    let assigned := if link.status = .paused then { recovery with nextRetryAt := none } else recovery
    { link with recovery := some assigned }

def assignStatus (status : LinkStatus) (link : ReplicationLinkState) : ReplicationLinkState :=
  let link := { link with status }
  match status with
  | .live => { link with recovery := none }
  | .paused =>
    if isRetryableSyncRecovery link.recovery then { link with recovery := none }
    else assignRecovery link.recovery link
  | .initializing | .repairing => link

/-- A stale copy does not take the token back; a token of another domain replaces it. -/
def mergeCheckpoint (persisted incoming : DirectionCheckpoint) : Except Thrown DirectionCheckpoint :=
  match incoming.contiguousAppliedToken with
  | none => .ok persisted
  | some token =>
    if !SyncCheckpoint.validateTokenDomain persisted token then .ok ⟨some token⟩
    else SyncCheckpoint.commitContiguousToken persisted token

/-- The stored link is read, changed and written back; a link that is gone stays gone. -/
def updateLink (identity : LinkIdentity)
    (mutate : ReplicationLinkState → Except Thrown ReplicationLinkState)
    (lastActivityAt : Option String) (links : Links) : Except Thrown Links :=
  match links (buildKey identity) with
  | none => .ok links
  | some persistedLink => do
    let persistedLink ← mutate persistedLink
    let persistedLink := match lastActivityAt with
      | none => persistedLink
      | some now => { persistedLink with lastActivityAt := some now }
    .ok (Function.update links (buildKey identity) (some persistedLink))

def deleteLink (identity : LinkIdentity) (links : Links) : Except Thrown Links :=
  .ok (Function.update links (buildKey identity) none)

def persistCheckpoint (link : ReplicationLinkState) (direction : SyncDirection) (now : String) :
    Links → Except Thrown Links :=
  updateLink link.toLinkIdentity (fun persistedLink => do
    let checkpoint ← mergeCheckpoint (persistedLink.checkpoint direction) (link.checkpoint direction)
    .ok (persistedLink.withCheckpoint checkpoint direction)) (some now)

def persistCheckpoints (link : ReplicationLinkState) (now : String) : Links → Except Thrown Links :=
  updateLink link.toLinkIdentity (fun persistedLink => do
    let pull ← mergeCheckpoint persistedLink.pull link.pull
    let push ← mergeCheckpoint persistedLink.push link.push
    .ok { persistedLink with pull, push }) (some now)

def resetCheckpoint (link : ReplicationLinkState) (direction : SyncDirection)
    (token : Option ProgressToken) (now : String) : Links → Except Thrown Links :=
  updateLink link.toLinkIdentity (fun persistedLink =>
    .ok (persistedLink.withCheckpoint (SyncCheckpoint.reset token) direction)) (some now)

def resetCheckpoints (link : ReplicationLinkState) (now : String) : Links → Except Thrown Links :=
  updateLink link.toLinkIdentity (fun persistedLink =>
    .ok { persistedLink with pull := SyncCheckpoint.reset none
                             push := SyncCheckpoint.reset none }) (some now)

def setStatus (link : ReplicationLinkState) (status : LinkStatus) (now : String) :
    Links → Except Thrown Links :=
  updateLink link.toLinkIdentity (fun persistedLink =>
    .ok { assignStatus status persistedLink with connectivity := link.connectivity }) (some now)

def setRecovery (link : ReplicationLinkState) (recovery : Option SyncLinkRecoveryState) :
    Links → Except Thrown Links :=
  updateLink link.toLinkIdentity (fun persistedLink => .ok (assignRecovery recovery persistedLink)) none

/-- Whether the captured failure, or an interrupted repair without one, still owns the link. -/
def ownsLink (expectedRecovery : Option SyncLinkRecoveryState) (expectedInterruptedRepair : Bool)
    (persistedLink : ReplicationLinkState) : Bool :=
  let interruptedRepair := expectedInterruptedRepair && persistedLink.status = .repairing &&
    persistedLink.recovery = none
  let diagnosedRecovery := match expectedRecovery with
    | none => false
    | some expected => sameRecovery persistedLink.recovery expected &&
        isRetryableSyncRecovery persistedLink.recovery
  interruptedRepair || diagnosedRecovery

def completed (connectivity : SyncConnectivityState) (persistedLink : ReplicationLinkState) :
    ReplicationLinkState :=
  let status := if persistedLink.status = .paused ∨ persistedLink.status = .repairing then
    .initializing else persistedLink.status
  assignRecovery none { assignStatus status persistedLink with connectivity }

/-- `interrupted`: the copy was loaded as a repair that ended before recording a failure. -/
def completeRecovery (link : ReplicationLinkState)
    (expectedRecovery : Option SyncLinkRecoveryState) (interrupted : Bool) (links : Links) :
    Except Thrown Links :=
  let expectedInterruptedRepair := expectedRecovery = none && interrupted
  if expectedRecovery = none && !expectedInterruptedRepair then .ok links
  else match links (buildKey link.toLinkIdentity) with
    | none => .ok links
    | some persistedLink =>
      if !ownsLink expectedRecovery expectedInterruptedRepair persistedLink then .ok links
      else .ok (Function.update links (buildKey link.toLinkIdentity)
        (some (completed link.connectivity persistedLink)))

/-- A call with the copy of its holder, and the time it began. -/
inductive Call where
  | persistCheckpoint (link : ReplicationLinkState) (direction : SyncDirection) (now : String)
  | persistCheckpoints (link : ReplicationLinkState) (now : String)
  | resetCheckpoint (link : ReplicationLinkState) (direction : SyncDirection)
      (token : Option ProgressToken) (now : String)
  | resetCheckpoints (link : ReplicationLinkState) (now : String)
  | setStatus (link : ReplicationLinkState) (status : LinkStatus) (now : String)
  | setRecovery (link : ReplicationLinkState) (recovery : Option SyncLinkRecoveryState)
  | completeRecovery (link : ReplicationLinkState)
      (expectedRecovery : Option SyncLinkRecoveryState) (interrupted : Bool)
  | deleteLink (identity : LinkIdentity)

def Call.apply : Call → Links → Except Thrown Links
  | .persistCheckpoint link direction now => SyncReplicationLinkStore.persistCheckpoint link direction now
  | .persistCheckpoints link now => SyncReplicationLinkStore.persistCheckpoints link now
  | .resetCheckpoint link direction token now =>
    SyncReplicationLinkStore.resetCheckpoint link direction token now
  | .resetCheckpoints link now => SyncReplicationLinkStore.resetCheckpoints link now
  | .setStatus link status now => SyncReplicationLinkStore.setStatus link status now
  | .setRecovery link recovery => SyncReplicationLinkStore.setRecovery link recovery
  | .completeRecovery link expectedRecovery interrupted =>
    SyncReplicationLinkStore.completeRecovery link expectedRecovery interrupted
  | .deleteLink identity => SyncReplicationLinkStore.deleteLink identity

/-- A call that throws leaves the store as it is. -/
def step (links : Links) (call : Call) : Links :=
  match call.apply links with
  | .ok links => links
  | .error _ => links

def run (links : Links) (calls : List Call) : Links := calls.foldl step links

/-! ## One call -/

def Call.Persists (direction : SyncDirection) : Call → Prop
  | .persistCheckpoint _ direction' _ => direction' = direction
  | .persistCheckpoints _ _ => True
  | _ => False

def Call.Resets (direction : SyncDirection) : Call → Prop
  | .resetCheckpoint _ direction' _ _ => direction' = direction
  | .resetCheckpoints _ _ => True
  | _ => False

/-- The token of the copy that is persisted. -/
def Call.carried (direction : SyncDirection) : Call → Option ProgressToken
  | .persistCheckpoint link direction' _ =>
    if direction' = direction then (link.checkpoint direction).contiguousAppliedToken else none
  | .persistCheckpoints link _ => (link.checkpoint direction).contiguousAppliedToken
  | _ => none

def Call.SetsStatus : Call → Prop
  | .setStatus _ _ _ | .completeRecovery _ _ _ => True
  | _ => False

def Call.SetsRecovery : Call → Prop
  | .setRecovery _ _ => True
  | _ => False

/-- The checkpoint is not cleared, and goes back in no domain. -/
def Advances (before after : DirectionCheckpoint) : Prop :=
  ∀ token ∈ before.contiguousAppliedToken, ∃ token' ∈ after.contiguousAppliedToken,
    token.NotBefore token'

/-- What a call leaves of a stored link: each group of fields is changed by its own calls only. -/
structure Kept (call : Call) (row row' : ReplicationLinkState) : Prop where
  identity : row'.toLinkIdentity = row.toLinkIdentity
  checkpoint : ∀ direction, ¬ call.Persists direction → ¬ call.Resets direction →
    row'.checkpoint direction = row.checkpoint direction
  advances : ∀ direction, ¬ call.Resets direction →
    Advances (row.checkpoint direction) (row'.checkpoint direction)
  source : ∀ direction, ¬ call.Resets direction →
    row'.checkpoint direction = row.checkpoint direction ∨
      ∃ token ∈ call.carried direction, row'.checkpoint direction = ⟨some token⟩
  status : ¬ call.SetsStatus → row'.status = row.status ∧ row'.connectivity = row.connectivity
  recovery : ¬ call.SetsStatus → ¬ call.SetsRecovery → row'.recovery = row.recovery
  diagnostic : ¬ call.SetsRecovery → row'.recovery = row.recovery ∨ row'.recovery = none ∨
    ∃ r, row.recovery = some r ∧ row'.recovery = some { r with nextRetryAt := none }

section Merge
variable {link row row' : ReplicationLinkState} {persisted incoming merged : DirectionCheckpoint}

theorem Advances.refl (checkpoint : DirectionCheckpoint) : Advances checkpoint checkpoint :=
  fun token h => ⟨token, h, .refl token⟩

theorem mergeCheckpoint_advances (h : mergeCheckpoint persisted incoming = .ok merged) :
    Advances persisted merged := by
  unfold mergeCheckpoint at h
  split at h
  · cases h
    exact .refl _
  · next token _ =>
    split at h
    · next hdomain =>
      cases h
      intro current hcurrent
      refine ⟨token, rfl, fun hsame => ?_⟩
      simp only [SyncCheckpoint.validateTokenDomain, Option.mem_def.mp hcurrent, Bool.not_eq_true',
        Bool.and_eq_false_iff, decide_eq_false_iff_not] at hdomain
      obtain hne | hne := hdomain
      · exact absurd (congrArg Prod.fst hsame.symm) hne
      · exact absurd (congrArg Prod.snd hsame.symm) hne
    · obtain ⟨rfl, hbefore⟩ | ⟨rfl, -⟩ := SyncCheckpoint.commitContiguousToken_eq_ok h
      · exact fun current hcurrent => ⟨token, rfl, hbefore current hcurrent⟩
      · exact .refl _

theorem mergeCheckpoint_source (h : mergeCheckpoint persisted incoming = .ok merged) :
    merged = persisted ∨ ∃ token ∈ incoming.contiguousAppliedToken, merged = ⟨some token⟩ := by
  unfold mergeCheckpoint at h
  split at h
  · cases h
    exact Or.inl rfl
  · next token htoken =>
    split at h
    · cases h
      exact Or.inr ⟨token, htoken, rfl⟩
    · obtain ⟨rfl, -⟩ | ⟨rfl, -⟩ := SyncCheckpoint.commitContiguousToken_eq_ok h
      · exact Or.inr ⟨token, htoken, rfl⟩
      · exact Or.inl rfl

theorem assignStatus_frame (status : LinkStatus) (row : ReplicationLinkState) :
    (assignStatus status row).toLinkIdentity = row.toLinkIdentity ∧
      (assignStatus status row).pull = row.pull ∧ (assignStatus status row).push = row.push ∧
      ((assignStatus status row).recovery = row.recovery ∨ (assignStatus status row).recovery = none ∨
        ∃ r, row.recovery = some r ∧
          (assignStatus status row).recovery = some { r with nextRetryAt := none }) := by
  unfold assignStatus
  cases status with
  | initializing => exact ⟨rfl, rfl, rfl, Or.inl rfl⟩
  | live => exact ⟨rfl, rfl, rfl, Or.inr (Or.inl rfl)⟩
  | repairing => exact ⟨rfl, rfl, rfl, Or.inl rfl⟩
  | paused =>
    dsimp only
    split
    · exact ⟨rfl, rfl, rfl, Or.inr (Or.inl rfl)⟩
    · unfold assignRecovery
      cases hrecovery : row.recovery with
      | none => exact ⟨rfl, rfl, rfl, Or.inl rfl⟩
      | some r => exact ⟨rfl, rfl, rfl, Or.inr (Or.inr ⟨r, rfl, rfl⟩)⟩

end Merge

section Step
variable {links links' : Links} {key : String} {row row' : ReplicationLinkState}

theorem updateLink_eq_ok {identity : LinkIdentity}
    {mutate : ReplicationLinkState → Except Thrown ReplicationLinkState} {now : Option String}
    (h : updateLink identity mutate now links = .ok links') :
    links' = links ∨ ∃ row row', links (buildKey identity) = some row ∧ mutate row = .ok row' ∧
      links' = Function.update links (buildKey identity)
        (some { row' with lastActivityAt := now <|> row'.lastActivityAt }) := by
  unfold updateLink at h
  split at h
  · cases h
    exact Or.inl rfl
  · next row hrow =>
    obtain ⟨row', hrow', h⟩ := bind_eq_ok h
    cases h
    refine Or.inr ⟨row, row', hrow, hrow', ?_⟩
    cases now <;> rfl

theorem Kept.refl (call : Call) (row : ReplicationLinkState) : Kept call row row :=
  ⟨rfl, fun _ _ _ => rfl, fun _ _ => .refl _, fun _ _ => Or.inl rfl, fun _ => ⟨rfl, rfl⟩,
    fun _ _ => rfl, fun _ => Or.inl rfl⟩

theorem kept_completed {call : Call} (hcall : call.SetsStatus)
    (connectivity : SyncConnectivityState) (row : ReplicationLinkState) :
    Kept call row (completed connectivity row) := by
  obtain ⟨hidentity, hpull, hpush, -⟩ := assignStatus_frame (if row.status = .paused ∨
    row.status = .repairing then .initializing else row.status) row
  have hcheckpoint : ∀ direction,
      (completed connectivity row).checkpoint direction = row.checkpoint direction := by
    intro direction
    cases direction
    · exact hpull
    · exact hpush
  exact ⟨hidentity, fun direction _ _ => hcheckpoint direction,
    fun direction _ => hcheckpoint direction ▸ .refl _,
    fun direction _ => Or.inl (hcheckpoint direction), fun h => absurd hcall h,
    fun h => absurd hcall h, fun _ => Or.inr (Or.inl rfl)⟩

theorem kept_unchanged {call : Call} : (links key = none → links key = none) ∧
    ∀ row row', links key = some row → links key = some row' → Kept call row row' := by
  refine ⟨id, fun row row' hrow hrow' => ?_⟩
  rw [hrow, Option.some.injEq] at hrow'
  exact hrow' ▸ .refl _ row

theorem kept_written {call : Call} {named : String} (hrow : links named = some row)
    (hkept : Kept call row row') :
    (links key = none → Function.update links named (some row') key = none) ∧
      ∀ r r', links key = some r → Function.update links named (some row') key = some r' →
        Kept call r r' := by
  by_cases hkey : key = named
  · subst hkey
    refine ⟨fun hnone => by simp [hrow] at hnone, fun r r' hr hr' => ?_⟩
    rw [hrow, Option.some.injEq] at hr
    rw [Function.update_self, Option.some.injEq] at hr'
    exact hr ▸ hr' ▸ hkept
  · rw [Function.update_of_ne hkey]
    exact kept_unchanged

/-- What an update does to a stored link follows from what its mutation does. -/
theorem kept_updateLink {call : Call} {identity : LinkIdentity}
    {mutate : ReplicationLinkState → Except Thrown ReplicationLinkState} {now : Option String}
    (hmutate : ∀ row row', mutate row = .ok row' → ∀ lastActivityAt,
      Kept call row { row' with lastActivityAt })
    (h : updateLink identity mutate now links = .ok links') :
    (links key = none → links' key = none) ∧
      ∀ row row', links key = some row → links' key = some row' → Kept call row row' := by
  obtain rfl | ⟨row₀, row₁, hrow₀, hrow₁, rfl⟩ := updateLink_eq_ok h
  · exact kept_unchanged
  · exact kept_written hrow₀ (hmutate row₀ row₁ hrow₁ _)

theorem kept_completeRecovery {link : ReplicationLinkState}
    {expectedRecovery : Option SyncLinkRecoveryState} {interrupted : Bool}
    (h : completeRecovery link expectedRecovery interrupted links = .ok links') :
    (links key = none → links' key = none) ∧ ∀ row row', links key = some row →
      links' key = some row' → Kept (.completeRecovery link expectedRecovery interrupted) row row' := by
  unfold completeRecovery at h
  dsimp only at h
  split at h
  · cases h
    exact kept_unchanged
  · split at h
    · cases h
      exact kept_unchanged
    · next hpersisted =>
      split at h
      · cases h
        exact kept_unchanged
      · cases h
        exact kept_written hpersisted (kept_completed (by trivial) _ _)

theorem kept_apply {call : Call} (hdelete : ∀ identity, call ≠ .deleteLink identity)
    (h : call.apply links = .ok links') : (links key = none → links' key = none) ∧
      ∀ row row', links key = some row → links' key = some row' → Kept call row row' := by
  cases call with
  | persistCheckpoint link direction now =>
    unfold Call.apply SyncReplicationLinkStore.persistCheckpoint at h
    refine kept_updateLink (fun row row' hmutate lastActivityAt => ?_) h
    obtain ⟨merged, hmerge, hmutate⟩ := bind_eq_ok hmutate
    cases hmutate
    have hadvances := mergeCheckpoint_advances hmerge
    have hsource := mergeCheckpoint_source hmerge
    cases direction with
    | pull =>
      refine ⟨rfl, fun d hd _ => ?_, fun d _ => ?_, fun d _ => ?_, fun _ => ⟨rfl, rfl⟩,
        fun _ _ => rfl, fun _ => Or.inl rfl⟩
      · cases d with
        | pull => exact absurd rfl hd
        | push => rfl
      · cases d with
        | pull => exact hadvances
        | push => exact .refl _
      · cases d with
        | pull => exact hsource
        | push => exact Or.inl rfl
    | push =>
      refine ⟨rfl, fun d hd _ => ?_, fun d _ => ?_, fun d _ => ?_, fun _ => ⟨rfl, rfl⟩,
        fun _ _ => rfl, fun _ => Or.inl rfl⟩
      · cases d with
        | pull => rfl
        | push => exact absurd rfl hd
      · cases d with
        | pull => exact .refl _
        | push => exact hadvances
      · cases d with
        | pull => exact Or.inl rfl
        | push => exact hsource
  | persistCheckpoints link now =>
    unfold Call.apply SyncReplicationLinkStore.persistCheckpoints at h
    refine kept_updateLink (fun row row' hmutate lastActivityAt => ?_) h
    obtain ⟨pull, hpull, hmutate⟩ := bind_eq_ok hmutate
    obtain ⟨push, hpush, hmutate⟩ := bind_eq_ok hmutate
    cases hmutate
    refine ⟨rfl, fun d hd _ => absurd trivial hd, fun d _ => ?_, fun d _ => ?_,
      fun _ => ⟨rfl, rfl⟩, fun _ _ => rfl, fun _ => Or.inl rfl⟩
    · cases d with
      | pull => exact mergeCheckpoint_advances hpull
      | push => exact mergeCheckpoint_advances hpush
    · cases d with
      | pull => exact mergeCheckpoint_source hpull
      | push => exact mergeCheckpoint_source hpush
  | resetCheckpoint link direction token now =>
    unfold Call.apply SyncReplicationLinkStore.resetCheckpoint at h
    refine kept_updateLink (fun row row' hmutate lastActivityAt => ?_) h
    cases hmutate
    have hother : ∀ d, ¬ (Call.resetCheckpoint link direction token now).Resets d →
        ReplicationLinkState.checkpoint { row.withCheckpoint (SyncCheckpoint.reset token) direction
          with lastActivityAt } d = row.checkpoint d := by
      intro d hd
      cases d <;> cases direction <;> first | rfl | exact absurd rfl hd
    refine ⟨?_, fun d _ hd => hother d hd, fun d hd => hother d hd ▸ .refl _,
      fun d hd => Or.inl (hother d hd), fun _ => ?_, fun _ _ => ?_, fun _ => Or.inl ?_⟩
    · cases direction <;> rfl
    · cases direction <;> exact ⟨rfl, rfl⟩
    · cases direction <;> rfl
    · cases direction <;> rfl
  | resetCheckpoints link now =>
    unfold Call.apply SyncReplicationLinkStore.resetCheckpoints at h
    refine kept_updateLink (fun row row' hmutate lastActivityAt => ?_) h
    cases hmutate
    exact ⟨rfl, fun d _ hd => absurd trivial hd, fun d hd => absurd trivial hd,
      fun d hd => absurd trivial hd, fun _ => ⟨rfl, rfl⟩, fun _ _ => rfl, fun _ => Or.inl rfl⟩
  | setStatus link status now =>
    unfold Call.apply SyncReplicationLinkStore.setStatus at h
    refine kept_updateLink (fun row row' hmutate lastActivityAt => ?_) h
    cases hmutate
    obtain ⟨hidentity, hpull, hpush, hrecovery⟩ := assignStatus_frame status row
    have hcheckpoint : ∀ d, ReplicationLinkState.checkpoint { assignStatus status row with
        connectivity := link.connectivity, lastActivityAt } d = row.checkpoint d := by
      intro d
      cases d with
      | pull => exact hpull
      | push => exact hpush
    exact ⟨hidentity, fun d _ _ => hcheckpoint d, fun d _ => hcheckpoint d ▸ .refl _,
      fun d _ => Or.inl (hcheckpoint d), fun h => absurd trivial h, fun h => absurd trivial h,
      fun _ => hrecovery⟩
  | setRecovery link recovery =>
    unfold Call.apply SyncReplicationLinkStore.setRecovery at h
    refine kept_updateLink (fun row row' hmutate lastActivityAt => ?_) h
    cases hmutate
    have hcheckpoint : ∀ d, ReplicationLinkState.checkpoint { assignRecovery recovery row with
        lastActivityAt } d = row.checkpoint d := by
      intro d
      cases recovery <;> cases d <;> rfl
    refine ⟨?_, fun d _ _ => hcheckpoint d, fun d _ => hcheckpoint d ▸ .refl _,
      fun d _ => Or.inl (hcheckpoint d), fun _ => ?_, fun _ h => absurd trivial h,
      fun h => absurd trivial h⟩
    · cases recovery <;> rfl
    · cases recovery <;> exact ⟨rfl, rfl⟩
  | completeRecovery link expectedRecovery interrupted => exact kept_completeRecovery h
  | deleteLink identity => exact absurd rfl (hdelete identity)

theorem kept_step (links : Links) (call : Call) (key : String) :
    (links key = none → step links call key = none) ∧
      ∀ row row', links key = some row → step links call key = some row' → Kept call row row' := by
  unfold step
  cases hcall : call.apply links with
  | error e => exact kept_unchanged
  | ok links' =>
    dsimp only
    by_cases hdelete : ∃ identity, call = .deleteLink identity
    · obtain ⟨identity, rfl⟩ := hdelete
      cases hcall
      by_cases hkey : key = buildKey identity
      · subst hkey
        simp
      · rw [Function.update_of_ne hkey]
        exact kept_unchanged
    · exact kept_apply (fun identity heq => hdelete ⟨identity, heq⟩) hcall

end Step

/-! ## Runs -/

theorem absent_run {links : Links} {key : String} (h : links key = none) (calls : List Call) :
    run links calls key = none := by
  induction calls generalizing links with
  | nil => exact h
  | cons call calls ih => exact ih ((kept_step links call key).1 h)

/-- Between two resets and two changes of the domain the stored token does not go back. -/
theorem notBefore_run {links : Links} {key : String} {row row' : ReplicationLinkState}
    {direction : SyncDirection} {token : ProgressToken} {calls : List Call}
    (hrow : links key = some row) (htoken : token ∈ (row.checkpoint direction).contiguousAppliedToken)
    (hcalls : ∀ call ∈ calls, ¬ call.Resets direction ∧
      ∀ carried ∈ call.carried direction, carried.domain = token.domain)
    (hrow' : run links calls key = some row') :
    ∃ token' ∈ (row'.checkpoint direction).contiguousAppliedToken,
      token'.domain = token.domain ∧ token.NotBefore token' := by
  induction calls generalizing links row token with
  | nil =>
    have heq : row = row' := Option.some.inj (hrow.symm.trans hrow')
    exact ⟨token, heq ▸ htoken, rfl, .refl token⟩
  | cons call calls ih =>
    obtain ⟨hreset, hcarried⟩ := hcalls call List.mem_cons_self
    cases hnext : step links call key with
    | none =>
      have hgone := absent_run hnext calls
      rw [show run (step links call) calls key = run links (call :: calls) key from rfl, hrow'] at hgone
      cases hgone
    | some row₁ =>
      have hkept := (kept_step links call key).2 row row₁ hrow hnext
      obtain ⟨token₁, htoken₁, hbefore⟩ := hkept.advances direction hreset token htoken
      -- the token is the one before, or comes with the call
      have hdomain : token₁.domain = token.domain := by
        obtain heq | ⟨carried, hmem, heq⟩ := hkept.source direction hreset
        · rw [heq] at htoken₁
          rw [Option.mem_unique htoken₁ htoken]
        · rw [heq] at htoken₁
          cases htoken₁
          exact hcarried token₁ hmem
      obtain ⟨token', htoken', hsame, hbefore'⟩ := ih hnext htoken₁
        (fun c hc => ⟨(hcalls c (List.mem_cons_of_mem _ hc)).1, fun t ht =>
          ((hcalls c (List.mem_cons_of_mem _ hc)).2 t ht).trans hdomain.symm⟩) hrow'
      exact ⟨token', htoken', hsame.trans hdomain, hbefore.trans hbefore' hdomain.symm⟩

/-- A reset installs its token, whatever the copy of its holder and the stored link say. -/
theorem step_resetCheckpoint {links : Links} {link row : ReplicationLinkState}
    (hrow : links (buildKey link.toLinkIdentity) = some row) (direction : SyncDirection)
    (token : Option ProgressToken) (now : String) :
    ∃ row', step links (.resetCheckpoint link direction token now)
        (buildKey link.toLinkIdentity) = some row' ∧ row'.checkpoint direction = ⟨token⟩ := by
  simp only [step, Call.apply, resetCheckpoint, updateLink, hrow, ok_bind, Function.update_self]
  refine ⟨_, rfl, ?_⟩
  cases direction <;> rfl

/-- In every run, with copies of any age: a link that is gone stays gone, every call changes its
own group of fields only, a reset installs its token, and a token goes back only by a reset or a
change of the domain. -/
theorem run_keeps_groups (links : Links) (key : String) (calls : List Call) :
    (links key = none → run links calls key = none) ∧
    (∀ call row row', run links calls key = some row →
      run links (calls ++ [call]) key = some row' → Kept call row row') ∧
    (∀ link direction token now row, buildKey link.toLinkIdentity = key →
      run links calls key = some row → ∃ row',
        run links (calls ++ [.resetCheckpoint link direction token now]) key = some row' ∧
          row'.checkpoint direction = ⟨token⟩) ∧
    ∀ direction row row' token, links key = some row →
      token ∈ (row.checkpoint direction).contiguousAppliedToken →
      (∀ call ∈ calls, ¬ call.Resets direction ∧
        ∀ carried ∈ call.carried direction, carried.domain = token.domain) →
      run links calls key = some row' →
      ∃ token' ∈ (row'.checkpoint direction).contiguousAppliedToken,
        token'.domain = token.domain ∧ token.NotBefore token' := by
  have hconcat : ∀ call, run links (calls ++ [call]) = step (run links calls) call := by
    intro call
    simp [run]
  refine ⟨fun h => absent_run h calls, fun call row row' hrow hrow' => ?_,
    fun link direction token now row hkey hrow => ?_, fun direction row row' token hrow htoken hcalls hrow' =>
      notBefore_run hrow htoken hcalls hrow'⟩
  · rw [hconcat] at hrow'
    exact (kept_step (run links calls) call key).2 row row' hrow hrow'
  · rw [hconcat]
    subst hkey
    exact step_resetCheckpoint hrow direction token now

/-- A link whose pull has come to position 10. -/
def followed : ReplicationLinkState where
  tenantDid := "alice"
  remoteEndpoint := "https://dwn"
  projectionId := "p"
  authorizationEpoch := "e"
  status := .live
  connectivity := .online
  pull := ⟨some { streamId := "s", epoch := "1", position := "10" }⟩

/-- Two holders have loaded the link; one clears the checkpoint, the other one persists. -/
theorem cleared_checkpoint_restored :
    ¬ ∀ (links : Links) (copy : ReplicationLinkState),
      links (buildKey copy.toLinkIdentity) = some copy → ∀ row,
      run links [.resetCheckpoint copy .pull none "t", .persistCheckpoint copy .pull "u"]
        (buildKey copy.toLinkIdentity) = some row → row.pull = ⟨none⟩ := by
  intro h
  have hrow := h (Function.update (fun _ => none) (buildKey followed.toLinkIdentity) (some followed))
    followed (Function.update_self ..) { followed with lastActivityAt := some "u" } (by decide)
  cases hrow

end SyncReplicationLinkStore

end EnboxDwn.Agent
