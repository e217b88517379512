import EnboxDwn.ProgressStore

/-! Runs of calls to the progress store. No receipt of a committed page is lost while the link
lives: it is settled, or a row of the link still holds it. -/
namespace EnboxDwn.Agent
open Level

/-- The first token is of the domain of the second one, and not after it. -/
def ProgressToken.AtOrBefore (source through : ProgressToken) : Prop :=
  source.domain = through.domain ∧ ∃ x y, bigInt source.position = some x ∧
    bigInt through.position = some y ∧ x ≤ y

theorem ProgressToken.AtOrBefore.trans {a b c : ProgressToken} (hab : a.AtOrBefore b)
    (hbc : b.AtOrBefore c) : a.AtOrBefore c := by
  obtain ⟨hdomain, x, y, hx, hy, hle⟩ := hab
  obtain ⟨hdomain', y', z, hy', hz, hle'⟩ := hbc
  rw [hy, Option.some.injEq] at hy'
  exact ⟨hdomain.trans hdomain', x, z, hx, hz, by omega⟩

theorem domain_eq_iff {a b : ProgressToken} :
    a.domain = b.domain ↔ a.streamId = b.streamId ∧ a.epoch = b.epoch := Prod.ext_iff

theorem syncNextSourceAtOrBefore_eq_true {source through : ProgressToken}
    (h : syncNextSourceAtOrBefore source through = .ok true) : source.AtOrBefore through := by
  unfold syncNextSourceAtOrBefore at h
  split at h
  · next hdomain =>
    obtain ⟨n, hn, h⟩ := bind_eq_ok h
    obtain ⟨x, y, hx, hy, hle, -⟩ := SyncCheckpoint.comparePosition_eq_ok hn
    have hn : n ≤ 0 := of_decide_eq_true (Except.ok.inj h)
    exact ⟨domain_eq_iff.mpr hdomain, x, y, hx, hy, hle.mp hn⟩
  · cases h

theorem SyncNextSourceReceipt.Same.atOrBefore {a b : SyncNextSourceReceipt} (h : a.Same b)
    {through : ProgressToken} (ha : a.source.AtOrBefore through) : b.source.AtOrBefore through := by
  obtain ⟨-, hdomain, hposition⟩ := h
  obtain ⟨hthrough, x, y, hx, hy, hle⟩ := ha
  exact ⟨hdomain.symm.trans hthrough, x, y, hposition ▸ hx, hy, hle⟩

namespace SyncNextProgressStore

theorem currentLink_eq_some {key : String} {queriedLink link : SyncNextLink} {s : Progress} :
    currentLink key queriedLink s = some link ↔
      get s.links key = some link ∧ link.lifetimeId = queriedLink.lifetimeId := by
  simp [currentLink, Option.filter_eq_some_iff]

theorem canAdvance_eq_true {current : Option ProgressToken} {incoming : ProgressToken}
    (h : canAdvance current incoming = .ok true) : ∀ token ∈ current, token.AtOrBefore incoming := by
  rintro token htoken
  cases htoken
  unfold canAdvance at h
  dsimp only at h
  split at h
  · cases h
  · next hdomain =>
    obtain ⟨n, hn, h⟩ := bind_eq_ok h
    obtain ⟨x, y, hx, hy, hle, -⟩ := SyncCheckpoint.comparePosition_eq_ok hn
    have hn : n > 0 := of_decide_eq_true (Except.ok.inj h)
    refine ⟨domain_eq_iff.mpr (by simpa [not_or] using hdomain), y, x, hy, hx, ?_⟩
    by_contra hlt
    have := hle.mpr (by omega)
    omega

variable [R : Runtime]

/-! ## Calls -/

inductive Call where
  | getOrCreateLink (input : SyncNextLinkCreate) (lifetimeId : String)
  | retireLink (queriedLink : SyncNextLink)
  | deleteLinkAndPendingWork (queriedLink : SyncNextLink)
  | commitPullPage (checked : Bool) (queriedLink : SyncNextLink) (commit : SyncNextPullPageCommit)
  | commitPushPage (queriedLink : SyncNextLink) (commit : SyncNextPushPageCommit)
  | updateQuarantine (entry : SyncNextQuarantineEntry)
  | settleQuarantineForProjection (tenantDid projectionId : String) (messageCids : List String)
  | finishDeliveryAttempt (queriedLink : SyncNextLink) (selected : SyncNextDeliveryObligation)
      (outcome : Option SyncNextDeliveryOutcome)
  | deleteForTenant (tenantDid : String)
  | clear

structure TimedCall where
  now : Int
  call : Call

def invoke (options : Options) (c : TimedCall) (s : Progress) : Except Thrown (Bool × Progress) :=
  match c.call with
  | .getOrCreateLink input lifetimeId => do
    return (true, (← getOrCreateLink input lifetimeId c.now s).2)
  | .retireLink queriedLink => do return (true, ← retireLink queriedLink s)
  | .deleteLinkAndPendingWork queriedLink => do return (true, ← deleteLinkAndPendingWork queriedLink s)
  | .commitPullPage checked queriedLink commit =>
    commitPullPage options checked c.now queriedLink commit s
  | .commitPushPage queriedLink commit => commitPushPage options c.now queriedLink commit s
  | .updateQuarantine entry => do return (true, ← updateQuarantine c.now entry s)
  | .settleQuarantineForProjection tenantDid projectionId messageCids => do
    return (true, ← settleQuarantineForProjection tenantDid projectionId messageCids s)
  | .finishDeliveryAttempt queriedLink selected outcome =>
    finishDeliveryAttempt c.now queriedLink selected outcome s
  | .deleteForTenant tenantDid => .ok (true, deleteForTenant tenantDid s)
  | .clear => .ok (true, {})

/-- A call that throws has written nothing. -/
def step (options : Options) (s : Progress) (c : TimedCall) : Progress :=
  match invoke options c s with
  | .ok (_, s') => s'
  | .error _ => s

def run (options : Options) (s : Progress) (calls : List TimedCall) : Progress :=
  calls.foldl (step options) s

theorem run_append (options : Options) (s : Progress) (a b : List TimedCall) :
    run options s (a ++ b) = run options (run options s a) b := List.foldl_append

/-! ## What a call does -/

/-- What an accepted pull page writes. -/
structure PullCommitted (now : Int) (queriedLink : SyncNextLink) (commit : SyncNextPullPageCommit)
    (s s' : Progress) (key linkKey : String) (link : SyncNextLink)
    (prepared : List (SyncNextQuarantineInput × Nat)) : Prop where
  key_eq : syncNextLinkKey queriedLink.toSyncNextLinkIdentity = .ok key
  stored : get s.links key = some link
  lifetime : link.lifetimeId = queriedLink.lifetimeId
  linkKey_eq : syncNextLinkKey link.toSyncNextLinkIdentity = .ok linkKey
  advance : canAdvance link.pullCheckpoint commit.checkpoint = .ok true
  valid : validatePageCommit commit.checkpoint commit.pageReceipts
    (commit.quarantine.map (·.toSyncNextSourceReceipt)) commit.settled link.pullCheckpoint .pull =
      .ok ()
  prepared_eq : commit.quarantine.mapM prepareQuarantineInput = .ok prepared
  links : s'.links = batch
    [.put key (Direction.pull.withCheckpoint link commit.checkpoint (R.isoString now))] s.links
  delivery : s'.delivery = s.delivery
  quarantine : s'.quarantine = batch
    ((prepared.map (createQuarantine link (R.isoString now))).map
        (fun e => .put (rowKey linkKey e.toSyncNextSourceReceipt) (.entry e)) ++
      commit.settled.map fun receipt => .del (rowKey linkKey receipt)) s.quarantine

theorem commitPullPage_eq_ok {options : Options} {checked : Bool} {now : Int}
    {queriedLink : SyncNextLink} {commit : SyncNextPullPageCommit} {s s' : Progress} {b : Bool}
    (h : commitPullPage options checked now queriedLink commit s = .ok (b, s')) :
    (s' = s ∧ (b = true → commit.pageReceipts = [])) ∨
      b = true ∧ ∃ key linkKey link prepared,
        PullCommitted now queriedLink commit s s' key linkKey link prepared := by
  obtain ⟨_, -, h⟩ := bind_eq_ok h
  obtain ⟨prepared, hprepared, h⟩ := bind_eq_ok h
  obtain ⟨key, hkey, h⟩ := bind_eq_ok h
  dsimp only at h
  split at h
  · cases h
    exact Or.inl ⟨rfl, by simp⟩
  · next link hlink =>
    obtain ⟨hstored, hlifetime⟩ := currentLink_eq_some.mp hlink
    obtain ⟨linkKey, hlinkKey, h⟩ := bind_eq_ok h
    obtain ⟨_, -, h⟩ := bind_eq_ok h
    split at h
    · cases h
      exact Or.inl ⟨rfl, by simp⟩
    · obtain ⟨advance, hadvance, h⟩ := bind_eq_ok h
      split at h
      · cases h
        refine Or.inl ⟨rfl, fun hreplay => ?_⟩
        simp only [isEmptyReplay, Bool.and_eq_true, List.isEmpty_iff] at hreplay
        exact hreplay.1.1.2
      · next hnot =>
        obtain rfl : advance = true := by simpa using hnot
        obtain ⟨_, hvalid, h⟩ := bind_eq_ok h
        obtain ⟨_, -, h⟩ := bind_eq_ok h
        cases h
        exact Or.inr ⟨rfl, key, linkKey, link, prepared, hkey, hstored, hlifetime, hlinkKey,
          hadvance, hvalid, hprepared, rfl, rfl, rfl⟩

/-- What an accepted push page writes. -/
structure PushCommitted (now : Int) (queriedLink : SyncNextLink) (commit : SyncNextPushPageCommit)
    (s s' : Progress) (key linkKey : String) (link : SyncNextLink) (handledWrites : HandledWrites)
    (existing covered : List SyncNextDeliveryObligation) (uncovered : List SyncNextDeliveryInput) :
    Prop where
  key_eq : syncNextLinkKey queriedLink.toSyncNextLinkIdentity = .ok key
  stored : get s.links key = some link
  lifetime : link.lifetimeId = queriedLink.lifetimeId
  linkKey_eq : syncNextLinkKey link.toSyncNextLinkIdentity = .ok linkKey
  advance : canAdvance link.pushCheckpoint commit.checkpoint = .ok true
  valid : validatePageCommit commit.checkpoint commit.pageReceipts
    (commit.delivery.map (·.toSyncNextSourceReceipt)) commit.settled link.pushCheckpoint .push =
      .ok ()
  handled_eq : validateHandledWrites commit.settled commit.handledWrites [] = .ok handledWrites
  existing_eq : existing = readKeys (keyRange linkKey) s.delivery
  covered_eq : filterThrowing (fun e => deliveryIsCovered e.source e.writeRecordId handledWrites)
    existing = .ok covered
  uncovered_eq : filterThrowing
    (fun e => do return !(← deliveryIsCovered e.source e.writeRecordId handledWrites))
    commit.delivery = .ok uncovered
  links : s'.links = batch
    [.put key (Direction.push.withCheckpoint link commit.checkpoint (R.isoString now))] s.links
  quarantine : s'.quarantine = s.quarantine
  delivery : s'.delivery = batch
    (covered.map (fun e => .del (rowKey linkKey e.toSyncNextSourceReceipt)) ++
      uncovered.map (fun input => .put (rowKey linkKey input.toSyncNextSourceReceipt)
        (createDelivery link (R.isoString now) input)) ++
      commit.settled.map fun receipt => .del (rowKey linkKey receipt)) s.delivery

theorem getDeliveryForLink_eq {identity : SyncNextLinkIdentity} {key : String}
    (h : syncNextLinkKey identity = .ok key) (s : Progress) :
    getDeliveryForLink identity s = .ok (readKeys (keyRange key) s.delivery) := by
  unfold getDeliveryForLink syncNextLinkRange
  rw [h]
  rfl

theorem commitPushPage_eq_ok {options : Options} {now : Int} {queriedLink : SyncNextLink}
    {commit : SyncNextPushPageCommit} {s s' : Progress} {b : Bool}
    (h : commitPushPage options now queriedLink commit s = .ok (b, s')) :
    (s' = s ∧ (b = true → commit.pageReceipts = [])) ∨
      b = true ∧ ∃ key linkKey link handledWrites existing covered uncovered,
        PushCommitted now queriedLink commit s s' key linkKey link handledWrites existing covered
          uncovered := by
  obtain ⟨_, -, h⟩ := bind_eq_ok h
  obtain ⟨key, hkey, h⟩ := bind_eq_ok h
  split at h
  · cases h
    exact Or.inl ⟨rfl, by simp⟩
  · next link hlink =>
    obtain ⟨hstored, hlifetime⟩ := currentLink_eq_some.mp hlink
    split at h
    · cases h
      exact Or.inl ⟨rfl, by simp⟩
    · obtain ⟨advance, hadvance, h⟩ := bind_eq_ok h
      split at h
      · cases h
        refine Or.inl ⟨rfl, fun hreplay => ?_⟩
        simp only [isEmptyReplay, Bool.and_eq_true, List.isEmpty_iff] at hreplay
        exact hreplay.2.1.1.2
      · next hnot =>
        obtain rfl : advance = true := by simpa using hnot
        obtain ⟨_, hvalid, h⟩ := bind_eq_ok h
        obtain ⟨_, -, h⟩ := bind_eq_ok h
        obtain ⟨handledWrites, hhandled, h⟩ := bind_eq_ok h
        obtain ⟨linkKey, hlinkKey, h⟩ := bind_eq_ok h
        rw [getDeliveryForLink_eq hlinkKey, ok_bind] at h
        obtain ⟨covered, hcovered, h⟩ := bind_eq_ok h
        obtain ⟨uncovered, huncovered, h⟩ := bind_eq_ok h
        split at h
        · cases h
        · cases h
          exact Or.inr ⟨rfl, key, linkKey, link, handledWrites, _, covered, uncovered, hkey, hstored,
            hlifetime, hlinkKey, hadvance, hvalid, hhandled, rfl, hcovered, huncovered, rfl, rfl,
            rfl⟩

/-- What an accepted attempt does to the delivery rows. -/
inductive Attempted (now : Int) (key : String) (selected : SyncNextDeliveryObligation)
    (s : Progress) : Option SyncNextDeliveryOutcome → Progress → Prop
  | delivered {linkKey : String} {link : SyncNextLink} {current : SyncNextDeliveryObligation}
      {covered : List SyncNextDeliveryObligation} (hstored : get s.links key = some link)
      (hlinkKey : syncNextLinkKey link.toSyncNextLinkIdentity = .ok linkKey)
      (hcurrent : get s.delivery (rowKey key selected.toSyncNextSourceReceipt) = some current)
      (hlatest : current.wasLatestBaseState = true) (hwrite : current.writeRecordId ≠ none)
      (hselected : current.writeRecordId = selected.writeRecordId)
      (hcovered : filterThrowing (fun e =>
        if e.writeRecordId = current.writeRecordId then
          syncNextSourceAtOrBefore e.source current.source
        else .ok false) (readKeys (keyRange linkKey) s.delivery) = .ok covered) :
      Attempted now key selected s none { s with
        delivery := batch
          (covered.map fun e => .del (rowKey linkKey e.toSyncNextSourceReceipt)) s.delivery }
  | deliveredAlone :
      Attempted now key selected s none { s with
        delivery := batch [.del (rowKey key selected.toSyncNextSourceReceipt)] s.delivery }
  | rotated {current : SyncNextDeliveryObligation} {lastAttemptAt : String}
      {outcome : SyncNextDeliveryOutcome}
      (hcurrent : get s.delivery (rowKey key selected.toSyncNextSourceReceipt) = some current) :
      Attempted now key selected s (some outcome) { s with
        delivery := batch [.put (rowKey key selected.toSyncNextSourceReceipt)
          { current with lastAttemptAt, outcome }] s.delivery }

theorem finishDeliveryAttempt_eq_ok {now : Int} {queriedLink : SyncNextLink}
    {selected : SyncNextDeliveryObligation} {outcome : Option SyncNextDeliveryOutcome}
    {s s' : Progress} {b : Bool}
    (h : finishDeliveryAttempt now queriedLink selected outcome s = .ok (b, s')) :
    (b = false ∧ s' = s) ∨ b = true ∧ ∃ key,
      syncNextLinkKey queriedLink.toSyncNextLinkIdentity = .ok key ∧
      syncNextLinkKey selected.toSyncNextLinkIdentity = .ok key ∧
      (∃ link, get s.links key = some link ∧ link.lifetimeId = queriedLink.lifetimeId) ∧
      Attempted now key selected s outcome s' := by
  obtain ⟨key, hkey, h⟩ := bind_eq_ok h
  obtain ⟨key', hkey', h⟩ := bind_eq_ok h
  split at h
  · cases h
    exact Or.inl ⟨rfl, rfl⟩
  · next hsame =>
    obtain rfl : key' = key := by simpa using hsame
    split at h
    · cases h
      exact Or.inl ⟨rfl, rfl⟩
    · next link hlink =>
      obtain ⟨hstored, hlifetime⟩ := currentLink_eq_some.mp hlink
      dsimp only at h
      split at h
      · cases h
        exact Or.inl ⟨rfl, rfl⟩
      · next current hcurrent =>
        split at h
        · cases h
          exact Or.inl ⟨rfl, rfl⟩
        · next hattempt =>
          have hwriteEq : current.writeRecordId = selected.writeRecordId := by
            by_contra hne
            exact hattempt (Or.inr (Or.inl hne))
          cases outcome with
          | none =>
            dsimp only at h
            split at h
            · next hwrite =>
              obtain ⟨linkKey, hlinkKey, h⟩ := bind_eq_ok h
              rw [getDeliveryForLink_eq hlinkKey, ok_bind] at h
              obtain ⟨covered, hcovered, h⟩ := bind_eq_ok h
              cases h
              exact Or.inr ⟨rfl, key', hkey, hkey', ⟨link, hstored, hlifetime⟩,
                .delivered hstored hlinkKey hcurrent hwrite.1 hwrite.2 hwriteEq hcovered⟩
            · cases h
              exact Or.inr ⟨rfl, key', hkey, hkey', ⟨link, hstored, hlifetime⟩, .deliveredAlone⟩
          | some outcome =>
            obtain ⟨lastAttemptAt, -, h⟩ := bind_eq_ok h
            cases h
            exact Or.inr ⟨rfl, key', hkey, hkey', ⟨link, hstored, hlifetime⟩, .rotated hcurrent⟩

def Accepts (options : Options) (s : Progress) (c : TimedCall) : Prop :=
  ∃ s', invoke options c s = .ok (true, s')

/-- Everything a call can do to the rows. -/
inductive Effect (options : Options) (now : Int) (s : Progress) : Call → Progress → Prop
  | unchanged {call : Call} : Effect options now s call s
  | created {input : SyncNextLinkCreate} {key : String} {link : SyncNextLink}
      (hkey : syncNextLinkKey link.toSyncNextLinkIdentity = .ok key)
      (hnone : get s.links key = none) (hpull : link.pullCheckpoint = none)
      (hpush : link.pushCheckpoint = none) :
      Effect options now s (.getOrCreateLink input link.lifetimeId)
        { s with links := batch [.put key link] s.links }
  | retired {queriedLink link : SyncNextLink} {key : String}
      (hkey : syncNextLinkKey queriedLink.toSyncNextLinkIdentity = .ok key)
      (hstored : get s.links key = some link) :
      Effect options now s (.retireLink queriedLink) { s with
        links := batch [.del key] s.links
        delivery := batch ((readKeys (keyRange key) s.delivery).map fun e =>
          .del (rowKey key e.toSyncNextSourceReceipt)) s.delivery }
  | removed {queriedLink link : SyncNextLink} {key : String}
      {quarantine : List SyncNextQuarantineEntry}
      (hkey : syncNextLinkKey queriedLink.toSyncNextLinkIdentity = .ok key)
      (hstored : get s.links key = some link) :
      Effect options now s (.deleteLinkAndPendingWork queriedLink)
        { links := batch [.del key] s.links
          delivery := batch ((readKeys (keyRange key) s.delivery).map fun e =>
            .del (rowKey key e.toSyncNextSourceReceipt)) s.delivery
          quarantine := batch (quarantine.map fun e => .del (rowKey key e.toSyncNextSourceReceipt))
            s.quarantine }
  | pulled {checked : Bool} {queriedLink link : SyncNextLink} {commit : SyncNextPullPageCommit}
      {s' : Progress} {key linkKey : String} {prepared : List (SyncNextQuarantineInput × Nat)}
      (haccepts : Accepts options s ⟨now, .commitPullPage checked queriedLink commit⟩)
      (h : PullCommitted now queriedLink commit s s' key linkKey link prepared) :
      Effect options now s (.commitPullPage checked queriedLink commit) s'
  | pushed {queriedLink link : SyncNextLink} {commit : SyncNextPushPageCommit} {s' : Progress}
      {key linkKey : String} {handledWrites : HandledWrites}
      {existing covered : List SyncNextDeliveryObligation} {uncovered : List SyncNextDeliveryInput}
      (haccepts : Accepts options s ⟨now, .commitPushPage queriedLink commit⟩)
      (h : PushCommitted now queriedLink commit s s' key linkKey link handledWrites existing covered
        uncovered) :
      Effect options now s (.commitPushPage queriedLink commit) s'
  | rotated {entry current : SyncNextQuarantineEntry} {key lastAttemptAt : String}
      (hcurrent : get s.quarantine key = some (.entry current)) :
      Effect options now s (.updateQuarantine entry) { s with
        quarantine := batch [.put key (.entry { current with lastAttemptAt })] s.quarantine }
  | materialized {tenantDid projectionId : String} {messageCids keys : List String}
      {rows : List SyncNextQuarantineEntry}
      (hrows : getQuarantineForProjection tenantDid projectionId s = .ok rows)
      (hkeys : (rows.filter fun e => e.messageCid ∈ messageCids).mapM (fun e =>
        syncNextReceiptKey e.toSyncNextLinkIdentity e.toSyncNextSourceReceipt) = .ok keys) :
      Effect options now s (.settleQuarantineForProjection tenantDid projectionId messageCids)
        { s with quarantine := batch (keys.map .del) s.quarantine }
  | attempted {queriedLink link : SyncNextLink} {selected : SyncNextDeliveryObligation}
      {outcome : Option SyncNextDeliveryOutcome} {key : String} {s' : Progress}
      (haccepts : Accepts options s ⟨now, .finishDeliveryAttempt queriedLink selected outcome⟩)
      (hkey : syncNextLinkKey queriedLink.toSyncNextLinkIdentity = .ok key)
      (hselected : syncNextLinkKey selected.toSyncNextLinkIdentity = .ok key)
      (hstored : get s.links key = some link)
      (hlifetime : link.lifetimeId = queriedLink.lifetimeId)
      (h : Attempted now key selected s outcome s') :
      Effect options now s (.finishDeliveryAttempt queriedLink selected outcome) s'
  | tenantDeleted {tenantDid : String} :
      Effect options now s (.deleteForTenant tenantDid) (deleteForTenant tenantDid s)
  | cleared : Effect options now s .clear {}

theorem getOrCreateLink_effect {options : Options} {input : SyncNextLinkCreate} {lifetimeId : String} {now : Int}
    {s : Progress} {result : SyncNextLink × Progress}
    (h : getOrCreateLink input lifetimeId now s = .ok result) :
    Effect options now s (.getOrCreateLink input lifetimeId) result.2 := by
  obtain ⟨remoteEndpoint, -, h⟩ := bind_eq_ok h
  obtain ⟨key, hkey, h⟩ := bind_eq_ok h
  split at h
  · obtain ⟨_, -, h⟩ := bind_eq_ok h
    cases h
    exact .unchanged
  · next hnone =>
    cases h
    let link : SyncNextLink :=
      { input with remoteEndpoint, lifetimeId, updatedAt := R.isoString now }
    have hkey : syncNextLinkKey link.toSyncNextLinkIdentity = .ok key := hkey
    exact .created hkey hnone rfl rfl

theorem retireLink_effect {options : Options} {queriedLink : SyncNextLink} {now : Int} {s s' : Progress}
    (h : retireLink queriedLink s = .ok s') : Effect options now s (.retireLink queriedLink) s' := by
  obtain ⟨key, hkey, h⟩ := bind_eq_ok h
  split at h
  · cases h
    exact .unchanged
  · next link hlink =>
    rw [getDeliveryForLink_eq hkey, ok_bind] at h
    cases h
    exact .retired hkey (currentLink_eq_some.mp hlink).1

theorem deleteLinkAndPendingWork_effect {options : Options} {queriedLink : SyncNextLink} {now : Int} {s s' : Progress}
    (h : deleteLinkAndPendingWork queriedLink s = .ok s') :
    Effect options now s (.deleteLinkAndPendingWork queriedLink) s' := by
  obtain ⟨key, hkey, h⟩ := bind_eq_ok h
  split at h
  · cases h
    exact .unchanged
  · next link hlink =>
    obtain ⟨quarantine, -, h⟩ := bind_eq_ok h
    rw [getDeliveryForLink_eq hkey, ok_bind] at h
    cases h
    exact .removed hkey (currentLink_eq_some.mp hlink).1

theorem updateQuarantine_effect {options : Options} {entry : SyncNextQuarantineEntry} {now : Int} {s s' : Progress}
    (h : updateQuarantine now entry s = .ok s') : Effect options now s (.updateQuarantine entry) s' := by
  obtain ⟨key, hkey, h⟩ := bind_eq_ok h
  split at h
  · cases h
    exact .unchanged
  · cases h
    exact .unchanged
  · next current hcurrent =>
    obtain ⟨lastAttemptAt, -, h⟩ := bind_eq_ok h
    cases h
    exact .rotated hcurrent

theorem settleQuarantineForProjection_effect {options : Options} {tenantDid projectionId : String}
    {messageCids : List String} {now : Int} {s s' : Progress}
    (h : settleQuarantineForProjection tenantDid projectionId messageCids s = .ok s') :
    Effect options now s (.settleQuarantineForProjection tenantDid projectionId messageCids) s' := by
  obtain ⟨rows, hrows, h⟩ := bind_eq_ok h
  obtain ⟨keys, hkeys, h⟩ := bind_eq_ok h
  cases h
  exact .materialized hrows hkeys

theorem invoke_effect {options : Options} {c : TimedCall} {s s' : Progress} {b : Bool}
    (h : invoke options c s = .ok (b, s')) : Effect options c.now s c.call s' := by
  have hinvoke := h
  obtain ⟨now, call⟩ := c
  unfold invoke at h
  cases call with
  | getOrCreateLink input lifetimeId =>
    obtain ⟨result, hresult, h⟩ := bind_eq_ok h
    cases h
    exact getOrCreateLink_effect hresult
  | retireLink queriedLink =>
    obtain ⟨_, hresult, h⟩ := bind_eq_ok h
    cases h
    exact retireLink_effect hresult
  | deleteLinkAndPendingWork queriedLink =>
    obtain ⟨_, hresult, h⟩ := bind_eq_ok h
    cases h
    exact deleteLinkAndPendingWork_effect hresult
  | commitPullPage checked queriedLink commit =>
    obtain ⟨rfl, -⟩ | ⟨rfl, _, _, _, _, hcommitted⟩ := commitPullPage_eq_ok h
    · exact .unchanged
    · exact .pulled ⟨s', hinvoke⟩ hcommitted
  | commitPushPage queriedLink commit =>
    obtain ⟨rfl, -⟩ | ⟨rfl, _, _, _, _, _, _, _, hcommitted⟩ := commitPushPage_eq_ok h
    · exact .unchanged
    · exact .pushed ⟨s', hinvoke⟩ hcommitted
  | updateQuarantine entry =>
    obtain ⟨_, hresult, h⟩ := bind_eq_ok h
    cases h
    exact updateQuarantine_effect hresult
  | settleQuarantineForProjection tenantDid projectionId messageCids =>
    obtain ⟨_, hresult, h⟩ := bind_eq_ok h
    cases h
    exact settleQuarantineForProjection_effect hresult
  | finishDeliveryAttempt queriedLink selected outcome =>
    obtain ⟨-, rfl⟩ | ⟨rfl, key, hkey, hselected, ⟨link, hstored, hlifetime⟩, hattempt⟩ :=
      finishDeliveryAttempt_eq_ok h
    · exact .unchanged
    · exact .attempted ⟨s', hinvoke⟩ hkey hselected hstored hlifetime hattempt
  | deleteForTenant tenantDid =>
    cases h
    exact .tenantDeleted
  | clear =>
    cases h
    exact .cleared

theorem step_effect (options : Options) (s : Progress) (c : TimedCall) :
    Effect options c.now s c.call (step options s c) := by
  unfold step
  split
  · next b s' h => exact invoke_effect h
  · exact .unchanged

/-! ## Rows under their own keys -/

/-- Links and pending rows are stored under the keys of their own identities. -/
structure Kept (s : Progress) : Prop where
  links : All (fun key link => syncNextLinkKey link.toSyncNextLinkIdentity = .ok key) s.links
  delivery : All (fun key row => ∃ linkKey, syncNextLinkKey row.toSyncNextLinkIdentity = .ok linkKey ∧
    key = rowKey linkKey row.toSyncNextSourceReceipt) s.delivery
  quarantine : All (fun key row => ∀ e, row = .entry e →
    ∃ linkKey, syncNextLinkKey e.toSyncNextLinkIdentity = .ok linkKey ∧
      key = rowKey linkKey e.toSyncNextSourceReceipt) s.quarantine

theorem Kept.empty : Kept ({} : Progress) := ⟨.empty _, .empty _, .empty _⟩

theorem Kept.linkKey_eq {s : Progress} (h : Kept s) {key linkKey : String} {link : SyncNextLink}
    (hstored : get s.links key = some link)
    (hlinkKey : syncNextLinkKey link.toSyncNextLinkIdentity = .ok linkKey) : linkKey = key := by
  have hkey : syncNextLinkKey link.toSyncNextLinkIdentity = .ok key := h.links key link hstored
  rw [hlinkKey] at hkey
  exact Except.ok.inj hkey

omit R in
theorem toLinkIdentity_withCheckpoint (direction : Direction) (link : SyncNextLink)
    (token : ProgressToken) (updatedAt : String) :
    (direction.withCheckpoint link token updatedAt).toSyncNextLinkIdentity =
      link.toSyncNextLinkIdentity := by
  cases direction <;> rfl

theorem Kept.pulled {s s' : Progress} (h : Kept s) {now : Int} {queriedLink link : SyncNextLink}
    {commit : SyncNextPullPageCommit} {key linkKey : String}
    {prepared : List (SyncNextQuarantineInput × Nat)}
    (hc : PullCommitted now queriedLink commit s s' key linkKey link prepared) : Kept s' := by
  refine ⟨?_, hc.delivery ▸ h.delivery, ?_⟩
  · rw [hc.links]
    refine h.links.put ?_
    rw [toLinkIdentity_withCheckpoint]
    exact h.links key link hc.stored
  · rw [hc.quarantine, batch_append]
    refine (h.quarantine.batch fun key' row hmem => ?_).del _ _
    obtain ⟨e, he, heq⟩ := List.mem_map.mp hmem
    obtain ⟨input, -, rfl⟩ := List.mem_map.mp he
    cases heq
    rintro e' heq
    cases heq
    exact ⟨linkKey, hc.linkKey_eq, rfl⟩

theorem Kept.pushed {s s' : Progress} (h : Kept s) {now : Int} {queriedLink link : SyncNextLink}
    {commit : SyncNextPushPageCommit} {key linkKey : String} {handledWrites : HandledWrites}
    {existing covered : List SyncNextDeliveryObligation} {uncovered : List SyncNextDeliveryInput}
    (hc : PushCommitted now queriedLink commit s s' key linkKey link handledWrites existing covered
      uncovered) : Kept s' := by
  refine ⟨?_, ?_, hc.quarantine ▸ h.quarantine⟩
  · rw [hc.links]
    refine h.links.put ?_
    rw [toLinkIdentity_withCheckpoint]
    exact h.links key link hc.stored
  · rw [hc.delivery, batch_append, batch_append]
    refine ((h.delivery.del _ _).batch fun key' row hmem => ?_).del _ _
    obtain ⟨input, -, heq⟩ := List.mem_map.mp hmem
    cases heq
    exact ⟨linkKey, hc.linkKey_eq, rfl⟩

theorem Kept.attempted {s s' : Progress} (h : Kept s) {now : Int} {key : String}
    {selected : SyncNextDeliveryObligation} {outcome : Option SyncNextDeliveryOutcome}
    (ha : Attempted now key selected s outcome s') : Kept s' := by
  cases ha with
  | delivered => exact ⟨h.links, h.delivery.del _ _, h.quarantine⟩
  | deliveredAlone => exact ⟨h.links, h.delivery.del (fun _ : Unit => _) [()], h.quarantine⟩
  | rotated hcurrent =>
    obtain ⟨linkKey, hlinkKey, hkey⟩ := h.delivery _ _ hcurrent
    exact ⟨h.links, h.delivery.put ⟨linkKey, hlinkKey, hkey⟩, h.quarantine⟩

theorem Kept.effect {s s' : Progress} (h : Kept s) {options : Options} {now : Int} {call : Call}
    (he : Effect options now s call s') : Kept s' := by
  cases he with
  | unchanged => exact h
  | created hkey => exact ⟨h.links.put hkey, h.delivery, h.quarantine⟩
  | retired =>
    exact ⟨h.links.del (fun _ : Unit => _) [()], h.delivery.del _ _, h.quarantine⟩
  | removed =>
    exact ⟨h.links.del (fun _ : Unit => _) [()], h.delivery.del _ _, h.quarantine.del _ _⟩
  | pulled _ hc => exact h.pulled hc
  | pushed _ hc => exact h.pushed hc
  | rotated hcurrent =>
    obtain ⟨linkKey, hlinkKey, hkey⟩ := h.quarantine _ _ hcurrent _ rfl
    refine ⟨h.links, h.delivery, h.quarantine.put ?_⟩
    rintro e heq
    cases heq
    exact ⟨linkKey, hlinkKey, hkey⟩
  | materialized => exact ⟨h.links, h.delivery, h.quarantine.del (fun key => key) _⟩
  | attempted _ _ _ _ _ ha => exact h.attempted ha
  | tenantDeleted => exact ⟨h.links.clear _, h.delivery.clear _, h.quarantine.clear _⟩
  | cleared => exact .empty

theorem Kept.step {s : Progress} (h : Kept s) (options : Options) (c : TimedCall) :
    Kept (step options s c) := h.effect (step_effect options s c)

theorem Kept.run {s : Progress} (h : Kept s) (options : Options) (calls : List TimedCall) :
    Kept (run options s calls) := by
  induction calls generalizing s with
  | nil => exact h
  | cons c calls ih => exact ih (h.step options c)

/-! ## Links and their lifetimes -/

/-- The checkpoints of the second link are those of the first one or further on. -/
def Advances (link link' : SyncNextLink) : Prop :=
  ∀ direction : Direction, ∀ token ∈ direction.checkpoint link,
    ∃ token' ∈ direction.checkpoint link', token = token' ∨ token.AtOrBefore token'

omit R in
theorem Advances.refl (link : SyncNextLink) : Advances link link :=
  fun _ token htoken => ⟨token, htoken, Or.inl rfl⟩

omit R in
theorem Advances.trans {a b c : SyncNextLink} (hab : Advances a b) (hbc : Advances b c) :
    Advances a c := by
  intro direction token htoken
  obtain ⟨token', htoken', h⟩ := hab direction token htoken
  obtain ⟨token'', htoken'', h'⟩ := hbc direction token' htoken'
  refine ⟨token'', htoken'', ?_⟩
  obtain rfl | h := h
  · exact h'
  · obtain rfl | h' := h'
    · exact Or.inr h
    · exact Or.inr (h.trans h')

omit R in
theorem advances_withCheckpoint {direction : Direction} {link : SyncNextLink} {token : ProgressToken}
    (h : canAdvance (direction.checkpoint link) token = .ok true) (updatedAt : String) :
    Advances link (direction.withCheckpoint link token updatedAt) := by
  intro d t ht
  by_cases hd : d = direction
  · subst hd
    refine ⟨token, ?_, Or.inr (canAdvance_eq_true h t ht)⟩
    cases d <;> rfl
  · refine ⟨t, ?_, Or.inl rfl⟩
    cases d <;> cases direction <;> first | exact absurd rfl hd | exact ht

/-- The link of a key after a call: a new one with the lifetime the call brings, or the one before
it, in the same lifetime and no further back. -/
theorem link_effect {s s' : Progress} {options : Options} {now : Int} {call : Call}
    (he : Effect options now s call s')
    {key : String} {link' : SyncNextLink} (hlink' : get s'.links key = some link') :
    (get s.links key = none ∧ ∃ input, call = .getOrCreateLink input link'.lifetimeId) ∨
      ∃ link, get s.links key = some link ∧ link'.lifetimeId = link.lifetimeId ∧
        Advances link link' := by
  have same (h : get s.links key = some link') : ∃ link, get s.links key = some link ∧
      link'.lifetimeId = link.lifetimeId ∧ Advances link link' := ⟨link', h, rfl, .refl link'⟩
  cases he with
  | unchanged => exact Or.inr (same hlink')
  | @created input key' link hkey hnone =>
    by_cases hkey' : key = key'
    · subst hkey'
      rw [batch_cons, batch_nil, get_put, Option.some.injEq] at hlink'
      subst hlink'
      exact Or.inl ⟨hnone, input, rfl⟩
    · rw [get_batch_of_forall_ne (by simpa [Operation.key] using hkey')] at hlink'
      exact Or.inr (same hlink')
  | @retired _ _ key' =>
    rw [get_batch_del_one] at hlink'
    split at hlink'
    · cases hlink'
    · exact Or.inr (same hlink')
  | @removed _ _ key' =>
    rw [get_batch_del_one] at hlink'
    split at hlink'
    · cases hlink'
    · exact Or.inr (same hlink')
  | @pulled _ _ link _ _ key' _ _ _ hc =>
    rw [hc.links] at hlink'
    by_cases hkey' : key = key'
    · subst hkey'
      rw [batch_cons, batch_nil, get_put, Option.some.injEq] at hlink'
      subst hlink'
      refine Or.inr ⟨link, hc.stored, rfl, ?_⟩
      apply advances_withCheckpoint
      exact hc.advance
    · rw [get_batch_of_forall_ne (by simpa [Operation.key] using hkey')] at hlink'
      exact Or.inr (same hlink')
  | @pushed _ link _ _ key' _ _ _ _ _ _ hc =>
    rw [hc.links] at hlink'
    by_cases hkey' : key = key'
    · subst hkey'
      rw [batch_cons, batch_nil, get_put, Option.some.injEq] at hlink'
      subst hlink'
      refine Or.inr ⟨link, hc.stored, rfl, ?_⟩
      apply advances_withCheckpoint
      exact hc.advance
    · rw [get_batch_of_forall_ne (by simpa [Operation.key] using hkey')] at hlink'
      exact Or.inr (same hlink')
  | rotated => exact Or.inr (same hlink')
  | materialized => exact Or.inr (same hlink')
  | attempted _ _ _ _ _ ha =>
    cases ha with
    | delivered => exact Or.inr (same hlink')
    | deliveredAlone => exact Or.inr (same hlink')
    | rotated => exact Or.inr (same hlink')
  | tenantDeleted =>
    change get (Level.clear _ s.links) key = some link' at hlink'
    rw [get_clear] at hlink'
    split at hlink'
    · cases hlink'
    · exact Or.inr (same hlink')
  | cleared => cases hlink'

end SyncNextProgressStore

end EnboxDwn.Agent
