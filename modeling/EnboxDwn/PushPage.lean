import EnboxDwn.FeedPage

/-! Delivery of one local feed page to a remote endpoint. Every attempted entry is settled or stays
to be delivered; what a later write of the same record has made obsolete is settled with it. -/
namespace EnboxDwn.Agent

/-! ## Outcomes -/

inductive PushFailureKind where
  | invalid | deferred | incomplete
  deriving DecidableEq, Repr

/-- A failed push root with diagnostic info from the latest attempt. -/
structure PushFailure where
  cid : String
  kind : Option PushFailureKind := none
  reason : Option String := none
  terminal : Bool := false
  tenantInactive : Bool := false
  quotaBlocked : Bool := false
  localMissing : Bool := false
  localDataUnavailable : Bool := false
  localStatusCode : Option Nat := none
  module : Option String := none
  dependencyCid : Option String := none
  detail : Option String := none
  deriving DecidableEq, Repr

/-- `acknowledged` names the roots and the dependencies that the remote has taken. -/
structure PushResult where
  succeeded : List String
  acknowledged : List String := []
  failed : List PushFailure
  deriving DecidableEq, Repr

/-- Classify one push failure by the work it prevents, shared by page intake and retry. -/
def syncNextDeliveryOutcome (failure : PushFailure) : SyncNextDeliveryOutcome :=
  if failure.quotaBlocked then { blockScope := some .link, reason := .quota }
  else if failure.tenantInactive then
    { blockScope := some .link, reason := .authorizationUnresolved }
  else if failure.kind = some .invalid ∨ failure.terminal then { reason := .remoteRejected }
  else if failure.localStatusCode = some 401 ∨ failure.localStatusCode = some 403 then
    { blockScope := some .link, reason := .authorizationUnresolved }
  else if failure.localStatusCode.any fun code => code = 408 ∨ code = 429 ∨ code ≥ 500 then
    { blockScope := some .link, reason := .transport }
  else if failure.localDataUnavailable then { reason := .dependency }
  else if failure.localMissing ∨ failure.localStatusCode ≠ none ∨
      failure.kind = some .incomplete then
    { reason := .dependency }
  else if failure.reason = some "record-data-unavailable" then { reason := .remoteIncomplete }
  else if failure.kind = some .deferred then
    { blockScope := some .link, reason := .remoteIncomplete }
  else { blockScope := some .endpoint, reason := .transport }

/-! ## Classification -/

def recordIdForRecordsWrite : GenericMessage → Option String
  | .recordsWrite m => some m.recordId
  | _ => none

def deliveryInput (prepared : SyncNextPreparedFeedEntry) (outcome : SyncNextDeliveryOutcome) :
    SyncNextDeliveryInput :=
  { prepared.receipt with
    outcome
    writeRecordId := recordIdForRecordsWrite prepared.message
    wasLatestBaseState := prepared.entry.isLatestBaseState.getD false }

namespace SyncNextProgressStore

/-- `Map.set`: a key keeps the place where it was first set. -/
def HandledWrites.set (handledWrites : HandledWrites) (recordId : String)
    (handled : SyncNextHandledWrite) : HandledWrites :=
  if (handledWrites.lookup recordId).isSome then
    handledWrites.map fun e => if e.1 = recordId then (recordId, handled) else e
  else handledWrites ++ [(recordId, handled)]

end SyncNextProgressStore

namespace SyncNextPushPage
open SyncNextProgressStore

structure Classification where
  blocked : Option SyncNextDeliveryOutcome := none
  delivery : List SyncNextDeliveryInput := []
  handledWrites : HandledWrites := []
  settled : List SyncNextSourceReceipt := []
  entryCount : Nat := 0
  deriving DecidableEq

structure ClassifiedPushPage where
  acknowledged : Nat
  blocked : Option SyncNextDeliveryOutcome
  delivery : List SyncNextDeliveryInput
  entryCount : Nat
  handledWrites : List SyncNextHandledWrite
  settled : List SyncNextSourceReceipt
  deriving DecidableEq

/-- What happens around one entry: whether the work may continue, what the push answers, nothing
when its budget is spent, and whether the work may continue after it. -/
structure PushAttempt where
  shouldContinue : Bool
  result : Except Thrown (Option PushResult)
  shouldContinueAfter : Bool

def rememberHandledWrite (handledWrites : HandledWrites) (prepared : SyncNextPreparedFeedEntry) :
    Except Thrown HandledWrites :=
  let recordId :=
    if prepared.entry.isLatestBaseState.getD false then recordIdForRecordsWrite prepared.message
    else none
  match recordId with
  | none => .ok handledWrites
  | some recordId =>
    match handledWrites.lookup recordId with
    | none => .ok (handledWrites.set recordId { recordId, receipt := prepared.receipt })
    | some previous => do
      if ← syncNextSourceAtOrBefore previous.receipt.source prepared.receipt.source then
        .ok (handledWrites.set recordId { recordId, receipt := prepared.receipt })
      else .ok handledWrites

def recordDisposition (prepared : SyncNextPreparedFeedEntry) (result : PushResult)
    (c : Classification) : Except Thrown Classification :=
  if prepared.entry.messageCid.any fun cid => cid ∈ result.succeeded then do
    let handledWrites ← rememberHandledWrite c.handledWrites prepared
    return { c with
      blocked := none
      handledWrites
      settled := c.settled ++ [prepared.receipt]
      entryCount := c.entryCount + 1 }
  else
    match result.failed.find? fun candidate => some candidate.cid = prepared.entry.messageCid with
    | none => .error (.error ("SyncNextPushPage: push returned no disposition for " ++
        prepared.entry.messageCid.getD "undefined" ++ "."))
    | some failure =>
      let outcome := syncNextDeliveryOutcome failure
      .ok { c with
        blocked := if outcome.blockScope = none then none else some outcome
        delivery := c.delivery ++ [deliveryInput prepared outcome]
        entryCount := c.entryCount + 1 }

def partitionCoveredDelivery (handledWrites : HandledWrites) :
    List SyncNextDeliveryInput →
      Except Thrown (List SyncNextSourceReceipt × List SyncNextDeliveryInput)
  | [] => .ok ([], [])
  | input :: delivery => do
    let isCovered ←
      match input.writeRecordId with
      | none => .ok false
      | some recordId =>
        match handledWrites.lookup recordId with
        | none => .ok false
        | some handled => syncNextSourceAtOrBefore input.source handled.receipt.source
    let (covered, pending) ← partitionCoveredDelivery handledWrites delivery
    return if isCovered then (input.toSyncNextSourceReceipt :: covered, pending)
      else (covered, input :: pending)

def finishClassifiedPushPage (c : Classification) : Except Thrown ClassifiedPushPage := do
  let (covered, pending) ← partitionCoveredDelivery c.handledWrites c.delivery
  return {
    acknowledged := c.settled.length
    blocked := c.blocked
    delivery := pending
    entryCount := c.entryCount
    handledWrites := c.handledWrites.map Prod.snd
    settled := c.settled ++ covered }

/-- Nothing is classified when the work is stopped. -/
def classifyPage (attempts : Nat → PushAttempt) :
    List SyncNextPreparedFeedEntry → Classification → Except Thrown (Option ClassifiedPushPage)
  | [], c => do return some (← finishClassifiedPushPage c)
  | prepared :: entries, c =>
    let attempt := attempts c.entryCount
    if ¬ attempt.shouldContinue then .ok none
    else
      match c.blocked with
      | some blocked =>
        classifyPage attempts entries
          { c with
            delivery := c.delivery ++ [deliveryInput prepared blocked]
            entryCount := c.entryCount + 1 }
      | none => do
        match ← attempt.result with
        | none =>
          if attempt.shouldContinueAfter then return some (← finishClassifiedPushPage c)
          else return none
        | some result =>
          if ¬ attempt.shouldContinueAfter then return none
          else classifyPage attempts entries (← recordDisposition prepared result c)

/-! ## Covered deliveries -/

theorem partitionCoveredDelivery_cons {handledWrites : HandledWrites} {input : SyncNextDeliveryInput}
    {delivery : List SyncNextDeliveryInput} :
    partitionCoveredDelivery handledWrites (input :: delivery) = do
      let isCovered ← deliveryIsCovered input.source input.writeRecordId handledWrites
      let (covered, pending) ← partitionCoveredDelivery handledWrites delivery
      return if isCovered then (input.toSyncNextSourceReceipt :: covered, pending)
        else (covered, input :: pending) := by
  rw [partitionCoveredDelivery]
  unfold deliveryIsCovered
  cases input.writeRecordId with
  | none => rfl
  | some recordId =>
    dsimp only [Option.bind_some]
    cases handledWrites.lookup recordId <;> rfl

theorem partitionCoveredDelivery_eq_ok {handledWrites : HandledWrites}
    {delivery pending : List SyncNextDeliveryInput} {covered : List SyncNextSourceReceipt}
    (h : partitionCoveredDelivery handledWrites delivery = .ok (covered, pending)) :
    (∃ inputs, filterThrowing (fun e => deliveryIsCovered e.source e.writeRecordId handledWrites)
        delivery = .ok inputs ∧ covered = inputs.map (·.toSyncNextSourceReceipt)) ∧
      filterThrowing
        (fun e => do return !(← deliveryIsCovered e.source e.writeRecordId handledWrites))
        delivery = .ok pending ∧
      (pending.map (·.toSyncNextSourceReceipt) ++ covered).Perm
        (delivery.map (·.toSyncNextSourceReceipt)) := by
  induction delivery generalizing covered pending with
  | nil =>
    cases h
    exact ⟨⟨[], rfl, rfl⟩, rfl, .nil⟩
  | cons input delivery ih =>
    rw [partitionCoveredDelivery_cons] at h
    obtain ⟨isCovered, hcovered, h⟩ := bind_eq_ok h
    obtain ⟨⟨covered', pending'⟩, hrest, h⟩ := bind_eq_ok h
    obtain ⟨⟨inputs, hinputs, rfl⟩, hpending, hperm⟩ := ih hrest
    cases isCovered with
    | true =>
      cases h
      refine ⟨⟨input :: inputs, ?_, rfl⟩, ?_, ?_⟩
      · rw [filterThrowing, hcovered, ok_bind, hinputs]
        rfl
      · rw [filterThrowing, hcovered, hpending]
        rfl
      · exact List.perm_middle.trans (hperm.cons _)
    | false =>
      cases h
      refine ⟨⟨inputs, ?_, rfl⟩, ?_, ?_⟩
      · rw [filterThrowing, hcovered, ok_bind, hinputs]
        rfl
      · rw [filterThrowing, hcovered, hpending]
        rfl
      · exact hperm.cons _

/-! ## Dispositions -/

/-- A current write of the record, among the entries. -/
def IsCurrentWrite (entries : List SyncNextPreparedFeedEntry) (handled : SyncNextHandledWrite) :
    Prop :=
  ∃ p ∈ entries, p.receipt = handled.receipt ∧ p.entry.isLatestBaseState = some true ∧
    recordIdForRecordsWrite p.message = some handled.recordId

/-- Each attempted entry has one disposition, and what covers others was settled. -/
structure Classified (attempted : List SyncNextPreparedFeedEntry) (c : Classification) : Prop where
  count : c.entryCount = attempted.length
  disposed : (c.delivery.map (·.toSyncNextSourceReceipt) ++ c.settled).Perm
    (attempted.map (·.receipt))
  retained : ∀ input ∈ c.delivery, ∃ p ∈ attempted, ∃ outcome, input = deliveryInput p outcome
  handledKeys : (c.handledWrites.map Prod.fst).Nodup
  handled : ∀ e ∈ c.handledWrites, e.2.recordId = e.1 ∧ e.2.receipt ∈ c.settled ∧
    IsCurrentWrite attempted e.2

theorem mem_set {handledWrites : HandledWrites} {recordId : String} {handled : SyncNextHandledWrite}
    {e : String × SyncNextHandledWrite} (h : e ∈ handledWrites.set recordId handled) :
    e ∈ handledWrites ∨ e = (recordId, handled) := by
  unfold HandledWrites.set at h
  split at h
  · obtain ⟨e', he', rfl⟩ := List.mem_map.mp h
    split
    · exact Or.inr rfl
    · exact Or.inl he'
  · obtain h | h := List.mem_append.mp h
    · exact Or.inl h
    · exact Or.inr (List.mem_singleton.mp h)

theorem nodup_set {handledWrites : HandledWrites} {recordId : String}
    {handled : SyncNextHandledWrite} (h : (handledWrites.map Prod.fst).Nodup) :
    ((handledWrites.set recordId handled).map Prod.fst).Nodup := by
  unfold HandledWrites.set
  split
  · have hkeys : (handledWrites.map fun e => if e.1 = recordId then (recordId, handled) else e).map
        Prod.fst = handledWrites.map Prod.fst := by
      rw [List.map_map]
      refine List.map_congr_left fun e _ => ?_
      rw [Function.comp_apply]
      split
      · next heq => exact heq.symm
      · rfl
    rw [hkeys]
    exact h
  · next hnone =>
    rw [List.map_append]
    refine List.nodup_append.mpr ⟨h, List.nodup_singleton _, ?_⟩
    intro key hkey key' hnew heq
    rw [heq, List.mem_singleton.mp hnew] at hkey
    obtain ⟨e, he, hfst⟩ := List.mem_map.mp hkey
    have hlookup : handledWrites.lookup recordId = some e.2 := by
      apply lookup_of_mem h
      rwa [show recordId = e.1 from hfst.symm]
    rw [hlookup] at hnone
    exact hnone rfl

theorem IsCurrentWrite.mono {attempted entries : List SyncNextPreparedFeedEntry}
    {handled : SyncNextHandledWrite} (h : IsCurrentWrite attempted handled) :
    IsCurrentWrite (attempted ++ entries) handled := by
  obtain ⟨p, hp, hwrite⟩ := h
  exact ⟨p, List.mem_append_left _ hp, hwrite⟩

theorem rememberHandledWrite_eq_ok {handledWrites handledWrites' : HandledWrites}
    {prepared : SyncNextPreparedFeedEntry}
    (h : rememberHandledWrite handledWrites prepared = .ok handledWrites') :
    handledWrites' = handledWrites ∨ ∃ recordId, prepared.entry.isLatestBaseState = some true ∧
      recordIdForRecordsWrite prepared.message = some recordId ∧
      handledWrites' = handledWrites.set recordId { recordId, receipt := prepared.receipt } := by
  unfold rememberHandledWrite at h
  dsimp only at h
  split at h
  · cases h
    exact Or.inl rfl
  · next recordId hrecord =>
    split at hrecord
    · next hlatest =>
      have hlatest : prepared.entry.isLatestBaseState = some true := by
        cases hl : prepared.entry.isLatestBaseState with
        | none => simp [hl] at hlatest
        | some b => simpa [hl] using hlatest
      split at h
      · cases h
        exact Or.inr ⟨recordId, hlatest, hrecord, rfl⟩
      · obtain ⟨newer, -, h⟩ := bind_eq_ok h
        split at h
        · cases h
          exact Or.inr ⟨recordId, hlatest, hrecord, rfl⟩
        · cases h
          exact Or.inl rfl
    · cases hrecord

theorem Classified.retain {attempted : List SyncNextPreparedFeedEntry} {c : Classification}
    (h : Classified attempted c) (prepared : SyncNextPreparedFeedEntry)
    (outcome : SyncNextDeliveryOutcome) (blocked : Option SyncNextDeliveryOutcome) :
    Classified (attempted ++ [prepared])
      { c with
        blocked
        delivery := c.delivery ++ [deliveryInput prepared outcome]
        entryCount := c.entryCount + 1 } where
  count := by
    rw [List.length_append, h.count]
    rfl
  disposed := by
    rw [List.map_append, List.map_append, List.append_assoc]
    refine (List.perm_append_comm_assoc _ _ _).trans ?_
    refine List.Perm.trans ?_ List.perm_append_comm
    exact h.disposed.append_left _
  retained := by
    intro input hinput
    obtain hinput | hinput := List.mem_append.mp hinput
    · obtain ⟨p, hp, hinput⟩ := h.retained input hinput
      exact ⟨p, List.mem_append_left _ hp, hinput⟩
    · exact ⟨prepared, by simp, outcome, List.mem_singleton.mp hinput⟩
  handledKeys := h.handledKeys
  handled e he := by
    obtain ⟨hid, hsettled, hcurrent⟩ := h.handled e he
    exact ⟨hid, hsettled, hcurrent.mono⟩

theorem Classified.settle {attempted : List SyncNextPreparedFeedEntry} {c : Classification}
    (h : Classified attempted c) {prepared : SyncNextPreparedFeedEntry}
    {handledWrites : HandledWrites}
    (hremember : rememberHandledWrite c.handledWrites prepared = .ok handledWrites) :
    Classified (attempted ++ [prepared])
      { c with
        blocked := none
        handledWrites
        settled := c.settled ++ [prepared.receipt]
        entryCount := c.entryCount + 1 } where
  count := by
    rw [List.length_append, h.count]
    rfl
  disposed := by
    rw [List.map_append, ← List.append_assoc]
    exact h.disposed.append_right _
  retained := by
    intro input hinput
    obtain ⟨p, hp, hinput⟩ := h.retained input hinput
    exact ⟨p, List.mem_append_left _ hp, hinput⟩
  handledKeys := by
    obtain rfl | ⟨recordId, -, -, rfl⟩ := rememberHandledWrite_eq_ok hremember
    · exact h.handledKeys
    · exact nodup_set h.handledKeys
  handled e he := by
    have hold (he : e ∈ c.handledWrites) : e.2.recordId = e.1 ∧
        e.2.receipt ∈ c.settled ++ [prepared.receipt] ∧
        IsCurrentWrite (attempted ++ [prepared]) e.2 := by
      obtain ⟨hid, hsettled, hcurrent⟩ := h.handled e he
      exact ⟨hid, List.mem_append_left _ hsettled, hcurrent.mono⟩
    obtain rfl | ⟨recordId, hlatest, hrecord, rfl⟩ := rememberHandledWrite_eq_ok hremember
    · exact hold he
    · obtain he | rfl := mem_set he
      · exact hold he
      · exact ⟨rfl, by simp, prepared, by simp, rfl, hlatest, hrecord⟩

theorem Classified.recordDisposition {attempted : List SyncNextPreparedFeedEntry}
    {c c' : Classification} (h : Classified attempted c) {prepared : SyncNextPreparedFeedEntry}
    {result : PushResult} (hrecord : recordDisposition prepared result c = .ok c') :
    Classified (attempted ++ [prepared]) c' := by
  unfold SyncNextPushPage.recordDisposition at hrecord
  split at hrecord
  · obtain ⟨handledWrites, hremember, hrecord⟩ := bind_eq_ok hrecord
    cases hrecord
    exact h.settle hremember
  · split at hrecord
    · cases hrecord
    · cases hrecord
      exact h.retain prepared _ _

/-- However the attempts end, the entries before the one that was not attempted are classified. -/
theorem classifyPage_eq_ok {attempts : Nat → PushAttempt} {entries : List SyncNextPreparedFeedEntry}
    {attempted : List SyncNextPreparedFeedEntry} {c : Classification} {classified : ClassifiedPushPage}
    (h : classifyPage attempts entries c = .ok (some classified)) (hc : Classified attempted c) :
    ∃ done rest c', entries = done ++ rest ∧ Classified (attempted ++ done) c' ∧
      finishClassifiedPushPage c' = .ok classified := by
  induction entries generalizing attempted c with
  | nil =>
    obtain ⟨result, hfinish, h⟩ := bind_eq_ok h
    cases h
    exact ⟨[], [], c, rfl, by rwa [List.append_nil], hfinish⟩
  | cons prepared entries ih =>
    have hnext : ∀ c', Classified (attempted ++ [prepared]) c' →
        classifyPage attempts entries c' = .ok (some classified) →
        ∃ done rest c', prepared :: entries = done ++ rest ∧ Classified (attempted ++ done) c' ∧
          finishClassifiedPushPage c' = .ok classified := by
      intro c' hc' h'
      obtain ⟨done, rest, c'', rfl, hc'', hfinish⟩ := ih h' hc'
      refine ⟨prepared :: done, rest, c'', rfl, ?_, hfinish⟩
      rwa [List.append_assoc] at hc''
    unfold classifyPage at h
    dsimp only at h
    split at h
    · cases h
    · split at h
      · exact hnext _ (hc.retain prepared _ _) h
      · obtain ⟨result, -, h⟩ := bind_eq_ok h
        split at h
        · split at h
          · obtain ⟨result, hfinish, h⟩ := bind_eq_ok h
            cases h
            exact ⟨[], prepared :: entries, c, rfl, by rwa [List.append_nil], hfinish⟩
          · cases h
        · split at h
          · cases h
          · obtain ⟨c', hrecord, h⟩ := bind_eq_ok h
            exact hnext c' (hc.recordDisposition hrecord) h

theorem Classified.empty : Classified [] {} where
  count := rfl
  disposed := .nil
  retained := by simp
  handledKeys := List.nodup_nil
  handled := by simp

theorem entryCount_le {attempts : Nat → PushAttempt} {entries : List SyncNextPreparedFeedEntry}
    {classified : ClassifiedPushPage}
    (h : classifyPage attempts entries {} = .ok (some classified)) :
    classified.entryCount ≤ entries.length := by
  obtain ⟨done, rest, c, rfl, hc, hfinish⟩ := classifyPage_eq_ok h .empty
  obtain ⟨⟨covered, pending⟩, -, hfinish⟩ := bind_eq_ok hfinish
  cases hfinish
  rw [List.nil_append] at hc
  dsimp only
  rw [hc.count, List.length_append]
  omega

theorem classifyPage_disposed {attempts : Nat → PushAttempt}
    {entries : List SyncNextPreparedFeedEntry} {classified : ClassifiedPushPage}
    (h : classifyPage attempts entries {} = .ok (some classified)) :
    (classified.delivery.map (·.toSyncNextSourceReceipt) ++ classified.settled).Perm
      ((entries.take classified.entryCount).map (·.receipt)) := by
  obtain ⟨done, rest, c, rfl, hc, hfinish⟩ := classifyPage_eq_ok h .empty
  obtain ⟨⟨covered, pending⟩, hpartition, hfinish⟩ := bind_eq_ok hfinish
  cases hfinish
  obtain ⟨-, -, hperm⟩ := partitionCoveredDelivery_eq_ok hpartition
  rw [List.nil_append] at hc
  dsimp only
  rw [hc.count, List.take_left]
  refine List.Perm.trans ?_ hc.disposed
  refine List.Perm.trans ?_ (hperm.append_right _)
  rw [List.append_assoc]
  exact List.perm_append_comm.append_left _

end SyncNextPushPage

end EnboxDwn.Agent
