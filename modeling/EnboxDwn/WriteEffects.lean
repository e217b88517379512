import EnboxDwn.ConcurrentRuns

/-! What processing one write can do to the logs: nothing, complete a stored write, or
commit the write and then delete rows. An invariant of the logs is shown once for each of
these and then holds after every write. -/
namespace EnboxDwn
open Journal MessageStore StorageController

variable [P : Platform]

/-- What holds of all logs before and after a mutation of one of them holds where it leads. -/
theorem Stores.leads_withLog_update {α : Type} {tenant : Did} {f : Log → Except Failure (α × Log)}
    {logs : Did → Log} {Q : (Did → Log) → Prop} (hlogs : Q logs)
    (h : ∀ a log', f (logs tenant) = .ok (a, log') → Q (Function.update logs tenant log')) :
    Program.Leads (fun s => s.messages = logs) (fun s => Q s.messages) (withLog tenant f) := by
  refine Program.leads_mutate (fun s hs => by rwa [hs]) fun s a t hs hok => ?_
  rw [hs] at hok
  cases hf : f (logs tenant) with
  | error e => simp [hf, Except.map] at hok
  | ok result =>
    rw [hf] at hok
    cases hok
    have hq := h result.1 result.2 hf
    rwa [← hs] at hq

namespace RecordsWriteHandler

section Admission
variable (deps : HandlerDependencies) (tenant : Did) (m : RecordsWriteMessage) (s : Stores)

/-- The messages of the write's record. -/
abbrev existingMessages : List StoredMessage :=
  query (s.messages tenant) [recordFilter m.recordId]

/-- What has been checked of a write when it is committed. -/
structure Admitted : Prop where
  parsed : RecordsWrite.parse deps m = .ok ()
  fresh : ∀ x ∈ existingMessages tenant m s, Message.getCid x ≠ Message.getCid (RecordsWrite.stored m)
  checked : checkAdmission deps tenant m (existingMessages tenant m s) s = .ok ()
  newest : ∀ n, Message.getNewestMessage (existingMessages tenant m s) = some n →
    Message.isNewer (RecordsWrite.stored m) n = true ∧ n.isRecordsDelete = false

end Admission

section Admission
variable {deps : HandlerDependencies} {tenant : Did} {m : RecordsWriteMessage} {s : Stores}

omit P in
theorem orReply_eq_ok {α : Type} {r : Except Failure α} {code : Nat} {a : α}
    (h : orReply r code = .ok a) : r = .ok a := by
  unfold orReply at h
  cases r with
  | error e => cases h
  | ok b =>
    cases h
    rfl

theorem Admitted.outcome (h : Admitted deps tenant m s) : ∃ initialWrite ruleSet,
    getInitialWrite (existingMessages tenant m s) (RecordsWrite.isInitialWrite m) =
      .ok initialWrite ∧
    deps.validateReferentialIntegrity s tenant m = .ok ruleSet ∧
    verifyImmutableProperties initialWrite m = .ok () ∧
    enforceSquashBackstop s tenant m ruleSet = .ok () := by
  have hchecked := h.checked
  unfold checkAdmission at hchecked
  obtain ⟨initialWrite, hinitial, hchecked⟩ := bind_eq_ok hchecked
  obtain ⟨ruleSet, hrule, hchecked⟩ := bind_eq_ok hchecked
  obtain ⟨_, -, hchecked⟩ := bind_eq_ok hchecked
  obtain ⟨_, -, hchecked⟩ := bind_eq_ok hchecked
  obtain ⟨_, himmutable, hchecked⟩ := bind_eq_ok hchecked
  exact ⟨initialWrite, ruleSet, orReply_eq_ok hinitial, orReply_eq_ok hrule,
    orReply_eq_ok himmutable, orReply_eq_ok hchecked⟩

/-- An update has an initial write beside it and agrees with it. -/
theorem Admitted.exists_initialWrite (h : Admitted deps tenant m s)
    (hupdate : RecordsWrite.isInitialWrite m = false) :
    ∃ i, RecordsWrite.getInitialWrite (existingMessages tenant m s) = .ok i ∧
      RecordsWrite.immutableProperties i.descriptor =
        RecordsWrite.immutableProperties m.descriptor := by
  obtain ⟨initialWrite, -, hinitial, -, himmutable, -⟩ := h.outcome
  unfold getInitialWrite at hinitial
  rw [hupdate, if_neg (by simp)] at hinitial
  cases hget : RecordsWrite.getInitialWrite (existingMessages tenant m s) with
  | error e => simp [hget, Except.map] at hinitial
  | ok i =>
    rw [hget] at hinitial
    cases hinitial
    refine ⟨i, rfl, ?_⟩
    by_contra hne
    simp [verifyImmutableProperties, RecordsWrite.verifyEqualityOfImmutableProperties, hne]
      at himmutable

end Admission

/-! ## The rule -/

section Rule
variable {deps : HandlerDependencies} {tenant : Did} {m : RecordsWriteMessage} {s : Stores}
  {Q : (Did → Log) → Prop}
  (hcommit : ∀ newMessage latest result log', Admitted deps tenant m s →
    newMessage.message = .recordsWrite m →
    commitLatestState (s.messages tenant) (planTransition (existingMessages tenant m s) newMessage
      (RecordsWrite.constructIndexes m latest) []) = .ok (result, log') →
    Q (Function.update s.messages tenant log'))
  (hcomplete : ∀ encodedData result log',
    completeData (s.messages tenant) (Message.getCid (RecordsWrite.stored m))
      (RecordsWrite.constructIndexes m true) encodedData = .ok (result, log') →
    Q (Function.update s.messages tenant log'))
  (hdelete : ∀ logs cid, Q logs → Q (Function.update logs tenant (delete (logs tenant) cid)))
  (hs : Q s.messages)

include hdelete in
theorem preserves_deleteMessage_of_rule (cid : Cid) :
    Program.Preserves (fun t : Stores => Q t.messages) (Stores.deleteMessage tenant cid) := by
  intro t u hu ht
  rw [Stores.trail_deleteMessage, List.mem_singleton] at hu
  subst hu
  exact hdelete t.messages cid ht


include hs hcommit hdelete in
theorem leads_commitIfNewest_of_rule (hparsed : RecordsWrite.parse deps m = .ok ())
    (hfresh : ∀ x ∈ existingMessages tenant m s,
      Message.getCid x ≠ Message.getCid (RecordsWrite.stored m))
    (hchecked : checkAdmission deps tenant m (existingMessages tenant m s) s = .ok ())
    (dataStream : Option P.Data) :
    Program.Leads (fun t : Stores => t.messages = s.messages) (fun t => Q t.messages)
      (commitIfNewest deps tenant m dataStream (existingMessages tenant m s)) := by
  have hkeep : ∀ t : Stores, t.messages = s.messages → Q t.messages := fun t ht => by rwa [ht]
  unfold commitIfNewest
  split
  · exact hkeep
  next hnewest =>
  have hwrite : Program.Leads (fun t : Stores => t.messages = s.messages) (fun t => Q t.messages)
      (commitRecordsWrite deps tenant m dataStream (existingMessages tenant m s)) := by
    unfold commitRecordsWrite
    dsimp only
    split
    · exact hkeep
    next htomb =>
    have hadmitted : Admitted deps tenant m s := by
      refine ⟨hparsed, hfresh, hchecked, fun n hn => ?_⟩
      rw [hn] at hnewest htomb
      exact ⟨by simpa using hnewest, by simpa using htomb⟩
    refine Program.leads_bind (Program.Preserves.leads (Program.moves_check _)) hkeep fun _ => ?_
    split
    · exact hkeep
    refine Program.leads_bind_of_yields (Program.Preserves.leads
      (preserves_messages_processData (Q := fun logs => logs = s.messages) m dataStream _))
      (yields_processData m dataStream _) hkeep fun processed hprocessed => ?_
    refine Program.leads_bind (show Program.Leads _ (fun t : Stores => Q t.messages) _ from
      Stores.leads_withLog_update hs fun result log' hok =>
        hcommit processed.1 processed.2 result log' hadmitted hprocessed.1 hok)
      (fun _ ht => ht) fun result => Program.Preserves.leads ?_
    refine Program.moves_bind (Program.moves_forEach (fun x => ?_) _) fun _ => Program.moves_pure _
    unfold deleteFromDataStoreIfNeeded
    repeat' split
    all_goals first | exact Program.moves_pure _ | exact preserves_messages_deleteData _
  refine Program.leads_bind hwrite (fun _ ht => ht) fun outcome => Program.Preserves.leads ?_
  split
  · exact preserves_mapCommitWriteErrorToReply _
  · refine Program.moves_bind ?_ fun _ => Program.moves_pure _
    exact Purging.postProcess (preserves_deleteMessage_of_rule hdelete)
      preserves_messages_deleteData m

include hs hcomplete in
theorem leads_handleExisting_of_rule (dataStream : Option P.Data) (existingMessage : StoredMessage) :
    Program.Leads (fun t : Stores => t.messages = s.messages) (fun t => Q t.messages)
      (handleExistingRecordsWrite deps tenant m dataStream existingMessage
        (existingMessages tenant m s)) := by
  have hkeep : ∀ t : Stores, t.messages = s.messages → Q t.messages := fun t ht => by rwa [ht]
  unfold handleExistingRecordsWrite
  split
  · exact hkeep
  next data =>
  refine Program.leads_bind (Program.Preserves.leads (Program.moves_read _)) hkeep fun ok => ?_
  split
  · exact hkeep
  have hdone : Program.Leads (fun t : Stores => t.messages = s.messages) (fun t => Q t.messages)
      (completeExisting deps tenant m data) := by
    refine Program.leads_bind (Program.Preserves.leads
      (preserves_messages_processMessageWithDataStream (Q := fun logs => logs = s.messages)
        m data)) hkeep fun completed => ?_
    exact Stores.leads_withLog_update hs fun result log' hok =>
      hcomplete completed.encodedData result log' hok
  refine Program.leads_bind hdone (fun _ ht => ht) fun outcome => Program.Preserves.leads ?_
  split
  · exact Program.moves_pure _
  · exact Program.moves_pure _
  · split
    · exact Program.moves_pure _
    · exact preserves_mapCommitWriteErrorToReply _

include hs hcommit hcomplete hdelete in
/-- An invariant that commits, completions and deletions keep holds after the write. -/
theorem handle_rule (dataStream : Option P.Data) :
    Q ((handle deps tenant m dataStream).final s).messages := by
  unfold handle
  cases hparsed : RecordsWrite.parse deps m with
  | error e => exact hs
  | ok _ =>
    rw [Program.final_bind_ok (Stores.result_query tenant _ s), Stores.final_query]
    unfold handleOn
    split
    · exact leads_handleExisting_of_rule hcomplete hs dataStream _ s rfl
    next hfind =>
    rw [Program.final_bind_ok (Program.result_read s _), Program.final_read]
    cases hchecked : checkAdmission deps tenant m (existingMessages tenant m s) s with
    | error reply => exact hs
    | ok _ =>
      refine leads_commitIfNewest_of_rule hcommit hdelete hs hparsed (fun x hx hc => ?_) hchecked
        dataStream s rfl
      exact absurd (decide_eq_true hc) (List.find?_eq_none.mp hfind x hx)

end Rule

end RecordsWriteHandler

end EnboxDwn
