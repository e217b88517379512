import EnboxDwn.WellFormed

/-! Sequences of message-store mutations. Positions are issued once and in order: a row of
a later log has a new position, or it was at its position before, with the same CID. -/
namespace EnboxDwn
open KeyValues MessageStore

variable [P : Platform]

/-- A message whose digest is folded into the fingerprints of its domains. -/
structure FingerprintFold where
  messageCid : Cid
  scopes : List String

def Row.fold (r : Row) : FingerprintFold := ⟨r.cid, r.fingerprintScopes⟩

/-- A mutation of one tenant's part of the message store. -/
inductive StoreCall where
  | put (message : StoredMessage) (indexes : KeyValues)
  | commitLatestState (transition : LatestStateTransition)
  | updateIndexes (messageCid : Cid) (indexes : KeyValues)
  | updateMessageAndIndexes (messageCid : Cid) (message : StoredMessage) (indexes : KeyValues)
  | completeData (messageCid : Cid) (indexes : KeyValues) (encodedData : Option P.Data)
  | delete (messageCid : Cid)

namespace StoreCall

/-- The log a call that does not throw leaves. -/
def perform (log : Log) : StoreCall → Except Failure Log
  | put message indexes => (MessageStore.put log message indexes).map Prod.snd
  | commitLatestState transition => (MessageStore.commitLatestState log transition).map Prod.snd
  | updateIndexes messageCid indexes =>
    (MessageStore.updateIndexes log messageCid indexes).map Prod.snd
  | updateMessageAndIndexes messageCid message indexes =>
    (MessageStore.updateMessageAndIndexes log messageCid message indexes).map Prod.snd
  | completeData messageCid indexes encodedData =>
    (MessageStore.completeData log messageCid indexes encodedData).map Prod.snd
  | delete messageCid => .ok (MessageStore.delete log messageCid)

/-- A call that throws changes nothing. -/
def apply (log : Log) (call : StoreCall) : Log :=
  match call.perform log with
  | .ok log' => log'
  | .error _ => log

/-- The message is folded into the domains its indexes put it in. -/
def insertFold (message : StoredMessage) (indexes : KeyValues) : FingerprintFold :=
  ⟨Message.getCid message, Replication.computeFingerprintScopes message.message indexes⟩

/-- A stored row is folded out by its persisted scopes. -/
def deleteFold (log : Log) (messageCid : Cid) : Option FingerprintFold :=
  (find? log messageCid).map fun r => ⟨messageCid, r.fingerprintScopes⟩

/-- What a call that does not throw folds, in one batch. Rewriting a row folds nothing. -/
def folds (log : Log) : StoreCall → List FingerprintFold
  | put message indexes =>
    if (find? log (Message.getCid message)).isSome then [] else [insertFold message indexes]
  | commitLatestState t =>
    (if inserts log t then [insertFold t.message t.indexes] else []) ++
      t.deletes.filterMap (deleteFold log)
  | delete messageCid => (deleteFold log messageCid).toList
  | _ => []

/-- The CIDs of a transition that are to be deleted. -/
def deletes : StoreCall → List Cid
  | commitLatestState t => t.deletes
  | _ => []

end StoreCall

namespace Log

/-- Positions rise along the log, from one to the head. -/
structure Positioned (log : Log) : Prop where
  rising : (log.rows.map Row.seq).Pairwise (· < ·)
  issued : ∀ r ∈ log.rows, 0 < r.seq ∧ r.seq ≤ log.head
  distinct : (log.rows.map Row.cid).Nodup
  encodable : log.head < Replication.positionLimit

theorem positioned_empty : Positioned ({} : Log) := ⟨by simp, by simp, by simp, by simp [Replication.positionLimit]⟩

/-- What one mutation can do to the positions. -/
structure Evolves (log log' : Log) : Prop where
  head_le : log.head ≤ log'.head
  row : ∀ r' ∈ log'.rows, log.head < r'.seq ∨ ∃ r ∈ log.rows, r.seq = r'.seq ∧ r.cid = r'.cid

theorem Evolves.refl (log : Log) : Evolves log log := ⟨le_rfl, fun r hr => Or.inr ⟨r, hr, rfl, rfl⟩⟩

theorem Evolves.trans {log log' log'' : Log} (h : Evolves log log') (h' : Evolves log' log'') :
    Evolves log log'' where
  head_le := h.head_le.trans h'.head_le
  row := by
    intro r'' hr''
    obtain hnew | ⟨r', hr', hseq, hcid⟩ := h'.row r'' hr''
    · exact Or.inl (lt_of_le_of_lt h.head_le hnew)
    · rw [← hseq, ← hcid]
      exact h.row r' hr'

/-- A mutation that rewrites or drops rows in place and then appends at most one new row. -/
structure Rewrites (log log' : Log) (kept : List Row) : Prop where
  seqs : (kept.map fun r => (r.seq, r.cid)).Sublist (log.rows.map fun r => (r.seq, r.cid))
  appended : log' = { log with rows := kept } ∨
    ∃ new, log' = { rows := kept ++ [new], head := log.head + 1 } ∧ new.seq = log.head + 1 ∧
      new.cid ∉ kept.map Row.cid ∧ log.head + 1 < Replication.positionLimit

section Rewrites
variable {log log' : Log} {kept : List Row}

theorem Rewrites.evolves (h : Rewrites log log' kept) : Evolves log log' := by
  have hkept : ∀ r' ∈ kept, ∃ r ∈ log.rows, r.seq = r'.seq ∧ r.cid = r'.cid := by
    intro r' hr'
    have hmem := h.seqs.subset (List.mem_map_of_mem (f := fun r : Row => (r.seq, r.cid)) hr')
    obtain ⟨r, hr, heq⟩ := List.mem_map.mp hmem
    simp only [Prod.mk.injEq] at heq
    exact ⟨r, hr, heq⟩
  obtain rfl | ⟨new, rfl, hseq, -⟩ := h.appended
  · exact ⟨le_rfl, fun r' hr' => Or.inr (hkept r' hr')⟩
  · refine ⟨Nat.le_succ _, fun r' hr' => ?_⟩
    obtain hr' | hr' := List.mem_append.mp hr'
    · exact Or.inr (hkept r' hr')
    · rw [List.mem_singleton.mp hr', hseq]
      exact Or.inl (Nat.lt_succ_self _)

theorem Rewrites.positioned (h : Rewrites log log' kept) (hlog : log.Positioned) :
    log'.Positioned := by
  have hseqs : (kept.map Row.seq).Sublist (log.rows.map Row.seq) := by
    simpa [List.map_map, Function.comp_def] using h.seqs.map Prod.fst
  have hcids : (kept.map Row.cid).Sublist (log.rows.map Row.cid) := by
    simpa [List.map_map, Function.comp_def] using h.seqs.map Prod.snd
  have hissued : ∀ r ∈ kept, 0 < r.seq ∧ r.seq ≤ log.head := by
    intro r hr
    obtain ⟨r', hr', heq⟩ := List.mem_map.mp (hseqs.subset (List.mem_map_of_mem (f := Row.seq) hr))
    rw [← heq]
    exact hlog.issued r' hr'
  obtain rfl | ⟨new, rfl, hseq, hcid, hroom⟩ := h.appended
  · exact ⟨hlog.rising.sublist hseqs, hissued, hlog.distinct.sublist hcids, hlog.encodable⟩
  · refine ⟨?_, ?_, ?_, hroom⟩
    · rw [List.map_append, List.pairwise_append]
      refine ⟨hlog.rising.sublist hseqs, by simp, ?_⟩
      intro a ha b hb
      obtain ⟨r, hr, rfl⟩ := List.mem_map.mp ha
      rw [List.map_singleton, List.mem_singleton] at hb
      have := (hissued r hr).2
      omega
    · intro r hr
      obtain hr | hr := List.mem_append.mp hr
      · exact ⟨(hissued r hr).1, (hissued r hr).2.trans (Nat.le_succ _)⟩
      · rw [List.mem_singleton.mp hr, hseq]
        exact ⟨Nat.succ_pos _, le_rfl⟩
    · rw [List.map_append, List.nodup_append]
      refine ⟨hlog.distinct.sublist hcids, by simp, ?_⟩
      intro c hc c' hc' heq
      rw [List.map_singleton, List.mem_singleton] at hc'
      exact hcid (hc' ▸ heq ▸ hc)

end Rewrites

end Log

namespace StoreCall
open Log
variable {log log' : Log}

/-- The rows of some CIDs are dropped, the others are kept in place, and at most one is new. -/
structure Exchanges (log log' : Log) (dropped : List Cid) (kept new : List Row) : Prop where
  inPlace : kept.map (fun r => (r.seq, r.fold)) =
    (log.rows.filter fun r => r.cid ∉ dropped).map fun r => (r.seq, r.fold)
  rows : log'.rows = kept ++ new
  appended : new = [] ∧ log'.head = log.head ∨ ∃ r, new = [r] ∧ log'.head = log.head + 1 ∧
    r.seq = log.head + 1 ∧ r.cid ∉ kept.map Row.cid ∧ log.head + 1 < Replication.positionLimit

/-- The dropped rows and the new row are folded, unless one row only moves. -/
inductive Folded (log : Log) (call : StoreCall) (dropped : List Cid) (new : List Row) : Prop
  | displaced (hscopes : ∀ r ∈ new, r.fingerprintScopes.Nodup)
      (hfolds : call.folds log = new.map Row.fold ++ dropped.filterMap (deleteFold log))
      (hdropped : dropped = call.deletes ∨ ∃ c, dropped = [c])
  | moved (r : Row) (hr : r ∈ log.rows) (hfolds : call.folds log = []) (hdropped : dropped = [r.cid])
      (hnew : new.map Row.fold = [r.fold])

theorem absent_of_find? {c : Cid} (h : find? log c = none) : c ∉ log.rows.map Row.cid := by
  intro hc
  obtain ⟨r, hr, rfl⟩ := List.mem_map.mp hc
  have := find?_isSome.mpr ⟨r, hr, rfl⟩
  rw [h] at this
  cases this

theorem assertSameCid_eq_ok {c : Cid} {m : StoredMessage} (h : assertSameCid c m = .ok ()) :
    Message.getCid m = c := by
  unfold assertSameCid at h
  by_cases hc : Message.getCid m = c
  · exact hc
  · simp [hc] at h

theorem room_of_assertInsertable {indexes : KeyValues}
    (h : assertInsertable log indexes = .ok ()) : log.head + 1 < Replication.positionLimit := by
  obtain ⟨_, -, h⟩ := bind_eq_ok h
  unfold Replication.assertPositionEncodable at h
  by_cases hroom : log.head + 1 < Replication.positionLimit
  · exact hroom
  · simp [hroom] at h

theorem map_snd_eq_ok {α : Type} {x : Except Failure (α × Log)}
    (h : x.map Prod.snd = .ok log') : ∃ a, x = .ok (a, log') := by
  cases x with
  | error e => cases h
  | ok r =>
    cases h
    exact ⟨r.1, rfl⟩

/-- One of the mutations that leave the rows as they are, or rewrite them in place. -/
theorem exchanges_map {f : Row → Row} (h : ∀ r, (f r).seq = r.seq ∧ (f r).fold = r.fold) :
    Exchanges log { log with rows := log.rows.map f } [] (log.rows.map f) [] where
  inPlace := by
    rw [List.map_map]
    simp [Function.comp_def, h]
  rows := (List.append_nil _).symm
  appended := Or.inl ⟨rfl, rfl⟩

theorem exchanges_refl : Exchanges log log [] log.rows [] := by
  simpa using exchanges_map (f := id) fun r => ⟨rfl, rfl⟩

theorem fold_applyRetain {x : Retain} (hcid : Message.getCid x.message = x.messageCid) (r : Row) :
    (applyRetain r x).seq = r.seq ∧ (applyRetain r x).fold = r.fold := by
  have hkeeps : (applyRetain r x).seq = r.seq ∧
      (applyRetain r x).fingerprintScopes = r.fingerprintScopes := by
    unfold applyRetain
    split <;> exact ⟨rfl, rfl⟩
  unfold Row.fold
  rw [cid_applyRetain hcid, hkeeps.2]
  exact ⟨hkeeps.1, rfl⟩

theorem fold_foldl_applyRetain {xs : List Retain}
    (hcid : ∀ x ∈ xs, Message.getCid x.message = x.messageCid) (r : Row) :
    (xs.foldl applyRetain r).seq = r.seq ∧ (xs.foldl applyRetain r).fold = r.fold := by
  induction xs generalizing r with
  | nil => exact ⟨rfl, rfl⟩
  | cons x xs ih =>
    have hrest := ih (fun x' hx' => hcid x' (by simp [hx'])) (applyRetain r x)
    have hfirst := fold_applyRetain (hcid x (by simp)) r
    rwa [hfirst.1, hfirst.2] at hrest

/-- What a mutation that does not throw does to the rows, and what it folds. -/
theorem exchanges_of_perform {call : StoreCall} (h : call.perform log = .ok log') :
    ∃ dropped kept new, Exchanges log log' dropped kept new ∧ Folded log call dropped new := by
  cases call with
  | put message indexes =>
    obtain ⟨result, h⟩ := map_snd_eq_ok h
    unfold MessageStore.put at h
    by_cases hstored : (find? log (Message.getCid message)).isSome = true
    · rw [if_pos hstored] at h
      cases h
      exact ⟨_, _, _, exchanges_refl, .displaced (by simp) (by simp [folds, hstored]) (Or.inl rfl)⟩
    · rw [if_neg hstored] at h
      obtain ⟨_, hroom, h⟩ := bind_eq_ok h
      cases h
      have hnone : find? log (Message.getCid message) = none := by simpa using hstored
      exact ⟨[], log.rows, [newRow log message indexes], ⟨by simp, rfl, Or.inr ⟨_, rfl, rfl, rfl,
        absent_of_find? hnone, room_of_assertInsertable hroom⟩⟩,
        .displaced (by simp [newRow, Replication.nodup_computeFingerprintScopes]) (by simp [folds, hstored]; rfl) (Or.inl rfl)⟩
  | commitLatestState t =>
    obtain ⟨result, h⟩ := map_snd_eq_ok h
    unfold MessageStore.commitLatestState at h
    obtain ⟨_, hassert, h⟩ := bind_eq_ok h
    obtain ⟨_, hsame, hassert⟩ := bind_eq_ok hassert
    have hkept := fold_foldl_applyRetain fun x hx => assertSameCid_eq_ok (forM_eq_ok hsame x hx)
    have hdisplaced : (displace log.rows t).map (fun r => (r.seq, r.fold)) =
        (log.rows.filter fun r => r.cid ∉ t.deletes).map fun r => (r.seq, r.fold) := by
      have hcid : ∀ r, (t.retains.foldl applyRetain r).cid = r.cid := fun r =>
        congrArg FingerprintFold.messageCid (hkept r).2
      unfold displace
      rw [List.filter_map, List.map_map]
      simp only [Function.comp_def, hkept, hcid]
    by_cases hins : inserts log t = true
    · rw [if_pos hins] at h
      cases h
      rw [if_pos hins] at hassert
      obtain ⟨_, hroom, -⟩ := bind_eq_ok hassert
      refine ⟨t.deletes, _, [newRow log t.message t.indexes], ⟨hdisplaced, rfl, Or.inr ⟨_, rfl, rfl,
        rfl, fun hc => ?_, room_of_assertInsertable hroom⟩⟩,
        .displaced (by simp [newRow, Replication.nodup_computeFingerprintScopes]) (by simp [folds, hins]; rfl) (Or.inl rfl)⟩
      have hnone : find? log (Message.getCid t.message) = none := by simpa [inserts] using hins
      have hcids := congrArg (List.map fun p : Nat × FingerprintFold => p.2.messageCid) hdisplaced
      rw [List.map_map, List.map_map] at hcids
      exact absent_of_find? hnone ((List.filter_sublist.map _).subset (hcids ▸ hc))
    · rw [if_neg hins] at h
      cases h
      exact ⟨t.deletes, _, [], ⟨hdisplaced, by simp, Or.inl ⟨rfl, rfl⟩⟩,
        .displaced (by simp) (by simp [folds, hins]) (Or.inl rfl)⟩
  | updateIndexes messageCid indexes =>
    obtain ⟨result, h⟩ := map_snd_eq_ok h
    obtain ⟨_, -, h⟩ := bind_eq_ok h
    obtain ⟨_, -, h⟩ := bind_eq_ok h
    obtain ⟨_, -, h⟩ := bind_eq_ok h
    cases h
    refine ⟨_, _, _, exchanges_map fun r => ?_, .displaced (by simp) rfl (Or.inl rfl)⟩
    split <;> exact ⟨rfl, rfl⟩
  | updateMessageAndIndexes messageCid message indexes =>
    obtain ⟨result, h⟩ := map_snd_eq_ok h
    obtain ⟨_, hsame, h⟩ := bind_eq_ok h
    obtain ⟨_, -, h⟩ := bind_eq_ok h
    cases h
    exact ⟨_, _, _, exchanges_map fun r => fold_applyRetain (assertSameCid_eq_ok hsame) r,
      .displaced (by simp) rfl (Or.inl rfl)⟩
  | completeData messageCid indexes encodedData =>
    obtain ⟨result, h⟩ := map_snd_eq_ok h
    obtain rfl | ⟨row, w, row', hrow, rfl, hmsg, -, -, hmsg', -, hscopes, hseq, hroom, hhead,
      hrows⟩ := completeData_eq_ok h
    · exact ⟨_, _, _, exchanges_refl, .displaced (by simp) rfl (Or.inl rfl)⟩
    · have hcid : row'.cid = row.cid := by
        simp only [Row.cid, Message.getCid, hmsg, hmsg']
      refine ⟨[row.cid], _, [row'], ⟨by simp, hrows, Or.inr ⟨row', rfl, hhead, hseq, ?_,
        room_of_assertInsertable hroom⟩⟩, .moved row hrow rfl rfl (by simp [Row.fold, hcid, hscopes])⟩
      rw [hcid]
      simp
  | delete messageCid =>
    cases h
    refine ⟨[messageCid], log.rows.filter fun r => r.cid ≠ messageCid, [],
      ⟨by simp, (List.append_nil _).symm, Or.inl ⟨rfl, rfl⟩⟩, .displaced (by simp) ?_ (Or.inr ⟨_, rfl⟩)⟩
    cases hfold : deleteFold log messageCid with
    | none => simp [folds, hfold]
    | some fold => simp [folds, hfold]

/-- Every mutation rewrites rows in place, drops rows, or appends one new row. -/
theorem rewrites_of_perform {call : StoreCall} (h : call.perform log = .ok log') :
    ∃ kept, Rewrites log log' kept := by
  obtain ⟨dropped, kept, new, h, -⟩ := exchanges_of_perform h
  have hseqs : kept.map (fun r => (r.seq, r.cid)) =
      (log.rows.filter fun r => r.cid ∉ dropped).map fun r => (r.seq, r.cid) := by
    have hplaced := congrArg (List.map fun p => (p.1, p.2.messageCid)) h.inPlace
    rwa [List.map_map, List.map_map] at hplaced
  have hrows := h.rows
  refine ⟨kept, hseqs ▸ List.filter_sublist.map _, ?_⟩
  cases log' with
  | mk rows head =>
    obtain ⟨rfl, hhead⟩ | ⟨r, rfl, hhead, hnew⟩ := h.appended
    · exact Or.inl (by simp_all)
    · exact Or.inr ⟨r, by simp_all, hnew⟩

theorem evolves_apply (log : Log) (call : StoreCall) : Evolves log (call.apply log) := by
  unfold apply
  cases h : call.perform log with
  | error e => exact Evolves.refl log
  | ok log' =>
    obtain ⟨kept, hkept⟩ := rewrites_of_perform h
    exact hkept.evolves

theorem positioned_apply (h : log.Positioned) (call : StoreCall) : (call.apply log).Positioned := by
  unfold apply
  cases hc : call.perform log with
  | error e => exact h
  | ok log' =>
    obtain ⟨kept, hkept⟩ := rewrites_of_perform hc
    exact hkept.positioned h

end StoreCall

end EnboxDwn
