import EnboxDwn.LogRead
import Mathlib.Algebra.BigOperators.Group.List.Basic
import Mathlib.Algebra.Ring.Parity

/-! Fingerprints of the message store. The fingerprint of a domain is the XOR of the digests of the
messages that are in it; a row is folded out by the digest that folded it in. -/
namespace EnboxDwn
open MessageStore

variable [P : Platform]

@[ext] structure Fingerprint where
  byte : Fin 32 → UInt8

namespace Replication

def hashMessageCid (messageCid : Cid) : Fingerprint := ⟨P.sha256 messageCid⟩

def emptyFingerprint : Fingerprint := ⟨fun _ => 0⟩

def xorFingerprint (fingerprint contribution : Fingerprint) : Fingerprint :=
  ⟨fun i => fingerprint.byte i ^^^ contribution.byte i⟩

end Replication
open Replication

namespace Fingerprint

instance zero : Zero Fingerprint := ⟨emptyFingerprint⟩
instance add : Add Fingerprint := ⟨xorFingerprint⟩

instance addCommMonoid : AddCommMonoid Fingerprint where
  add_assoc _ _ _ := Fingerprint.ext (funext fun _ => UInt8.xor_assoc ..)
  zero_add _ := Fingerprint.ext (funext fun _ => UInt8.zero_xor)
  add_zero _ := Fingerprint.ext (funext fun _ => UInt8.xor_zero)
  add_comm _ _ := Fingerprint.ext (funext fun _ => UInt8.xor_comm ..)
  nsmul := nsmulRec

omit P in
/-- XOR is self-inverse. -/
theorem add_self (a : Fingerprint) : a + a = 0 :=
  Fingerprint.ext (funext fun _ => UInt8.xor_self)

omit P in
theorem odd_nsmul {n : Nat} (h : Odd n) (a : Fingerprint) : n • a = a := by
  obtain ⟨k, rfl⟩ := h
  rw [add_nsmul, mul_nsmul, two_nsmul, add_self, nsmul_zero, one_nsmul, zero_add]

end Fingerprint

/-- The uniform beginning keeps the global domain (the empty string) a valid key. -/
def fingerprintKey (scope : String) : String := "d" ++ scope

/-- The digest of a message is combined with what its domain has got so far. -/
def combine (messageCid : Cid) (combined : String → Option Fingerprint) (scope : String) :
    String → Option Fingerprint :=
  Function.update combined (fingerprintKey scope) (some
    (match combined (fingerprintKey scope) with
    | none => hashMessageCid messageCid
    | some fingerprint => xorFingerprint fingerprint (hashMessageCid messageCid)))

/-- One read, one fold and one write for each domain that the messages of the batch are in. -/
def createFingerprintFoldOperationsForMessages (stored : String → Option Fingerprint)
    (folds : List FingerprintFold) : String → Option Fingerprint := fun key =>
  match folds.foldl (fun combined fold => fold.scopes.foldl (combine fold.messageCid) combined)
      (fun _ => none) key with
  | none => stored key
  | some contribution => some (xorFingerprint ((stored key).getD emptyFingerprint) contribution)

/-- The fingerprint of a domain, where a missing one is empty. -/
def valueOf (fingerprints : String → Option Fingerprint) (domain : String) : Fingerprint :=
  (fingerprints (fingerprintKey domain)).getD emptyFingerprint

def FingerprintFold.contribution (domain : String) (fold : FingerprintFold) : Fingerprint :=
  fold.scopes.count domain • hashMessageCid fold.messageCid

section Folds
variable {domain : String} {combined stored : String → Option Fingerprint}

theorem valueOf_combine (messageCid : Cid) (scope : String) :
    valueOf (combine messageCid combined scope) domain =
      valueOf combined domain + (if scope == domain then 1 else 0) • hashMessageCid messageCid := by
  unfold valueOf combine
  by_cases hscope : scope = domain
  · subst hscope
    rw [Function.update_self, BEq.rfl, if_pos rfl, one_nsmul]
    cases combined (fingerprintKey scope) with
    | none => exact (zero_add _).symm
    | some fingerprint => rfl
  · have hkey : fingerprintKey domain ≠ fingerprintKey scope := by
      simpa [fingerprintKey] using Ne.symm hscope
    rw [Function.update_of_ne hkey, if_neg (by simpa using hscope), zero_nsmul,
      add_zero]

theorem valueOf_scopes (messageCid : Cid) (scopes : List String) :
    valueOf (scopes.foldl (combine messageCid) combined) domain =
      valueOf combined domain + scopes.count domain • hashMessageCid messageCid := by
  induction scopes generalizing combined with
  | nil => rw [List.count_nil, zero_nsmul, add_zero, List.foldl_nil]
  | cons scope scopes ih =>
    rw [List.foldl_cons, ih, valueOf_combine, List.count_cons, add_comm (scopes.count domain),
      add_nsmul, add_assoc]

theorem valueOf_folds (folds : List FingerprintFold) :
    valueOf (folds.foldl (fun combined fold => fold.scopes.foldl (combine fold.messageCid) combined)
        combined) domain =
      valueOf combined domain + (folds.map (·.contribution domain)).sum := by
  induction folds generalizing combined with
  | nil => exact (add_zero _).symm
  | cons fold folds ih =>
    rw [List.foldl_cons, ih, valueOf_scopes, List.map_cons, List.sum_cons, add_assoc]
    rfl

/-- One batch folds every message into its domains. -/
theorem valueOf_create (folds : List FingerprintFold) :
    valueOf (createFingerprintFoldOperationsForMessages stored folds) domain =
      valueOf stored domain + (folds.map (·.contribution domain)).sum := by
  have hcombined := @valueOf_folds P domain (fun _ => none) folds
  rw [show valueOf (fun _ => none) domain = 0 from rfl, zero_add] at hcombined
  rw [← hcombined]
  unfold valueOf createFingerprintFoldOperationsForMessages
  cases folds.foldl (fun combined fold => fold.scopes.foldl (combine fold.messageCid) combined)
      (fun _ => none) (fingerprintKey domain) with
  | none => exact (add_zero _).symm
  | some contribution => rfl

end Folds

/-! ## Rows -/

def tally (domain : String) (rows : List Row) : Fingerprint :=
  (rows.map fun r => r.fold.contribution domain).sum

section Rows
variable {log : Log} {domain : String}

theorem tally_append (a b : List Row) :
    tally domain (a ++ b) = tally domain a + tally domain b := by simp [tally]

theorem tally_congr {a b : List Row} (h : a.map Row.fold = b.map Row.fold) :
    tally domain a = tally domain b := by
  have hcontributions := congrArg (List.map fun fold => fold.contribution domain) h
  rw [List.map_map, List.map_map] at hcontributions
  exact congrArg List.sum hcontributions

/-- A sum whose terms are those of some rows, or nothing. -/
theorem sum_selected {p : Row → Bool} {f g : Row → Fingerprint} {rows : List Row}
    (hin : ∀ r ∈ rows, p r = true → f r = g r) (hout : ∀ r ∈ rows, p r = false → f r = 0) :
    (rows.map f).sum = ((rows.filter p).map g).sum := by
  induction rows with
  | nil => rfl
  | cons r rows ih =>
    have hrest := ih (fun r' hr' => hin r' (List.mem_cons_of_mem _ hr'))
      (fun r' hr' => hout r' (List.mem_cons_of_mem _ hr'))
    rw [List.map_cons, List.sum_cons, hrest]
    cases hr : p r with
    | false => rw [hout r List.mem_cons_self hr, List.filter_cons_of_neg (by simp [hr]), zero_add]
    | true =>
      rw [hin r List.mem_cons_self hr, List.filter_cons_of_pos hr, List.map_cons, List.sum_cons]

theorem contribution_deleteFold (hdistinct : (log.rows.map Row.cid).Nodup) (c : Cid) :
    ((StoreCall.deleteFold log c).map (·.contribution domain)).getD 0 =
      (log.rows.map fun r => (if c == r.cid then 1 else 0) • r.fold.contribution domain).sum := by
  unfold StoreCall.deleteFold find?
  generalize log.rows = rows at hdistinct ⊢
  induction rows with
  | nil => rfl
  | cons r rows ih =>
    obtain ⟨hfresh, hdistinct⟩ := List.nodup_cons.mp hdistinct
    rw [List.map_cons, List.sum_cons, List.find?_cons]
    by_cases hc : r.cid = c
    · subst hc
      have hrest : (rows.map fun r' => (if r.cid == r'.cid then 1 else 0) •
          r'.fold.contribution domain).sum = 0 := by
        refine List.sum_eq_zero fun x hx => ?_
        obtain ⟨r', hr', rfl⟩ := List.mem_map.mp hx
        have hne : r.cid ≠ r'.cid := fun heq => hfresh (List.mem_map.mpr ⟨r', hr', heq.symm⟩)
        rw [beq_false_of_ne hne, if_neg Bool.false_ne_true, zero_nsmul]
      rw [hrest, BEq.rfl, if_pos rfl, one_nsmul, add_zero]
      simp [Row.fold]
    · rw [← ih hdistinct, beq_false_of_ne (Ne.symm hc), if_neg Bool.false_ne_true, zero_nsmul,
        zero_add]
      simp [hc]

/-- A listed CID folds its row out each time. -/
theorem tally_listed (hdistinct : (log.rows.map Row.cid).Nodup) (cids : List Cid) :
    ((cids.filterMap (StoreCall.deleteFold log)).map (·.contribution domain)).sum =
      (log.rows.map fun r => cids.count r.cid • r.fold.contribution domain).sum := by
  induction cids with
  | nil => simp
  | cons c cids ih =>
    simp only [List.count_cons, add_nsmul, List.sum_map_add, ← ih,
      ← contribution_deleteFold hdistinct]
    cases hfold : StoreCall.deleteFold log c with
    | none => simp [hfold]
    | some fold => simp [hfold, add_comm]

/-- Rows that are listed an odd number of times are folded out. -/
theorem tally_dropped {cids : List Cid} (hdistinct : (log.rows.map Row.cid).Nodup)
    (hodd : ∀ r ∈ log.rows, r.cid ∈ cids → Odd (cids.count r.cid)) :
    tally domain log.rows +
        ((cids.filterMap (StoreCall.deleteFold log)).map (·.contribution domain)).sum =
      tally domain (log.rows.filter fun r => r.cid ∉ cids) := by
  rw [tally_listed hdistinct, tally, ← List.sum_map_add]
  refine sum_selected (fun r _ hkept => ?_) fun r hr hkept => ?_
  · rw [List.count_eq_zero_of_not_mem (of_decide_eq_true hkept), zero_nsmul, add_zero]
  · have hmem : r.cid ∈ cids := not_not.mp (of_decide_eq_false hkept)
    rw [Fingerprint.odd_nsmul (hodd r hr hmem), Fingerprint.add_self]

end Rows

/-! ## Runs -/

/-- The call lists no stored row for deletion an even number of times. -/
def StoreCall.ListsOdd (call : StoreCall) (log : Log) : Prop :=
  ∀ r ∈ log.rows, r.cid ∈ call.deletes → Odd (call.deletes.count r.cid)

/-- One tenant's rows and fingerprints. -/
structure FingerprintedLog where
  log : Log := {}
  fingerprints : String → Option Fingerprint := fun _ => none

namespace FingerprintedLog

/-- A call that throws changes nothing. -/
def apply (s : FingerprintedLog) (call : StoreCall) : FingerprintedLog :=
  match call.perform s.log with
  | .ok log => ⟨log, createFingerprintFoldOperationsForMessages s.fingerprints (call.folds s.log)⟩
  | .error _ => s

def run (s : FingerprintedLog) (calls : List StoreCall) : FingerprintedLog := calls.foldl apply s

def ListOdd (s : FingerprintedLog) : List StoreCall → Prop
  | [] => True
  | call :: calls => call.ListsOdd s.log ∧ (s.apply call).ListOdd calls

/-- The XOR of the digests of the rows whose persisted scopes name the domain. -/
def live (s : FingerprintedLog) (domain : String) : Fingerprint :=
  ((s.log.rows.filter fun r => domain ∈ r.fingerprintScopes).map fun r =>
    hashMessageCid r.cid).foldr xorFingerprint emptyFingerprint

structure Sound (s : FingerprintedLog) : Prop where
  positioned : s.log.Positioned
  scopes : ∀ r ∈ s.log.rows, r.fingerprintScopes.Nodup
  value : ∀ domain, valueOf s.fingerprints domain = tally domain s.log.rows

theorem Sound.value_eq_live {s : FingerprintedLog} (h : s.Sound) (domain : String) :
    valueOf s.fingerprints domain = s.live domain := by
  rw [h.value]
  refine sum_selected (fun r hr hmem => ?_) fun r _ hmem => ?_
  · rw [FingerprintFold.contribution, Row.fold,
      List.count_eq_one_of_mem (h.scopes r hr) (of_decide_eq_true hmem), one_nsmul]
  · rw [FingerprintFold.contribution, Row.fold,
      List.count_eq_zero_of_not_mem (of_decide_eq_false hmem), zero_nsmul]

theorem Sound.apply {s : FingerprintedLog} (h : s.Sound) {call : StoreCall}
    (hodd : call.ListsOdd s.log) : (s.apply call).Sound := by
  unfold FingerprintedLog.apply
  cases hperform : call.perform s.log with
  | error e => exact h
  | ok log' =>
    obtain ⟨dropped, kept, new, hexchanges, hfolded⟩ := StoreCall.exchanges_of_perform hperform
    obtain ⟨_, hrewrites⟩ := StoreCall.rewrites_of_perform hperform
    have hplaced := congrArg (List.map Prod.snd) hexchanges.inPlace
    rw [List.map_map, List.map_map] at hplaced
    have hsingle : ∀ c, ∀ r ∈ s.log.rows, r.cid ∈ [c] → Odd ([c].count r.cid) := by
      intro c r _ hr
      rw [List.mem_singleton.mp hr, List.count_singleton_self]
      exact odd_one
    have hkept : ∀ domain, tally domain log'.rows =
        tally domain (s.log.rows.filter fun r => r.cid ∉ dropped) + tally domain new := by
      intro domain
      rw [hexchanges.rows, tally_append, tally_congr hplaced]
    refine ⟨hrewrites.positioned h.positioned, fun r hr => ?_, fun domain => ?_⟩
    · rw [hexchanges.rows] at hr
      obtain hr | hr := List.mem_append.mp hr
      · obtain ⟨r', hr', heq⟩ := List.mem_map.mp (hplaced ▸ List.mem_map_of_mem hr)
        have hscopes : r'.fingerprintScopes = r.fingerprintScopes :=
          congrArg FingerprintFold.scopes heq
        exact hscopes ▸ h.scopes r' (List.mem_filter.mp hr').1
      · cases hfolded with
        | displaced hscopes => exact hscopes r hr
        | moved r' hr' _ _ hnew =>
          have hfold : r.fold = r'.fold := List.mem_singleton.mp (hnew ▸ List.mem_map_of_mem hr)
          have hscopes : r.fingerprintScopes = r'.fingerprintScopes :=
            congrArg FingerprintFold.scopes hfold
          exact hscopes ▸ h.scopes r' hr'
    · change valueOf (createFingerprintFoldOperationsForMessages _ _) domain = _
      rw [valueOf_create, h.value, hkept]
      cases hfolded with
      | displaced _ hfolds hdropped =>
        have hdroppedOdd : ∀ r ∈ s.log.rows, r.cid ∈ dropped → Odd (dropped.count r.cid) := by
          obtain rfl | ⟨c, rfl⟩ := hdropped
          · exact hodd
          · exact hsingle c
        rw [← tally_dropped h.positioned.distinct hdroppedOdd, hfolds, List.map_append,
          List.sum_append, List.map_map, add_comm (List.sum _), ← add_assoc]
        rfl
      | moved r hr hfolds hdropped hnew =>
        have hfold : StoreCall.deleteFold s.log r.cid = some r.fold := by
          rw [StoreCall.deleteFold, find?, Selection.find?_of_nodup_map h.positioned.distinct hr]
          rfl
        subst hdropped
        rw [← tally_dropped h.positioned.distinct (hsingle r.cid), hfolds, tally_congr (b := [r]) hnew]
        simp [hfold, tally, add_assoc, Fingerprint.add_self]

/-- Whatever mutations are made, the fingerprint of a domain is that of its live rows. -/
theorem run_fingerprint (calls : List StoreCall) (hodd : ListOdd {} calls) (domain : String) :
    valueOf (run {} calls).fingerprints domain = (run {} calls).live domain := by
  suffices hrun : ∀ s : FingerprintedLog, s.Sound → s.ListOdd calls → (s.run calls).Sound from
    (hrun {} ⟨Log.positioned_empty, by simp, fun _ => rfl⟩ hodd).value_eq_live domain
  clear hodd
  induction calls with
  | nil => exact fun s hs _ => hs
  | cons call calls ih => exact fun s hs hodd => ih _ (hs.apply hodd.1) hodd.2

end FingerprintedLog

end EnboxDwn

namespace EnboxDwn.FingerprintedLog
open FeedReader

local instance : Platform := Platform.ofText

def tombstone : StoredMessage where
  message := .recordsDelete
    { descriptor := { messageTimestamp := "2", recordId := "alice1", prune := true },
      authorization := { signature := "d", signer := "alice" } }

/-- The data of the draft arrives, then a delete displaces it. -/
def replacedDraft : List StoreCall :=
  [.put draft (draftIndexes false), .completeData (Message.getCid draft) (draftIndexes true) none,
    .commitLatestState
      { message := tombstone, indexes := draftIndexes true, retains := [],
        deletes := [Message.getCid draft] }]

theorem run_fingerprint_replacedDraft :
    (run {} replacedDraft).log.rows.map Row.cid = [Message.getCid tombstone] ∧
    valueOf (run {} replacedDraft).fingerprints "" = (run {} replacedDraft).live "" := by
  refine ⟨by decide, run_fingerprint replacedDraft ⟨?_, ?_, ?_, trivial⟩ ""⟩
  · exact fun _ _ h => absurd h List.not_mem_nil
  · exact fun _ _ h => absurd h List.not_mem_nil
  · unfold StoreCall.ListsOdd
    decide

end EnboxDwn.FingerprintedLog
