import EnboxDwn.MessageStore
import Mathlib.Logic.Function.Basic
import Mathlib.Data.Finset.Card

/-! The reference-counted data store. Blocks are shared by all records that
reference the same data CID; a reference belongs to one tenant and record. -/
namespace EnboxDwn

variable [P : Platform]

structure DataRef where
  tenant : Did
  recordId : String
  dataCid : String
  deriving DecidableEq, Repr

structure Refcount where
  count : Int
  dataSize : Nat
  deriving DecidableEq, Repr

/-- The three sublevels: `refs`, `refcounts`, and the streams imported into each
block partition. -/
structure DataStore where
  refs : DataRef → Option Nat := fun _ => none
  refcounts : String → Option Refcount := fun _ => none
  blocks : String → List P.Data := fun _ => []

namespace DataStore

/-- Returns the data size the store reports for the reference. -/
def put (d : DataStore) (ref : DataRef) (dataStream : P.Data) : Nat × DataStore :=
  match d.refs ref with
  | some dataSize => (dataSize, d)
  | none =>
    let refcount := (d.refcounts ref.dataCid).getD ⟨0, 0⟩
    if 0 < refcount.count then
      (refcount.dataSize,
        { d with
          refs := Function.update d.refs ref (some refcount.dataSize)
          refcounts := Function.update d.refcounts ref.dataCid
            (some ⟨refcount.count + 1, refcount.dataSize⟩) })
    else
      let dataSize := P.byteLength dataStream
      (dataSize,
        { refs := Function.update d.refs ref (some dataSize)
          refcounts := Function.update d.refcounts ref.dataCid (some ⟨refcount.count + 1, dataSize⟩)
          blocks := Function.update d.blocks ref.dataCid (d.blocks ref.dataCid ++ [dataStream]) })

/-- The size of the reference and the data exported from the shared blocks. -/
def get (d : DataStore) (ref : DataRef) : Option (Nat × P.Data) :=
  match d.refs ref with
  | none => none
  | some dataSize => (P.exporter ref.dataCid (d.blocks ref.dataCid)).map fun data => (dataSize, data)

/-- Deleting an absent reference is a no-op; the last reference takes the blocks along. -/
def delete (d : DataStore) (ref : DataRef) : DataStore :=
  match d.refs ref with
  | none => d
  | some _ =>
    let refs := Function.update d.refs ref none
    match d.refcounts ref.dataCid with
    | none => { d with refs := refs }
    | some refcount =>
      if refcount.count - 1 ≤ 0 then
        { refs := refs
          refcounts := Function.update d.refcounts ref.dataCid none
          blocks := Function.update d.blocks ref.dataCid [] }
      else
        { d with
          refs := refs
          refcounts := Function.update d.refcounts ref.dataCid
            (some ⟨refcount.count - 1, refcount.dataSize⟩) }

/-- Equal content addresses mean equal sizes, as collision-free hashing promises. -/
def SizedByCid : Prop :=
  ∀ a b : P.Data, P.computeDagPbCid a = P.computeDagPbCid b → P.byteLength a = P.byteLength b

omit P in
theorem sizedByCid_ofText : SizedByCid (P := Platform.ofText) := by
  intro a b h
  have heq : a = b := h
  rw [heq]

/-- Every recorded size is the size of some data with the recorded address. -/
structure Sound (d : DataStore) : Prop where
  ref_size : ∀ ref n, d.refs ref = some n →
    ∃ data, P.computeDagPbCid data = ref.dataCid ∧ P.byteLength data = n
  refcount_size : ∀ c rc, d.refcounts c = some rc →
    ∃ data, P.computeDagPbCid data = c ∧ P.byteLength data = rc.dataSize

theorem sound_empty : Sound ({} : DataStore) := ⟨by simp, by simp⟩

theorem Sound.insert {d : DataStore} (hd : d.Sound) {ref : DataRef} {data : P.Data}
    (hdata : P.computeDagPbCid data = ref.dataCid) (count : Int) (blocks : String → List P.Data) :
    Sound
      { refs := Function.update d.refs ref (some (P.byteLength data))
        refcounts := Function.update d.refcounts ref.dataCid (some ⟨count, P.byteLength data⟩)
        blocks := blocks } where
  ref_size := by
    intro ref' n h
    dsimp only at h
    by_cases heq : ref' = ref
    · subst heq
      rw [Function.update_self, Option.some.injEq] at h
      exact ⟨data, hdata, h⟩
    · rw [Function.update_of_ne heq] at h
      exact hd.ref_size ref' n h
  refcount_size := by
    intro c rc h
    dsimp only at h
    by_cases heq : c = ref.dataCid
    · subst heq
      rw [Function.update_self, Option.some.injEq] at h
      exact ⟨data, hdata, by rw [← h]⟩
    · rw [Function.update_of_ne heq] at h
      exact hd.refcount_size c rc h

/-- Storing data under its own address keeps the store sound and reports its size. -/
theorem put_spec {d : DataStore} (hd : d.Sound) (hsize : SizedByCid (P := P)) (ref : DataRef)
    {data : P.Data} (hdata : P.computeDagPbCid data = ref.dataCid) :
    (d.put ref data).1 = P.byteLength data ∧ (d.put ref data).2.Sound := by
  unfold put
  cases href : d.refs ref with
  | some n =>
    obtain ⟨data', hcid, hlen⟩ := hd.ref_size ref n href
    exact ⟨by simpa [hlen] using hsize data' data (hcid.trans hdata.symm), by simpa using hd⟩
  | none =>
    cases hcount : d.refcounts ref.dataCid with
    | none => exact ⟨by simp, by simpa using hd.insert hdata _ _⟩
    | some rc =>
      obtain ⟨data', hcid, hlen⟩ := hd.refcount_size _ rc hcount
      have hsz : rc.dataSize = P.byteLength data := by
        rw [← hlen]
        exact hsize data' data (hcid.trans hdata.symm)
      by_cases hpos : 0 < rc.count
      · simp only [Option.getD_some, hpos, if_true, hsz]
        exact ⟨trivial, hd.insert hdata _ _⟩
      · simp only [Option.getD_some, hpos, if_false]
        exact ⟨trivial, hd.insert hdata _ _⟩

theorem refs_put (d : DataStore) (ref : DataRef) (data : P.Data) :
    (d.put ref data).2.refs = Function.update d.refs ref (some (d.put ref data).1) := by
  unfold put
  cases href : d.refs ref with
  | some n =>
    have hsame := Function.update_eq_self ref d.refs
    rw [href] at hsame
    exact hsame.symm
  | none =>
    dsimp only
    split <;> rfl

theorem delete_sound {d : DataStore} (hd : d.Sound) (ref : DataRef) : (d.delete ref).Sound := by
  have hrefs : ∀ ref' n, Function.update d.refs ref none ref' = some n → d.refs ref' = some n := by
    intro ref' n h
    by_cases heq : ref' = ref
    · subst heq
      simp at h
    · rwa [Function.update_of_ne heq] at h
  have hcounts : ∀ (v : Option Refcount), (∀ rc ∈ v, ∃ rc', d.refcounts ref.dataCid = some rc' ∧
      rc'.dataSize = rc.dataSize) → ∀ c rc, Function.update d.refcounts ref.dataCid v c = some rc →
      ∃ data, P.computeDagPbCid data = c ∧ P.byteLength data = rc.dataSize := by
    intro v hv c rc h
    by_cases heq : c = ref.dataCid
    · subst heq
      rw [Function.update_self] at h
      obtain ⟨rc', hrc', hsz⟩ := hv rc h
      rw [← hsz]
      exact hd.refcount_size _ rc' hrc'
    · rw [Function.update_of_ne heq] at h
      exact hd.refcount_size c rc h
  unfold delete
  cases href : d.refs ref with
  | none => exact hd
  | some n =>
    cases hcount : d.refcounts ref.dataCid with
    | none => exact ⟨fun ref' n' h => hd.ref_size ref' n' (hrefs ref' n' h), hd.refcount_size⟩
    | some rc =>
      by_cases hlast : rc.count - 1 ≤ 0
      · simp only [hlast, if_true]
        exact ⟨fun ref' n' h => hd.ref_size ref' n' (hrefs ref' n' h), hcounts none (by simp)⟩
      · simp only [hlast, if_false]
        exact ⟨fun ref' n' h => hd.ref_size ref' n' (hrefs ref' n' h),
          hcounts _ fun rc' h => ⟨rc, hcount, by cases h; rfl⟩⟩

/-! ## Reference counts -/

/-- The stores that calls of `put` and `delete` lead to. -/
inductive Reachable : DataStore → Prop
  | empty : Reachable {}
  | put {d : DataStore} (h : Reachable d) (ref : DataRef) (data : P.Data) :
      Reachable (d.put ref data).2
  | delete {d : DataStore} (h : Reachable d) (ref : DataRef) : Reachable (d.delete ref)

/-- The count of a data CID is the number of its references, and blocks are kept
only while there is one. -/
def CountedAt (d : DataStore) (c : String) (holders : Finset DataRef) : Prop :=
  (∀ ref, ref ∈ holders ↔ ref.dataCid = c ∧ (d.refs ref).isSome = true) ∧
    if holders = ∅ then d.refcounts c = none ∧ d.blocks c = []
    else ∃ dataSize, d.refcounts c = some ⟨holders.card, dataSize⟩

def Counted (d : DataStore) : Prop := ∀ c, ∃ holders, d.CountedAt c holders

theorem counted_empty : Counted ({} : DataStore) := fun _ => ⟨∅, by simp, by simp⟩

theorem CountedAt.congr {d d' : DataStore} {c : String} {holders : Finset DataRef}
    (h : d.CountedAt c holders) (hrefs : ∀ ref, ref.dataCid = c → d'.refs ref = d.refs ref)
    (hcount : d'.refcounts c = d.refcounts c) (hblocks : d'.blocks c = d.blocks c) :
    d'.CountedAt c holders := by
  obtain ⟨hmem, hcard⟩ := h
  refine ⟨fun ref => ?_, by rwa [hcount, hblocks]⟩
  rw [hmem]
  exact and_congr_right fun hc => by rw [hrefs ref hc]

theorem counted_put {d : DataStore} (hd : d.Counted) (ref : DataRef) (data : P.Data) :
    (d.put ref data).2.Counted := by
  intro c
  obtain ⟨holders, h⟩ := hd c
  unfold put
  cases href : d.refs ref with
  | some n => exact ⟨holders, h⟩
  | none =>
    by_cases hc : c = ref.dataCid
    · subst hc
      obtain ⟨hmem, hcard⟩ := h
      have hnew : ref ∉ holders := by simp [hmem, href]
      refine ⟨insert ref holders, ?_⟩
      have hins : ∀ n ref', ref' ∈ insert ref holders ↔ ref'.dataCid = ref.dataCid ∧
          (Function.update d.refs ref (some n) ref').isSome = true := by
        intro n ref'
        by_cases heq : ref' = ref
        · simp [heq]
        · simp [Finset.mem_insert, heq, hmem]
      by_cases hempty : holders = ∅
      · rw [if_pos hempty] at hcard
        simp only [hcard.1, Option.getD_none, lt_self_iff_false, if_false]
        refine ⟨hins _, ?_⟩
        rw [if_neg (Finset.insert_ne_empty _ _)]
        exact ⟨P.byteLength data, by simp [hempty]⟩
      · rw [if_neg hempty] at hcard
        obtain ⟨n, hn⟩ := hcard
        have hpos : (0 : Int) < holders.card := by
          exact_mod_cast Finset.card_pos.mpr (Finset.nonempty_iff_ne_empty.mpr hempty)
        simp only [hn, Option.getD_some, hpos, if_true]
        refine ⟨hins _, ?_⟩
        rw [if_neg (Finset.insert_ne_empty _ _)]
        exact ⟨n, by simp [Finset.card_insert_of_notMem hnew]⟩
    · have hne : ∀ ref' : DataRef, ref'.dataCid = c → ref' ≠ ref := by
        intro ref' h' heq
        exact hc (by rw [← h', heq])
      refine ⟨holders, ?_⟩
      dsimp only
      split
      · exact h.congr (fun ref' h' => Function.update_of_ne (hne ref' h') _ _)
          (Function.update_of_ne hc _ _) rfl
      · exact h.congr (fun ref' h' => Function.update_of_ne (hne ref' h') _ _)
          (Function.update_of_ne hc _ _) (Function.update_of_ne hc _ _)

theorem counted_delete {d : DataStore} (hd : d.Counted) (ref : DataRef) :
    (d.delete ref).Counted := by
  intro c
  obtain ⟨holders, h⟩ := hd c
  unfold delete
  cases href : d.refs ref with
  | none => exact ⟨holders, h⟩
  | some n =>
    by_cases hc : c = ref.dataCid
    · subst hc
      obtain ⟨hmem, hcard⟩ := h
      have hold : ref ∈ holders := by simp [hmem, href]
      rw [if_neg (Finset.ne_empty_of_mem hold)] at hcard
      obtain ⟨size, hsize⟩ := hcard
      have hers : ∀ ref', ref' ∈ holders.erase ref ↔ ref'.dataCid = ref.dataCid ∧
          (Function.update d.refs ref none ref').isSome = true := by
        intro ref'
        by_cases heq : ref' = ref
        · simp [heq]
        · simp [Finset.mem_erase, heq, hmem]
      have hcard : (holders.erase ref).card + 1 = holders.card := Finset.card_erase_add_one hold
      refine ⟨holders.erase ref, ?_⟩
      simp only [hsize]
      by_cases hlast : holders.erase ref = ∅
      · have hone : (holders.card : Int) - 1 ≤ 0 := by
          rw [hlast, Finset.card_empty] at hcard
          omega
        rw [if_pos hone]
        refine ⟨hers, ?_⟩
        rw [if_pos hlast]
        simp
      · have hpos := Finset.card_pos.mpr (Finset.nonempty_iff_ne_empty.mpr hlast)
        have hmore : ¬ (holders.card : Int) - 1 ≤ 0 := by omega
        rw [if_neg hmore]
        refine ⟨hers, ?_⟩
        rw [if_neg hlast]
        exact ⟨size, by simp [← hcard]⟩
    · have hne : ∀ ref' : DataRef, ref'.dataCid = c → ref' ≠ ref := by
        intro ref' h' heq
        exact hc (by rw [← h', heq])
      refine ⟨holders, ?_⟩
      cases hcount : d.refcounts ref.dataCid with
      | none => exact h.congr (fun ref' h' => Function.update_of_ne (hne ref' h') _ _) rfl rfl
      | some rc =>
        dsimp only
        split
        · exact h.congr (fun ref' h' => Function.update_of_ne (hne ref' h') _ _)
            (Function.update_of_ne hc _ _) (Function.update_of_ne hc _ _)
        · exact h.congr (fun ref' h' => Function.update_of_ne (hne ref' h') _ _)
            (Function.update_of_ne hc _ _) rfl

theorem Reachable.counted {d : DataStore} (h : d.Reachable) : d.Counted := by
  induction h with
  | empty => exact counted_empty
  | put _ ref data ih => exact counted_put ih ref data
  | delete _ ref ih => exact counted_delete ih ref

theorem delete_put {d : DataStore} (hd : d.Counted) {ref : DataRef} (href : d.refs ref = none)
    (data : P.Data) : (d.put ref data).2.delete ref = d := by
  obtain ⟨holders, hmem, hcard⟩ := hd ref.dataCid
  have hrefs : Function.update d.refs ref none = d.refs := by
    rw [← href, Function.update_eq_self]
  by_cases hempty : holders = ∅
  · rw [if_pos hempty] at hcard
    have hcounts : Function.update d.refcounts ref.dataCid none = d.refcounts := by
      rw [← hcard.1, Function.update_eq_self]
    have hblocks : Function.update d.blocks ref.dataCid [] = d.blocks := by
      rw [← hcard.2, Function.update_eq_self]
    simp [put, href, hcard.1, delete, hrefs, hcounts, hblocks]
  · rw [if_neg hempty] at hcard
    obtain ⟨n, hn⟩ := hcard
    have hpos : 0 < holders.card := Finset.card_pos.mpr (Finset.nonempty_iff_ne_empty.mpr hempty)
    have hmore : ¬ ((holders.card : Int) + 1 - 1 ≤ 0) := by omega
    have hcounts : Function.update d.refcounts ref.dataCid (some ⟨holders.card, n⟩) =
        d.refcounts := by
      rw [← hn, Function.update_eq_self]
    simp [put, href, hn, hpos, delete, hrefs, hempty, hcounts]

theorem get_delete_self (d : DataStore) (ref : DataRef) : (d.delete ref).get ref = none := by
  unfold delete
  cases href : d.refs ref with
  | none => simp [get, href]
  | some n =>
    cases hcount : d.refcounts ref.dataCid with
    | none => simp [get]
    | some rc =>
      dsimp only
      split <;> simp [get]

theorem get_delete_of_ne {d : DataStore} (hd : d.Counted) {ref ref' : DataRef}
    (hne : ref' ≠ ref) : (d.delete ref).get ref' = d.get ref' := by
  unfold delete
  cases href : d.refs ref with
  | none => rfl
  | some n =>
    obtain ⟨holders, hmem, hcard⟩ := hd ref.dataCid
    have hold : ref ∈ holders := by simp [hmem, href]
    rw [if_neg (Finset.ne_empty_of_mem hold)] at hcard
    obtain ⟨size, hsize⟩ := hcard
    simp only [hsize]
    split
    · next hlast =>
      by_cases hc : ref'.dataCid = ref.dataCid
      · have habsent : d.refs ref' = none := by
          by_contra hsome
          have hold' : ref' ∈ holders :=
            (hmem ref').mpr ⟨hc, Option.isSome_iff_ne_none.mpr hsome⟩
          have htwo : 1 < holders.card := Finset.one_lt_card.mpr ⟨ref', hold', ref, hold, hne⟩
          omega
        simp [get, Function.update_of_ne hne, habsent]
      · simp [get, Function.update_of_ne hne, Function.update_of_ne hc]
    · simp [get, Function.update_of_ne hne]

/-! ## Deleting several references -/

theorem refs_delete (d : DataStore) (ref : DataRef) :
    (d.delete ref).refs = Function.update d.refs ref none := by
  unfold delete
  cases href : d.refs ref with
  | none =>
    change d.refs = Function.update d.refs ref none
    rw [← href, Function.update_eq_self]
  | some n =>
    cases hcount : d.refcounts ref.dataCid with
    | none => rfl
    | some rc =>
      dsimp only
      split <;> rfl

theorem delete_of_absent {d : DataStore} {ref : DataRef} (h : d.refs ref = none) :
    d.delete ref = d := by
  simp [delete, h]

theorem absent_delete {d : DataStore} {ref : DataRef} (h : d.refs ref = none) (ref' : DataRef) :
    (d.delete ref').refs ref = none := by
  rw [refs_delete]
  by_cases heq : ref = ref'
  · simp [heq]
  · rwa [Function.update_of_ne heq]

def release (d : DataStore) (dataCid : String) : DataStore :=
  match d.refcounts dataCid with
  | none => d
  | some refcount =>
    if refcount.count - 1 ≤ 0 then
      { d with
        refcounts := Function.update d.refcounts dataCid none
        blocks := Function.update d.blocks dataCid [] }
    else
      { d with
        refcounts := Function.update d.refcounts dataCid
          (some ⟨refcount.count - 1, refcount.dataSize⟩) }

theorem delete_of_stored {d : DataStore} {ref : DataRef} {n : Nat} (h : d.refs ref = some n) :
    d.delete ref = { d.release ref.dataCid with refs := Function.update d.refs ref none } := by
  simp only [delete, h, release]
  cases d.refcounts ref.dataCid with
  | none => rfl
  | some rc =>
    dsimp only
    split <;> rfl

theorem release_comm (d : DataStore) (a b : String) :
    (d.release a).release b = (d.release b).release a := by
  by_cases hab : a = b
  · rw [hab]
  · have hba : b ≠ a := Ne.symm hab
    cases ha : d.refcounts a with
    | none =>
      cases hb : d.refcounts b with
      | none => simp [release, ha, hb]
      | some rb => by_cases hlast : rb.count - 1 ≤ 0 <;> simp [release, ha, hb, hlast, hab]
    | some ra =>
      cases hb : d.refcounts b with
      | none => by_cases hlast : ra.count - 1 ≤ 0 <;> simp [release, ha, hb, hlast, hba]
      | some rb =>
        by_cases hlast : ra.count - 1 ≤ 0 <;> by_cases hlast' : rb.count - 1 ≤ 0 <;>
          simp [release, ha, hb, hlast, hlast', hab, hba, Function.update_comm hab]

theorem release_setRefs (d : DataStore) (refs : DataRef → Option Nat) (c : String) :
    ({ d with refs := refs } : DataStore).release c = { d.release c with refs := refs } := by
  unfold release
  cases d.refcounts c with
  | none => rfl
  | some rc =>
    dsimp only
    split <;> rfl

theorem delete_comm (d : DataStore) (a b : DataRef) :
    (d.delete a).delete b = (d.delete b).delete a := by
  by_cases hab : a = b
  · rw [hab]
  · cases ha : d.refs a with
    | none => rw [delete_of_absent ha, delete_of_absent (absent_delete ha b)]
    | some n =>
      cases hb : d.refs b with
      | none => rw [delete_of_absent hb, delete_of_absent (absent_delete hb a)]
      | some m =>
        have hb' : (d.delete a).refs b = some m := by
          rw [refs_delete, Function.update_of_ne (Ne.symm hab), hb]
        have ha' : (d.delete b).refs a = some n := by
          rw [refs_delete, Function.update_of_ne hab, ha]
        rw [delete_of_stored hb', delete_of_stored ha', refs_delete, refs_delete,
          delete_of_stored ha, delete_of_stored hb, release_setRefs (d.release a.dataCid),
          release_setRefs (d.release b.dataCid), release_comm, Function.update_comm hab]

def deleteAll (d : DataStore) (refs : List DataRef) : DataStore := refs.foldl delete d

theorem deleteAll_of_absent {refs : List DataRef} {d : DataStore}
    (h : ∀ ref ∈ refs, d.refs ref = none) : d.deleteAll refs = d := by
  induction refs with
  | nil => rfl
  | cons x xs ih =>
    rw [deleteAll, List.foldl_cons, delete_of_absent (h x (by simp))]
    exact ih fun ref href => h ref (by simp [href])

theorem refs_deleteAll (d : DataStore) (refs : List DataRef) (ref : DataRef) :
    (d.deleteAll refs).refs ref = if ref ∈ refs then none else d.refs ref := by
  induction refs generalizing d with
  | nil => simp [deleteAll]
  | cons x xs ih =>
    have hfold : d.deleteAll (x :: xs) = (d.delete x).deleteAll xs := rfl
    rw [hfold, ih, refs_delete]
    by_cases hmem : ref ∈ xs
    · simp [hmem]
    · by_cases hx : ref = x
      · simp [hx]
      · simp [hmem, hx]

theorem deleteAll_sound {d : DataStore} (hd : d.Sound) (refs : List DataRef) :
    (d.deleteAll refs).Sound := by
  induction refs generalizing d with
  | nil => exact hd
  | cons x xs ih => exact ih (delete_sound hd x)

/-! ## The data itself -/

/-- The exporter reads back data that was imported under its own address. -/
def ExportsImported : Prop :=
  ∀ (data : P.Data) (streams : List P.Data), data ∈ streams →
    P.exporter (P.computeDagPbCid data) streams = some data

omit P in
theorem exportsImported_ofText : ExportsImported (P := Platform.ofText) := by
  intro data streams h
  change List.find? (fun x : String => x == data) streams = some data
  obtain ⟨found, hfound⟩ := Option.isSome_iff_exists.mp
    (List.find?_isSome (p := fun x : String => x == data) |>.mpr ⟨data, h, by simp⟩)
  have heq : found = data := by simpa using List.find?_some hfound
  rw [hfound, heq]

theorem ExportsImported.eq_of_cid (h : ExportsImported (P := P)) {a b : P.Data}
    (hcid : P.computeDagPbCid a = P.computeDagPbCid b) : a = b := by
  have ha := h a [a, b] (by simp)
  rw [hcid, h b [a, b] (by simp), Option.some.injEq] at ha
  exact ha.symm

theorem ExportsImported.sizedByCid (h : ExportsImported (P := P)) : SizedByCid (P := P) := by
  intro a b hcid
  rw [h.eq_of_cid hcid]

/-- The counts are right, and every reference reads data of its own address. -/
structure Holding (d : DataStore) : Prop extends Sound d where
  counted : d.Counted
  held : ∀ ref n, d.refs ref = some n →
    ∃ data, d.get ref = some (n, data) ∧ P.computeDagPbCid data = ref.dataCid

theorem holding_empty : Holding ({} : DataStore) := ⟨sound_empty, counted_empty, by simp⟩

/-- Blocks that are shared can be exported. -/
theorem Holding.exporter_of_count {d : DataStore} (hd : d.Holding) {c : String}
    (hcount : 0 < ((d.refcounts c).getD ⟨0, 0⟩).count) :
    ∃ data, P.exporter c (d.blocks c) = some data ∧ P.computeDagPbCid data = c := by
  obtain ⟨holders, hmem, hcard⟩ := hd.counted c
  by_cases hempty : holders = ∅
  · rw [if_pos hempty] at hcard
    simp [hcard.1] at hcount
  · obtain ⟨ref, href⟩ := Finset.nonempty_iff_ne_empty.mpr hempty
    obtain ⟨rfl, hsome⟩ := (hmem ref).mp href
    obtain ⟨n, hn⟩ := Option.isSome_iff_exists.mp hsome
    obtain ⟨data, hget, hcid⟩ := hd.held ref n hn
    refine ⟨data, ?_, hcid⟩
    simp only [get, hn, Option.map_eq_some_iff, Prod.mk.injEq] at hget
    obtain ⟨data', hdata', -, rfl⟩ := hget
    exact hdata'

theorem holding_put {d : DataStore} (hd : d.Holding) (hexports : ExportsImported (P := P))
    (ref : DataRef) {data : P.Data} (hdata : P.computeDagPbCid data = ref.dataCid) :
    (d.put ref data).2.Holding := by
  refine ⟨(put_spec hd.toSound hexports.sizedByCid ref hdata).2, counted_put hd.counted ref data, ?_⟩
  intro ref' n h
  unfold put at h ⊢
  cases href : d.refs ref with
  | some n' =>
    simp only [href] at h ⊢
    exact hd.held ref' n h
  | none =>
    simp only [href] at h ⊢
    by_cases hpos : 0 < ((d.refcounts ref.dataCid).getD ⟨0, 0⟩).count
    · simp only [hpos, if_true] at h ⊢
      by_cases heq : ref' = ref
      · subst heq
        obtain ⟨found, hfound, hcid⟩ := hd.exporter_of_count hpos
        exact ⟨found, by simp only [get, h, hfound, Option.map_some], hcid⟩
      · rw [Function.update_of_ne heq] at h
        obtain ⟨found, hfound, hcid⟩ := hd.held ref' n h
        refine ⟨found, ?_, hcid⟩
        simpa only [get, Function.update_of_ne heq] using hfound
    · simp only [hpos, if_false] at h ⊢
      by_cases hc : ref'.dataCid = ref.dataCid
      · refine ⟨data, ?_, hdata.trans hc.symm⟩
        have hexport := hexports data (d.blocks ref.dataCid ++ [data]) (by simp)
        rw [hdata] at hexport
        simp only [get, h, hc, Function.update_self, hexport, Option.map_some]
      · have heq : ref' ≠ ref := fun heq => hc (by rw [heq])
        rw [Function.update_of_ne heq] at h
        obtain ⟨found, hfound, hcid⟩ := hd.held ref' n h
        refine ⟨found, ?_, hcid⟩
        simpa only [get, Function.update_of_ne heq, Function.update_of_ne hc] using hfound

theorem holding_delete {d : DataStore} (hd : d.Holding) (ref : DataRef) :
    (d.delete ref).Holding := by
  refine ⟨delete_sound hd.toSound ref, counted_delete hd.counted ref, fun ref' n h => ?_⟩
  rw [refs_delete] at h
  have hne : ref' ≠ ref := by
    intro heq
    simp [heq] at h
  rw [Function.update_of_ne hne] at h
  rw [get_delete_of_ne hd.counted hne]
  exact hd.held ref' n h

theorem holding_deleteAll {d : DataStore} (hd : d.Holding) (refs : List DataRef) :
    (d.deleteAll refs).Holding := by
  induction refs generalizing d with
  | nil => exact hd
  | cons ref refs ih => exact ih (holding_delete hd ref)

theorem Holding.get_eq {d : DataStore} (hd : d.Holding) (hexports : ExportsImported (P := P))
    {ref : DataRef} {n : Nat} (href : d.refs ref = some n) {data : P.Data}
    (hdata : P.computeDagPbCid data = ref.dataCid) : d.get ref = some (n, data) := by
  obtain ⟨found, hfound, hcid⟩ := hd.held ref n href
  rw [hfound, hexports.eq_of_cid (hcid.trans hdata.symm)]

end DataStore

end EnboxDwn

namespace EnboxDwn.DataStore

local instance : Platform := Platform.ofText

end EnboxDwn.DataStore
