import EnboxDwn.DataStore
import EnboxDwn.Lib.Interleaving

/-! Puts and deletes of the data store as sequences of single key reads and writes, with no
lock around them: the counts are right as long as the operations on one data CID do not
overlap. -/
namespace EnboxDwn
open Interleaving

variable [P : Platform] {Block : Type}

structure DataKeys (Block : Type) where
  refs : DataRef → Option Nat := fun _ => none
  refcounts : String → Option Refcount := fun _ => none
  blocks : String → List Block := fun _ => []

namespace DataKeys

def refcount (k : DataKeys Block) (dataCid : String) : Refcount :=
  (k.refcounts dataCid).getD ⟨0, 0⟩

def setRef (k : DataKeys Block) (ref : DataRef) (v : Option Nat) : DataKeys Block :=
  { k with refs := Function.update k.refs ref v }

def setRefcount (k : DataKeys Block) (dataCid : String) (v : Option Refcount) : DataKeys Block :=
  { k with refcounts := Function.update k.refcounts dataCid v }

def setBlocks (k : DataKeys Block) (dataCid : String) (v : List Block) : DataKeys Block :=
  { k with blocks := Function.update k.blocks dataCid v }

end DataKeys

/-- An operation of the data store, by the key access it makes next and by what it has read. -/
inductive DataOperation [P : Platform] (Block : Type) where
  | put (ref : DataRef) (dataStream : P.Data)
  | putReadRefcount (ref : DataRef) (dataStream : P.Data)
  | putImport (ref : DataRef) (dataStream : P.Data) (count : Int) (pending : List Block)
  | putRef (ref : DataRef) (count : Int) (dataSize : Nat)
  | putRefcount (ref : DataRef) (count : Int) (dataSize : Nat)
  | delete (ref : DataRef)
  | deleteRef (ref : DataRef)
  | deleteReadRefcount (ref : DataRef)
  | deleteBlocks (ref : DataRef)
  | deleteRefcount (ref : DataRef)
  | deleteCountDown (ref : DataRef) (newCount : Int) (dataSize : Nat)

namespace DataOperation

def ref : DataOperation Block → DataRef
  | put ref _ | putReadRefcount ref _ | putImport ref _ _ _ | putRef ref _ _ | putRefcount ref _ _
  | delete ref | deleteRef ref | deleteReadRefcount ref | deleteBlocks ref | deleteRefcount ref
  | deleteCountDown ref _ _ => ref

def dataCid (p : DataOperation Block) : String := p.ref.dataCid

/-- The call of an operation, before its first key access. -/
inductive IsCall : DataOperation Block → Prop
  | put (ref : DataRef) (dataStream : P.Data) : IsCall (.put ref dataStream)
  | delete (ref : DataRef) : IsCall (.delete ref)

/-- One key access; `importer` lists the blocks a stream is imported as. -/
def next (importer : P.Data → List Block) :
    DataOperation Block → DataKeys Block → Option (DataOperation Block) × DataKeys Block
  | put ref dataStream, k =>
    match k.refs ref with
    | some _ => (none, k)
    | none => (some (putReadRefcount ref dataStream), k)
  | putReadRefcount ref dataStream, k =>
    let refcount := k.refcount ref.dataCid
    if 0 < refcount.count then (some (putRef ref refcount.count refcount.dataSize), k)
    else (some (putImport ref dataStream refcount.count (importer dataStream)), k)
  | putImport ref dataStream count [], k =>
    (some (putRef ref count (P.byteLength dataStream)), k)
  | putImport ref dataStream count (b :: pending), k =>
    (some (putImport ref dataStream count pending),
      k.setBlocks ref.dataCid (k.blocks ref.dataCid ++ [b]))
  | putRef ref count dataSize, k =>
    (some (putRefcount ref count dataSize), k.setRef ref (some dataSize))
  | putRefcount ref count dataSize, k =>
    (none, k.setRefcount ref.dataCid (some ⟨count + 1, dataSize⟩))
  | delete ref, k =>
    match k.refs ref with
    | none => (none, k)
    | some _ => (some (deleteRef ref), k)
  | deleteRef ref, k => (some (deleteReadRefcount ref), k.setRef ref none)
  | deleteReadRefcount ref, k =>
    match k.refcounts ref.dataCid with
    | none => (none, k)
    | some refcount =>
      if refcount.count - 1 ≤ 0 then (some (deleteBlocks ref), k)
      else (some (deleteCountDown ref (refcount.count - 1) refcount.dataSize), k)
  | deleteBlocks ref, k => (some (deleteRefcount ref), k.setBlocks ref.dataCid [])
  | deleteRefcount ref, k => (none, k.setRefcount ref.dataCid none)
  | deleteCountDown ref newCount dataSize, k =>
    (none, k.setRefcount ref.dataCid (some ⟨newCount, dataSize⟩))

end DataOperation

abbrev DataRun (Block : Type) := Pool (DataOperation Block) (DataKeys Block)

namespace DataKeys
variable (importer : P.Data → List Block)

def Holders (k : DataKeys Block) (c : String) (holders : Finset DataRef) : Prop :=
  ∀ ref, ref ∈ holders ↔ ref.dataCid = c ∧ (k.refs ref).isSome = true

/-- All the blocks of some stream are there. -/
def Imported (k : DataKeys Block) (c : String) : Prop :=
  ∃ dataStream, ∀ b ∈ importer dataStream, b ∈ k.blocks c

/-- The count is the number of references, and the blocks are there exactly while there is
a reference. -/
def Accurate (k : DataKeys Block) (c : String) : Prop :=
  ∃ holders, k.Holders c holders ∧ (k.refcount c).count = holders.card ∧
    if holders = ∅ then k.blocks c = [] else k.Imported importer c

theorem accurate_empty (c : String) : ({} : DataKeys Block).Accurate importer c :=
  ⟨∅, fun _ => by simp, rfl, by simp⟩

variable {importer} {k k' : DataKeys Block} {c : String} {holders : Finset DataRef}

structure SameAt (k k' : DataKeys Block) (c : String) : Prop where
  refs : ∀ ref, ref.dataCid = c → k'.refs ref = k.refs ref
  refcounts : k'.refcounts c = k.refcounts c
  blocks : k'.blocks c = k.blocks c

omit P in
theorem SameAt.holds (h : SameAt k k' c) (hk : k.Holders c holders) : k'.Holders c holders := by
  intro ref
  rw [hk ref]
  exact and_congr_right fun hc => by rw [h.refs ref hc]

theorem SameAt.accurate (h : SameAt k k' c) (hk : k.Accurate importer c) :
    k'.Accurate importer c := by
  obtain ⟨holders, hholders, hcount, hblocks⟩ := hk
  refine ⟨holders, h.holds hholders, ?_, ?_⟩
  · rwa [refcount, h.refcounts]
  · rwa [Imported, h.blocks]

omit P in
theorem Holders.insert {ref : DataRef} (h : k.Holders c holders) (hc : ref.dataCid = c) (n : Nat) :
    (k.setRef ref (some n)).Holders c (insert ref holders) := by
  intro ref'
  by_cases heq : ref' = ref
  · simp [setRef, heq, hc]
  · simp [setRef, heq, h ref']

omit P in
theorem Holders.erase {ref : DataRef} (h : k.Holders c holders) :
    (k.setRef ref none).Holders c (holders.erase ref) := by
  intro ref'
  by_cases heq : ref' = ref
  · simp [setRef, heq]
  · simp [setRef, heq, h ref']

end DataKeys

namespace DataOperation
variable (importer : P.Data → List Block)

/-- What an operation that works alone on its data CID finds there. -/
def Expects (p : DataOperation Block) (k : DataKeys Block) : Prop :=
  match p with
  | put ref _ | delete ref => k.Accurate importer ref.dataCid
  | putReadRefcount ref _ => k.Accurate importer ref.dataCid ∧ k.refs ref = none
  | putImport ref dataStream count pending =>
    k.Holders ref.dataCid ∅ ∧ count = 0 ∧
      ∀ b ∈ importer dataStream, b ∈ k.blocks ref.dataCid ∨ b ∈ pending
  | putRef ref count _ =>
    ∃ holders, k.Holders ref.dataCid holders ∧ ref ∉ holders ∧ count = holders.card ∧
      k.Imported importer ref.dataCid
  | putRefcount ref count _ =>
    ∃ holders, k.Holders ref.dataCid holders ∧ holders ≠ ∅ ∧ count + 1 = holders.card ∧
      k.Imported importer ref.dataCid
  | deleteRef ref => k.Accurate importer ref.dataCid ∧ (k.refs ref).isSome = true
  | deleteReadRefcount ref =>
    ∃ holders, k.Holders ref.dataCid holders ∧
      (k.refcount ref.dataCid).count = holders.card + 1 ∧ k.Imported importer ref.dataCid
  | deleteBlocks ref => k.Holders ref.dataCid ∅
  | deleteRefcount ref => k.Holders ref.dataCid ∅ ∧ k.blocks ref.dataCid = []
  | deleteCountDown ref newCount _ =>
    ∃ holders, k.Holders ref.dataCid holders ∧ holders ≠ ∅ ∧ newCount = holders.card ∧
      k.Imported importer ref.dataCid

variable {importer} {p p' : DataOperation Block} {k k' : DataKeys Block}

/-- A key access touches only keys of the operation's own data CID. -/
theorem sameAt_next (p : DataOperation Block) (k : DataKeys Block) {c : String}
    (hc : c ≠ p.dataCid) : DataKeys.SameAt k (p.next importer k).2 c := by
  have hrefs : ∀ v ref, ref.dataCid = c → Function.update k.refs p.ref v ref = k.refs ref := by
    intro v ref href
    refine Function.update_of_ne (fun heq => hc ?_) _ _
    rw [← href, heq]
    rfl
  have hcounts : ∀ v, Function.update k.refcounts p.ref.dataCid v c = k.refcounts c :=
    fun v => Function.update_of_ne hc _ _
  have hblocks : ∀ v, Function.update k.blocks p.ref.dataCid v c = k.blocks c :=
    fun v => Function.update_of_ne hc _ _
  cases p with
  | put ref dataStream =>
    simp only [next]
    split <;> exact ⟨fun _ _ => rfl, rfl, rfl⟩
  | putReadRefcount ref dataStream =>
    simp only [next]
    split <;> exact ⟨fun _ _ => rfl, rfl, rfl⟩
  | putImport ref dataStream count pending =>
    cases pending with
    | nil => exact ⟨fun _ _ => rfl, rfl, rfl⟩
    | cons b pending => exact ⟨fun _ _ => rfl, rfl, hblocks _⟩
  | putRef ref count dataSize => exact ⟨hrefs _, rfl, rfl⟩
  | putRefcount ref count dataSize => exact ⟨fun _ _ => rfl, hcounts _, rfl⟩
  | delete ref =>
    simp only [next]
    split <;> exact ⟨fun _ _ => rfl, rfl, rfl⟩
  | deleteRef ref => exact ⟨hrefs _, rfl, rfl⟩
  | deleteReadRefcount ref =>
    simp only [next]
    split
    · exact ⟨fun _ _ => rfl, rfl, rfl⟩
    · split <;> exact ⟨fun _ _ => rfl, rfl, rfl⟩
  | deleteBlocks ref => exact ⟨fun _ _ => rfl, rfl, hblocks _⟩
  | deleteRefcount ref => exact ⟨fun _ _ => rfl, hcounts _, rfl⟩
  | deleteCountDown ref newCount dataSize => exact ⟨fun _ _ => rfl, hcounts _, rfl⟩

theorem Expects.of_sameAt (h : DataKeys.SameAt k k' p.dataCid) (hp : p.Expects importer k) :
    p.Expects importer k' := by
  have himported : k.Imported importer p.dataCid → k'.Imported importer p.dataCid := by
    intro hk
    rwa [DataKeys.Imported, h.blocks]
  cases p with
  | put ref dataStream => exact h.accurate hp
  | putReadRefcount ref dataStream => exact ⟨h.accurate hp.1, (h.refs ref rfl).trans hp.2⟩
  | putImport ref dataStream count pending =>
    obtain ⟨hholders, hcount, hblocks⟩ := hp
    refine ⟨h.holds hholders, hcount, ?_⟩
    rwa [show k'.blocks ref.dataCid = k.blocks ref.dataCid from h.blocks]
  | putRef ref count dataSize =>
    obtain ⟨holders, hholders, hnew, hcount, hblocks⟩ := hp
    exact ⟨holders, h.holds hholders, hnew, hcount, himported hblocks⟩
  | putRefcount ref count dataSize =>
    obtain ⟨holders, hholders, hne, hcount, hblocks⟩ := hp
    exact ⟨holders, h.holds hholders, hne, hcount, himported hblocks⟩
  | delete ref => exact h.accurate hp
  | deleteRef ref =>
    refine ⟨h.accurate hp.1, ?_⟩
    rw [h.refs ref rfl]
    exact hp.2
  | deleteReadRefcount ref =>
    obtain ⟨holders, hholders, hcount, hblocks⟩ := hp
    refine ⟨holders, h.holds hholders, ?_, himported hblocks⟩
    rwa [DataKeys.refcount, show k'.refcounts ref.dataCid = _ from h.refcounts]
  | deleteBlocks ref => exact h.holds hp
  | deleteRefcount ref => exact ⟨h.holds hp.1, h.blocks.trans hp.2⟩
  | deleteCountDown ref newCount dataSize =>
    obtain ⟨holders, hholders, hne, hcount, hblocks⟩ := hp
    exact ⟨holders, h.holds hholders, hne, hcount, himported hblocks⟩

theorem Expects.accurate (hp : p.Expects importer k) (hnext : p.next importer k = (none, k')) :
    k'.Accurate importer p.dataCid := by
  cases p with
  | put ref dataStream =>
    simp only [next] at hnext
    split at hnext <;> cases hnext
    exact hp
  | putReadRefcount ref dataStream =>
    simp only [next] at hnext
    split at hnext <;> cases hnext
  | putImport ref dataStream count pending => cases pending <;> cases hnext
  | putRef ref count dataSize => cases hnext
  | putRefcount ref count dataSize =>
    obtain ⟨holders, hholders, hne, hcount, hblocks⟩ := hp
    cases hnext
    refine ⟨holders, hholders, ?_, ?_⟩
    · simpa [DataKeys.refcount, DataKeys.setRefcount, dataCid, DataOperation.ref] using hcount
    · rw [if_neg hne]
      exact hblocks
  | delete ref =>
    simp only [next] at hnext
    split at hnext <;> cases hnext
    exact hp
  | deleteRef ref => cases hnext
  | deleteReadRefcount ref =>
    obtain ⟨holders, hholders, hcount, hblocks⟩ := hp
    simp only [next] at hnext
    split at hnext
    · next hnone =>
      -- a reference was counted, so the entry is there
      simp only [DataKeys.refcount, hnone, Option.getD_none] at hcount
      omega
    · split at hnext <;> cases hnext
  | deleteBlocks ref => cases hnext
  | deleteRefcount ref =>
    cases hnext
    refine ⟨∅, hp.1, ?_, ?_⟩
    · simp [DataKeys.refcount, DataKeys.setRefcount, dataCid, DataOperation.ref]
    · rw [if_pos rfl]
      exact hp.2
  | deleteCountDown ref newCount dataSize =>
    obtain ⟨holders, hholders, hne, hcount, hblocks⟩ := hp
    cases hnext
    refine ⟨holders, hholders, ?_, ?_⟩
    · simpa [DataKeys.refcount, DataKeys.setRefcount, dataCid, DataOperation.ref] using hcount
    · rw [if_neg hne]
      exact hblocks

theorem Expects.resume (hp : p.Expects importer k) (hnext : p.next importer k = (some p', k')) :
    p'.dataCid = p.dataCid ∧ p'.Expects importer k' := by
  cases p with
  | put ref dataStream =>
    simp only [next] at hnext
    split at hnext <;> cases hnext
    next hnone => exact ⟨rfl, hp, hnone⟩
  | putReadRefcount ref dataStream =>
    obtain ⟨⟨holders, hholders, hcount, hblocks⟩, hnone⟩ := hp
    have hnew : ref ∉ holders := by simp [hholders ref, hnone]
    simp only [next] at hnext
    split at hnext
    · next hpos =>
      cases hnext
      have hne : holders ≠ ∅ := by
        rintro rfl
        simp [hcount] at hpos
      rw [if_neg hne] at hblocks
      exact ⟨rfl, holders, hholders, hnew, hcount, hblocks⟩
    · next hpos =>
      cases hnext
      have hempty : holders = ∅ := by
        rw [hcount] at hpos
        exact Finset.card_eq_zero.mp (by omega)
      subst hempty
      exact ⟨rfl, hholders, by simpa using hcount, fun b hb => Or.inr hb⟩
  | putImport ref dataStream count pending =>
    obtain ⟨hholders, hcount, hblocks⟩ := hp
    cases pending with
    | nil =>
      cases hnext
      refine ⟨rfl, ∅, hholders, by simp, by simpa using hcount, dataStream, fun b hb => ?_⟩
      simpa using hblocks b hb
    | cons b pending =>
      cases hnext
      refine ⟨rfl, hholders, hcount, fun b' hb' => ?_⟩
      simp only [DataKeys.setBlocks, Function.update_self, List.mem_append, List.mem_singleton]
      obtain h | h := hblocks b' hb'
      · exact Or.inl (Or.inl h)
      · obtain h | h := List.mem_cons.mp h
        · exact Or.inl (Or.inr h)
        · exact Or.inr h
  | putRef ref count dataSize =>
    obtain ⟨holders, hholders, hnew, hcount, hblocks⟩ := hp
    cases hnext
    refine ⟨rfl, insert ref holders, hholders.insert rfl _, Finset.insert_ne_empty _ _, ?_, hblocks⟩
    rw [Finset.card_insert_of_notMem hnew, hcount]
    simp
  | putRefcount ref count dataSize => cases hnext
  | delete ref =>
    simp only [next] at hnext
    split at hnext <;> cases hnext
    next n hsome => exact ⟨rfl, hp, by simp [hsome]⟩
  | deleteRef ref =>
    obtain ⟨⟨holders, hholders, hcount, hblocks⟩, hsome⟩ := hp
    have hold : ref ∈ holders := (hholders ref).mpr ⟨rfl, hsome⟩
    rw [if_neg (Finset.ne_empty_of_mem hold)] at hblocks
    cases hnext
    refine ⟨rfl, holders.erase ref, hholders.erase, ?_, hblocks⟩
    have hcard := Finset.card_erase_add_one hold
    change (k.refcount ref.dataCid).count = _
    rw [hcount]
    omega
  | deleteReadRefcount ref =>
    obtain ⟨holders, hholders, hcount, hblocks⟩ := hp
    simp only [next] at hnext
    split at hnext
    · cases hnext
    · next rc hrc =>
      simp only [DataKeys.refcount, hrc, Option.getD_some] at hcount
      split at hnext
      · next hlast =>
        cases hnext
        have hempty : holders = ∅ := Finset.card_eq_zero.mp (by omega)
        subst hempty
        exact ⟨rfl, hholders⟩
      · next hlast =>
        cases hnext
        have hne : holders ≠ ∅ := by
          rintro rfl
          simp [hcount] at hlast
        exact ⟨rfl, holders, hholders, hne, by omega, hblocks⟩
  | deleteBlocks ref =>
    cases hnext
    exact ⟨rfl, hp, by simp [DataKeys.setBlocks]⟩
  | deleteRefcount ref => cases hnext
  | deleteCountDown ref newCount dataSize => cases hnext

variable (importer)

/-- Alone on its data CID, an operation keeps the counts. -/
def discipline : Discipline (next importer) dataCid (IsCall : DataOperation Block → Prop) where
  idle c k := k.Accurate importer c
  busy p k := p.Expects importer k
  enter p k hcall hk := by
    cases hcall with
    | put ref dataStream => exact hk
    | delete ref => exact hk
  leave _ _ _ hp hnext := hp.accurate hnext
  resume _ _ _ _ hp hnext := hp.resume hnext
  idle_frame p k _ hc hk := (sameAt_next p k hc).accurate hk
  busy_frame p _ k hc hq := Expects.of_sameAt (sameAt_next p k hc) hq

end DataOperation

namespace DataRun
open DataOperation
variable {importer : P.Data → List Block}

/-- In a run in which no two operations on one data CID overlap, the count of a data CID
that no operation works on is the number of its references, and its blocks are there
exactly while there is one. -/
theorem accurate_of_exclusive {k : DataKeys Block} {actions : List (Action (DataOperation Block))}
    (hk : ∀ c, k.Accurate importer c) (hcalls : ∀ p, Action.start p ∈ actions → IsCall p)
    (hexclusive : Pool.Exclusive (next importer) dataCid { shared := k } actions) {c : String}
    (hquiet : ∀ p ∈ (Pool.run (next importer) { shared := k } actions).inFlight, p.dataCid ≠ c) :
    (Pool.run (next importer) { shared := k } actions).shared.Accurate importer c := by
  have hstart : (discipline importer).Holds ({ shared := k } : DataRun Block) :=
    ⟨by simp, fun c _ => hk c, by simp⟩
  exact ((discipline importer).holds_run hstart hcalls hexclusive).idle c hquiet

end DataRun

end EnboxDwn

namespace EnboxDwn.DataRun
open Interleaving DataOperation

local instance : Platform := Platform.ofText

def wholeBlock (data : String) : List String := [data]

def photoRefs : DataRef × DataRef := (⟨"alice", "alice1", "L1"⟩, ⟨"bob", "bob1", "L1"⟩)

/-- Both puts read the count before either writes it. -/
def racingPuts : List (Action (DataOperation String)) :=
  [Action.start (DataOperation.put photoRefs.1 "L1"), .start (DataOperation.put photoRefs.2 "L1"), .advance 0, .advance 0,
    .advance 1, .advance 1] ++ List.replicate 4 (Action.advance 0) ++ List.replicate 4 (Action.advance 0)

def afterRacingPuts : DataRun String := Pool.run (next wholeBlock) { shared := {} } racingPuts

/-- No operation is under way, two references are stored and one is counted. -/
theorem inaccurate_of_racingPuts :
    afterRacingPuts.inFlight.length = 0 ∧ ¬ afterRacingPuts.shared.Accurate wholeBlock "L1" := by
  refine ⟨by decide, ?_⟩
  intro ⟨holders, hholders, hcount, _⟩
  have hfirst : photoRefs.1 ∈ holders := (hholders _).mpr (by decide)
  have hsecond : photoRefs.2 ∈ holders := (hholders _).mpr (by decide)
  have htwo : 1 < holders.card :=
    Finset.one_lt_card.mpr ⟨_, hfirst, _, hsecond, by decide⟩
  have hone : (afterRacingPuts.shared.refcount "L1").count = 1 := by decide
  omega

/-- The two puts one after the other, with a put of other data in between. -/
def orderlyPuts : List (Action (DataOperation String)) :=
  [Action.start (DataOperation.put photoRefs.1 "L1"), .advance 0, .start (DataOperation.put ⟨"bob", "bob1", "L2"⟩ "L2"),
    .advance 1] ++ List.replicate 5 (Action.advance 0) ++ [Action.start (DataOperation.put photoRefs.2 "L1")] ++
    List.replicate 4 (Action.advance 1)

theorem accurate_of_orderlyPuts :
    (Pool.run (next wholeBlock) { shared := {} } orderlyPuts).shared.Accurate wholeBlock "L1" := by
  refine accurate_of_exclusive (fun c => DataKeys.accurate_empty _ c) ?_ (by decide) ?_
  · intro p hp
    have hcall : p = .put photoRefs.1 "L1" ∨ p = .put ⟨"bob", "bob1", "L2"⟩ "L2" ∨
        p = .put photoRefs.2 "L1" := by
      simpa [orderlyPuts, List.replicate] using hp
    obtain rfl | rfl | rfl := hcall
    · exact .put _ _
    · exact .put _ _
    · exact .put _ _
  · decide

end EnboxDwn.DataRun
