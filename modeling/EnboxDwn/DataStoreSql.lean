import Mathlib.Data.List.Basic
import Mathlib.Data.String.Basic

/-! The SQL data store, statement by statement. Blocks are kept once for each root CID, references
map records to roots; every statement is a transaction of its own, and the statements of puts and
deletes that are under way interleave freely. -/
namespace EnboxDwn.DataStoreSql

structure DataRefKey where
  tenant : String
  recordId : String
  dataCid : String
  deriving DecidableEq, Repr

/-- A row of `dataBlocks`. -/
structure Block where
  rootDataCid : String
  blockCid : String
  deriving DecidableEq, Repr

/-- What a put is given: the blocks the importer cuts from its stream, in the order in which it
writes them, and the bytes of the stream. -/
structure DataStream where
  blocks : List String
  size : Nat
  deriving DecidableEq, Repr

/-- The next statement of a put. -/
inductive PutPhase where
  | getDataRefSize
  | hasRoot
  | getAnyDataRefSize
  | clear
  | importing (rest : List String)
  | insertDataRef (dataSize : Nat)
  | getRacedDataRefSize
  | returning (dataSize : Nat)
  deriving DecidableEq, Repr

inductive DeletePhase where
  | deleteDataRef | hasAnyDataRef | deleteBlocks
  deriving DecidableEq, Repr

/-- A call under way. A put about to return remembers whether its reference was deleted since it
was seen or inserted. -/
inductive Call where
  | put (key : DataRefKey) (stream : DataStream) (phase : PutPhase) (overtaken : Bool)
  | delete (key : DataRefKey) (phase : DeletePhase)
  deriving DecidableEq, Repr

def Call.overtake (key : DataRefKey) : Call → Call
  | .put key' stream phase overtaken => .put key' stream phase (overtaken || key' == key)
  | .delete key' phase => .delete key' phase

structure Store where
  dataRefs : List (DataRefKey × Nat) := []
  dataBlocks : List Block := []
  calls : List Call := []
  /-- The keys whose put has returned and whose deletion has not begun since. -/
  kept : List DataRefKey := []

inductive Event where
  | put (key : DataRefKey) (stream : DataStream)
  | delete (key : DataRefKey)
  | advance (i : Nat)

namespace Store

def getDataRefSize (key : DataRefKey) (s : Store) : Option Nat := s.dataRefs.lookup key

def getAnyDataRefSize (dataCid : String) (s : Store) : Option Nat :=
  (s.dataRefs.find? fun ref => ref.1.dataCid = dataCid).map Prod.snd

def hasAnyDataRef (dataCid : String) (s : Store) : Bool :=
  s.dataRefs.any fun ref => ref.1.dataCid = dataCid

def hasBlock (rootDataCid blockCid : String) (s : Store) : Bool :=
  s.dataBlocks.contains ⟨rootDataCid, blockCid⟩

def putBlock (rootDataCid blockCid : String) (s : Store) : Store :=
  { s with
    dataBlocks :=
      if s.hasBlock rootDataCid blockCid then s.dataBlocks
      else s.dataBlocks ++ [⟨rootDataCid, blockCid⟩] }

def deleteBlocks (rootDataCid : String) (s : Store) : Store :=
  { s with dataBlocks := s.dataBlocks.filter fun block => block.rootDataCid ≠ rootDataCid }

/-- The deletion of a reference begins with this statement. -/
def deleteDataRef (key : DataRefKey) (s : Store) : Store :=
  { s with
    dataRefs := s.dataRefs.filter fun ref => ref.1 ≠ key
    calls := s.calls.map (Call.overtake key)
    kept := s.kept.filter fun key' => key' ≠ key }

def goOn (i : Nat) (call : Call) (s : Store) : Store := { s with calls := s.calls.set i call }

def finish (i : Nat) (s : Store) : Store := { s with calls := s.calls.eraseIdx i }

def advancePut (i : Nat) (key : DataRefKey) (stream : DataStream) : PutPhase → Store → Store
  | .getDataRefSize, s =>
    match s.getDataRefSize key with
    | some dataSize => s.goOn i (.put key stream (.returning dataSize) false)
    | none => s.goOn i (.put key stream .hasRoot false)
  | .hasRoot, s =>
    if s.hasBlock key.dataCid key.dataCid then
      s.goOn i (.put key stream .getAnyDataRefSize false)
    else s.goOn i (.put key stream .clear false)
  | .getAnyDataRefSize, s =>
    -- Blocks without a reference are left by an interrupted put; the stream's bytes are counted.
    let dataSize := (s.getAnyDataRefSize key.dataCid).getD stream.size
    s.goOn i (.put key stream (.insertDataRef dataSize) false)
  | .clear, s => (s.deleteBlocks key.dataCid).goOn i (.put key stream (.importing stream.blocks) false)
  | .importing [], s => s.goOn i (.put key stream (.insertDataRef stream.size) false)
  | .importing (blockCid :: rest), s =>
    (s.putBlock key.dataCid blockCid).goOn i (.put key stream (.importing rest) false)
  | .insertDataRef dataSize, s =>
    match s.getDataRefSize key with
    | some _ => s.goOn i (.put key stream .getRacedDataRefSize false)
    | none =>
      { s with dataRefs := s.dataRefs ++ [(key, dataSize)] }.goOn i
        (.put key stream (.returning dataSize) false)
  | .getRacedDataRefSize, s =>
    match s.getDataRefSize key with
    | some dataSize => s.goOn i (.put key stream (.returning dataSize) false)
    | none => s.finish i
  | .returning _, s => { s with kept := key :: s.kept }.finish i

def advanceDelete (i : Nat) (key : DataRefKey) : DeletePhase → Store → Store
  | .deleteDataRef, s => (s.deleteDataRef key).goOn i (.delete key .hasAnyDataRef)
  | .hasAnyDataRef, s =>
    if s.hasAnyDataRef key.dataCid then s.finish i else s.goOn i (.delete key .deleteBlocks)
  | .deleteBlocks, s => (s.deleteBlocks key.dataCid).finish i

def step : Event → Store → Store
  | .put key stream, s => { s with calls := s.calls ++ [.put key stream .getDataRefSize false] }
  | .delete key, s => { s with calls := s.calls ++ [.delete key .deleteDataRef] }
  | .advance i, s =>
    match s.calls[i]? with
    | some (.put key stream phase _) => s.advancePut i key stream phase
    | some (.delete key phase) => s.advanceDelete i key phase
    | none => s

def run : List Event → Store → Store
  | [], s => s
  | event :: rest, s => run rest (s.step event)

end Store

/-! ## What the store promises -/

/-- The content a CID stands for: the blocks below the root in the order of the import, and the
number of bytes. A block does not contain itself. -/
structure Content where
  below : String → List String
  size : String → Nat
  acyclic : ∀ dataCid, dataCid ∉ below dataCid

namespace Content

/-- The importer writes a root after everything below it. -/
def stream (content : Content) (dataCid : String) : DataStream :=
  ⟨content.below dataCid ++ [dataCid], content.size dataCid⟩

end Content

/-- `get` finds the reference, with the size of the data, and every block of the DAG. -/
def Store.Available (content : Content) (key : DataRefKey) (s : Store) : Prop :=
  s.getDataRefSize key = some (content.size key.dataCid) ∧
    ∀ blockCid ∈ (content.stream key.dataCid).blocks, s.hasBlock key.dataCid blockCid = true

/-- Referenced data is kept: between the return of a put and the next deletion of its key. -/
def Store.Keeps (content : Content) (s : Store) : Prop := ∀ key ∈ s.kept, s.Available content key

/-- A put that has found or written blocks of the root and has not inserted its reference yet. -/
def Call.reliesOn (dataCid : String) : Call → Bool
  | .put key _ phase _ =>
    key.dataCid == dataCid &&
      match phase with
      | .getAnyDataRefSize | .importing _ | .insertDataRef _ => true
      | _ => false
  | .delete _ _ => false

/-- Nothing depends on the blocks of the root. -/
def Store.Unused (dataCid : String) (s : Store) : Prop :=
  s.hasAnyDataRef dataCid = false ∧ ∀ call ∈ s.calls, call.reliesOn dataCid = false

instance (dataCid : String) (s : Store) : Decidable (s.Unused dataCid) :=
  inferInstanceAs (Decidable (_ ∧ _))

/-- Blocks are cleared or collected only while nothing depends on them, and no deletion of its key
overtakes a put between the statement in which it saw or inserted its reference and its return. -/
def Store.Admits (s : Store) : Call → Prop
  | .put key _ .clear _ => s.Unused key.dataCid
  | .put _ _ (.returning _) overtaken => overtaken = false
  | .delete key .deleteBlocks => s.Unused key.dataCid
  | _ => True

instance (s : Store) : (call : Call) → Decidable (s.Admits call)
  | .put key _ .clear _ => inferInstanceAs (Decidable (s.Unused key.dataCid))
  | .put _ _ (.returning _) overtaken => inferInstanceAs (Decidable (overtaken = false))
  | .delete key .deleteBlocks => inferInstanceAs (Decidable (s.Unused key.dataCid))
  | .put _ _ .getDataRefSize _ | .put _ _ .hasRoot _ | .put _ _ .getAnyDataRefSize _
  | .put _ _ (.importing _) _ | .put _ _ (.insertDataRef _) _ | .put _ _ .getRacedDataRefSize _
  | .delete _ .deleteDataRef | .delete _ .hasAnyDataRef => inferInstanceAs (Decidable True)

/-- The steps that keep the promise; the streams carry the data of their CID. -/
def Store.Meets (content : Content) : Event → Store → Prop
  | .put key stream, _ => stream = content.stream key.dataCid
  | .delete _, _ => True
  | .advance i, s => ∀ call ∈ s.calls[i]?, s.Admits call

instance Store.decidableMeets (content : Content) (s : Store) : (event : Event) →
    Decidable (s.Meets content event)
  | .put key stream => inferInstanceAs (Decidable (stream = content.stream key.dataCid))
  | .delete _ => inferInstanceAs (Decidable True)
  | .advance i => inferInstanceAs (Decidable (∀ call ∈ s.calls[i]?, s.Admits call))

def Store.MeetsAll (content : Content) : List Event → Store → Prop
  | [], _ => True
  | event :: rest, s => s.Meets content event ∧ MeetsAll content rest (s.step event)

instance Store.decidableMeetsAll (content : Content) : (events : List Event) → (s : Store) →
    Decidable (s.MeetsAll content events)
  | [], _ => inferInstanceAs (Decidable True)
  | event :: rest, s =>
    haveI := Store.decidableMeetsAll content rest (s.step event)
    inferInstanceAs (Decidable (s.Meets content event ∧ MeetsAll content rest (s.step event)))

/-! ## What a statement preserves -/

namespace Store
variable {content : Content} {s : Store}

def Complete (content : Content) (dataCid : String) (s : Store) : Prop :=
  ∀ blockCid ∈ (content.stream dataCid).blocks, s.hasBlock dataCid blockCid = true

@[simp] theorem hasBlock_putBlock (s : Store) (root root' b b' : String) :
    (s.putBlock root b).hasBlock root' b' = true ↔
      (root' = root ∧ b' = b) ∨ s.hasBlock root' b' = true := by
  simp only [putBlock, hasBlock, List.contains_iff_mem]
  by_cases h : (⟨root, b⟩ : Block) ∈ s.dataBlocks
  · rw [if_pos h]
    constructor
    · exact Or.inr
    · rintro (⟨rfl, rfl⟩ | h')
      · exact h
      · exact h'
  · rw [if_neg h]
    simp [or_comm]

@[simp] theorem hasBlock_deleteBlocks (s : Store) (root root' b : String) :
    (s.deleteBlocks root).hasBlock root' b = true ↔ root' ≠ root ∧ s.hasBlock root' b = true := by
  simp [hasBlock, deleteBlocks, and_comm]

theorem mem_of_getDataRefSize {key : DataRefKey} {dataSize : Nat}
    (h : s.getDataRefSize key = some dataSize) : (key, dataSize) ∈ s.dataRefs := by
  obtain ⟨refs₁, refs₂, heq, -⟩ := List.lookup_eq_some_iff.mp h
  rw [heq]
  simp

theorem isSome_getDataRefSize_iff (key : DataRefKey) (s : Store) :
    (s.getDataRefSize key).isSome = true ↔ ∃ dataSize, (key, dataSize) ∈ s.dataRefs := by
  constructor
  · intro h
    obtain ⟨dataSize, hsize⟩ := Option.isSome_iff_exists.mp h
    exact ⟨dataSize, mem_of_getDataRefSize hsize⟩
  · rintro ⟨dataSize, hmem⟩
    cases hlookup : s.getDataRefSize key with
    | some _ => rfl
    | none =>
      have hnone := List.lookup_eq_none_iff.mp hlookup (key, dataSize) hmem
      simp at hnone

def CallSound (content : Content) (s : Store) : Call → Prop
  | .delete _ _ => True
  | .put key stream phase overtaken =>
    stream = content.stream key.dataCid ∧
      match phase with
      | .getAnyDataRefSize => s.Complete content key.dataCid
      | .importing rest => ∃ done, (content.stream key.dataCid).blocks = done ++ rest ∧
          ∀ blockCid ∈ done, s.hasBlock key.dataCid blockCid = true
      | .insertDataRef dataSize =>
        s.Complete content key.dataCid ∧ dataSize = content.size key.dataCid
      | .returning _ => overtaken = false → (s.getDataRefSize key).isSome = true
      | _ => True

/-- References stand for complete data, a root block for everything below it. -/
structure Consistent (content : Content) (s : Store) : Prop where
  refs : ∀ key dataSize, (key, dataSize) ∈ s.dataRefs →
    dataSize = content.size key.dataCid ∧ s.Complete content key.dataCid
  rooted : ∀ dataCid, s.hasBlock dataCid dataCid = true → s.Complete content dataCid
  calls : ∀ call ∈ s.calls, s.CallSound content call
  kept : ∀ key ∈ s.kept, (s.getDataRefSize key).isSome = true

theorem consistent_initial : Consistent content {} where
  refs := by simp
  rooted := by
    intro dataCid h
    simp [hasBlock] at h
  calls := by simp
  kept := by simp

theorem Consistent.keeps (h : s.Consistent content) : s.Keeps content := by
  intro key hkey
  obtain ⟨dataSize, hsize⟩ := Option.isSome_iff_exists.mp (h.kept key hkey)
  obtain ⟨rfl, hcomplete⟩ := h.refs key dataSize (mem_of_getDataRefSize hsize)
  exact ⟨hsize, hcomplete⟩

/-- A call keeps what it established when blocks and references only grow. -/
theorem CallSound.mono {call : Call} {s' : Store} (h : s.CallSound content call)
    (hblocks : ∀ root b, s.hasBlock root b = true → s'.hasBlock root b = true)
    (hrefs : ∀ key, (s.getDataRefSize key).isSome = true → (s'.getDataRefSize key).isSome = true) :
    s'.CallSound content call := by
  cases call with
  | delete key phase => trivial
  | put key stream phase overtaken =>
    refine ⟨h.1, ?_⟩
    have h2 := h.2
    cases phase with
    | getAnyDataRefSize => exact fun b hb => hblocks _ _ (h2 b hb)
    | importing rest =>
      obtain ⟨done, heq, hdone⟩ := h2
      exact ⟨done, heq, fun b hb => hblocks _ _ (hdone b hb)⟩
    | insertDataRef dataSize => exact ⟨fun b hb => hblocks _ _ (h2.1 b hb), h2.2⟩
    | returning dataSize => exact fun hovertaken => hrefs key (h2 hovertaken)
    | getDataRefSize => trivial
    | hasRoot => trivial
    | clear => trivial
    | getRacedDataRefSize => trivial

theorem Consistent.goOn (h : s.Consistent content) (i : Nat) {call : Call}
    (hcall : s.CallSound content call) : (s.goOn i call).Consistent content := by
  refine ⟨h.refs, h.rooted, fun call' hmem => ?_, h.kept⟩
  cases List.mem_or_eq_of_mem_set hmem with
  | inl hmem => exact h.calls call' hmem
  | inr heq => exact heq ▸ hcall

theorem Consistent.finish (h : s.Consistent content) (i : Nat) : (s.finish i).Consistent content :=
  ⟨h.refs, h.rooted, fun call hmem => h.calls call (List.mem_of_mem_eraseIdx hmem), h.kept⟩

/-- A root is written only when everything below it is there. -/
theorem Consistent.putBlock (h : s.Consistent content) (dataCid blockCid : String)
    (hroot : blockCid = dataCid →
      ∀ b ∈ content.below dataCid, s.hasBlock dataCid b = true) :
    (s.putBlock dataCid blockCid).Consistent content := by
  have hgrow : ∀ root b, s.hasBlock root b = true →
      (s.putBlock dataCid blockCid).hasBlock root b = true :=
    fun root b hb => (hasBlock_putBlock s dataCid root blockCid b).mpr (Or.inr hb)
  refine ⟨?_, ?_, ?_, h.kept⟩
  · intro key dataSize hmem
    obtain ⟨heq, hcomplete⟩ := h.refs key dataSize hmem
    exact ⟨heq, fun b hb => hgrow _ _ (hcomplete b hb)⟩
  · intro root hpresent b hb
    rw [hasBlock_putBlock] at hpresent
    cases hpresent with
    | inr hpresent => exact hgrow _ _ (h.rooted root hpresent b hb)
    | inl heq =>
      obtain ⟨rfl, rfl⟩ := heq
      rw [hasBlock_putBlock]
      cases List.mem_append.mp hb with
      | inl hb => exact Or.inr (hroot rfl b hb)
      | inr hb => exact Or.inl ⟨rfl, List.mem_singleton.mp hb⟩
  · intro call hmem
    exact (h.calls call hmem).mono hgrow fun _ hkey => hkey

theorem Consistent.deleteBlocks (h : s.Consistent content) {dataCid : String}
    (hunused : s.Unused dataCid) : (s.deleteBlocks dataCid).Consistent content := by
  have hother : ∀ root, root ≠ dataCid → ∀ b, s.hasBlock root b = true →
      (s.deleteBlocks dataCid).hasBlock root b = true :=
    fun root hne b hb => (hasBlock_deleteBlocks s dataCid root b).mpr ⟨hne, hb⟩
  refine ⟨?_, ?_, ?_, h.kept⟩
  · intro key dataSize hmem
    obtain ⟨heq, hcomplete⟩ := h.refs key dataSize hmem
    refine ⟨heq, fun b hb => hother _ ?_ b (hcomplete b hb)⟩
    intro hcid
    have hany : s.hasAnyDataRef dataCid = true :=
      List.any_eq_true.mpr ⟨(key, dataSize), hmem, decide_eq_true hcid⟩
    rw [hunused.1] at hany
    cases hany
  · intro root hpresent b hb
    obtain ⟨hne, hpresent⟩ := (hasBlock_deleteBlocks s dataCid root root).mp hpresent
    exact hother root hne b (h.rooted root hpresent b hb)
  · intro call hmem
    have hsound := h.calls call hmem
    have hrelies := hunused.2 call hmem
    cases call with
    | delete key phase => trivial
    | put key stream phase overtaken =>
      refine ⟨hsound.1, ?_⟩
      have h2 := hsound.2
      -- Only the phases that rely on blocks say something about them.
      cases phase with
      | getAnyDataRefSize =>
        have hne : key.dataCid ≠ dataCid := by simpa [Call.reliesOn] using hrelies
        exact fun b hb => hother _ hne b (h2 b hb)
      | importing rest =>
        have hne : key.dataCid ≠ dataCid := by simpa [Call.reliesOn] using hrelies
        obtain ⟨done, heq, hdone⟩ := h2
        exact ⟨done, heq, fun b hb => hother _ hne b (hdone b hb)⟩
      | insertDataRef dataSize =>
        have hne : key.dataCid ≠ dataCid := by simpa [Call.reliesOn] using hrelies
        exact ⟨fun b hb => hother _ hne b (h2.1 b hb), h2.2⟩
      | returning dataSize => exact h2
      | getDataRefSize => trivial
      | hasRoot => trivial
      | clear => trivial
      | getRacedDataRefSize => trivial

theorem Consistent.insertDataRef (h : s.Consistent content) {key : DataRefKey}
    (hcomplete : s.Complete content key.dataCid) :
    ({ s with dataRefs := s.dataRefs ++ [(key, content.size key.dataCid)] } : Store).Consistent
      content := by
  have hgrow : ∀ key', (s.getDataRefSize key').isSome = true →
      (({ s with dataRefs := s.dataRefs ++ [(key, content.size key.dataCid)] } :
        Store).getDataRefSize key').isSome = true := by
    intro key' hkey'
    rw [isSome_getDataRefSize_iff] at hkey' ⊢
    obtain ⟨dataSize, hmem⟩ := hkey'
    exact ⟨dataSize, List.mem_append_left _ hmem⟩
  refine ⟨?_, h.rooted, ?_, fun key' hkey' => hgrow key' (h.kept key' hkey')⟩
  · intro key' dataSize hmem
    cases List.mem_append.mp hmem with
    | inl hmem => exact h.refs key' dataSize hmem
    | inr hmem =>
      cases List.mem_singleton.mp hmem
      exact ⟨rfl, hcomplete⟩
  · intro call hmem
    exact (h.calls call hmem).mono (fun _ _ hb => hb) hgrow

theorem isSome_deleteDataRef {key key' : DataRefKey} (hne : key' ≠ key) :
    ((s.deleteDataRef key).getDataRefSize key').isSome = (s.getDataRefSize key').isSome := by
  rw [Bool.eq_iff_iff, isSome_getDataRefSize_iff, isSome_getDataRefSize_iff]
  simp [deleteDataRef, hne]

theorem Consistent.deleteDataRef (h : s.Consistent content) (key : DataRefKey) :
    (s.deleteDataRef key).Consistent content := by
  refine ⟨fun key' dataSize hmem => ?_, h.rooted, fun call hmem => ?_, fun key' hkey' => ?_⟩
  · exact h.refs key' dataSize (List.mem_of_mem_filter hmem)
  · obtain ⟨call₀, hmem₀, rfl⟩ := List.mem_map.mp hmem
    have hsound := h.calls call₀ hmem₀
    cases call₀ with
    | delete key' phase => trivial
    | put key' stream phase overtaken =>
      refine ⟨hsound.1, ?_⟩
      cases phase with
      | returning dataSize =>
        intro hovertaken
        have hflags := Bool.or_eq_false_iff.mp hovertaken
        have hne : key' ≠ key := by simpa using hflags.2
        rw [isSome_deleteDataRef hne]
        exact hsound.2 hflags.1
      | getDataRefSize => trivial
      | hasRoot => trivial
      | getAnyDataRefSize => exact hsound.2
      | clear => trivial
      | importing rest => exact hsound.2
      | insertDataRef dataSize => exact hsound.2
      | getRacedDataRefSize => trivial
  · obtain ⟨hmem, hne⟩ := List.mem_filter.mp hkey'
    rw [isSome_deleteDataRef (of_decide_eq_true hne)]
    exact h.kept key' hmem

theorem below_of_root {dataCid : String} {done rest : List String}
    (h : (content.stream dataCid).blocks = done ++ dataCid :: rest) : content.below dataCid = done := by
  obtain ⟨tail, hdone, hrest⟩ | ⟨tail, hbelow, hrest⟩ := List.append_eq_append_iff.mp h
  · cases tail with
    | nil => simpa using hdone.symm
    | cons b tail => simp at hrest
  · cases tail with
    | nil => simpa using hbelow
    | cons b tail =>
      cases hrest
      exact absurd (by simp [hbelow]) (content.acyclic dataCid)

theorem Consistent.advancePut (h : s.Consistent content) {i : Nat} {key : DataRefKey}
    {stream : DataStream} {phase : PutPhase} {overtaken : Bool}
    (hcall : s.calls[i]? = some (.put key stream phase overtaken))
    (hmeets : s.Meets content (.advance i)) :
    (s.advancePut i key stream phase).Consistent content := by
  obtain ⟨hstream, hphase⟩ := h.calls _ (List.mem_of_getElem? hcall)
  have hcondition := hmeets _ hcall
  cases phase with
  | getDataRefSize =>
    simp only [Store.advancePut]
    split
    next dataSize hsize =>
      apply h.goOn
      refine ⟨hstream, fun _ => ?_⟩
      rw [hsize]
      rfl
    · exact h.goOn i ⟨hstream, trivial⟩
  | hasRoot =>
    simp only [Store.advancePut]
    split
    next hroot => exact h.goOn i ⟨hstream, h.rooted _ hroot⟩
    · exact h.goOn i ⟨hstream, trivial⟩
  | getAnyDataRefSize =>
    apply h.goOn
    refine ⟨hstream, hphase, ?_⟩
    cases hany : s.getAnyDataRefSize key.dataCid with
    | none =>
      rw [Option.getD_none, hstream]
      rfl
    | some dataSize =>
      -- The size comes from some other reference to the same root.
      obtain ⟨⟨key', size'⟩, hfind, rfl⟩ := Option.map_eq_some_iff.mp hany
      have hcid : key'.dataCid = key.dataCid := by simpa using List.find?_some hfind
      rw [Option.getD_some, ← hcid]
      exact (h.refs key' size' (List.mem_of_find?_eq_some hfind)).1
  | clear =>
    apply (h.deleteBlocks hcondition).goOn
    refine ⟨hstream, [], ?_, by simp⟩
    rw [hstream]
    rfl
  | importing rest =>
    obtain ⟨done, hblocks, hdone⟩ := hphase
    cases rest with
    | nil =>
      apply h.goOn
      rw [List.append_nil] at hblocks
      refine ⟨hstream, fun b hb => hdone b (hblocks ▸ hb), ?_⟩
      rw [hstream]
      rfl
    | cons blockCid rest =>
      have hroot : blockCid = key.dataCid →
          ∀ b ∈ content.below key.dataCid, s.hasBlock key.dataCid b = true := by
        rintro rfl b hb
        rw [below_of_root hblocks] at hb
        exact hdone b hb
      apply (h.putBlock key.dataCid blockCid hroot).goOn
      refine ⟨hstream, done ++ [blockCid], by simpa using hblocks, fun b hb => ?_⟩
      rw [hasBlock_putBlock]
      cases List.mem_append.mp hb with
      | inl hb => exact Or.inr (hdone b hb)
      | inr hb => exact Or.inl ⟨rfl, List.mem_singleton.mp hb⟩
  | insertDataRef dataSize =>
    obtain ⟨hcomplete, rfl⟩ := hphase
    simp only [Store.advancePut]
    split
    · exact h.goOn i ⟨hstream, trivial⟩
    · apply (h.insertDataRef hcomplete).goOn
      refine ⟨hstream, fun _ => ?_⟩
      rw [isSome_getDataRefSize_iff]
      exact ⟨content.size key.dataCid, by simp⟩
  | getRacedDataRefSize =>
    simp only [Store.advancePut]
    split
    next dataSize hsize =>
      apply h.goOn
      refine ⟨hstream, fun _ => ?_⟩
      rw [hsize]
      rfl
    · exact h.finish i
  | returning dataSize =>
    have hstored := hphase hcondition
    have hkeep : ({ s with kept := key :: s.kept } : Store).Consistent content := by
      refine ⟨h.refs, h.rooted, h.calls, fun key' hkey' => ?_⟩
      cases List.mem_cons.mp hkey' with
      | inl heq => exact heq ▸ hstored
      | inr hkey' => exact h.kept key' hkey'
    exact hkeep.finish i

theorem Consistent.advanceDelete (h : s.Consistent content) {i : Nat} {key : DataRefKey}
    {phase : DeletePhase} (hcall : s.calls[i]? = some (.delete key phase))
    (hmeets : s.Meets content (.advance i)) :
    (s.advanceDelete i key phase).Consistent content := by
  have hcondition := hmeets _ hcall
  cases phase with
  | deleteDataRef => exact (h.deleteDataRef key).goOn i trivial
  | hasAnyDataRef =>
    simp only [Store.advanceDelete]
    split
    · exact h.finish i
    · exact h.goOn i trivial
  | deleteBlocks => exact (h.deleteBlocks hcondition).finish i

theorem Consistent.step (h : s.Consistent content) {event : Event}
    (hmeets : s.Meets content event) : (s.step event).Consistent content := by
  cases event with
  | put key stream =>
    refine ⟨h.refs, h.rooted, fun call hmem => ?_, h.kept⟩
    cases List.mem_append.mp hmem with
    | inl hmem => exact h.calls call hmem
    | inr hmem =>
      cases List.mem_singleton.mp hmem
      exact ⟨hmeets, trivial⟩
  | delete key =>
    refine ⟨h.refs, h.rooted, fun call hmem => ?_, h.kept⟩
    cases List.mem_append.mp hmem with
    | inl hmem => exact h.calls call hmem
    | inr hmem =>
      cases List.mem_singleton.mp hmem
      trivial
  | advance i =>
    simp only [Store.step]
    split
    next hcall => exact h.advancePut hcall hmeets
    next hcall => exact h.advanceDelete hcall hmeets
    · exact h

theorem Consistent.run (h : s.Consistent content) (events : List Event)
    (hmeets : s.MeetsAll content events) : (s.run events).Consistent content := by
  induction events generalizing s with
  | nil => exact h
  | cons event rest ih => exact ih (h.step hmeets.1) hmeets.2

end Store

/-- Every state of a run whose steps meet the condition keeps the referenced data. -/
theorem run_keeps (content : Content) (events : List Event)
    (hmeets : ({} : Store).MeetsAll content events) : (({} : Store).run events).Keeps content :=
  (Store.consistent_initial.run events hmeets).keeps

def twoBlocks : Content where
  below := fun dataCid => [dataCid ++ "/leaf"]
  size := fun _ => 40000
  acyclic := by
    intro dataCid h
    have heq := congrArg String.length (List.mem_singleton.mp h)
    simp at heq

def one : DataRefKey := ⟨"did:alice", "one", "root"⟩
def two : DataRefKey := ⟨"did:alice", "two", "root"⟩

/-- The first put imports the blocks: eight steps from its first statement to its return. -/
def firstPut : List Event := .put one (twoBlocks.stream "root") :: List.replicate 8 (.advance 0)

/-- The second put shares the blocks and returns before the first reference is deleted. -/
def sharedBlocks : List Event :=
  firstPut ++ Event.put two (twoBlocks.stream "root") :: List.replicate 5 (Event.advance 0) ++
    Event.delete one :: List.replicate 2 (Event.advance 0)

theorem run_keeps_sharedBlocks :
    (({} : Store).run sharedBlocks).Keeps twoBlocks ∧ (({} : Store).run sharedBlocks).kept = [two] :=
  ⟨run_keeps twoBlocks sharedBlocks (by decide), by decide⟩

/-- The second put has seen the root block when the deletion of the first reference finds no other
one; it inserts its reference and returns, and then the deletion collects the blocks. -/
def collectedBlocks : List Event :=
  firstPut ++ [Event.put two (twoBlocks.stream "root"), .delete one, .advance 0, .advance 0, .advance 1,
    .advance 1, .advance 0, .advance 0, .advance 0, .advance 0]

theorem referenced_blocks_collected : ¬ (({} : Store).run collectedBlocks).Keeps twoBlocks := by
  intro h
  have havailable := (h two (by decide)).2 "root" (by decide)
  revert havailable
  decide

end EnboxDwn.DataStoreSql
