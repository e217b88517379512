import EnboxDwn.RecordsHandlers
import EnboxDwn.Lib.Interleaving

/-! Concurrent writes of large data. A write puts its stream into the data store, validates what
was hashed and stored, and takes the data back when it does not validate; between these steps
other writes take theirs. -/
namespace EnboxDwn.DataIntegrityRuns
open Journal

variable [P : Platform]

structure Request where
  tenant : Did
  message : RecordsWriteMessage
  dataStream : P.Data
  large : maxDataSizeAllowedToBeEncoded < message.descriptor.dataSize

namespace Request

def ref (r : Request) : DataRef := ⟨r.tenant, r.message.recordId, r.message.descriptor.dataCid⟩

def Hashes (r : Request) : Prop := P.computeDagPbCid r.dataStream = r.ref.dataCid

/-- The stream is the data that the descriptor describes. -/
def Intact (r : Request) : Prop :=
  r.Hashes ∧ P.byteLength r.dataStream = r.message.descriptor.dataSize

instance (r : Request) : Decidable r.Hashes := inferInstanceAs (Decidable (_ = _))
instance (r : Request) : Decidable r.Intact := inferInstanceAs (Decidable (_ ∧ _))

end Request

inductive Phase where
  | arrived
  | stored (dataSize : Nat)
  | failed
  | accepted
  | rejected
  deriving DecidableEq, Repr

/-- The write has put its data and has not taken it back. -/
def Phase.holds : Phase → Bool
  | stored _ => true
  | failed => true
  | accepted => true
  | _ => false

structure Call where
  request : Request
  phase : Phase := .arrived

structure State where
  data : DataStore := {}
  calls : List Call := []

inductive Action where
  | put | validate | unwind
  deriving DecidableEq, Repr

inductive Event where
  | start (r : Request)
  | act (i : Nat) (action : Action)

def Call.act (call : Call) (data : DataStore) : Action → DataStore × Phase
  | .put =>
    match call.phase with
    | .arrived =>
      let (dataSize, data') := data.put call.request.ref call.request.dataStream
      (data', .stored dataSize)
    | phase => (data, phase)
  | .validate =>
    match call.phase with
    | .stored dataSize =>
      let d := call.request.message.descriptor
      match RecordsWrite.validateDataIntegrity d.dataCid d.dataSize
          (P.computeDagPbCid call.request.dataStream) dataSize with
      | .ok () => (data, .accepted)
      | .error _ => (data, .failed)
    | phase => (data, phase)
  | .unwind =>
    match call.phase with
    | .failed => (data.delete call.request.ref, .rejected)
    | phase => (data, phase)

namespace State

def setPhase (s : State) (i : Nat) (phase : Phase) : State :=
  { s with calls := s.calls.modify i fun call => { call with phase } }

def step (s : State) : Event → State
  | .start r => { s with calls := s.calls ++ [{ request := r }] }
  | .act i action =>
    match s.calls[i]? with
    | none => s
    | some call =>
      { s with data := (call.act s.data action).1 }.setPhase i (call.act s.data action).2

def run (s : State) : List Event → State
  | [] => s
  | event :: events => (s.step event).run events

def Quiescent (s : State) : Prop :=
  ∀ call ∈ s.calls, call.phase = .arrived ∨ call.phase = .accepted ∨ call.phase = .rejected

/-- What an accepted write promises: its reference reads the data that the descriptor describes. -/
def Retrievable (s : State) (r : Request) : Prop :=
  ∃ data, s.data.get r.ref = some (r.message.descriptor.dataSize, data) ∧
    P.computeDagPbCid data = r.message.descriptor.dataCid ∧
    P.byteLength data = r.message.descriptor.dataSize

/-- A stream that hashes to its CID does not meet shared blocks of other data, and the writes that
hold the same reference are all intact or all not. -/
def Undisturbed (s : State) (r : Request) : Prop :=
  (r.Hashes → 0 < ((s.data.refcounts r.ref.dataCid).getD ⟨0, 0⟩).count →
    ∃ x ∈ s.data.blocks r.ref.dataCid, P.computeDagPbCid x = r.ref.dataCid) ∧
  ∀ other ∈ s.calls, other.phase.holds = true → other.request.ref = r.ref →
    (other.request.Intact ↔ r.Intact)

def Meets (s : State) : Event → Prop
  | .act i .put => ∀ call ∈ s.calls[i]?, call.phase = .arrived → s.Undisturbed call.request
  | _ => True

def MeetsAll (s : State) : List Event → Prop
  | [] => True
  | event :: events => s.Meets event ∧ (s.step event).MeetsAll events

instance (s : State) (r : Request) : Decidable (s.Undisturbed r) :=
  inferInstanceAs (Decidable (_ ∧ _))

instance (s : State) : (event : Event) → Decidable (s.Meets event)
  | .act i .put => inferInstanceAs (Decidable
      (∀ call ∈ s.calls[i]?, call.phase = .arrived → s.Undisturbed call.request))
  | .act _ .validate => .isTrue trivial
  | .act _ .unwind => .isTrue trivial
  | .start _ => .isTrue trivial

instance decidableMeetsAll (s : State) : (events : List Event) → Decidable (s.MeetsAll events)
  | [] => .isTrue trivial
  | event :: events =>
    have := decidableMeetsAll (s.step event) events
    inferInstanceAs (Decidable (s.Meets event ∧ (s.step event).MeetsAll events))

end State

/-! ## One write alone -/

/-! ## Counts and blocks -/

section Store
variable {d : DataStore} {ref : DataRef} {c : String}

/-- The shared blocks hold the data of their CID, and every recorded size is its size. -/
def Clean (d : DataStore) (c : String) : Prop :=
  ∀ rc, d.refcounts c = some rc →
    (∃ x ∈ d.blocks c, P.computeDagPbCid x = c ∧ P.byteLength x = rc.dataSize) ∧
    ∀ ref n, ref.dataCid = c → d.refs ref = some n → n = rc.dataSize

theorem shared_of_ref (hd : d.Counted) {n : Nat} (href : d.refs ref = some n) :
    0 < ((d.refcounts ref.dataCid).getD ⟨0, 0⟩).count := by
  obtain ⟨holders, hmem, hcard⟩ := hd ref.dataCid
  have hold : ref ∈ holders := by simp [hmem, href]
  rw [if_neg (Finset.ne_empty_of_mem hold)] at hcard
  obtain ⟨size, hsize⟩ := hcard
  have hpos : 0 < holders.card := Finset.card_pos.mpr ⟨ref, hold⟩
  rw [hsize, Option.getD_some]
  dsimp only
  omega

theorem refcount_of_shared (hshared : 0 < ((d.refcounts c).getD ⟨0, 0⟩).count) :
    ∃ rc, d.refcounts c = some rc ∧ 0 < rc.count := by
  cases hrc : d.refcounts c with
  | none => simp [hrc] at hshared
  | some rc => exact ⟨rc, rfl, by simpa [hrc] using hshared⟩

/-- A CID that no reference shares has no blocks and no references. -/
theorem vacant (hd : d.Counted) (hfree : ¬ 0 < ((d.refcounts c).getD ⟨0, 0⟩).count) :
    d.blocks c = [] ∧ ∀ ref, ref.dataCid = c → d.refs ref = none := by
  constructor
  · obtain ⟨holders, hmem, hcard⟩ := hd c
    by_cases hempty : holders = ∅
    · rw [if_pos hempty] at hcard
      exact hcard.2
    · rw [if_neg hempty] at hcard
      obtain ⟨size, hsize⟩ := hcard
      have hpos := Finset.card_pos.mpr (Finset.nonempty_iff_ne_empty.mpr hempty)
      rw [hsize, Option.getD_some] at hfree
      dsimp only at hfree
      omega
  · intro ref hc
    cases href : d.refs ref with
    | none => rfl
    | some n => exact absurd (hc ▸ shared_of_ref hd href) hfree

theorem put_of_ne (data : P.Data) (hc : c ≠ ref.dataCid) :
    (d.put ref data).2.refcounts c = d.refcounts c ∧ (d.put ref data).2.blocks c = d.blocks c := by
  unfold DataStore.put
  cases href : d.refs ref with
  | some n => exact ⟨rfl, rfl⟩
  | none =>
    dsimp only
    split
    · exact ⟨Function.update_of_ne hc _ _, rfl⟩
    · exact ⟨Function.update_of_ne hc _ _, Function.update_of_ne hc _ _⟩

theorem put_of_shared (data : P.Data) {rc : Refcount} (href : d.refs ref = none)
    (hrc : d.refcounts ref.dataCid = some rc) (hpos : 0 < rc.count) :
    d.put ref data = (rc.dataSize,
      { d with
        refs := Function.update d.refs ref (some rc.dataSize)
        refcounts := Function.update d.refcounts ref.dataCid (some ⟨rc.count + 1, rc.dataSize⟩) }) := by
  simp [DataStore.put, href, hrc, hpos]

theorem put_of_free (data : P.Data) (href : d.refs ref = none)
    (hfree : ¬ 0 < ((d.refcounts ref.dataCid).getD ⟨0, 0⟩).count) :
    d.put ref data = (P.byteLength data,
      { refs := Function.update d.refs ref (some (P.byteLength data))
        refcounts := Function.update d.refcounts ref.dataCid
          (some ⟨((d.refcounts ref.dataCid).getD ⟨0, 0⟩).count + 1, P.byteLength data⟩)
        blocks := Function.update d.blocks ref.dataCid (d.blocks ref.dataCid ++ [data]) }) := by
  simp [DataStore.put, href, hfree]

theorem delete_at (d : DataStore) (ref : DataRef) (c : String) :
    (d.delete ref).refcounts c = none ∨ (d.delete ref).blocks c = d.blocks c ∧
      ∀ rc, (d.delete ref).refcounts c = some rc →
        ∃ rc', d.refcounts c = some rc' ∧ rc'.dataSize = rc.dataSize := by
  cases href : d.refs ref with
  | none =>
    rw [DataStore.delete_of_absent href]
    exact Or.inr ⟨rfl, fun rc hrc => ⟨rc, hrc, rfl⟩⟩
  | some n =>
    rw [DataStore.delete_of_stored href, DataStore.release]
    cases hcount : d.refcounts ref.dataCid with
    | none => exact Or.inr ⟨rfl, fun rc hrc => ⟨rc, hrc, rfl⟩⟩
    | some rc =>
      dsimp only
      by_cases hc : c = ref.dataCid
      · subst hc
        split
        · exact Or.inl (Function.update_self _ _ _)
        · refine Or.inr ⟨rfl, fun rc' hrc' => ⟨rc, hcount, ?_⟩⟩
          dsimp only at hrc'
          rw [Function.update_self, Option.some.injEq] at hrc'
          rw [← hrc']
      · split
        · refine Or.inr ⟨Function.update_of_ne hc _ _, fun rc' hrc' => ⟨rc', ?_, rfl⟩⟩
          dsimp only at hrc'
          rwa [Function.update_of_ne hc] at hrc'
        · refine Or.inr ⟨rfl, fun rc' hrc' => ⟨rc', ?_, rfl⟩⟩
          dsimp only at hrc'
          rwa [Function.update_of_ne hc] at hrc'

theorem refs_of_delete {ref' : DataRef} {n : Nat} (h : (d.delete ref).refs ref' = some n) :
    ref' ≠ ref ∧ d.refs ref' = some n := by
  rw [DataStore.refs_delete] at h
  by_cases heq : ref' = ref
  · simp [heq] at h
  · exact ⟨heq, by rwa [Function.update_of_ne heq] at h⟩

theorem Clean.delete (h : Clean d c) (ref : DataRef) : Clean (d.delete ref) c := by
  intro rc hrc
  obtain hnone | ⟨hblocks, hsize⟩ := delete_at d ref c
  · rw [hnone] at hrc
    cases hrc
  · obtain ⟨rc', hrc', heq⟩ := hsize rc hrc
    obtain ⟨hdata, hrefs⟩ := h rc' hrc'
    rw [hblocks, ← heq]
    exact ⟨hdata, fun ref' n hc hn => hrefs ref' n hc (refs_of_delete hn).2⟩

/-- A put keeps clean blocks clean, unless it is the first of a CID and hashes to another. -/
theorem Clean.put (h : Clean d c) (hd : d.Counted) {data : P.Data}
    (hdata : c = ref.dataCid → ¬ 0 < ((d.refcounts c).getD ⟨0, 0⟩).count →
      P.computeDagPbCid data = c) : Clean (d.put ref data).2 c := by
  by_cases hc : c = ref.dataCid
  · subst hc
    cases href : d.refs ref with
    | some n =>
      have hsame : (d.put ref data).2 = d := by simp [DataStore.put, href]
      rwa [hsame]
    | none =>
      by_cases hshared : 0 < ((d.refcounts ref.dataCid).getD ⟨0, 0⟩).count
      · obtain ⟨rc, hrc, hpos⟩ := refcount_of_shared hshared
        obtain ⟨hblocks, hrefs⟩ := h rc hrc
        rw [put_of_shared data href hrc hpos]
        intro rc' hrc'
        dsimp only at hrc'
        rw [Function.update_self, Option.some.injEq] at hrc'
        subst hrc'
        refine ⟨hblocks, fun ref' n hc hn => ?_⟩
        by_cases heq : ref' = ref
        · subst heq
          simpa using hn.symm
        · exact hrefs ref' n hc (by simpa [Function.update_of_ne heq] using hn)
      · obtain ⟨-, hnone⟩ := vacant hd hshared
        rw [put_of_free data href hshared]
        intro rc' hrc'
        dsimp only at hrc'
        rw [Function.update_self, Option.some.injEq] at hrc'
        subst hrc'
        refine ⟨⟨data, by simp, hdata rfl hshared, rfl⟩, fun ref' n hc hn => ?_⟩
        by_cases heq : ref' = ref
        · subst heq
          simpa using hn.symm
        · simp [Function.update_of_ne heq, hnone ref' hc] at hn
  · obtain ⟨hrc, hblocks⟩ := put_of_ne (d := d) data hc
    intro rc hput
    rw [hrc] at hput
    rw [hblocks]
    obtain ⟨hx, hrefs⟩ := h rc hput
    refine ⟨hx, fun ref' n hc' hn => hrefs ref' n hc' ?_⟩
    rw [DataStore.refs_put, Function.update_of_ne] at hn
    · exact hn
    · rintro rfl
      exact hc hc'.symm

/-- On clean blocks, or as the first of its CID, a stream that hashes to its CID is reported with its size. -/
theorem Clean.put_size (h : Clean d ref.dataCid) (hd : d.Counted)
    (hsize : DataStore.SizedByCid (P := P)) {data : P.Data}
    (hdata : P.computeDagPbCid data = ref.dataCid) : (d.put ref data).1 = P.byteLength data := by
  have hrecorded : ∀ rc, d.refcounts ref.dataCid = some rc → rc.dataSize = P.byteLength data := by
    intro rc hrc
    obtain ⟨⟨x, -, hcid, hlen⟩, -⟩ := h rc hrc
    rw [← hlen]
    exact hsize x data (hcid.trans hdata.symm)
  cases href : d.refs ref with
  | some n =>
    have hput : (d.put ref data).1 = n := by simp [DataStore.put, href]
    obtain ⟨rc, hrc, -⟩ := refcount_of_shared (shared_of_ref hd href)
    rw [hput, (h rc hrc).2 ref n rfl href]
    exact hrecorded rc hrc
  | none =>
    by_cases hshared : 0 < ((d.refcounts ref.dataCid).getD ⟨0, 0⟩).count
    · obtain ⟨rc, hrc, hpos⟩ := refcount_of_shared hshared
      rw [put_of_shared data href hrc hpos]
      exact hrecorded rc hrc
    · rw [put_of_free data href hshared]

end Store

/-! ## What every step keeps -/

/-- The blocks of a CID are clean, or they are of other data and every reference to them belongs
to a write that will take it back. -/
structure Consistent (s : State) : Prop where
  counted : s.data.Counted
  blocks : ∀ c, Clean s.data c ∨ (∀ x ∈ s.data.blocks c, P.computeDagPbCid x ≠ c) ∧
    ∀ ref n, ref.dataCid = c → s.data.refs ref = some n →
      ∃ call ∈ s.calls, call.phase.holds = true ∧ call.request.ref = ref ∧ ¬ call.request.Hashes
  stored : ∀ call ∈ s.calls, call.phase.holds = true → call.request.Intact →
    (s.data.refs call.request.ref).isSome = true
  alike : ∀ a ∈ s.calls, ∀ b ∈ s.calls, a.phase.holds = true → b.phase.holds = true →
    a.request.ref = b.request.ref → (a.request.Intact ↔ b.request.Intact)
  size : ∀ call ∈ s.calls, ∀ n, call.phase = .stored n → call.request.Hashes →
    n = P.byteLength call.request.dataStream
  accepted : ∀ call ∈ s.calls, call.phase = .accepted → call.request.Intact
  failed : ∀ call ∈ s.calls, call.phase = .failed → ¬ call.request.Intact

section Steps
variable {s : State} {i : Nat} {call : Call}

theorem mem_setPhase {phase : Phase} (hi : s.calls[i]? = some call) {c : Call}
    (hc : c ∈ (s.setPhase i phase).calls) : c ∈ s.calls ∨ c = { call with phase } :=
  Interleaving.mem_modify hi hc

/-- A step of one write: the facts about the new store and about the new phase of the write are
given, the other writes are where they were. -/
theorem Consistent.advance (h : Consistent s) (hi : s.calls[i]? = some call) {data' : DataStore}
    {phase : Phase} (hcounted : data'.Counted)
    (hblocks : ∀ c, Clean data' c ∨ (∀ x ∈ data'.blocks c, P.computeDagPbCid x ≠ c) ∧
      ∀ ref n, ref.dataCid = c → data'.refs ref = some n →
        (phase.holds = true ∧ call.request.ref = ref ∧ ¬ call.request.Hashes) ∨
        (call.phase.holds = true → call.request.ref = ref → ¬ call.request.Hashes →
          phase.holds = true) ∧
        ∃ c ∈ s.calls, c.phase.holds = true ∧ c.request.ref = ref ∧ ¬ c.request.Hashes)
    (hstored : ∀ c ∈ s.calls, c.phase.holds = true → c.request.Intact →
      (data'.refs c.request.ref).isSome = true)
    (hown : phase.holds = true → call.request.Intact → (data'.refs call.request.ref).isSome = true)
    (halike : phase.holds = true → ∀ c ∈ s.calls, c.phase.holds = true →
      c.request.ref = call.request.ref → (c.request.Intact ↔ call.request.Intact))
    (hsize : ∀ n, phase = .stored n → call.request.Hashes →
      n = P.byteLength call.request.dataStream)
    (haccepted : phase = .accepted → call.request.Intact)
    (hfailed : phase = .failed → ¬ call.request.Intact) :
    Consistent ({ s with data := data' }.setPhase i phase) := by
  have hi' : ({ s with data := data' } : State).calls[i]? = some call := hi
  refine ⟨hcounted, fun c => ?_, ?_, ?_, ?_, ?_, ?_⟩
  · refine (hblocks c).imp id fun ⟨hother, howned⟩ => ⟨hother, fun ref n hc hn => ?_⟩
    obtain ⟨hphase, href, hcid⟩ | ⟨hkeep, owner, howner, hphase, href, hcid⟩ := howned ref n hc hn
    · exact ⟨_, Interleaving.modify_mem _ hi', hphase, href, hcid⟩
    · cases Interleaving.mem_modify_of_ne (fun c : Call => { c with phase }) hi' howner with
      | inl hmem => exact ⟨owner, hmem, hphase, href, hcid⟩
      | inr heq =>
        subst heq
        exact ⟨_, Interleaving.modify_mem _ hi', hkeep hphase href hcid, href, hcid⟩
  · intro c hc hphase hintact
    cases mem_setPhase hi' hc with
    | inl hc => exact hstored c hc hphase hintact
    | inr heq =>
      subst heq
      exact hown hphase hintact
  · intro a ha b hb hpa hpb href
    cases mem_setPhase hi' ha with
    | inl ha =>
      cases mem_setPhase hi' hb with
      | inl hb => exact h.alike a ha b hb hpa hpb href
      | inr heq =>
        subst heq
        exact halike hpb a ha hpa href
    | inr heq =>
      subst heq
      cases mem_setPhase hi' hb with
      | inl hb => exact (halike hpa b hb hpb href.symm).symm
      | inr heq =>
        subst heq
        exact Iff.rfl
  · intro c hc n hphase
    cases mem_setPhase hi' hc with
    | inl hc => exact h.size c hc n hphase
    | inr heq =>
      subst heq
      exact hsize n hphase
  · intro c hc hphase
    cases mem_setPhase hi' hc with
    | inl hc => exact h.accepted c hc hphase
    | inr heq =>
      subst heq
      exact haccepted hphase
  · intro c hc hphase
    cases mem_setPhase hi' hc with
    | inl hc => exact h.failed c hc hphase
    | inr heq =>
      subst heq
      exact hfailed hphase

theorem Consistent.rest (h : Consistent s) (hi : s.calls[i]? = some call) {phase : Phase}
    (hholds : phase.holds = call.phase.holds)
    (hsize : ∀ n, phase = .stored n → call.request.Hashes →
      n = P.byteLength call.request.dataStream)
    (haccepted : phase = .accepted → call.request.Intact)
    (hfailed : phase = .failed → ¬ call.request.Intact) :
    Consistent ({ s with data := s.data }.setPhase i phase) := by
  have hcall := List.mem_of_getElem? hi
  refine h.advance hi h.counted ?_ h.stored ?_ ?_ hsize haccepted hfailed
  · intro c
    refine (h.blocks c).imp id fun ⟨hother, howned⟩ => ⟨hother, fun ref n hc hn => Or.inr ?_⟩
    exact ⟨fun hphase _ _ => hholds.trans hphase, howned ref n hc hn⟩
  · intro hphase
    exact h.stored call hcall (hholds ▸ hphase)
  · intro hphase c hc hp href
    exact h.alike c hc call hcall hp (hholds ▸ hphase) href

theorem Consistent.clean (h : Consistent s) {r : Request}
    (hshared : 0 < ((s.data.refcounts r.ref.dataCid).getD ⟨0, 0⟩).count →
      ∃ x ∈ s.data.blocks r.ref.dataCid, P.computeDagPbCid x = r.ref.dataCid) :
    Clean s.data r.ref.dataCid := by
  cases h.blocks r.ref.dataCid with
  | inl hclean => exact hclean
  | inr hother =>
    intro rc hrc
    by_cases hpos : 0 < ((s.data.refcounts r.ref.dataCid).getD ⟨0, 0⟩).count
    · obtain ⟨x, hx, hcid⟩ := hshared hpos
      exact absurd hcid (hother.1 x hx)
    · obtain ⟨holders, hmem, hcard⟩ := h.counted r.ref.dataCid
      by_cases hempty : holders = ∅
      · rw [if_pos hempty, hrc] at hcard
        cases hcard.1
      · obtain ⟨ref, href⟩ := Finset.nonempty_iff_ne_empty.mpr hempty
        obtain ⟨hc, hsome⟩ := (hmem ref).mp href
        rw [(vacant h.counted hpos).2 ref hc] at hsome
        cases hsome

/-- Blocks of other data stay so, with a reference more, under the put of a stream that does not
hash to its CID; such a stream can also be the first of its CID. -/
theorem blocks_put_other {d : DataStore} (hd : d.Counted) {r : Request} (hhash : ¬ r.Hashes)
    (hother : (∀ x ∈ d.blocks r.ref.dataCid, P.computeDagPbCid x ≠ r.ref.dataCid)) :
    ∀ x ∈ (d.put r.ref r.dataStream).2.blocks r.ref.dataCid,
      P.computeDagPbCid x ≠ r.ref.dataCid := by
  cases href : d.refs r.ref with
  | some n => simpa [DataStore.put, href] using hother
  | none =>
    by_cases hshared : 0 < ((d.refcounts r.ref.dataCid).getD ⟨0, 0⟩).count
    · obtain ⟨rc, hrc, hpos⟩ := refcount_of_shared hshared
      rw [put_of_shared _ href hrc hpos]
      exact hother
    · rw [put_of_free _ href hshared]
      intro x hx
      simp only [Function.update_self, (vacant hd hshared).1, List.nil_append,
        List.mem_singleton] at hx
      exact hx ▸ hhash

theorem Consistent.put (h : Consistent s) (hsized : DataStore.SizedByCid (P := P))
    (hi : s.calls[i]? = some call)
    (hundisturbed : s.Undisturbed call.request) :
    Consistent ({ s with data := (s.data.put call.request.ref call.request.dataStream).2 }.setPhase i
      (.stored (s.data.put call.request.ref call.request.dataStream).1)) := by
  obtain ⟨hshared, halike⟩ := hundisturbed
  have hrefs : ∀ ref, ref = call.request.ref ∨
      (s.data.put call.request.ref call.request.dataStream).2.refs ref = s.data.refs ref := by
    intro ref
    rw [DataStore.refs_put]
    exact (eq_or_ne ref call.request.ref).imp id fun hne => Function.update_of_ne hne _ _
  have hself : ((s.data.put call.request.ref call.request.dataStream).2.refs
      call.request.ref).isSome = true := by simp [DataStore.refs_put]
  refine h.advance hi (DataStore.counted_put h.counted _ _) ?_ ?_ (fun _ _ => hself)
    (fun _ c hc hp href => halike c hc hp href) ?_ (by simp) (by simp)
  · intro c
    -- A reference other than the new one had an owner before.
    have howned : ∀ ref n, (ref ≠ call.request.ref → s.data.refs ref = some n →
          ∃ c ∈ s.calls, c.phase.holds = true ∧ c.request.ref = ref ∧ ¬ c.request.Hashes) →
        ¬ call.request.Hashes ∨ ref ≠ call.request.ref →
        (s.data.put call.request.ref call.request.dataStream).2.refs ref = some n →
        (true = true ∧ call.request.ref = ref ∧ ¬ call.request.Hashes) ∨
        (call.phase.holds = true → call.request.ref = ref → ¬ call.request.Hashes →
          true = true) ∧
        ∃ c ∈ s.calls, c.phase.holds = true ∧ c.request.ref = ref ∧ ¬ c.request.Hashes := by
      intro ref n hold hcase hn
      by_cases heq : ref = call.request.ref
      · exact Or.inl ⟨rfl, heq.symm, hcase.resolve_right (not_not.mpr heq)⟩
      · refine Or.inr ⟨fun _ _ _ => rfl, hold heq ?_⟩
        rwa [(hrefs ref).resolve_left heq] at hn
    by_cases hc : c = call.request.ref.dataCid
    · subst hc
      by_cases hhash : call.request.Hashes
      · exact Or.inl ((h.clean (hshared hhash)).put h.counted fun _ _ => hhash)
      · by_cases hfree : 0 < ((s.data.refcounts call.request.ref.dataCid).getD ⟨0, 0⟩).count
        · refine (h.blocks call.request.ref.dataCid).imp
            (fun hclean => hclean.put h.counted fun _ hnot => absurd hfree hnot) ?_
          rintro ⟨hother, howner⟩
          exact ⟨blocks_put_other h.counted hhash hother, fun ref n hc hn =>
            howned ref n (fun _ => howner ref n hc) (Or.inl hhash) hn⟩
        · obtain ⟨hempty, hnone⟩ := vacant h.counted hfree
          refine Or.inr ⟨blocks_put_other h.counted hhash (by simp [hempty]), fun ref n hc hn =>
            howned ref n (fun _ hold => ?_) (Or.inl hhash) hn⟩
          rw [hnone ref hc] at hold
          cases hold
    · refine (h.blocks c).imp (fun hclean => hclean.put h.counted fun heq => absurd heq hc) ?_
      rintro ⟨hother, howner⟩
      rw [(put_of_ne call.request.dataStream hc).2]
      refine ⟨hother, fun ref n hc' hn => howned ref n (fun _ => howner ref n hc') (Or.inr ?_) hn⟩
      rintro rfl
      exact hc hc'.symm
  · intro c hc hp hintact
    cases hrefs c.request.ref with
    | inl heq => exact heq ▸ hself
    | inr heq => exact heq ▸ h.stored c hc hp hintact
  · intro n hn hhash
    rw [← Phase.stored.inj hn]
    exact (h.clean (hshared hhash)).put_size h.counted hsized hhash

theorem Consistent.unwind (h : Consistent s) (hi : s.calls[i]? = some call)
    (hphase : call.phase = .failed) :
    Consistent ({ s with data := s.data.delete call.request.ref }.setPhase i .rejected) := by
  have hcall := List.mem_of_getElem? hi
  refine h.advance hi (DataStore.counted_delete h.counted _) ?_ ?_ (by simp [Phase.holds])
    (by simp [Phase.holds]) (by simp) (by simp) (by simp)
  · intro c
    refine or_iff_not_imp_left.mpr fun hdirty => ?_
    obtain ⟨hother, howned⟩ := (h.blocks c).resolve_left fun hclean => hdirty (hclean.delete _)
    -- Blocks that are not clean afterwards are the blocks of before.
    obtain hnone | ⟨hblocks, -⟩ := delete_at s.data call.request.ref c
    · refine absurd (fun rc hrc => ?_) hdirty
      rw [hnone] at hrc
      cases hrc
    · rw [hblocks]
      refine ⟨hother, fun ref n hc hn => Or.inr ?_⟩
      obtain ⟨hne, hbefore⟩ := refs_of_delete hn
      exact ⟨fun _ heq => absurd heq.symm hne, howned ref n hc hbefore⟩
  · intro c hc hp hintact
    have hne : c.request.ref ≠ call.request.ref := by
      intro heq
      refine h.failed call hcall hphase ?_
      exact (h.alike c hc call hcall hp (by rw [hphase]; rfl) heq).mp hintact
    rw [DataStore.refs_delete, Function.update_of_ne hne]
    exact h.stored c hc hp hintact

/-- Validation accepts exactly a stream that hashes to the CID and is reported with the size of
the descriptor. -/
theorem validateDataIntegrity_ok {r : Request} {dataSize : Nat} :
    RecordsWrite.validateDataIntegrity r.message.descriptor.dataCid r.message.descriptor.dataSize
        (P.computeDagPbCid r.dataStream) dataSize = .ok () ↔
      r.Hashes ∧ dataSize = r.message.descriptor.dataSize := by
  unfold RecordsWrite.validateDataIntegrity Request.Hashes
  change _ ↔ P.computeDagPbCid r.dataStream = r.message.descriptor.dataCid ∧ _
  by_cases hcid : P.computeDagPbCid r.dataStream = r.message.descriptor.dataCid
  · by_cases hsize : dataSize = r.message.descriptor.dataSize
    · simp [hcid, hsize]
    · simp [hcid, hsize, Ne.symm hsize]
  · simp [hcid, Ne.symm hcid]

theorem Consistent.validate (h : Consistent s) (hi : s.calls[i]? = some call) {dataSize : Nat}
    (hphase : call.phase = .stored dataSize) :
    Consistent ({ s with data := (call.act s.data .validate).1 }.setPhase i
      (call.act s.data .validate).2) := by
  have hcall := List.mem_of_getElem? hi
  have hholds : call.phase.holds = true := by rw [hphase]; rfl
  have hsize := h.size call hcall dataSize hphase
  simp only [Call.act, hphase]
  cases hcheck : RecordsWrite.validateDataIntegrity call.request.message.descriptor.dataCid
      call.request.message.descriptor.dataSize (P.computeDagPbCid call.request.dataStream)
      dataSize with
  | ok u =>
    obtain ⟨hhash, heq⟩ := validateDataIntegrity_ok.mp hcheck
    refine h.rest hi hholds.symm (by simp) (fun _ => ⟨hhash, ?_⟩) (by simp)
    rw [← hsize hhash, heq]
  | error e =>
    refine h.rest hi hholds.symm (by simp) (by simp) (fun _ hintact => ?_)
    rw [validateDataIntegrity_ok.mpr ⟨hintact.1, (hsize hintact.1).trans hintact.2⟩] at hcheck
    cases hcheck

theorem Consistent.act (h : Consistent s) (hsized : DataStore.SizedByCid (P := P))
    (hi : s.calls[i]? = some call) (action : Action)
    (hmeets : action = .put → call.phase = .arrived → s.Undisturbed call.request) :
    Consistent ({ s with data := (call.act s.data action).1 }.setPhase i
      (call.act s.data action).2) := by
  have hcall := List.mem_of_getElem? hi
  have hstay : Consistent ({ s with data := s.data }.setPhase i call.phase) :=
    h.rest hi rfl (h.size call hcall) (h.accepted call hcall) (h.failed call hcall)
  cases hphase : call.phase with
  | arrived =>
    rw [hphase] at hstay
    cases action with
    | put =>
      simp only [Call.act, hphase]
      exact h.put hsized hi (hmeets rfl hphase)
    | validate => simpa only [Call.act, hphase] using hstay
    | unwind => simpa only [Call.act, hphase] using hstay
  | stored dataSize =>
    rw [hphase] at hstay
    cases action with
    | put => simpa only [Call.act, hphase] using hstay
    | validate => exact h.validate hi hphase
    | unwind => simpa only [Call.act, hphase] using hstay
  | failed =>
    rw [hphase] at hstay
    cases action with
    | put => simpa only [Call.act, hphase] using hstay
    | validate => simpa only [Call.act, hphase] using hstay
    | unwind =>
      simp only [Call.act, hphase]
      exact h.unwind hi hphase
  | accepted =>
    rw [hphase] at hstay
    cases action <;> simpa only [Call.act, hphase] using hstay
  | rejected =>
    rw [hphase] at hstay
    cases action <;> simpa only [Call.act, hphase] using hstay

theorem Consistent.start (h : Consistent s) (r : Request) : Consistent (s.step (.start r)) := by
  have hmem : ∀ c ∈ (s.step (.start r)).calls, c.phase ≠ .arrived → c ∈ s.calls := by
    intro c hc hp
    cases List.mem_append.mp hc with
    | inl hc => exact hc
    | inr hc => exact absurd (by rw [List.mem_singleton.mp hc]) hp
  have hne : ∀ c : Call, c.phase.holds = true → c.phase ≠ .arrived := by
    intro c hp heq
    simp [heq, Phase.holds] at hp
  refine ⟨h.counted, fun c => ?_, ?_, ?_, ?_, ?_, ?_⟩
  · refine (h.blocks c).imp id fun ⟨hother, howned⟩ => ⟨hother, fun ref n hc hn => ?_⟩
    obtain ⟨owner, howner, hrest⟩ := howned ref n hc hn
    exact ⟨owner, List.mem_append_left _ howner, hrest⟩
  · intro c hc hp
    exact h.stored c (hmem c hc (hne c hp)) hp
  · intro a ha b hb hpa hpb
    exact h.alike a (hmem a ha (hne a hpa)) b (hmem b hb (hne b hpb)) hpa hpb
  · intro c hc n hp
    exact h.size c (hmem c hc (by simp [hp])) n hp
  · intro c hc hp
    exact h.accepted c (hmem c hc (by simp [hp])) hp
  · intro c hc hp
    exact h.failed c (hmem c hc (by simp [hp])) hp

end Steps

theorem Consistent.run {s : State} (h : Consistent s) (hsized : DataStore.SizedByCid (P := P))
    (events : List Event) (hmeets : s.MeetsAll events) : Consistent (s.run events) := by
  induction events generalizing s with
  | nil => exact h
  | cons event events ih =>
    obtain ⟨hmeet, hrest⟩ := hmeets
    refine ih ?_ hrest
    cases event with
    | start r => exact h.start r
    | act i action =>
      cases hi : s.calls[i]? with
      | none => simpa only [State.step, hi] using h
      | some call =>
        have hact := h.act hsized hi action (by
          rintro rfl
          exact hmeet call (by simp [hi]))
        simpa only [State.step, hi] using hact

theorem Consistent.retrievable {s : State} (h : Consistent s)
    (hexports : DataStore.ExportsImported (P := P)) {call : Call} (hcall : call ∈ s.calls)
    (haccepted : call.phase = .accepted) : s.Retrievable call.request := by
  have hintact := h.accepted call hcall haccepted
  have hholds : call.phase.holds = true := by rw [haccepted]; rfl
  obtain ⟨n, hn⟩ := Option.isSome_iff_exists.mp (h.stored call hcall hholds hintact)
  obtain hclean | ⟨-, howned⟩ := h.blocks call.request.ref.dataCid
  · obtain ⟨rc, hrc, -⟩ := refcount_of_shared (shared_of_ref h.counted hn)
    obtain ⟨⟨x, hx, hcid, hlen⟩, hrefs⟩ := hclean rc hrc
    have hdata : x = call.request.dataStream := hexports.eq_of_cid (hcid.trans hintact.1.symm)
    have hexport := hexports x _ hx
    rw [hcid] at hexport
    have hlength : P.byteLength x = call.request.message.descriptor.dataSize := hdata ▸ hintact.2
    refine ⟨x, ?_, hcid, hlength⟩
    simp only [DataStore.get, hn, hexport, Option.map_some, hrefs _ n rfl hn, ← hlen, hlength]
  · obtain ⟨owner, howner, hp, href, hhash⟩ := howned call.request.ref n rfl hn
    -- A write of other data on the same reference would not be alike.
    exact absurd ((h.alike owner howner call hcall hp hholds href).mpr hintact).1 hhash

/-- In every state reached by undisturbed puts, an accepted write reads data that hashes to its
data CID and is complete. -/
theorem accepted_retrievable (hexports : DataStore.ExportsImported (P := P)) {data : DataStore}
    (hcounted : data.Counted) (hclean : ∀ c, Clean data c) (events : List Event)
    (hmeets : ({ data } : State).MeetsAll events) {call : Call}
    (hcall : call ∈ (({ data } : State).run events).calls) (haccepted : call.phase = .accepted) :
    (({ data } : State).run events).Retrievable call.request := by
  have hstart : Consistent ({ data } : State) :=
    { counted := hcounted
      blocks := fun c => Or.inl (hclean c)
      stored := by simp
      alike := by simp
      size := by simp
      accepted := by simp
      failed := by simp }
  exact (hstart.run hexports.sizedByCid events hmeets).retrievable hexports hcall haccepted

end EnboxDwn.DataIntegrityRuns

namespace EnboxDwn.DataIntegrityRuns

local instance : Platform := Platform.ofText

def request (recordId dataStream : String) : Request where
  tenant := "alice"
  message :=
    { recordId
      contextId := recordId
      descriptor :=
        { module := "notes"
          modulePath := "note"
          dataCid := "LY"
          dataSize := 40002
          dataFormat := "text/plain"
          dateCreated := "1"
          messageTimestamp := "1" }
      authorization := { signature := recordId, signer := "alice" } }
  dataStream
  large := show maxDataSizeAllowedToBeEncoded < 40002 by decide

/-- A write of other data that has been taken back before the next one puts. -/
def oneAfterTheOther : List Event :=
  [.start (request "bad" "LX"), .start (request "good" "LY"), .act 0 .put, .act 0 .validate,
    .act 0 .unwind, .act 1 .put, .act 1 .validate]

theorem accepted_retrievable_oneAfterTheOther :
    (({} : State).MeetsAll oneAfterTheOther) ∧
      (({} : State).run oneAfterTheOther).Retrievable (request "good" "LY") := by
  refine ⟨by decide, ?_⟩
  exact accepted_retrievable DataStore.exportsImported_ofText DataStore.counted_empty
    (fun c rc hrc => by cases hrc) oneAfterTheOther (by decide)
    (show (⟨request "good" "LY", .accepted⟩ : Call) ∈ _ from List.mem_of_getElem? (i := 1) rfl) rfl

/-- The write of other data is the first to put, and the good one shares its blocks. -/
def overlapping : List Event :=
  [.start (request "bad" "LX"), .start (request "good" "LY"), .act 0 .put, .act 1 .put,
    .act 1 .validate, .act 0 .validate, .act 0 .unwind]

/-- The good write is accepted, and when no write is in flight its data cannot be read. -/
theorem lost_overlapping :
    (({} : State).run overlapping).Quiescent ∧
      (∃ call ∈ (({} : State).run overlapping).calls, call.phase = .accepted ∧
        call.request = request "good" "LY") ∧
      ¬ (({} : State).run overlapping).Retrievable (request "good" "LY") := by
  have hget : (({} : State).run overlapping).data.get (request "good" "LY").ref = none := by
    decide
  refine ⟨?_, ⟨⟨request "good" "LY", .accepted⟩, List.mem_of_getElem? (i := 1) rfl, rfl, rfl⟩, ?_⟩
  · intro call hcall
    revert call
    decide
  · rintro ⟨data, hdata, -⟩
    rw [hget] at hdata
    cases hdata

end EnboxDwn.DataIntegrityRuns
