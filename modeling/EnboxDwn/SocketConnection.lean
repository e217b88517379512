import EnboxDwn.Lib.KeyedMap
import Mathlib.Data.List.Count
import Mathlib.Data.List.Induction

/-! The subscriptions of one socket connection. A request reserves its subscription id, opens the
subscription and registers the function that closes it; meanwhile the subscription may be ended by
its consumer, by the flow controller, by the request itself or with the connection. -/
namespace EnboxDwn.Server

structure ServerError where
  code : String
  message : String
  deriving DecidableEq, Repr

/-- How far the cleanup of a lifetime is: its promise is published and the signal aborted, its
microtask has called the close function, the close function has completed, the promise is settled. -/
inductive Cleanup where
  | none
  | scheduled
  | closing
  | finishing
  | settled
  deriving DecidableEq, Repr

structure Lifetime (ι : Type) where
  id : ι
  /-- The request has handed its close function to `register`; it does so once. -/
  registered : Bool := false
  /-- The close function is kept for the cleanup. -/
  close : Bool := false
  cleanup : Cleanup := .none

/-- How often the close function of the lifetime is to have been called. -/
def Lifetime.due {ι : Type} (l : Lifetime ι) : Nat :=
  if l.registered = true ∧ ¬ (l.close = true ∧ (l.cleanup = .none ∨ l.cleanup = .scheduled)) then 1
  else 0

/-- Only a registered close function is kept, and a registered one is kept unless the lifetime had
ended before. -/
structure Lifetime.Coherent {ι : Type} (l : Lifetime ι) : Prop where
  registered : l.close = true → l.registered = true
  late : l.registered = true → l.close = false → l.cleanup ≠ .none

/-- The close of the connection: its microtask waits for the lifetimes it found. -/
inductive ConnectionClose where
  | none
  | scheduled
  | waiting (lifetimes : List Nat)
  | settled

/-- A connection, with the calls of close functions that it has made. Lifetimes are numbered in the
order in which they began. -/
structure SocketConnection (ι : Type) where
  lifetimes : List (Lifetime ι) := []
  subscriptions : KeyedMap ι Nat := ∅
  isClosed : Bool := false
  closePromise : ConnectionClose := .none
  /-- What the loop of `close` has still to visit. -/
  visiting : List Nat := []
  calls : List Nat := []

namespace SocketConnection
variable {ι : Type} [DecidableEq ι] [ToString ι]

def beginSubscription (s : SocketConnection ι) (id : ι) :
    Except ServerError (SocketConnection ι) :=
  if s.isClosed then
    .error ⟨"ConnectionClosed", "cannot open a subscription on a closed connection"⟩
  else if (s.subscriptions.lookup id).isSome then
    .error ⟨"ConnectionSubscriptionJsonRpcIdExists",
      "the subscription with id " ++ toString id ++ " already exists"⟩
  else .ok { s with
    lifetimes := s.lifetimes ++ [{ id }]
    subscriptions := s.subscriptions.insert id s.lifetimes.length }

def setLifetime (s : SocketConnection ι) (n : Nat) (l : Lifetime ι) : SocketConnection ι :=
  { s with lifetimes := s.lifetimes.set n l }

def call (s : SocketConnection ι) (n : Nat) : SocketConnection ι := { s with calls := s.calls ++ [n] }

/-- A lifetime that has ended meanwhile has its close function called at once, and the promise of
`register` rejects. -/
def register (s : SocketConnection ι) (n : Nat) : SocketConnection ι :=
  match s.lifetimes[n]? with
  | none => s
  | some l =>
    if l.registered then s
    else if l.cleanup ≠ .none then (s.setLifetime n { l with registered := true }).call n
    else s.setLifetime n { l with registered := true, close := true }

/-- The promise is published before the signal aborts, so that listeners of the signal that come back
here find it. -/
def closeOwnedSubscription (s : SocketConnection ι) (n : Nat) : SocketConnection ι :=
  match s.lifetimes[n]? with
  | none => s
  | some l => if l.cleanup ≠ .none then s else s.setLifetime n { l with cleanup := .scheduled }

def release (s : SocketConnection ι) (n : Nat) : SocketConnection ι := s.closeOwnedSubscription n

def overflow (s : SocketConnection ι) (n : Nat) : SocketConnection ι := s.closeOwnedSubscription n

def closeSubscription (s : SocketConnection ι) (id : ι) : Except ServerError (SocketConnection ι) :=
  match s.subscriptions.lookup id with
  | none => .error ⟨"ConnectionSubscriptionJsonRpcIdNotFound",
      "the subscription with id " ++ toString id ++ " was not found"⟩
  | some n => .ok (s.closeOwnedSubscription n)

/-- The microtask of a cleanup. -/
def runCleanup (s : SocketConnection ι) (n : Nat) : SocketConnection ι :=
  match s.lifetimes[n]? with
  | none => s
  | some l =>
    if l.cleanup = .scheduled then
      if l.close then (s.setLifetime n { l with cleanup := .closing }).call n
      else s.setLifetime n { l with cleanup := .finishing }
    else s

/-- The promise of the close function resolves or rejects. -/
def completeClose (s : SocketConnection ι) (n : Nat) : SocketConnection ι :=
  match s.lifetimes[n]? with
  | none => s
  | some l =>
    if l.cleanup = .closing then s.setLifetime n { l with cleanup := .finishing } else s

/-- The id is free again only now. -/
def finishCleanup (s : SocketConnection ι) (n : Nat) : SocketConnection ι :=
  match s.lifetimes[n]? with
  | none => s
  | some l =>
    if l.cleanup = .finishing then
      { s.setLifetime n { l with cleanup := .settled } with
        subscriptions :=
          if s.subscriptions.lookup l.id = some n then s.subscriptions.erase l.id
          else s.subscriptions }
    else s

/-- The subscriptions are closed one after another; what their listeners do comes in between. -/
def close (s : SocketConnection ι) : SocketConnection ι :=
  match s.closePromise with
  | .none => { s with
      isClosed := true
      closePromise := .scheduled
      visiting := KeyedMap.values s.subscriptions }
  | _ => s

def visitNext (s : SocketConnection ι) : SocketConnection ι :=
  match s.visiting with
  | [] => s
  | n :: rest => { s.closeOwnedSubscription n with visiting := rest }

/-- The microtask of the connection closes what is left, and waits for everything it found. -/
def closeConnection (s : SocketConnection ι) : SocketConnection ι :=
  match s.closePromise with
  | .scheduled =>
    { (KeyedMap.values s.subscriptions).foldl closeOwnedSubscription s with
      closePromise := .waiting (KeyedMap.values s.subscriptions) }
  | _ => s

def isSettled (s : SocketConnection ι) (n : Nat) : Bool :=
  (s.lifetimes[n]?).all fun l => l.cleanup = .settled

def finishConnection (s : SocketConnection ι) : SocketConnection ι :=
  match s.closePromise with
  | .waiting lifetimes =>
    if lifetimes.all s.isSettled then { s with closePromise := .settled } else s
  | _ => s

/-! ## Runs -/

inductive Step (ι : Type) where
  | beginSubscription (id : ι)
  | register (n : Nat)
  | release (n : Nat)
  | overflow (n : Nat)
  | closeSubscription (id : ι)
  | close
  | visitNext
  | runCleanup (n : Nat)
  | completeClose (n : Nat)
  | finishCleanup (n : Nat)
  | closeConnection
  | finishConnection

/-- A refused call leaves the connection as it is. -/
def step (s : SocketConnection ι) : Step ι → SocketConnection ι
  | .beginSubscription id => (s.beginSubscription id).toOption.getD s
  | .register n => s.register n
  | .release n => s.release n
  | .overflow n => s.overflow n
  | .closeSubscription id => (s.closeSubscription id).toOption.getD s
  | .close => s.close
  | .visitNext => s.visitNext
  | .runCleanup n => s.runCleanup n
  | .completeClose n => s.completeClose n
  | .finishCleanup n => s.finishCleanup n
  | .closeConnection => s.closeConnection
  | .finishConnection => s.finishConnection

def run (s : SocketConnection ι) (steps : List (Step ι)) : SocketConnection ι := steps.foldl step s

/-! ## What holds between steps -/

structure Consistent (s : SocketConnection ι) : Prop where
  owner : ∀ id n, s.subscriptions.lookup id = some n →
    ∃ l, s.lifetimes[n]? = some l ∧ l.id = id ∧ l.cleanup ≠ .settled
  owned : ∀ (n : Nat) (l : Lifetime ι), s.lifetimes[n]? = some l → l.cleanup ≠ .settled →
    s.subscriptions.lookup l.id = some n
  coherent : ∀ (n : Nat) (l : Lifetime ι), s.lifetimes[n]? = some l → Lifetime.Coherent l
  called : ∀ (n : Nat) (l : Lifetime ι), s.lifetimes[n]? = some l → s.calls.count n = Lifetime.due l
  uncalled : ∀ n : Nat, s.lifetimes[n]? = none → s.calls.count n = 0
  closed : s.closePromise ≠ .none → s.isClosed = true
  waits : ∀ ns, s.closePromise = .waiting ns → ∀ (n : Nat) (l : Lifetime ι), s.lifetimes[n]? = some l →
    l.cleanup ≠ .settled → n ∈ ns
  drained : s.closePromise = .settled → ∀ (n : Nat) (l : Lifetime ι), s.lifetimes[n]? = some l → l.cleanup = .settled

section Steps
variable {s : SocketConnection ι} {n : Nat} {l l' : Lifetime ι}

omit [DecidableEq ι] [ToString ι] in
theorem getElem?_setLifetime (hl : s.lifetimes[n]? = some l) (l' : Lifetime ι) (m : Nat) :
    (s.lifetimes.set n l')[m]? = if m = n then some l' else s.lifetimes[m]? := by
  obtain ⟨hlt, -⟩ := List.getElem?_eq_some_iff.mp hl
  rw [List.getElem?_set]
  by_cases hm : m = n
  · subst hm
    simp [hlt]
  · rw [if_neg (Ne.symm hm), if_neg hm]

section
omit [ToString ι]

theorem Consistent.change (h : s.Consistent) (hl : s.lifetimes[n]? = some l) {calls : List Nat}
    (hid : l'.id = l.id) (hsettled : l'.cleanup = .settled ↔ l.cleanup = .settled)
    (hcoherent : Lifetime.Coherent l') (hcount : calls.count n = Lifetime.due l')
    (hothers : ∀ m, m ≠ n → calls.count m = s.calls.count m) :
    Consistent { s.setLifetime n l' with calls := calls } := by
  have hget := getElem?_setLifetime hl l'
  have hcases : ∀ m k, (s.lifetimes.set n l')[m]? = some k →
      (m = n ∧ k = l') ∨ m ≠ n ∧ s.lifetimes[m]? = some k := by
    intro m k hk
    rw [hget] at hk
    split at hk
    · next hm => exact Or.inl ⟨hm, (Option.some.inj hk).symm⟩
    · next hm => exact Or.inr ⟨hm, hk⟩
  constructor
  · intro id m hm
    obtain ⟨k, hk, hkid, hkopen⟩ := h.owner id m hm
    by_cases hmn : m = n
    · subst hmn
      obtain rfl : l = k := Option.some.inj (hl.symm.trans hk)
      exact ⟨l', by rw [setLifetime, hget, if_pos rfl], hid.trans hkid, fun hs => hkopen (hsettled.mp hs)⟩
    · exact ⟨k, by rw [setLifetime, hget, if_neg hmn, hk], hkid, hkopen⟩
  · intro m k hk hopen
    obtain ⟨rfl, rfl⟩ | ⟨-, hk⟩ := hcases m k hk
    · exact hid ▸ h.owned m l hl fun hs => hopen (hsettled.mpr hs)
    · exact h.owned m k hk hopen
  · intro m k hk
    obtain ⟨rfl, rfl⟩ | ⟨-, hk⟩ := hcases m k hk
    · exact hcoherent
    · exact h.coherent m k hk
  · intro m k hk
    obtain ⟨rfl, rfl⟩ | ⟨hmn, hk⟩ := hcases m k hk
    · exact hcount
    · exact (hothers m hmn).trans (h.called m k hk)
  · intro m hm
    have hmn : m ≠ n := by
      rintro rfl
      rw [setLifetime, hget, if_pos rfl] at hm
      cases hm
    rw [setLifetime, hget, if_neg hmn] at hm
    exact (hothers m hmn).trans (h.uncalled m hm)
  · exact h.closed
  · intro ns hns m k hk hopen
    obtain ⟨rfl, rfl⟩ | ⟨-, hk⟩ := hcases m k hk
    · exact h.waits ns hns m l hl fun hs => hopen (hsettled.mpr hs)
    · exact h.waits ns hns m k hk hopen
  · intro hdrained m k hk
    obtain ⟨rfl, rfl⟩ | ⟨-, hk⟩ := hcases m k hk
    · exact hsettled.mpr (h.drained hdrained m l hl)
    · exact h.drained hdrained m k hk

theorem Consistent.changeSilently (h : s.Consistent) (hl : s.lifetimes[n]? = some l)
    (hid : l'.id = l.id) (hsettled : l'.cleanup = .settled ↔ l.cleanup = .settled)
    (hcoherent : Lifetime.Coherent l') (hdue : Lifetime.due l' = Lifetime.due l) :
    Consistent (s.setLifetime n l') :=
  h.change hl hid hsettled hcoherent ((h.called n l hl).trans hdue.symm) fun _ _ => rfl

theorem Consistent.changeCalling (h : s.Consistent) (hl : s.lifetimes[n]? = some l)
    (hid : l'.id = l.id) (hsettled : l'.cleanup = .settled ↔ l.cleanup = .settled)
    (hcoherent : Lifetime.Coherent l') (hdue : Lifetime.due l' = Lifetime.due l + 1) :
    Consistent ((s.setLifetime n l').call n) := by
  refine h.change hl hid hsettled hcoherent ?_ ?_
  · change (s.calls ++ [n]).count n = _
    rw [List.count_append, h.called n l hl, List.count_singleton_self, hdue]
  · intro m hm
    change (s.calls ++ [n]).count m = _
    rw [List.count_append, List.count_singleton, if_neg (by simpa using Ne.symm hm), Nat.add_zero]

theorem Consistent.closeOwned (h : s.Consistent) (n : Nat) :
    (s.closeOwnedSubscription n).Consistent := by
  unfold closeOwnedSubscription
  split
  · exact h
  · next l hl =>
    split
    · exact h
    · next hopen =>
      rw [not_not] at hopen
      have hcoherent := h.coherent n l hl
      refine h.changeSilently hl rfl (by simp [hopen]) ⟨hcoherent.registered, ?_⟩ ?_
      · intro _ _
        exact nofun
      · simp [Lifetime.due, hopen]

theorem Consistent.register (h : s.Consistent) (n : Nat) : (s.register n).Consistent := by
  unfold SocketConnection.register
  split
  · exact h
  · next l hl =>
    have hcoherent := h.coherent n l hl
    split
    · exact h
    · next hregistered =>
      have hclose : l.close = false := by
        cases hc : l.close with
        | false => rfl
        | true => exact absurd (hcoherent.registered hc) hregistered
      split
      · next hended =>
        refine h.changeCalling hl rfl Iff.rfl ⟨fun _ => rfl, fun _ _ => hended⟩ ?_
        simp [Lifetime.due, hregistered, hclose]
      · next hopen =>
        rw [not_not] at hopen
        refine h.changeSilently hl rfl Iff.rfl ⟨fun _ => rfl, fun _ hc => nomatch hc⟩ ?_
        simp [Lifetime.due, hregistered, hopen]

theorem Consistent.runCleanup (h : s.Consistent) (n : Nat) : (s.runCleanup n).Consistent := by
  unfold SocketConnection.runCleanup
  split
  · exact h
  · next l hl =>
    have hcoherent := h.coherent n l hl
    split
    · next hscheduled =>
      split
      · next hclose =>
        refine h.changeCalling hl rfl (by simp [hscheduled]) ⟨hcoherent.registered, ?_⟩ ?_
        · intro _ _
          exact nofun
        · simp [Lifetime.due, hclose, hcoherent.registered hclose, hscheduled]
      · next hclose =>
        refine h.changeSilently hl rfl (by simp [hscheduled]) ⟨hcoherent.registered, ?_⟩ ?_
        · intro _ _
          exact nofun
        · simp [Lifetime.due, hclose]
    · exact h

theorem Consistent.completeClose (h : s.Consistent) (n : Nat) : (s.completeClose n).Consistent := by
  unfold SocketConnection.completeClose
  split
  · exact h
  · next l hl =>
    split
    · next hclosing =>
      refine h.changeSilently hl rfl (by simp [hclosing])
        ⟨(h.coherent n l hl).registered, ?_⟩ ?_
      · intro _ _
        exact nofun
      · simp [Lifetime.due, hclosing]
    · exact h

theorem Consistent.finishCleanup (h : s.Consistent) (n : Nat) : (s.finishCleanup n).Consistent := by
  unfold SocketConnection.finishCleanup
  split
  · exact h
  · next l hl =>
    split
    · next hfinishing =>
      have hopen : l.cleanup ≠ .settled := by simp [hfinishing]
      have howned := h.owned n l hl hopen
      rw [if_pos howned]
      have hget := getElem?_setLifetime hl { l with cleanup := .settled }
      have hcases : ∀ (m : Nat) (k : Lifetime ι),
          (s.lifetimes.set n { l with cleanup := .settled })[m]? = some k → k.cleanup ≠ .settled →
          m ≠ n ∧ s.lifetimes[m]? = some k := by
        intro m k hk hk'
        rw [hget] at hk
        split at hk
        · cases hk
          exact absurd rfl hk'
        · next hm => exact ⟨hm, hk⟩
      have hcalled : ∀ (m : Nat) (k : Lifetime ι),
          (s.lifetimes.set n { l with cleanup := .settled })[m]? = some k →
          k.Coherent ∧ s.calls.count m = k.due := by
        intro m k hk
        rw [hget] at hk
        split at hk
        · next hm =>
          subst hm
          cases hk
          have hcoherent := h.coherent m l hl
          refine ⟨⟨hcoherent.registered, fun _ _ => nofun⟩, ?_⟩
          rw [h.called m l hl]
          simp [Lifetime.due, hfinishing]
        · exact ⟨h.coherent m k hk, h.called m k hk⟩
      constructor
      · intro id m hm
        dsimp only at hm
        rw [KeyedMap.lookup_erase_eq] at hm
        split at hm
        · cases hm
        · next hid =>
          obtain ⟨k, hk, hkid, hkopen⟩ := h.owner id m hm
          have hmn : m ≠ n := by
            rintro rfl
            cases hl.symm.trans hk
            exact hid hkid.symm
          exact ⟨k, by rw [setLifetime, hget, if_neg hmn, hk], hkid, hkopen⟩
      · intro m k hk hkopen
        obtain ⟨hmn, hk⟩ := hcases m k hk hkopen
        have hkowned := h.owned m k hk hkopen
        dsimp only
        rw [KeyedMap.lookup_erase_eq, if_neg, hkowned]
        intro hid
        rw [hid, howned] at hkowned
        exact hmn (Option.some.inj hkowned).symm
      · exact fun m k hk => (hcalled m k hk).1
      · exact fun m k hk => (hcalled m k hk).2
      · intro m hm
        dsimp only [setLifetime] at hm
        rw [hget] at hm
        split at hm
        · cases hm
        · exact h.uncalled m hm
      · exact h.closed
      · intro ns hns m k hk hkopen
        exact h.waits ns hns m k (hcases m k hk hkopen).2 hkopen
      · intro hdrained m k hk
        dsimp only [setLifetime] at hk
        rw [hget] at hk
        split at hk
        · cases hk
          rfl
        · exact h.drained hdrained m k hk
    · exact h

end

theorem beginSubscription_eq_ok {id : ι} {s' : SocketConnection ι}
    (h : s.beginSubscription id = .ok s') :
    s.isClosed = false ∧ s.subscriptions.lookup id = none ∧
      s' = { s with
        lifetimes := s.lifetimes ++ [{ id }]
        subscriptions := s.subscriptions.insert id s.lifetimes.length } := by
  unfold beginSubscription at h
  split at h
  · cases h
  · next hopen =>
    split at h
    · cases h
    · next hfree =>
      cases h
      exact ⟨by simpa using hopen, by simpa using hfree, rfl⟩

theorem Consistent.begin (h : s.Consistent) {id : ι} {s' : SocketConnection ι}
    (hbegin : s.beginSubscription id = .ok s') : s'.Consistent := by
  obtain ⟨hopen, hfree, rfl⟩ := beginSubscription_eq_ok hbegin
  have hnone : s.closePromise = .none := by
    by_contra hclose
    rw [h.closed hclose] at hopen
    cases hopen
  have hcases : ∀ (m : Nat) (k : Lifetime ι), (s.lifetimes ++ [{ id := id }])[m]? = some k →
      s.lifetimes[m]? = some k ∨ m = s.lifetimes.length ∧ k = { id := id } := by
    intro m k hk
    rw [List.getElem?_append] at hk
    split at hk
    · exact Or.inl hk
    · next hm =>
      obtain ⟨hzero, hk⟩ : m - s.lifetimes.length = 0 ∧ ({ id := id } : Lifetime ι) = k := by
        simpa [List.getElem?_singleton] using hk
      exact Or.inr ⟨by omega, hk.symm⟩
  have hlast : s.lifetimes[s.lifetimes.length]? = none := List.getElem?_eq_none (Nat.le_refl _)
  constructor
  · intro id' m hm
    dsimp only at hm
    rw [KeyedMap.lookup_insert_eq] at hm
    split at hm
    · next hid =>
      cases hm
      exact ⟨{ id := id }, by simp, hid.symm, nofun⟩
    · obtain ⟨k, hk, hkid, hkopen⟩ := h.owner id' m hm
      obtain ⟨hlt, -⟩ := List.getElem?_eq_some_iff.mp hk
      exact ⟨k, by rw [List.getElem?_append_left hlt, hk], hkid, hkopen⟩
  · intro m k hk hkopen
    dsimp only
    rw [KeyedMap.lookup_insert_eq]
    obtain hk | ⟨rfl, rfl⟩ := hcases m k hk
    · have howned := h.owned m k hk hkopen
      rw [if_neg, howned]
      intro hid
      rw [hid, hfree] at howned
      cases howned
    · rw [if_pos rfl]
  · intro m k hk
    obtain hk | ⟨rfl, rfl⟩ := hcases m k hk
    · exact h.coherent m k hk
    · exact ⟨nofun, nofun⟩
  · intro m k hk
    obtain hk | ⟨rfl, rfl⟩ := hcases m k hk
    · exact h.called m k hk
    · exact h.uncalled _ hlast
  · intro m hm
    apply h.uncalled m
    dsimp only at hm
    rw [List.getElem?_eq_none_iff, List.length_append] at hm
    exact List.getElem?_eq_none (by omega)
  · exact h.closed
  · intro ns hns
    rw [show s.closePromise = .waiting ns from hns] at hnone
    cases hnone
  · intro hsettled
    rw [show s.closePromise = .settled from hsettled] at hnone
    cases hnone

section
omit [ToString ι]

theorem Consistent.close (h : s.Consistent) : s.close.Consistent := by
  unfold SocketConnection.close
  split
  · exact ⟨h.owner, h.owned, h.coherent, h.called, h.uncalled, fun _ => rfl, nofun, nofun⟩
  · exact h

theorem Consistent.visitNext (h : s.Consistent) : s.visitNext.Consistent := by
  unfold SocketConnection.visitNext
  split
  · exact h
  · next n rest _ =>
    have hclosed := h.closeOwned n
    exact ⟨hclosed.owner, hclosed.owned, hclosed.coherent, hclosed.called, hclosed.uncalled,
      hclosed.closed, hclosed.waits, hclosed.drained⟩

theorem Consistent.closeAll (h : s.Consistent) (ns : List Nat) :
    (ns.foldl closeOwnedSubscription s).Consistent := by
  induction ns generalizing s with
  | nil => exact h
  | cons n ns ih => exact ih (h.closeOwned n)

end

omit [DecidableEq ι] [ToString ι] in
theorem closeOwnedSubscription_kept (s : SocketConnection ι) (n : Nat) :
    (s.closeOwnedSubscription n).subscriptions = s.subscriptions ∧
      (s.closeOwnedSubscription n).isClosed = s.isClosed := by
  unfold closeOwnedSubscription
  split
  · exact ⟨rfl, rfl⟩
  · split
    · exact ⟨rfl, rfl⟩
    · exact ⟨rfl, rfl⟩

omit [DecidableEq ι] [ToString ι] in
theorem closeAll_kept (s : SocketConnection ι) (ns : List Nat) :
    (ns.foldl closeOwnedSubscription s).subscriptions = s.subscriptions ∧
      (ns.foldl closeOwnedSubscription s).isClosed = s.isClosed := by
  induction ns generalizing s with
  | nil => exact ⟨rfl, rfl⟩
  | cons n ns ih =>
    obtain ⟨hsubscriptions, hclosed⟩ := closeOwnedSubscription_kept s n
    rw [List.foldl_cons, (ih _).1, (ih _).2, hsubscriptions, hclosed]
    exact ⟨rfl, rfl⟩

omit [ToString ι] in
/-- The connection waits for every lifetime that is not settled. -/
theorem Consistent.closeConnection (h : s.Consistent) : s.closeConnection.Consistent := by
  unfold SocketConnection.closeConnection
  split
  · next hscheduled =>
    have hall := h.closeAll (KeyedMap.values s.subscriptions)
    obtain ⟨hsubscriptions, hclosed⟩ := closeAll_kept s (KeyedMap.values s.subscriptions)
    refine ⟨hall.owner, hall.owned, hall.coherent, hall.called, hall.uncalled, ?_, ?_, nofun⟩
    · intro _
      exact hclosed.trans (h.closed (by rw [hscheduled]; exact nofun))
    · intro ns hns m k hk hkopen
      cases hns
      have howned := hall.owned m k hk hkopen
      rw [hsubscriptions] at howned
      exact KeyedMap.mem_values.mpr ⟨k.id, howned⟩
  · exact h

omit [ToString ι] in
theorem Consistent.finishConnection (h : s.Consistent) : s.finishConnection.Consistent := by
  unfold SocketConnection.finishConnection
  split
  · next ns hwaiting =>
    split
    · next hsettled =>
      refine ⟨h.owner, h.owned, h.coherent, h.called, h.uncalled, ?_, nofun, ?_⟩
      · intro _
        exact h.closed (by rw [hwaiting]; exact nofun)
      · intro _ m k hk
        by_contra hkopen
        have hmem := List.all_eq_true.mp hsettled m (h.waits ns hwaiting m k hk hkopen)
        have hk' : s.lifetimes[m]? = some k := hk
        rw [isSettled, hk'] at hmem
        exact hkopen (by simpa using hmem)
    · exact h
  · exact h

theorem Consistent.step (h : s.Consistent) (e : Step ι) : (s.step e).Consistent := by
  cases e with
  | beginSubscription id =>
    cases hbegin : s.beginSubscription id with
    | ok s' =>
      rw [SocketConnection.step, hbegin]
      exact h.begin hbegin
    | error e =>
      rw [SocketConnection.step, hbegin]
      exact h
  | register n => exact h.register n
  | release n => exact h.closeOwned n
  | overflow n => exact h.closeOwned n
  | closeSubscription id =>
    cases hlookup : s.subscriptions.lookup id with
    | none =>
      rw [SocketConnection.step, SocketConnection.closeSubscription, hlookup]
      exact h
    | some n =>
      rw [SocketConnection.step, SocketConnection.closeSubscription, hlookup]
      exact h.closeOwned n
  | close => exact h.close
  | visitNext => exact h.visitNext
  | runCleanup n => exact h.runCleanup n
  | completeClose n => exact h.completeClose n
  | finishCleanup n => exact h.finishCleanup n
  | closeConnection => exact h.closeConnection
  | finishConnection => exact h.finishConnection

end Steps

theorem consistent_run (steps : List (Step ι)) : (run ({} : SocketConnection ι) steps).Consistent := by
  have hinitial : Consistent ({} : SocketConnection ι) :=
    ⟨nofun, nofun, nofun, nofun, fun _ _ => rfl, fun h => absurd rfl h, nofun, nofun⟩
  induction steps using List.reverseRecOn with
  | nil => exact hinitial
  | append_singleton steps e ih =>
    unfold run at ih ⊢
    rw [List.foldl_append]
    exact ih.step e

/-! ## The close of the connection is final -/

section Final
variable {s : SocketConnection ι}

/-- The promise of the close is settled, and there are so many lifetimes. -/
def Over (lifetimes : Nat) (s : SocketConnection ι) : Prop :=
  s.closePromise = .settled ∧ s.lifetimes.length = lifetimes

omit [DecidableEq ι] [ToString ι] in
theorem Over.setLifetime {k : Nat} (h : Over k s) (n : Nat) (l : Lifetime ι) :
    Over k (s.setLifetime n l) :=
  ⟨h.1, (List.length_set ..).trans h.2⟩

omit [DecidableEq ι] [ToString ι] in
theorem Over.closeOwned {k : Nat} (h : Over k s) (n : Nat) : Over k (s.closeOwnedSubscription n) := by
  unfold closeOwnedSubscription
  split
  · exact h
  · split
    · exact h
    · exact h.setLifetime n _

theorem Over.step {k : Nat} (h : Over k s) (hclosed : s.isClosed = true) (e : Step ι) :
    Over k (s.step e) := by
  cases e with
  | beginSubscription id =>
    rw [SocketConnection.step, beginSubscription, if_pos hclosed]
    exact h
  | register n =>
    rw [SocketConnection.step, register]
    split
    · exact h
    · split
      · exact h
      · split
        · exact h.setLifetime n _
        · exact h.setLifetime n _
  | release n => exact h.closeOwned n
  | overflow n => exact h.closeOwned n
  | closeSubscription id =>
    rw [SocketConnection.step, closeSubscription]
    split
    · exact h
    · next n _ => exact h.closeOwned n
  | close =>
    rw [SocketConnection.step, close, h.1]
    exact h
  | visitNext =>
    rw [SocketConnection.step, visitNext]
    split
    · exact h
    · next n _ _ => exact h.closeOwned n
  | runCleanup n =>
    rw [SocketConnection.step, runCleanup]
    split
    · exact h
    · split
      · split
        · exact h.setLifetime n _
        · exact h.setLifetime n _
      · exact h
  | completeClose n =>
    rw [SocketConnection.step, completeClose]
    split
    · exact h
    · split
      · exact h.setLifetime n _
      · exact h
  | finishCleanup n =>
    rw [SocketConnection.step, finishCleanup]
    split
    · exact h
    · split
      · exact h.setLifetime n _
      · exact h
  | closeConnection =>
    rw [SocketConnection.step, closeConnection, h.1]
    exact h
  | finishConnection =>
    rw [SocketConnection.step, finishConnection, h.1]
    exact h

theorem Over.run {k : Nat} (h : Over k s) (hs : s.Consistent) (steps : List (Step ι)) :
    Over k (run s steps) := by
  induction steps generalizing s with
  | nil => exact h
  | cons e steps ih =>
    have hclosed : s.isClosed = true := hs.closed (by rw [h.1]; exact nofun)
    exact ih (h.step hclosed e) (hs.step e)

end Final

/-! ## Ownership -/

structure Sound (s : SocketConnection ι) : Prop where
  /-- No close function is called twice. -/
  once : ∀ (n : Nat) (l : Lifetime ι), s.lifetimes[n]? = some l → s.calls.count n ≤ 1
  /-- None is called before it is registered, or while its subscription lasts. -/
  never : ∀ (n : Nat) (l : Lifetime ι), s.lifetimes[n]? = some l →
    l.registered = false ∨ l.cleanup = .none → s.calls.count n = 0
  /-- It has been called as soon as the microtask of the cleanup has run, which calls it. -/
  ended : ∀ (n : Nat) (l : Lifetime ι), s.lifetimes[n]? = some l → l.registered = true →
    l.cleanup ≠ .none → (s.runCleanup n).calls.count n = 1 ∧
      (l.cleanup ≠ .scheduled → s.calls.count n = 1)
  /-- Two lifetimes of an id are never unsettled together. -/
  exclusive : ∀ (m n : Nat) (k l : Lifetime ι), s.lifetimes[m]? = some k →
    s.lifetimes[n]? = some l → k.id = l.id → k.cleanup ≠ .settled → l.cleanup ≠ .settled → m = n
  reused : ∀ (id : ι) (s' : SocketConnection ι), s.beginSubscription id = .ok s' →
    ∀ (n : Nat) (l : Lifetime ι), s.lifetimes[n]? = some l → l.id = id → l.cleanup = .settled
  /-- A settled close has left no subscription, and lets none begin. -/
  closed : s.closePromise = .settled →
    (∀ (n : Nat) (l : Lifetime ι), s.lifetimes[n]? = some l → l.cleanup = .settled) ∧
    (∀ id, s.subscriptions.lookup id = none) ∧
    ∀ id, s.beginSubscription id =
      .error ⟨"ConnectionClosed", "cannot open a subscription on a closed connection"⟩

omit [ToString ι] in
theorem Consistent.ended {s : SocketConnection ι} (h : s.Consistent) {n : Nat} {l : Lifetime ι}
    (hl : s.lifetimes[n]? = some l) (hregistered : l.registered = true)
    (hended : l.cleanup ≠ .none) :
    (s.runCleanup n).calls.count n = 1 ∧ (l.cleanup ≠ .scheduled → s.calls.count n = 1) := by
  constructor
  · have hrun := h.runCleanup n
    have hget : ∃ l', (s.runCleanup n).lifetimes[n]? = some l' ∧ l'.due = 1 := by
      unfold SocketConnection.runCleanup
      rw [hl]
      dsimp only
      split
      · split
        · refine ⟨_, by rw [call, setLifetime, getElem?_setLifetime hl, if_pos rfl], ?_⟩
          simp [Lifetime.due, hregistered]
        · refine ⟨_, by rw [setLifetime, getElem?_setLifetime hl, if_pos rfl], ?_⟩
          simp [Lifetime.due, hregistered]
      · next hscheduled => exact ⟨l, hl, by simp [Lifetime.due, hregistered, hended, hscheduled]⟩
    obtain ⟨l', hl', hdue⟩ := hget
    exact (hrun.called n l' hl').trans hdue
  · intro hscheduled
    rw [h.called n l hl]
    simp [Lifetime.due, hregistered, hended, hscheduled]

theorem Consistent.sound {s : SocketConnection ι} (h : s.Consistent) : s.Sound := by
  constructor
  · intro n l hl
    rw [h.called n l hl]
    unfold Lifetime.due
    split
    · exact Nat.le_refl 1
    · exact Nat.zero_le 1
  · rintro n l hl (hunregistered | hlasts)
    · rw [h.called n l hl]
      simp [Lifetime.due, hunregistered]
    · have hcoherent := h.coherent n l hl
      rw [h.called n l hl]
      cases hclose : l.close with
      | true => simp [Lifetime.due, hclose, hlasts]
      | false =>
        cases hregistered : l.registered with
        | false => simp [Lifetime.due, hregistered]
        | true => exact absurd hlasts (hcoherent.late hregistered hclose)
  · intro n l hl hregistered hended
    exact h.ended hl hregistered hended
  · intro m n k l hk hl hid hkopen hlopen
    have hm := h.owned m k hk hkopen
    rw [hid, h.owned n l hl hlopen, Option.some.injEq] at hm
    exact hm.symm
  · intro id s' hbegin n l hl hid
    obtain ⟨-, hfree, -⟩ := beginSubscription_eq_ok hbegin
    by_contra hopen
    have howned := h.owned n l hl hopen
    rw [hid, hfree] at howned
    cases howned
  · intro hsettled
    have hclosed : s.isClosed = true := h.closed (by rw [hsettled]; exact nofun)
    refine ⟨h.drained hsettled, ?_, ?_⟩
    · intro id
      cases hlookup : s.subscriptions.lookup id with
      | none => rfl
      | some n =>
        obtain ⟨l, hl, -, hopen⟩ := h.owner id n hlookup
        exact absurd (h.drained hsettled n l hl) hopen
    · intro id
      rw [beginSubscription, if_pos hclosed]

/-- A request whose subscription opens after the consumer has unsubscribed: the close function is
called on arrival, while the id is in use again. -/
example : (run ({} : SocketConnection Nat) [.beginSubscription 7, .closeSubscription 7,
    .runCleanup 0, .finishCleanup 0, .beginSubscription 7, .register 0, .register 1, .close,
    .visitNext, .runCleanup 1]).calls = [0, 1] := by decide

end SocketConnection

end EnboxDwn.Server
