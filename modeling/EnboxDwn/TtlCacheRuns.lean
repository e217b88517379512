import EnboxDwn.TtlCacheLedger
import Mathlib.Data.List.Induction

/-! The operations of the cache leave notes, each operation its own, and the ledger of a run tells
what the cache answers, what it has told the callback, and how much it holds. -/
namespace EnboxDwn
namespace TtlCache
variable {K V : Type} [DecidableEq K]

/-- The expiry of an entry that is stored or renewed at the time. -/
def expiry (ttl : Bound) (time : ℚ) : WithTop ℚ := ttl.1.map fun ttl : ℕ => (time + ttl : ℚ)

def Note.Renews (key : K) (ttl : Bound) (n : ℚ × Note K V) : Prop :=
  ∃ old entry, n.2 = .renewed key old entry ∧ entry.expiresAt = expiry ttl n.1

section Steps
variable {clock : ℕ → ℚ} {config : Options} {s : State K V} {key : K}

omit [DecidableEq K] in
theorem stamp_state (clock : ℕ → ℚ) (kept : Option (Entry V)) (ttl : Bound) (s : State K V) :
    ∃ n q, s.reads ≤ n ∧ (stamp clock kept ttl s).2 = { s with reads := n, sequence := q } := by
  unfold stamp
  cases kept with
  | some current => exact ⟨s.reads, s.sequence, le_rfl, rfl⟩
  | none =>
    dsimp only
    unfold expirationFromTtl
    split
    · exact ⟨s.reads, s.sequence + 1, le_rfl, rfl⟩
    · exact ⟨s.reads + 1, s.sequence + 1, Nat.le_succ _, rfl⟩

omit [DecidableEq K] in
theorem stamp_expiresAt (clock : ℕ → ℚ) (kept : Option (Entry V)) (ttl : Bound) (s : State K V) :
    (stamp clock kept ttl s).1.1 =
      kept.elim (expiry ttl (clock s.reads)) fun current => current.expiresAt := by
  unfold stamp
  cases kept with
  | some current => rfl
  | none =>
    dsimp only [Option.elim]
    unfold expirationFromTtl expiry
    split
    next htop => rw [htop]; rfl
    next htime => rw [htime]; rfl

theorem Timed.numbered (hclock : Monotone clock) (h : Timed clock s) {n : ℕ} (hn : s.reads ≤ n)
    (q : ℕ) : Timed clock { s with reads := n, sequence := q } :=
  ⟨⟨h.armed.idle, (h.armed.later hclock hn).due⟩, h.covers⟩

theorem Timed.store (hclock : Monotone clock) (h : Timed clock s) (key : K) (entry : Entry V) :
    Timed clock (store clock key entry s) where
  armed := by
    have hput : Armed clock { s with data := KeyedMap.put s.data key entry } := ⟨h.armed.idle, h.armed.due⟩
    exact hput.schedule hclock _
  covers := by
    intro k held hheld
    rw [TtlCache.store, scheduleTimer_data, KeyedMap.lookup_put] at hheld
    rw [TtlCache.store, scheduleTimer_timerExpiresAt]
    split_ifs at hheld with hk
    · cases hheld
      exact min_le_right _ _
    · exact (min_le_left _ _).trans (h.covers k held hheld)

theorem store_data (entry : Entry V) (s : State K V) :
    (store clock key entry s).data = KeyedMap.put s.data key entry := scheduleTimer_data _

theorem store_disposed (entry : Entry V) (s : State K V) :
    (store clock key entry s).disposed = s.disposed := scheduleTimer_disposed _

theorem store_reads (entry : Entry V) (s : State K V) :
    s.reads ≤ (store clock key entry s).reads :=
  scheduleTimer_reads (s := { s with data := KeyedMap.put s.data key entry }) entry.expiresAt

theorem Took.put [BEq V] (hclock : Monotone clock) {s s' : State K V} {entry : Entry V}
    {n : Note K V} (hdata : s'.data = KeyedMap.put s.data key entry) (hreads : s.reads ≤ s'.reads)
    (hdisposed : s'.disposed = s.disposed ++ n.dispose?.toList)
    (hlegal : n.Legal (s.data.lookup ·) (clock s.reads))
    (hnote : n.apply (s.data.lookup ·) = Function.update (s.data.lookup ·) key (some entry)) :
    Took (clock s.reads) s [(clock s.reads, n)] (clock s'.reads) s' where
  replays := by
    have hheld : (s'.data.lookup ·) = n.apply (s.data.lookup ·) := by
      funext k
      rw [hdata, KeyedMap.lookup_put, hnote, Function.update_apply]
    rw [hheld]
    exact .single le_rfl hlegal (hclock hreads)
  disposed := by
    rw [hdisposed, List.filterMap_cons]
    cases n.dispose? with
    | none => rfl
    | some call => rfl

theorem renew_passed [BEq V] (hclock : Monotone clock) {entry : Entry V}
    (hheld : s.data.lookup key = some entry) (ttl : Bound) :
    ∃ n, Passed clock s [n] (renew clock key entry ttl s) ∧ Note.Renews key ttl n := by
  obtain ⟨n, q, hn, hstate⟩ := stamp_state clock none ttl s
  let renewed : Entry V := { entry with
    expiresAt := (stamp clock none ttl s).1.1, sequence := (stamp clock none ttl s).1.2 }
  have hrenew : renew clock key entry ttl s =
      store clock key renewed { s with reads := n, sequence := q } := by rw [renew, ← hstate]
  refine ⟨(clock s.reads, .renewed key entry renewed), ⟨?_, ?_⟩,
    ⟨entry, _, rfl, stamp_expiresAt clock none ttl s⟩⟩
  · rw [hrenew]
    have hlegal : (Note.renewed key entry renewed).Legal (s.data.lookup ·) (clock s.reads) :=
      ⟨hheld, rfl⟩
    apply Took.put hclock
    · exact store_data renewed { s with reads := n, sequence := q }
    · exact hn.trans (store_reads renewed { s with reads := n, sequence := q })
    · rw [store_disposed]
      exact (List.append_nil _).symm
    · exact hlegal
    · rfl
  · intro h
    rw [hrenew]
    exact (h.numbered hclock hn q).store hclock key _

/-- A look at a key drops its entry if that has expired, and nothing else. -/
theorem dropExpired_passed [BEq V] (hclock : Monotone clock) (key : K) (s : State K V) :
    ∃ notes, Passed clock s notes (dropExpired clock key s).2 ∧ ∀ n ∈ notes, n.2.Expires key := by
  unfold dropExpired
  split
  · exact ⟨[], .refl clock s, by simp⟩
  next entry hentry =>
    dsimp only
    split
    next hexpired =>
      have hleaves : Leaves (s.data.lookup ·) (clock s.reads) entry .stale :=
        isExpired_iff.mp hexpired
      have hleft := Took.delete (s := { s with reads := s.reads + 1 }) hentry hleaves
      have hread : Took (clock s.reads) s [(clock s.reads, .left key entry .stale)] (clock s.reads)
          (deleteEntry key .stale { s with reads := s.reads + 1 }).2 :=
        ⟨hleft.replays, hleft.disposed⟩
      refine ⟨_, ⟨hread.later ?_, fun h => (h.read hclock).delete⟩, ?_⟩
      · rw [deleteEntry_reads]
        exact hclock (Nat.le_succ _)
      · intro n hn
        rw [List.mem_singleton.mp hn]
        exact ⟨entry, rfl⟩
    · exact ⟨[], .read hclock s, by simp⟩

/-- What is left after the look. -/
theorem dropExpired_lookup : (dropExpired clock key s).2.data.lookup key =
    if (dropExpired clock key s).1 then none else s.data.lookup key := by
  unfold dropExpired
  split
  next hnone => simp [hnone]
  next entry hentry =>
    dsimp only
    split
    · simp
    · rfl

end Steps

/-! ## What the operations do -/

variable [BEq V] {clock : ℕ → ℚ} (config : Options)

/-- The notes that an operation may leave. -/
def Accounts : Op K V → List (ℚ × Note K V) → Prop
  | .set key value options, notes =>
    match config.checkedTtl options.ttl with
    | .error _ => notes = []
    | .ok ttl => ∃ before time old entry after,
      notes = before ++ (time, .stored key old entry
        (shouldDispose old value (options.noDisposeOnSet.getD config.noDisposeOnSet))) :: after ∧
      entry.value = value ∧
      entry.expiresAt = (if options.noUpdateTTL.getD config.noUpdateTTL then old else none).elim
        (expiry ttl time) (fun current => current.expiresAt) ∧
      (∀ n ∈ before, n.2.Expires key) ∧ ∀ n ∈ after, n.2.MakesRoom
  | .get key options, notes => ∀ n ∈ notes, n.2.Expires key ∨
      ∃ ttl, config.checkedTtl options.ttl = .ok ttl ∧ Note.Renews key ttl n
  | .setTTL key ttl, notes => ∀ n ∈ notes, n.2.Expires key ∨
      ∃ bound, config.checkedTtl ttl = .ok bound ∧ Note.Renews key bound n
  | .has key, notes => ∀ n ∈ notes, n.2.Expires key
  | .delete key, notes => ∀ n ∈ notes, ∃ entry, n.2 = .left key entry .delete
  | .purgeStale, notes | .timer, notes => ∀ n ∈ notes, ∃ key, n.2.Expires key

omit [DecidableEq K] in
theorem disposeReplaced_eq (current : Option (Entry V)) (key : K) (entry : Entry V)
    (noDisposeOnSet : Bool) (s : State K V) :
    disposeReplaced current key entry.value noDisposeOnSet s = { s with
      disposed := s.disposed ++ ((Note.stored key current entry
        (shouldDispose current entry.value noDisposeOnSet)).dispose?).toList } := by
  unfold disposeReplaced
  cases current with
  | none => simp [Note.dispose?]
  | some old =>
    dsimp only
    split
    next hdispose => simp [hdispose, Note.dispose?, dispose]
    next hquiet => simp [Bool.not_eq_true _ ▸ hquiet, Note.dispose?]

/-- An entry is stored in the place of the one before it, which is reported if it should be. -/
theorem stored_passed (hclock : Monotone clock) (key : K) (value : V) (ttl : Bound)
    (noUpdateTTL noDisposeOnSet : Bool) {current : Option (Entry V)} {s : State K V}
    (hcurrent : s.data.lookup key = current) {stamped : (WithTop ℚ × ℕ) × State K V}
    (hstamped : stamp clock (if noUpdateTTL then current else none) ttl s = stamped) :
    ∃ entry : Entry V, entry.value = value ∧
      entry.expiresAt = (if noUpdateTTL then current else none).elim (expiry ttl (clock s.reads))
        (fun current => current.expiresAt) ∧
      Passed clock s
        [(clock s.reads, .stored key current entry (shouldDispose current value noDisposeOnSet))]
        (disposeReplaced current key value noDisposeOnSet
          (store clock key ⟨stamped.1.1, stamped.1.2, value⟩ stamped.2)) := by
  obtain ⟨n, q, hn, hstate⟩ :=
    stamp_state clock (if noUpdateTTL then current else none) ttl s
  have hexpiry := stamp_expiresAt clock (if noUpdateTTL then current else none) ttl s
  rw [hstamped] at hstate hexpiry
  let entry : Entry V := ⟨stamped.1.1, stamped.1.2, value⟩
  refine ⟨entry, rfl, hexpiry, ?_, ?_⟩
  · rw [hstate, disposeReplaced_eq current key entry]
    apply Took.put hclock
    · exact store_data entry { s with reads := n, sequence := q }
    · exact hn.trans (store_reads entry { s with reads := n, sequence := q })
    · rw [store_disposed]
    · refine ⟨hcurrent, ?_⟩
      intro hreported
      cases current with
      | none => cases hreported
      | some old =>
        rw [shouldDispose, Bool.and_eq_true] at hreported
        exact ⟨old, rfl, hreported.1⟩
    · rfl
  · intro h
    rw [hstate, disposeReplaced_eq current key entry]
    have hstored := (h.numbered hclock hn q).store hclock key entry
    exact ⟨⟨hstored.armed.idle, hstored.armed.due⟩, hstored.covers⟩

theorem set_passed (hclock : Monotone clock) (key : K) (value : V) (options : SetOptions)
    (s : State K V) : ∃ notes, Passed clock s notes (set clock config key value options s).2 ∧
      Accounts config (.set key value options) notes := by
  unfold set
  cases httl : config.checkedTtl options.ttl with
  | error message =>
    refine ⟨[], .refl clock s, ?_⟩
    simp only [Accounts, httl]
  | ok ttl =>
    dsimp only
    obtain ⟨before, hbefore, hexpires⟩ := dropExpired_passed hclock key s
    let looked := (dropExpired clock key s).2
    let stamped := stamp clock (if options.noUpdateTTL.getD config.noUpdateTTL then
      looked.data.lookup key else none) ttl looked
    obtain ⟨entry, hvalue, hexpiry, hstored⟩ := stored_passed hclock key value ttl
      (options.noUpdateTTL.getD config.noUpdateTTL)
      (options.noDisposeOnSet.getD config.noDisposeOnSet) rfl (rfl : _ = stamped)
    obtain ⟨⟨after, hafter, hroom⟩, -⟩ := purgeToCapacity_room hclock config.max.1
      (disposeReplaced (looked.data.lookup key) key value
        (options.noDisposeOnSet.getD config.noDisposeOnSet)
        (store clock key ⟨stamped.1.1, stamped.1.2, value⟩ stamped.2))
    refine ⟨_, hbefore.append (hstored.append hafter), ?_⟩
    simp only [Accounts, httl]
    exact ⟨before, _, _, entry, after, rfl, hvalue, hexpiry, hexpires, hroom⟩

theorem look_renew (hclock : Monotone clock) {key : K} {s : State K V} {entry : Entry V}
    (hentry : s.data.lookup key = some entry) {s' : State K V}
    (hlive : dropExpired clock key s = (false, s')) (ttl : Bound) :
    ∃ notes : List (ℚ × Note K V), Passed clock s notes (renew clock key entry ttl s') ∧
      ∀ n ∈ notes, n.2.Expires key ∨ Note.Renews key ttl n := by
  obtain ⟨before, hbefore, hexpires⟩ := dropExpired_passed hclock key s
  have hlookup := @dropExpired_lookup K V _ clock s key
  rw [hlive] at hbefore hlookup
  have hheld : s'.data.lookup key = some entry := hlookup.trans hentry
  obtain ⟨n, hrenewed, hrenews⟩ := renew_passed hclock hheld ttl
  refine ⟨_, hbefore.append hrenewed, ?_⟩
  intro n' hn'
  cases List.mem_append.mp hn' with
  | inl hmem => exact .inl (hexpires n' hmem)
  | inr hmem =>
    rw [List.mem_singleton.mp hmem]
    exact .inr hrenews

theorem get_passed (hclock : Monotone clock) (key : K) (options : GetOptions) (s : State K V) :
    ∃ notes, Passed clock s notes (get clock config key options s).2 ∧
      Accounts config (.get key options) notes := by
  obtain ⟨before, hbefore, hexpires⟩ := dropExpired_passed hclock key s
  have hlook : Accounts config (.get key options) before := fun n hn => .inl (hexpires n hn)
  unfold get
  split
  · exact ⟨[], .refl clock s, by simp [Accounts]⟩
  next entry hentry =>
    cases hdrop : dropExpired clock key s with
    | mk dropped s' =>
      rw [hdrop] at hbefore
      dsimp only
      split
      · exact ⟨before, hbefore, hlook⟩
      next hlive =>
      have hlive : dropped = false := Bool.eq_false_of_not_eq_true hlive
      subst hlive
      split
      · split
        · exact ⟨before, hbefore, hlook⟩
        · cases httl : config.checkedTtl options.ttl with
          | error message => exact ⟨before, hbefore, hlook⟩
          | ok ttl =>
            obtain ⟨notes, hpassed, hnotes⟩ := look_renew hclock hentry hdrop ttl
            exact ⟨notes, hpassed, fun n hn => (hnotes n hn).imp_right fun h => ⟨ttl, httl, h⟩⟩
      · exact ⟨before, hbefore, hlook⟩

theorem setTTL_passed (hclock : Monotone clock) (key : K) (ttl : Option Number) (s : State K V) :
    ∃ notes, Passed clock s notes (setTTL clock config key ttl s).2 ∧
      Accounts config (.setTTL key ttl) notes := by
  obtain ⟨before, hbefore, hexpires⟩ := dropExpired_passed hclock key s
  unfold setTTL
  cases httl : config.checkedTtl ttl with
  | error message => exact ⟨[], .refl clock s, by simp [Accounts]⟩
  | ok bound =>
    dsimp only
    split
    · exact ⟨[], .refl clock s, by simp [Accounts]⟩
    next entry hentry =>
      cases hdrop : dropExpired clock key s with
      | mk dropped s' =>
        rw [hdrop] at hbefore
        dsimp only
        split
        · exact ⟨before, hbefore, fun n hn => .inl (hexpires n hn)⟩
        next hlive =>
        have hlive : dropped = false := Bool.eq_false_of_not_eq_true hlive
        subst hlive
        obtain ⟨notes, hpassed, hnotes⟩ := look_renew hclock hentry hdrop bound
        exact ⟨notes, hpassed, fun n hn => (hnotes n hn).imp_right fun h => ⟨bound, httl, h⟩⟩

theorem has_passed (hclock : Monotone clock) (key : K) (s : State K V) :
    ∃ notes, Passed clock s notes (has clock key s).2 ∧ Accounts config (.has key) notes := by
  unfold has
  split
  · exact ⟨[], .refl clock s, by simp [Accounts]⟩
  · exact dropExpired_passed hclock key s

theorem delete_passed (key : K) (s : State K V) :
    ∃ notes, Passed clock s notes (delete key s).2 ∧ Accounts config (.delete key) notes := by
  cases hentry : s.data.lookup key with
  | none =>
    rw [delete, deleteEntry, hentry]
    exact ⟨[], .refl clock s, by simp [Accounts]⟩
  | some entry =>
    have hleaves : Leaves (s.data.lookup ·) (clock s.reads) entry .delete := trivial
    have hleft := Took.delete hentry hleaves
    refine ⟨[(clock s.reads, .left key entry .delete)], ⟨?_, fun h => h.delete⟩, ?_⟩
    · rw [delete, deleteEntry_reads]
      exact hleft
    · intro n hn
      rw [List.mem_singleton.mp hn]
      exact ⟨entry, rfl⟩

theorem purgeStale_passed (hclock : Monotone clock) (s : State K V) :
    ∃ notes, Passed clock s notes (purgeStale clock s).2 ∧ Accounts config .purgeStale notes := by
  have hswept := purgeStaleEntries_swept clock s
  obtain ⟨notes, htook, hexpires⟩ := purgeStaleEntries_took hclock s
  refine ⟨notes, ?_, hexpires⟩
  unfold purgeStale
  dsimp only
  split
  · refine ⟨htook.rearm hclock, ?_⟩
    intro h
    exact (hswept.armed (h.armed.read hclock)).cancel.scheduleNext hclock
  · exact ⟨htook, fun h => hswept.timed (h.read hclock)⟩

theorem fireTimer_passed (hclock : Monotone clock) (s : State K V) :
    ∃ notes, Passed clock s notes (fireTimer clock s) ∧ Accounts config .timer notes := by
  unfold fireTimer
  split
  next =>
    let fired : State K V := { s with timer := none, timerExpiresAt := ⊤ }
    have hswept := purgeStaleEntries_swept clock fired
    obtain ⟨notes, htook, hexpires⟩ := purgeStaleEntries_took hclock fired
    have hfired : Took (clock s.reads) s notes (clock (purgeStaleEntries clock fired).2.reads)
        (purgeStaleEntries clock fired).2 := ⟨htook.replays, htook.disposed⟩
    refine ⟨notes, ⟨hfired.scheduleNext hclock, ?_⟩, hexpires⟩
    intro _
    have harmed : Armed clock fired := ⟨by simp [fired], by simp [fired]⟩
    exact (hswept.armed (harmed.read hclock)).scheduleNext hclock
  · exact ⟨[], .refl clock s, by simp [Accounts]⟩

theorem step_passed (hclock : Monotone clock) (s : State K V) (op : Op K V) :
    ∃ notes, Passed clock s notes (step clock config s op) ∧ Accounts config op notes := by
  cases op with
  | set key value options => exact set_passed config hclock key value options s
  | get key options => exact get_passed config hclock key options s
  | has key => exact has_passed config hclock key s
  | delete key => exact delete_passed config key s
  | setTTL key ttl => exact setTTL_passed config hclock key ttl s
  | purgeStale => exact purgeStale_passed config hclock s
  | timer => exact fireTimer_passed config hclock s

/-! ## How much is held -/

/-- Without an entry that is stored no key comes to be held. -/
theorem Replays.held_of {start finish : ℚ} {held held' : K → Option (Entry V)}
    {notes : List (ℚ × Note K V)} (h : Replays start held notes finish held')
    (hquiet : ∀ n ∈ notes, ∀ key old entry reported, n.2 ≠ .stored key old entry reported) {key : K}
    (hkey : held' key ≠ none) : held key ≠ none := by
  induction h with
  | done => exact hkey
  | @note start time finish held held' n rest _ hlegal _ ih =>
    have hafter := ih (fun n hn => hquiet n (List.mem_cons_of_mem _ hn)) hkey
    cases n with
    | stored at_ old entry reported => exact absurd rfl (hquiet _ (List.mem_cons_self ..) _ _ _ _)
    | renewed at_ old entry =>
      by_cases hat : key = at_
      · subst hat
        rw [hlegal.1]
        exact Option.some_ne_none _
      · rwa [Note.apply, Function.update_of_ne hat] at hafter
    | left at_ entry reason =>
      by_cases hat : key = at_
      · subst hat
        rw [hlegal.1]
        exact Option.some_ne_none _
      · rwa [Note.apply, Function.update_of_ne hat] at hafter

theorem Passed.size_le {s s' : State K V} {notes : List (ℚ × Note K V)}
    (h : Passed clock s notes s')
    (hquiet : ∀ n ∈ notes, ∀ key old entry reported, n.2 ≠ .stored key old entry reported) :
    size s' ≤ size s := by
  apply List.Subperm.length_le
  apply List.subperm_of_subset s'.data.keys_nodup
  intro key hkey
  have hheld : s'.data.lookup key ≠ none := by
    rw [← Option.isSome_iff_ne_none]
    exact AList.lookup_isSome.mpr hkey
  have hbefore := h.took.replays.held_of hquiet hheld
  exact AList.lookup_isSome.mp (Option.isSome_iff_ne_none.mpr hbefore)

theorem step_size (hclock : Monotone clock) (s : State K V) (op : Op K V)
    (hs : (size s : WithTop ℕ) ≤ config.max.1) :
    (size (step clock config s op) : WithTop ℕ) ≤ config.max.1 := by
  obtain ⟨notes, hpassed, haccounts⟩ := step_passed config hclock s op
  cases op with
  | set key value options =>
    rw [step, set]
    cases config.checkedTtl options.ttl with
    | error message => exact hs
    | ok ttl => exact (purgeToCapacity_room hclock config.max.1 _).2
  | get key options =>
    refine le_trans (WithTop.coe_le_coe.mpr (hpassed.size_le ?_)) hs
    intro n hn k old entry reported heq
    cases haccounts n hn with
    | inl h => simp [Note.Expires, heq] at h
    | inr h => simp [Note.Renews, heq] at h
  | setTTL key ttl =>
    refine le_trans (WithTop.coe_le_coe.mpr (hpassed.size_le ?_)) hs
    intro n hn k old entry reported heq
    cases haccounts n hn with
    | inl h => simp [Note.Expires, heq] at h
    | inr h => simp [Note.Renews, heq] at h
  | has key =>
    refine le_trans (WithTop.coe_le_coe.mpr (hpassed.size_le ?_)) hs
    intro n hn k old entry reported heq
    have h := haccounts n hn
    simp [Note.Expires, heq] at h
  | delete key =>
    refine le_trans (WithTop.coe_le_coe.mpr (hpassed.size_le ?_)) hs
    intro n hn k old entry reported heq
    have h := haccounts n hn
    simp [heq] at h
  | purgeStale | timer =>
    refine le_trans (WithTop.coe_le_coe.mpr (hpassed.size_le ?_)) hs
    intro n hn k old entry reported heq
    have h := haccounts n hn
    simp [Note.Expires, heq] at h

/-! ## The ledger of a run -/

variable (clock) in
/-- A ledger in which each operation has written its notes. -/
inductive Recorded : List (Op K V) → List (ℚ × Note K V) → Prop where
  | start : Recorded [] []
  | step {ops : List (Op K V)} {op : Op K V} {ledger notes : List (ℚ × Note K V)}
      (hbefore : Recorded ops ledger) (haccounts : Accounts config op notes)
      (htook : Took (clock (run clock config ops).reads) (run clock config ops) notes
        (clock (run clock config (ops ++ [op])).reads) (run clock config (ops ++ [op]))) :
      Recorded (ops ++ [op]) (ledger ++ notes)

theorem run_concat (ops : List (Op K V)) (op : Op K V) :
    run clock config (ops ++ [op]) = step clock config (run clock config ops) op := by
  simp [run]

/-- Every run has its ledger; the cache is never too full and the timer is always armed. -/
theorem recorded (hclock : Monotone clock) (ops : List (Op K V)) :
    (∃ ledger, Recorded clock config ops ledger) ∧ Timed clock (run clock config ops) ∧
      (size (run clock config ops) : WithTop ℕ) ≤ config.max.1 := by
  induction ops using List.reverseRecOn with
  | nil =>
    refine ⟨⟨[], .start⟩, ⟨⟨by simp [run], by simp [run]⟩, by simp [run]⟩, ?_⟩
    exact zero_le
  | append_singleton ops op ih =>
    obtain ⟨⟨ledger, hledger⟩, htimed, hsize⟩ := ih
    obtain ⟨notes, hpassed, haccounts⟩ := step_passed config hclock (run clock config ops) op
    rw [run_concat]
    refine ⟨⟨ledger ++ notes, hledger.step haccounts ?_⟩, hpassed.timed htimed,
      step_size config hclock _ op hsize⟩
    rw [run_concat]
    exact hpassed.took

theorem Recorded.took {ops : List (Op K V)} {ledger : List (ℚ × Note K V)}
    (h : Recorded clock config ops ledger) :
    Took (clock 0) {} ledger (clock (run clock config ops).reads) (run clock config ops) := by
  induction h with
  | start => exact .idle le_rfl rfl rfl
  | step _ _ htook ih => exact ih.append htook

/-- Room for one entry, which lives for five milliseconds. -/
def single : Options where
  max := ⟨1, zero_lt_one⟩
  ttl := some ⟨5, WithTop.coe_pos.mpr (Nat.succ_pos 4)⟩

end TtlCache
end EnboxDwn
