import EnboxDwn.TtlCache
import Mathlib.Tactic.Linarith

/-! What happens to the entries of the cache, written down as notes in a ledger: an entry is stored,
it is renewed, it leaves. The ledger says which value a key has, and which calls of the dispose
callback there are. -/
namespace EnboxDwn
namespace TtlCache
variable {K V : Type}

/-- What becomes of an entry. A stored one has the entry before it beside it, and whether that one
is reported to the callback. -/
inductive Note (K V : Type) where
  | stored (key : K) (old : Option (Entry V)) (entry : Entry V) (reported : Bool)
  | renewed (key : K) (old entry : Entry V)
  | left (key : K) (entry : Entry V) (reason : DisposeReason)

def Note.dispose? : Note K V → Option (V × K × DisposeReason)
  | .stored key (some old) _ true => some (old.value, key, .set)
  | .left key entry reason => some (entry.value, key, reason)
  | _ => none

/-- No entry expires before this one, and of those that expire with it none is older. -/
def Entry.IsFirst (entry other : Entry V) : Prop :=
  entry.expiresAt < other.expiresAt ∨
    entry.expiresAt = other.expiresAt ∧ entry.sequence ≤ other.sequence

/-- Why an entry may leave: it was deleted, it has expired, or all that are held are alive and it is
the first of them. -/
def Leaves (held : K → Option (Entry V)) (time : ℚ) (entry : Entry V) : DisposeReason → Prop
  | .delete => True
  | .stale => entry.expiresAt ≤ (time : WithTop ℚ)
  | .evict => ∀ key other, held key = some other →
      (time : WithTop ℚ) < other.expiresAt ∧ entry.IsFirst other
  | .set => False

def Note.Legal [BEq V] (held : K → Option (Entry V)) (time : ℚ) : Note K V → Prop
  | .stored key old entry reported => held key = old ∧
      (reported = true → ∃ replaced, old = some replaced ∧ (replaced.value != entry.value) = true)
  | .renewed key old entry => held key = some old ∧ entry.value = old.value
  | .left key entry reason => held key = some entry ∧ Leaves held time entry reason

variable [DecidableEq K]

def Note.apply (held : K → Option (Entry V)) : Note K V → K → Option (Entry V)
  | .stored key _ entry _ | .renewed key _ entry => Function.update held key (some entry)
  | .left key _ _ => Function.update held key none

/-- As `apply`, but an entry that leaves because it has expired stays in its place. -/
def Note.keep (kept : K → Option (Entry V)) : Note K V → K → Option (Entry V)
  | .left _ _ .stale => kept
  | note => note.apply kept

/-- The last entry of each key, unless it has been deleted or evicted since. -/
def kept (ledger : List (ℚ × Note K V)) : K → Option (Entry V) :=
  ledger.foldl (fun kept note => note.2.keep kept) fun _ => none

variable [BEq V]

/-- The notes lead, in the order of their times, from the entries held at the start to those at the
finish. -/
inductive Replays : ℚ → (K → Option (Entry V)) → List (ℚ × Note K V) → ℚ →
    (K → Option (Entry V)) → Prop where
  | done {start finish : ℚ} {held : K → Option (Entry V)} (hle : start ≤ finish) :
      Replays start held [] finish held
  | note {start time finish : ℚ} {held held' : K → Option (Entry V)} {n : Note K V}
      {rest : List (ℚ × Note K V)} (hle : start ≤ time) (hlegal : n.Legal held time)
      (hrest : Replays time (n.apply held) rest finish held') :
      Replays start held ((time, n) :: rest) finish held'

namespace Replays
variable {start start' time finish finish' : ℚ} {held held' held'' : K → Option (Entry V)}
  {notes notes' : List (ℚ × Note K V)}

theorem append (h : Replays start held notes time held')
    (h' : Replays time held' notes' finish held'') :
    Replays start held (notes ++ notes') finish held'' := by
  induction h with
  | done hle =>
    cases h' with
    | done hle' => exact .done (hle.trans hle')
    | note hle' hlegal hrest => exact .note (hle.trans hle') hlegal hrest
  | note hle hlegal _ ih => exact .note hle hlegal (ih h')

theorem single {n : Note K V} (hle : start ≤ time) (hlegal : n.Legal held time)
    (hfinish : time ≤ finish) : Replays start held [(time, n)] finish (n.apply held) :=
  .note hle hlegal (.done hfinish)

end Replays

/-- What a part of the code does: the notes of it, and what it tells the callback. -/
structure Took (start : ℚ) (s : State K V) (notes : List (ℚ × Note K V)) (finish : ℚ)
    (s' : State K V) : Prop where
  replays : Replays start (s.data.lookup ·) notes finish (s'.data.lookup ·)
  disposed : s'.disposed = s.disposed ++ notes.filterMap fun n => n.2.dispose?

namespace Took
variable {start time finish : ℚ} {s s' s'' : State K V} {notes notes' : List (ℚ × Note K V)}

theorem append (h : Took start s notes time s') (h' : Took time s' notes' finish s'') :
    Took start s (notes ++ notes') finish s'' where
  replays := h.replays.append h'.replays
  disposed := by rw [h'.disposed, h.disposed, List.filterMap_append, List.append_assoc]

theorem idle (hle : start ≤ finish) (hdata : s'.data = s.data) (hdisposed : s'.disposed = s.disposed) :
    Took start s [] finish s' where
  replays := by
    rw [hdata]
    exact .done hle
  disposed := by rw [hdisposed, List.filterMap_nil, List.append_nil]

end Took

/-! ## The timer -/

section Timer
omit [DecidableEq K] [BEq V]
variable {clock : ℕ → ℚ} {s : State K V}

@[simp] theorem cancelTimer_data : (cancelTimer s).data = s.data := by
  unfold cancelTimer
  split <;> rfl

@[simp] theorem cancelTimer_reads : (cancelTimer s).reads = s.reads := by
  unfold cancelTimer
  split <;> rfl

@[simp] theorem cancelTimer_disposed : (cancelTimer s).disposed = s.disposed := by
  unfold cancelTimer
  split <;> rfl

/-- There is a timer when there is a time for which it is armed; it is due less than a millisecond
after that time, if it is not due at once. -/
structure Armed (clock : ℕ → ℚ) (s : State K V) : Prop where
  idle : s.timer = none ↔ s.timerExpiresAt = ⊤
  due : ∀ due, s.timer = some due →
    due ≤ clock s.reads ∨ (due : WithTop ℚ) < s.timerExpiresAt + 1

theorem Armed.cancel (h : Armed clock s) : Armed clock (cancelTimer s) := by
  unfold cancelTimer
  split
  · exact ⟨by simp, by simp⟩
  · exact h

@[simp] theorem scheduleTimer_data (expiresAt : WithTop ℚ) :
    (scheduleTimer clock expiresAt s).data = s.data := by
  unfold scheduleTimer
  split
  · rfl
  · split
    · rfl
    · exact cancelTimer_data

@[simp] theorem scheduleTimer_disposed (expiresAt : WithTop ℚ) :
    (scheduleTimer clock expiresAt s).disposed = s.disposed := by
  unfold scheduleTimer
  split
  · rfl
  · split
    · rfl
    · exact cancelTimer_disposed

theorem scheduleTimer_reads (expiresAt : WithTop ℚ) :
    s.reads ≤ (scheduleTimer clock expiresAt s).reads := by
  unfold scheduleTimer
  split
  · exact le_rfl
  · split
    · exact le_rfl
    · simp

theorem scheduleTimer_timerExpiresAt (expiresAt : WithTop ℚ) :
    (scheduleTimer clock expiresAt s).timerExpiresAt = min s.timerExpiresAt expiresAt := by
  unfold scheduleTimer
  split
  · exact (min_eq_left le_top).symm
  · split
    next hle => exact (min_eq_left hle).symm
    next hlt => exact (min_eq_right (not_le.mp hlt).le).symm

theorem Armed.schedule (hclock : Monotone clock) (h : Armed clock s) (expiresAt : WithTop ℚ) :
    Armed clock (scheduleTimer clock expiresAt s) := by
  unfold scheduleTimer
  split
  · exact h
  next time =>
    split
    · exact h
    refine ⟨by simp, ?_⟩
    intro due hdue
    cases hdue
    simp only [cancelTimer_reads]
    by_cases hpast : time ≤ clock s.reads
    · left
      have hceil : ⌈time - clock s.reads⌉ ≤ 0 := Int.ceil_le.mpr (by simpa using hpast)
      have hdelay : max 0 (⌈time - clock s.reads⌉ : ℚ) = 0 := max_eq_left (by exact_mod_cast hceil)
      have hmin : min MAX_TIMER_DELAY_MS (0 : ℚ) = 0 := min_eq_right (by norm_num [MAX_TIMER_DELAY_MS])
      rw [hdelay, hmin, add_zero]
      exact hclock (Nat.le_succ _)
    · right
      have hceil : (⌈time - clock s.reads⌉ : ℚ) < time - clock s.reads + 1 := Int.ceil_lt_add_one _
      have hmax : max 0 (⌈time - clock s.reads⌉ : ℚ) < time - clock s.reads + 1 := by
        apply max_lt _ hceil
        linarith [not_le.mp hpast]
      have hmin := (min_le_right MAX_TIMER_DELAY_MS (max 0 (⌈time - clock s.reads⌉ : ℚ))).trans_lt hmax
      have hdue : clock s.reads + min MAX_TIMER_DELAY_MS (max 0 (⌈time - clock s.reads⌉ : ℚ)) <
          time + 1 := by linarith
      exact WithTop.coe_lt_coe.mpr hdue

theorem foldl_min_le (l : List (Sigma fun _ : K => Entry V)) (first : WithTop ℚ) :
    l.foldl (fun next e => if e.2.expiresAt < next then e.2.expiresAt else next) first ≤ first ∧
      ∀ e ∈ l, l.foldl (fun next e => if e.2.expiresAt < next then e.2.expiresAt else next) first ≤
        e.2.expiresAt := by
  induction l generalizing first with
  | nil => simp
  | cons e l ih =>
    have hnext := ih (if e.2.expiresAt < first then e.2.expiresAt else first)
    have hle : (if e.2.expiresAt < first then e.2.expiresAt else first) ≤ first ∧
        (if e.2.expiresAt < first then e.2.expiresAt else first) ≤ e.2.expiresAt := by
      split_ifs with hlt
      · exact ⟨hlt.le, le_rfl⟩
      · exact ⟨le_rfl, not_lt.mp hlt⟩
    rw [List.foldl_cons]
    refine ⟨hnext.1.trans hle.1, ?_⟩
    intro e' he'
    cases he' with
    | head => exact hnext.1.trans hle.2
    | tail _ hmem => exact hnext.2 e' hmem

end Timer

/-- The timer is armed for a time at which every entry is still alive. -/
structure Timed (clock : ℕ → ℚ) (s : State K V) : Prop where
  armed : Armed clock s
  covers : ∀ key entry, s.data.lookup key = some entry → s.timerExpiresAt ≤ entry.expiresAt

omit [BEq V] in
theorem mem_entries {s : State K V} {e : Sigma fun _ : K => Entry V} :
    e ∈ entries s ↔ s.data.lookup e.1 = some e.2 := by
  rw [entries, List.mem_reverse]
  exact AList.mem_lookup_iff.symm

omit [BEq V] in
theorem Armed.scheduleNext {clock : ℕ → ℚ} (hclock : Monotone clock) {s : State K V}
    (h : Armed clock s) : Timed clock (scheduleNextTimer clock s) where
  armed := h.schedule hclock _
  covers := by
    intro key entry hentry
    rw [scheduleNextTimer, scheduleTimer_data] at hentry
    rw [scheduleNextTimer, scheduleTimer_timerExpiresAt]
    exact (min_le_right _ _).trans ((foldl_min_le _ _).2 ⟨key, entry⟩ (mem_entries.mpr hentry))

/-! ## Entries that leave -/

section Delete
variable {clock : ℕ → ℚ} {s : State K V} {key : K} {reason : DisposeReason}

omit [BEq V]

@[simp] theorem deleteEntry_lookup (k : K) : (deleteEntry key reason s).2.data.lookup k =
    if k = key then none else s.data.lookup k := by
  unfold deleteEntry
  split
  next hnone =>
    split_ifs with hk
    · rw [hk, hnone]
    · rfl
  next =>
    dsimp only [dispose]
    split
    · rw [cancelTimer_data, KeyedMap.lookup_erase_eq]
    · rw [KeyedMap.lookup_erase_eq]

@[simp] theorem deleteEntry_reads : (deleteEntry key reason s).2.reads = s.reads := by
  unfold deleteEntry
  split
  · rfl
  · dsimp only [dispose]
    split
    · rw [cancelTimer_reads]
    · rfl

theorem deleteEntry_disposed {entry : Entry V} (h : s.data.lookup key = some entry) :
    (deleteEntry key reason s).2.disposed = s.disposed ++ [(entry.value, key, reason)] := by
  unfold deleteEntry
  rw [h]
  dsimp only [dispose]
  split
  · rw [cancelTimer_disposed]
  · rfl

theorem deleteEntry_size {entry : Entry V} (h : s.data.lookup key = some entry) :
    size (deleteEntry key reason s).2 + 1 = size s := by
  have hmem : key ∈ s.data.keys := AList.lookup_isSome.mp (by rw [h]; rfl)
  have hsize : size (deleteEntry key reason s).2 = (s.data.erase key).keys.length := by
    unfold deleteEntry size
    rw [h]
    dsimp only [dispose]
    split
    · rw [cancelTimer_data]
    · rfl
  rw [hsize, AList.keys_erase, List.length_erase_add_one hmem, size]

theorem Armed.delete (h : Armed clock s) : Armed clock (deleteEntry key reason s).2 := by
  unfold deleteEntry
  split
  · exact h
  · dsimp only [dispose]
    have herased : Armed clock { s with data := s.data.erase key } := ⟨h.idle, h.due⟩
    split
    · exact ⟨herased.cancel.idle, herased.cancel.due⟩
    · exact ⟨h.idle, h.due⟩

theorem Timed.delete (h : Timed clock s) : Timed clock (deleteEntry key reason s).2 where
  armed := h.armed.delete
  covers := by
    intro k entry hentry
    have hk := hentry
    rw [deleteEntry_lookup] at hk
    have hold : s.data.lookup k = some entry := by
      split_ifs at hk
      exact hk
    suffices hsame : (deleteEntry key reason s).2.timerExpiresAt = s.timerExpiresAt by
      rw [hsame]
      exact h.covers k entry hold
    unfold deleteEntry at hentry ⊢
    split
    · rfl
    next heq =>
      rw [heq] at hentry
      dsimp only [dispose] at hentry ⊢
      split
      next hempty =>
        exfalso
        rw [if_pos hempty, cancelTimer_data] at hentry
        have hmem := AList.lookup_isSome.mp (Option.isSome_of_eq_some hentry)
        have hnil := List.eq_nil_of_length_eq_zero hempty
        rw [AList.mem_keys, hnil] at hmem
        cases hmem
      · rfl

end Delete

/-- An entry that leaves, for a reason that holds at the time. -/
theorem Took.delete {time : ℚ} {s : State K V} {key : K} {entry : Entry V} {reason : DisposeReason}
    (h : s.data.lookup key = some entry)
    (hleaves : Leaves (s.data.lookup ·) time entry reason) :
    Took time s [(time, .left key entry reason)] time (deleteEntry key reason s).2 where
  replays := by
    have hheld : (Note.left key entry reason).apply (s.data.lookup ·) =
        ((deleteEntry key reason s).2.data.lookup ·) := by
      funext k
      rw [deleteEntry_lookup, Note.apply, Function.update_apply]
    rw [← hheld]
    exact .single le_rfl ⟨h, hleaves⟩ le_rfl
  disposed := deleteEntry_disposed h

theorem Took.later {start time finish : ℚ} {s s' : State K V} {notes : List (ℚ × Note K V)}
    (h : Took start s notes time s') (hle : time ≤ finish) : Took start s notes finish s' := by
  have hall := h.append (.idle hle rfl rfl)
  rwa [List.append_nil] at hall

def Note.Expires (key : K) (n : Note K V) : Prop := ∃ entry, n = .left key entry .stale

omit [DecidableEq K] [BEq V] in
theorem isExpired_iff {entry : Entry V} {time : ℚ} :
    isExpired entry time = true ↔ entry.expiresAt ≤ (time : WithTop ℚ) := by
  simp only [isExpired, Bool.and_eq_true, decide_eq_true_eq, and_iff_right_iff_imp]
  intro hle htop
  rw [htop] at hle
  exact WithTop.not_top_le_coe time hle

omit [DecidableEq K] [BEq V] in
theorem isExpired_false {entry : Entry V} {time : ℚ} :
    isExpired entry time = false ↔ (time : WithTop ℚ) < entry.expiresAt := by
  rw [← not_le, ← isExpired_iff, Bool.not_eq_true]

/-- Of the entries that were met, those that had expired have left, and no others. -/
structure Swept (clock : ℕ → ℚ) (time : ℚ) (todo : List (Sigma fun _ : K => Entry V))
    (s s' : State K V) : Prop where
  took : ∃ notes, Took time s notes time s' ∧ ∀ n ∈ notes, ∃ key, n.2.Expires key
  lookup : ∀ key entry, s'.data.lookup key = some entry ↔ s.data.lookup key = some entry ∧
    ((∃ e ∈ todo, e.1 = key) → (time : WithTop ℚ) < entry.expiresAt)
  reads : s'.reads = s.reads
  size : size s' ≤ size s
  armed : Armed clock s → Armed clock s'
  timed : Timed clock s → Timed clock s'

theorem swept (clock : ℕ → ℚ) {time : ℚ} (todo : List (Sigma fun _ : K => Entry V)) (purged : Bool)
    {s : State K V} (hnodup : (todo.map Sigma.fst).Nodup)
    (hheld : ∀ e ∈ todo, s.data.lookup e.1 = some e.2) :
    Swept clock time todo s (purgeStaleLoop time todo (purged, s)).2 := by
  induction todo generalizing purged s with
  | nil =>
    rw [purgeStaleLoop]
    exact ⟨⟨[], .idle le_rfl rfl rfl, by simp⟩, by simp, rfl, le_rfl, id, id⟩
  | cons e todo ih =>
    have hnodup' := List.nodup_cons.mp hnodup
    have hother : ∀ e' ∈ todo, e'.1 ≠ e.1 := fun e' he' heq =>
      hnodup'.1 (List.mem_map.mpr ⟨e', he', heq⟩)
    have hhead := hheld e (List.mem_cons_self ..)
    rw [purgeStaleLoop]
    split
    next hexpired =>
      have hleaves : Leaves (s.data.lookup ·) time e.2 .stale := isExpired_iff.mp hexpired
      have hleft := Took.delete hhead hleaves
      have hrest := ih true (s := (deleteEntry e.1 .stale s).2) hnodup'.2 (by
        intro e' he'
        rw [deleteEntry_lookup, if_neg (hother e' he')]
        exact hheld e' (List.mem_cons_of_mem _ he'))
      obtain ⟨notes, htook, hnotes⟩ := hrest.took
      refine ⟨⟨_, hleft.append htook, ?_⟩, ?_, hrest.reads.trans deleteEntry_reads, ?_,
        fun h => hrest.armed h.delete, fun h => hrest.timed h.delete⟩
      · intro n hn
        cases hn with
        | head => exact ⟨e.1, e.2, rfl⟩
        | tail _ hmem => exact hnotes n hmem
      · intro key entry
        rw [hrest.lookup, deleteEntry_lookup]
        by_cases hkey : key = e.1
        · subst hkey
          rw [if_pos rfl, hhead]
          constructor
          · rintro ⟨hnone, -⟩
            cases hnone
          · rintro ⟨hsome, hlive⟩
            cases hsome
            exact absurd (isExpired_iff.mp hexpired)
              (not_le.mpr (hlive ⟨e, List.mem_cons_self .., rfl⟩))
        · simp [hkey, Ne.symm hkey]
      · have hsize := @deleteEntry_size K V _ s e.1 .stale e.2 hhead
        have hle := hrest.size
        omega
    next hlive =>
      have hrest := ih purged hnodup'.2 fun e' he' => hheld e' (List.mem_cons_of_mem _ he')
      refine ⟨hrest.took, ?_, hrest.reads, hrest.size, hrest.armed, hrest.timed⟩
      intro key entry
      rw [hrest.lookup]
      constructor
      · rintro ⟨hsome, hrest⟩
        refine ⟨hsome, ?_⟩
        rintro ⟨e', he', rfl⟩
        cases he' with
        | head =>
          rw [hhead] at hsome
          cases hsome
          exact isExpired_false.mp (by simpa using hlive)
        | tail _ hmem => exact hrest ⟨e', hmem, rfl⟩
      · rintro ⟨hsome, hall⟩
        exact ⟨hsome, fun ⟨e', he', heq⟩ => hall ⟨e', List.mem_cons_of_mem _ he', heq⟩⟩

omit [DecidableEq K] [BEq V] in
theorem entries_nodup (s : State K V) : ((entries s).map Sigma.fst).Nodup := by
  rw [entries, List.map_reverse, List.nodup_reverse]
  exact s.data.nodupKeys

theorem Swept.all {clock : ℕ → ℚ} {time : ℚ} {s s' s₀ : State K V} (hdata : s₀.data = s.data)
    (h : Swept clock time (entries s₀) s s') {key : K} {entry : Entry V} :
    s'.data.lookup key = some entry ↔
      s.data.lookup key = some entry ∧ (time : WithTop ℚ) < entry.expiresAt := by
  rw [h.lookup]
  constructor
  · rintro ⟨hsome, hlive⟩
    refine ⟨hsome, hlive ⟨⟨key, entry⟩, mem_entries.mpr ?_, rfl⟩⟩
    rw [hdata]
    exact hsome
  · rintro ⟨hsome, hlive⟩
    exact ⟨hsome, fun _ => hlive⟩

section Purge
variable {clock : ℕ → ℚ} {s : State K V}

omit [DecidableEq K] [BEq V] in
theorem Armed.later (hclock : Monotone clock) (h : Armed clock s) {n : ℕ} (hn : s.reads ≤ n) :
    Armed clock { s with reads := n } where
  idle := h.idle
  due := by
    intro due hdue
    apply (h.due due hdue).imp_left
    intro hle
    exact hle.trans (hclock hn)

omit [DecidableEq K] [BEq V] in
theorem Armed.read (hclock : Monotone clock) (h : Armed clock s) :
    Armed clock { s with reads := s.reads + 1 } := h.later hclock (Nat.le_succ _)

omit [BEq V] in
theorem Timed.later (hclock : Monotone clock) (h : Timed clock s) {n : ℕ} (hn : s.reads ≤ n) :
    Timed clock { s with reads := n } := ⟨h.armed.later hclock hn, h.covers⟩

omit [BEq V] in
theorem Timed.read (hclock : Monotone clock) (h : Timed clock s) :
    Timed clock { s with reads := s.reads + 1 } := h.later hclock (Nat.le_succ _)

theorem purgeStaleEntries_swept (clock : ℕ → ℚ) (s : State K V) :
    Swept clock (clock s.reads) (entries s) { s with reads := s.reads + 1 }
      (purgeStaleEntries clock s).2 :=
  swept clock (entries s) false (entries_nodup s) fun _ he => mem_entries.mp he

/-- What goes on with the entries between two readings of the clock, and that the timer keeps up
with it. -/
structure Passed (clock : ℕ → ℚ) (s : State K V) (notes : List (ℚ × Note K V)) (s' : State K V) :
    Prop where
  took : Took (clock s.reads) s notes (clock s'.reads) s'
  timed : Timed clock s → Timed clock s'

theorem Passed.append {s' s'' : State K V} {notes notes' : List (ℚ × Note K V)}
    (h : Passed clock s notes s') (h' : Passed clock s' notes' s'') :
    Passed clock s (notes ++ notes') s'' :=
  ⟨h.took.append h'.took, fun hs => h'.timed (h.timed hs)⟩

theorem Passed.refl (clock : ℕ → ℚ) (s : State K V) : Passed clock s [] s :=
  ⟨.idle le_rfl rfl rfl, id⟩

theorem Passed.read (hclock : Monotone clock) (s : State K V) :
    Passed clock s [] { s with reads := s.reads + 1 } :=
  ⟨.idle (hclock (Nat.le_succ _)) rfl rfl, fun h => h.read hclock⟩

theorem Took.scheduleNext (hclock : Monotone clock) {start : ℚ} {s' : State K V}
    {notes : List (ℚ × Note K V)} (h : Took start s notes (clock s'.reads) s') :
    Took start s notes (clock (scheduleNextTimer clock s').reads) (scheduleNextTimer clock s') := by
  have hidle : Took (clock s'.reads) s' [] (clock (scheduleNextTimer clock s').reads)
      (scheduleNextTimer clock s') :=
    .idle (hclock (scheduleTimer_reads _)) (scheduleTimer_data _) (scheduleTimer_disposed _)
  have hall := h.append hidle
  rwa [List.append_nil] at hall

theorem Took.rearm (hclock : Monotone clock) {start : ℚ} {s' : State K V}
    {notes : List (ℚ × Note K V)} (h : Took start s notes (clock s'.reads) s') :
    Took start s notes (clock (scheduleNextTimer clock (cancelTimer s')).reads)
      (scheduleNextTimer clock (cancelTimer s')) := by
  have hidle : Took (clock s'.reads) s' [] (clock s'.reads) (cancelTimer s') :=
    .idle le_rfl cancelTimer_data cancelTimer_disposed
  have hcancel := h.append hidle
  rw [List.append_nil, ← cancelTimer_reads (s := s')] at hcancel
  exact hcancel.scheduleNext hclock

theorem purgeStaleEntries_took (hclock : Monotone clock) (s : State K V) :
    ∃ notes, Took (clock s.reads) s notes (clock (purgeStaleEntries clock s).2.reads)
      (purgeStaleEntries clock s).2 ∧ ∀ n ∈ notes, ∃ key, n.2.Expires key := by
  have hswept := purgeStaleEntries_swept clock s
  obtain ⟨notes, htook, hnotes⟩ := hswept.took
  have hread : Took (clock s.reads) s notes (clock s.reads) (purgeStaleEntries clock s).2 :=
    ⟨htook.replays, htook.disposed⟩
  refine ⟨notes, hread.later ?_, hnotes⟩
  rw [hswept.reads]
  exact hclock (Nat.le_succ _)

end Purge

/-! ## Room for a new entry -/

namespace Entry
omit [BEq V] [DecidableEq K]

theorem isFirst_refl (entry : Entry V) : entry.IsFirst entry := .inr ⟨rfl, le_rfl⟩

theorem IsFirst.trans {e f g : Entry V} (h : e.IsFirst f) (h' : f.IsFirst g) : e.IsFirst g := by
  unfold IsFirst at *
  cases h with
  | inl hlt =>
    left
    cases h' with
    | inl hlt' => exact hlt.trans hlt'
    | inr heq => exact heq.1 ▸ hlt
  | inr heq =>
    rw [heq.1]
    apply h'.imp_right
    intro heq'
    exact ⟨heq'.1, heq.2.trans heq'.2⟩

theorem isEarlier {entry selected : Entry V} {key : K} :
    if isEarlierEntry entry (some (key, selected)) then entry.IsFirst selected
    else selected.IsFirst entry := by
  unfold isEarlierEntry IsFirst
  dsimp only
  split_ifs with hne hlt
  · exact .inl (of_decide_eq_true hlt)
  · exact .inl (lt_of_le_of_ne (not_lt.mp (by simpa using hlt)) (Ne.symm hne))
  · rename_i hlt
    exact .inr ⟨not_not.mp hne, (of_decide_eq_true hlt).le⟩
  · rename_i hlt
    exact .inr ⟨(not_not.mp hne).symm, not_lt.mp (by simpa using hlt)⟩

end Entry

section Selection
variable {time : ℚ} {clock : ℕ → ℚ}

omit [BEq V]

theorem selectLoop_state (todo : List (Sigma fun _ : K => Entry V)) (purged : Bool)
    (found : Selection K V) :
    (selectLoop time todo found).state = (purgeStaleLoop time todo (purged, found.state)).2 := by
  induction todo generalizing purged found with
  | nil => rfl
  | cons e todo ih =>
    rw [selectLoop, purgeStaleLoop]
    split
    · exact ih true _
    · split
      · exact ih purged _
      · exact ih purged _

/-- The entry with which a selection ends was the candidate, or it was met alive; it is the first of
all these. -/
structure Selects (time : ℚ) (todo : List (Sigma fun _ : K => Entry V))
    (before after : Option (K × Entry V)) : Prop where
  met : ∀ c, after = some c →
    before = some c ∨ (⟨c.1, c.2⟩ : Sigma fun _ : K => Entry V) ∈ todo ∧
      (time : WithTop ℚ) < c.2.expiresAt
  first : ∀ e ∈ todo, (time : WithTop ℚ) < e.2.expiresAt → ∃ c, after = some c ∧ c.2.IsFirst e.2
  before : ∀ b, before = some b → ∃ c, after = some c ∧ c.2.IsFirst b.2

theorem selects (todo : List (Sigma fun _ : K => Entry V)) (found : Selection K V) :
    Selects time todo found.candidate (selectLoop time todo found).candidate := by
  induction todo generalizing found with
  | nil =>
    rw [selectLoop]
    exact ⟨fun c hc => .inl hc, by simp, fun b hb => ⟨b, hb, b.2.isFirst_refl⟩⟩
  | cons e todo ih =>
    rw [selectLoop]
    split
    next hexpired =>
      have hrest := ih { found with
        purgedStale := true, state := (deleteEntry e.1 .stale found.state).2 }
      refine ⟨fun c hc => (hrest.met c hc).imp_right (.imp_left (List.mem_cons_of_mem _)), ?_,
        hrest.before⟩
      intro e' he' hlive
      cases he' with
      | head => exact absurd (isExpired_iff.mp hexpired) (not_le.mpr hlive)
      | tail _ hmem => exact hrest.first e' hmem hlive
    next hlive =>
      have hlive := isExpired_false.mp (Bool.not_eq_true _ ▸ hlive)
      split
      next hearlier =>
        have hrest := ih { found with candidate := some (e.1, e.2) }
        obtain ⟨c, hc, hfirst⟩ := hrest.before (e.1, e.2) rfl
        refine ⟨?_, ?_, ?_⟩
        · intro c' hc'
          right
          cases hrest.met c' hc' with
          | inl heq =>
            cases heq
            exact ⟨List.mem_cons_self .., hlive⟩
          | inr hmet => exact ⟨List.mem_cons_of_mem _ hmet.1, hmet.2⟩
        · intro e' he' hlive'
          cases he' with
          | head => exact ⟨c, hc, hfirst⟩
          | tail _ hmem => exact hrest.first e' hmem hlive'
        · intro b hb
          refine ⟨c, hc, hfirst.trans ?_⟩
          have hcompare := @Entry.isEarlier K V e.2 b.2 b.1
          rw [hb] at hearlier
          rwa [if_pos hearlier] at hcompare
      next hlater =>
        have hrest := ih found
        have hbefore : ∃ b, found.candidate = some b ∧ b.2.IsFirst e.2 := by
          cases hb : found.candidate with
          | none =>
            rw [hb] at hlater
            exact absurd rfl hlater
          | some b =>
            have hcompare := @Entry.isEarlier K V e.2 b.2 b.1
            rw [hb] at hlater
            rw [if_neg hlater] at hcompare
            exact ⟨b, rfl, hcompare⟩
        refine ⟨fun c hc => (hrest.met c hc).imp_right (.imp_left (List.mem_cons_of_mem _)), ?_,
          hrest.before⟩
        intro e' he' hlive'
        cases he' with
        | head =>
          obtain ⟨b, hb, hfirst⟩ := hbefore
          obtain ⟨c, hc, hfirst'⟩ := hrest.before b hb
          exact ⟨c, hc, hfirst'.trans hfirst⟩
        | tail _ hmem => exact hrest.first e' hmem hlive'

end Selection

/-- An entry leaves to make room. -/
def Note.MakesRoom (n : Note K V) : Prop := ∃ key, n.Expires key ∨ ∃ entry, n = .left key entry .evict

section Capacity
variable {clock : ℕ → ℚ}

theorem purgeStaleAndSelectEviction_swept (purged : Bool) (s : State K V) :
    Swept clock (clock s.reads) (entries s) { s with reads := s.reads + 1 }
      (purgeStaleAndSelectEviction clock purged s).state := by
  rw [purgeStaleAndSelectEviction, selectLoop_state (entries s) false]
  exact purgeStaleEntries_swept clock s

theorem selection_lookup {purged : Bool} {s : State K V} {key : K} {entry : Entry V} :
    (purgeStaleAndSelectEviction clock purged s).state.data.lookup key = some entry ↔
      s.data.lookup key = some entry ∧ (clock s.reads : WithTop ℚ) < entry.expiresAt :=
  Swept.all (s := { s with reads := s.reads + 1 }) rfl (purgeStaleAndSelectEviction_swept purged s)

omit [BEq V] in
theorem selection_selects (clock : ℕ → ℚ) (purged : Bool) (s : State K V) :
    Selects (clock s.reads) (entries s) none (purgeStaleAndSelectEviction clock purged s).candidate :=
  selects (entries s) { purgedStale := purged, state := { s with reads := s.reads + 1 } }

/-- The candidate is held, it is the first of what is held, and all of that is alive. -/
theorem candidate_held {purged : Bool} {s : State K V} {key : K} {entry : Entry V}
    (hc : (purgeStaleAndSelectEviction clock purged s).candidate = some (key, entry)) :
    (purgeStaleAndSelectEviction clock purged s).state.data.lookup key = some entry ∧
      Leaves ((purgeStaleAndSelectEviction clock purged s).state.data.lookup ·) (clock s.reads)
        entry .evict := by
  have hselects := selection_selects clock purged s
  constructor
  · cases hselects.met _ hc with
    | inl hnone => cases hnone
    | inr hmet => exact selection_lookup.mpr ⟨mem_entries.mp hmet.1, hmet.2⟩
  · intro k other hother
    have hlive := selection_lookup.mp hother
    refine ⟨hlive.2, ?_⟩
    obtain ⟨c, hc', hfirst⟩ := hselects.first ⟨k, other⟩ (mem_entries.mpr hlive.1) hlive.2
    rw [hc] at hc'
    cases hc'
    exact hfirst

theorem candidate_none {purged : Bool} {s : State K V}
    (hc : (purgeStaleAndSelectEviction clock purged s).candidate = none) :
    size (purgeStaleAndSelectEviction clock purged s).state = 0 := by
  have hselects := selection_selects clock purged s
  rw [size, List.length_eq_zero_iff, List.eq_nil_iff_forall_not_mem]
  intro key hkey
  obtain ⟨entry, hentry⟩ := Option.isSome_iff_exists.mp (AList.lookup_isSome.mpr hkey)
  have hlive := selection_lookup.mp hentry
  obtain ⟨c, hc', -⟩ := hselects.first ⟨key, entry⟩ (mem_entries.mpr hlive.1) hlive.2
  rw [hc] at hc'
  cases hc'

/-- Rounds of the eviction. As many rounds as there are entries are enough. -/
structure Evicted (clock : ℕ → ℚ) (max : WithTop ℕ) (rounds : ℕ) (s s' : State K V) : Prop where
  took : ∃ notes, Took (clock s.reads) s notes (clock s'.reads) s' ∧ ∀ n ∈ notes, n.2.MakesRoom
  armed : Armed clock s → Armed clock s'
  timed : Timed clock s → Timed clock s'
  size : size s ≤ rounds → (TtlCache.size s' : WithTop ℕ) ≤ max

theorem evicted (hclock : Monotone clock) (max : WithTop ℕ) (rounds : ℕ) (purged : Bool)
    (s : State K V) : Evicted clock max rounds s (evictLoop clock max rounds (purged, s)).2 := by
  induction rounds generalizing purged s with
  | zero =>
    refine ⟨⟨[], .idle le_rfl rfl rfl, by simp⟩, id, id, ?_⟩
    intro hsize
    rw [evictLoop, Nat.le_zero.mp hsize]
    exact zero_le
  | succ rounds ih =>
    rw [evictLoop]
    split
    next hfits => exact ⟨⟨[], .idle le_rfl rfl rfl, by simp⟩, id, id, fun _ => hfits⟩
    next hfull =>
      have hswept := @purgeStaleAndSelectEviction_swept K V _ _ clock purged s
      obtain ⟨notes, htook, hnotes⟩ := hswept.took
      have hroom : ∀ n ∈ notes, n.2.MakesRoom := fun n hn => (hnotes n hn).imp fun _ => .inl
      have hfirst : Took (clock s.reads) s notes (clock s.reads)
          (purgeStaleAndSelectEviction clock purged s).state := ⟨htook.replays, htook.disposed⟩
      have hlater : clock s.reads ≤
          clock (purgeStaleAndSelectEviction clock purged s).state.reads := by
        rw [hswept.reads]
        exact hclock (Nat.le_succ _)
      dsimp only
      split
      next hfits =>
        exact ⟨⟨notes, hfirst.later hlater, hroom⟩, fun h => hswept.armed (h.read hclock),
          fun h => hswept.timed (h.read hclock), fun _ => hfits⟩
      next hfull' =>
        split
        next hc =>
          rw [candidate_none hc] at hfull'
          exact absurd zero_le hfull'
        next key entry hc =>
          obtain ⟨hheld, hleaves⟩ := candidate_held hc
          have hcurrent : isCurrent (purgeStaleAndSelectEviction clock purged s).state key entry =
              true := by simp [isCurrent, hheld]
          rw [if_pos hcurrent]
          have hrest := ih (purgeStaleAndSelectEviction clock purged s).purgedStale
            (deleteEntry key .evict (purgeStaleAndSelectEviction clock purged s).state).2
          obtain ⟨notes', htook', hnotes'⟩ := hrest.took
          have hevict := (Took.delete hheld hleaves).later hlater
          rw [deleteEntry_reads] at htook'
          refine ⟨⟨_, hfirst.append (hevict.append htook'), ?_⟩,
            fun h => hrest.armed (hswept.armed (h.read hclock)).delete,
            fun h => hrest.timed (hswept.timed (h.read hclock)).delete, ?_⟩
          · intro n hn
            cases List.mem_append.mp hn with
            | inl hmem => exact hroom n hmem
            | inr hmem =>
              cases hmem with
              | head => exact ⟨key, .inr ⟨entry, rfl⟩⟩
              | tail _ hmem => exact hnotes' n hmem
          · intro hsize
            apply hrest.size
            have hdelete := @deleteEntry_size K V _ _ key .evict entry hheld
            have hle : size (purgeStaleAndSelectEviction clock purged s).state ≤ size s :=
              hswept.size
            omega

theorem purgeToCapacity_room (hclock : Monotone clock) (max : WithTop ℕ) (s : State K V) :
    (∃ notes, Passed clock s notes (purgeToCapacity clock max s) ∧ ∀ n ∈ notes, n.2.MakesRoom) ∧
      (size (purgeToCapacity clock max s) : WithTop ℕ) ≤ max := by
  unfold purgeToCapacity
  split
  next hfits =>
    refine ⟨⟨[], .refl clock s, by simp⟩, ?_⟩
    cases hfits with
    | inl htop => exact htop ▸ le_top
    | inr hle => exact hle
  next =>
    have hevicted := evicted hclock max (size s) false s
    obtain ⟨notes, htook, hnotes⟩ := hevicted.took
    dsimp only
    split
    · refine ⟨⟨notes, ⟨htook.rearm hclock, ?_⟩, hnotes⟩, ?_⟩
      · intro h
        exact (hevicted.armed h.armed).cancel.scheduleNext hclock
      · rw [size, scheduleNextTimer, scheduleTimer_data, cancelTimer_data]
        exact hevicted.size le_rfl
    · exact ⟨⟨notes, ⟨htook, hevicted.timed⟩, hnotes⟩, hevicted.size le_rfl⟩

end Capacity

end TtlCache
end EnboxDwn
