import EnboxDwn.Lib.KeyedMap
import Mathlib.Algebra.Order.Floor.Ring
import Mathlib.Data.Rat.Floor
import Mathlib.Order.WithBot
import Mathlib.Algebra.Order.Monoid.Unbundled.WithTop

/-! The cache whose entries expire: they are dropped when they are met, by a timer, and, once there
are more than the cache holds, before any live one is evicted. Time is read from a clock whose
readings never decrease. -/
namespace EnboxDwn
namespace TtlCache
variable {K V : Type}

/-- What a caller may hand over as a number. -/
inductive Number where
  | notANumber
  | negativeInfinity
  | finite (value : ℚ)
  | infinity

/-- A bound that `isPositiveIntegerOrInfinity` accepts. -/
abbrev Bound := {n : WithTop ℕ // 0 < n}

def positiveIntegerOrInfinity : Number → Option Bound
  | .infinity => some ⟨⊤, WithTop.top_pos⟩
  | .finite value =>
    if h : value.den = 1 ∧ 0 < value.num.toNat then
      some ⟨(value.num.toNat : ℕ), WithTop.coe_pos.mpr h.2⟩
    else none
  | _ => none

def ttlMessage : String := "ttl must be positive integer or Infinity"

/-- An undefined time to live is refused like one that is no bound. -/
def assertTtl (ttl : Option Number) : Except String Bound :=
  match ttl.bind positiveIntegerOrInfinity with
  | some bound => .ok bound
  | none => .error ttlMessage

structure Entry (V : Type) where
  expiresAt : WithTop ℚ
  sequence : ℕ
  value : V

inductive DisposeReason where
  | evict
  | set
  | delete
  | stale

structure Options where
  max : Bound
  noDisposeOnSet : Bool := false
  noUpdateTTL : Bool := false
  ttl : Option Bound := none
  updateAgeOnGet : Bool := false

structure SetOptions where
  noDisposeOnSet : Option Bool := none
  noUpdateTTL : Option Bool := none
  ttl : Option Number := none

structure GetOptions where
  ttl : Option Number := none
  updateAgeOnGet : Option Bool := none

/-- `timer` is the time at which the armed timer is due, `reads` counts the readings of the clock,
and `disposed` holds the calls of the dispose callback. -/
structure State (K V : Type) where
  data : KeyedMap K (Entry V) := ∅
  sequence : ℕ := 0
  timer : Option ℚ := none
  timerExpiresAt : WithTop ℚ := ⊤
  reads : ℕ := 0
  disposed : List (V × K × DisposeReason) := []

def MAX_TIMER_DELAY_MS : ℚ := 2147483647

/-- `options.ttl ?? this.ttl`, checked. -/
def Options.checkedTtl (config : Options) (ttl : Option Number) : Except String Bound :=
  match ttl with
  | some ttl => assertTtl (some ttl)
  | none =>
    match config.ttl with
    | some bound => .ok bound
    | none => assertTtl none

/-! ## The timer -/

def cancelTimer (s : State K V) : State K V :=
  if s.timer.isSome then { s with timer := none, timerExpiresAt := ⊤ } else s

variable (clock : ℕ → ℚ)

def expirationFromTtl (ttl : Bound) (s : State K V) : WithTop ℚ × State K V :=
  match ttl.1 with
  | none => (⊤, s)
  | some ttl => (((clock s.reads + (ttl : ℚ) : ℚ) : WithTop ℚ), { s with reads := s.reads + 1 })

def isExpired (entry : Entry V) (currentTime : ℚ) : Bool :=
  entry.expiresAt ≠ ⊤ && entry.expiresAt ≤ (currentTime : WithTop ℚ)

/-- The delay is whole milliseconds, counted from the reading that is taken for it. -/
def scheduleTimer (expiresAt : WithTop ℚ) (s : State K V) : State K V :=
  match expiresAt with
  | none => s
  | some time =>
    if s.timerExpiresAt ≤ (time : WithTop ℚ) then s
    else
      let s := cancelTimer s
      let now := clock s.reads
      let delay : ℚ := min MAX_TIMER_DELAY_MS (max 0 (⌈time - now⌉ : ℚ))
      { s with reads := s.reads + 1, timer := some (now + delay), timerExpiresAt := (time : WithTop ℚ) }

def size (s : State K V) : ℕ := s.data.keys.length

def entries (s : State K V) : List (Sigma fun _ : K => Entry V) := s.data.entries.reverse

def scheduleNextTimer (s : State K V) : State K V :=
  let nextExpiration := (entries s).foldl
    (fun next e => if e.2.expiresAt < next then e.2.expiresAt else next) ⊤
  scheduleTimer clock nextExpiration s

variable [DecidableEq K]

/-! ## Entries that leave -/

def dispose (value : V) (key : K) (reason : DisposeReason) (s : State K V) : State K V :=
  { s with disposed := s.disposed ++ [(value, key, reason)] }

def deleteEntry (key : K) (reason : DisposeReason) (s : State K V) : Bool × State K V :=
  match s.data.lookup key with
  | none => (false, s)
  | some entry =>
    let s := { s with data := s.data.erase key }
    let s := if size s = 0 then cancelTimer s else s
    (true, dispose entry.value key reason s)

def purgeStaleLoop (currentTime : ℚ) :
    List (Sigma fun _ : K => Entry V) → Bool × State K V → Bool × State K V
  | [], found => found
  | e :: rest, (purged, s) =>
    if isExpired e.2 currentTime then purgeStaleLoop currentTime rest (true, (deleteEntry e.1 .stale s).2)
    else purgeStaleLoop currentTime rest (purged, s)

/-- The private loop over the entries; the entries deleted on the way are the visited ones. -/
def purgeStaleEntries (s : State K V) : Bool × State K V :=
  purgeStaleLoop (clock s.reads) (entries s) (false, { s with reads := s.reads + 1 })

def purgeStale (s : State K V) : Bool × State K V :=
  let hadTimer := s.timer.isSome
  let (purged, s) := purgeStaleEntries clock s
  if purged && hadTimer then (purged, scheduleNextTimer clock (cancelTimer s)) else (purged, s)

/-- The callback of the timer; without a timer there is none to be called. -/
def fireTimer (s : State K V) : State K V :=
  if s.timer.isSome then
    scheduleNextTimer clock (purgeStaleEntries clock { s with timer := none, timerExpiresAt := ⊤ }).2
  else s

/-! ## Room for a new entry -/

def isEarlierEntry (entry : Entry V) (selected : Option (K × Entry V)) : Bool :=
  match selected with
  | none => true
  | some (_, selected) =>
    if entry.expiresAt ≠ selected.expiresAt then decide (entry.expiresAt < selected.expiresAt)
    else decide (entry.sequence < selected.sequence)

structure Selection (K V : Type) where
  purgedStale : Bool
  candidate : Option (K × Entry V) := none
  state : State K V

def selectLoop (currentTime : ℚ) :
    List (Sigma fun _ : K => Entry V) → Selection K V → Selection K V
  | [], found => found
  | e :: rest, found =>
    if isExpired e.2 currentTime then
      selectLoop currentTime rest
        { found with purgedStale := true, state := (deleteEntry e.1 .stale found.state).2 }
    else if isEarlierEntry e.2 found.candidate then
      selectLoop currentTime rest { found with candidate := some (e.1, e.2) }
    else selectLoop currentTime rest found

def purgeStaleAndSelectEviction (purgedStale : Bool) (s : State K V) : Selection K V :=
  selectLoop (clock s.reads) (entries s) { purgedStale, state := { s with reads := s.reads + 1 } }

/-- The entry that was selected is still the one under its key. -/
def isCurrent (s : State K V) (key : K) (entry : Entry V) : Bool :=
  match s.data.lookup key with
  | none => false
  | some current => current.expiresAt = entry.expiresAt && current.sequence = entry.sequence

/-- The loop of `_purgeToCapacity`; a round evicts one entry, so that as many rounds as there are
entries are enough. -/
def evictLoop (max : WithTop ℕ) : ℕ → Bool × State K V → Bool × State K V
  | 0, found => found
  | rounds + 1, (purgedStale, s) =>
    if (size s : WithTop ℕ) ≤ max then (purgedStale, s)
    else
      let found := purgeStaleAndSelectEviction clock purgedStale s
      if (size found.state : WithTop ℕ) ≤ max then (found.purgedStale, found.state)
      else
        match found.candidate with
        | none => (found.purgedStale, found.state)
        | some (key, entry) =>
          if isCurrent found.state key entry then
            evictLoop max rounds (found.purgedStale, (deleteEntry key .evict found.state).2)
          else evictLoop max rounds (found.purgedStale, found.state)

def purgeToCapacity (max : WithTop ℕ) (s : State K V) : State K V :=
  if max = ⊤ ∨ (size s : WithTop ℕ) ≤ max then s
  else
    let hadTimer := s.timer.isSome
    let (purgedStale, s) := evictLoop clock max (size s) (false, s)
    if purgedStale && hadTimer then scheduleNextTimer clock (cancelTimer s) else s

/-! ## The operations of a caller -/

variable (config : Options)

/-- An entry found expired is dropped; the clock is read for it. -/
def dropExpired (key : K) (s : State K V) : Bool × State K V :=
  match s.data.lookup key with
  | none => (false, s)
  | some existing =>
    let expired := isExpired existing (clock s.reads)
    let s := { s with reads := s.reads + 1 }
    if expired then (true, (deleteEntry key .stale s).2) else (false, s)

/-- The expiry and the sequence number of an entry: those of the entry that it keeps, or new ones. -/
def stamp (kept : Option (Entry V)) (ttl : Bound) (s : State K V) : (WithTop ℚ × ℕ) × State K V :=
  match kept with
  | some current => ((current.expiresAt, current.sequence), s)
  | none =>
    let (expiresAt, s) := expirationFromTtl clock ttl s
    ((expiresAt, s.sequence + 1), { s with sequence := s.sequence + 1 })

def store (key : K) (entry : Entry V) (s : State K V) : State K V :=
  scheduleTimer clock entry.expiresAt { s with data := KeyedMap.put s.data key entry }

/-- Values are compared as the callers' values are: two that are not the same object differ. -/
def shouldDispose [BEq V] (current : Option (Entry V)) (value : V) (noDisposeOnSet : Bool) : Bool :=
  match current with
  | some current => current.value != value && !noDisposeOnSet
  | none => false

def disposeReplaced [BEq V] (current : Option (Entry V)) (key : K) (value : V)
    (noDisposeOnSet : Bool) (s : State K V) : State K V :=
  match current with
  | some old => if shouldDispose current value noDisposeOnSet then dispose old.value key .set s else s
  | none => s

def set [BEq V] (key : K) (value : V) (options : SetOptions) (s : State K V) :
    Except String Unit × State K V :=
  match config.checkedTtl options.ttl with
  | .error message => (.error message, s)
  | .ok ttl =>
    let noUpdateTTL := options.noUpdateTTL.getD config.noUpdateTTL
    let noDisposeOnSet := options.noDisposeOnSet.getD config.noDisposeOnSet
    let (_, s) := dropExpired clock key s
    let current := s.data.lookup key
    let ((expiresAt, sequence), s) := stamp clock (if noUpdateTTL then current else none) ttl s
    let s := store clock key { expiresAt, sequence, value } s
    let s := disposeReplaced current key value noDisposeOnSet s
    (.ok (), purgeToCapacity clock config.max.1 s)

/-- A held entry starts over with the time to live. -/
def renew (key : K) (entry : Entry V) (ttl : Bound) (s : State K V) : State K V :=
  let ((expiresAt, sequence), s) := stamp clock none ttl s
  store clock key { entry with expiresAt, sequence } s

def get (key : K) (options : GetOptions) (s : State K V) : Except String (Option V) × State K V :=
  match s.data.lookup key with
  | none => (.ok none, s)
  | some entry =>
    let (dropped, s) := dropExpired clock key s
    if dropped then (.ok none, s)
    else if options.updateAgeOnGet.getD config.updateAgeOnGet then
      if options.ttl.isNone && config.ttl.isNone then (.ok (some entry.value), s)
      else
        match config.checkedTtl options.ttl with
        | .error message => (.error message, s)
        | .ok ttl => (.ok (some entry.value), renew clock key entry ttl s)
    else (.ok (some entry.value), s)

def has (key : K) (s : State K V) : Bool × State K V :=
  match s.data.lookup key with
  | none => (false, s)
  | some _ =>
    let (dropped, s) := dropExpired clock key s
    (!dropped, s)

def delete (key : K) (s : State K V) : Bool × State K V := deleteEntry key .delete s

def setTTL (key : K) (ttl : Option Number) (s : State K V) : Except String Unit × State K V :=
  match config.checkedTtl ttl with
  | .error message => (.error message, s)
  | .ok ttl =>
    match s.data.lookup key with
    | none => (.ok (), s)
    | some entry =>
      let (dropped, s) := dropExpired clock key s
      if dropped then (.ok (), s) else (.ok (), renew clock key entry ttl s)

/-! ## Runs -/

inductive Op (K V : Type) where
  | set (key : K) (value : V) (options : SetOptions)
  | get (key : K) (options : GetOptions)
  | has (key : K)
  | delete (key : K)
  | setTTL (key : K) (ttl : Option Number)
  | purgeStale
  | timer

def step [BEq V] (s : State K V) : Op K V → State K V
  | .set key value options => (set clock config key value options s).2
  | .get key options => (get clock config key options s).2
  | .has key => (has clock key s).2
  | .delete key => (delete key s).2
  | .setTTL key ttl => (setTTL clock config key ttl s).2
  | .purgeStale => (purgeStale clock s).2
  | .timer => fireTimer clock s

def run [BEq V] (ops : List (Op K V)) : State K V := ops.foldl (step clock config) {}

end TtlCache
end EnboxDwn
