import EnboxDwn.StoreCalls

/-! Reading the replication log page by page: filtered scans up to the head, and cursors
that never get ahead of an unread row. -/
namespace EnboxDwn
open KeyValues MessageStore

variable [P : Platform]

/-- What a progress token is bound to: the tenant's stream and the epoch of the store. -/
structure StreamDomain where
  streamId : String
  epoch : String
  deriving DecidableEq, Repr

structure ProgressToken extends StreamDomain where
  position : Nat
  messageCid : Option Cid := none
  deriving DecidableEq

inductive ProgressGapReason where
  | streamMismatch
  | epochMismatch
  | tokenTooNew
  | messageMismatch
  deriving DecidableEq, Repr

def ProgressGapReason.toString : ProgressGapReason → String
  | streamMismatch => "stream_mismatch"
  | epochMismatch => "epoch_mismatch"
  | tokenTooNew => "token_too_new"
  | messageMismatch => "message_mismatch"

structure EventLogEntry where
  position : Nat
  message : StoredMessage
  indexes : KeyValues
  messageCid : Cid

structure EventLogReadResult where
  events : List EventLogEntry
  cursor : Option ProgressToken
  drained : Bool

namespace FilterUtility

/-- Only context ids and module paths are hierarchical. -/
def assertValidSubtreeFilters (filters : List Filter) : Except Failure Unit :=
  if filters.all fun filter => filter.all fun (property, value) =>
      match value with
      | .subtree _ => property == "contextId" || property == "modulePath"
      | _ => true
  then .ok ()
  else .error .typeError

end FilterUtility

namespace MessageStore

def getMessageCidAtPosition (log : Log) (position : Nat) : Option Cid :=
  (log.rows.find? fun r => r.seq = position).map Row.cid

def validateCursorPosition (domain : StreamDomain) (head : Nat) (log : Log) (cursor : ProgressToken) :
    Option ProgressGapReason :=
  if cursor.streamId ≠ domain.streamId then some .streamMismatch
  else if cursor.epoch ≠ domain.epoch then some .epochMismatch
  else if head < cursor.position then some .tokenTooNew
  else
    match cursor.messageCid, getMessageCidAtPosition log cursor.position with
    | some messageCid, some positionMessageCid =>
      if positionMessageCid ≠ messageCid then some .messageMismatch else none
    | _, _ => none

def validateCursor (domain : StreamDomain) (head : Nat) (log : Log) (cursor : ProgressToken) :
    Except Failure Unit :=
  match validateCursorPosition domain head log cursor with
  | none => .ok ()
  | some reason => .error (.dwnError ⟨.other "EventLogProgressGap",
      "progress token gap: " ++ reason.toString⟩)

def buildToken (domain : StreamDomain) (position : Nat) (messageCid : Option Cid) :
    ProgressToken :=
  { domain with position, messageCid }

def readEventFromLogEntry (r : Row) : EventLogEntry where
  position := r.seq
  message := r.message
  indexes := r.indexes
  messageCid := r.cid

def selects (filters : Option (List Filter)) (r : Row) : Bool :=
  match filters with
  | none => true
  | some filters => FilterUtility.matchAnyFilter r.indexes filters

/-- The state of the scan of one page. -/
structure LogScan where
  events : List EventLogEntry := []
  drained : Bool := true
  lastScannedPosition : Nat
  lastDelivered : Option (Nat × Cid) := none

/-- Reads rows in the order of their positions until the page is full. -/
def scanLog (filters : Option (List Filter)) (maxResults : Int) (head : Nat) :
    List Row → LogScan → LogScan
  | [], scan => scan
  | r :: rows, scan =>
    if selects filters r then
      let events := scan.events ++ [readEventFromLogEntry r]
      if maxResults ≤ events.length then
        { events, drained := decide (head ≤ r.seq), lastScannedPosition := r.seq
          lastDelivered := some (r.seq, r.cid) }
      else
        scanLog filters maxResults head rows
          { scan with events, lastScannedPosition := r.seq, lastDelivered := some (r.seq, r.cid) }
    else
      scanLog filters maxResults head rows { scan with lastScannedPosition := r.seq }

/-- The rows after one position and up to another, in the order of their keys. -/
def logRange (log : Log) (start head : Nat) : List Row :=
  (log.rows.filter fun r => start < r.seq ∧ r.seq ≤ head).insertionSort fun a b => a.seq ≤ b.seq

def maxSafeInteger : Int := 9007199254740991

/-- The cursor is the head when the scan completed and the last position scanned
otherwise; it names a message only when it stands on a row that was delivered. -/
def LogScan.result (domain : StreamDomain) (head : Nat) (scan : LogScan) : EventLogReadResult :=
  let cursorPosition := if scan.drained then head else scan.lastScannedPosition
  let cursorMessageCid := scan.lastDelivered.bind fun (position, messageCid) =>
    if position = cursorPosition then some messageCid else none
  { events := scan.events
    cursor := some (buildToken domain cursorPosition cursorMessageCid)
    drained := scan.drained }

def positionOf (cursor : Option ProgressToken) : Nat := (cursor.map ProgressToken.position).getD 0

/-- The rest of a read after the head is captured: rows committed since wait for the next
page. -/
def logPage (domain : StreamDomain) (head : Nat) (log : Log) (cursor : Option ProgressToken)
    (limit : Option Int) (filters : Option (List Filter)) :
    Except Failure EventLogReadResult := do
  cursor.forM (validateCursor domain head log)
  let startPosition := positionOf cursor
  let maxResults := limit.getD maxSafeInteger
  if head = 0 then
    .ok { events := [], cursor := some (cursor.getD (buildToken domain 0 none)), drained := true }
  else if maxResults ≤ 0 then
    .ok { events := [], cursor, drained := decide (head ≤ startPosition) }
  else if head ≤ startPosition then
    .ok { events := [], cursor, drained := true }
  else do
    Replication.assertPositionEncodable startPosition
    Replication.assertPositionEncodable head
    let scan := scanLog filters maxResults head (logRange log startPosition head)
      { lastScannedPosition := startPosition }
    return scan.result domain head

def logRead (domain : StreamDomain) (log : Log) (cursor : Option ProgressToken)
    (limit : Option Int) (filters : Option (List Filter)) :
    Except Failure EventLogReadResult := do
  FilterUtility.assertValidSubtreeFilters (filters.getD [])
  logPage domain log.head log cursor limit filters

/-! ## One page -/

section Scan
variable (filters : Option (List Filter)) (maxResults : Int) (head : Nat)

/-- The scan reads a part of the rows from the front: all of them, or up to a row it
selected, where the page is full. -/
theorem scanLog_spec (rows : List Row) (scan : LogScan) :
    ∃ done rest, rows = done ++ rest ∧
      (scanLog filters maxResults head rows scan).events =
        scan.events ++ (done.filter (selects filters)).map readEventFromLogEntry ∧
      ((rest = [] ∧ (scanLog filters maxResults head rows scan).drained = scan.drained) ∨
        ∃ front r, done = front ++ [r] ∧ selects filters r = true ∧
          (scanLog filters maxResults head rows scan).drained = decide (head ≤ r.seq) ∧
          (scanLog filters maxResults head rows scan).lastScannedPosition = r.seq) := by
  induction rows generalizing scan with
  | nil => exact ⟨[], [], rfl, by simp [scanLog], Or.inl ⟨rfl, rfl⟩⟩
  | cons r rows ih =>
    unfold scanLog
    by_cases hsel : selects filters r = true
    · simp only [hsel, if_true]
      by_cases hfull : maxResults ≤ ((scan.events ++ [readEventFromLogEntry r]).length : Int)
      · rw [if_pos hfull]
        exact ⟨[r], rows, rfl, by simp [hsel], Or.inr ⟨[], r, rfl, hsel, rfl, rfl⟩⟩
      · rw [if_neg hfull]
        obtain ⟨done, rest, hrows, hevents, hend⟩ := ih
          { scan with events := scan.events ++ [readEventFromLogEntry r]
                      lastScannedPosition := r.seq, lastDelivered := some (r.seq, r.cid) }
        refine ⟨r :: done, rest, by rw [hrows]; rfl, by rw [hevents]; simp [hsel], ?_⟩
        obtain hend | ⟨front, r', hdone, hend⟩ := hend
        · exact Or.inl hend
        · exact Or.inr ⟨r :: front, r', by rw [hdone]; rfl, hend⟩
    · simp only [hsel, Bool.false_eq_true, if_false]
      obtain ⟨done, rest, hrows, hevents, hend⟩ := ih { scan with lastScannedPosition := r.seq }
      refine ⟨r :: done, rest, by rw [hrows]; rfl, by rw [hevents]; simp [hsel], ?_⟩
      obtain hend | ⟨front, r', hdone, hend⟩ := hend
      · exact Or.inl hend
      · exact Or.inr ⟨r :: front, r', by rw [hdone]; rfl, hend⟩

variable {filters maxResults head}

theorem lastDelivered_scanLog (rows : List Row) (scan : LogScan) {position : Nat} {c : Cid}
    (h : (scanLog filters maxResults head rows scan).lastDelivered = some (position, c)) :
    scan.lastDelivered = some (position, c) ∨ ∃ r ∈ rows, r.seq = position ∧ r.cid = c := by
  induction rows generalizing scan with
  | nil => exact Or.inl h
  | cons r rows ih =>
    unfold scanLog at h
    by_cases hsel : selects filters r = true
    · simp only [hsel, if_true] at h
      by_cases hfull : maxResults ≤ ((scan.events ++ [readEventFromLogEntry r]).length : Int)
      · rw [if_pos hfull] at h
        simp only [Option.some.injEq, Prod.mk.injEq] at h
        exact Or.inr ⟨r, by simp, h⟩
      · rw [if_neg hfull] at h
        obtain h | ⟨r', hr', h⟩ := ih _ h
        · simp only [Option.some.injEq, Prod.mk.injEq] at h
          exact Or.inr ⟨r, by simp, h⟩
        · exact Or.inr ⟨r', List.mem_cons_of_mem _ hr', h⟩
    · simp only [hsel, Bool.false_eq_true, if_false] at h
      obtain h | ⟨r', hr', h⟩ := ih _ h
      · exact Or.inl h
      · exact Or.inr ⟨r', List.mem_cons_of_mem _ hr', h⟩

theorem length_scanLog (rows : List Row) (scan : LogScan)
    (h : (scan.events.length : Int) < maxResults) :
    ((scanLog filters maxResults head rows scan).events.length : Int) ≤ maxResults := by
  induction rows generalizing scan with
  | nil => exact h.le
  | cons r rows ih =>
    unfold scanLog
    by_cases hsel : selects filters r = true
    · simp only [hsel, if_true]
      by_cases hfull : maxResults ≤ ((scan.events ++ [readEventFromLogEntry r]).length : Int)
      · rw [if_pos hfull]
        simp only [List.length_append, List.length_singleton]
        omega
      · rw [if_neg hfull]
        exact ih _ (not_le.mp hfull)
    · simp only [hsel, Bool.false_eq_true, if_false]
      exact ih _ h

theorem full_scanLog (rows : List Row) (scan : LogScan) :
    (scanLog filters maxResults head rows scan).drained = scan.drained ∨
      maxResults ≤ ((scanLog filters maxResults head rows scan).events.length : Int) := by
  induction rows generalizing scan with
  | nil => exact Or.inl rfl
  | cons r rows ih =>
    unfold scanLog
    by_cases hsel : selects filters r = true
    · simp only [hsel, if_true]
      by_cases hfull : maxResults ≤ ((scan.events ++ [readEventFromLogEntry r]).length : Int)
      · rw [if_pos hfull]
        exact Or.inr hfull
      · rw [if_neg hfull]
        exact ih _
    · simp only [hsel, Bool.false_eq_true, if_false]
      exact ih _

end Scan

theorem logRange_eq {log : Log} (hlog : log.Positioned) (start head : Nat) :
    logRange log start head = log.rows.filter fun r => start < r.seq ∧ r.seq ≤ head := by
  refine List.Pairwise.insertionSort_eq ?_
  have hrows : log.rows.Pairwise fun a b => a.seq ≤ b.seq :=
    (List.pairwise_map.mp hlog.rising).imp fun h => h.le
  exact hrows.sublist List.filter_sublist

/-- A page holds the selected rows between the cursor it was asked for and the cursor it
returns, which stands on no unread row. -/
structure PageOf (domain : StreamDomain) (head : Nat) (log : Log) (filters : Option (List Filter))
    (cursor : Option ProgressToken) (page : EventLogReadResult) : Prop where
  forward : positionOf cursor ≤ positionOf page.cursor
  bounded : positionOf page.cursor ≤ max (positionOf cursor) head
  events : page.events = (log.rows.filter fun r => selects filters r = true ∧
    positionOf cursor < r.seq ∧ r.seq ≤ positionOf page.cursor).map readEventFromLogEntry
  drained : page.drained = true → head ≤ positionOf page.cursor
  token : page.cursor = cursor ∨ ∃ token, page.cursor = some token ∧
    token.toStreamDomain = domain ∧
    ∀ c, token.messageCid = some c → ∃ r ∈ log.rows, r.seq = token.position ∧ r.cid = c

section Page
variable {domain : StreamDomain} {head : Nat} {log : Log} {filters : Option (List Filter)}
  {cursor : Option ProgressToken} {limit : Option Int} {page : EventLogReadResult}

theorem pageOf_unmoved {drained : Bool} (h : drained = true → head ≤ positionOf cursor) :
    PageOf domain head log filters cursor { events := [], cursor, drained } where
  forward := le_rfl
  bounded := le_max_left _ _
  events := by
    symm
    rw [List.map_eq_nil_iff, List.filter_eq_nil_iff]
    intro r _ hr
    have hbetween : positionOf cursor < r.seq ∧ r.seq ≤ positionOf cursor :=
      (of_decide_eq_true hr).2
    omega
  drained := h
  token := Or.inl rfl

theorem pageOf_scan (hlog : log.Positioned) (maxResults : Int)
    (hstart : positionOf cursor < head) :
    PageOf domain head log filters cursor ((scanLog filters maxResults head
      (logRange log (positionOf cursor) head)
      { lastScannedPosition := positionOf cursor }).result domain head) := by
  rw [logRange_eq hlog]
  generalize hrange : (log.rows.filter fun r => positionOf cursor < r.seq ∧ r.seq ≤ head) = range
  have hmem : ∀ r, r ∈ range ↔ r ∈ log.rows ∧ positionOf cursor < r.seq ∧ r.seq ≤ head := by
    intro r
    rw [← hrange, List.mem_filter, decide_eq_true_eq]
  have hrising : range.Pairwise fun a b => a.seq < b.seq := by
    rw [← hrange]
    exact (List.pairwise_map.mp hlog.rising).sublist List.filter_sublist
  generalize hscan : scanLog filters maxResults head range
    { lastScannedPosition := positionOf cursor } = scan
  obtain ⟨done, rest, hdone, hevents, hend⟩ :=
    scanLog_spec filters maxResults head range { lastScannedPosition := positionOf cursor }
  rw [hscan] at hevents hend
  -- where the scan stopped, and that everything up to there was read
  generalize hpos : (if scan.drained then head else scan.lastScannedPosition) = pos
  have hposition : positionOf (scan.result domain head).cursor = pos := by
    rw [← hpos]
    rfl
  have hstop : positionOf cursor < pos ∧ pos ≤ head ∧
      done = range.filter fun r => r.seq ≤ pos := by
    obtain ⟨hrest, hdrained⟩ | ⟨front, r, hfront, -, hdrained, hlast⟩ := hend
    · rw [hdrained, if_pos rfl] at hpos
      refine ⟨by omega, by omega, ?_⟩
      rw [hrest, List.append_nil] at hdone
      rw [← hdone]
      symm
      rw [List.filter_eq_self]
      intro r hr
      have := ((hmem r).mp hr).2.2
      exact decide_eq_true (by omega)
    · have hr : r ∈ range := by rw [hdone, hfront]; simp
      have hbound := ((hmem r).mp hr).2
      have heq : pos = r.seq := by
        rw [← hpos, hdrained, hlast]
        by_cases hhead : head ≤ r.seq
        · simp only [hhead, decide_true, if_true]
          omega
        · simp [hhead]
      refine ⟨by omega, by omega, ?_⟩
      rw [hdone, List.pairwise_append] at hrising
      rw [hdone, List.filter_append, List.filter_eq_self.mpr, List.filter_eq_nil_iff.mpr,
        List.append_nil]
      · intro r' hr' hle
        have := hrising.2.2 r (by simp [hfront]) r' hr'
        have := of_decide_eq_true hle
        omega
      · intro r' hr'
        refine decide_eq_true ?_
        rw [hfront] at hr'
        obtain hr' | hr' := List.mem_append.mp hr'
        · rw [hfront, List.pairwise_append] at hrising
          have := hrising.1.2.2 r' hr' r (by simp)
          omega
        · rw [List.mem_singleton.mp hr']
          omega
  obtain ⟨hafter, hhead, hdone⟩ := hstop
  refine ⟨by omega, by omega, ?_, ?_, ?_⟩
  · have hresult : (scan.result domain head).events = scan.events := rfl
    rw [hposition, hresult, hevents, hdone, ← hrange, List.filter_filter, List.filter_filter,
      List.nil_append]
    congr 1
    refine List.filter_congr fun r _ => ?_
    rw [Bool.eq_iff_iff]
    simp only [Bool.and_eq_true, decide_eq_true_eq]
    constructor
    · intro ⟨⟨hsel, hle⟩, hlt, _⟩
      exact ⟨hsel, hlt, hle⟩
    · intro ⟨hsel, hlt, hle⟩
      exact ⟨⟨hsel, hle⟩, hlt, by omega⟩
  · intro hdrained
    have : scan.drained = true := hdrained
    rw [hposition, ← hpos, if_pos this]
  · refine Or.inr ⟨_, rfl, rfl, fun c hc => ?_⟩
    obtain ⟨⟨position, c'⟩, hlast, hc⟩ := Option.bind_eq_some_iff.mp hc
    dsimp only at hc
    by_cases hp : position = if scan.drained then head else scan.lastScannedPosition
    · rw [if_pos hp, Option.some.injEq] at hc
      rw [← hscan] at hlast
      obtain h | ⟨r, hr, hseq, hcid⟩ := lastDelivered_scanLog _ _ hlast
      · cases h
      · exact ⟨r, ((hmem r).mp hr).1, hseq.trans hp, hcid.trans hc⟩
    · rw [if_neg hp] at hc
      cases hc

theorem pageOf_logPage (hlog : log.Positioned)
    (h : logPage domain head log cursor limit filters = .ok page) :
    PageOf domain head log filters cursor page := by
  unfold logPage at h
  obtain ⟨_, -, h⟩ := bind_eq_ok h
  dsimp only at h
  by_cases hzero : head = 0
  · rw [if_pos hzero] at h
    cases h
    cases cursor with
    | some token => exact pageOf_unmoved fun _ => by omega
    | none =>
      refine ⟨le_rfl, le_max_left _ _, ?_, fun _ => by omega, Or.inr ⟨_, rfl, rfl, fun c hc => by cases hc⟩⟩
      symm
      rw [List.map_eq_nil_iff, List.filter_eq_nil_iff]
      intro r hr
      simp only [decide_eq_true_eq, not_and, not_le]
      exact fun _ hafter => hafter
  · rw [if_neg hzero] at h
    by_cases hlimit : limit.getD maxSafeInteger ≤ 0
    · rw [if_pos hlimit] at h
      cases h
      exact pageOf_unmoved fun hdrained => of_decide_eq_true hdrained
    · rw [if_neg hlimit] at h
      by_cases hcaught : head ≤ positionOf cursor
      · rw [if_pos hcaught] at h
        cases h
        exact pageOf_unmoved fun _ => hcaught
      · rw [if_neg hcaught] at h
        obtain ⟨_, -, h⟩ := bind_eq_ok h
        obtain ⟨_, -, h⟩ := bind_eq_ok h
        cases h
        exact pageOf_scan hlog _ (by omega)

theorem pageOf_logRead (hlog : log.Positioned)
    (h : logRead domain log cursor limit filters = .ok page) :
    PageOf domain log.head log filters cursor page := by
  obtain ⟨_, -, h⟩ := bind_eq_ok h
  exact pageOf_logPage hlog h

/-- No more entries are returned than were asked for. -/
theorem length_logPage {n : Nat} (h : logPage domain head log cursor (some n) filters = .ok page) :
    page.events.length ≤ n := by
  unfold logPage at h
  obtain ⟨_, -, h⟩ := bind_eq_ok h
  dsimp only at h
  by_cases hzero : head = 0
  · rw [if_pos hzero] at h
    cases h
    exact Nat.zero_le _
  · rw [if_neg hzero] at h
    by_cases hlimit : (some (n : Int)).getD maxSafeInteger ≤ 0
    · rw [if_pos hlimit] at h
      cases h
      exact Nat.zero_le _
    · rw [if_neg hlimit] at h
      by_cases hcaught : head ≤ positionOf cursor
      · rw [if_pos hcaught] at h
        cases h
        exact Nat.zero_le _
      · rw [if_neg hcaught] at h
        obtain ⟨_, -, h⟩ := bind_eq_ok h
        obtain ⟨_, -, h⟩ := bind_eq_ok h
        cases h
        have hpos : (([] : List EventLogEntry).length : Int) < n := by
          simp only [Option.getD_some, not_le] at hlimit
          exact hlimit
        exact Int.ofNat_le.mp (length_scanLog _ { lastScannedPosition := positionOf cursor } hpos)

theorem full_logPage {n : Nat} (hpos : 0 < n)
    (h : logPage domain head log cursor (some n) filters = .ok page) :
    page.drained = true ∨ n ≤ page.events.length := by
  unfold logPage at h
  obtain ⟨_, -, h⟩ := bind_eq_ok h
  dsimp only at h
  by_cases hzero : head = 0
  · rw [if_pos hzero] at h
    cases h
    exact Or.inl rfl
  · rw [if_neg hzero] at h
    by_cases hlimit : (some (n : Int)).getD maxSafeInteger ≤ 0
    · rw [Option.getD_some] at hlimit
      omega
    · rw [if_neg hlimit] at h
      by_cases hcaught : head ≤ positionOf cursor
      · rw [if_pos hcaught] at h
        cases h
        exact Or.inl rfl
      · rw [if_neg hcaught] at h
        obtain ⟨_, -, h⟩ := bind_eq_ok h
        obtain ⟨_, -, h⟩ := bind_eq_ok h
        cases h
        obtain hdrained | hfull := full_scanLog _ { lastScannedPosition := positionOf cursor }
        · exact Or.inl hdrained
        · exact Or.inr (Int.ofNat_le.mp hfull)

def Resumable (domain : StreamDomain) (log : Log) (cursor : Option ProgressToken) : Prop :=
  ∀ token, cursor = some token → validateCursorPosition domain log.head log token = none

theorem logPage_returns (hlog : log.Positioned) (hhead : head ≤ log.head)
    (hcursor : ∀ token, cursor = some token → validateCursorPosition domain head log token = none) :
    ∃ page, logPage domain head log cursor limit filters = .ok page := by
  have hvalid : cursor.forM (validateCursor domain head log) = .ok () := by
    cases cursor with
    | none => rfl
    | some token =>
      change validateCursor domain head log token = .ok ()
      unfold validateCursor
      rw [hcursor token rfl]
  unfold logPage
  rw [hvalid]
  dsimp only [ok_bind]
  by_cases hzero : head = 0
  · rw [if_pos hzero]
    exact ⟨_, rfl⟩
  · rw [if_neg hzero]
    by_cases hlimit : limit.getD maxSafeInteger ≤ 0
    · rw [if_pos hlimit]
      exact ⟨_, rfl⟩
    · rw [if_neg hlimit]
      by_cases hcaught : head ≤ positionOf cursor
      · rw [if_pos hcaught]
        exact ⟨_, rfl⟩
      · rw [if_neg hcaught]
        have hroom := hlog.encodable
        have hend : head < Replication.positionLimit := by omega
        have hstart : positionOf cursor < Replication.positionLimit := by omega
        exact ⟨_, by simp [Replication.assertPositionEncodable, hend, hstart]; rfl⟩

theorem logRead_returns (hlog : log.Positioned) (hcursor : Resumable domain log cursor)
    (hfilters : FilterUtility.assertValidSubtreeFilters (filters.getD []) = .ok ()) :
    ∃ page, logRead domain log cursor limit filters = .ok page := by
  unfold logRead
  rw [hfilters]
  exact logPage_returns hlog le_rfl hcursor

theorem validateCursorPosition_eq_none {token : ProgressToken} :
    validateCursorPosition domain head log token = none ↔
      token.toStreamDomain = domain ∧ token.position ≤ head ∧
        ∀ c c', token.messageCid = some c → getMessageCidAtPosition log token.position = some c' →
          c' = c := by
  unfold validateCursorPosition
  have hdomain : token.toStreamDomain = domain ↔
      token.streamId = domain.streamId ∧ token.epoch = domain.epoch := by
    cases token.toStreamDomain
    cases domain
    simp
  rw [hdomain]
  by_cases hstream : token.streamId = domain.streamId
  · by_cases hepoch : token.epoch = domain.epoch
    · by_cases hhead : head < token.position
      · simp [hstream, hepoch, hhead]
      · have hle : token.position ≤ head := by omega
        simp only [hstream, hepoch, hhead, hle, ne_eq, not_true_eq_false, if_false, true_and,
          and_self]
        cases hc : token.messageCid with
        | none => simp
        | some c =>
          cases hc' : getMessageCidAtPosition log token.position with
          | none => simp
          | some c' =>
            by_cases heq : c' = c
            · simp [heq]
            · simp [heq]
    · simp [hstream, hepoch]
  · simp [hstream]

theorem getMessageCidAtPosition_eq_some {position : Nat} {c : Cid}
    (h : getMessageCidAtPosition log position = some c) :
    ∃ r ∈ log.rows, r.seq = position ∧ r.cid = c := by
  obtain ⟨r, hr, hc⟩ := Option.map_eq_some_iff.mp h
  exact ⟨r, List.mem_of_find?_eq_some hr, by simpa using List.find?_some hr, hc⟩

/-- Positions are not issued twice, so a cursor stays valid while the log evolves. -/
theorem Resumable.evolves {log' : Log} (hcursor : Resumable domain log cursor)
    (hlog : log.Positioned) (h : log.Evolves log') : Resumable domain log' cursor := by
  intro token htoken
  obtain ⟨hdomain, hle, hcid⟩ := validateCursorPosition_eq_none.mp (hcursor token htoken)
  refine validateCursorPosition_eq_none.mpr ⟨hdomain, hle.trans h.head_le, ?_⟩
  intro c c' hc hc'
  obtain ⟨r', hr', hseq', rfl⟩ := getMessageCidAtPosition_eq_some hc'
  obtain hnew | ⟨r, hr, hseq, hcid'⟩ := h.row r' hr'
  · omega
  · have hfind : getMessageCidAtPosition log token.position = some r.cid := by
      have hrow : log.rows.find? (fun x => x.seq = token.position) = some r := by
        rw [← hseq', ← hseq]
        exact Selection.find?_of_nodup_map (hlog.rising.imp fun h => h.ne) hr
      simp [getMessageCidAtPosition, hrow]
    rw [← hcid']
    exact hcid c _ hc hfind

/-- A returned cursor is accepted by the store. -/
theorem PageOf.resumable (h : PageOf domain head log filters cursor page) (hlog : log.Positioned)
    (hhead : head ≤ log.head)
    (hcursor : Resumable domain log cursor) : Resumable domain log page.cursor := by
  obtain heq | ⟨token, htoken, hdomain, hcid⟩ := h.token
  · rw [heq]
    exact hcursor
  · intro token' htoken'
    rw [htoken, Option.some.injEq] at htoken'
    subst htoken'
    have hstart : positionOf cursor ≤ log.head := by
      cases hc : cursor with
      | none => exact Nat.zero_le _
      | some token => exact (validateCursorPosition_eq_none.mp (hcursor token hc)).2.1
    have hbound := h.bounded
    have hposition : token.position ≤ log.head := by
      rw [htoken] at hbound
      exact hbound.trans (max_le hstart hhead)
    refine validateCursorPosition_eq_none.mpr ⟨hdomain, hposition, ?_⟩
    intro c c' hc hc'
    obtain ⟨r, hr, hseq, rfl⟩ := hcid c hc
    obtain ⟨r', hr', hseq', rfl⟩ := getMessageCidAtPosition_eq_some hc'
    have hsame : r' = r := List.inj_on_of_nodup_map (hlog.rising.imp fun h => h.ne) hr' hr
      (hseq'.trans hseq.symm)
    rw [hsame]

end Page

end MessageStore

/-! ## A reader among writers -/

/-- A reader with its cursor and everything it was given, beside the log it reads. -/
structure FeedReader where
  log : Log
  cursor : Option ProgressToken := none
  returned : List EventLogEntry := []

inductive FeedAction where
  | mutate (call : StoreCall)
  | read (limit : Option Int)

namespace FeedReader
variable (domain : StreamDomain) (filters : Option (List Filter))

def step (w : FeedReader) : FeedAction → FeedReader
  | .mutate call => { w with log := call.apply w.log }
  | .read limit =>
    match logRead domain w.log w.cursor limit filters with
    | .ok page => { w with cursor := page.cursor, returned := w.returned ++ page.events }
    | .error _ => w

def run (w : FeedReader) (actions : List FeedAction) : FeedReader :=
  actions.foldl (step domain filters) w

def position (w : FeedReader) : Nat := positionOf w.cursor

/-- A row with the given position and CID is live and selected. -/
def Shows (w : FeedReader) (position : Nat) (c : Cid) : Prop :=
  ∃ r ∈ w.log.rows, r.seq = position ∧ r.cid = c ∧ selects filters r = true

instance (w : FeedReader) (position : Nat) (c : Cid) : Decidable (w.Shows filters position c) :=
  inferInstanceAs (Decidable (∃ r ∈ w.log.rows, _))

variable {domain filters} {w : FeedReader}

/-- The reader has been given rising positions up to its cursor. -/
structure Reading (w : FeedReader) : Prop where
  log : w.log.Positioned
  rising : (w.returned.map EventLogEntry.position).Pairwise (· < ·)
  passed : ∀ e ∈ w.returned, e.position ≤ w.position

theorem Reading.page (h : Reading w) {page : EventLogReadResult}
    (hpage : PageOf domain w.log.head w.log filters w.cursor page) :
    Reading { w with cursor := page.cursor, returned := w.returned ++ page.events } where
  log := h.log
  rising := by
    rw [List.map_append, List.pairwise_append]
    refine ⟨h.rising, ?_, ?_⟩
    · rw [hpage.events, List.map_map]
      exact (List.pairwise_map.mp h.log.rising).sublist List.filter_sublist |> List.pairwise_map.mpr
    · intro a ha b hb
      obtain ⟨e, he, rfl⟩ := List.mem_map.mp ha
      obtain ⟨e', he', rfl⟩ := List.mem_map.mp hb
      rw [hpage.events] at he'
      obtain ⟨r, hr, rfl⟩ := List.mem_map.mp he'
      have hbetween := (of_decide_eq_true (List.mem_filter.mp hr).2).2
      exact lt_of_le_of_lt (h.passed e he) hbetween.1
  passed := by
    intro e he
    obtain he | he := List.mem_append.mp he
    · exact (h.passed e he).trans hpage.forward
    · rw [hpage.events] at he
      obtain ⟨r, hr, rfl⟩ := List.mem_map.mp he
      exact (of_decide_eq_true (List.mem_filter.mp hr).2).2.2

theorem Reading.step (h : Reading w) (action : FeedAction) :
    Reading (w.step domain filters action) := by
  cases action with
  | mutate call => exact ⟨StoreCall.positioned_apply h.log call, h.rising, h.passed⟩
  | read limit =>
    simp only [FeedReader.step]
    cases hread : logRead domain w.log w.cursor limit filters with
    | error e => exact h
    | ok page => exact h.page (pageOf_logRead h.log hread)

theorem Reading.run (h : Reading w) (actions : List FeedAction) :
    Reading (w.run domain filters actions) := by
  induction actions generalizing w with
  | nil => exact h
  | cons action actions ih => exact ih (h.step action)

theorem returned_subset_step (w : FeedReader) (action : FeedAction) :
    w.returned ⊆ (w.step domain filters action).returned := by
  cases action with
  | mutate call => exact List.Subset.refl _
  | read limit =>
    simp only [step]
    cases logRead domain w.log w.cursor limit filters with
    | error e => exact List.Subset.refl _
    | ok page => exact List.subset_append_left _ _

theorem returned_subset_run (w : FeedReader) (actions : List FeedAction) :
    w.returned ⊆ (w.run domain filters actions).returned := by
  induction actions generalizing w with
  | nil => exact List.Subset.refl _
  | cons action actions ih =>
    exact List.Subset.trans (returned_subset_step w action) (ih (w.step domain filters action))

/-- The read whose cursor passes a row that is live and selected returns it. -/
theorem Reading.returned_step (h : Reading w) (action : FeedAction) {position : Nat} {c : Cid}
    (hbefore : w.position < position) (hrow : w.Shows filters position c)
    (hafter : position ≤ (w.step domain filters action).position) :
    ∃ e ∈ (w.step domain filters action).returned, e.position = position ∧ e.messageCid = c := by
  cases action with
  | mutate call =>
    have : position ≤ w.position := hafter
    omega
  | read limit =>
    simp only [FeedReader.step] at hafter ⊢
    cases hread : logRead domain w.log w.cursor limit filters with
    | error e =>
      rw [hread] at hafter
      have : position ≤ w.position := hafter
      omega
    | ok page =>
      rw [hread] at hafter
      obtain ⟨r, hr, rfl, rfl, hsel⟩ := hrow
      have hpage := pageOf_logRead h.log hread
      refine ⟨readEventFromLogEntry r, List.mem_append_right _ ?_, rfl, rfl⟩
      rw [hpage.events]
      refine List.mem_map_of_mem (List.mem_filter.mpr ⟨hr, decide_eq_true ⟨hsel, hbefore, hafter⟩⟩)

/-- A row that stays live and selected until the cursor passes it is returned. -/
theorem Reading.returned_run (h : Reading w) {position : Nat} {c : Cid} (actions : List FeedAction)
    (hbefore : w.position < position)
    (hrow : ∀ l, l <+: actions → (w.run domain filters l).position < position →
      (w.run domain filters l).Shows filters position c)
    (hafter : position ≤ (w.run domain filters actions).position) :
    ∃ e ∈ (w.run domain filters actions).returned, e.position = position ∧ e.messageCid = c := by
  induction actions generalizing w with
  | nil =>
    have : position ≤ w.position := hafter
    omega
  | cons action actions ih =>
    by_cases hnext : position ≤ (w.step domain filters action).position
    · obtain ⟨e, he, hpos⟩ := h.returned_step action hbefore
        (hrow [] List.nil_prefix hbefore) hnext
      exact ⟨e, returned_subset_run (w.step domain filters action) actions he, hpos⟩
    · refine ih (h.step action) (by omega) (fun l hl hpos => ?_) hafter
      exact hrow (action :: l) (List.cons_prefix_cons.mpr ⟨rfl, hl⟩) hpos

/-- What was returned before under a CID stood at a lower position. -/
theorem Reading.lt_of_page (h : Reading w) {page : EventLogReadResult}
    (hpage : PageOf domain w.log.head w.log filters w.cursor page) {e e' : EventLogEntry}
    (he : e ∈ page.events) (he' : e' ∈ w.returned) : e'.position < e.position := by
  rw [hpage.events] at he
  obtain ⟨r, hr, rfl⟩ := List.mem_map.mp he
  have hbetween := (of_decide_eq_true (List.mem_filter.mp hr).2).2
  exact lt_of_le_of_lt (h.passed e' he') hbetween.1

theorem resumable_step (hlog : w.log.Positioned) (h : Resumable domain w.log w.cursor)
    (action : FeedAction) : Resumable domain (w.step domain filters action).log
      (w.step domain filters action).cursor := by
  cases action with
  | mutate call => exact h.evolves hlog (StoreCall.evolves_apply _ call)
  | read limit =>
    simp only [step]
    cases hread : logRead domain w.log w.cursor limit filters with
    | error e => exact h
    | ok page => exact (pageOf_logRead hlog hread).resumable hlog le_rfl h

theorem resumable_run (hreading : Reading w) (h : Resumable domain w.log w.cursor)
    (actions : List FeedAction) : Resumable domain (w.run domain filters actions).log
      (w.run domain filters actions).cursor := by
  induction actions generalizing w with
  | nil => exact h
  | cons action actions ih => exact ih (hreading.step action) (resumable_step hreading.log h action)

theorem run_append (w : FeedReader) (pre post : List FeedAction) :
    w.run domain filters (pre ++ post) = (w.run domain filters pre).run domain filters post :=
  List.foldl_append

variable (domain filters) in
/-- Paging beside writers. Positions rise over the whole run; a row that is live and
selected from some point on until the cursor passes it is returned; a page holds live
selected rows where they stand, and what came before under the same CID stood lower; a
drained page leaves no selected row between its cursor and the head; and a reader whose
first cursor the store accepts is never turned away. -/
theorem paging (hlog : w.log.Positioned) (hnew : w.returned = []) (actions : List FeedAction) :
    ((w.run domain filters actions).returned.map EventLogEntry.position).Pairwise (· < ·) ∧
    (∀ pre post, actions = pre ++ post → ∀ position c,
      (w.run domain filters pre).position < position →
      (∀ l, l <+: post → (w.run domain filters (pre ++ l)).position < position →
        (w.run domain filters (pre ++ l)).Shows filters position c) →
      position ≤ (w.run domain filters actions).position →
      ∃ e ∈ (w.run domain filters actions).returned, e.position = position ∧ e.messageCid = c) ∧
    (∀ pre limit page, pre ++ [.read limit] <+: actions →
      logRead domain (w.run domain filters pre).log (w.run domain filters pre).cursor limit
        filters = .ok page →
      (∀ e ∈ page.events,
        (∃ r ∈ (w.run domain filters pre).log.rows,
          e = readEventFromLogEntry r ∧ selects filters r = true) ∧
        ∀ e' ∈ (w.run domain filters pre).returned, e'.messageCid = e.messageCid →
          e'.position < e.position) ∧
      (page.drained = true → ∀ r ∈ (w.run domain filters pre).log.rows,
        selects filters r = true → positionOf page.cursor < r.seq →
          ¬ r.seq ≤ (w.run domain filters pre).log.head)) ∧
    (Resumable domain w.log w.cursor →
      FilterUtility.assertValidSubtreeFilters (filters.getD []) = .ok () →
      ∀ pre, pre <+: actions → ∀ limit, ∃ page, logRead domain (w.run domain filters pre).log
        (w.run domain filters pre).cursor limit filters = .ok page) := by
  have hstart : Reading w := ⟨hlog, by simp [hnew], by simp [hnew]⟩
  refine ⟨(hstart.run actions).rising, ?_, ?_, ?_⟩
  · intro pre post hactions position c hbefore hrow hafter
    subst hactions
    rw [run_append] at hafter ⊢
    refine (hstart.run pre).returned_run post hbefore (fun l hl hpos => ?_) hafter
    rw [← run_append] at hpos ⊢
    exact hrow l hl hpos
  · intro pre limit page _ hread
    have hpre : Reading (w.run domain filters pre) := hstart.run pre
    have hpage := pageOf_logRead hpre.log hread
    constructor
    · intro e he
      refine ⟨?_, fun e' he' _ => hpre.lt_of_page hpage he he'⟩
      rw [hpage.events] at he
      obtain ⟨r, hr, rfl⟩ := List.mem_map.mp he
      obtain ⟨hrow, hsel⟩ := List.mem_filter.mp hr
      exact ⟨r, hrow, rfl, (of_decide_eq_true hsel).1⟩
    · intro hdrained r _ _ hafter hle
      have := hpage.drained hdrained
      omega
  · intro hcursor hfilters pre _ limit
    have hpre : Reading (w.run domain filters pre) := hstart.run pre
    exact logRead_returns hpre.log (resumable_run hstart hcursor pre) hfilters

end FeedReader

end EnboxDwn

namespace EnboxDwn.FeedReader
open KeyValues MessageStore

local instance : Platform := Platform.ofText

/-- A write that arrives without its data. -/
def draft : StoredMessage where
  message := .recordsWrite
    { recordId := "alice1", contextId := "alice1",
      descriptor := { module := "notes", modulePath := "note", dataCid := "text", dataSize := 4,
                      dataFormat := "text/plain", dateCreated := "1", messageTimestamp := "1" },
      authorization := { signature := "i", signer := "alice" } }

def draftIndexes (isLatest : Bool) : KeyValues :=
  [("interface", text "Records"), ("recordId", text "alice1"), ("isLatestBaseState", flag isLatest)]

/-- The reader sees the draft, then the data arrives, then the reader comes back. -/
def completedDraft : List FeedAction :=
  [.mutate (.put draft (draftIndexes false)), .read (some 1),
    .mutate (.completeData (Message.getCid draft) (draftIndexes true) (some "text")), .read none]

def feedOfAlice : StreamDomain := ⟨"alice", "epoch"⟩

def notesOfAlice : Option (List Filter) := some [[Filters.equalText "recordId" "alice1"]]

/-- The completed draft is returned again, at its new position. -/
theorem paging_completedDraft :
    (({ log := {} } : FeedReader).run feedOfAlice notesOfAlice completedDraft).returned.map
      EventLogEntry.position = [1, 2] ∧
    ∃ e ∈ (({ log := {} } : FeedReader).run feedOfAlice notesOfAlice completedDraft).returned,
      e.position = 2 ∧ e.messageCid = Message.getCid draft := by
  refine ⟨by decide, ?_⟩
  obtain ⟨-, hreturned, -⟩ := paging feedOfAlice notesOfAlice (w := { log := {} })
    Log.positioned_empty rfl completedDraft
  refine hreturned (completedDraft.take 3) (completedDraft.drop 3) rfl 2 (Message.getCid draft)
    (by decide) (fun l hl hpos => ?_) (by decide)
  obtain rfl | ⟨t, rfl, ht⟩ := List.prefix_cons_iff.mp hl
  · exact by decide
  · rw [List.prefix_nil.mp ht] at hpos
    exact absurd hpos (by decide)

end EnboxDwn.FeedReader
