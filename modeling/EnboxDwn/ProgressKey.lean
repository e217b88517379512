import EnboxDwn.Lib.Level
import EnboxDwn.ModuleGraph
import EnboxDwn.SyncCheckpoint

/-! Keys of the durable sync progress. A key is a sequence of parts, each written with its length
before it, so that the rows of a link and the links of a tenant are ranges of keys. -/
namespace EnboxDwn.Agent

/-! ## Endpoints -/

/-- A parsed URL, cut where the fields end that a normalization clears. -/
structure Url where
  protocol : String
  path : String
  search : String := ""
  hash : String := ""
  deriving DecidableEq, Repr

def Url.toString (url : Url) : String := url.protocol ++ url.path ++ url.search ++ url.hash

/-- An entry of a feed reply. A field is missing when it is absent or not of its type. -/
structure MessagesQueryReplyEntry where
  seq : Option String
  messageCid : Option String
  isLatestBaseState : Option Bool
  module : Option String := none
  message : Option GenericMessage := none
  initialWrite : Option RecordsWriteMessage := none
  encodedData : Option String := none
  deriving DecidableEq, Repr

/-- The services of the runtime the agent calls: the URL parser, dates as text, and the length of
an entry's serialization in bytes. -/
class Runtime where
  newUrl : String → Option Url
  dateParse : String → Option Int
  isoString : Int → String
  serializedLength : MessagesQueryReplyEntry → Nat

def normalizeDwnEndpoint [R : Runtime] (endpoint : String) : Except Thrown String :=
  match R.newUrl endpoint with
  | none => .error (.error "SyncEngineLevel: drain endpoint must be a valid URL.")
  | some url =>
    if url.protocol ≠ "http:" ∧ url.protocol ≠ "https:" then
      .error (.error "SyncEngineLevel: drain endpoint must use http or https.")
    else
      let normalized := { url with hash := "", search := "" }.toString.toList
      .ok (String.ofList (if normalized.getLast? = some '/' then normalized.dropLast else normalized))

/-! ## Keys -/

/-- Exact identity shared by one link record and its pending work. -/
structure SyncNextLinkIdentity where
  authorizationEpoch : String
  projectionId : String
  remoteEndpoint : String
  tenantDid : String
  deriving DecidableEq, Repr

structure SyncNextSourceReceipt where
  messageCid : String
  source : ProgressToken
  deriving DecidableEq, Repr

/-- Encode one arbitrary string as an unambiguous compound-key part. -/
def encodePart (value : String) : String := (codeUnits value).length.repr ++ ":" ++ value

def encodeParts (parts : List String) : String :=
  String.ofList (parts.flatMap fun part => (encodePart part).toList)

/-- The parts of a link's key, the endpoint being normalized already. -/
def linkParts (identity : SyncNextLinkIdentity) (remoteEndpoint : String) : List String :=
  [identity.tenantDid, remoteEndpoint, identity.projectionId, identity.authorizationEpoch]

def receiptParts (receipt : SyncNextSourceReceipt) : List String :=
  [receipt.source.streamId, receipt.source.epoch, receipt.source.position, receipt.messageCid]

section Keys
variable [R : Runtime]

/-- Durable key for one exact next-engine link. -/
def syncNextLinkKey (identity : SyncNextLinkIdentity) : Except Thrown String := do
  return encodeParts (linkParts identity (← normalizeDwnEndpoint identity.remoteEndpoint))

/-- Durable key for one exact source receipt beneath its link. -/
def syncNextReceiptKey (identity : SyncNextLinkIdentity) (receipt : SyncNextSourceReceipt) :
    Except Thrown String := do
  return (← syncNextLinkKey identity) ++ encodeParts (receiptParts receipt)

end Keys

def keyEnd : String := "\uffff"

/-- Keys that begin with the given one, as the bounds of a scan. -/
def keyRange (start : String) (key : String) : Bool := start ≤ key && key ≤ start ++ keyEnd

/-- Prefix range containing every exact-source row for one link. -/
def syncNextLinkRange [Runtime] (identity : SyncNextLinkIdentity) :
    Except Thrown (String → Bool) := do
  return keyRange (← syncNextLinkKey identity)

/-- Prefix range containing every next-engine link for one tenant. -/
def syncNextTenantRange (tenantDid : String) : String → Bool := keyRange (encodePart tenantDid)

/-! ## Tokens -/

/-- Text of a natural number without leading zeros. -/
def isCanonicalDecimal (s : String) : Bool :=
  match s.toList with
  | [] => false
  | ['0'] => true
  | c :: cs => '1' ≤ c && c ≤ '9' && cs.all fun d => '0' ≤ d && d ≤ '9'

/-- Whether a progress token is safe for exact integer/domain comparison. -/
def isValidSyncNextToken (token : ProgressToken) : Bool :=
  token.streamId ≠ "" && token.epoch ≠ "" && isCanonicalDecimal token.position

/-- Compare two positions after the caller has validated their token domains. -/
def compareSyncNextPosition (a b : ProgressToken) : Except Thrown Int :=
  SyncCheckpoint.comparePosition a b

/-- Whether one source position is covered by another position in the same token domain. -/
def syncNextSourceAtOrBefore (source through : ProgressToken) : Except Thrown Bool :=
  if source.streamId = through.streamId ∧ source.epoch = through.epoch then do
    return decide ((← compareSyncNextPosition source through) ≤ 0)
  else .ok false

/-! ## Parts -/

theorem digit_ne_colon {n : Nat} {c : Char} (h : c ∈ Nat.toDigits 10 n) : c ≠ ':' := by
  rintro rfl
  exact absurd (Nat.isDigit_of_mem_toDigits (by decide) (by decide) h) (by decide)

theorem codeUnits_append (a b : List Char) :
    codeUnits (String.ofList (a ++ b)) =
      codeUnits (String.ofList a) ++ codeUnits (String.ofList b) := by
  simp [codeUnits]

theorem codeUnits_eq_nil {s : String} (h : codeUnits s = []) : s = "" := by
  unfold codeUnits at h
  rw [List.flatMap_eq_nil_iff] at h
  apply String.toList_inj.mp
  cases hs : s.toList with
  | nil => rfl
  | cons c cs =>
    have hc := h c (by rw [hs]; exact List.mem_cons_self)
    split at hc <;> cases hc

/-- A text is no longer than it is written, so equal lengths leave nothing over. -/
theorem eq_of_prefix_of_length {a b : List Char} (h : a <+: b)
    (hlength : (codeUnits (String.ofList a)).length = (codeUnits (String.ofList b)).length) :
    a = b := by
  obtain ⟨rest, rfl⟩ := h
  rw [codeUnits_append, List.length_append] at hlength
  have hnil : codeUnits (String.ofList rest) = [] := List.length_eq_zero_iff.mp (by omega)
  have hrest : rest = [] := by
    have := congrArg String.toList (codeUnits_eq_nil hnil)
    simpa using this
  rw [hrest, List.append_nil]

/-- A part says where it ends. -/
theorem encodePart_append_inj {a b : String} {r r' : List Char}
    (h : (encodePart a).toList ++ r = (encodePart b).toList ++ r') : a = b ∧ r = r' := by
  simp only [encodePart, String.toList_append, Nat.toList_repr, List.append_assoc] at h
  have hsplit : Nat.toDigits 10 (codeUnits a).length = Nat.toDigits 10 (codeUnits b).length ∧
      a.toList ++ r = b.toList ++ r' := by
    have htake := congrArg (List.takeWhile (· ≠ ':')) h
    have hdrop := congrArg (List.dropWhile (· ≠ ':')) h
    have hdigits (n : Nat) : ∀ c ∈ Nat.toDigits 10 n, decide (c ≠ ':') = true := by
      intro c hc
      exact decide_eq_true (digit_ne_colon hc)
    rw [List.takeWhile_append_of_pos (hdigits _), List.takeWhile_append_of_pos (hdigits _)] at htake
    rw [List.dropWhile_append_of_pos (hdigits _), List.dropWhile_append_of_pos (hdigits _)] at hdrop
    simpa using And.intro htake hdrop
  have hlength : (codeUnits a).length = (codeUnits b).length := by
    rw [← Nat.ofDigitChars_ten_toDigits (n := (codeUnits a).length), hsplit.1,
      Nat.ofDigitChars_ten_toDigits]
  have ha : a.toList <+: b.toList ++ r' := ⟨r, hsplit.2⟩
  have hb : b.toList <+: b.toList ++ r' := List.prefix_append _ _
  have hlists : a.toList = b.toList := by
    obtain hle | hle := le_total a.toList.length b.toList.length
    · exact eq_of_prefix_of_length (List.prefix_of_prefix_length_le ha hb hle) (by simpa using hlength)
    · exact (eq_of_prefix_of_length (List.prefix_of_prefix_length_le hb ha hle)
        (by simpa using hlength.symm)).symm
  refine ⟨String.toList_inj.mp hlists, ?_⟩
  rw [hlists] at hsplit
  exact List.append_cancel_left hsplit.2

@[simp] theorem toList_encodeParts (parts : List String) :
    (encodeParts parts).toList = parts.flatMap fun part => (encodePart part).toList :=
  String.toList_ofList

theorem encodeParts_append (ps qs : List String) :
    encodeParts (ps ++ qs) = encodeParts ps ++ encodeParts qs := by
  simp [encodeParts]

theorem encodeParts_singleton (part : String) : encodeParts [part] = encodePart part := by
  simp [encodeParts]

/-- Every part begins with a digit of its length. -/
theorem encodePart_toList (part : String) :
    ∃ c rest, (encodePart part).toList = c :: rest ∧ c.isDigit = true := by
  obtain ⟨c, cs, hcs⟩ := List.exists_cons_of_ne_nil
    (Nat.toDigits_ne_nil (n := (codeUnits part).length) (b := 10))
  refine ⟨c, cs ++ ':' :: part.toList, by simp [encodePart, hcs], ?_⟩
  have hc : c ∈ Nat.toDigits 10 (codeUnits part).length := by
    rw [hcs]
    exact List.mem_cons_self
  exact Nat.isDigit_of_mem_toDigits (by decide) (by decide) hc

theorem isPrefix_parts {ps qs : List String}
    (h : (encodeParts ps).toList <+: (encodeParts qs).toList) : ps <+: qs := by
  induction ps generalizing qs with
  | nil => exact List.nil_prefix
  | cons p ps ih =>
    obtain ⟨rest, hrest⟩ := h
    rw [toList_encodeParts, toList_encodeParts, List.flatMap_cons, List.append_assoc] at hrest
    cases qs with
    | nil =>
      obtain ⟨c, cs, hp, -⟩ := encodePart_toList p
      rw [hp, List.flatMap_nil] at hrest
      simp at hrest
    | cons q qs =>
      rw [List.flatMap_cons] at hrest
      obtain ⟨rfl, heq⟩ := encodePart_append_inj hrest
      refine List.cons_prefix_cons.mpr ⟨rfl, ih ⟨rest, ?_⟩⟩
      rw [toList_encodeParts, toList_encodeParts]
      exact heq

theorem encodeParts_inj {ps qs : List String} (h : encodeParts ps = encodeParts qs) : ps = qs :=
  List.IsPrefix.eq_of_length_le (isPrefix_parts (h ▸ List.prefix_rfl))
    (isPrefix_parts (h ▸ List.prefix_rfl)).length_le

theorem digit_lt_keyEnd {c : Char} (h : c.isDigit = true) : c < '\uffff' := by
  rw [Char.isDigit, Bool.and_eq_true, decide_eq_true_eq, decide_eq_true_eq] at h
  exact lt_of_le_of_lt h.2 (by decide)

/-- The range of a key holds the keys with more parts, and no others. -/
theorem keyRange_encodeParts {ps qs : List String} :
    keyRange (encodeParts ps) (encodeParts qs) = true ↔ ps <+: qs := by
  have hend : (encodeParts ps ++ keyEnd).toList = (encodeParts ps).toList ++ ['\uffff'] := by
    rw [String.toList_append]
    rfl
  unfold keyRange
  rw [Bool.and_eq_true, decide_eq_true_eq, decide_eq_true_eq, ← not_lt, ← not_lt,
    String.lt_iff_toList_lt, String.lt_iff_toList_lt, hend]
  constructor
  · rintro ⟨hlower, hupper⟩
    exact isPrefix_parts (Level.isPrefix_of_between hlower hupper)
  · rintro ⟨rest, rfl⟩
    rw [encodeParts_append, String.toList_append]
    refine ⟨Level.not_append_lex _ _, ?_⟩
    cases rest with
    | nil =>
      rw [toList_encodeParts [], List.flatMap_nil, List.append_nil]
      intro hlex
      exact Level.not_append_lex _ _ hlex
    | cons part rest =>
      obtain ⟨c, cs, hc, hdigit⟩ := encodePart_toList part
      rw [toList_encodeParts (part :: rest), List.flatMap_cons, hc, List.cons_append]
      exact Level.not_lex_append_of_lt (digit_lt_keyEnd hdigit) _ _

/-! ## Keys of links and of receipts -/

/-- The key of a row under the key of its link. -/
def rowKey (key : String) (receipt : SyncNextSourceReceipt) : String :=
  key ++ encodeParts (receiptParts receipt)

/-- Receipts whose rows have the same key. -/
def SyncNextSourceReceipt.Same (a b : SyncNextSourceReceipt) : Prop :=
  a.messageCid = b.messageCid ∧ a.source.domain = b.source.domain ∧
    a.source.position = b.source.position

instance (a b : SyncNextSourceReceipt) : Decidable (a.Same b) := by
  unfold SyncNextSourceReceipt.Same
  infer_instance

theorem SyncNextSourceReceipt.Same.rowKey_eq {a b : SyncNextSourceReceipt} (h : a.Same b)
    (key : String) : rowKey key a = rowKey key b := by
  obtain ⟨hcid, hdomain, hposition⟩ := h
  have hstream : a.source.streamId = b.source.streamId := congrArg Prod.fst hdomain
  have hepoch : a.source.epoch = b.source.epoch := congrArg Prod.snd hdomain
  unfold rowKey receiptParts
  rw [hcid, hposition, hstream, hepoch]

section Keys
variable [R : Runtime]

theorem syncNextLinkKey_eq_ok {identity : SyncNextLinkIdentity} {key : String}
    (h : syncNextLinkKey identity = .ok key) :
    ∃ remoteEndpoint, normalizeDwnEndpoint identity.remoteEndpoint = .ok remoteEndpoint ∧
      key = encodeParts (linkParts identity remoteEndpoint) := by
  obtain ⟨remoteEndpoint, hnormalized, hkey⟩ := bind_eq_ok h
  exact ⟨remoteEndpoint, hnormalized, (Except.ok.inj hkey).symm⟩

theorem syncNextReceiptKey_eq {identity : SyncNextLinkIdentity} {key : String}
    (h : syncNextLinkKey identity = .ok key) (receipt : SyncNextSourceReceipt) :
    syncNextReceiptKey identity receipt = .ok (key ++ encodeParts (receiptParts receipt)) := by
  unfold syncNextReceiptKey
  rw [h]
  rfl

theorem rowKey_inj {identity identity' : SyncNextLinkIdentity} {key key' : String}
    (hkey : syncNextLinkKey identity = .ok key) (hkey' : syncNextLinkKey identity' = .ok key')
    {receipt receipt' : SyncNextSourceReceipt} (h : rowKey key receipt = rowKey key' receipt') :
    key = key' ∧ receipt.Same receipt' := by
  obtain ⟨endpoint, -, rfl⟩ := syncNextLinkKey_eq_ok hkey
  obtain ⟨endpoint', -, rfl⟩ := syncNextLinkKey_eq_ok hkey'
  unfold rowKey at h
  rw [← encodeParts_append, ← encodeParts_append] at h
  obtain ⟨hlink, hreceipt⟩ := List.append_inj (encodeParts_inj h) rfl
  simp only [receiptParts, List.cons.injEq, and_true] at hreceipt
  exact ⟨congrArg encodeParts hlink, hreceipt.2.2.2,
    Prod.ext_iff.mpr ⟨hreceipt.1, hreceipt.2.1⟩, hreceipt.2.2.1⟩

theorem keyRange_rowKey {identity identity' : SyncNextLinkIdentity} {key key' : String}
    (hkey : syncNextLinkKey identity = .ok key) (hkey' : syncNextLinkKey identity' = .ok key')
    (receipt : SyncNextSourceReceipt) :
    keyRange key (rowKey key' receipt) = true ↔ key = key' := by
  obtain ⟨endpoint, -, rfl⟩ := syncNextLinkKey_eq_ok hkey
  obtain ⟨endpoint', -, rfl⟩ := syncNextLinkKey_eq_ok hkey'
  unfold rowKey
  rw [← encodeParts_append, keyRange_encodeParts]
  constructor
  · intro hinitial
    have hinitial := List.prefix_of_prefix_length_le hinitial (List.prefix_append _ _) (Nat.le_refl 4)
    rw [hinitial.eq_of_length rfl]
  · intro heq
    rw [encodeParts_inj heq]
    exact List.prefix_append _ _

/-- The range of a tenant holds the links of that tenant, and their rows. -/
theorem tenantRange_linkKey {identity : SyncNextLinkIdentity} {key : String}
    (hkey : syncNextLinkKey identity = .ok key) (tenantDid : String) :
    syncNextTenantRange tenantDid key = true ↔ tenantDid = identity.tenantDid := by
  obtain ⟨endpoint, -, rfl⟩ := syncNextLinkKey_eq_ok hkey
  unfold syncNextTenantRange
  rw [← encodeParts_singleton, keyRange_encodeParts]
  simp [linkParts, List.cons_prefix_cons]

theorem tenantRange_rowKey {identity : SyncNextLinkIdentity} {key : String}
    (hkey : syncNextLinkKey identity = .ok key) (tenantDid : String)
    (receipt : SyncNextSourceReceipt) :
    syncNextTenantRange tenantDid (rowKey key receipt) = true ↔
      tenantDid = identity.tenantDid := by
  obtain ⟨endpoint, -, rfl⟩ := syncNextLinkKey_eq_ok hkey
  unfold syncNextTenantRange rowKey
  rw [← encodeParts_singleton, ← encodeParts_append, keyRange_encodeParts]
  simp [linkParts, List.cons_prefix_cons]

end Keys

end EnboxDwn.Agent
