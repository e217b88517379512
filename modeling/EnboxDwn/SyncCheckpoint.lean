import EnboxDwn.Reply
import Mathlib.Data.List.Infix

/-! Progress tokens as the agent handles them: a stream, an epoch, and a position that is the text
of an integer. Checkpoints of a direction commit tokens without going back. -/
namespace EnboxDwn.Agent

/-- What the agent's code throws. -/
inductive Thrown where
  | error (message : String)
  | typeError (message : String)
  | rangeError (message : String)
  | syntaxError
  deriving DecidableEq, Repr

/-! ## Integers -/

def isStrWhiteSpace (c : Char) : Bool :=
  [0x09, 0x0a, 0x0b, 0x0c, 0x0d, 0x20, 0xa0, 0x1680, 0x2028, 0x2029, 0x202f, 0x205f, 0x3000,
    0xfeff].contains c.toNat || (0x2000 ≤ c.toNat && c.toNat ≤ 0x200a)

def digitValue (c : Char) : Option Nat :=
  if '0' ≤ c ∧ c ≤ '9' then some (c.toNat - '0'.toNat)
  else if 'a' ≤ c ∧ c ≤ 'f' then some (c.toNat - 'a'.toNat + 10)
  else if 'A' ≤ c ∧ c ≤ 'F' then some (c.toNat - 'A'.toNat + 10)
  else none

def readDigits (radix : Nat) : List Char → Nat → Option Nat
  | [], n => some n
  | c :: cs, n =>
    match digitValue c with
    | none => none
    | some d => if d < radix then readDigits radix cs (n * radix + d) else none

def readNumber (radix : Nat) (cs : List Char) : Option Nat :=
  if cs = [] then none else readDigits radix cs 0

/-- `BigInt` of a string; nothing when it throws. -/
def bigInt (s : String) : Option Int :=
  let trimmed := ((s.toList.dropWhile isStrWhiteSpace).reverse.dropWhile isStrWhiteSpace).reverse
  match trimmed with
  | [] => some 0
  | '0' :: 'x' :: cs | '0' :: 'X' :: cs => (readNumber 16 cs).map Int.ofNat
  | '0' :: 'o' :: cs | '0' :: 'O' :: cs => (readNumber 8 cs).map Int.ofNat
  | '0' :: 'b' :: cs | '0' :: 'B' :: cs => (readNumber 2 cs).map Int.ofNat
  | '+' :: cs => (readNumber 10 cs).map Int.ofNat
  | '-' :: cs => (readNumber 10 cs).map fun n => -Int.ofNat n
  | cs => (readNumber 10 cs).map Int.ofNat

theorem digitValue_of_isDigit {c : Char} (h : c.isDigit = true) :
    digitValue c = some (c.toNat - '0'.toNat) ∧ c.toNat - '0'.toNat < 10 := by
  rw [Char.isDigit, Bool.and_eq_true, decide_eq_true_eq, decide_eq_true_eq] at h
  have hlow : '0' ≤ c := h.1
  have hhigh : c ≤ '9' := h.2
  refine ⟨by unfold digitValue; rw [if_pos ⟨hlow, hhigh⟩], ?_⟩
  have : c.toNat ≤ 57 := UInt32.le_iff_toNat_le.mp h.2
  have hzero : '0'.toNat = 48 := rfl
  omega

theorem readDigits_of_isDigit {cs : List Char} (h : ∀ c ∈ cs, c.isDigit = true) (n : Nat) :
    readDigits 10 cs n = some (Nat.ofDigitChars 10 cs n) := by
  induction cs generalizing n with
  | nil => rfl
  | cons c cs ih =>
    obtain ⟨hvalue, hlt⟩ := digitValue_of_isDigit (h c List.mem_cons_self)
    rw [readDigits, hvalue]
    dsimp only
    rw [if_pos hlt, ih fun d hd => h d (List.mem_cons_of_mem _ hd), Nat.ofDigitChars_cons, Nat.mul_comm]

theorem not_isStrWhiteSpace {c : Char} (h : c.isDigit = true) : isStrWhiteSpace c = false := by
  rw [Char.isDigit, Bool.and_eq_true, decide_eq_true_eq, decide_eq_true_eq] at h
  have hlow : 48 ≤ c.toNat := UInt32.le_iff_toNat_le.mp h.1
  have hhigh : c.toNat ≤ 57 := UInt32.le_iff_toNat_le.mp h.2
  simp only [isStrWhiteSpace, List.contains_eq_mem, List.mem_cons, List.not_mem_nil, or_false,
    Bool.or_eq_false_iff, Bool.and_eq_false_imp, decide_eq_false_iff_not, decide_eq_true_eq]
  omega

theorem dropWhile_isStrWhiteSpace {cs : List Char} (h : ∀ c ∈ cs, c.isDigit = true) :
    cs.dropWhile isStrWhiteSpace = cs := by
  cases cs with
  | nil => rfl
  | cons c cs => simp [not_isStrWhiteSpace (h c List.mem_cons_self)]

/-- Digits are read as the number they are the text of. -/
theorem bigInt_of_isDigit {s : String} (h : ∀ c ∈ s.toList, c.isDigit = true) (hne : s ≠ "") :
    bigInt s = some (Nat.ofDigitChars 10 s.toList 0 : Int) := by
  have hlist : s.toList ≠ [] := fun hnil => hne (String.toList_inj.mp (by rw [hnil]; rfl))
  have htrim : ((s.toList.dropWhile isStrWhiteSpace).reverse.dropWhile isStrWhiteSpace).reverse =
      s.toList := by
    rw [dropWhile_isStrWhiteSpace h, dropWhile_isStrWhiteSpace fun c hc => h c (by simpa using hc),
      List.reverse_reverse]
  unfold bigInt
  rw [htrim]
  generalize s.toList = cs at h hlist
  have hno (c : Char) (hdigit : c.isDigit = false) (hmem : c ∈ cs) : False := by
    rw [h c hmem] at hdigit
    cases hdigit
  dsimp only
  split
  · exact absurd rfl hlist
  · exact (hno 'x' rfl (by simp)).elim
  · exact (hno 'X' rfl (by simp)).elim
  · exact (hno 'o' rfl (by simp)).elim
  · exact (hno 'O' rfl (by simp)).elim
  · exact (hno 'b' rfl (by simp)).elim
  · exact (hno 'B' rfl (by simp)).elim
  · exact (hno '+' rfl (by simp)).elim
  · exact (hno '-' rfl (by simp)).elim
  · rw [readNumber, if_neg hlist, readDigits_of_isDigit h]
    rfl

theorem bigInt_repr (n : Nat) : bigInt n.repr = some (n : Int) := by
  rw [bigInt_of_isDigit, Nat.toList_repr, Nat.ofDigitChars_ten_toDigits]
  · rw [Nat.toList_repr]
    exact fun c hc => Nat.isDigit_of_mem_toDigits (by decide) (by decide) hc
  · exact Nat.repr_ne_empty

/-! ## Tokens -/

structure ProgressToken where
  streamId : String
  epoch : String
  position : String
  messageCid : Option String := none
  deriving DecidableEq, Repr

def ProgressToken.domain (token : ProgressToken) : String × String := (token.streamId, token.epoch)

/-- Whether every progress-token field is non-empty. -/
def isValidProgressToken (token : ProgressToken) : Bool :=
  token.streamId ≠ "" && token.epoch ≠ "" && token.position ≠ ""

structure DirectionCheckpoint where
  contiguousAppliedToken : Option ProgressToken := none
  deriving DecidableEq, Repr

namespace SyncCheckpoint

def comparePosition (a b : ProgressToken) : Except Thrown Int :=
  match bigInt a.position, bigInt b.position with
  | some x, some y => .ok (if x < y then -1 else if y < x then 1 else 0)
  | _, _ => .error .syntaxError

def commitContiguousToken (checkpoint : DirectionCheckpoint) (token : ProgressToken) :
    Except Thrown DirectionCheckpoint :=
  match checkpoint.contiguousAppliedToken with
  | none => .ok ⟨some token⟩
  | some current =>
    if token.streamId = current.streamId ∧ token.epoch = current.epoch then do
      if (← comparePosition token current) ≤ 0 then .ok checkpoint else .ok ⟨some token⟩
    else .ok ⟨some token⟩

def reset (token : Option ProgressToken) : DirectionCheckpoint := ⟨token⟩

def validateTokenDomain (checkpoint : DirectionCheckpoint) (token : ProgressToken) : Bool :=
  match checkpoint.contiguousAppliedToken with
  | none => true
  | some current => token.streamId = current.streamId && token.epoch = current.epoch

end SyncCheckpoint

/-- The second token is not behind the first one, as far as they are of one domain. -/
def ProgressToken.NotBefore (token token' : ProgressToken) : Prop :=
  token.domain = token'.domain →
    token = token' ∨ ∃ x y, bigInt token.position = some x ∧ bigInt token'.position = some y ∧ x < y

theorem ProgressToken.NotBefore.refl (token : ProgressToken) : token.NotBefore token :=
  fun _ => Or.inl rfl

theorem ProgressToken.NotBefore.trans {a b c : ProgressToken} (hab : a.NotBefore b)
    (hbc : b.NotBefore c) (hdomain : a.domain = b.domain) : a.NotBefore c := by
  intro hac
  obtain rfl | ⟨x, y, hx, hy, hlt⟩ := hab hdomain
  · exact hbc hac
  · obtain rfl | ⟨y', z, hy', hz, hlt'⟩ := hbc (hdomain.symm.trans hac)
    · exact Or.inr ⟨x, y, hx, hy, hlt⟩
    · rw [hy, Option.some.injEq] at hy'
      exact Or.inr ⟨x, z, hx, hz, by omega⟩

namespace SyncCheckpoint

theorem comparePosition_eq_ok {a b : ProgressToken} {n : Int} (h : comparePosition a b = .ok n) :
    ∃ x y, bigInt a.position = some x ∧ bigInt b.position = some y ∧
      (n ≤ 0 ↔ x ≤ y) ∧ (n = 0 ↔ x = y) := by
  unfold comparePosition at h
  split at h
  · next x y hx hy =>
    refine ⟨x, y, hx, hy, ?_⟩
    cases h
    split
    · omega
    · split <;> omega
  · cases h

theorem commitContiguousToken_eq_ok {checkpoint checkpoint' : DirectionCheckpoint}
    {token : ProgressToken} (h : commitContiguousToken checkpoint token = .ok checkpoint') :
    checkpoint' = ⟨some token⟩ ∧
        (∀ current ∈ checkpoint.contiguousAppliedToken, current.NotBefore token) ∨
      checkpoint' = checkpoint ∧ ∃ current ∈ checkpoint.contiguousAppliedToken,
        current.domain = token.domain ∧ ∃ x y, bigInt token.position = some x ∧
          bigInt current.position = some y ∧ x ≤ y := by
  unfold commitContiguousToken at h
  split at h
  · next hnone =>
    cases h
    exact Or.inl ⟨rfl, by simp [hnone]⟩
  · next current hcurrent =>
    rw [hcurrent]
    split at h
    · next hdomain =>
      have hdomain : current.domain = token.domain :=
        Prod.ext_iff.mpr ⟨hdomain.1.symm, hdomain.2.symm⟩
      cases hcompare : comparePosition token current with
      | error e =>
        rw [hcompare] at h
        cases h
      | ok n =>
        rw [hcompare] at h
        obtain ⟨x, y, hx, hy, hle, -⟩ := comparePosition_eq_ok hcompare
        change (if n ≤ 0 then _ else _) = _ at h
        split at h
        · next hn =>
          cases h
          exact Or.inr ⟨rfl, current, rfl, hdomain, x, y, hx, hy, hle.mp hn⟩
        · next hn =>
          cases h
          refine Or.inl ⟨rfl, fun c hc _ => ?_⟩
          cases hc
          exact Or.inr ⟨y, x, hy, hx, by omega⟩
    · next hdomain =>
      cases h
      refine Or.inl ⟨rfl, fun c hc hsame => ?_⟩
      cases hc
      exact absurd ⟨congrArg Prod.fst hsame.symm, congrArg Prod.snd hsame.symm⟩ hdomain

end SyncCheckpoint

end EnboxDwn.Agent
