import EnboxDwn.Lib.IpAddress
import Mathlib.Data.List.DropRight

/-! The guard on hostnames: names of this machine, and addresses in networks that are not public,
however they are spelled. -/
namespace EnboxDwn
namespace PublicUrl
open Ip

/-! ## The program -/

/-- White space and line ends. -/
def isSpace (c : Char) : Bool :=
  (9 ≤ c.toNat && c.toNat ≤ 13) || c.toNat = 32 || c.toNat = 0xA0 || c.toNat = 0x1680 ||
    (0x2000 ≤ c.toNat && c.toNat ≤ 0x200A) || c.toNat = 0x2028 || c.toNat = 0x2029 ||
    c.toNat = 0x202F || c.toNat = 0x205F || c.toNat = 0x3000 || c.toNat = 0xFEFF

def trim (s : List Char) : List Char := (s.dropWhile isSpace).rdropWhile isSpace

/-- ASCII characters are lowered one by one; what becomes of another one can depend on the
characters around it. -/
def lowerFrom (other : List Char → Char → List Char → List Char) :
    List Char → List Char → List Char
  | _, [] => []
  | before, c :: after =>
    (if c.toNat < 128 then [c.toLower] else other before c after) ++
      lowerFrom other (before ++ [c]) after

def toLowerCase (other : List Char → Char → List Char → List Char) (s : List Char) : List Char :=
  lowerFrom other [] s

def octet? (part : List Char) : Option Nat :=
  if part ≠ [] ∧ part.all isDigit ∧ value 10 part ≤ 255 then some (value 10 part) else none

def parseIpv4 (hostname : List Char) : Option (Nat × Nat × Nat × Nat) :=
  match (hostname.splitOn '.').map octet? with
  | [some a, some b, some c, some d] => some (a, b, c, d)
  | _ => none

def isPrivateIpv4 : Nat × Nat × Nat × Nat → Bool
  | (a, b, _, _) =>
    if a = 0 then true
    else if a = 10 then true
    else if a = 100 ∧ b ≥ 64 ∧ b ≤ 127 then true
    else if a = 127 then true
    else if a = 169 ∧ b = 254 then true
    else if a = 172 ∧ b ≥ 16 ∧ b ≤ 31 then true
    else if a = 192 ∧ b = 168 then true
    else if a ≥ 224 then true
    else false

/-- Splits at each `::`, from the left. -/
def splitPairs : List Char → List (List Char)
  | [] => [[]]
  | [c] => [[c]]
  | c :: d :: rest =>
    if c = ':' ∧ d = ':' then [] :: splitPairs rest
    else (splitPairs (d :: rest)).modifyHead (c :: ·)

def splitParts (s : List Char) : List (List Char) := if s = [] then [] else s.splitOn ':'

def expandIpv4Suffix (parts : List (List Char)) : Option (List (List Char)) :=
  match parts.getLast? with
  | none => some parts
  | some last =>
    if '.' ∉ last then some parts
    else
      match parseIpv4 last with
      | none => none
      | some (a, b, c, d) =>
        some (parts.dropLast ++
          [Nat.toDigits 16 (((a <<< 8) ||| b) &&& 0xffff),
            Nat.toDigits 16 (((c <<< 8) ||| d) &&& 0xffff)])

def hextet? (part : List Char) : Option Nat :=
  if part.all isLowerHex ∧ 1 ≤ part.length ∧ part.length ≤ 4 then some (value 16 part) else none

def parseIpv6 (hostname : List Char) : Option (List Nat) :=
  match splitPairs hostname with
  | [] => none
  | _ :: _ :: _ :: _ => none
  | left :: rest =>
    let right := rest.head?
    let leftParts := splitParts left
    let rightParts := splitParts (right.getD [])
    match expandIpv4Suffix (leftParts ++ rightParts) with
    | none => none
    | some parts =>
      if parts.length > 8 ∨ (right = none ∧ parts.length ≠ 8) ∨
          (right ≠ none ∧ parts.length ≥ 8) then none
      else
        match parts.mapM hextet? with
        | none => none
        | some parsedParts =>
          if right = none then some parsedParts
          else
            some (parsedParts.take leftParts.length ++
              List.replicate (8 - parsedParts.length) 0 ++ parsedParts.drop leftParts.length)

def ipv6HextetsToIpv4 (high low : Nat) : Nat × Nat × Nat × Nat :=
  ((high >>> 8) &&& 0xff, high &&& 0xff, (low >>> 8) &&& 0xff, low &&& 0xff)

def isPrivateHextets : List Nat → Bool
  | [h0, h1, h2, h3, h4, h5, h6, h7] =>
    let firstSixZero := h0 = 0 ∧ h1 = 0 ∧ h2 = 0 ∧ h3 = 0 ∧ h4 = 0 ∧ h5 = 0
    if firstSixZero ∧ h6 = 0 ∧ h7 = 0 then true
    else if firstSixZero ∧ h6 = 0 ∧ h7 = 1 then true
    else if h0 &&& 0xfe00 = 0xfc00 then true
    else if h0 &&& 0xffc0 = 0xfe80 then true
    else if h0 &&& 0xff00 = 0xff00 then true
    else if h0 = 0x64 ∧ h1 = 0xff9b ∧ h2 = 0 ∧ h3 = 0 ∧ h4 = 0 ∧ h5 = 0 then
      isPrivateIpv4 (ipv6HextetsToIpv4 h6 h7)
    else if h0 = 0 ∧ h1 = 0 ∧ h2 = 0 ∧ h3 = 0 ∧ h4 = 0 ∧ h5 = 0xffff then
      isPrivateIpv4 (ipv6HextetsToIpv4 h6 h7)
    else if firstSixZero then true
    else false
  | _ => false

def isPrivateIpv6 (hostname : List Char) : Bool :=
  match parseIpv6 hostname with
  | none => false
  | some hextets => isPrivateHextets hextets

def stripBrackets (h : List Char) : List Char :=
  if h.head? = some '[' ∧ h.getLast? = some ']' then (h.drop 1).dropLast else h

def stripZone (h : List Char) : List Char := h.takeWhile (· ≠ '%')

def stripDot (h : List Char) : List Char := if h.getLast? = some '.' then h.dropLast else h

/-- The hostname in lower case, without brackets, zone and trailing dot. -/
def bareHostname (other : List Char → Char → List Char → List Char) (hostname : List Char) :
    List Char :=
  stripDot (stripZone (stripBrackets (toLowerCase other (trim hostname))))

def isPrivateHostname (other : List Char → Char → List Char → List Char)
    (hostname : List Char) : Bool :=
  let h := bareHostname other hostname
  if h = "localhost".toList ∨ ".localhost".toList <:+ h then true
  else
    match parseIpv4 h with
    | some ipv4 => isPrivateIpv4 ipv4
    | none => if ':' ∈ h then isPrivateIpv6 h else false

/-! ## Networks that are not public -/

def PrivateIpv4 (address : Nat) : Prop :=
  InNetwork 32 0x00000000 8 address ∨ InNetwork 32 0x0a000000 8 address ∨
    InNetwork 32 0x64400000 10 address ∨ InNetwork 32 0x7f000000 8 address ∨
    InNetwork 32 0xa9fe0000 16 address ∨ InNetwork 32 0xac100000 12 address ∨
    InNetwork 32 0xc0a80000 16 address ∨ InNetwork 32 0xe0000000 3 address

/-- The last two networks but one hold the older addresses: those are told apart by their last 32
bits. -/
def PrivateIpv6 (address : Nat) : Prop :=
  InNetwork 128 0 128 address ∨ InNetwork 128 1 128 address ∨
    InNetwork 128 (0xfc00 * 2 ^ 112) 7 address ∨ InNetwork 128 (0xfe80 * 2 ^ 112) 10 address ∨
    InNetwork 128 (0xff00 * 2 ^ 112) 8 address ∨
    (InNetwork 128 (0x0064ff9b * 2 ^ 96) 96 address ∧ PrivateIpv4 (address % 2 ^ 32)) ∨
    (InNetwork 128 (0xffff * 2 ^ 32) 96 address ∧ PrivateIpv4 (address % 2 ^ 32)) ∨
    InNetwork 128 0 96 address

theorem isPrivateIpv4_octets {n : Nat} (h : n < 2 ^ 32) (c d : Nat) :
    isPrivateIpv4 (n / 2 ^ 24, n / 2 ^ 16 % 256, c, d) = true ↔ PrivateIpv4 n := by
  have hsplit : isPrivateIpv4 (n / 2 ^ 24, n / 2 ^ 16 % 256, c, d) = true ↔
      n / 2 ^ 24 = 0 ∨ n / 2 ^ 24 = 10 ∨
        (n / 2 ^ 24 = 100 ∧ n / 2 ^ 16 % 256 ≥ 64 ∧ n / 2 ^ 16 % 256 ≤ 127) ∨ n / 2 ^ 24 = 127 ∨
        (n / 2 ^ 24 = 169 ∧ n / 2 ^ 16 % 256 = 254) ∨
        (n / 2 ^ 24 = 172 ∧ n / 2 ^ 16 % 256 ≥ 16 ∧ n / 2 ^ 16 % 256 ≤ 31) ∨
        (n / 2 ^ 24 = 192 ∧ n / 2 ^ 16 % 256 = 168) ∨ n / 2 ^ 24 ≥ 224 := by
    simp only [isPrivateIpv4, Bool.if_true_left, Bool.or_eq_true, decide_eq_true_eq, Bool.or_false]
  rw [hsplit]
  refine or_congr ?_ (or_congr ?_ (or_congr ?_ (or_congr ?_ (or_congr ?_ (or_congr ?_
    (or_congr ?_ ?_)))))) <;> simp only [InNetwork] <;> omega

theorem ipv6HextetsToIpv4_eq {high low : Nat} (hhigh : high < 65536) (hlow : low < 65536) :
    ipv6HextetsToIpv4 high low = ((high * 65536 + low) / 2 ^ 24, (high * 65536 + low) / 2 ^ 16 % 256,
      low / 256, low % 256) := by
  have hmask : ∀ n : Nat, n &&& 0xff = n % 256 := by
    intro n
    have hfield := and_field n 8 0
    simpa using hfield
  have hlast : (high * 65536 + low) / 65536 = high := by omega
  have hfirst : (high * 65536 + low) / 2 ^ 24 = high / 256 := by
    have hpow : (2 : Nat) ^ 24 = 65536 * 256 := rfl
    rw [hpow, ← Nat.div_div_eq_div_mul, hlast]
  have hsecond : (high * 65536 + low) / 2 ^ 16 = high := hlast
  simp only [ipv6HextetsToIpv4, hmask, Nat.shiftRight_eq_div_pow, Prod.mk.injEq, hfirst, hsecond,
    and_true, true_and]
  omega

theorem masked_iff (n base k j : Nat) :
    n &&& (2 ^ k - 1) * 2 ^ j = base * 2 ^ j ↔ n / 2 ^ j % 2 ^ k = base := by
  rw [and_field]
  exact Nat.mul_right_cancel_iff (Nat.two_pow_pos j)

theorem isPrivateHextets_iff {n : Nat} (h : n < 2 ^ 128) :
    isPrivateHextets [n / 2 ^ 112, n / 2 ^ 96 % 65536, n / 2 ^ 80 % 65536, n / 2 ^ 64 % 65536,
      n / 2 ^ 48 % 65536, n / 2 ^ 32 % 65536, n / 2 ^ 16 % 65536, n % 65536] = true ↔
      PrivateIpv6 n := by
  have hlow : n / 2 ^ 16 % 65536 * 65536 + n % 65536 = n % 2 ^ 32 := by omega
  have hipv4 : isPrivateIpv4 (ipv6HextetsToIpv4 (n / 2 ^ 16 % 65536) (n % 65536)) = true ↔
      PrivateIpv4 (n % 2 ^ 32) := by
    rw [ipv6HextetsToIpv4_eq (by omega) (by omega), hlow]
    exact isPrivateIpv4_octets (by omega) _ _
  have hfc : n / 2 ^ 112 &&& 0xfe00 = 0xfc00 ↔ n / 2 ^ 112 / 512 = 126 := by
    have hmask := masked_iff (n / 2 ^ 112) 126 7 9
    simp only [Nat.reducePow, Nat.reduceSub, Nat.reduceMul] at hmask ⊢
    rw [hmask]
    omega
  have hfe : n / 2 ^ 112 &&& 0xffc0 = 0xfe80 ↔ n / 2 ^ 112 / 64 = 1018 := by
    have hmask := masked_iff (n / 2 ^ 112) 1018 10 6
    simp only [Nat.reducePow, Nat.reduceSub, Nat.reduceMul] at hmask ⊢
    rw [hmask]
    omega
  have hff : n / 2 ^ 112 &&& 0xff00 = 0xff00 ↔ n / 2 ^ 112 / 256 = 255 := by
    have hmask := masked_iff (n / 2 ^ 112) 255 8 8
    simp only [Nat.reducePow, Nat.reduceSub, Nat.reduceMul] at hmask ⊢
    rw [hmask]
    omega
  have hsplit : isPrivateHextets [n / 2 ^ 112, n / 2 ^ 96 % 65536, n / 2 ^ 80 % 65536,
      n / 2 ^ 64 % 65536, n / 2 ^ 48 % 65536, n / 2 ^ 32 % 65536, n / 2 ^ 16 % 65536,
      n % 65536] = true ↔
      n = 0 ∨ n = 1 ∨ n / 2 ^ 112 / 512 = 126 ∨ n / 2 ^ 112 / 64 = 1018 ∨
        n / 2 ^ 112 / 256 = 255 ∨ (n / 2 ^ 32 = 0x0064ff9b * 2 ^ 64 ∧ PrivateIpv4 (n % 2 ^ 32)) ∨
        (n / 2 ^ 32 = 0xffff ∧ PrivateIpv4 (n % 2 ^ 32)) ∨ n / 2 ^ 32 = 0 := by
    have h0 : (n / 2 ^ 112 = 0 ∧ n / 2 ^ 96 % 65536 = 0 ∧ n / 2 ^ 80 % 65536 = 0 ∧
        n / 2 ^ 64 % 65536 = 0 ∧ n / 2 ^ 48 % 65536 = 0 ∧ n / 2 ^ 32 % 65536 = 0) ↔
        n / 2 ^ 32 = 0 := by omega
    have h64 : (n / 2 ^ 112 = 0x64 ∧ n / 2 ^ 96 % 65536 = 0xff9b ∧ n / 2 ^ 80 % 65536 = 0 ∧
        n / 2 ^ 64 % 65536 = 0 ∧ n / 2 ^ 48 % 65536 = 0 ∧ n / 2 ^ 32 % 65536 = 0) ↔
        n / 2 ^ 32 = 0x0064ff9b * 2 ^ 64 := by omega
    have hmapped : (n / 2 ^ 112 = 0 ∧ n / 2 ^ 96 % 65536 = 0 ∧ n / 2 ^ 80 % 65536 = 0 ∧
        n / 2 ^ 64 % 65536 = 0 ∧ n / 2 ^ 48 % 65536 = 0 ∧ n / 2 ^ 32 % 65536 = 0xffff) ↔
        n / 2 ^ 32 = 0xffff := by omega
    simp only [isPrivateHextets, h0, h64, hmapped, hfc, hfe, hff]
    by_cases hzero : n / 2 ^ 32 = 0 ∧ n / 2 ^ 16 % 65536 = 0 ∧ n % 65536 = 0
    · rw [if_pos hzero]
      exact iff_of_true rfl (.inl (by omega))
    by_cases hone : n / 2 ^ 32 = 0 ∧ n / 2 ^ 16 % 65536 = 0 ∧ n % 65536 = 1
    · rw [if_neg hzero, if_pos hone]
      exact iff_of_true rfl (.inr (.inl (by omega)))
    rw [if_neg hzero, if_neg hone]
    by_cases hunique : n / 2 ^ 112 / 512 = 126
    · rw [if_pos hunique]
      exact iff_of_true rfl (.inr (.inr (.inl hunique)))
    by_cases hlink : n / 2 ^ 112 / 64 = 1018
    · rw [if_neg hunique, if_pos hlink]
      exact iff_of_true rfl (.inr (.inr (.inr (.inl hlink))))
    by_cases hmulticast : n / 2 ^ 112 / 256 = 255
    · rw [if_neg hunique, if_neg hlink, if_pos hmulticast]
      exact iff_of_true rfl (.inr (.inr (.inr (.inr (.inl hmulticast)))))
    rw [if_neg hunique, if_neg hlink, if_neg hmulticast]
    by_cases hnat : n / 2 ^ 32 = 0x0064ff9b * 2 ^ 64
    · rw [if_pos hnat, hipv4]
      constructor
      · intro hprivate
        exact .inr (.inr (.inr (.inr (.inr (.inl ⟨hnat, hprivate⟩)))))
      · intro hany
        by_contra hpublic
        simp only [hpublic, and_false, false_or] at hany
        omega
    by_cases hquad : n / 2 ^ 32 = 0xffff
    · rw [if_neg hnat, if_pos hquad, hipv4]
      constructor
      · intro hprivate
        exact .inr (.inr (.inr (.inr (.inr (.inr (.inl ⟨hquad, hprivate⟩))))))
      · intro hany
        by_contra hpublic
        simp only [hpublic, and_false, false_or] at hany
        omega
    rw [if_neg hnat, if_neg hquad]
    by_cases hcompatible : n / 2 ^ 32 = 0
    · rw [if_pos hcompatible]
      exact iff_of_true rfl (.inr (.inr (.inr (.inr (.inr (.inr (.inr hcompatible)))))))
    · rw [if_neg hcompatible]
      apply iff_of_false (by simp)
      simp only [hnat, hquad, false_and, false_or]
      omega
  rw [hsplit]
  simp only [PrivateIpv6, InNetwork, Nat.div_div_eq_div_mul, Nat.reduceSub, Nat.reducePow,
    Nat.reduceMul, Nat.reduceDiv, Nat.div_one]

/-! ## Dotted quads are parsed -/

theorem octet?_text {s : List Char} {n : Nat} (h : OctetText s n) : octet? s = some n := by
  have hall : s.all isDigit = true := List.all_eq_true.mpr h.digits
  rw [octet?, if_pos ⟨h.ne_nil, hall, by rw [h.value]; exact h.le⟩, h.value]

theorem parseIpv4_quad {s : List Char} {a b c d : Nat} (h : QuadText s a b c d) :
    parseIpv4 s = some (a, b, c, d) := by
  cases h with
  | @intro s t u v _ _ _ _ ha hb hc hd =>
    have hdot : ∀ part ∈ [s, t, u, v], '.' ∉ part := by
      simp only [List.mem_cons, List.not_mem_nil, or_false]
      rintro part (rfl | rfl | rfl | rfl)
      · exact ha.dot_notMem
      · exact hb.dot_notMem
      · exact hc.dot_notMem
      · exact hd.dot_notMem
    rw [parseIpv4, List.splitOn_intercalate _ hdot (by simp)]
    simp only [List.map_cons, List.map_nil, octet?_text ha, octet?_text hb, octet?_text hc,
      octet?_text hd]

/-- What has a colon is not a dotted quad. -/
theorem parseIpv4_colon {s : List Char} (h : ':' ∈ s) : parseIpv4 s = none := by
  have hsplit : ['.'].intercalate (s.splitOn '.') = s := List.intercalate_splitOn '.'
  rw [← hsplit] at h
  cases mem_intercalate h with
  | inl h => cases h
  | inr h =>
    obtain ⟨part, hpart, hcolon⟩ := h
    have hnone : none ∈ (s.splitOn '.').map octet? := by
      apply List.mem_map.mpr
      refine ⟨part, hpart, ?_⟩
      rw [octet?, if_neg]
      rintro ⟨-, hall, -⟩
      exact absurd (List.all_eq_true.mp hall _ hcolon) (by decide)
    rw [parseIpv4]
    split
    · rename_i heq
      rw [heq] at hnone
      simp at hnone
    · rfl

/-! ## Groups are parsed -/

theorem digitChar_hex (d : Fin 16) :
    isLowerHex (Nat.digitChar d) = true ∧ hexDigitValue (Nat.digitChar d) = d := by
  revert d
  decide

theorem toDigits_hex (n : Nat) :
    (∀ c ∈ Nat.toDigits 16 n, isLowerHex c = true) ∧ value 16 (Nat.toDigits 16 n) = n := by
  induction n using Nat.strongRecOn with
  | ind n ih =>
    rw [Nat.toDigits_eq_if (by omega)]
    split
    · rename_i hsmall
      have hdigit := digitChar_hex ⟨n, hsmall⟩
      constructor
      · intro c hc
        rw [List.mem_singleton.mp hc]
        exact hdigit.1
      · simpa [value] using hdigit.2
    · have hdigit := digitChar_hex ⟨n % 16, by omega⟩
      obtain ⟨hlower, hvalue⟩ := ih (n / 16) (by omega)
      constructor
      · intro c hc
        cases List.mem_append.mp hc with
        | inl hc => exact hlower c hc
        | inr hc =>
          rw [List.mem_singleton.mp hc]
          exact hdigit.1
      · rw [value, List.foldl_append, ← value, hvalue]
        simp only [List.foldl_cons, List.foldl_nil, hdigit.2]
        omega

/-- Hexadecimal digits that `hextet?` reads. -/
def LowerText (s : List Char) (n : Nat) : Prop :=
  HextetText s n ∧ ∀ c ∈ s, isLowerHex c = true

theorem lowerText_toDigits {n : Nat} (h : n < 65536) : LowerText (Nat.toDigits 16 n) n := by
  obtain ⟨hlower, hvalue⟩ := toDigits_hex n
  refine ⟨⟨by simp, (Nat.length_toDigits_le_iff (by omega) (by omega)).mpr (by omega), ?_, hvalue⟩,
    hlower⟩
  intro c hc
  simp [isHex, hlower c hc]

theorem lowerText_map {s : List Char} {n : Nat} (h : HextetText s n) :
    LowerText (s.map Char.toLower) n := by
  refine ⟨h.toLower, ?_⟩
  intro c hc
  obtain ⟨d, hd, rfl⟩ := List.mem_map.mp hc
  exact (toLower_hex (h.digits d hd)).1

theorem hextet?_text {s : List Char} {n : Nat} (h : LowerText s n) : hextet? s = some n := by
  have hall : s.all isLowerHex = true := List.all_eq_true.mpr h.2
  have hlength := List.length_pos_iff.mpr h.1.ne_nil
  rw [hextet?, if_pos ⟨hall, hlength, h.1.length⟩, h.1.value]

theorem mapM_hextet? {parts : List (List Char)} {ns : List Nat}
    (h : List.Forall₂ LowerText parts ns) : parts.mapM hextet? = some ns := by
  induction h with
  | nil => rfl
  | cons hs _ ih =>
    rw [List.mapM_cons, hextet?_text hs, ih]
    rfl

theorem or_field {a b : Nat} (hb : b ≤ 255) (ha : a ≤ 255) :
    ((a <<< 8) ||| b) &&& 0xffff = a * 256 + b := by
  have hor : (a <<< 8) ||| b = a * 256 + b := by
    rw [← Nat.shiftLeft_add_eq_or_of_lt (by omega) a, Nat.shiftLeft_eq]
  rw [hor]
  have hfield := and_field (a * 256 + b) 16 0
  simp only [Nat.reducePow, Nat.reduceSub, Nat.mul_one, Nat.div_one] at hfield
  rw [hfield]
  omega

/-- Behind groups without a dot, the dotted quad is replaced by its two groups. -/
theorem expandIpv4Suffix_groups {parts : List (List Char)} {ns : List Nat} (h : Groups parts ns)
    (front : List (List Char)) (hfront : ∀ part ∈ front, '.' ∉ part) :
    ∃ expanded, expandIpv4Suffix (front ++ parts.map (List.map Char.toLower)) =
      some (front ++ expanded) ∧ List.Forall₂ LowerText expanded ns := by
  induction h generalizing front with
  | nil =>
    refine ⟨[], ?_, .nil⟩
    rw [List.map_nil, List.append_nil, expandIpv4Suffix]
    split
    · rfl
    · rename_i last hlast
      rw [if_pos (hfront last (List.mem_of_getLast? hlast))]
  | quad hquad =>
    obtain ⟨ha, hb, hc, hd⟩ := hquad.le
    rw [List.map_singleton, hquad.toLower, expandIpv4Suffix]
    simp only [List.getLast?_concat, dot_mem_quad hquad, not_true_eq_false, if_false,
      parseIpv4_quad hquad, List.dropLast_concat, or_field hb ha, or_field hd hc]
    exact ⟨_, rfl, .cons (lowerText_toDigits (by omega)) (.cons (lowerText_toDigits (by omega)) .nil)⟩
  | @group s n parts ns hs _ ih =>
    have hdot : '.' ∉ s.map Char.toLower := fun hmem => (hs.toLower.plain hmem).2 rfl
    obtain ⟨expanded, hexpand, hall⟩ := ih (front ++ [s.map Char.toLower]) (by
      intro part hpart
      cases List.mem_append.mp hpart with
      | inl hpart => exact hfront part hpart
      | inr hpart =>
        rw [List.mem_singleton.mp hpart]
        exact hdot)
    refine ⟨s.map Char.toLower :: expanded, ?_, .cons (lowerText_map hs) hall⟩
    rw [List.append_assoc, List.append_assoc] at hexpand
    exact hexpand

/-! ## Texts are split at `::` -/

/-- A part between colons. -/
def Part (s : List Char) : Prop := s ≠ [] ∧ ':' ∉ s

theorem part_hextet {s : List Char} {n : Nat} (h : HextetText s n) : Part s :=
  ⟨h.ne_nil, fun hmem => (h.plain hmem).1 rfl⟩

theorem part_hextets {parts : List (List Char)} {ns : List Nat}
    (h : List.Forall₂ HextetText parts ns) : ∀ part ∈ parts, Part part := by
  induction h with
  | nil => simp
  | cons hs _ ih => exact List.forall_mem_cons.mpr ⟨part_hextet hs, ih⟩

theorem part_groups {parts : List (List Char)} {ns : List Nat} (h : Groups parts ns) :
    ∀ part ∈ parts, Part part := by
  induction h with
  | nil => simp
  | quad h =>
    intro part hpart
    rw [List.mem_singleton.mp hpart]
    refine ⟨h.ne_nil, ?_⟩
    intro hmem
    cases mem_quad h hmem with
    | inl heq => cases heq
    | inr hdigit => exact absurd hdigit (by decide)
  | group hs _ ih => exact List.forall_mem_cons.mpr ⟨part_hextet hs, ih⟩

theorem splitParts_intercalate {parts : List (List Char)} (h : ∀ part ∈ parts, Part part) :
    splitParts ([':'].intercalate parts) = parts := by
  cases parts with
  | nil => rfl
  | cons part rest =>
    have hne : [':'].intercalate (part :: rest) ≠ [] := by
      cases rest with
      | nil => simpa [List.intercalate_singleton] using (h part (by simp)).1
      | cons next rest => simp [List.intercalate_cons_cons]
    rw [splitParts, if_neg hne, List.splitOn_intercalate _ (fun p hp => (h p hp).2) (by simp)]

theorem splitPairs_cons {c : Char} (hc : c ≠ ':') (s : List Char) :
    splitPairs (c :: s) = (splitPairs s).modifyHead (c :: ·) := by
  cases s with
  | nil => rfl
  | cons d rest => rw [splitPairs, if_neg (by simp [hc])]

theorem splitPairs_colon {c : Char} (hc : c ≠ ':') (s : List Char) :
    splitPairs (':' :: c :: s) = (splitPairs (c :: s)).modifyHead (':' :: ·) := by
  rw [splitPairs, if_neg (by simp [hc])]

/-- A text in which no split falls, whatever comes behind it. -/
structure Solid (s : List Char) : Prop where
  alone : splitPairs s = [s]
  before : ∀ rest, splitPairs (s ++ ':' :: ':' :: rest) = s :: splitPairs rest

theorem Solid.nil : Solid [] where
  alone := rfl
  before rest := by rw [List.nil_append, splitPairs, if_pos ⟨rfl, rfl⟩]

theorem Solid.cons {c : Char} (hc : c ≠ ':') {s : List Char} (h : Solid s) : Solid (c :: s) where
  alone := by rw [splitPairs_cons hc, h.alone, List.modifyHead_cons]
  before rest := by rw [List.cons_append, splitPairs_cons hc, h.before, List.modifyHead_cons]

theorem Solid.colon {c : Char} (hc : c ≠ ':') {s : List Char} (h : Solid (c :: s)) :
    Solid (':' :: c :: s) where
  alone := by rw [splitPairs_colon hc, h.alone, List.modifyHead_cons]
  before rest := by
    have hbefore := h.before rest
    rw [List.cons_append] at hbefore
    rw [List.cons_append, List.cons_append, splitPairs_colon hc, hbefore, List.modifyHead_cons]

theorem Solid.append {front s : List Char} (hfront : ':' ∉ front) (h : Solid s) :
    Solid (front ++ s) := by
  induction front with
  | nil => exact h
  | cons c front ih =>
    rw [List.mem_cons, not_or] at hfront
    exact .cons (Ne.symm hfront.1) (ih hfront.2)

theorem solid_intercalate {parts : List (List Char)} (h : ∀ part ∈ parts, Part part) :
    Solid ([':'].intercalate parts) := by
  induction parts with
  | nil => exact .nil
  | cons part parts ih =>
    have hpart := h part (by simp)
    have hrest := ih fun p hp => h p (by simp [hp])
    cases parts with
    | nil =>
      rw [List.intercalate_singleton, ← List.append_nil part]
      exact Solid.append hpart.2 .nil
    | cons next rest =>
      have hnext := h next (by simp)
      have hhead : ∃ c s, c ≠ ':' ∧ [':'].intercalate (next :: rest) = c :: s := by
        cases next with
        | nil => exact absurd rfl hnext.1
        | cons c next =>
          refine ⟨c, next ++ ([':'].intercalate ([] :: rest)), ?_, ?_⟩
          · intro heq
            exact hnext.2 (by simp [heq])
          · cases rest with
            | nil => simp [List.intercalate_singleton]
            | cons _ _ => simp [List.intercalate_cons_cons]
      obtain ⟨c, s, hc, heq⟩ := hhead
      rw [heq] at hrest
      rw [List.intercalate_cons_cons, List.append_assoc, heq]
      exact Solid.append hpart.2 (.colon hc hrest)

/-! ## A text is parsed into its groups -/

theorem parseIpv6_text {s : List Char} {ns : List Nat} (h : GroupsText s ns) :
    parseIpv6 (s.map Char.toLower) = some ns := by
  have hcolon : Char.toLower ':' = ':' := by decide
  have hempty : splitParts [] = [] := rfl
  cases h with
  | @full parts _ h hlength =>
    have hparts := part_groups h.toLower
    obtain ⟨expanded, hexpand, hall⟩ := expandIpv4Suffix_groups h [] (by simp)
    rw [List.nil_append, List.nil_append] at hexpand
    have height : expanded.length = 8 := by rw [hall.length_eq, hlength]
    rw [map_intercalate, hcolon, parseIpv6, (solid_intercalate hparts).alone]
    simp only [List.head?_nil, Option.getD_none, splitParts_intercalate hparts, hempty,
      List.append_nil, hexpand, height, mapM_hextet? hall]
    simp
  | @compressed left right ls rs hleft hright hlength =>
    have hlefts := part_hextets (forall₂_toLower hleft)
    have hrights := part_groups hright.toLower
    have hdot : ∀ part ∈ left.map (List.map Char.toLower), '.' ∉ part := by
      clear hlefts
      induction hleft with
      | nil => simp
      | cons hs _ ih =>
        exact List.forall_mem_cons.mpr ⟨fun hmem => (hs.toLower.plain hmem).2 rfl,
          ih (by simp only [List.length_cons] at hlength; omega)⟩
    obtain ⟨expanded, hexpand, hall⟩ := expandIpv4Suffix_groups hright _ hdot
    have hlower : List.Forall₂ LowerText (left.map (List.map Char.toLower)) ls := by
      rw [List.forall₂_map_left_iff]
      exact hleft.imp fun _ _ hs => lowerText_map hs
    have hread := mapM_hextet? (List.rel_append hlower hall)
    have hcount : (left.map (List.map Char.toLower) ++ expanded).length = ls.length + rs.length := by
      rw [List.length_append, hlower.length_eq, hall.length_eq]
    rw [List.map_append, List.map_cons, List.map_cons, map_intercalate, map_intercalate, hcolon,
      parseIpv6, (solid_intercalate hlefts).before, (solid_intercalate hrights).alone]
    simp only [List.head?_cons, Option.getD_some, splitParts_intercalate hlefts,
      splitParts_intercalate hrights, hexpand, hcount, hread, hlower.length_eq]
    rw [if_neg (by simp; omega), if_neg (by simp), List.take_left, List.drop_left,
      List.length_append]

/-! ## Spellings of an address -/

/-- Nothing, or a zone. -/
def Zone (s : List Char) : Prop := s = [] ∨ ∃ name, s = '%' :: name

/-- A text with what can stand around it: one dot and a zone behind it, brackets around all. -/
inductive Spelling (text : List Char) : List Char → Prop
  | bare {dot zone : List Char} (hdot : dot = [] ∨ dot = ['.']) (hzone : Zone zone) :
      Spelling text (text ++ dot ++ zone)
  | bracketed {dot zone : List Char} (hdot : dot = [] ∨ dot = ['.']) (hzone : Zone zone) :
      Spelling text ('[' :: (text ++ dot ++ zone ++ [']']))

def isAddressChar (c : Char) : Bool := isHex c || c = ':' || c = '.'

/-- What all texts of addresses have in common. -/
structure Bare (text : List Char) : Prop where
  ne_nil : text ≠ []
  chars : ∀ c ∈ text, isAddressChar c = true
  last : text.getLast? ≠ some '.'

theorem addressChar_plain {c : Char} (h : isAddressChar c = true) :
    c.toNat < 128 ∧ isSpace c = false ∧ c.toLower ≠ '[' ∧ c.toLower ≠ '%' ∧ c.toLower ≠ 'l' ∧
      (c.toLower = '.' → c = '.') := by
  have hall : ∀ n : Fin 128, isAddressChar (Char.ofNat n) = true →
      (Char.ofNat n).toNat < 128 ∧ isSpace (Char.ofNat n) = false ∧ (Char.ofNat n).toLower ≠ '[' ∧
        (Char.ofNat n).toLower ≠ '%' ∧ (Char.ofNat n).toLower ≠ 'l' ∧
        ((Char.ofNat n).toLower = '.' → Char.ofNat n = '.') := by decide
  have hascii : c.toNat < 128 := by
    simp only [isAddressChar, Bool.or_eq_true, decide_eq_true_eq] at h
    rcases h with (h | h) | h
    · exact isHex_ascii h
    · subst h
      decide
    · subst h
      decide
  exact ascii_forall (P := fun c => isAddressChar c = true → c.toNat < 128 ∧ isSpace c = false ∧
    c.toLower ≠ '[' ∧ c.toLower ≠ '%' ∧ c.toLower ≠ 'l' ∧ (c.toLower = '.' → c = '.')) hall hascii h

theorem bare_dot {text dot : List Char} (h : Bare text) (hdot : dot = [] ∨ dot = ['.']) :
    ∀ c ∈ text ++ dot, isAddressChar c = true := by
  intro c hc
  cases List.mem_append.mp hc with
  | inl hc => exact h.chars c hc
  | inr hc =>
    cases hdot with
    | inl hnone =>
      rw [hnone] at hc
      cases hc
    | inr hone =>
      rw [hone, List.mem_singleton] at hc
      subst hc
      decide

/-! ## Spaces and letter case -/

theorem rdropWhile_keep {p : Char → Bool} {x : Char} (hx : p x = false) (front back : List Char) :
    (front ++ x :: back).rdropWhile p = front ++ x :: back.rdropWhile p := by
  simp only [List.rdropWhile, List.reverse_append, List.reverse_cons, List.append_assoc]
  rw [List.dropWhile_append]
  by_cases hempty : (back.reverse.dropWhile p).isEmpty
  · have hnil := List.isEmpty_iff.mp hempty
    rw [if_pos hempty, hnil]
    simp [hx]
  · rw [if_neg hempty]
    simp

theorem dropWhile_keep {p : Char → Bool} {x : Char} (hx : p x = false) (s : List Char) :
    (x :: s).dropWhile p = x :: s := by simp [hx]

/-- Only a zone can lose something to the trim. -/
theorem trim_bare {text dot zone : List Char} (h : Bare text) (hdot : dot = [] ∨ dot = ['.'])
    (hzone : Zone zone) :
    ∃ zone', trim (text ++ dot ++ zone) = text ++ dot ++ zone' ∧ Zone zone' := by
  have hchars := bare_dot h hdot
  have hleft : (text ++ dot ++ zone).dropWhile isSpace = text ++ dot ++ zone := by
    cases text with
    | nil => exact absurd rfl h.ne_nil
    | cons c text => exact dropWhile_keep (addressChar_plain (h.chars c (by simp))).2.1 _
  rw [trim, hleft]
  cases hzone with
  | inl hnone =>
    refine ⟨[], ?_, .inl rfl⟩
    rw [hnone, List.append_nil]
    cases List.eq_nil_or_concat (text ++ dot) with
    | inl hnil => simp [h.ne_nil] at hnil
    | inr hconcat =>
      obtain ⟨front, c, heq⟩ := hconcat
      have hc := (addressChar_plain (hchars c (by simp [heq]))).2.1
      rw [heq]
      rw [List.concat_eq_append, List.rdropWhile_concat_neg]
      simp [hc]
  | inr hname =>
    obtain ⟨name, rfl⟩ := hname
    exact ⟨_, rdropWhile_keep (by decide) _ _, .inr ⟨_, rfl⟩⟩

section LowerCase
variable (other : List Char → Char → List Char → List Char)

theorem lowerFrom_ascii {front : List Char} (h : ∀ c ∈ front, c.toNat < 128)
    (before rest : List Char) :
    lowerFrom other before (front ++ rest) =
      front.map Char.toLower ++ lowerFrom other (before ++ front) rest := by
  induction front generalizing before with
  | nil => simp
  | cons c front ih =>
    rw [List.cons_append, lowerFrom, if_pos (h c (by simp)), ih fun c hc => h c (by simp [hc])]
    simp

theorem lowerFrom_zone {zone : List Char} (h : Zone zone) (before : List Char) :
    Zone (lowerFrom other before zone) := by
  cases h with
  | inl hnone =>
    rw [hnone]
    exact .inl rfl
  | inr hname =>
    obtain ⟨name, rfl⟩ := hname
    exact .inr ⟨_, rfl⟩

theorem lowerFrom_bracket (before s : List Char) :
    ∃ t, lowerFrom other before (s ++ [']']) = t ++ [']'] := by
  induction s generalizing before with
  | nil => exact ⟨[], rfl⟩
  | cons c s ih =>
    obtain ⟨t, ht⟩ := ih (before ++ [c])
    rw [List.cons_append, lowerFrom, ht, ← List.append_assoc]
    exact ⟨_, rfl⟩

theorem lowerFrom_zone_bracket {zone : List Char} (h : Zone zone) (before : List Char) :
    ∃ zone', lowerFrom other before (zone ++ [']']) = zone' ++ [']'] ∧ Zone zone' := by
  cases h with
  | inl hnone =>
    rw [hnone]
    exact ⟨[], rfl, .inl rfl⟩
  | inr hname =>
    obtain ⟨name, rfl⟩ := hname
    obtain ⟨t, ht⟩ := lowerFrom_bracket other (before ++ ['%']) name
    refine ⟨'%' :: t, ?_, .inr ⟨t, rfl⟩⟩
    rw [List.cons_append, lowerFrom, ht]
    rfl

/-- The zone and the dot are cut off. -/
theorem cut_zone {text dot zone : List Char} (h : Bare text) (hdot : dot = [] ∨ dot = ['.'])
    (hzone : Zone zone) :
    stripDot (stripZone ((text ++ dot).map Char.toLower ++ zone)) = text.map Char.toLower := by
  have hcut : stripZone ((text ++ dot).map Char.toLower ++ zone) =
      (text ++ dot).map Char.toLower := by
    rw [stripZone, List.takeWhile_append_of_pos]
    · cases hzone with
      | inl hnone => simp [hnone]
      | inr hname =>
        obtain ⟨name, rfl⟩ := hname
        simp
    · intro c hc
      obtain ⟨d, hd, rfl⟩ := List.mem_map.mp hc
      simpa using (addressChar_plain (bare_dot h hdot d hd)).2.2.2.1
  rw [hcut, stripDot]
  cases hdot with
  | inl hnone =>
    rw [hnone, List.append_nil, if_neg]
    rw [List.getLast?_map]
    intro hlast
    obtain ⟨c, hc, hlower⟩ := Option.map_eq_some_iff.mp hlast
    have hchar := h.chars c (List.mem_of_getLast? hc)
    rw [(addressChar_plain hchar).2.2.2.2.2 hlower] at hc
    exact h.last hc
  | inr hone =>
    have hlower : Char.toLower '.' = '.' := by decide
    rw [hone, List.map_append, List.map_singleton, hlower, if_pos List.getLast?_concat,
      List.dropLast_concat]

/-- Whatever stands around a text, the text in lower case is what is left. -/
theorem bareHostname_spelling {text s : List Char} (h : Bare text) (hs : Spelling text s) :
    bareHostname other s = text.map Char.toLower := by
  cases hs with
  | @bare dot zone hdot hzone =>
    obtain ⟨zone', htrim, hzone'⟩ := trim_bare h hdot hzone
    have hascii : ∀ c ∈ text ++ dot, c.toNat < 128 := fun c hc =>
      (addressChar_plain (bare_dot h hdot c hc)).1
    have hhead : ((text ++ dot).map Char.toLower ++ lowerFrom other (text ++ dot) zone').head? ≠
        some '[' := by
      cases text with
      | nil => exact absurd rfl h.ne_nil
      | cons c text =>
        intro heq
        exact (addressChar_plain (h.chars c (by simp))).2.2.1 (Option.some.inj heq)
    rw [bareHostname, htrim, toLowerCase, lowerFrom_ascii other hascii, List.nil_append,
      stripBrackets, if_neg (fun hboth => hhead hboth.1)]
    exact cut_zone h hdot (lowerFrom_zone other hzone' _)
  | @bracketed dot zone hdot hzone =>
    have htrim : trim ('[' :: (text ++ dot ++ zone ++ [']'])) =
        '[' :: (text ++ dot ++ zone ++ [']']) := by
      rw [trim, dropWhile_keep (by decide), ← List.cons_append]
      exact List.rdropWhile_concat_neg _ _ _ (by decide)
    have hascii : ∀ c ∈ '[' :: (text ++ dot), c.toNat < 128 := by
      intro c hc
      cases List.mem_cons.mp hc with
      | inl heq =>
        subst heq
        decide
      | inr hc => exact (addressChar_plain (bare_dot h hdot c hc)).1
    obtain ⟨zone', hlower, hzone'⟩ := lowerFrom_zone_bracket other hzone ('[' :: (text ++ dot))
    have hopen : Char.toLower '[' = '[' := by decide
    have hall : toLowerCase other (trim ('[' :: (text ++ dot ++ zone ++ [']']))) =
        '[' :: ((text ++ dot).map Char.toLower ++ zone' ++ [']']) := by
      rw [htrim, toLowerCase, List.append_assoc (text ++ dot), ← List.cons_append,
        lowerFrom_ascii other hascii, List.nil_append, hlower, List.map_cons, hopen,
        List.cons_append, List.append_assoc]
    rw [bareHostname, hall, stripBrackets,
      if_pos ⟨rfl, by rw [← List.cons_append, List.getLast?_concat]⟩, List.drop_succ_cons,
      List.drop_zero, List.dropLast_concat]
    exact cut_zone h hdot hzone'

end LowerCase

/-! ## The answer depends on the address only -/

theorem getLast?_digits {s : List Char} {n : Nat} (h : OctetText s n) (front : List Char) :
    (front ++ s).getLast? ≠ some '.' := by
  intro hlast
  rw [List.getLast?_append] at hlast
  cases hs : s.getLast? with
  | none => exact h.ne_nil (List.getLast?_eq_none_iff.mp hs)
  | some c =>
    rw [hs, Option.some_or, Option.some.injEq] at hlast
    subst hlast
    exact h.dot_notMem (List.mem_of_getLast? hs)

theorem getLast?_quad {s : List Char} {a b c d : Nat} (h : QuadText s a b c d) :
    s.getLast? ≠ some '.' := by
  cases h with
  | @intro s t u v _ _ _ _ ha hb hc hd =>
    have hjoined : ['.'].intercalate [s, t, u, v] = (s ++ ['.'] ++ (t ++ ['.'] ++ (u ++ ['.']))) ++ v := by
      simp [List.intercalate_cons_cons, List.intercalate_singleton]
    rw [hjoined]
    exact getLast?_digits hd _

theorem bare_quad {s : List Char} {a b c d : Nat} (h : QuadText s a b c d) : Bare s where
  ne_nil := h.ne_nil
  chars := by
    intro x hx
    cases mem_quad h hx with
    | inl heq =>
      subst heq
      decide
    | inr hdigit => simp [isAddressChar, isDigit_isHex hdigit]
  last := getLast?_quad h

theorem mem_groups {parts : List (List Char)} {ns : List Nat} (h : Groups parts ns) :
    ∀ part ∈ parts, ∀ c ∈ part, isAddressChar c = true := by
  induction h with
  | nil => simp
  | quad h =>
    intro part hpart
    rw [List.mem_singleton.mp hpart]
    exact (bare_quad h).chars
  | group hs _ ih =>
    intro part hpart c hc
    cases List.mem_cons.mp hpart with
    | inl heq =>
      rw [heq] at hc
      simp [isAddressChar, hs.digits c hc]
    | inr hpart => exact ih part hpart c hc

theorem groups_of_hextets {parts : List (List Char)} {ns : List Nat}
    (h : List.Forall₂ HextetText parts ns) : Groups parts ns := by
  induction h with
  | nil => exact .nil
  | cons hs _ ih => exact .group hs ih

theorem mem_joined {parts : List (List Char)} {ns : List Nat} (h : Groups parts ns) {c : Char}
    (hc : c ∈ [':'].intercalate parts) : isAddressChar c = true := by
  cases mem_intercalate hc with
  | inl heq =>
    subst heq
    decide
  | inr hpart =>
    obtain ⟨part, hpart, hc⟩ := hpart
    exact mem_groups h part hpart c hc

theorem getLast?_joined {parts : List (List Char)} {ns : List Nat} (h : Groups parts ns) :
    ([':'].intercalate parts).getLast? ≠ some '.' := by
  induction h with
  | nil => simp
  | quad h =>
    rw [List.intercalate_singleton]
    exact getLast?_quad h
  | @group s n parts ns hs _ ih =>
    intro hlast
    cases parts with
    | nil =>
      rw [List.intercalate_singleton] at hlast
      exact (hs.plain (List.mem_of_getLast? hlast)).2 rfl
    | cons next rest =>
      rw [List.intercalate_cons_cons, List.getLast?_append, List.getLast?_concat] at hlast
      cases hrest : ([':'].intercalate (next :: rest)).getLast? with
      | none => simp [hrest] at hlast
      | some c =>
        rw [hrest, Option.some_or] at hlast
        exact ih (hrest.trans hlast)

theorem colon_mem {s : List Char} {ns : List Nat} (h : GroupsText s ns) : ':' ∈ s := by
  cases h with
  | full h hlength =>
    cases h with
    | nil => simp at hlength
    | quad h => simp at hlength
    | group hs h =>
      cases h with
      | nil => simp at hlength
      | quad h => simp [List.intercalate_cons_cons]
      | group _ _ => simp [List.intercalate_cons_cons]
  | compressed hleft hright hlength => simp

theorem bare_groups {s : List Char} {ns : List Nat} (h : GroupsText s ns) : Bare s where
  ne_nil := List.ne_nil_of_mem (colon_mem h)
  chars := by
    intro c hc
    cases h with
    | full h hlength => exact mem_joined h hc
    | compressed hleft hright hlength =>
      simp only [List.mem_append, List.mem_cons] at hc
      rcases hc with hc | heq | heq | hc
      · exact mem_joined (groups_of_hextets hleft) hc
      · subst heq
        decide
      · subst heq
        decide
      · exact mem_joined hright hc
  last := by
    cases h with
    | full h hlength => exact getLast?_joined h
    | @compressed left right ls rs hleft hright hlength =>
      intro hlast
      rw [List.getLast?_append, List.getLast?_cons_cons] at hlast
      cases hright' : ([':'].intercalate right).getLast? with
      | none =>
        rw [List.getLast?_eq_none_iff.mp hright'] at hlast
        simp at hlast
      | some c =>
        rw [List.getLast?_cons, hright', Option.getD_some, Option.some_or] at hlast
        exact getLast?_joined hright (hright'.trans hlast)

theorem not_localhost {text : List Char} (h : Bare text) :
    ¬(text.map Char.toLower = "localhost".toList ∨ ".localhost".toList <:+ text.map Char.toLower) := by
  have hletter : 'l' ∉ text.map Char.toLower := by
    intro hmem
    obtain ⟨c, hc, hlower⟩ := List.mem_map.mp hmem
    exact (addressChar_plain (h.chars c hc)).2.2.2.2.1 hlower
  rintro (heq | hsuffix)
  · rw [heq] at hletter
    exact hletter (by decide)
  · exact hletter (hsuffix.subset (by decide))

variable (other : List Char → Char → List Char → List Char)

theorem isPrivateHostname_ipv4 {address : Ipv4} {text s : List Char} (htext : Ipv4Text address text)
    (hs : Spelling text s) : isPrivateHostname other s = true ↔ PrivateIpv4 address := by
  have hbare := bare_quad htext
  have hlower : text.map Char.toLower = text := htext.toLower
  have hnot := not_localhost hbare
  rw [hlower] at hnot
  rw [isPrivateHostname, bareHostname_spelling other hbare hs, hlower]
  simp only [if_neg hnot, parseIpv4_quad htext]
  exact isPrivateIpv4_octets address.isLt _ _

theorem isPrivateHostname_ipv6 {address : Ipv6} {text s : List Char} (htext : Ipv6Text address text)
    (hs : Spelling text s) : isPrivateHostname other s = true ↔ PrivateIpv6 address := by
  have hbare := bare_groups htext
  have hcolon : ':' ∈ text.map Char.toLower := colon_mem htext.toLower
  rw [isPrivateHostname, bareHostname_spelling other hbare hs]
  simp only [if_neg (not_localhost hbare), parseIpv4_colon hcolon, if_pos hcolon, isPrivateIpv6,
    parseIpv6_text htext]
  exact isPrivateHextets_iff address.isLt

end PublicUrl
end EnboxDwn
