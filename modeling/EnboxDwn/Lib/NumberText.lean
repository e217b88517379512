import Mathlib.Data.List.DropRight
import Mathlib.Data.Nat.Digits.Lemmas

/-! Numbers as the text of a program shows them: the digits that matter, without a zero at either
end, and where the point stands among them. Up to 21 places are written out; beyond that, and from
seven zeros behind the point on, there is an exponent. -/

/-- The decimal digits of a number other than zero. -/
structure Significand where
  digits : List (Fin 10)
  ne_nil : digits ≠ []
  head_ne : ∀ d ∈ digits.head?, d ≠ 0
  last_ne : ∀ d ∈ digits.getLast?, d ≠ 0
  deriving DecidableEq

/-- A finite number; the point stands behind so many digits, or so many zeros before them. -/
inductive Number where
  | zero
  | nonzero (negative : Bool) (significand : Significand) (point : Int)

namespace Number

inductive Symbol where
  | digit (d : Fin 10)
  | point
  | exponent
  | plus
  | minus
  deriving DecidableEq, Repr

open Symbol

def natDigits (n : Nat) : List (Fin 10) := (Nat.digits 10 n).reverse.map (Fin.ofNat 10)

def body (digits : List (Fin 10)) (n : Int) : List Symbol :=
  if digits.length ≤ n ∧ n ≤ 21 then
    digits.map digit ++ List.replicate (n.toNat - digits.length) (digit 0)
  else if 0 < n ∧ n ≤ 21 then
    (digits.take n.toNat).map digit ++ point :: (digits.drop n.toNat).map digit
  else if -6 < n ∧ n ≤ 0 then
    digit 0 :: point :: (List.replicate (-n).toNat (digit 0) ++ digits.map digit)
  else
    (digits.take 1).map digit ++
      ((if digits.length = 1 then [] else point :: (digits.drop 1).map digit) ++
        exponent :: (if n - 1 < 0 then minus else plus) :: (natDigits (n - 1).natAbs).map digit)

def symbols : Number → List Symbol
  | zero => [digit 0]
  | nonzero negative significand n =>
    (if negative then [minus] else []) ++ body significand.digits n

/-! ## Reading -/

def digit? : Symbol → Option (Fin 10)
  | digit d => some d
  | _ => none

def digitsOf (text : List Symbol) : List (Fin 10) := text.filterMap digit?

def ofDigits (digits : List (Fin 10)) : Nat := Nat.ofDigits 10 (digits.reverse.map Fin.val)

def readFixed (text : List Symbol) : List (Fin 10) × Int :=
  match text.takeWhile (· ≠ point), text.dropWhile (· ≠ point) with
  | whole, _ :: fraction =>
    if whole = [digit 0] then
      ((digitsOf fraction).dropWhile (· = 0), -((digitsOf fraction).takeWhile (· = 0)).length)
    else (digitsOf whole ++ digitsOf fraction, whole.length)
  | whole, [] => ((digitsOf whole).rdropWhile (· = 0), whole.length)

def readBody (text : List Symbol) : List (Fin 10) × Int :=
  match text.takeWhile (· ≠ exponent), text.dropWhile (· ≠ exponent) with
  | mantissa, _ :: minus :: digits => (digitsOf mantissa, 1 - ofDigits (digitsOf digits))
  | mantissa, _ :: digits => (digitsOf mantissa, 1 + ofDigits (digitsOf digits))
  | mantissa, [] => readFixed mantissa

def read : List Symbol → Bool × List (Fin 10) × Int
  | minus :: text => (true, readBody text)
  | text => (false, readBody text)

theorem digitsOf_map (digits : List (Fin 10)) : digitsOf (digits.map digit) = digits := by
  induction digits with
  | nil => rfl
  | cons d digits ih => simpa [digitsOf, digit?] using ih

theorem digitsOf_append (front back : List Symbol) :
    digitsOf (front ++ back) = digitsOf front ++ digitsOf back := by simp [digitsOf]

theorem ne_of_mem_digits (digits : List (Fin 10)) {x : Symbol} (hx : ∀ d, digit d ≠ x) :
    ∀ y ∈ digits.map digit, y ≠ x := by
  intro y hy
  obtain ⟨d, -, rfl⟩ := List.mem_map.mp hy
  exact hx d

theorem ofDigits_natDigits (n : Nat) : ofDigits (natDigits n) = n := by
  have hdigits : ((Nat.digits 10 n).map (Fin.ofNat 10)).map Fin.val = Nat.digits 10 n := by
    rw [List.map_map]
    rw [List.map_congr_left (g := id) ?_, List.map_id]
    intro d hd
    have hlt := Nat.digits_lt_base (by omega : 1 < 10) hd
    simp only [Function.comp_apply, Fin.val_ofNat, id_eq]
    exact Nat.mod_eq_of_lt hlt
  rw [ofDigits, natDigits, ← List.map_reverse, List.reverse_reverse, hdigits, Nat.ofDigits_digits]

theorem takeWhile_cut {p : Symbol → Bool} {front back : List Symbol} {x : Symbol}
    (hfront : ∀ y ∈ front, p y = true) (hx : p x = false) :
    (front ++ x :: back).takeWhile p = front := by
  rw [List.takeWhile_append_of_pos hfront, List.takeWhile_cons_of_neg (by simp [hx]),
    List.append_nil]

theorem dropWhile_cut {p : Symbol → Bool} {front back : List Symbol} {x : Symbol}
    (hfront : ∀ y ∈ front, p y = true) (hx : p x = false) :
    (front ++ x :: back).dropWhile p = x :: back := by
  rw [List.dropWhile_append_of_pos hfront, List.dropWhile_cons_of_neg (by simp [hx])]

theorem readBody_fixed {text : List Symbol} (h : ∀ y ∈ text, y ≠ exponent) :
    readBody text = readFixed text := by
  have htake : text.takeWhile (· ≠ exponent) = text :=
    List.takeWhile_eq_self_iff.mpr fun y hy => by simpa using h y hy
  have hdrop : text.dropWhile (· ≠ exponent) = [] :=
    List.dropWhile_eq_nil_iff.mpr fun y hy => by simpa using h y hy
  simp only [readBody, htake, hdrop]

theorem readFixed_whole (digits : List (Fin 10)) :
    readFixed (digits.map digit) = (digits.rdropWhile (· = 0), (digits.length : Int)) := by
  have hplain := ne_of_mem_digits digits (x := point) (by simp)
  have htake : (digits.map digit).takeWhile (· ≠ point) = digits.map digit :=
    List.takeWhile_eq_self_iff.mpr fun y hy => by simpa using hplain y hy
  have hdrop : (digits.map digit).dropWhile (· ≠ point) = [] :=
    List.dropWhile_eq_nil_iff.mpr fun y hy => by simpa using hplain y hy
  simp only [readFixed, htake, hdrop, digitsOf_map, List.length_map]

theorem readFixed_point (whole fraction : List (Fin 10)) :
    readFixed (whole.map digit ++ point :: fraction.map digit) =
      if whole = [0] then
        (fraction.dropWhile (· = 0), -((fraction.takeWhile (· = 0)).length : Int))
      else (whole ++ fraction, (whole.length : Int)) := by
  have hplain := ne_of_mem_digits whole (x := point) (by simp)
  have htake : (whole.map digit ++ point :: fraction.map digit).takeWhile (· ≠ point) =
      whole.map digit := takeWhile_cut (fun y hy => by simpa using hplain y hy) (by simp)
  have hdrop : (whole.map digit ++ point :: fraction.map digit).dropWhile (· ≠ point) =
      point :: fraction.map digit :=
    dropWhile_cut (fun y hy => by simpa using hplain y hy) (by simp)
  have hzero : whole.map digit = [digit 0] ↔ whole = [0] := by
    rw [← List.map_singleton (f := digit) (a := 0)]
    exact (List.map_injective_iff.mpr fun a b h => by simpa using h).eq_iff
  simp only [readFixed, htake, hdrop, digitsOf_map, List.length_map, hzero]

theorem readBody_exponent {mantissa : List Symbol} (negative : Bool) (digits : List (Fin 10))
    (h : ∀ y ∈ mantissa, y ≠ exponent) :
    readBody (mantissa ++ exponent :: (if negative then minus else plus) :: digits.map digit) =
      (digitsOf mantissa, if negative then 1 - (ofDigits digits : Int)
        else 1 + (ofDigits digits : Int)) := by
  have htake : (mantissa ++ exponent :: (if negative then minus else plus) ::
      digits.map digit).takeWhile (· ≠ exponent) = mantissa :=
    takeWhile_cut (fun y hy => by simpa using h y hy) (by simp)
  have hdrop : (mantissa ++ exponent :: (if negative then minus else plus) ::
      digits.map digit).dropWhile (· ≠ exponent) =
        exponent :: (if negative then minus else plus) :: digits.map digit :=
    dropWhile_cut (fun y hy => by simpa using h y hy) (by simp)
  simp only [readBody, htake, hdrop]
  cases negative with
  | true => simp only [if_true, digitsOf_map]
  | false =>
    have hplus : digitsOf (plus :: digits.map digit) = digits := digitsOf_map digits
    simp only [Bool.false_eq_true, if_false, hplus]

theorem rdropWhile_zeros {digits : List (Fin 10)}
    (hlast : ∀ d ∈ digits.getLast?, d ≠ 0) (n : Nat) :
    (digits ++ List.replicate n 0).rdropWhile (· = 0) = digits := by
  induction n with
  | zero =>
    rw [List.replicate_zero, List.append_nil, List.rdropWhile_eq_self_iff]
    intro hnil hzero
    exact hlast _ (List.getLast?_eq_some_getLast hnil) (by simpa using hzero)
  | succ n ih =>
    rw [List.replicate_succ', ← List.append_assoc, List.rdropWhile_concat_pos _ _ _ (by simp), ih]

theorem head_zeros {digits : List (Fin 10)} (hne : digits ≠ [])
    (hhead : ∀ d ∈ digits.head?, d ≠ 0) (n : Nat) :
    (List.replicate n 0 ++ digits).dropWhile (· = 0) = digits ∧
      (List.replicate n 0 ++ digits).takeWhile (· = 0) = List.replicate n 0 := by
  have hzeros : ∀ d ∈ List.replicate n (0 : Fin 10), decide (d = 0) = true := by
    intro d hd
    simp [List.eq_of_mem_replicate hd]
  cases digits with
  | nil => exact absurd rfl hne
  | cons d rest =>
    have hd : decide (d = 0) = false := by simpa using hhead d (by simp)
    rw [List.dropWhile_append_of_pos hzeros, List.takeWhile_append_of_pos hzeros,
      List.dropWhile_cons_of_neg (by simp [hd]), List.takeWhile_cons_of_neg (by simp [hd]),
      List.append_nil]
    exact ⟨rfl, rfl⟩

theorem body_whole {digits : List (Fin 10)} {n : Int} (h : digits.length ≤ n ∧ n ≤ 21) :
    body digits n = (digits ++ List.replicate (n.toNat - digits.length) 0).map digit := by
  rw [body, if_pos h, List.map_append, List.map_replicate]

theorem body_inside {digits : List (Fin 10)} {n : Int} (hnot : ¬(digits.length ≤ n ∧ n ≤ 21))
    (h : 0 < n ∧ n ≤ 21) :
    body digits n =
      (digits.take n.toNat).map digit ++ point :: (digits.drop n.toNat).map digit := by
  rw [body, if_neg hnot, if_pos h]

theorem body_behind {digits : List (Fin 10)} {n : Int} (hnot : ¬(digits.length ≤ n ∧ n ≤ 21))
    (hinside : ¬(0 < n ∧ n ≤ 21)) (h : -6 < n ∧ n ≤ 0) :
    body digits n =
      [0].map digit ++ point :: (List.replicate (-n).toNat 0 ++ digits).map digit := by
  rw [body, if_neg hnot, if_neg hinside, if_pos h, List.map_append, List.map_replicate]
  rfl

/-- The digits before an exponent, with the point behind the first. -/
def mantissa (digits : List (Fin 10)) : List Symbol :=
  (digits.take 1).map digit ++ if digits.length = 1 then [] else point :: (digits.drop 1).map digit

theorem body_exponent {digits : List (Fin 10)} {n : Int} (hnot : ¬(digits.length ≤ n ∧ n ≤ 21))
    (hinside : ¬(0 < n ∧ n ≤ 21)) (hbehind : ¬(-6 < n ∧ n ≤ 0)) :
    body digits n = mantissa digits ++ exponent ::
      (if decide (n - 1 < 0) then minus else plus) :: (natDigits (n - 1).natAbs).map digit := by
  rw [body, if_neg hnot, if_neg hinside, if_neg hbehind, mantissa, List.append_assoc]
  simp only [decide_eq_true_eq]

theorem mantissa_digits (digits : List (Fin 10)) : digitsOf (mantissa digits) = digits := by
  rw [mantissa, digitsOf_append, digitsOf_map]
  by_cases hone : digits.length = 1
  · rw [if_pos hone, List.take_of_length_le (by omega)]
    simp [digitsOf]
  · have hpoint : digitsOf (point :: (digits.drop 1).map digit) = digits.drop 1 :=
      digitsOf_map (digits.drop 1)
    rw [if_neg hone, hpoint, List.take_append_drop]

theorem mantissa_plain (digits : List (Fin 10)) : ∀ y ∈ mantissa digits, y ≠ exponent := by
  intro y hy
  rw [mantissa, List.mem_append] at hy
  cases hy with
  | inl hfirst => exact ne_of_mem_digits _ (by simp) y hfirst
  | inr hrest =>
    split at hrest
    · cases hrest
    · cases hrest with
      | head => simp
      | tail _ hrest => exact ne_of_mem_digits _ (by simp) y hrest

theorem fixed_plain (whole fraction : List (Fin 10)) :
    ∀ y ∈ whole.map digit ++ point :: fraction.map digit, y ≠ exponent := by
  intro y hy
  cases List.mem_append.mp hy with
  | inl hwhole => exact ne_of_mem_digits _ (by simp) y hwhole
  | inr hrest =>
    cases hrest with
    | head => simp
    | tail _ hfraction => exact ne_of_mem_digits _ (by simp) y hfraction

theorem take_ne_zero (s : Significand) {n : Nat} (hn : 0 < n) : s.digits.take n ≠ [0] := by
  intro heq
  cases hdigits : s.digits with
  | nil => exact s.ne_nil hdigits
  | cons d rest =>
    have hd := s.head_ne d (by simp [hdigits])
    obtain ⟨m, rfl⟩ := Nat.exists_eq_succ_of_ne_zero (show n ≠ 0 by omega)
    rw [hdigits, List.take_succ_cons, List.cons.injEq] at heq
    exact hd heq.1

theorem readBody_body (s : Significand) (n : Int) : readBody (body s.digits n) = (s.digits, n) := by
  have hlen : 0 < s.digits.length := List.length_pos_iff.mpr s.ne_nil
  by_cases hwhole : s.digits.length ≤ n ∧ n ≤ 21
  · rw [body_whole hwhole, readBody_fixed (ne_of_mem_digits _ (by simp)), readFixed_whole,
      rdropWhile_zeros s.last_ne]
    simp only [List.length_append, List.length_replicate, Prod.mk.injEq, true_and]
    omega
  by_cases hinside : 0 < n ∧ n ≤ 21
  · rw [body_inside hwhole hinside, readBody_fixed (fixed_plain _ _), readFixed_point,
      if_neg (take_ne_zero s (by omega)), List.take_append_drop]
    simp only [List.length_take, Prod.mk.injEq, true_and]
    omega
  by_cases hbehind : -6 < n ∧ n ≤ 0
  · have hzeros := head_zeros s.ne_nil s.head_ne (-n).toNat
    rw [body_behind hwhole hinside hbehind, readBody_fixed (fixed_plain _ _), readFixed_point,
      if_pos rfl, hzeros.1, hzeros.2]
    simp only [List.length_replicate, Prod.mk.injEq, true_and]
    omega
  · rw [body_exponent hwhole hinside hbehind, readBody_exponent _ _ (mantissa_plain _),
      mantissa_digits, ofDigits_natDigits]
    simp only [Prod.mk.injEq, true_and, decide_eq_true_eq]
    split <;> omega

theorem body_head (s : Significand) (n : Int) : ∃ d text, body s.digits n = digit d :: text := by
  cases hdigits : s.digits with
  | nil => exact absurd hdigits s.ne_nil
  | cons d rest =>
    simp only [body]
    split_ifs with hwhole hinside hbehind
    · exact ⟨d, _, rfl⟩
    · obtain ⟨m, hm⟩ := Nat.exists_eq_succ_of_ne_zero (show n.toNat ≠ 0 by omega)
      rw [hm, List.take_succ_cons]
      exact ⟨d, _, rfl⟩
    · exact ⟨0, _, rfl⟩
    · exact ⟨d, _, rfl⟩
    · exact ⟨d, _, rfl⟩
    · exact ⟨d, _, rfl⟩
    · exact ⟨d, _, rfl⟩

theorem read_nonzero (negative : Bool) (s : Significand) (n : Int) :
    read (symbols (nonzero negative s n)) = (negative, s.digits, n) := by
  have hbody := readBody_body s n
  obtain ⟨d, text, htext⟩ := body_head s n
  cases negative with
  | true => simp [symbols, read, hbody]
  | false =>
    simp only [symbols, Bool.false_eq_true, if_false, List.nil_append]
    rw [htext] at hbody ⊢
    simp [read, hbody]

theorem symbols_injective : Function.Injective symbols := by
  intro x y h
  have hread := congrArg read h
  have hzero : (read (symbols zero)).2.1 = [] := by decide
  cases x with
  | zero =>
    cases y with
    | zero => rfl
    | nonzero negative s n =>
      rw [read_nonzero] at hread
      rw [hread] at hzero
      exact absurd hzero s.ne_nil
  | nonzero negative s n =>
    cases y with
    | zero =>
      rw [read_nonzero] at hread
      rw [← hread] at hzero
      exact absurd hzero s.ne_nil
    | nonzero negative' s' n' =>
      rw [read_nonzero, read_nonzero] at hread
      simp only [Prod.mk.injEq] at hread
      obtain ⟨rfl, hdigits, rfl⟩ := hread
      cases s
      cases s'
      cases hdigits
      rfl

theorem symbols_ne_nil (x : Number) : symbols x ≠ [] := by
  cases x with
  | zero => simp [symbols]
  | nonzero negative s n =>
    obtain ⟨d, text, htext⟩ := body_head s n
    simp [symbols, htext]

end Number
