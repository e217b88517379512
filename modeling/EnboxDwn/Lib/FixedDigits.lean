import Mathlib.Data.List.Induction
import Mathlib.Data.List.Lex
import Mathlib.Algebra.Group.Nat.Defs

/-! Numbers as decimal digits of a fixed width: padding, reading, and the order of such texts. -/
namespace FixedDigits

def fixed : Nat → Nat → List Char
  | 0, _ => []
  | width + 1, n => fixed width (n / 10) ++ [Nat.digitChar (n % 10)]

/-- The digits of a number with zeros in front up to a length. -/
def pad (length n : Nat) : List Char :=
  List.replicate (length - (Nat.toDigits 10 n).length) '0' ++ Nat.toDigits 10 n

def isDigit (c : Char) : Bool := 48 ≤ c.toNat && c.toNat ≤ 57

def value (s : List Char) : Nat := s.foldl (fun n c => n * 10 + (c.toNat - 48)) 0

/-- Reads so many digits. -/
def digits? (width : Nat) (s : List Char) : Option (Nat × List Char) :=
  if (s.take width).length = width ∧ (s.take width).all isDigit then
    some (value (s.take width), s.drop width)
  else none

def literal? (c : Char) (s : List Char) : Option (List Char) :=
  if s.head? = some c then some s.tail else none

/-! ## Width and padding -/

@[simp] theorem length_fixed (width n : Nat) : (fixed width n).length = width := by
  induction width generalizing n with
  | zero => rfl
  | succ width ih => rw [fixed, List.length_append, ih, List.length_singleton]

theorem fixed_zero (width : Nat) : fixed width 0 = List.replicate width '0' := by
  induction width with
  | zero => rfl
  | succ width ih =>
    rw [fixed, Nat.zero_div, ih, List.replicate_succ']
    rfl

theorem pad_succ {width n : Nat} (h : n < 10 ^ (width + 1)) :
    pad (width + 1) n = fixed (width + 1) n := by
  induction width generalizing n with
  | zero =>
    rw [pad, Nat.toDigits_of_lt_base (by omega)]
    have hmod : n % 10 = n := Nat.mod_eq_of_lt (by omega)
    simp [fixed, hmod]
  | succ width ih =>
    by_cases hsmall : n < 10
    · have hzero : n / 10 = 0 := by omega
      rw [pad, Nat.toDigits_of_lt_base hsmall, fixed, hzero, fixed_zero, Nat.mod_eq_of_lt hsmall]
      rfl
    · have hdiv : n / 10 < 10 ^ (width + 1) := by omega
      rw [fixed, ← ih hdiv, pad, pad, Nat.toDigits_of_base_le (by omega) (by omega),
        List.length_append, List.length_singleton, Nat.add_sub_add_right, List.append_assoc]

theorem pad_eq {width n : Nat} (hwidth : 0 < width) (h : n < 10 ^ width) :
    pad width n = fixed width n := by
  cases width with
  | zero => cases hwidth
  | succ width => exact pad_succ h

/-! ## Order -/

theorem append_lt {a b c d : List Char} (hlength : a.length = b.length) (h : a < b) :
    a ++ c < b ++ d := by
  induction a generalizing b with
  | nil =>
    rw [List.length_nil] at hlength
    rw [List.eq_nil_of_length_eq_zero hlength.symm] at h
    exact absurd h (List.lt_irrefl _)
  | cons x a ih =>
    cases b with
    | nil => cases hlength
    | cons y b =>
      rw [List.cons_lt_cons_iff] at h
      rw [List.cons_append, List.cons_append, List.cons_lt_cons_iff]
      cases h with
      | inl hxy => exact .inl hxy
      | inr h => exact .inr ⟨h.1, ih (Nat.succ.inj hlength) h.2⟩

theorem append_left_lt {c d : List Char} (a : List Char) (h : c < d) : a ++ c < a ++ d := by
  induction a with
  | nil => exact h
  | cons x a ih => exact List.cons_lt_cons_iff.mpr (.inr ⟨rfl, ih⟩)

theorem digitChar_lt {m n : Nat} (hmn : m < n) (hn : n < 10) : Nat.digitChar m < Nat.digitChar n := by
  have hall : ∀ n : Fin 10, ∀ m : Fin 10, m < n → Nat.digitChar m < Nat.digitChar n := by decide
  exact hall ⟨n, hn⟩ ⟨m, by omega⟩ hmn

theorem fixed_lt {width m n : Nat} (hmn : m < n) (hn : n < 10 ^ width) :
    fixed width m < fixed width n := by
  induction width generalizing m n with
  | zero =>
    rw [Nat.pow_zero] at hn
    omega
  | succ width ih =>
    rw [fixed, fixed]
    by_cases htens : m / 10 < n / 10
    · exact append_lt (by simp) (ih htens (by omega))
    · have hsame : m / 10 = n / 10 := by omega
      have hdigit := digitChar_lt (show m % 10 < n % 10 by omega) (by omega)
      rw [hsame]
      exact append_left_lt _ (List.cons_lt_cons_iff.mpr (.inl hdigit))

/-- Texts that begin with a number compare by the number first. -/
theorem fixed_append_lt {width m n : Nat} {s t : List Char} (hn : n < 10 ^ width)
    (h : m < n ∨ m = n ∧ s < t) : fixed width m ++ s < fixed width n ++ t := by
  cases h with
  | inl hmn => exact append_lt (by simp) (fixed_lt hmn hn)
  | inr h =>
    rw [h.1]
    exact append_left_lt _ h.2

theorem cons_lt {s t : List Char} (c : Char) (h : s < t) : c :: s < c :: t :=
  List.cons_lt_cons_iff.mpr (.inr ⟨rfl, h⟩)

/-! ## Reading -/

theorem value_concat (s : List Char) (c : Char) :
    value (s ++ [c]) = value s * 10 + (c.toNat - 48) := by
  rw [value, List.foldl_append]
  rfl

theorem digitChar_digit {n : Nat} (h : n < 10) :
    isDigit (Nat.digitChar n) = true ∧ (Nat.digitChar n).toNat - 48 = n := by
  have hall : ∀ n : Fin 10, isDigit (Nat.digitChar n) = true ∧
      (Nat.digitChar n).toNat - 48 = n := by decide
  exact hall ⟨n, h⟩

theorem fixed_digits (width n : Nat) : (fixed width n).all isDigit = true := by
  induction width generalizing n with
  | zero => rfl
  | succ width ih =>
    rw [fixed, List.all_append, ih]
    simp [(digitChar_digit (Nat.mod_lt n (by omega : 10 > 0))).1]

theorem value_fixed {width n : Nat} (h : n < 10 ^ width) : value (fixed width n) = n := by
  induction width generalizing n with
  | zero =>
    rw [Nat.pow_zero] at h
    rw [Nat.lt_one_iff.mp h]
    rfl
  | succ width ih =>
    rw [fixed, value_concat, ih (by omega), (digitChar_digit (Nat.mod_lt n (by omega))).2]
    omega

theorem digitChar_toNat {c : Char} (h : isDigit c = true) : Nat.digitChar (c.toNat - 48) = c := by
  simp only [isDigit, Bool.and_eq_true, decide_eq_true_eq] at h
  have hall : ∀ n : Fin 10, Nat.digitChar n = Char.ofNat (48 + n) := by decide
  have heq := hall ⟨c.toNat - 48, by omega⟩
  rw [heq, Nat.add_sub_cancel' h.1, Char.ofNat_toNat]

theorem fixed_value (s : List Char) (h : s.all isDigit = true) :
    fixed s.length (value s) = s ∧ value s < 10 ^ s.length := by
  induction s using List.reverseRecOn with
  | nil => exact ⟨rfl, by decide⟩
  | append_singleton s c ih =>
    rw [List.all_append, Bool.and_eq_true] at h
    obtain ⟨hfixed, hlt⟩ := ih h.1
    have hc : isDigit c = true := by simpa using h.2
    have hbounds : c.toNat - 48 < 10 := by
      simp only [isDigit, Bool.and_eq_true, decide_eq_true_eq] at hc
      omega
    rw [value_concat, List.length_append, List.length_singleton, fixed]
    have hdiv : (value s * 10 + (c.toNat - 48)) / 10 = value s := by omega
    have hmod : (value s * 10 + (c.toNat - 48)) % 10 = c.toNat - 48 := by omega
    rw [hdiv, hmod, hfixed, digitChar_toNat hc]
    exact ⟨rfl, by omega⟩

theorem digits?_iff {width n : Nat} {s rest : List Char} :
    digits? width s = some (n, rest) ↔ n < 10 ^ width ∧ s = fixed width n ++ rest := by
  rw [digits?]
  constructor
  · intro h
    split_ifs at h with hdigits
    cases h
    obtain ⟨hfixed, hlt⟩ := fixed_value _ hdigits.2
    rw [hdigits.1] at hfixed hlt
    exact ⟨hlt, by rw [hfixed, List.take_append_drop]⟩
  · rintro ⟨hlt, rfl⟩
    have htake : (fixed width n ++ rest).take width = fixed width n :=
      List.take_left' (length_fixed width n)
    have hdrop : (fixed width n ++ rest).drop width = rest :=
      List.drop_left' (length_fixed width n)
    rw [htake, hdrop, if_pos ⟨length_fixed width n, fixed_digits width n⟩, value_fixed hlt]

theorem literal?_iff {c : Char} {s rest : List Char} :
    literal? c s = some rest ↔ s = c :: rest := by
  cases s with
  | nil => simp [literal?]
  | cons x s =>
    simp only [literal?, List.head?_cons, Option.some.injEq, List.tail_cons, List.cons.injEq]
    split_ifs with hx
    · simp [hx]
    · simp [hx]

end FixedDigits
