import Mathlib.Algebra.Order.Field.Power
import Mathlib.Data.Int.Log
import Mathlib.Data.Rat.Floor
import Mathlib.Tactic.Linarith
import Mathlib.Tactic.NormNum
import Mathlib.Tactic.Positivity

/-! Double-precision numbers, as the rationals they stand for: rounding to the nearest one, and to
the even one of two, with nothing left where the result is beyond the largest. -/
namespace Binary64

/-- The integer nearest to a rational, of two the even one. -/
def nearest (x : Rat) : Int :=
  if x - ⌊x⌋ < 1 / 2 then ⌊x⌋
  else if 1 / 2 < x - ⌊x⌋ then ⌊x⌋ + 1
  else if ⌊x⌋ % 2 = 0 then ⌊x⌋ else ⌊x⌋ + 1

def lastPlace (x : Rat) : Int := max (Int.log 2 |x| - 52) (-1074)

def toPlaces (x : Rat) : Rat := nearest (x / 2 ^ lastPlace x) * 2 ^ lastPlace x

/-- The number nearest to a rational; `none` is an infinity. -/
def round (x : Rat) : Option Rat := if |toPlaces x| < 2 ^ 1024 then some (toPlaces x) else none

theorem floor_le_nearest (x : Rat) : ⌊x⌋ ≤ nearest x := by
  simp only [nearest]
  split_ifs <;> omega

theorem nearest_le_succ (x : Rat) : nearest x ≤ ⌊x⌋ + 1 := by
  simp only [nearest]
  split_ifs <;> omega

theorem nearest_intCast (n : Int) : nearest n = n := by
  simp [nearest]

theorem nearest_mono {x y : Rat} (h : x ≤ y) : nearest x ≤ nearest y := by
  have hfloor : ⌊x⌋ ≤ ⌊y⌋ := Int.floor_mono h
  by_cases heq : ⌊x⌋ = ⌊y⌋
  · have hpart : x - (⌊y⌋ : Rat) ≤ y - ⌊y⌋ := by linarith
    simp only [nearest, heq]
    split_ifs <;> first | omega | (exfalso; linarith)
  · have hx := nearest_le_succ x
    have hy := floor_le_nearest y
    omega

theorem lastPlace_mono {x y : Rat} (hx : 0 < x) (h : x ≤ y) : lastPlace x ≤ lastPlace y := by
  have hlog : Int.log 2 |x| ≤ Int.log 2 |y| := by
    rw [abs_of_pos hx, abs_of_pos (lt_of_lt_of_le hx h)]
    exact Int.log_mono_right hx h
  simp only [lastPlace]
  omega

theorem toPlaces_eq {x : Rat} {n : Int} (h : x / 2 ^ lastPlace x = n) : toPlaces x = x := by
  have hunit : (2 : Rat) ^ lastPlace x ≠ 0 := by positivity
  rw [toPlaces, h, nearest_intCast, ← h]
  exact div_mul_cancel₀ x hunit

theorem unit_pos (e : Int) : (0 : Rat) < 2 ^ e := by positivity

/-- A power of two from the last place on is a whole number of units. -/
theorem exists_units {e place : Int} (h : place ≤ e) :
    ∃ n : Int, (n : Rat) * 2 ^ place = 2 ^ e := by
  obtain ⟨d, hd⟩ := Int.eq_ofNat_of_zero_le (show 0 ≤ e - place by omega)
  refine ⟨2 ^ d, ?_⟩
  push_cast
  rw [← zpow_natCast, ← hd, ← zpow_add₀ (by norm_num)]
  congr 1
  omega

theorem toPlaces_le_zpow {x : Rat} {e : Int} (hplace : lastPlace x ≤ e) (h : x ≤ 2 ^ e) :
    toPlaces x ≤ 2 ^ e := by
  obtain ⟨n, hn⟩ := exists_units hplace
  have hunits : x / 2 ^ lastPlace x ≤ n := by
    rw [div_le_iff₀ (unit_pos _), hn]
    exact h
  have hnearest := nearest_mono hunits
  rw [nearest_intCast] at hnearest
  have hcast : (nearest (x / 2 ^ lastPlace x) : Rat) ≤ n := by exact_mod_cast hnearest
  rw [← hn]
  exact mul_le_mul_of_nonneg_right hcast (le_of_lt (unit_pos _))

theorem zpow_le_toPlaces {x : Rat} {e : Int} (hplace : lastPlace x ≤ e) (h : 2 ^ e ≤ x) :
    2 ^ e ≤ toPlaces x := by
  obtain ⟨n, hn⟩ := exists_units hplace
  have hunits : n ≤ x / 2 ^ lastPlace x := by
    rw [le_div_iff₀ (unit_pos _), hn]
    exact h
  have hnearest := nearest_mono hunits
  rw [nearest_intCast] at hnearest
  have hcast : (n : Rat) ≤ nearest (x / 2 ^ lastPlace x) := by exact_mod_cast hnearest
  rw [← hn]
  exact mul_le_mul_of_nonneg_right hcast (le_of_lt (unit_pos _))

theorem toPlaces_nonneg {x : Rat} (hx : 0 ≤ x) : 0 ≤ toPlaces x := by
  have hunits : ((0 : Int) : Rat) ≤ x / 2 ^ lastPlace x := by
    push_cast
    exact div_nonneg hx (le_of_lt (unit_pos _))
  have hnearest := nearest_mono hunits
  rw [nearest_intCast] at hnearest
  have hcast : (0 : Rat) ≤ nearest (x / 2 ^ lastPlace x) := by exact_mod_cast hnearest
  exact mul_nonneg hcast (le_of_lt (unit_pos _))

theorem toPlaces_mono {x y : Rat} (hx : 0 < x) (h : x ≤ y) : toPlaces x ≤ toPlaces y := by
  have hy : 0 < y := lt_of_lt_of_le hx h
  have hplace := lastPlace_mono hx h
  by_cases heq : lastPlace x = lastPlace y
  · have hunits : x / 2 ^ lastPlace y ≤ y / 2 ^ lastPlace y :=
      div_le_div_of_nonneg_right h (le_of_lt (unit_pos _))
    have hnearest : (nearest (x / 2 ^ lastPlace y) : Rat) ≤ nearest (y / 2 ^ lastPlace y) := by
      exact_mod_cast nearest_mono hunits
    rw [toPlaces, toPlaces, heq]
    exact mul_le_mul_of_nonneg_right hnearest (le_of_lt (unit_pos _))
  · -- The power of two that `y` reaches and `x` does not separates the two.
    have hplaces : lastPlace y ≤ Int.log 2 y ∧ lastPlace x ≤ Int.log 2 y ∧
        Int.log 2 x + 1 ≤ Int.log 2 y := by
      simp only [lastPlace, abs_of_pos hx, abs_of_pos hy] at *
      omega
    obtain ⟨hlasty, hlastx, hlog⟩ := hplaces
    have hxlt : x ≤ 2 ^ Int.log 2 y := by
      have hself := Int.lt_zpow_succ_log_self (b := 2) (by norm_num) x
      have hpow : (2 : Rat) ^ (Int.log 2 x + 1) ≤ 2 ^ Int.log 2 y :=
        zpow_le_zpow_right₀ (by norm_num) hlog
      push_cast at hself
      linarith
    have hyle : (2 : Rat) ^ Int.log 2 y ≤ y := by
      have hself := Int.zpow_log_le_self (b := 2) (by norm_num) hy
      push_cast at hself
      exact hself
    exact le_trans (toPlaces_le_zpow hlastx hxlt) (zpow_le_toPlaces hlasty hyle)

theorem round_mono {x y b : Rat} (hx : 0 < x) (h : x ≤ y) (hy : round y = some b) :
    ∃ a, round x = some a ∧ a ≤ b := by
  have hpos := toPlaces_nonneg (le_of_lt hx)
  have hle := toPlaces_mono hx h
  by_cases hfinite : |toPlaces y| < 2 ^ 1024
  · rw [round, if_pos hfinite] at hy
    cases hy
    refine ⟨toPlaces x, ?_, hle⟩
    rw [abs_of_nonneg (le_trans hpos hle)] at hfinite
    rw [round, if_pos]
    rw [abs_of_nonneg hpos]
    exact lt_of_le_of_lt hle hfinite
  · rw [round, if_neg hfinite] at hy
    cases hy

theorem log_natCast_lt {n : Nat} (hn : 0 < n) (hsmall : n < 2 ^ 53) : Int.log 2 (n : Rat) < 53 := by
  have hpos : (0 : Rat) < n := by exact_mod_cast hn
  have hlt : (n : Rat) < ((2 : Nat) : Rat) ^ (53 : Int) := by
    have hcast : (n : Rat) < (2 ^ 53 : Nat) := by exact_mod_cast hsmall
    rw [show (53 : Int) = ((53 : Nat) : Int) from rfl, zpow_natCast]
    exact_mod_cast hcast
  exact (Int.lt_zpow_iff_log_lt (by norm_num) hpos).mp hlt

theorem toPlaces_natCast_of_le {n : Nat} (h : lastPlace (n : Rat) ≤ 0) :
    toPlaces (n : Rat) = n := by
  obtain ⟨d, hd⟩ := Int.eq_ofNat_of_zero_le (show 0 ≤ -lastPlace (n : Rat) by omega)
  apply toPlaces_eq (n := n * 2 ^ d)
  rw [div_eq_mul_inv, ← zpow_neg, hd]
  push_cast
  rw [zpow_natCast]

theorem round_natCast {n : Nat} (hsmall : n < 2 ^ 53) : round (n : Rat) = some (n : Rat) := by
  have hkept : toPlaces (n : Rat) = n := by
    cases Nat.eq_zero_or_pos n with
    | inl hzero =>
      subst hzero
      simp [toPlaces, nearest]
    | inr hpos =>
      apply toPlaces_natCast_of_le
      have hlog := log_natCast_lt hpos hsmall
      simp only [lastPlace, Nat.abs_cast]
      omega
  have hbound : (n : Rat) < 2 ^ 1024 := by
    have hcast : (n : Rat) < (2 ^ 53 : Nat) := by exact_mod_cast hsmall
    have hpow : ((2 : Rat) ^ 53) ≤ 2 ^ 1024 := pow_le_pow_right₀ (by norm_num) (by norm_num)
    push_cast at hcast
    exact lt_of_lt_of_le hcast hpow
  rw [round, hkept, Nat.abs_cast, if_pos hbound]

end Binary64
