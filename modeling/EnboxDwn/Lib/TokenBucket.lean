import Mathlib.Algebra.Order.Field.Basic
import Mathlib.Data.List.Pairwise
import Mathlib.Tactic.Linarith
import Mathlib.Tactic.Ring

/-! A bucket that fills at a steady rate up to its size, and from which each granted request takes
one token: in a window of time it grants at most its size and what the window refills. -/
namespace TokenBucket
variable {K : Type*} [Field K] [LinearOrder K]

structure Terms (K : Type*) where
  size : K
  rate : K

/-- What a bucket held when it was last touched. -/
structure Level (K : Type*) where
  tokens : K
  since : K

def available (p : Terms K) (b : Level K) (now : K) : K :=
  min p.size (b.tokens + (now - b.since) * p.rate)

def take (p : Terms K) (b : Level K) (now : K) : Level K where
  tokens := if 1 ≤ available p b now then available p b now - 1 else available p b now
  since := now

/-- What each request finds in the bucket. -/
def offers (p : Terms K) (b : Level K) : List K → List (K × K)
  | [] => []
  | now :: times => (now, available p b now) :: offers p (take p b now) times

def granted (a c : K) (found : List (K × K)) : Nat :=
  found.countP fun r => a ≤ r.1 ∧ r.1 ≤ c ∧ 1 ≤ r.2

/-- What a bucket holds is between nothing and its size. -/
structure Filled (p : Terms K) (b : Level K) : Prop where
  nonneg : 0 ≤ b.tokens
  le_size : b.tokens ≤ p.size

variable {p : Terms K} {b : Level K} {now later : K}

theorem available_le_size (p : Terms K) (b : Level K) (now : K) : available p b now ≤ p.size :=
  min_le_left _ _

theorem available_le (p : Terms K) (b : Level K) (now : K) :
    available p b now ≤ b.tokens + (now - b.since) * p.rate := min_le_right _ _

theorem granted_nil (a c : K) : granted a c [] = 0 := rfl

theorem granted_eq_zero {a c : K} {times : List K} (h : ∀ t ∈ times, c < t) :
    granted a c (offers p b times) = 0 := by
  induction times generalizing b with
  | nil => rfl
  | cons t times ih =>
    have ht : ¬t ≤ c := not_le.mpr (h t (by simp))
    have hrest := @ih (take p b t) fun u hu => h u (by simp [hu])
    simp only [granted, offers, List.countP_cons, ht, false_and, and_false, decide_false] at hrest ⊢
    simpa using hrest

variable [IsStrictOrderedRing K]

theorem available_full (hrate : 0 ≤ p.rate) (hfull : b.tokens = p.size) (hnow : b.since ≤ now) :
    available p b now = p.size := by
  have hgain : 0 ≤ (now - b.since) * p.rate := mul_nonneg (by linarith) hrate
  apply min_eq_left
  linarith

/-- Looking at a bucket in between does not change what is found later. -/
theorem available_available (hrate : 0 ≤ p.rate) (hlater : now ≤ later) :
    available p ⟨available p b now, now⟩ later = available p b later := by
  have hgain : 0 ≤ (later - now) * p.rate := mul_nonneg (by linarith) hrate
  have hsplit : (later - b.since) * p.rate = (now - b.since) * p.rate + (later - now) * p.rate := by
    ring
  simp only [available, min_add, hsplit, ← add_assoc]
  rw [← min_assoc, min_eq_left (show p.size ≤ p.size + (later - now) * p.rate by linarith)]

theorem tokens_le_available (hrate : 0 ≤ p.rate) (h : Filled p b) (hnow : b.since ≤ now) :
    b.tokens ≤ available p b now := by
  have hgain : 0 ≤ (now - b.since) * p.rate := mul_nonneg (by linarith) hrate
  apply le_min h.le_size
  linarith

theorem Filled.take (h : Filled p b) (hrate : 0 ≤ p.rate) (hnow : b.since ≤ now) :
    Filled p (take p b now) := by
  have hle := available_le_size p b now
  have hpos := le_trans h.nonneg (tokens_le_available hrate h hnow)
  by_cases hone : 1 ≤ available p b now
  · simp only [TokenBucket.take, if_pos hone]
    exact ⟨by linarith, by simp only; linarith⟩
  · simp only [TokenBucket.take, if_neg hone]
    exact ⟨hpos, hle⟩

/-- A request that was refused is granted once the missing part of a token has been refilled. -/
theorem available_after_refusal (hrate : 0 < p.rate) (hsize : 1 ≤ p.size)
    (hrefused : ¬1 ≤ available p b now)
    (hlater : now + (1 - available p b now) / p.rate ≤ later) :
    1 ≤ available p (take p b now) later := by
  have hwait : (1 - available p b now) / p.rate ≤ later - now := by linarith
  have hgain := (div_le_iff₀ hrate).mp hwait
  simp only [take, if_neg hrefused]
  apply le_min hsize
  simp only
  linarith

/-- From now to the end of the window no more is granted than is there and comes in. -/
theorem granted_le_level (hrate : 0 ≤ p.rate) {a c : K} {times : List K}
    (h : Filled p b) (hc : b.since ≤ c) (hsorted : (b.since :: times).Pairwise (· ≤ ·)) :
    (granted a c (offers p b times) : K) ≤ b.tokens + (c - b.since) * p.rate := by
  induction times generalizing b with
  | nil =>
    have hgain : 0 ≤ (c - b.since) * p.rate := mul_nonneg (by linarith) hrate
    simp only [offers, granted_nil, Nat.cast_zero]
    linarith [h.nonneg]
  | cons t times ih =>
    have hbt : b.since ≤ t := List.rel_of_pairwise_cons hsorted (by simp)
    have htail := hsorted.of_cons
    by_cases htc : t ≤ c
    · have hih := ih (b := take p b t) (h.take hrate hbt) htc htail
      have hcount : granted a c (offers p b (t :: times)) ≤
          granted a c (offers p (take p b t) times) + if 1 ≤ available p b t then 1 else 0 := by
        simp only [granted, offers, List.countP_cons]
        by_cases hone : 1 ≤ available p b t
        · simp only [hone, if_true]
          split <;> omega
        · simp [hone]
      have hcast : (granted a c (offers p b (t :: times)) : K) ≤
          granted a c (offers p (take p b t) times) + if 1 ≤ available p b t then 1 else 0 := by
        exact_mod_cast hcount
      have htake : (take p b t).tokens + (if 1 ≤ available p b t then (1 : K) else 0) =
          available p b t := by
        simp only [take]
        by_cases hone : 1 ≤ available p b t
        · simp [hone]
        · simp [hone]
      have hfound := available_le p b t
      have hsplit : (c - b.since) * p.rate = (t - b.since) * p.rate + (c - t) * p.rate := by ring
      have hsince : (take p b t).since = t := rfl
      rw [hsince] at hih
      linarith
    · -- This request and all after it come after the window.
      have hafter : ∀ u ∈ t :: times, c < u := by
        intro u hu
        cases hu with
        | head => exact not_le.mp htc
        | tail _ hu => exact lt_of_lt_of_le (not_le.mp htc) (List.rel_of_pairwise_cons htail hu)
      have hgain : 0 ≤ (c - b.since) * p.rate := mul_nonneg (by linarith) hrate
      rw [granted_eq_zero hafter, Nat.cast_zero]
      linarith [h.nonneg]

/-- In every window of time, the bucket grants at most its size and what the window refills. -/
theorem granted_le (hrate : 0 ≤ p.rate) {a c : K} {times : List K} (hac : a ≤ c)
    (h : Filled p b) (hsorted : (b.since :: times).Pairwise (· ≤ ·)) :
    (granted a c (offers p b times) : K) ≤ p.size + (c - a) * p.rate := by
  have hwindow : 0 ≤ (c - a) * p.rate := mul_nonneg (by linarith) hrate
  induction times generalizing b with
  | nil =>
    simp only [offers, granted_nil, Nat.cast_zero]
    linarith [h.nonneg, h.le_size]
  | cons t times ih =>
    have hbt : b.since ≤ t := List.rel_of_pairwise_cons hsorted (by simp)
    by_cases hat : t < a
    · -- Nothing of the window has passed yet.
      have hskip : granted a c (offers p b (t :: times)) =
          granted a c (offers p (take p b t) times) := by
        simp [granted, offers, not_le.mpr hat]
      rw [hskip]
      exact ih (b := take p b t) (h.take hrate hbt) hsorted.of_cons
    by_cases htc : t ≤ c
    · have hlook : Filled p ⟨available p b t, t⟩ :=
        ⟨le_trans h.nonneg (tokens_le_available hrate h hbt), available_le_size p b t⟩
      have hsame : offers p ⟨available p b t, t⟩ (t :: times) = offers p b (t :: times) := by
        have hfound := available_available (b := b) hrate (le_refl t)
        simp only [offers, take, hfound]
      have hagain : (t :: t :: times).Pairwise (· ≤ ·) :=
        List.Pairwise.cons_cons_of_trans (le_refl t) hsorted.of_cons
      have hle := granted_le_level hrate (a := a) hlook htc hagain
      rw [hsame] at hle
      have hsize := available_le_size p b t
      have hpast : (c - t) * p.rate ≤ (c - a) * p.rate :=
        mul_le_mul_of_nonneg_right (by linarith) hrate
      simp only at hle
      linarith
    · have hafter : ∀ u ∈ t :: times, c < u := by
        intro u hu
        cases hu with
        | head => exact not_le.mp htc
        | tail _ hu =>
          exact lt_of_lt_of_le (not_le.mp htc) (List.rel_of_pairwise_cons hsorted.of_cons hu)
      rw [granted_eq_zero hafter, Nat.cast_zero]
      linarith [h.nonneg, h.le_size]

end TokenBucket
