import Mathlib.Data.Nat.Find
import Mathlib.Order.Monotone.Basic
import Mathlib.Tactic.SplitIfs

/-! The proleptic Gregorian calendar: days counted from the first of January 1970, and the order of
dates. Months are counted from zero. -/
namespace Gregorian

/-- The number of the first day of a year. -/
def dayFromYear (year : Int) : Int :=
  365 * (year - 1970) + (year - 1969) / 4 - (year - 1901) / 100 + (year - 1601) / 400

def leapDay (year : Int) : Int :=
  if year % 4 ≠ 0 then 0
  else if year % 100 ≠ 0 then 1
  else if year % 400 ≠ 0 then 0
  else 1

/-- The days of a year before a month; the year ends with month twelve. -/
def daysBefore (year : Int) : Nat → Int
  | 0 => 0
  | 1 => 31
  | 2 => 59 + leapDay year
  | 3 => 90 + leapDay year
  | 4 => 120 + leapDay year
  | 5 => 151 + leapDay year
  | 6 => 181 + leapDay year
  | 7 => 212 + leapDay year
  | 8 => 243 + leapDay year
  | 9 => 273 + leapDay year
  | 10 => 304 + leapDay year
  | 11 => 334 + leapDay year
  | _ => 365 + leapDay year

structure Date where
  year : Int
  month : Nat
  day : Int

def Date.Valid (date : Date) : Prop :=
  date.month < 12 ∧ 1 ≤ date.day ∧
    daysBefore date.year date.month + date.day ≤ daysBefore date.year (date.month + 1)

def dayFromDate (date : Date) : Int :=
  dayFromYear date.year + daysBefore date.year date.month + date.day - 1

/-- The last year that begins on the day or before: the guess from the mean length of a year is off
by one at most. -/
def yearFromDay (day : Int) : Int :=
  let year := day * 400 / 146097 + 1970
  if dayFromYear (year + 1) ≤ day then year + 1
  else if day < dayFromYear year then year - 1
  else year

/-- The last month that begins on the day or before. -/
def monthFromDay (year dayInYear : Int) : Nat :=
  Nat.findGreatest (fun month => daysBefore year month ≤ dayInYear) 11

def dateFromDay (day : Int) : Date :=
  let year := yearFromDay day
  let month := monthFromDay year (day - dayFromYear year)
  ⟨year, month, day - dayFromYear year - daysBefore year month + 1⟩

-- Their equations are made here once, before the proofs that unfold them side by side.
attribute [local simp] leapDay dayFromYear daysBefore

theorem leapDay_bounds (year : Int) : 0 ≤ leapDay year ∧ leapDay year ≤ 1 := by
  simp only [leapDay]
  split_ifs
  all_goals omega

theorem dayFromYear_succ (year : Int) :
    dayFromYear (year + 1) = dayFromYear year + daysBefore year 12 := by
  simp only [dayFromYear, daysBefore, leapDay]
  split_ifs
  all_goals omega

theorem dayFromYear_lt {year other : Int} (h : year < other) :
    dayFromYear (year + 1) ≤ dayFromYear other := by
  simp only [dayFromYear]
  omega

theorem daysBefore_le (year : Int) {month other : Nat} (h : month ≤ other) :
    daysBefore year month ≤ daysBefore year other := by
  have hleap := leapDay_bounds year
  have hstep : ∀ m : Nat, daysBefore year m ≤ daysBefore year (m + 1) := by
    intro m
    rcases m with _ | _ | _ | _ | _ | _ | _ | _ | _ | _ | _ | _ | m
    all_goals
      simp only [daysBefore]
      omega
  exact monotone_nat_of_le_succ hstep h

theorem daysBefore_succ (year : Int) {month : Nat} (h : month < 12) :
    daysBefore year month + 28 ≤ daysBefore year (month + 1) ∧
      daysBefore year (month + 1) ≤ daysBefore year month + 31 := by
  have hleap := leapDay_bounds year
  rcases month with _ | _ | _ | _ | _ | _ | _ | _ | _ | _ | _ | _ | m
  all_goals
    simp only [daysBefore]
    omega

theorem Date.Valid.day_le {date : Date} (h : date.Valid) : date.day ≤ 31 := by
  obtain ⟨hmonth, -, hlast⟩ := h
  have hlength := daysBefore_succ date.year hmonth
  omega

theorem yearFromDay_spec (day : Int) :
    dayFromYear (yearFromDay day) ≤ day ∧ day < dayFromYear (yearFromDay day + 1) := by
  have hbelow : dayFromYear (day * 400 / 146097 + 1970 - 1) ≤ day := by
    simp only [dayFromYear]
    omega
  have habove : day < dayFromYear (day * 400 / 146097 + 1970 + 1 + 1) := by
    simp only [dayFromYear]
    omega
  simp only [yearFromDay]
  split_ifs with hnext hprevious
  · exact ⟨hnext, habove⟩
  · refine ⟨hbelow, ?_⟩
    rwa [Int.sub_add_cancel]
  · exact ⟨by omega, by omega⟩

theorem monthFromDay_spec {year dayInYear : Int} (hnonneg : 0 ≤ dayInYear)
    (hlt : dayInYear < daysBefore year 12) :
    monthFromDay year dayInYear < 12 ∧
      daysBefore year (monthFromDay year dayInYear) ≤ dayInYear ∧
      dayInYear < daysBefore year (monthFromDay year dayInYear + 1) := by
  have hle : monthFromDay year dayInYear ≤ 11 := Nat.findGreatest_le 11
  have hfirst : daysBefore year (monthFromDay year dayInYear) ≤ dayInYear :=
    Nat.findGreatest_spec (P := fun month => daysBefore year month ≤ dayInYear) (Nat.zero_le 11)
      hnonneg
  refine ⟨by omega, hfirst, ?_⟩
  by_cases hlast : monthFromDay year dayInYear = 11
  · rw [hlast]
    exact hlt
  · have hnot := Nat.findGreatest_is_greatest (Nat.lt_succ_self (monthFromDay year dayInYear))
      (show monthFromDay year dayInYear + 1 ≤ 11 by omega)
    exact not_le.mp hnot

theorem valid_dateFromDay (day : Int) : (dateFromDay day).Valid := by
  obtain ⟨hbelow, habove⟩ := yearFromDay_spec day
  rw [dayFromYear_succ] at habove
  have hnonneg : 0 ≤ day - dayFromYear (yearFromDay day) := by omega
  have hlt : day - dayFromYear (yearFromDay day) < daysBefore (yearFromDay day) 12 := by omega
  obtain ⟨hmonth, hfirst, hlast⟩ := monthFromDay_spec hnonneg hlt
  refine ⟨hmonth, ?_, ?_⟩
  · simp only [dateFromDay]
    omega
  · simp only [dateFromDay]
    omega

theorem dayFromDate_dateFromDay (day : Int) : dayFromDate (dateFromDay day) = day := by
  simp only [dayFromDate, dateFromDay]
  omega

theorem dayFromDate_lt {a b : Date} (ha : a.Valid) (hb : b.Valid)
    (h : a.year < b.year ∨ a.year = b.year ∧
      (a.month < b.month ∨ a.month = b.month ∧ a.day < b.day)) : dayFromDate a < dayFromDate b := by
  obtain ⟨hamonth, -, halast⟩ := ha
  obtain ⟨-, hbfirst, -⟩ := hb
  simp only [dayFromDate]
  cases h with
  | inl hyear =>
    have hyears := dayFromYear_lt hyear
    rw [dayFromYear_succ] at hyears
    have hend := daysBefore_le a.year (show a.month + 1 ≤ 12 by omega)
    have hstart : 0 ≤ daysBefore b.year b.month := daysBefore_le b.year (Nat.zero_le b.month)
    omega
  | inr h =>
    obtain ⟨hyear, h⟩ := h
    rw [hyear] at halast ⊢
    cases h with
    | inl hmonth =>
      have hmonths := daysBefore_le b.year (show a.month + 1 ≤ b.month by omega)
      omega
    | inr h =>
      obtain ⟨hmonth, hday⟩ := h
      rw [hmonth]
      omega

theorem dateFromDay_dayFromDate {date : Date} (h : date.Valid) :
    dateFromDay (dayFromDate date) = date := by
  have hback := dayFromDate_dateFromDay (dayFromDate date)
  have hvalid := valid_dateFromDay (dayFromDate date)
  generalize dateFromDay (dayFromDate date) = other at hback hvalid
  have hnot := mt (dayFromDate_lt h hvalid) (by omega)
  have hnot' := mt (dayFromDate_lt hvalid h) (by omega)
  have hyear : other.year = date.year := by omega
  have hmonth : other.month = date.month := by omega
  have hday : other.day = date.day := by omega
  cases other
  cases date
  simp only at hyear hmonth hday
  rw [hyear, hmonth, hday]

end Gregorian
