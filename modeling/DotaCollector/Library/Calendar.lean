import Mathlib.Data.Nat.Find
import Mathlib.Order.Monotone.Basic
import Mathlib.Tactic.SplitIfs

/-!
# The Gregorian calendar

The days from 1970-01-01 on, by their year, month and day of the month. Each of them is the last
one which does not begin behind the day; so they come in the order of the days.
-/

namespace Calendar

/-- The day on which a year begins, both counted from 1970. -/
def dayFromYear (year : Nat) : Nat :=
  365 * year + (year + 1) / 4 + (year + 369) / 400 - (year + 69) / 100

def yearFromDay (day : Nat) : Nat :=
  Nat.findGreatest (fun year => dayFromYear year ≤ day) (day / 365)

def dayWithinYear (day : Nat) : Nat := day - dayFromYear (yearFromDay day)

/-- A year, counted from 1970, has a 29 February. -/
def leapYear (year : Nat) : Bool :=
  (1970 + year) % 4 = 0 && ((1970 + year) % 100 ≠ 0 || (1970 + year) % 400 = 0)

def inLeapYear (day : Nat) : Bool := leapYear (yearFromDay day)

/-- The day of the year on which a month begins, both counted from 0. -/
def monthStart (leap : Bool) (month : Nat) : Nat :=
  [0, 31, 59, 90, 120, 151, 181, 212, 243, 273, 304, 334].getD month 365 +
    if leap && 2 ≤ month then 1 else 0

def monthWithin (leap : Bool) (dayOfYear : Nat) : Nat :=
  Nat.findGreatest (fun month => monthStart leap month ≤ dayOfYear) 11

def monthFromDay (day : Nat) : Nat := monthWithin (inLeapYear day) (dayWithinYear day)

def dateFromDay (day : Nat) : Nat :=
  dayWithinYear day - monthStart (inLeapYear day) (monthFromDay day) + 1

/-! ## The order of the days -/

theorem dayFromYear_succ (year : Nat) :
    dayFromYear (year + 1) = dayFromYear year + 365 + (leapYear year).toNat := by
  have four : (year + 1 + 1) / 4 = (year + 1) / 4 + (decide ((1970 + year) % 4 = 0)).toNat := by
    cases multiple : decide ((1970 + year) % 4 = 0) <;> simp at multiple ⊢ <;> omega
  have hundred :
      (year + 1 + 69) / 100 = (year + 69) / 100 + (decide ((1970 + year) % 100 = 0)).toNat := by
    cases multiple : decide ((1970 + year) % 100 = 0) <;> simp at multiple ⊢ <;> omega
  have fourHundred :
      (year + 1 + 369) / 400 = (year + 369) / 400 + (decide ((1970 + year) % 400 = 0)).toNat := by
    cases multiple : decide ((1970 + year) % 400 = 0) <;> simp at multiple ⊢ <;> omega
  have leap : (leapYear year).toNat + (decide ((1970 + year) % 100 = 0)).toNat =
      (decide ((1970 + year) % 4 = 0)).toNat + (decide ((1970 + year) % 400 = 0)).toNat := by
    have century : (1970 + year) % 100 = 0 → (1970 + year) % 4 = 0 := by omega
    have kept : (1970 + year) % 400 = 0 → (1970 + year) % 100 = 0 := by omega
    rw [leapYear]
    by_cases byFour : (1970 + year) % 4 = 0 <;> by_cases byHundred : (1970 + year) % 100 = 0 <;>
      by_cases byFourHundred : (1970 + year) % 400 = 0 <;> simp_all
  have centuries : (year + 69) / 100 ≤ year := by omega
  rw [dayFromYear, dayFromYear, four, hundred, fourHundred]
  generalize (year + 1) / 4 = fours at *
  generalize (year + 69) / 100 = hundreds at *
  generalize (year + 369) / 400 = fourHundreds at *
  omega

theorem dayFromYear_mono : Monotone dayFromYear :=
  monotone_nat_of_le_succ fun year => by
    rw [dayFromYear_succ]
    omega

theorem dayFromYear_yearFromDay (day : Nat) : dayFromYear (yearFromDay day) ≤ day :=
  Nat.findGreatest_spec (P := fun year => dayFromYear year ≤ day) (Nat.zero_le _)
    (Nat.zero_le day)

theorem yearFromDay_mono {day later : Nat} (le : day ≤ later) :
    yearFromDay day ≤ yearFromDay later :=
  Nat.findGreatest_mono (fun _ early => Nat.le_trans early le) (Nat.div_le_div_right le)

theorem dayWithinYear_lt (day : Nat) : dayWithinYear day < 365 + (inLeapYear day).toNat := by
  have next : day < dayFromYear (yearFromDay day + 1) := by
    rcases Nat.lt_or_ge (day / 365) (yearFromDay day + 1) with beyond | within
    · have length : 365 * (yearFromDay day + 1) ≤ dayFromYear (yearFromDay day + 1) := by
        rw [dayFromYear]
        omega
      omega
    · exact Nat.lt_of_not_le (Nat.findGreatest_is_greatest
        (P := fun year => dayFromYear year ≤ day) (Nat.lt_succ_self _) within)
  rw [dayFromYear_succ] at next
  rw [dayWithinYear, inLeapYear]
  omega

theorem monthStart_monthWithin (leap : Bool) (dayOfYear : Nat) :
    monthStart leap (monthWithin leap dayOfYear) ≤ dayOfYear := by
  have first : monthStart leap 0 ≤ dayOfYear := by cases leap <;> exact Nat.zero_le _
  exact Nat.findGreatest_spec (P := fun month => monthStart leap month ≤ dayOfYear)
    (Nat.zero_le _) first

theorem monthFromDay_lt (day : Nat) : monthFromDay day < 12 := by
  rw [monthFromDay, monthWithin]
  exact Nat.lt_succ_of_le (Nat.findGreatest_le 11)

theorem dateFromDay_lt (day : Nat) : dateFromDay day < 32 := by
  have all : ∀ leap, ∀ dayOfYear < 365 + leap.toNat,
      dayOfYear - monthStart leap (monthWithin leap dayOfYear) + 1 < 32 := by decide +kernel
  exact all (inLeapYear day) (dayWithinYear day) (dayWithinYear_lt day)

/-- Days are in the order of their years, months and days of the month. -/
theorem date_lex {day later : Nat} (le : day ≤ later) (year : yearFromDay day = yearFromDay later) :
    monthFromDay day ≤ monthFromDay later ∧ (monthFromDay day = monthFromDay later →
      dateFromDay day ≤ dateFromDay later ∧ (dateFromDay day = dateFromDay later → day = later)) := by
  have leap : inLeapYear day = inLeapYear later := by rw [inLeapYear, inLeapYear, year]
  have within : dayWithinYear day ≤ dayWithinYear later := by
    rw [dayWithinYear, dayWithinYear, year]
    omega
  refine ⟨?_, fun month => ⟨?_, fun date => ?_⟩⟩
  · rw [monthFromDay, monthFromDay, leap]
    exact Nat.findGreatest_mono_left (fun _ early => Nat.le_trans early within) 11
  · rw [dateFromDay, dateFromDay, leap, month]
    omega
  · have start := monthStart_monthWithin (inLeapYear day) (dayWithinYear day)
    have laterStart := monthStart_monthWithin (inLeapYear later) (dayWithinYear later)
    change monthStart _ (monthFromDay _) ≤ _ at start laterStart
    rw [dateFromDay, dateFromDay, leap, month] at date
    rw [leap, month] at start
    have begins := dayFromYear_yearFromDay day
    have laterBegins := dayFromYear_yearFromDay later
    rw [dayWithinYear, year] at date start
    rw [dayWithinYear] at date laterStart
    rw [year] at begins
    omega

end Calendar
