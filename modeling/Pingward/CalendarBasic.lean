import Mathlib.Data.Int.Basic
import Mathlib.Tactic.Linarith

/-! The Gregorian calendar, extended to all years: the date of a day number and back. Day 0 is the first of January
of the year 0. The years are found from their mean length, the months from the mean length of the months of a year
whose February has 30 days. -/

namespace Calendar

/-! ### Years -/

def IsLeap (y : Int) : Prop := y % 4 = 0 ∧ (y % 100 ≠ 0 ∨ y % 400 = 0)

instance (y : Int) : Decidable (IsLeap y) := inferInstanceAs (Decidable (_ ∧ _))

/-- The days before a year. -/
def yearStart (y : Int) : Int := 365 * y + (y + 3) / 4 - (y + 99) / 100 + (y + 399) / 400

/-- The year of a day. -/
def yearOf (day : Int) : Int :=
  let guess := day * 400 / 146097
  if day < yearStart guess then guess - 1 else if yearStart (guess + 1) ≤ day then guess + 1 else guess

theorem yearStart_succ (y : Int) : yearStart (y + 1) = yearStart y + if IsLeap y then 366 else 365 := by
  by_cases hleap : IsLeap y
  · rw [if_pos hleap]
    unfold IsLeap at hleap
    unfold yearStart
    omega
  · rw [if_neg hleap]
    unfold IsLeap at hleap
    unfold yearStart
    omega

theorem yearStart_mono {y y' : Int} (hle : y ≤ y') : yearStart y ≤ yearStart y' := by
  unfold yearStart
  omega

theorem yearOf_bounds (day : Int) : yearStart (yearOf day) ≤ day ∧ day < yearStart (yearOf day + 1) := by
  have hlow : yearStart (day * 400 / 146097 - 1) ≤ day := by
    unfold yearStart
    omega
  have hhigh : day < yearStart (day * 400 / 146097 + 1 + 1) := by
    unfold yearStart
    omega
  unfold yearOf
  dsimp only
  split
  · rename_i hbefore
    refine ⟨hlow, ?_⟩
    rw [Int.sub_add_cancel]
    exact hbefore
  · rename_i hstart
    split
    · rename_i hafter
      exact ⟨hafter, hhigh⟩
    · rename_i hend
      exact ⟨Int.not_lt.mp hstart, Int.not_le.mp hend⟩

theorem yearOf_mono {day day' : Int} (hle : day ≤ day') : yearOf day ≤ yearOf day' := by
  by_contra hlt
  have hnext : yearOf day' + 1 ≤ yearOf day := by omega
  have hstart := (yearOf_bounds day).1
  have hend := (yearOf_bounds day').2
  have hmono := yearStart_mono hnext
  omega

/-! ### Months -/

/-- The days by which the months from March on come too late, were February to have 30 days. -/
def februaryGap (leap : Bool) : Int := if leap then 1 else 2

/-- The days of a year before a month. -/
def monthStart (leap : Bool) (month : Int) : Int :=
  (367 * month - 362) / 12 - if month ≤ 2 then 0 else februaryGap leap

/-- The month of a day of a year, both counted from the start of the year; January is 1. -/
def monthOf (leap : Bool) (day : Int) : Int :=
  (12 * (day + if day < 61 - februaryGap leap then 0 else februaryGap leap) + 373) / 367

/-- The days of a month. -/
def monthLength (leap : Bool) (month : Int) : Int := monthStart leap (month + 1) - monthStart leap month

section Month

variable {leap : Bool} {day day' : Int}

theorem februaryGap_cases (leap : Bool) : leap = true ∧ februaryGap leap = 1 ∨ leap = false ∧ februaryGap leap = 2 := by
  cases leap with
  | true => exact .inl ⟨rfl, rfl⟩
  | false => exact .inr ⟨rfl, rfl⟩

theorem monthOf_bounds (hlow : 0 ≤ day) (hhigh : day < 367 - februaryGap leap) :
    (1 ≤ monthOf leap day ∧ monthOf leap day ≤ 12) ∧
      monthStart leap (monthOf leap day) ≤ day ∧ day < monthStart leap (monthOf leap day + 1) := by
  unfold monthStart monthOf
  rcases februaryGap_cases leap with ⟨-, hgap⟩ | ⟨-, hgap⟩ <;> rw [hgap] at hhigh ⊢ <;> split <;>
    refine ⟨⟨by omega, by omega⟩, ?_, ?_⟩ <;> split <;> omega

theorem monthOf_mono (hle : day ≤ day') : monthOf leap day ≤ monthOf leap day' := by
  unfold monthOf
  rcases februaryGap_cases leap with ⟨-, hgap⟩ | ⟨-, hgap⟩ <;> rw [hgap] <;> split <;> split <;> omega

theorem monthLength_le {month : Int} (hlow : 1 ≤ month) : monthLength leap month ≤ 31 := by
  unfold monthLength monthStart
  rcases februaryGap_cases leap with ⟨-, hgap⟩ | ⟨-, hgap⟩ <;> rw [hgap] <;> split <;> split <;> omega

end Month

/-! ### Dates -/

structure Date where
  year : Int
  month : Int
  day : Int
  deriving DecidableEq, Repr

/-- The date of a day number. -/
def dateOf (day : Int) : Date :=
  let year := yearOf day
  let rest := day - yearStart year
  let month := monthOf (IsLeap year) rest
  ⟨year, month, rest - monthStart (IsLeap year) month + 1⟩

namespace Date

/-- The day number of a date. -/
def number (date : Date) : Int :=
  yearStart date.year + monthStart (IsLeap date.year) date.month + (date.day - 1)

/-- A date the calendar has. -/
structure Valid (date : Date) : Prop where
  month : 1 ≤ date.month ∧ date.month ≤ 12
  day : 1 ≤ date.day ∧ date.day ≤ monthLength (IsLeap date.year) date.month

instance (date : Date) : Decidable date.Valid :=
  decidable_of_iff ((1 ≤ date.month ∧ date.month ≤ 12) ∧
    1 ≤ date.day ∧ date.day ≤ monthLength (IsLeap date.year) date.month)
    ⟨fun h => ⟨h.1, h.2⟩, fun h => ⟨h.month, h.day⟩⟩

/-- The order of dates: the year first, then the month. -/
def Before (date date' : Date) : Prop :=
  date.year < date'.year ∨ date.year = date'.year ∧
    (date.month < date'.month ∨ date.month = date'.month ∧ date.day < date'.day)

end Date

theorem dateOf_number (day : Int) : (dateOf day).number = day := by
  unfold Date.number dateOf
  dsimp only
  omega

theorem rest_bounds (day : Int) : 0 ≤ day - yearStart (yearOf day) ∧
    day - yearStart (yearOf day) < 367 - februaryGap (IsLeap (yearOf day)) := by
  obtain ⟨hstart, hend⟩ := yearOf_bounds day
  rw [yearStart_succ] at hend
  unfold februaryGap
  by_cases hleap : IsLeap (yearOf day)
  · rw [if_pos hleap] at hend
    rw [if_pos (decide_eq_true hleap)]
    omega
  · rw [if_neg hleap] at hend
    rw [if_neg (by simpa using hleap)]
    omega

theorem dateOf_valid (day : Int) : (dateOf day).Valid := by
  obtain ⟨hlow, hhigh⟩ := rest_bounds day
  obtain ⟨hmonth, hstart, hend⟩ := monthOf_bounds hlow hhigh
  refine ⟨hmonth, ?_, ?_⟩
  · unfold dateOf
    dsimp only
    omega
  · unfold dateOf monthLength
    dsimp only
    omega

/-- Later days have later dates. -/
theorem dateOf_before {day day' : Int} (hlt : day < day') : (dateOf day).Before (dateOf day') := by
  rcases (yearOf_mono hlt.le).lt_or_eq with hyear | hyear
  · exact .inl hyear
  · refine .inr ⟨hyear, ?_⟩
    have hmono : monthOf (IsLeap (yearOf day)) (day - yearStart (yearOf day)) ≤
        monthOf (IsLeap (yearOf day)) (day' - yearStart (yearOf day)) := monthOf_mono (by omega)
    unfold dateOf
    dsimp only
    rw [← hyear]
    rcases hmono.lt_or_eq with hmonth | hmonth
    · exact .inl hmonth
    · refine .inr ⟨hmonth, ?_⟩
      rw [← hmonth]
      omega

end Calendar
