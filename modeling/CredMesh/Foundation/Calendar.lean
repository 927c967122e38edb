import Mathlib.Tactic.NormNum

/-!
# The civil calendar

Days are counted from the first of January 1970, before which they are negative. A date is a year of
the Gregorian calendar, extended without end in both directions, with a month and a day. Every day
has its date, from which the day is found again.
-/

namespace Calendar

/-- The first day of a year. -/
def dayFromYear (year : ℤ) : ℤ :=
  365 * (year - 1970) + (year - 1969) / 4 - (year - 1901) / 100 + (year - 1601) / 400

def isLeap (year : ℤ) : Bool := year % 4 = 0 ∧ (year % 100 ≠ 0 ∨ year % 400 = 0)

theorem dayFromYear_succ (year : ℤ) :
    dayFromYear (year + 1) = dayFromYear year + if isLeap year then 366 else 365 := by
  simp only [dayFromYear, isLeap, decide_eq_true_eq]
  split <;> omega

/-- The year of a day. Mean years miss it by at most one. -/
def yearFromDay (day : ℤ) : ℤ :=
  let year := 1970 + day * 400 / 146097
  if day < dayFromYear year then year - 1
  else if dayFromYear (year + 1) ≤ day then year + 1
  else year

theorem yearFromDay_spec (day : ℤ) :
    dayFromYear (yearFromDay day) ≤ day ∧ day < dayFromYear (yearFromDay day + 1) := by
  unfold yearFromDay
  dsimp only
  split
  case isTrue hbefore =>
    refine ⟨?_, by rwa [sub_add_cancel]⟩
    unfold dayFromYear at hbefore ⊢
    omega
  case isFalse hfrom =>
    split
    case isTrue hafter =>
      refine ⟨hafter, ?_⟩
      unfold dayFromYear at hfrom hafter ⊢
      omega
    case isFalse huntil => exact ⟨not_lt.mp hfrom, not_le.mp huntil⟩

/-- The days of a year before a month, of which the first is 1. -/
def monthStart (leap : Bool) (month : ℕ) : ℕ :=
  [0, 31, 59, 90, 120, 151, 181, 212, 243, 273, 304, 334].getD (month - 1) 0 +
    if leap ∧ 2 < month then 1 else 0

/-- The month in which a day of the year lies. -/
def monthFromDay (leap : Bool) (day : ℕ) : ℕ :=
  ((List.range 12).filter fun n ↦ monthStart leap (n + 1) ≤ day).length

/-- A month has at most 31 days. -/
theorem monthFromDay_spec {leap : Bool} {day : ℕ} (h : day < if leap then 366 else 365) :
    1 ≤ monthFromDay leap day ∧ monthFromDay leap day ≤ 12 ∧
      monthStart leap (monthFromDay leap day) ≤ day ∧
      day < monthStart leap (monthFromDay leap day) + 31 := by
  have hall : ∀ leap : Bool, ∀ day < if leap then 366 else 365,
      1 ≤ monthFromDay leap day ∧ monthFromDay leap day ≤ 12 ∧
      monthStart leap (monthFromDay leap day) ≤ day ∧
      day < monthStart leap (monthFromDay leap day) + 31 := by decide +kernel
  exact hall leap day h

structure Date where
  year : ℤ
  month : ℕ
  day : ℕ
  deriving DecidableEq

namespace Date

def ofDay (day : ℤ) : Date :=
  let year := yearFromDay day
  let inYear := (day - dayFromYear year).toNat
  let month := monthFromDay (isLeap year) inYear
  ⟨year, month, inYear - monthStart (isLeap year) month + 1⟩

def toDay (date : Date) : ℤ :=
  dayFromYear date.year + monthStart (isLeap date.year) date.month + date.day - 1

theorem inYear_lt (day : ℤ) : (day - dayFromYear (yearFromDay day)).toNat <
    if isLeap (yearFromDay day) then 366 else 365 := by
  obtain ⟨hfrom, huntil⟩ := yearFromDay_spec day
  rw [dayFromYear_succ] at huntil
  split
  case isTrue hleap =>
    rw [if_pos hleap] at huntil
    omega
  case isFalse hleap =>
    rw [if_neg hleap] at huntil
    omega

/-- Month and day fit their two digits. -/
theorem ofDay_bounds (day : ℤ) : (ofDay day).month ≤ 12 ∧ (ofDay day).day ≤ 31 := by
  obtain ⟨-, hmonth, hstart, hend⟩ :=
    @monthFromDay_spec (isLeap (yearFromDay day)) _ (inYear_lt day)
  refine ⟨hmonth, ?_⟩
  dsimp only [ofDay]
  omega

theorem toDay_ofDay (day : ℤ) : toDay (ofDay day) = day := by
  obtain ⟨hfrom, -⟩ := yearFromDay_spec day
  obtain ⟨-, -, hstart, -⟩ :=
    @monthFromDay_spec (isLeap (yearFromDay day)) _ (inYear_lt day)
  dsimp only [toDay, ofDay]
  omega

/-- A day between the beginnings of two years lies in a year between them. -/
theorem ofDay_year_bounds {day low high : ℤ} (hlow : dayFromYear low ≤ day)
    (hhigh : day < dayFromYear high) : low ≤ (ofDay day).year ∧ (ofDay day).year < high := by
  obtain ⟨hfrom, huntil⟩ := yearFromDay_spec day
  change low ≤ yearFromDay day ∧ yearFromDay day < high
  constructor
  · by_contra hless
    unfold dayFromYear at hlow huntil
    omega
  · by_contra hmore
    unfold dayFromYear at hhigh hfrom
    omega

end Date

end Calendar
