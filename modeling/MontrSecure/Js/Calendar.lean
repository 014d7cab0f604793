import Mathlib.Order.Monotone.Basic
import Mathlib.Order.SuccPred.Basic
import Mathlib.Tactic.IntervalCases
import Mathlib.Data.Int.ConditionallyCompleteOrder

/-!
# Instants and the calendar

The dates of the language: an instant is a number of milliseconds, and the days, months and years of the proleptic
Gregorian calendar in UTC. Months are counted through, twelve a year, so that a month is found by where its first
day lies.
-/

namespace MontrSecure

/-! ## Days and months -/

/-- The day on which a year begins, counted from the epoch. -/
def dayFromYear (y : ℤ) : ℤ := 365 * (y - 1970) + (y - 1969) / 4 - (y - 1901) / 100 + (y - 1601) / 400

/-- Whether the year has 366 days. -/
def isLeapYear (y : ℤ) : Bool := y % 4 = 0 && (y % 100 ≠ 0 || y % 400 = 0)

/-- The days of a year before a month that is not counted from a leap day on. -/
def daysBefore : List ℤ := [0, 31, 59, 90, 120, 151, 181, 212, 243, 273, 304, 334]

/-- The first day of a month; the months of a year `y` are `12 * y` to `12 * y + 11`. -/
def firstDay (m : ℤ) : ℤ :=
  dayFromYear (m / 12) + daysBefore.getD (m % 12).toNat 0 + if isLeapYear (m / 12) && 2 ≤ m % 12 then 1 else 0

/-- The month that a day lies in: the one the average length of a month leads to, or one next to it. -/
def monthOfDay (d : ℤ) : ℤ :=
  let m := 23640 + d * 4800 / 146097
  if d < firstDay m then m - 1 else if d < firstDay (m + 1) then m else m + 1

variable {d m : ℤ}

theorem dayFromYear_succ (y : ℤ) : dayFromYear (y + 1) = dayFromYear y + if isLeapYear y then 366 else 365 := by
  unfold dayFromYear isLeapYear
  split
  · rename_i h
    simp only [Bool.and_eq_true, Bool.or_eq_true, decide_eq_true_eq] at h
    omega
  · rename_i h
    simp only [Bool.and_eq_true, Bool.or_eq_true, decide_eq_true_eq] at h
    omega

/-- A month by its year and its place there. -/
theorem exists_month (m : ℤ) : ∃ y k : ℤ, 0 ≤ k ∧ k < 12 ∧ m = 12 * y + k := ⟨m / 12, m % 12, by omega, by omega, by omega⟩

theorem firstDay_of_year {y k : ℤ} (hk : 0 ≤ k) (hk12 : k < 12) : firstDay (12 * y + k) =
    dayFromYear y + daysBefore.getD k.toNat 0 + if isLeapYear y && 2 ≤ k then 1 else 0 := by
  rw [firstDay, show (12 * y + k) / 12 = y by omega, show (12 * y + k) % 12 = k by omega]

/-- A month has at least 28 days, and the next one begins after it. -/
theorem firstDay_add_le_succ (m : ℤ) : firstDay m + 28 ≤ firstDay (m + 1) := by
  obtain ⟨y, k, hk, hk12, rfl⟩ := exists_month m
  rw [firstDay_of_year hk hk12]
  rcases (show k < 11 ∨ k = 11 by omega) with hlt | rfl
  · rw [show 12 * y + k + 1 = 12 * y + (k + 1) by omega, firstDay_of_year (by omega) (by omega)]
    interval_cases k <;> cases isLeapYear y <;> simp [daysBefore]
    all_goals omega
  · rw [show 12 * y + 11 + 1 = 12 * (y + 1) + 0 by omega, firstDay_of_year le_rfl (by decide), dayFromYear_succ]
    cases isLeapYear y <;> simp [daysBefore]
    all_goals omega

/-- A month has at most 31 days. -/
theorem firstDay_succ_le_add (m : ℤ) : firstDay (m + 1) ≤ firstDay m + 31 := by
  obtain ⟨y, k, hk, hk12, rfl⟩ := exists_month m
  rw [firstDay_of_year hk hk12]
  rcases (show k < 11 ∨ k = 11 by omega) with hlt | rfl
  · rw [show 12 * y + k + 1 = 12 * y + (k + 1) by omega, firstDay_of_year (by omega) (by omega)]
    interval_cases k <;> cases isLeapYear y <;> simp [daysBefore]
    all_goals omega
  · rw [show 12 * y + 11 + 1 = 12 * (y + 1) + 0 by omega, firstDay_of_year le_rfl (by decide), dayFromYear_succ]
    cases isLeapYear y <;> simp [daysBefore]
    all_goals omega

theorem firstDay_strictMono : StrictMono firstDay :=
  strictMono_int_of_lt_succ fun m => by
    have := firstDay_add_le_succ m
    omega

/-- The months have their average length within few days. -/
theorem firstDay_bounds (m : ℤ) : 146097 * (m - 23640) - 24000 ≤ 4800 * firstDay m ∧
    4800 * firstDay m ≤ 146097 * (m - 23640) + 24000 := by
  obtain ⟨y, k, hk, hk12, rfl⟩ := exists_month m
  rw [firstDay_of_year hk hk12, dayFromYear]
  interval_cases k <;> cases isLeapYear y <;> simp [daysBefore]
  all_goals omega

theorem monthOfDay_spec (d : ℤ) : firstDay (monthOfDay d) ≤ d ∧ d < firstDay (monthOfDay d + 1) := by
  unfold monthOfDay
  have hbefore := firstDay_bounds (23640 + d * 4800 / 146097 - 1)
  have hafter := firstDay_bounds (23640 + d * 4800 / 146097 + 1 + 1)
  dsimp only
  split_ifs with hlow hhigh
  · rw [sub_add_cancel]
    omega
  · omega
  · omega

/-- The month of a day is the one whose first day is the last on or before it. -/
theorem monthOfDay_eq_iff : monthOfDay d = m ↔ firstDay m ≤ d ∧ d < firstDay (m + 1) := by
  constructor
  · rintro rfl
    exact monthOfDay_spec d
  · rintro ⟨hle, hlt⟩
    obtain ⟨hle', hlt'⟩ := monthOfDay_spec d
    have h : monthOfDay d < m + 1 := firstDay_strictMono.lt_iff_lt.mp (hle'.trans_lt hlt)
    have h' : m < monthOfDay d + 1 := firstDay_strictMono.lt_iff_lt.mp (hle.trans_lt hlt')
    omega

/-! ## Instants -/

def msPerDay : ℤ := 86400000

/-- The last instant that a date can be. -/
def maxTime : ℤ := 8640000000000000

/-- `Day`. -/
def dayOf (t : ℤ) : ℤ := t / msPerDay

/-- `getUTCMonth`. -/
def getUTCMonth (t : ℤ) : ℤ := monthOfDay (dayOf t) % 12

/-- `getUTCDate`. -/
def getUTCDate (t : ℤ) : ℤ := dayOf t - firstDay (monthOfDay (dayOf t)) + 1

/-- `getUTCDay`. -/
def getUTCDay (t : ℤ) : ℤ := (dayOf t + 4) % 7

/-- `getUTCHours`. -/
def getUTCHours (t : ℤ) : ℤ := t / 3600000 % 24

/-- `getUTCMinutes`. -/
def getUTCMinutes (t : ℤ) : ℤ := t / 60000 % 60

/-- `getUTCSeconds`. -/
def getUTCSeconds (t : ℤ) : ℤ := t / 1000 % 60

/-- `getUTCMilliseconds`. -/
def getUTCMilliseconds (t : ℤ) : ℤ := t % 1000

/-- `TimeClip`: no date lies beyond the last instant or before the first; what would is `NaN`. -/
def timeClip (t : ℤ) : Option ℤ := if -maxTime ≤ t ∧ t ≤ maxTime then some t else none

/-- `MakeTime`. -/
def makeTime (h m s ms : ℤ) : ℤ := h * 3600000 + m * 60000 + s * 1000 + ms

/-- `setUTCMonth`; the months and days may lie outside their year and month. -/
def setUTCMonth (t month date : ℤ) : Option ℤ :=
  let day := firstDay (12 * (monthOfDay (dayOf t) / 12) + month) + date - 1
  timeClip (day * msPerDay + t % msPerDay)

/-- `setUTCDate`. -/
def setUTCDate (t date : ℤ) : Option ℤ :=
  timeClip ((firstDay (monthOfDay (dayOf t)) + date - 1) * msPerDay + t % msPerDay)

/-- `setUTCHours`. -/
def setUTCHours (t h m s ms : ℤ) : Option ℤ := timeClip (dayOf t * msPerDay + makeTime h m s ms)

/-- `setUTCMinutes`. -/
def setUTCMinutes (t m s ms : ℤ) : Option ℤ := timeClip (dayOf t * msPerDay + makeTime (getUTCHours t) m s ms)

/-- `setUTCSeconds`. -/
def setUTCSeconds (t s ms : ℤ) : Option ℤ :=
  timeClip (dayOf t * msPerDay + makeTime (getUTCHours t) (getUTCMinutes t) s ms)

/-- `setUTCMilliseconds`. -/
def setUTCMilliseconds (t ms : ℤ) : Option ℤ :=
  timeClip (dayOf t * msPerDay + makeTime (getUTCHours t) (getUTCMinutes t) (getUTCSeconds t) ms)

/-- 29 February 2024 at 23:59:30, a Thursday, and the first of a month some days later. -/
example : (getUTCMonth 1709251170000, getUTCDate 1709251170000, getUTCDay 1709251170000,
    getUTCHours 1709251170000, getUTCMinutes 1709251170000, getUTCSeconds 1709251170000,
    setUTCMonth 1709251170000 2 1) = (1, 29, 4, 23, 59, 30, some 1709337570000) := by decide +kernel

/-! ## Going on to the next unit -/

variable {t u : ℤ}

theorem timeClip_eq_some_iff : timeClip t = some u ↔ t = u ∧ -maxTime ≤ t ∧ t ≤ maxTime := by
  rw [timeClip]
  split_ifs with h
  · simp [h]
  · simp [h]

theorem timeClip_eq_none_iff : timeClip t = none ↔ t < -maxTime ∨ maxTime < t := by
  rw [timeClip]
  split_ifs with h
  · simp only [false_iff]
    omega
  · simp only [true_iff]
    omega

theorem setUTCMonth_succ (t : ℤ) : setUTCMonth t (getUTCMonth t + 1) 1 =
    timeClip (firstDay (monthOfDay (dayOf t) + 1) * msPerDay + t % msPerDay) := by
  rw [setUTCMonth, getUTCMonth]
  rw [← add_assoc, Int.mul_ediv_add_emod, add_sub_cancel_right]

theorem setUTCDate_succ (t : ℤ) :
    setUTCDate t (getUTCDate t + 1) = timeClip ((dayOf t + 1) * msPerDay + t % msPerDay) := by
  rw [setUTCDate, getUTCDate]
  congr 3
  omega

theorem setUTCHours_zero (t : ℤ) : setUTCHours t 0 0 0 0 = timeClip (dayOf t * msPerDay) := by
  simp [setUTCHours, makeTime]

theorem setUTCHours_succ (t : ℤ) : setUTCHours t (getUTCHours t + 1) 0 0 0 = timeClip ((t / 3600000 + 1) * 3600000) := by
  simp only [setUTCHours, makeTime, getUTCHours, dayOf, msPerDay]
  congr 1
  omega

theorem setUTCMinutes_succ (t : ℤ) : setUTCMinutes t (getUTCMinutes t + 1) 0 0 = timeClip ((t / 60000 + 1) * 60000) := by
  simp only [setUTCMinutes, makeTime, getUTCHours, getUTCMinutes, dayOf, msPerDay]
  congr 1
  omega

theorem setUTCSeconds_succ (t : ℤ) : setUTCSeconds t (getUTCSeconds t + 1) 0 = timeClip ((t / 1000 + 1) * 1000) := by
  simp only [setUTCSeconds, makeTime, getUTCHours, getUTCMinutes, getUTCSeconds, dayOf, msPerDay]
  congr 1
  omega

theorem setUTCSeconds_zero (t : ℤ) : setUTCSeconds t 0 0 = timeClip (t / 60000 * 60000) := by
  simp only [setUTCSeconds, makeTime, getUTCHours, getUTCMinutes, dayOf, msPerDay]
  congr 1
  omega

theorem setUTCMilliseconds_zero (t : ℤ) : setUTCMilliseconds t 0 = timeClip (t / 1000 * 1000) := by
  simp only [setUTCMilliseconds, makeTime, getUTCHours, getUTCMinutes, getUTCSeconds, dayOf, msPerDay]
  congr 1
  omega

end MontrSecure
