/-
Scadium.Lib.Calendar — the dates of ECMAScript, in UTC.

A time is a number of milliseconds since 1970, and a day a number of days. A day lies in
one year of the proleptic Gregorian calendar (`yearFromDay_spec`), and year, month and
date make it up again (`makeDay_eq`). `Date.UTC` takes a year from 0 to 99 for one of the
twentieth century, so it is the inverse of the getters only on other years
(`dateUTC_eq`).
-/
import Mathlib.Algebra.Order.Ring.Int

namespace Scadium.Lib.Calendar

/-! ## Days -/

/-- The first day of a year. -/
def dayFromYear (y : Int) : Int :=
  365 * (y - 1970) + (y - 1969) / 4 - (y - 1901) / 100 + (y - 1601) / 400

/-- 1 in a leap year. -/
def leapDays (y : Int) : Int := if y % 4 = 0 ∧ (y % 100 ≠ 0 ∨ y % 400 = 0) then 1 else 0

/-- The last year that has begun: 400 years have 146097 days, which is right up to a year. -/
def yearFromDay (day : Int) : Int :=
  let y := 1970 + 400 * day / 146097
  if day < dayFromYear y then y - 1
  else if dayFromYear (y + 1) ≤ day then y + 1
  else y

/-- The first day of a month, in a year with so many leap days. -/
def monthStart (leap : Int) : Nat → Int
  | 0 => 0
  | 1 => 31
  | 2 => 59 + leap
  | 3 => 90 + leap
  | 4 => 120 + leap
  | 5 => 151 + leap
  | 6 => 181 + leap
  | 7 => 212 + leap
  | 8 => 243 + leap
  | 9 => 273 + leap
  | 10 => 304 + leap
  | 11 => 334 + leap
  | _ => 365 + leap

/-- The last of the months from `m` on, up to `m + fuel`, that has begun. -/
def monthFrom (leap day : Int) (m : Nat) : (fuel : Nat) → Nat
  | 0 => m
  | fuel + 1 => if day < monthStart leap (m + 1) then m else monthFrom leap day (m + 1) fuel

def dayWithinYear (day : Int) : Int := day - dayFromYear (yearFromDay day)

/-- January is 0. -/
def monthFromDay (day : Int) : Nat :=
  monthFrom (leapDays (yearFromDay day)) (dayWithinYear day) 0 11

def dateFromDay (day : Int) : Int :=
  dayWithinYear day - monthStart (leapDays (yearFromDay day)) (monthFromDay day) + 1

def makeDay (year month date : Int) : Int :=
  let y := year + month / 12
  dayFromYear y + monthStart (leapDays y) (month % 12).toNat + date - 1

theorem yearFromDay_spec (day : Int) :
    dayFromYear (yearFromDay day) ≤ day ∧ day < dayFromYear (yearFromDay day + 1) := by
  have hnear : dayFromYear (1970 + 400 * day / 146097 - 1) ≤ day ∧
      day < dayFromYear (1970 + 400 * day / 146097 + 1 + 1) := by
    unfold dayFromYear
    omega
  unfold yearFromDay
  dsimp only
  split
  · rename_i hearly
    rw [Int.sub_add_cancel]
    exact ⟨hnear.1, hearly⟩
  · split
    · rename_i hlate
      exact ⟨hlate, hnear.2⟩
    · omega

section

variable {leap day : Int}

theorem monthFrom_le {m fuel : Nat} : monthFrom leap day m fuel ≤ m + fuel := by
  induction fuel generalizing m with
  | zero => exact Nat.le_refl m
  | succ fuel ih =>
    unfold monthFrom
    split
    · omega
    · have hlater := ih (m := m + 1)
      omega

end

theorem monthFromDay_le (day : Int) : monthFromDay day ≤ 11 := monthFrom_le

/-- Year, month and date are those of the day. -/
theorem makeDay_eq (day : Int) :
    makeDay (yearFromDay day) (monthFromDay day) (dateFromDay day) = day := by
  have hmonth := monthFromDay_le day
  have hyears : ((monthFromDay day : Nat) : Int) / 12 = 0 := by omega
  have hwithin : (((monthFromDay day : Nat) : Int) % 12).toNat = monthFromDay day := by omega
  unfold makeDay
  dsimp only
  rw [hyears, hwithin, Int.add_zero]
  unfold dateFromDay dayWithinYear
  omega

/-! ## Times -/

def MS_PER_DAY : Int := 86400000

/-- The largest time of a `Date`. -/
def MAX_TIME : Int := 8640000000000000

/-- `none` is `NaN`. -/
def timeClip (t : Int) : Option Int := if -MAX_TIME ≤ t ∧ t ≤ MAX_TIME then some t else none

def getUTCFullYear (t : Int) : Int := yearFromDay (t / MS_PER_DAY)

def getUTCMonth (t : Int) : Int := monthFromDay (t / MS_PER_DAY)

def getUTCDate (t : Int) : Int := dateFromDay (t / MS_PER_DAY)

/-- `Date.UTC` -/
def dateUTC (year month date : Int) : Option Int :=
  let fullYear := if 0 ≤ year ∧ year ≤ 99 then 1900 + year else year
  timeClip (makeDay fullYear month date * MS_PER_DAY)

/-- The start of the day of a time. -/
theorem dateUTC_eq {t : Int} (hlow : -MAX_TIME ≤ t) (hhigh : t ≤ MAX_TIME)
    (hyear : ¬ (0 ≤ getUTCFullYear t ∧ getUTCFullYear t ≤ 99)) :
    dateUTC (getUTCFullYear t) (getUTCMonth t) (getUTCDate t) =
      some (t / MS_PER_DAY * MS_PER_DAY) := by
  unfold dateUTC
  rw [if_neg hyear]
  unfold getUTCFullYear getUTCMonth getUTCDate
  dsimp only
  rw [makeDay_eq, timeClip, if_pos]
  unfold MAX_TIME MS_PER_DAY at *
  omega

end Scadium.Lib.Calendar
