/-
Scadium.Queue.Periods — the periods of the jobs (`queue/queue.constants.ts`).

A period key is a UTC hour or day, written with its digits; here it is the
number of hours or days since the epoch, with the same order. The clock is
past the first hour and the first day.
-/
import Scadium.Prisma.Schema

namespace Scadium.Queue

open Scadium.Prisma (Time)

abbrev Hour := Nat
abbrev Day := Nat

def HOUR_MS : Nat := 3600000
def DAY_MS : Nat := 86400000

/-- UTC hour of `ms`. -/
def periodForHour (ms : Time) : Hour := ms / HOUR_MS

/-- The most recently completed clock hour. -/
def lastCompletedHourPeriod (ms : Time) : Hour := periodForHour (ms - ms % HOUR_MS - 1)

/-- UTC day of `ms`. -/
def dayPeriod (ms : Time) : Day := ms / DAY_MS

/-- The most recently completed day. -/
def lastCompletedDayPeriod (ms : Time) : Day := dayPeriod (ms - ms % DAY_MS - 1)

/-- The first millisecond of the day. -/
def dayPeriodStartMs (period : Day) : Time := period * DAY_MS

theorem dayPeriod_eq_iff {ms : Time} {period : Day} : dayPeriod ms = period ↔
    dayPeriodStartMs period ≤ ms ∧ ms < dayPeriodStartMs period + DAY_MS := by
  have hpos : 0 < DAY_MS := by decide
  rw [dayPeriod, dayPeriodStartMs, Nat.div_eq_iff hpos, Nat.le_sub_one_iff_lt]
  exact Nat.add_pos_right _ hpos

/-- The last completed one of the periods of a length. -/
theorem lastCompleted_eq {ms n : Nat} (hn : 0 < n) : (ms - ms % n - 1) / n = ms / n - 1 := by
  have hstart : ms - ms % n = n * (ms / n) := by
    have hdiv := Nat.div_add_mod ms n
    omega
  rw [hstart]
  cases hq : ms / n with
  | zero => simp
  | succ q =>
    have hlast : n * (q + 1) - 1 = n - 1 + n * q := by
      rw [Nat.mul_succ]
      omega
    rw [hlast, Nat.add_mul_div_left _ _ hn, Nat.div_eq_of_lt (by omega)]
    omega

theorem lastCompletedHour_eq (ms : Time) :
    lastCompletedHourPeriod ms = periodForHour ms - 1 :=
  lastCompleted_eq (by decide)

theorem lastCompletedDay_mono {s t : Time} (h : s ≤ t) :
    lastCompletedDayPeriod s ≤ lastCompletedDayPeriod t := by
  have heq (ms : Time) : lastCompletedDayPeriod ms = ms / DAY_MS - 1 :=
    lastCompleted_eq (by decide)
  rw [heq, heq]
  exact Nat.sub_le_sub_right (Nat.div_le_div_right h) 1

theorem periodForHour_mono {s t : Time} (h : s ≤ t) : periodForHour s ≤ periodForHour t :=
  Nat.div_le_div_right h

end Scadium.Queue
