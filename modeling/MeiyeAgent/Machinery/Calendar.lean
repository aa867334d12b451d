import Mathlib.Data.Int.Basic
import Mathlib.Data.Int.ConditionallyCompleteOrder
import Mathlib.Order.ConditionallyCompleteLattice.Basic
import Mathlib.Order.Monotone.Basic

/-!
# Machinery/Calendar — the proleptic Gregorian calendar, month by month

Months are numbered through the years: month `m` is month `m % 12` of year `m / 12`.  Days are
counted from 1 January 1970.  `monthStart m` is the first day of month `m`, in closed form, and
everything else is read from it: a month's length is a difference, and `monthOf day` is the month
whose days contain `day`.
-/

namespace Calendar

/-- Leap days before year `y`, years beginning in March. -/
def leapDays (y : Int) : Int := y / 4 - y / 100 + y / 400

/-- **The first day of month `m`.**  The year is taken to begin in March, so that the leap day is
its last. -/
def monthStart (m : Int) : Int :=
  365 * ((m - 2) / 12) + leapDays ((m - 2) / 12) + (153 * ((m - 2) % 12) + 2) / 5 - 719468

/-- The number of days of month `m`. -/
def monthLength (m : Int) : Int := monthStart (m + 1) - monthStart m

/-- **The month of a day**: the guess by the mean month length, corrected by one either way. -/
def monthOf (day : Int) : Int :=
  let guess := (day + 719528) * 4800 / 146097
  if day < monthStart guess then guess - 1
  else if monthStart (guess + 1) ≤ day then guess + 1
  else guess

/-! ## Months are non-empty and follow each other -/

/-- A century drops a leap day only in a year that had one. -/
theorem leapDays_succ (y : Int) :
    leapDays y ≤ leapDays (y + 1) ∧ leapDays (y + 1) ≤ leapDays y + 1 := by
  have h100 (z : Int) : z / 100 = z / 4 / 25 := by omega
  have h400 (z : Int) : z / 400 = z / 4 / 25 / 4 := by omega
  rw [leapDays, leapDays, h100, h400, h100, h400]
  have hy : (y + 1) / 4 = y / 4 ∨ (y + 1) / 4 = y / 4 + 1 := by omega
  rcases hy with hy | hy <;> rw [hy] <;> omega

theorem monthLength_bounds (m : Int) : 28 ≤ monthLength m ∧ monthLength m ≤ 31 := by
  have hleap := leapDays_succ ((m - 2) / 12)
  rw [monthLength, monthStart, monthStart]
  have hm : (m + 1 - 2) / 12 = (m - 2) / 12 ∧ (m + 1 - 2) % 12 = (m - 2) % 12 + 1 ∨
      (m + 1 - 2) / 12 = (m - 2) / 12 + 1 ∧ (m + 1 - 2) % 12 = 0 ∧ (m - 2) % 12 = 11 := by omega
  rcases hm with ⟨hy, hp⟩ | ⟨hy, hp, hp'⟩
  · rw [hy, hp]
    omega
  · rw [hy, hp, hp']
    omega

theorem monthStart_lt_succ (m : Int) : monthStart m < monthStart (m + 1) := by
  have := (monthLength_bounds m).1
  rw [monthLength] at this
  omega

theorem monthStart_strictMono : StrictMono monthStart :=
  strictMono_int_of_lt_succ monthStart_lt_succ

/-! ## The month of a day -/

/-- The closed form keeps within a month of the mean month length. -/
theorem monthStart_near (m : Int) :
    146097 * m - 146097 < 4800 * (monthStart m + 719528) ∧
      4800 * (monthStart m + 719528) < 146097 * m + 146097 := by
  rw [monthStart, leapDays]
  omega

/-- **`monthOf` finds the month** whose days contain the day. -/
theorem monthOf_spec (day : Int) :
    monthStart (monthOf day) ≤ day ∧ day < monthStart (monthOf day + 1) := by
  obtain ⟨g, hg⟩ : ∃ g, g = (day + 719528) * 4800 / 146097 := ⟨_, rfl⟩
  have hlow := monthStart_near (g - 1)
  have hhigh := monthStart_near (g + 1 + 1)
  simp only [monthOf, ← hg]
  split
  · rw [Int.sub_add_cancel]
    omega
  · split <;> omega

end Calendar
