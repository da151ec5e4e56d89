/-!
# Calendar

Dates of the Gregorian calendar, continued to years before it was in use and to years of more
than four digits.
-/

namespace StaticSite

/-- The number of days of a month. -/
def daysInMonth (year : Int) (month : Nat) : Nat :=
  if month = 2 then
    if year % 4 = 0 ∧ (year % 100 ≠ 0 ∨ year % 400 = 0) then 29 else 28
  else if month = 4 ∨ month = 6 ∨ month = 9 ∨ month = 11 then 30
  else 31

/-- A calendar date in the range of years that instants can have. -/
structure Date where
  year : Int
  month : Nat
  day : Nat
  inRange : -262143 ≤ year ∧ year ≤ 262142
  monthValid : 1 ≤ month ∧ month ≤ 12
  dayValid : 1 ≤ day ∧ day ≤ daysInMonth year month
  deriving DecidableEq, Repr

namespace Date

/-- The date with the given year, month and day, if there is one. -/
def of? (year : Int) (month day : Nat) : Option Date :=
  if inRange : -262143 ≤ year ∧ year ≤ 262142 then
    if monthValid : 1 ≤ month ∧ month ≤ 12 then
      if dayValid : 1 ≤ day ∧ day ≤ daysInMonth year month then
        some { year, month, day, inRange, monthValid, dayValid }
      else none
    else none
  else none

/-- The day after. -/
def next? (date : Date) : Option Date :=
  if date.day < daysInMonth date.year date.month then of? date.year date.month (date.day + 1)
  else if date.month < 12 then of? date.year (date.month + 1) 1
  else of? (date.year + 1) 1 1

/-- The day before. -/
def previous? (date : Date) : Option Date :=
  if 1 < date.day then of? date.year date.month (date.day - 1)
  else if 1 < date.month then
    of? date.year (date.month - 1) (daysInMonth date.year (date.month - 1))
  else of? (date.year - 1) 12 31

end Date

end StaticSite
