import StaticSite.Calendar

/-!
# Instants

Points in time, in universal time and to the nanosecond.
-/

namespace StaticSite

/-- A time of day.  Second 60 is a leap second. -/
structure DayTime where
  hour : Nat
  minute : Nat
  second : Nat
  nano : Nat
  hourValid : hour < 24
  minuteValid : minute < 60
  secondValid : second ≤ 60
  nanoValid : nano < 1000000000
  deriving DecidableEq, Repr

/-- The time of day with the given parts, if there is one. -/
def DayTime.of? (hour minute second nano : Nat) : Option DayTime :=
  if hourValid : hour < 24 then
    if minuteValid : minute < 60 then
      if secondValid : second ≤ 60 then
        if nanoValid : nano < 1000000000 then
          some { hour, minute, second, nano, hourValid, minuteValid, secondValid, nanoValid }
        else none
      else none
    else none
  else none

/-- A point in time in universal time. -/
structure Instant where
  date : Date
  time : DayTime
  deriving DecidableEq, Repr

namespace Instant

/-- The instant at which a clock that is `offset` minutes ahead of universal time shows a date
and a time of day. -/
def ofLocal? (date : Date) (time : DayTime) (offset : Int) : Option Instant := do
  let minutes : Int := time.hour * 60 + time.minute - offset
  let day ← if minutes < 0 then date.previous? else if minutes < 1440 then some date else date.next?
  let minuteOfDay := (minutes % 1440).toNat
  let universal ← DayTime.of? (minuteOfDay / 60) (minuteOfDay % 60) time.second time.nano
  some { date := day, time := universal }

end Instant

end StaticSite
