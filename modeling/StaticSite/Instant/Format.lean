import StaticSite.Instant
import StaticSite.Text.Numeral
import StaticSite.Text.Space

/-!
# Instants in text

An instant is written as RFC 3339 has it, with as many groups of three decimals as it needs;
years that do not fit four digits carry a sign.  Reading is more lenient: single digits, white
space around the parts and any offset from universal time are accepted.
-/

namespace StaticSite.Instant

open Numeral

/-! ## Writing -/

/-- A year in four digits, or with a sign if it does not fit them. -/
def writeYear (year : Int) : Text :=
  if 0 ≤ year ∧ year ≤ 9999 then padded 4 year.toNat
  else (if year < 0 then '-' else '+') :: padded 4 year.natAbs

/-- The decimals of a second: none, or three, six or nine of them. -/
def writeNano (nano : Nat) : Text :=
  if nano = 0 then []
  else if nano % 1000000 = 0 then '.' :: padded 3 (nano / 1000000)
  else if nano % 1000 = 0 then '.' :: padded 6 (nano / 1000)
  else '.' :: padded 9 nano

/-- Date and time of day without an offset. -/
def writeFields (instant : Instant) : Text :=
  writeYear instant.date.year ++ '-' :: padded 2 instant.date.month
    ++ '-' :: padded 2 instant.date.day
    ++ 'T' :: padded 2 instant.time.hour ++ ':' :: padded 2 instant.time.minute
    ++ ':' :: padded 2 instant.time.second ++ writeNano instant.time.nano

/-- The instant with `Z` for universal time. -/
def write (instant : Instant) : Text :=
  instant.writeFields ++ ['Z']

/-- The instant with a numeric offset. -/
def writeWithOffset (instant : Instant) : Text :=
  instant.writeFields ++ "+00:00".toList

/-! ## Reading -/

/-- At least one and at most `width` digits. -/
def takeNumber? (width : Nat) (text : Text) : Option (Nat × Text) :=
  let digits := (text.take width).takeWhile isDigit
  if digits = [] then none else some (value 10 digits, text.drop digits.length)

/-- A year: up to four digits, or a sign and any number of digits. -/
def readYear? (text : Text) : Option (Int × Text) :=
  match Text.skipSpaces text with
  | '-' :: rest => (takeNumber? rest.length rest).map fun (year, rest) => (-(year : Int), rest)
  | '+' :: rest => (takeNumber? rest.length rest).map fun (year, rest) => ((year : Int), rest)
  | rest => (takeNumber? 4 rest).map fun (year, rest) => ((year : Int), rest)

/-- A number of one or two digits, with white space in front. -/
def readPart? (text : Text) : Option (Nat × Text) :=
  takeNumber? 2 (Text.skipSpaces text)

/-- The text behind a mark, with white space in front. -/
def skipMark? (mark : Char) (text : Text) : Option Text :=
  match Text.skipSpaces text with
  | c :: rest => if c = mark then some rest else none
  | [] => none

/-- The decimals of a second, in nanoseconds.  Digits behind the ninth count for nothing. -/
def readNano? : Text → Option (Nat × Text)
  | '.' :: rest => do
      let digits := (rest.take 9).takeWhile isDigit
      if digits = [] then none
      some (value 10 digits * Nat.pow 10 (9 - digits.length), rest.dropWhile isDigit)
  | rest => some (0, rest)

/-- Whether a text starts with `UTC` in any case. -/
def startsUniversal (text : Text) : Bool :=
  (text.take 3).map Char.toUpper == "UTC".toList

/-- The minutes that a sign, two digits of hours and two digits of minutes say; colons and white
space may stand between the two. -/
def readSignedOffset? (negative : Bool) (text : Text) : Option (Int × Text) :=
  match text with
  | h1 :: h2 :: rest =>
      if isDigit h1 && isDigit h2 then
        match rest.dropWhile fun c => c == ':' || Text.isSpace c with
        | m1 :: m2 :: rest =>
            if isDigit m1 && isDigit m2 && m1 ≤ '5' then
              let minutes : Int := value 10 [h1, h2] * 60 + value 10 [m1, m2]
              some (if negative then -minutes else minutes, rest)
            else none
        | _ => none
      else none
  | _ => none

/-- The offset from universal time, in minutes; less than a day. -/
def readOffset? (text : Text) : Option (Int × Text) := do
  let text := Text.skipSpaces text
  if startsUniversal text then return (0, text.drop 3)
  let (offset, rest) ← match text with
    | 'Z' :: rest => some (0, rest)
    | 'z' :: rest => some (0, rest)
    | '+' :: rest => readSignedOffset? false rest
    | '-' :: rest => readSignedOffset? true rest
    | '\u2212' :: rest => readSignedOffset? true rest
    | _ => none
  if offset.natAbs < 1440 then some (offset, rest) else none

/-- The instant that a text says. -/
def read? (text : Text) : Option Instant := do
  let (year, rest) ← readYear? text
  let (month, rest) ← readPart? (← skipMark? '-' rest)
  let (day, rest) ← readPart? (← skipMark? '-' rest)
  let rest ← match rest with
    | 'T' :: rest => some rest
    | 't' :: rest => some rest
    | ' ' :: rest => some rest
    | _ => none
  let (hour, rest) ← readPart? rest
  let (minute, rest) ← readPart? (← skipMark? ':' rest)
  let (second, rest) ← readPart? (← skipMark? ':' rest)
  let (nano, rest) ← readNano? rest
  let (offset, rest) ← readOffset? rest
  if Text.skipSpaces rest ≠ [] then none
  ofLocal? (← Date.of? year month day) (← DayTime.of? hour minute second nano) offset

end StaticSite.Instant
