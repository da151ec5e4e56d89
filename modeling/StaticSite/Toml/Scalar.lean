import StaticSite.Calendar
import StaticSite.Toml.Quoted
import StaticSite.Toml.Value

/-!
# Numbers and points in time of a TOML document
-/

namespace StaticSite.Toml

open Numeral

/-! ## Integers -/

/-- The digits that go on a number, each with at most one underscore in front of it. -/
def moreDigits (digit : Char → Bool) : Text → Text × Text
  | [] => ([], [])
  | '_' :: next :: rest =>
      if digit next then
        let (digits, behind) := moreDigits digit rest
        (next :: digits, behind)
      else ([], '_' :: next :: rest)
  | c :: rest =>
      if digit c then
        let (digits, behind) := moreDigits digit rest
        (c :: digits, behind)
      else ([], c :: rest)

/-- Digits of a class with single underscores between them. -/
def takeDigits? (digit : Char → Bool) : Text → Option (Text × Text)
  | [] => none
  | c :: rest =>
      if digit c then
        let (digits, behind) := moreDigits digit rest
        some (c :: digits, behind)
      else none

/-- The digits of a decimal integer, which starts with a zero only if it is zero. -/
def takeDecimal? : Text → Option (Text × Text)
  | '0' :: rest => some (['0'], rest)
  | text => takeDigits? isDigit text

/-- A sign, which may be missing: whether it is a minus sign, and what follows. -/
def takeSign : Text → Bool × Text
  | '-' :: rest => (true, rest)
  | '+' :: rest => (false, rest)
  | text => (false, text)

/-- The integers of a document fit 64 bits with a sign. -/
def integer? (number : Int) : Option Value :=
  if -9223372036854775808 ≤ number ∧ number ≤ 9223372036854775807 then some (.integer number)
  else none

/-- An octal digit. -/
def isOctal (c : Char) : Bool := '0' ≤ c && c ≤ '7'

/-- A binary digit. -/
def isBinary (c : Char) : Bool := c == '0' || c == '1'

/-- An integer in one of the four bases.  Only decimal integers have a sign. -/
def readInteger? : Text → Option (Value × Text)
  | '0' :: 'x' :: rest => do
      let (digits, rest) ← takeDigits? isHexDigit rest
      some (← integer? (value 16 digits), rest)
  | '0' :: 'o' :: rest => do
      let (digits, rest) ← takeDigits? isOctal rest
      some (← integer? (value 8 digits), rest)
  | '0' :: 'b' :: rest => do
      let (digits, rest) ← takeDigits? isBinary rest
      some (← integer? (value 2 digits), rest)
  | text => do
      let (negative, unsigned) := takeSign text
      let (digits, rest) ← takeDecimal? unsigned
      let magnitude : Int := value 10 digits
      some (← integer? (if negative then -magnitude else magnitude), rest)

/-! ## Floats -/

/-- Whether `digits` times ten to the power `exponent` is too large for a 64-bit float, so that
the nearest one is infinite. -/
def overflows (digits : Text) (exponent : Int) : Bool :=
  let digits := digits.dropWhile (· == '0')
  let magnitude := digits.length + exponent
  if digits.isEmpty || magnitude < 300 then false
  else if 320 < magnitude then true
  else
    let limit := Nat.pow 2 1024 - Nat.pow 2 970
    let number := value 10 digits
    if 0 ≤ exponent then limit ≤ number * Nat.pow 10 exponent.toNat
    else limit * Nat.pow 10 (-exponent).toNat ≤ number

/-- The digits behind the point of a number. -/
def takeFraction? : Text → Option (Text × Text)
  | '.' :: rest => takeDigits? isDigit rest
  | _ => none

/-- The exponent of a number. -/
def takeExponent? : Text → Option (Int × Text)
  | c :: rest =>
      if c = 'e' || c = 'E' then do
        let (negative, unsigned) := takeSign rest
        let (digits, rest) ← takeDigits? isDigit unsigned
        let magnitude : Int := value 10 digits
        some (if negative then -magnitude else magnitude, rest)
      else none
  | [] => none

/-- The part of `text` in front of `rest`. -/
def consumed (text rest : Text) : Text :=
  text.take (text.length - rest.length)

/-- A number with a fraction, an exponent or both, or an infinity or a not-a-number in words.
Positive numbers too large for a 64-bit float are refused. -/
def readFloat? (text : Text) : Option (Value × Text) := do
  let (negative, unsigned) := takeSign text
  if let some rest := "inf".toList.isPrefixOf? unsigned then
    return (.float (consumed text rest), rest)
  if let some rest := "nan".toList.isPrefixOf? unsigned then
    return (.float (consumed text rest), rest)
  let (whole, behind) ← takeDecimal? unsigned
  let fraction := takeFraction? behind
  let (decimals, behind) := fraction.getD ([], behind)
  let power := takeExponent? behind
  if fraction.isNone && power.isNone then none
  let (exponent, rest) := power.getD (0, behind)
  if !negative && overflows (whole ++ decimals) (exponent - decimals.length) then none
  some (.float (consumed text rest), rest)

/-! ## Points in time -/

/-- Exactly two digits that write a number between two bounds. -/
def takePair? (low high : Nat) (text : Text) : Option (Nat × Text) :=
  match text with
  | tens :: ones :: rest =>
      if isDigit tens && isDigit ones then
        let number := value 10 [tens, ones]
        if low ≤ number && number ≤ high then some (number, rest) else none
      else none
  | _ => none

/-- The text behind one character. -/
def expect? (mark : Char) : Text → Option Text
  | c :: rest => if c = mark then some rest else none
  | [] => none

/-- The text behind a calendar date. -/
def skipDate? (text : Text) : Option Text := do
  let digits := text.take 4
  if digits.length ≠ 4 || !digits.all isDigit then none
  let rest ← expect? '-' (text.drop 4)
  let (month, rest) ← takePair? 1 12 rest
  let rest ← expect? '-' rest
  let (day, rest) ← takePair? 1 31 rest
  if daysInMonth (value 10 digits) month < day then none
  some rest

/-- The text behind a time of day, whose seconds may have a fraction. -/
def skipTime? (text : Text) : Option Text := do
  let (_, rest) ← takePair? 0 23 text
  let rest ← expect? ':' rest
  let (_, rest) ← takePair? 0 59 rest
  let rest ← expect? ':' rest
  let (_, rest) ← takePair? 0 60 rest
  match rest with
  | '.' :: digit :: behind =>
      if isDigit digit then some (behind.dropWhile isDigit) else some rest
  | _ => some rest

/-- The text behind an offset from universal time. -/
def skipOffset? : Text → Option Text
  | [] => none
  | c :: rest =>
      if c = 'Z' || c = 'z' then some rest
      else if c = '+' || c = '-' then do
        let (_, rest) ← takePair? 0 23 rest
        let rest ← expect? ':' rest
        let (_, rest) ← takePair? 0 59 rest
        some rest
      else none

/-- The time of day that may follow a date, with its offset. -/
def skipDayTime? : Text → Option Text
  | [] => none
  | c :: rest =>
      if c = 'T' || c = 't' || c = ' ' then do
        let rest ← skipTime? rest
        some ((skipOffset? rest).getD rest)
      else none

/-- A date, a time of day or both. -/
def readDatetime? (text : Text) : Option (Value × Text) :=
  match skipDate? text with
  | some rest =>
      let rest := (skipDayTime? rest).getD rest
      some (.datetime (consumed text rest), rest)
  | none => (skipTime? text).map fun rest => (.datetime (consumed text rest), rest)

/-! ## Any scalar -/

/-- The text behind a word. -/
def skipWord? (word : String) (text : Text) : Option Text :=
  word.toList.isPrefixOf? text

/-- A string, a truth value, a point in time or a number. -/
def readScalar? (text : Text) : Option (Value × Text) :=
  match readQuoted? text with
  | some (string, rest) => some (.string string, rest)
  | none =>
      match skipWord? "true" text, skipWord? "false" text with
      | some rest, _ => some (.boolean true, rest)
      | none, some rest => some (.boolean false, rest)
      | none, none =>
          (readDatetime? text).or ((readFloat? text).or (readInteger? text))

end StaticSite.Toml
