import StaticSite.Text

/-!
# Numerals

Digits and the numbers they write, in decimal and in hexadecimal notation.
-/

namespace StaticSite.Numeral

/-- An ASCII decimal digit. -/
def isDigit (c : Char) : Bool :=
  '0' ≤ c && c ≤ '9'

/-- An ASCII hexadecimal digit of either case. -/
def isHexDigit (c : Char) : Bool :=
  isDigit c || ('a' ≤ c && c ≤ 'f') || ('A' ≤ c && c ≤ 'F')

/-- The number that a digit stands for. -/
def digitValue (c : Char) : Nat :=
  if c ≤ '9' then c.toNat - 48
  else if c ≤ 'F' then c.toNat - 55
  else c.toNat - 87

/-- The number that some digits write in a base. -/
def value (base : Nat) (digits : Text) : Nat :=
  digits.foldl (fun number digit => number * base + digitValue digit) 0

/-- Decimal notation with zeros in front up to a width. -/
def padded (width number : Nat) : Text :=
  (Text.ofNat number).leftpad width '0'

/-- Hexadecimal notation in lower case, in exactly four digits for a number below `65536`. -/
def hex4 (number : Nat) : Text :=
  (Nat.toDigits 16 number).leftpad 4 '0'

/-- Hexadecimal notation in upper case, in exactly four digits for a number below `65536`. -/
def upperHex4 (number : Nat) : Text :=
  (hex4 number).map Char.toUpper

/-- Reads exactly `count` hexadecimal digits. -/
def takeHex? (count : Nat) (text : Text) : Option (Nat × Text) :=
  let digits := text.take count
  if digits.length = count ∧ digits.all isHexDigit then
    some (value 16 digits, text.drop count)
  else none

/-- The character with a code point, if there is one. -/
def char? (codePoint : Nat) : Option Char :=
  if codePoint.isValidChar then some (Char.ofNat codePoint) else none

theorem length_le_of_takeHex? {count number : Nat} {text rest : Text}
    (read : takeHex? count text = some (number, rest)) : rest.length ≤ text.length := by
  simp only [takeHex?] at read
  split at read
  · simp only [Option.some.injEq, Prod.mk.injEq] at read
    rw [← read.2, List.length_drop]
    omega
  · simp at read

end StaticSite.Numeral
