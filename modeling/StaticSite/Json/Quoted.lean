import StaticSite.Text.Numeral

/-!
# Strings of a JSON text

The inside of a string literal holds escapes.  Writing escapes the quotation mark, the backslash
and the ASCII controls.  Reading undoes every escape, and fails where an escape is half of a
surrogate pair without its other half.
-/

namespace StaticSite.Json

open Numeral

/-- A character of a string literal, escaped if it has to be. -/
def escapeChar (c : Char) : Text :=
  if c = '"' then "\\\"".toList
  else if c = '\\' then "\\\\".toList
  else if c = '\x08' then "\\b".toList
  else if c = '\x0c' then "\\f".toList
  else if c = '\n' then "\\n".toList
  else if c = '\r' then "\\r".toList
  else if c = '\t' then "\\t".toList
  else if c.toNat < 0x20 then "\\u".toList ++ hex4 c.toNat
  else [c]

/-- The inside of the literal of a text. -/
def escape (text : Text) : Text :=
  text.flatMap escapeChar

/-- The character of a one-letter escape. -/
def letterEscape? (c : Char) : Option Char :=
  if c = '"' then some '"'
  else if c = '\\' then some '\\'
  else if c = '/' then some '/'
  else if c = 'b' then some '\x08'
  else if c = 'f' then some '\x0c'
  else if c = 'n' then some '\n'
  else if c = 'r' then some '\r'
  else if c = 't' then some '\t'
  else none

/-- Splits a string literal off a text that starts behind the opening quotation mark: the
literal's inside, and what follows the closing mark.  Every escape has to be well formed, but
need not name a character. -/
def takeLiteral? : Text → Option (Text × Text)
  | [] => none
  | '"' :: rest => some ([], rest)
  | '\\' :: 'u' :: a :: b :: c :: d :: rest =>
      if [a, b, c, d].all isHexDigit then do
        let (literal, rest) ← takeLiteral? rest
        some ('\\' :: 'u' :: a :: b :: c :: d :: literal, rest)
      else none
  | '\\' :: letter :: rest =>
      if (letterEscape? letter).isSome then do
        let (literal, rest) ← takeLiteral? rest
        some ('\\' :: letter :: literal, rest)
      else none
  | c :: rest =>
      if c = '\\' ∨ c.toNat < 0x20 then none
      else do
        let (literal, rest) ← takeLiteral? rest
        some (c :: literal, rest)

/-- Whether a code unit is the first half of a surrogate pair. -/
def isHighSurrogate (unit : Nat) : Bool :=
  0xD800 ≤ unit && unit ≤ 0xDBFF

/-- Whether a code unit is the second half of a surrogate pair. -/
def isLowSurrogate (unit : Nat) : Bool :=
  0xDC00 ≤ unit && unit ≤ 0xDFFF

/-- The character of a surrogate pair. -/
def surrogatePair (high low : Nat) : Char :=
  Char.ofNat (0x10000 + (high - 0xD800) * 0x400 + (low - 0xDC00))

/-- The text that the inside of a literal stands for. -/
def unescape? : Text → Option Text
  | [] => some []
  | '\\' :: 'u' :: a :: b :: c :: d :: '\\' :: 'u' :: e :: f :: g :: h :: rest =>
      let unit := value 16 [a, b, c, d]
      let next := value 16 [e, f, g, h]
      if isHighSurrogate unit then
        if isLowSurrogate next then (unescape? rest).map (surrogatePair unit next :: ·)
        else none
      else do
        let char ← char? unit
        (unescape? ('\\' :: 'u' :: e :: f :: g :: h :: rest)).map (char :: ·)
  | '\\' :: 'u' :: a :: b :: c :: d :: rest => do
      let char ← char? (value 16 [a, b, c, d])
      (unescape? rest).map (char :: ·)
  | '\\' :: letter :: rest => do
      let char ← letterEscape? letter
      (unescape? rest).map (char :: ·)
  | c :: rest => (unescape? rest).map (c :: ·)

end StaticSite.Json
