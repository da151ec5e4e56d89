import StaticSite.Json.Quoted
import StaticSite.Json.Value

/-!
# Reading JSON texts
-/

namespace StaticSite.Json

open Numeral

/-- Space, line feed, carriage return and tab may stand between the parts of a text. -/
def isBlank (c : Char) : Bool :=
  c == ' ' || c == '\n' || c == '\r' || c == '\t'

/-- The text behind its leading blanks. -/
def skipBlanks (text : Text) : Text :=
  text.dropWhile isBlank

/-- Splits a run of digits off a text. -/
def takeDigits? (text : Text) : Option (Text × Text) :=
  let digits := text.takeWhile isDigit
  if digits = [] then none else some (digits, text.dropWhile isDigit)

/-- The whole part of a number, which starts with a zero only if it is zero. -/
def takeWhole? : Text → Option (Text × Text)
  | '0' :: rest => some (['0'], rest)
  | text => takeDigits? text

/-- The fraction of a number, if there is one. -/
def takeFraction? : Text → Option (Text × Text)
  | '.' :: rest => do
      let (digits, rest) ← takeDigits? rest
      some ('.' :: digits, rest)
  | text => some ([], text)

/-- The exponent of a number, if there is one. -/
def takeExponent? : Text → Option (Text × Text)
  | [] => some ([], [])
  | c :: rest =>
      if c = 'e' ∨ c = 'E' then
        match rest with
        | sign :: behind =>
            if sign = '+' ∨ sign = '-' then do
              let (digits, rest) ← takeDigits? behind
              some (c :: sign :: digits, rest)
            else do
              let (digits, rest) ← takeDigits? rest
              some (c :: digits, rest)
        | [] => none
      else some ([], c :: rest)

/-- Splits a number off a text. -/
def takeNumber? (text : Text) : Option (Text × Text) := do
  let (sign, text) : Text × Text := match text with
    | '-' :: rest => (['-'], rest)
    | text => ([], text)
  let (whole, rest) ← takeWhole? text
  let (fraction, rest) ← takeFraction? rest
  let (exponent, rest) ← takeExponent? rest
  some (sign ++ whole ++ fraction ++ exponent, rest)

/-- The items of an array that has some, read behind its opening bracket or a comma. -/
def readItems? (item : Text → Option (Value × Text)) : Nat → Text → Option (List Value × Text)
  | 0, _ => none
  | fuel + 1, text => do
      let (value, rest) ← item text
      match skipBlanks rest with
      | ',' :: rest => do
          let (values, rest) ← readItems? item fuel rest
          some (value :: values, rest)
      | ']' :: rest => some ([value], rest)
      | _ => none

/-- The members of an object that has some, read behind its opening brace or a comma. -/
def readMembers? (item : Text → Option (Value × Text)) :
    Nat → Text → Option (List (Text × Value) × Text)
  | 0, _ => none
  | fuel + 1, text =>
      match skipBlanks text with
      | '"' :: rest => do
          let (name, rest) ← takeLiteral? rest
          match skipBlanks rest with
          | ':' :: rest => do
              let (value, rest) ← item rest
              match skipBlanks rest with
              | ',' :: rest => do
                  let (members, rest) ← readMembers? item fuel rest
                  some ((name, value) :: members, rest)
              | '\x7d' :: rest => some ([(name, value)], rest)
              | _ => none
          | _ => none
      | _ => none

/-- A value and the text behind it.  Each level of nesting takes a character at least, so a text
is no deeper than it is long. -/
def readValue? : Nat → Text → Option (Value × Text)
  | 0, _ => none
  | depth + 1, text =>
      match skipBlanks text with
      | 'n' :: 'u' :: 'l' :: 'l' :: rest => some (.null, rest)
      | 't' :: 'r' :: 'u' :: 'e' :: rest => some (.boolean true, rest)
      | 'f' :: 'a' :: 'l' :: 's' :: 'e' :: rest => some (.boolean false, rest)
      | '"' :: rest => (takeLiteral? rest).map fun (literal, rest) => (.string literal, rest)
      | '[' :: rest =>
          match skipBlanks rest with
          | ']' :: rest => some (.array [], rest)
          | inside => (readItems? (readValue? depth) inside.length inside).map
              fun (items, rest) => (.array items, rest)
      | '\x7b' :: rest =>
          match skipBlanks rest with
          | '\x7d' :: rest => some (.object [], rest)
          | inside => (readMembers? (readValue? depth) inside.length inside).map
              fun (members, rest) => (.object members, rest)
      | text => (takeNumber? text).map fun (literal, rest) => (.number literal, rest)

/-- The value of a whole text. -/
def read? (text : Text) : Option Value := do
  let (value, rest) ← readValue? (text.length + 1) text
  if skipBlanks rest = [] then some value else none

/-! ## Values of a certain shape -/

namespace Value

/-- The text of a string. -/
def text? : Value → Option Text
  | string literal => unescape? literal
  | _ => none

/-- The truth value. -/
def boolean? : Value → Option Bool
  | boolean value => some value
  | _ => none

/-- The number of a literal without sign, fraction and exponent that fits 64 bits. -/
def word? : Value → Option Nat
  | number literal =>
      if literal.all isDigit ∧ value 10 literal < UInt64.size then some (value 10 literal)
      else none
  | _ => none

/-- Nothing for null, and otherwise what a reading makes of the value. -/
def optional? {α : Type} (read : Value → Option α) : Value → Option (Option α)
  | null => some none
  | value => (read value).map some

/-- The members of an object under their names.  A name occurs once among those in `known`;
members with other names are left out. -/
def fields? (known : List Text) : List (Text × Value) → Option (List (Text × Value))
  | [] => some []
  | (literal, value) :: rest => do
      let name ← unescape? literal
      let others ← fields? known rest
      if !known.contains name then some others
      else if others.any (·.1 = name) then none
      else some ((name, value) :: others)

end Value

end StaticSite.Json
