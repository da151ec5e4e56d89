import StaticSite.Text
import StaticSite.Table

/-!
# Directive arguments

The argument text of a directive is a sequence of positional values and `key=value` pairs
between blanks.  A value is quoted if the quote it starts with occurs again, and otherwise runs
to the next blank.
-/

namespace StaticSite

/-- One argument as written. -/
inductive Argument where
  | positional (value : Text)
  | keyed (key value : Text)
  deriving DecidableEq, Repr

/-- Named texts, in the order of their names. -/
abbrev Bindings := Table Text Text

/-- What a directive is given: its target or name, and its properties. -/
structure Arguments where
  main : Text
  props : Bindings

namespace Argument

/-- A value that ends at the next blank. -/
def bareValue (text : Text) : Text × Text :=
  (text.takeWhile (!Text.isBlank ·), text.dropWhile (!Text.isBlank ·))

/-- The inside of a quoted text whose quote closes, and the text behind the closing quote. -/
def quotedValue? : Text → Option (Text × Text)
  | [] => none
  | quote :: inside =>
      if quote = '"' ∨ quote = '\'' then Text.cut [quote] inside else none

/-- The value at the head of a text, and the text behind it. -/
def takeValue (text : Text) : Text × Text :=
  (quotedValue? text).getD (bareValue text)

/-- The argument at the head of a text, and the text behind it.  A word directly followed by
an equals sign is a key. -/
def take (text : Text) : Argument × Text :=
  match text.takeWhile Text.isWordChar, text.dropWhile Text.isWordChar with
  | c :: word, '=' :: rest => (.keyed (c :: word) (takeValue rest).1, (takeValue rest).2)
  | _, _ => (.positional (takeValue text).1, (takeValue text).2)

theorem length_lt_of_quotedValue? {text : Text} {parts : Text × Text}
    (quoted : quotedValue? text = some parts) : parts.2.length < text.length := by
  cases text with
  | nil => simp [quotedValue?] at quoted
  | cons quote inside =>
      simp only [quotedValue?] at quoted
      split at quoted
      · exact Nat.lt_succ_of_lt (Text.length_lt_of_cut (by simp) quoted)
      · simp at quoted

theorem length_takeValue_le (text : Text) : (takeValue text).2.length ≤ text.length := by
  unfold takeValue
  cases quoted : quotedValue? text with
  | none => exact (List.dropWhile_suffix _).length_le
  | some parts => exact Nat.le_of_lt (length_lt_of_quotedValue? quoted)

theorem length_takeValue_lt {c : Char} {rest : Text} (visible : Text.isBlank c = false) :
    (takeValue (c :: rest)).2.length < (c :: rest).length := by
  unfold takeValue
  cases quoted : quotedValue? (c :: rest) with
  | none =>
      simp only [Option.getD_none, bareValue, List.dropWhile_cons, visible, Bool.not_false,
        if_true]
      exact Nat.lt_succ_of_le (List.dropWhile_suffix _).length_le
  | some parts => exact length_lt_of_quotedValue? quoted

theorem length_take_lt {c : Char} {rest : Text} (visible : Text.isBlank c = false) :
    (take (c :: rest)).2.length < (c :: rest).length := by
  unfold take
  split
  · next key _ tail _ split =>
      have whole := (List.dropWhile_suffix Text.isWordChar (l := c :: rest)).length_le
      rw [split] at whole
      have value := length_takeValue_le tail
      simp only [List.length_cons] at whole ⊢
      omega
  · exact length_takeValue_lt visible

/-- All arguments of an argument text. -/
def list : Text → List Argument
  | [] => []
  | c :: rest =>
      if _ : Text.isBlank c then list rest
      else (take (c :: rest)).1 :: list (take (c :: rest)).2
  termination_by text => text.length
  decreasing_by
    · exact Nat.lt_succ_self _
    · exact length_take_lt (Bool.eq_false_iff.2 ‹_›)

/-- The value of a positional argument that is not empty. -/
def mainValue? : Argument → Option Text
  | .positional (c :: rest) => some (c :: rest)
  | _ => none

/-- The pair of a keyed argument. -/
def pair? : Argument → Option (Text × Text)
  | .keyed key value => some (key, value)
  | .positional _ => none

end Argument

namespace Arguments

/-- The first positional value that is not empty is the main one; of the pairs with one key the
last stands. -/
def ofList (items : List Argument) : Arguments where
  main := (items.findSome? Argument.mainValue?).getD []
  props := .ofList (items.filterMap Argument.pair?)

/-- The arguments written in a text. -/
def ofText (text : Text) : Arguments :=
  ofList (Argument.list text)

end Arguments

end StaticSite
