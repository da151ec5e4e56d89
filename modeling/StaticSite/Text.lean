/-!
# Text

A text is a list of characters.  This module holds the character classes that the directive
language uses, the byte length of a text in UTF-8, and the cuts at a mark, at a byte offset
and at both ends from which everything else about text is built.
-/

namespace StaticSite

/-- Source text, names and messages are lists of Unicode characters. -/
abbrev Text := List Char

/-- Of two different texts one comes before the other. -/
instance : Std.Trichotomous (α := Text) (· < ·) :=
  inferInstance

namespace Text

/-- Space, tab, line feed, form feed and carriage return separate words.  The class is ASCII
only: no other Unicode space separates anything in a directive. -/
def isBlank (c : Char) : Bool :=
  c == ' ' || c == '\t' || c == '\n' || c == '\x0c' || c == '\r'

/-- Words are made of ASCII letters, ASCII digits and the underscore. -/
def isWordChar (c : Char) : Bool :=
  c.isAlphanum || c == '_'

/-- The number of bytes that a text takes in UTF-8. -/
def byteLength : Text → Nat
  | [] => 0
  | c :: rest => c.utf8Size + byteLength rest

/-- The characters that begin before byte offset `n`. -/
def takeBytes : Nat → Text → Text
  | _, [] => []
  | n, c :: rest => if n = 0 then [] else c :: takeBytes (n - c.utf8Size) rest

/-- The characters that begin at byte offset `n` or later. -/
def dropBytes : Nat → Text → Text
  | _, [] => []
  | n, c :: rest => if n = 0 then c :: rest else dropBytes (n - c.utf8Size) rest

/-- The text without the blanks at its two ends. -/
def trim (text : Text) : Text :=
  ((text.dropWhile isBlank).reverse.dropWhile isBlank).reverse

/-- The parts before and after the first occurrence of `mark`. -/
def cut (mark : Text) : Text → Option (Text × Text)
  | [] => if mark = [] then some ([], []) else none
  | c :: rest =>
      match mark.isPrefixOf? (c :: rest) with
      | some after => some ([], after)
      | none => (cut mark rest).map fun (before, after) => (c :: before, after)

/-- Whether `mark` occurs somewhere in the text. -/
def includes (mark text : Text) : Bool :=
  (cut mark text).isSome

/-- Puts `piece` in front of the first occurrence of `mark`, if there is one. -/
def insertBefore? (mark piece text : Text) : Option Text :=
  (cut mark text).map fun (before, after) => before ++ piece ++ mark ++ after

/-- Puts `piece` right after the first occurrence of `mark`, if there is one. -/
def insertAfter? (mark piece text : Text) : Option Text :=
  (cut mark text).map fun (before, after) => before ++ mark ++ piece ++ after

/-- Lines joined by line feeds. -/
def ofLines (lines : List String) : Text :=
  List.intercalate ['\n'] (lines.map String.toList)

/-- Decimal notation, without leading zeros. -/
def ofNat (n : Nat) : Text :=
  Nat.toDigits 10 n

/-! ## Nothing is lost in a cut -/

theorem append_of_isPrefixOf? {mark text after : Text}
    (found : mark.isPrefixOf? text = some after) : text = mark ++ after := by
  induction mark generalizing text with
  | nil => exact Option.some.inj found
  | cons m rest ih =>
      cases text with
      | nil => exact nomatch (show none = some after from found)
      | cons c tail =>
          have step : (if m == c then rest.isPrefixOf? tail else none) = some after := found
          split at step
          · next same => rw [← eq_of_beq same, ih step, List.cons_append]
          · cases step

theorem append_of_cut {mark text before after : Text}
    (found : cut mark text = some (before, after)) : text = before ++ mark ++ after := by
  induction text generalizing before with
  | nil =>
      by_cases empty : mark = []
      · simp only [cut, empty, if_true, Option.some.injEq, Prod.mk.injEq] at found
        simp [empty, ← found.1, ← found.2]
      · simp [cut, empty] at found
  | cons c rest ih =>
      unfold cut at found
      split at found
      · next start =>
          simp only [Option.some.injEq, Prod.mk.injEq] at found
          obtain ⟨rfl, rfl⟩ := found
          simpa using append_of_isPrefixOf? start
      · obtain ⟨⟨inner, tail⟩, later, same⟩ := Option.map_eq_some_iff.1 found
        simp only [Prod.mk.injEq] at same
        obtain ⟨rfl, rfl⟩ := same
        simp [ih later]

theorem length_lt_of_cut {mark text before after : Text} (nonempty : mark ≠ [])
    (found : cut mark text = some (before, after)) : after.length < text.length := by
  have positive : 0 < mark.length := List.length_pos_iff.2 nonempty
  rw [append_of_cut found]
  simp only [List.length_append]
  omega

theorem byteLength_append (a b : Text) : byteLength (a ++ b) = byteLength a + byteLength b := by
  induction a with
  | nil => simp [byteLength]
  | cons c rest ih => simp [byteLength, ih, Nat.add_assoc]

end Text

end StaticSite
