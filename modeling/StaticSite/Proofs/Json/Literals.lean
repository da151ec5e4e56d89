import StaticSite.Json.Quoted
import StaticSite.Proofs.Text.Numerals

/-!
# String literals that are read back

What escaping writes is the inside of one string literal, and stands for the text that was escaped.
-/

namespace StaticSite.Json

open Numeral

variable {c : Char}

/-- A character is escaped by a letter or by its number, or stands for itself. -/
theorem escapeChar_cases (c : Char) :
    (∃ letter, letter ≠ 'u' ∧ letterEscape? letter = some c ∧ escapeChar c = ['\\', letter]) ∨
    (c.toNat < 0x20 ∧ escapeChar c = "\\u".toList ++ hex4 c.toNat) ∨
    (c ≠ '"' ∧ c ≠ '\\' ∧ 0x20 ≤ c.toNat ∧ escapeChar c = [c]) := by
  by_cases special : c ∈ ['"', '\\', '\x08', '\x0c', '\n', '\r', '\t']
  · left
    simp only [List.mem_cons, List.not_mem_nil, or_false] at special
    rcases special with rfl | rfl | rfl | rfl | rfl | rfl | rfl <;>
      exact ⟨_, by decide, by decide, rfl⟩
  · right
    simp only [List.mem_cons, List.not_mem_nil, or_false, not_or] at special
    obtain ⟨noQuote, noSlash, noBackspace, noFeed, noLine, noReturn, noTab⟩ := special
    unfold escapeChar
    rw [if_neg noQuote, if_neg noSlash, if_neg noBackspace, if_neg noFeed, if_neg noLine,
      if_neg noReturn, if_neg noTab]
    by_cases control : c.toNat < 0x20
    · exact .inl ⟨control, if_pos control⟩
    · exact .inr ⟨noQuote, noSlash, Nat.le_of_not_lt control, if_neg control⟩

/-! ## Splitting a literal off -/

theorem takeLiteral?_plain (rest : Text) (noQuote : c ≠ '"') (noSlash : c ≠ '\\')
    (noControl : 0x20 ≤ c.toNat) : takeLiteral? (c :: rest)
      = (takeLiteral? rest).map fun (literal, rest) => (c :: literal, rest) := by
  rw [takeLiteral?]
  · rw [if_neg (by simp [noSlash, noControl])]
    cases takeLiteral? rest <;> rfl
  all_goals simp [noQuote, noSlash]

theorem takeLiteral?_letter (letter : Char) (rest : Text) (known : (letterEscape? letter).isSome)
    (noUnicode : letter ≠ 'u') : takeLiteral? ('\\' :: letter :: rest)
      = (takeLiteral? rest).map fun (literal, rest) => ('\\' :: letter :: literal, rest) := by
  rw [takeLiteral?]
  · rw [if_pos known]
    cases takeLiteral? rest <;> rfl
  · simp [noUnicode]

theorem takeLiteral?_unicode {digits : Text} (rest : Text) (four : digits.length = 4)
    (hex : ∀ c ∈ digits, isHexDigit c = true) : takeLiteral? ("\\u".toList ++ digits ++ rest)
      = (takeLiteral? rest).map fun (literal, rest) =>
          ("\\u".toList ++ digits ++ literal, rest) := by
  obtain ⟨a, b, c, d, rfl⟩ : ∃ a b c d, digits = [a, b, c, d] := by
    match digits, four with
    | [a, b, c, d], _ => exact ⟨a, b, c, d, rfl⟩
  change takeLiteral? ('\\' :: 'u' :: a :: b :: c :: d :: rest) = _
  rw [takeLiteral?, if_pos (List.all_eq_true.2 hex)]
  cases takeLiteral? rest <;> rfl

theorem takeLiteral?_escapeChar (c : Char) (rest : Text) : takeLiteral? (escapeChar c ++ rest)
    = (takeLiteral? rest).map fun (literal, rest) => (escapeChar c ++ literal, rest) := by
  rcases escapeChar_cases c with ⟨letter, noUnicode, known, same⟩ | ⟨control, same⟩ |
    ⟨noQuote, noSlash, noControl, same⟩
  · rw [same]
    exact takeLiteral?_letter letter rest (Option.isSome_of_eq_some known) noUnicode
  · rw [same]
    exact takeLiteral?_unicode rest (length_hex4 (by omega)) fun _ => isHexDigit_of_mem_hex4
  · rw [same]
    exact takeLiteral?_plain rest noQuote noSlash noControl

/-- The inside of a literal as it is written ends where the closing mark stands. -/
theorem takeLiteral?_escape (text rest : Text) :
    takeLiteral? (escape text ++ '"' :: rest) = some (escape text, rest) := by
  induction text with
  | nil => rfl
  | cons c text ih =>
    have whole : escape (c :: text) = escapeChar c ++ escape text := List.flatMap_cons
    rw [whole, List.append_assoc, takeLiteral?_escapeChar, ih]
    rfl

/-! ## What a literal stands for -/

theorem unescape?_letter {letter : Char} (rest : Text) (known : letterEscape? letter = some c)
    (noUnicode : letter ≠ 'u') :
    unescape? ('\\' :: letter :: rest) = (unescape? rest).map (c :: ·) := by
  rw [unescape?, known]
  · rfl
  all_goals simp [noUnicode]

theorem unescape?_plain (rest : Text) (noSlash : c ≠ '\\') :
    unescape? (c :: rest) = (unescape? rest).map (c :: ·) := by
  rw [unescape?]
  all_goals simp [noSlash]

/-- Only the first half of a surrogate pair asks what follows it. -/
theorem unescape?_unicode {digits : Text} (rest : Text) (four : digits.length = 4)
    (number : value 16 digits = c.toNat) (noHalf : isHighSurrogate c.toNat = false) :
    unescape? ("\\u".toList ++ digits ++ rest) = (unescape? rest).map (c :: ·) := by
  obtain ⟨a, b, c', d, rfl⟩ : ∃ a b c d, digits = [a, b, c, d] := by
    match digits, four with
    | [a, b, c, d], _ => exact ⟨a, b, c, d, rfl⟩
  change unescape? ('\\' :: 'u' :: a :: b :: c' :: d :: rest) = _
  by_cases another : ∃ e f g h more, rest = '\\' :: 'u' :: e :: f :: g :: h :: more
  · obtain ⟨e, f, g, h, more, rfl⟩ := another
    rw [unescape?, number, noHalf, char?_toNat]
    rfl
  · rw [unescape?, number, char?_toNat]
    · rfl
    · simpa using another

theorem unescape?_escapeChar (c : Char) (rest : Text) :
    unescape? (escapeChar c ++ rest) = (unescape? rest).map (c :: ·) := by
  rcases escapeChar_cases c with ⟨letter, noUnicode, known, same⟩ | ⟨control, same⟩ |
    ⟨noQuote, noSlash, noControl, same⟩
  · rw [same]
    exact unescape?_letter rest known noUnicode
  · rw [same]
    have noHalf : isHighSurrogate c.toNat = false := by
      rw [isHighSurrogate, Bool.and_eq_false_imp, decide_eq_true_eq]
      omega
    exact unescape?_unicode rest (length_hex4 (by omega)) (value_hex4 _) noHalf
  · rw [same]
    exact unescape?_plain rest noSlash

@[simp] theorem unescape?_escape (text : Text) : unescape? (escape text) = some text := by
  induction text with
  | nil => rfl
  | cons c text ih =>
    have whole : escape (c :: text) = escapeChar c ++ escape text := List.flatMap_cons
    rw [whole, unescape?_escapeChar, ih]
    rfl

end StaticSite.Json
