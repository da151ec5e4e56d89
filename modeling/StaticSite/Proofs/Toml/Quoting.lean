import StaticSite.Proofs.Text.Cutting
import StaticSite.Proofs.Text.Numerals
import StaticSite.Toml.Quoted

/-!
# Quoted strings that are read back

In each of the four ways to quote, what is written of a string is read back as that string, whatever
comes behind it but one more of the closing marks.  In a string of several lines the only question
is which marks close it: at most two of them stand in front of the last three.
-/

namespace StaticSite.Toml

open Numeral

variable {text rest : Text} {c mark : Char}

/-! ## Escapes -/

/-- A character stands for itself or behind a backslash that does not end its line. -/
theorem escapeChar_cases (c : Char) :
    (c ≠ '"' ∧ c ≠ '\\' ∧ isPlain c = true ∧ escapeChar c = [c]) ∨
    ∃ letter code, isLineBlank letter = false ∧ letter ≠ '\n' ∧ letter ≠ '\r' ∧
      escapeChar c = '\\' :: letter :: code ∧
      ∀ rest, escaped? (letter :: code ++ rest) = some (c, rest) := by
  -- Seven characters have a letter behind the backslash, all other control characters their number.
  by_cases special : c ∈ ['\x08', '\t', '\n', '\x0c', '\r', '"', '\\']
  · right
    simp only [List.mem_cons, List.not_mem_nil, or_false] at special
    rcases special with rfl | rfl | rfl | rfl | rfl | rfl | rfl <;>
      exact ⟨_, [], by decide, by decide, by decide, rfl, fun rest => rfl⟩
  · simp only [List.mem_cons, List.not_mem_nil, or_false, not_or] at special
    obtain ⟨noBackspace, noTab, noLine, noFeed, noReturn, noQuote, noSlash⟩ := special
    unfold escapeChar
    rw [if_neg noBackspace, if_neg noTab, if_neg noLine, if_neg noFeed, if_neg noReturn,
      if_neg noQuote, if_neg noSlash]
    by_cases control : isControl c = true
    · right
      have small : c.toNat < 65536 := by
        simp only [isControl, Bool.and_eq_true, Bool.or_eq_true, decide_eq_true_eq, beq_iff_eq]
          at control
        omega
      refine ⟨'u', upperHex4 c.toNat, by decide, by decide, by decide, if_pos control,
        fun rest => ?_⟩
      rw [List.cons_append, escaped?, takeHex?_upperHex4 small rest]
      simp
    · left
      refine ⟨noQuote, noSlash, ?_, if_neg control⟩
      rw [Bool.not_eq_true] at control
      simp [isPlain, control, noLine]

/-- What is written of a character never starts with a quotation mark or a new line. -/
theorem exists_eq_escapeChar (c : Char) :
    ∃ first code, escapeChar c = first :: code ∧ first ≠ '"' ∧ isPlain first = true := by
  rcases escapeChar_cases c with ⟨noQuote, _, plain, same⟩ | ⟨letter, code, _, _, _, same, _⟩
  · exact ⟨c, [], same, noQuote, plain⟩
  · exact ⟨'\\', letter :: code, same, by decide, by decide⟩

theorem readBasic?_escapeChar (c : Char) (rest : Text) : readBasic? (escapeChar c ++ rest)
    = (readBasic? rest).map fun (text, rest) => (c :: text, rest) := by
  rcases escapeChar_cases c with
    ⟨noQuote, noSlash, plain, same⟩ | ⟨letter, code, _, _, _, same, means⟩
  · rw [same, List.singleton_append, readBasic?]
    · rw [if_pos plain]
      cases readBasic? rest <;> rfl
    · simp [noQuote]
    · simp [noSlash]
  · rw [same, List.cons_append, readBasic?]
    split
    · next found =>
      rw [means rest] at found
      cases found
    · next found =>
      rw [means rest] at found
      cases found
      cases readBasic? rest <;> rfl

/-- The inside of a basic string as it is written ends where the closing mark stands. -/
theorem readBasic?_flatMap (text rest : Text) :
    readBasic? (text.flatMap escapeChar ++ '"' :: rest) = some (text, rest) := by
  induction text with
  | nil => rw [List.flatMap_nil, List.nil_append, readBasic?]
  | cons c text ih =>
    rw [List.flatMap_cons, List.append_assoc, readBasic?_escapeChar, ih]
    rfl

theorem readLiteral?_append (plain : ∀ c ∈ text, isPlain c = true ∧ c ≠ '\'') (rest : Text) :
    readLiteral? (text ++ '\'' :: rest) = some (text, rest) := by
  induction text with
  | nil => rw [List.nil_append, readLiteral?]
  | cons c text ih =>
    obtain ⟨isPlain, noMark⟩ := plain c List.mem_cons_self
    rw [List.cons_append, readLiteral?]
    · rw [if_pos isPlain, ih fun other isIn => plain other (List.mem_cons_of_mem _ isIn)]
      rfl
    · simp [noMark]

/-! ## Closing marks -/

theorem takeWhile_replicate {count : Nat} {behind : Text} (stops : behind.head? ≠ some mark) :
    (List.replicate count mark ++ behind).takeWhile (· == mark) = List.replicate count mark := by
  refine Text.takeWhile_run (fun other isIn => ?_) fun other isFirst => ?_
  · rw [List.eq_of_mem_replicate isIn, beq_self_eq_true]
  · rw [beq_eq_false_iff_ne]
    rintro rfl
    exact stops isFirst

/-- Up to two marks in front of three that close a string belong to it. -/
theorem closing?_replicate {count : Nat} (few : count ≤ 2) (stops : rest.head? ≠ some mark) :
    closing? mark (List.replicate count mark ++ mark :: mark :: mark :: rest)
      = some (List.replicate count mark, rest) := by
  have run : List.replicate count mark ++ mark :: mark :: mark :: rest
      = List.replicate (count + 3) mark ++ rest := by
    rw [← List.replicate_append_replicate, List.append_assoc]
    rfl
  have inside : min (count + 3 - 3) 2 = count := by omega
  have behind : (List.replicate (count + 3) mark ++ rest).drop (count + 3) = rest := by
    rw [List.drop_left' List.length_replicate]
  unfold closing?
  rw [run, takeWhile_replicate stops, List.length_replicate, if_neg (by omega), inside]
  dsimp only
  rw [behind]

/-- Up to two marks close nothing if something else follows them. -/
theorem closing?_eq_none {count : Nat} {behind : Text} (few : count ≤ 2) (nonempty : behind ≠ [])
    (stops : behind.head? ≠ some mark) :
    closing? mark (List.replicate count mark ++ behind ++ rest) = none := by
  have stops' : (behind ++ rest).head? ≠ some mark := by
    rwa [List.head?_append_of_ne_nil _ nonempty]
  unfold closing?
  rw [List.append_assoc, takeWhile_replicate stops', List.length_replicate, if_pos (by omega)]

/-! ## Literal strings of several lines -/

theorem longestRun_mono {fewer more : Nat} (le : fewer ≤ more) :
    longestRun mark fewer text ≤ longestRun mark more text := by
  induction text generalizing fewer more with
  | nil => exact le
  | cons c text ih =>
    unfold longestRun
    split
    · exact ih (Nat.succ_le_succ le)
    · omega

theorem longestRun_le_cons (mark c : Char) (text : Text) :
    longestRun mark 0 text ≤ longestRun mark 0 (c :: text) := by
  rw [longestRun]
  split
  · exact longestRun_mono (Nat.zero_le _)
  · exact Nat.le_max_right _ _

/-- The marks in front of a text count on from `current`. -/
theorem exists_run {current bound : Nat} (few : longestRun mark current text ≤ bound) :
    ∃ count behind, current + count ≤ bound ∧ text = List.replicate count mark ++ behind ∧
      behind.head? ≠ some mark := by
  induction text generalizing current with
  | nil => exact ⟨0, [], few, rfl, nofun⟩
  | cons c text ih =>
    unfold longestRun at few
    split at few
    · next same =>
      obtain ⟨count, behind, atMost, rfl, stops⟩ := ih few
      exact ⟨count + 1, behind, by omega, by rw [same]; rfl, stops⟩
    · next other =>
      exact ⟨0, c :: text, by omega, rfl, by simpa using other⟩

theorem readRawLines?_cons (opens : closing? '\'' (c :: rest) = none) (noReturn : c ≠ '\r')
    (visible : isControl c = false) : readRawLines? (c :: rest)
      = (readRawLines? rest).map fun (text, rest) => (c :: text, rest) := by
  rw [readRawLines?, opens]
  dsimp only
  split
  · cases readRawLines? rest <;> rfl
  · next hidden => simp [isPlain, visible] at hidden
  · simp [noReturn]

/-- The inside of a literal string of several lines ends where the closing marks stand. -/
theorem readRawLines?_append (noControl : ∀ c ∈ text, isControl c = false)
    (few : longestRun '\'' 0 text ≤ 2) (stops : rest.head? ≠ some '\'') :
    readRawLines? (text ++ '\'' :: '\'' :: '\'' :: rest) = some (text, rest) := by
  induction text with
  | nil =>
    have closed : closing? '\'' ([] ++ '\'' :: '\'' :: '\'' :: rest) = some ([], rest) :=
      closing?_replicate (Nat.zero_le 2) stops
    rw [readRawLines?.eq_def, closed]
  | cons c text ih =>
    obtain ⟨count, behind, atMost, split, ends⟩ := exists_run few
    by_cases empty : behind = []
    · rw [split, empty, List.append_nil, readRawLines?.eq_def,
        closing?_replicate (by omega) stops]
    · have opens : closing? '\'' (c :: text ++ '\'' :: '\'' :: '\'' :: rest) = none := by
        rw [split]
        exact closing?_eq_none (by omega) empty ends
      have visible := noControl c List.mem_cons_self
      have noReturn : c ≠ '\r' := by
        rintro rfl
        cases visible
      rw [List.cons_append] at opens ⊢
      rw [readRawLines?_cons opens noReturn visible,
        ih (fun other isIn => noControl other (List.mem_cons_of_mem _ isIn))
          ((longestRun_le_cons ..).trans few)]
      rfl

/-! ## Basic strings of several lines -/

/-- The marks in front of what is written of a text are those in front of the text, as long as they
are few enough to be written without an escape. -/
theorem exists_run_escapeLines {quotes : Nat} (few : quotes ≤ 2) (text : Text) :
    ∃ count behind, quotes + count ≤ 2 ∧
      escapeLines quotes text = List.replicate count '"' ++ behind ∧ behind.head? ≠ some '"' ∧
      (behind = [] → text = List.replicate count '"') := by
  induction text generalizing quotes with
  | nil => exact ⟨0, [], few, rfl, nofun, fun _ => rfl⟩
  | cons c text ih =>
    -- Whatever is written of the first character, unless it is a plain mark, begins with another
    -- one.
    have escaped : ∀ code, code ≠ [] → code.head? ≠ some '"' →
        escapeLines quotes (c :: text) = code → ∃ count behind, quotes + count ≤ 2 ∧
          escapeLines quotes (c :: text) = List.replicate count '"' ++ behind ∧
          behind.head? ≠ some '"' ∧ (behind = [] → c :: text = List.replicate count '"') :=
      fun code nonempty ends same => ⟨0, code, few, same, ends, fun empty => absurd empty nonempty⟩
    obtain ⟨first, code, starts, noQuote, _⟩ := exists_eq_escapeChar c
    have noQuote' : (first :: (code ++ escapeLines 0 text)).head? ≠ some '"' := by
      simpa using noQuote
    by_cases isMark : c = '"'
    · by_cases third : quotes = 2
      · refine escaped (first :: (code ++ escapeLines 0 text)) (List.cons_ne_nil _ _) noQuote' ?_
        rw [escapeLines, if_pos isMark, if_pos third, starts, List.cons_append]
      · have fewer : quotes + 1 ≤ 2 := by omega
        obtain ⟨count, behind, atMost, same, ends, whole⟩ := ih fewer
        refine ⟨count + 1, behind, by omega, ?_, ends, fun empty => ?_⟩
        · rw [escapeLines, if_pos isMark, if_neg third, same, isMark]
          rfl
        · rw [whole empty, isMark]
          rfl
    · by_cases isLine : c = '\n'
      · refine escaped (c :: escapeLines 0 text) (List.cons_ne_nil _ _) ?_ ?_
        · simpa using isMark
        · rw [escapeLines, if_neg isMark, if_pos isLine]
      · refine escaped (first :: (code ++ escapeLines 0 text)) (List.cons_ne_nil _ _) noQuote' ?_
        rw [escapeLines, if_neg isMark, if_neg isLine, starts, List.cons_append]

theorem readLines?_self (opens : closing? '"' (c :: rest) = none) (noReturn : c ≠ '\r')
    (noSlash : c ≠ '\\') (visible : isPlain c = true ∨ c = '\n') : readLines? (c :: rest)
      = (readLines? rest).map fun (text, rest) => (c :: text, rest) := by
  rw [readLines?, opens]
  dsimp only
  split
  · cases readLines? rest <;> rfl
  · next hidden => simp at hidden; simp [hidden] at visible
  · simp [noReturn]
  · simp [noSlash]

theorem readLines?_escapeChar (c : Char) (rest : Text) : readLines? (escapeChar c ++ rest)
    = (readLines? rest).map fun (text, rest) => (c :: text, rest) := by
  have opens : closing? '"' (escapeChar c ++ rest) = none := by
    obtain ⟨first, code, starts, noQuote, _⟩ := exists_eq_escapeChar c
    rw [starts]
    exact closing?_eq_none (Nat.zero_le 2) (List.cons_ne_nil _ _) (by simpa using noQuote)
  rcases escapeChar_cases c with ⟨_, noSlash, plain, same⟩ |
    ⟨letter, code, noBlank, noLine, noReturn, same, means⟩
  · rw [same] at opens ⊢
    refine readLines?_self opens ?_ noSlash (.inl plain)
    rintro rfl
    cases plain
  · rw [same] at opens ⊢
    rw [List.cons_append] at opens ⊢
    -- The letter of an escape keeps the backslash from standing at the end of its line.
    have noEnd : newline? (skipBlanks (letter :: code ++ rest)) = none := by
      rw [List.cons_append, skipBlanks, List.dropWhile_cons_of_neg (by simp [noBlank])]
      unfold newline?
      split
      · next same => exact absurd (List.cons.inj same).1 noLine
      · next same => exact absurd (List.cons.inj same).1 noReturn
      · rfl
    rw [readLines?, opens]
    dsimp only
    split
    · next found =>
      rw [noEnd] at found
      cases found
    · split
      · next found =>
        rw [means rest] at found
        cases found
      · next found =>
        rw [means rest] at found
        cases found
        cases readLines? rest <;> rfl

/-- The inside of a basic string of several lines ends where the closing marks stand. -/
theorem readLines?_escapeLines {quotes : Nat} (few : quotes ≤ 2) (text : Text)
    (stops : rest.head? ≠ some '"') :
    readLines? (escapeLines quotes text ++ '"' :: '"' :: '"' :: rest) = some (text, rest) := by
  induction text generalizing quotes with
  | nil =>
    have closed : closing? '"' ([] ++ '"' :: '"' :: '"' :: rest) = some ([], rest) :=
      closing?_replicate (Nat.zero_le 2) stops
    rw [escapeLines, readLines?.eq_def, closed]
  | cons c text ih =>
    obtain ⟨count, behind, atMost, split, ends, whole⟩ := exists_run_escapeLines few (c :: text)
    -- Marks at the very end run on into the closing ones, all others end before them.
    by_cases empty : behind = []
    · rw [split, whole empty, empty, List.append_nil, readLines?.eq_def,
        closing?_replicate (by omega) stops]
    · have opens : closing? '"' (escapeLines quotes (c :: text) ++ '"' :: '"' :: '"' :: rest)
          = none := by
        rw [split]
        exact closing?_eq_none (by omega) empty ends
      have zero : (0 : Nat) ≤ 2 := Nat.zero_le 2
      rw [escapeLines] at opens ⊢
      by_cases isMark : c = '"'
      · rw [if_pos isMark] at opens ⊢
        -- The third mark in a row is escaped, so that no three of them close the string.
        by_cases third : quotes = 2
        · rw [if_pos third, List.append_assoc, readLines?_escapeChar, ih zero]
          rfl
        · have fewer : quotes + 1 ≤ 2 := by omega
          rw [if_neg third, List.cons_append] at opens ⊢
          rw [readLines?_self opens (by simp [isMark]) (by simp [isMark])
            (.inl (by rw [isMark]; decide)), ih fewer]
          rfl
      · rw [if_neg isMark] at opens ⊢
        by_cases isLine : c = '\n'
        · rw [if_pos isLine, List.cons_append] at opens ⊢
          rw [readLines?_self opens (by simp [isLine]) (by simp [isLine]) (.inr isLine), ih zero]
          rfl
        · rw [if_neg isLine, List.append_assoc, readLines?_escapeChar, ih zero]
          rfl

/-! ## Any string -/

theorem exists_eq_quote (text : Text) :
    ∃ mark inside, quote text = mark :: inside ∧ (mark = '"' ∨ mark = '\'') := by
  unfold quote
  cases Quoting.choose text with
  | basic | multilineBasic => exact ⟨'"', _, rfl, .inl rfl⟩
  | literal | multilineLiteral => exact ⟨'\'', _, rfl, .inr rfl⟩

theorem newline?_eq_none (starts : ∀ c ∈ text.head?, isPlain c = true) : newline? text = none := by
  unfold newline?
  split
  · cases starts _ rfl
  · cases starts _ rfl
  · rfl

/-- A string of several lines starts behind its opening mark or, if it may start with a line end, on
the next line. -/
theorem skipLead_lead {inside : Text}
    (starts : '\n' ∉ text → ∀ c ∈ inside.head?, isPlain c = true) :
    skipLead ((if text.contains '\n' then ['\n'] else []) ++ inside) = inside := by
  by_cases lines : '\n' ∈ text
  · rw [if_pos (List.contains_iff_mem.2 lines)]
    rfl
  · rw [if_neg (by simpa using lines), List.nil_append, skipLead, newline?_eq_none (starts lines)]
    rfl

/-- What is written of a text starts with a line end only if the text does. -/
theorem isPlain_of_head?_escapeLines (single : '\n' ∉ text) :
    ∀ c ∈ (escapeLines 0 text ++ '"' :: rest).head?, isPlain c = true := by
  intro first isFirst
  cases text with
  | nil =>
    cases isFirst
    rfl
  | cons c text =>
    have noLine : c ≠ '\n' := fun same => single (same ▸ List.mem_cons_self)
    rw [escapeLines, if_neg noLine] at isFirst
    split at isFirst
    · next isMark =>
      cases isFirst
      rw [isMark]
      rfl
    · obtain ⟨front, code, same, _, plain⟩ := exists_eq_escapeChar c
      rw [same] at isFirst
      cases isFirst
      exact plain

theorem le_longestRun (mark : Char) (current : Nat) (text : Text) :
    current ≤ longestRun mark current text := by
  induction text generalizing current with
  | nil => exact Nat.le_refl _
  | cons c text ih =>
    rw [longestRun]
    split
    · exact (Nat.le_succ _).trans (ih _)
    · exact Nat.le_max_left _ _

theorem not_mem_of_longestRun (noRun : longestRun mark 0 text = 0) : mark ∉ text := by
  induction text with
  | nil => exact List.not_mem_nil
  | cons c text ih =>
    intro isIn
    rcases List.mem_cons.1 isIn with rfl | isIn
    · have counted := le_longestRun mark (0 + 1) text
      rw [longestRun, if_pos rfl] at noRun
      omega
    · have fewer := longestRun_le_cons mark c text
      exact ih (by omega) isIn

variable (noQuote : rest.head? ≠ some '"')

include noQuote

theorem readQuoted?_basic (text : Text) :
    readQuoted? (Quoting.basic.write text ++ rest) = some (text, rest) := by
  have read := readBasic?_flatMap text rest
  have whole :
      Quoting.basic.write text ++ rest = '"' :: (text.flatMap escapeChar ++ '"' :: rest) := by
    simp [Quoting.write, Quoting.delimiter]
  rw [whole, readQuoted?]
  · exact read
  · intro rest' same
    cases text with
    | nil =>
      rw [List.flatMap_nil, List.nil_append] at same
      rw [(List.cons.inj same).2] at noQuote
      exact noQuote rfl
    | cons c text =>
      obtain ⟨first, code, starts, noMark, _⟩ := exists_eq_escapeChar c
      rw [List.flatMap_cons, starts] at same
      exact noMark (List.cons.inj same).1

theorem readQuoted?_multilineBasic (text : Text) :
    readQuoted? (Quoting.multilineBasic.write text ++ rest) = some (text, rest) := by
  have whole : Quoting.multilineBasic.write text ++ rest = '"' :: '"' :: '"' ::
      ((if text.contains '\n' then ['\n'] else [])
        ++ (escapeLines 0 text ++ '"' :: '"' :: '"' :: rest)) := by
    simp [Quoting.write, Quoting.delimiter]
  rw [whole, readQuoted?, skipLead_lead fun single => isPlain_of_head?_escapeLines single]
  exact readLines?_escapeLines (Nat.zero_le 2) text noQuote

omit noQuote

variable (noApostrophe : rest.head? ≠ some '\'') (visible : ∀ c ∈ text, isControl c = false)

include noApostrophe visible

theorem readQuoted?_literal (single : '\n' ∉ text) (noMark : '\'' ∉ text) :
    readQuoted? (Quoting.literal.write text ++ rest) = some (text, rest) := by
  have plain : ∀ c ∈ text, isPlain c = true ∧ c ≠ '\'' := by
    intro c isIn
    have noLine : c ≠ '\n' := fun same => single (same ▸ isIn)
    exact ⟨by simp [isPlain, visible c isIn, noLine], fun same => noMark (same ▸ isIn)⟩
  have whole : Quoting.literal.write text ++ rest = '\'' :: (text ++ '\'' :: rest) := by
    simp [Quoting.write, Quoting.delimiter]
  rw [whole, readQuoted?]
  · exact readLiteral?_append plain rest
  · intro rest' same
    cases text with
    | nil =>
      rw [List.nil_append] at same
      rw [(List.cons.inj same).2] at noApostrophe
      exact noApostrophe rfl
    | cons c text => exact (plain c List.mem_cons_self).2 (List.cons.inj same).1

theorem readQuoted?_multilineLiteral (few : longestRun '\'' 0 text ≤ 2) :
    readQuoted? (Quoting.multilineLiteral.write text ++ rest) = some (text, rest) := by
  have whole : Quoting.multilineLiteral.write text ++ rest = '\'' :: '\'' :: '\'' ::
      ((if text.contains '\n' then ['\n'] else []) ++ (text ++ '\'' :: '\'' :: '\'' :: rest)) := by
    simp [Quoting.write, Quoting.delimiter]
  rw [whole, readQuoted?, skipLead_lead]
  · exact readRawLines?_append visible few noApostrophe
  · intro single c isFirst
    cases text with
    | nil =>
      cases isFirst
      rfl
    | cons d text =>
      cases isFirst
      have noLine : c ≠ '\n' := fun same => single (same ▸ List.mem_cons_self)
      simp [isPlain, visible c List.mem_cons_self, noLine]

omit visible

include noQuote

/-- A string is read back from what is written of it, unless another mark comes right behind it. -/
theorem readQuoted?_quote (text : Text) : readQuoted? (quote text ++ rest) = some (text, rest) := by
  have noControl : (!text.any isControl) = true → ∀ c ∈ text, isControl c = false := by simp
  unfold quote Quoting.choose
  dsimp only
  -- Each style is read back under the conditions that it is chosen for.
  split
  · exact readQuoted?_basic noQuote text
  · split
    · next chosen =>
      simp only [Bool.and_eq_true, beq_iff_eq] at chosen
      obtain ⟨⟨controls, noRun⟩, single⟩ := chosen
      exact readQuoted?_literal noApostrophe (noControl controls) (by simpa using single)
        (not_mem_of_longestRun noRun)
    · split
      · exact readQuoted?_multilineBasic noQuote text
      · split
        · next chosen =>
          rw [Bool.and_eq_true, decide_eq_true_eq] at chosen
          exact readQuoted?_multilineLiteral noApostrophe (noControl chosen.1) chosen.2
        · split
          · exact readQuoted?_multilineBasic noQuote text
          · exact readQuoted?_basic noQuote text

end StaticSite.Toml
