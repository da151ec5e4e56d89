import StaticSite.Proofs.Toml.Quoting
import StaticSite.Toml.Document

/-!
# Values that are read back

A string, a number in decimal notation or a truth value that ends its line is read back from what is
written of it.  The readers of the other kinds of values, which are asked first, all decline.
-/

namespace StaticSite.Toml

open Numeral

variable {text rest digits : Text} {n : Nat} {mark : Char}

theorem expect?_eq_none (other : ∀ c ∈ text.head?, c ≠ mark) : expect? mark text = none := by
  cases text with
  | nil => rfl
  | cons c text => exact if_neg (other c rfl)

/-! ## Decimal numbers -/

/-- Only the number zero starts with a zero. -/
theorem head?_toDigits (positive : 0 < n) : (Nat.toDigits 10 n).head? ≠ some '0' := by
  induction n using Nat.strong_induction_on with
  | _ n ih =>
    rw [Nat.toDigits_eq_if (by decide)]
    split
    · next single =>
      have all : ∀ n < 10, 0 < n → [Nat.digitChar n].head? ≠ some '0' := by decide
      exact all n single positive
    · next several =>
      rw [List.head?_append_of_ne_nil _ Nat.toDigits_ne_nil]
      exact ih _ (Nat.div_lt_self positive (by decide)) (by omega)

theorem moreDigits_append (all : ∀ c ∈ digits, isDigit c = true) (rest : Text) :
    moreDigits isDigit (digits ++ '\n' :: rest) = (digits, '\n' :: rest) := by
  induction digits with
  | nil => rfl
  | cons c digits ih =>
    have digit := all c List.mem_cons_self
    rw [List.cons_append, moreDigits]
    · rw [if_pos digit, ih fun other isIn => all other (List.mem_cons_of_mem _ isIn)]
    · rintro next more rfl
      cases digit

theorem takeDecimal?_ofNat (n : Nat) (rest : Text) :
    takeDecimal? (Text.ofNat n ++ '\n' :: rest) = some (Text.ofNat n, '\n' :: rest) := by
  rcases Nat.eq_zero_or_pos n with rfl | positive
  · rfl
  · have all : ∀ c ∈ Text.ofNat n, isDigit c = true := fun _ => isDigit_of_mem_ofNat
    have nonzero : (Text.ofNat n).head? ≠ some '0' := head?_toDigits positive
    obtain ⟨c, digits, same⟩ := List.exists_cons_of_ne_nil (ofNat_ne_nil n)
    rw [same] at all nonzero ⊢
    rw [List.cons_append, takeDecimal?, takeDigits?, if_pos (all c List.mem_cons_self),
      moreDigits_append fun other isIn => all other (List.mem_cons_of_mem _ isIn)]
    intro _ begins
    exact nonzero (congrArg some (List.cons.inj begins).1)

/-- Digits at the end of a line are followed by none of the marks between other numbers. -/
theorem expect?_digits (all : ∀ c ∈ digits, isDigit c = true) (noDigit : isDigit mark = false)
    (noLine : mark ≠ '\n') : expect? mark (digits ++ '\n' :: rest) = none := by
  refine expect?_eq_none fun c isFirst same => ?_
  subst same
  cases digits with
  | nil =>
    cases isFirst
    exact noLine rfl
  | cons d digits =>
    cases isFirst
    rw [all _ List.mem_cons_self] at noDigit
    cases noDigit

theorem skipDate?_digits (all : ∀ c ∈ digits, isDigit c = true) :
    skipDate? (digits ++ '\n' :: rest) = none := by
  have noDigit : isDigit '\n' = false := rfl
  match digits with
  | [] | [a] | [a, b] | [a, b, c] => simp [skipDate?, noDigit]
  | a :: b :: c :: d :: more =>
    have noDash : expect? '-' (more ++ '\n' :: rest) = none :=
      expect?_digits (fun other isIn => all other (by simp [isIn])) rfl (by decide)
    simp [skipDate?, noDash]

theorem takePair?_snd {low high number : Nat} {tens ones : Char} {behind : Text}
    (taken : takePair? low high (tens :: ones :: rest) = some (number, behind)) :
    behind = rest := by
  simp only [takePair?, Option.ite_none_right_eq_some, Option.some.injEq, Prod.mk.injEq] at taken
  exact taken.2.2.2.symm

theorem skipTime?_digits (all : ∀ c ∈ digits, isDigit c = true) :
    skipTime? (digits ++ '\n' :: rest) = none := by
  have noDigit : isDigit '\n' = false := rfl
  match digits with
  | [] => cases rest <;> simp [skipTime?, takePair?, noDigit]
  | [a] => simp [skipTime?, takePair?, noDigit]
  | a :: b :: more =>
    have noColon : expect? ':' (more ++ '\n' :: rest) = none :=
      expect?_digits (fun other isIn => all other (by simp [isIn])) rfl (by decide)
    rw [List.cons_append, List.cons_append, skipTime?]
    cases taken : takePair? 0 23 (a :: b :: (more ++ '\n' :: rest)) with
    | none => rfl
    | some pair =>
      obtain ⟨number, behind⟩ := pair
      obtain rfl := takePair?_snd taken
      rw [Option.bind_eq_bind, Option.bind_some]
      dsimp only
      rw [noColon]
      rfl

theorem readDatetime?_digits (all : ∀ c ∈ digits, isDigit c = true) :
    readDatetime? (digits ++ '\n' :: rest) = none := by
  rw [readDatetime?, skipDate?_digits all, skipTime?_digits all]
  rfl

/-- What starts with a digit has no sign and is no string and no word. -/
theorem takeSign_digit {c : Char} (digit : isDigit c = true) :
    takeSign (c :: rest) = (false, c :: rest) := by
  unfold takeSign
  split
  · next same =>
    cases same
    cases digit
  · next same =>
    cases same
    cases digit
  · rfl

theorem isPrefixOf?_digit {c first : Char} {word : Text} (digit : isDigit c = true)
    (letter : isDigit first = false) : (first :: word).isPrefixOf? (c :: rest) = none := by
  have other : (first == c) = false := by
    rw [beq_eq_false_iff_ne]
    rintro rfl
    rw [digit] at letter
    cases letter
  simp [List.isPrefixOf?, other]

theorem readQuoted?_eq_none (noQuote : text.head? ≠ some '"')
    (noApostrophe : text.head? ≠ some '\'') :
    readQuoted? text = none := by
  unfold readQuoted?
  split <;> simp_all

section

variable {c : Char} (all : ∀ other ∈ c :: digits, isDigit other = true)
  (taken : takeDecimal? (c :: (digits ++ '\n' :: rest)) = some (c :: digits, '\n' :: rest))

include all taken

theorem readFloat?_digits : readFloat? (c :: (digits ++ '\n' :: rest)) = none := by
  have digit := all c List.mem_cons_self
  have noInf : "inf".toList.isPrefixOf? (c :: (digits ++ '\n' :: rest)) = none :=
    isPrefixOf?_digit digit rfl
  have noNan : "nan".toList.isPrefixOf? (c :: (digits ++ '\n' :: rest)) = none :=
    isPrefixOf?_digit digit rfl
  simp only [readFloat?, takeSign_digit digit, noInf, noNan, taken]
  rfl

theorem readInteger?_digits (small : value 10 (c :: digits) < 2 ^ 63) :
    readInteger? (c :: (digits ++ '\n' :: rest))
      = some (.integer (value 10 (c :: digits)), '\n' :: rest) := by
  have digit := all c List.mem_cons_self
  have others : ∀ other ∈ digits, isDigit other = true :=
    fun other isIn => all other (List.mem_cons_of_mem _ isIn)
  have letters : ∀ mark more, digits ++ '\n' :: rest = mark :: more → mark ≠ '\n' →
      isDigit mark = true := by
    intro mark more same noLine
    by_contra noDigit
    have declined : expect? mark (digits ++ '\n' :: rest) = none :=
      expect?_digits others (Bool.eq_false_iff.2 noDigit) noLine
    rw [same, expect?, if_pos rfl] at declined
    cases declined
  have bounds : -9223372036854775808 ≤ ((value 10 (c :: digits) : Nat) : Int) ∧
      ((value 10 (c :: digits) : Nat) : Int) ≤ 9223372036854775807 := by omega
  unfold readInteger?
  split
  · next same => cases letters _ _ (List.cons.inj same).2 (by decide)
  · next same => cases letters _ _ (List.cons.inj same).2 (by decide)
  · next same => cases letters _ _ (List.cons.inj same).2 (by decide)
  · simp only [takeSign_digit digit, taken, Option.bind_eq_bind, Option.bind_some, integer?,
      Bool.false_eq_true, if_false]
    rw [if_pos bounds]
    rfl

end

/-- A number in decimal notation is read back. -/
theorem readScalar?_ofNat (small : n < 2 ^ 63) (rest : Text) :
    readScalar? (Text.ofNat n ++ '\n' :: rest) = some (.integer n, '\n' :: rest) := by
  have all : ∀ c ∈ Text.ofNat n, isDigit c = true := fun _ => isDigit_of_mem_ofNat
  have noDatetime : readDatetime? (Text.ofNat n ++ '\n' :: rest) = none := readDatetime?_digits all
  have taken := takeDecimal?_ofNat n rest
  have same := value_ofNat n
  obtain ⟨c, digits, written⟩ := List.exists_cons_of_ne_nil (ofNat_ne_nil n)
  rw [written] at all noDatetime taken same ⊢
  rw [← same] at small ⊢
  rw [List.cons_append] at noDatetime taken ⊢
  have digit := all c List.mem_cons_self
  have noString : readQuoted? (c :: (digits ++ '\n' :: rest)) = none := by
    refine readQuoted?_eq_none ?_ ?_ <;>
      · rintro ⟨⟩
        cases digit
  have noTrue : skipWord? "true" (c :: (digits ++ '\n' :: rest)) = none :=
    isPrefixOf?_digit digit rfl
  have noFalse : skipWord? "false" (c :: (digits ++ '\n' :: rest)) = none :=
    isPrefixOf?_digit digit rfl
  rw [readScalar?, noString, noTrue, noFalse, noDatetime, readFloat?_digits all taken,
    readInteger?_digits all taken small]
  rfl

/-! ## Any value -/

/-- What is no array and no table is read as a scalar, however deep values may nest. -/
theorem readValue?_of_readScalar {depth : Nat} {value : Value} (noArray : text.head? ≠ some '[')
    (noTable : text.head? ≠ some '\x7b') (read : readScalar? text = some (value, rest)) :
    readValue? depth text = some (value, rest) := by
  cases depth with
  | zero => exact read
  | succ depth =>
    unfold readValue?
    split
    · exact absurd rfl noArray
    · exact absurd rfl noTable
    · exact read

/-- The text is what is written of the value at the end of a line. -/
structure Writes (written : Text) (value : Value) : Prop where
  starts : ∀ c ∈ written.head?, isLineBlank c = false
  read : ∀ rest, readValue? (maxNesting - 1) (written ++ '\n' :: rest) = some (value, '\n' :: rest)

theorem writes_quote (text : Text) : Writes (quote text) (.string text) := by
  obtain ⟨mark, inside, same, isMark⟩ := exists_eq_quote text
  constructor
  · rw [same]
    rintro _ ⟨⟩
    rcases isMark with rfl | rfl <;> rfl
  · intro rest
    have read : readScalar? (quote text ++ '\n' :: rest) = some (.string text, '\n' :: rest) := by
      rw [readScalar?, readQuoted?_quote (by simp) (by simp)]
    rw [same] at read ⊢
    refine readValue?_of_readScalar ?_ ?_ read <;>
      · rintro ⟨⟩
        simp at isMark

theorem writes_ofNat (small : n < 2 ^ 63) : Writes (Text.ofNat n) (.integer n) := by
  have all : ∀ c ∈ Text.ofNat n, isDigit c = true := fun _ => isDigit_of_mem_ofNat
  have read := readScalar?_ofNat small
  obtain ⟨c, digits, same⟩ := List.exists_cons_of_ne_nil (ofNat_ne_nil n)
  rw [same] at all read ⊢
  have digit := all c List.mem_cons_self
  constructor
  · rintro _ ⟨⟩
    rw [isLineBlank, Bool.or_eq_false_iff, beq_eq_false_iff_ne, beq_eq_false_iff_ne]
    constructor <;>
      · rintro rfl
        cases digit
  · intro rest
    refine readValue?_of_readScalar ?_ ?_ (read rest) <;>
      · rintro ⟨⟩
        cases digit

end StaticSite.Toml
