import Mathlib.Data.List.Basic
import Mathlib.Data.Nat.Digits.Defs
import StaticSite.Text.Numeral

/-!
# Numerals that are read back

A number is read back from its digits, in decimal and in hexadecimal notation and with any zeros in
front of them.
-/

namespace StaticSite.Numeral

variable {base n width : Nat} {c : Char} {digits : Text}

theorem isDigit_eq_isDigit (c : Char) : isDigit c = c.isDigit := rfl

/-! ## Digits -/

theorem digitValue_digitChar (small : n < 16) : digitValue (Nat.digitChar n) = n := by
  have all : ∀ n < 16, digitValue (Nat.digitChar n) = n := by decide
  exact all n small

theorem isHexDigit_digitChar (small : n < 16) : isHexDigit (Nat.digitChar n) = true := by
  have all : ∀ n < 16, isHexDigit (Nat.digitChar n) = true := by decide
  exact all n small

/-! ## Values -/

theorem value_concat (base : Nat) (digits : Text) (c : Char) :
    value base (digits ++ [c]) = value base digits * base + digitValue c := by
  rw [value, List.foldl_append]
  rfl

theorem value_toDigits (two : 1 < base) (small : base ≤ 16) (n : Nat) :
    value base (Nat.toDigits base n) = n := by
  induction n using Nat.strong_induction_on with
  | _ n ih =>
    rw [Nat.toDigits_eq_if two]
    by_cases single : n < base
    · rw [if_pos single]
      have last := value_concat base [] (Nat.digitChar n)
      rw [digitValue_digitChar (by omega)] at last
      simpa [value] using last
    · have isDigit : n % base < 16 := (Nat.mod_lt n (by omega)).trans_le small
      rw [if_neg single, value_concat, ih _ (Nat.div_lt_self (by omega) two),
        digitValue_digitChar isDigit, Nat.div_add_mod']

@[simp] theorem value_ofNat (n : Nat) : value 10 (Text.ofNat n) = n :=
  value_toDigits (by decide) (by decide) n

theorem value_zeros (base count : Nat) (digits : Text) :
    value base (List.replicate count '0' ++ digits) = value base digits := by
  induction count with
  | zero => rfl
  | succ count ih =>
    rw [← ih, List.replicate_succ, List.cons_append, value, List.foldl_cons, Nat.zero_mul]
    rfl

theorem value_leftpad (base width : Nat) (digits : Text) :
    value base (digits.leftpad width '0') = value base digits :=
  value_zeros base _ digits

/-! ## Decimal notation -/

theorem ofNat_ne_nil (n : Nat) : Text.ofNat n ≠ [] :=
  Nat.toDigits_ne_nil

theorem isDigit_of_mem_ofNat (isIn : c ∈ Text.ofNat n) : isDigit c = true :=
  Nat.isDigit_of_mem_toDigits (by decide) (by decide) isIn

@[simp] theorem value_padded (width n : Nat) : value 10 (padded width n) = n := by
  rw [padded, value_leftpad, value_ofNat]

theorem padded_ne_nil (width n : Nat) : padded width n ≠ [] :=
  List.append_ne_nil_of_right_ne_nil _ (ofNat_ne_nil n)

theorem isDigit_of_mem_padded (isIn : c ∈ padded width n) : isDigit c = true := by
  rcases List.mem_append.1 isIn with isZero | isIn
  · rw [List.eq_of_mem_replicate isZero]
    rfl
  · exact isDigit_of_mem_ofNat isIn

/-- A number that fits the width takes all of it and no more. -/
theorem length_padded (positive : 0 < width) (small : n < 10 ^ width) :
    (padded width n).length = width := by
  rw [padded, List.length_leftpad]
  exact max_eq_left ((Nat.length_toDigits_le_iff (by decide) positive).2 small)

/-! ## Hexadecimal notation -/

@[simp] theorem value_hex4 (n : Nat) : value 16 (hex4 n) = n := by
  rw [hex4, value_leftpad, value_toDigits (by decide) (by decide)]

theorem length_hex4 (small : n < 65536) : (hex4 n).length = 4 := by
  rw [hex4, List.length_leftpad]
  exact max_eq_left ((Nat.length_toDigits_le_iff (k := 4) (by decide) (by decide)).2 small)

theorem exists_digitChar_of_mem_toDigits (isIn : c ∈ Nat.toDigits 16 n) :
    ∃ digit < 16, c = Nat.digitChar digit := by
  induction n using Nat.strong_induction_on with
  | _ n ih =>
    rw [Nat.toDigits_eq_if (by decide)] at isIn
    split at isIn
    · next single => exact ⟨n, single, List.mem_singleton.1 isIn⟩
    · next several =>
      rcases List.mem_append.1 isIn with isEarlier | isLast
      · exact ih _ (Nat.div_lt_self (by omega) (by decide)) isEarlier
      · exact ⟨n % 16, Nat.mod_lt n (by decide), List.mem_singleton.1 isLast⟩

theorem exists_digitChar_of_mem_hex4 (isIn : c ∈ hex4 n) :
    ∃ digit < 16, c = Nat.digitChar digit := by
  rcases List.mem_append.1 isIn with isZero | isIn
  · exact ⟨0, by decide, List.eq_of_mem_replicate isZero⟩
  · exact exists_digitChar_of_mem_toDigits isIn

theorem isHexDigit_of_mem_hex4 (isIn : c ∈ hex4 n) : isHexDigit c = true := by
  obtain ⟨digit, small, rfl⟩ := exists_digitChar_of_mem_hex4 isIn
  exact isHexDigit_digitChar small

/-- Case makes no difference to the number. -/
theorem value_upperHex4 (n : Nat) : value 16 (upperHex4 n) = n := by
  have upper : ∀ digit < 16, digitValue (Nat.digitChar digit).toUpper = digit := by decide
  refine Eq.trans ?_ (value_hex4 n)
  rw [upperHex4, value, value, List.foldl_map]
  refine List.foldl_ext _ _ _ fun number c isIn => ?_
  obtain ⟨digit, small, rfl⟩ := exists_digitChar_of_mem_hex4 isIn
  rw [upper digit small, digitValue_digitChar small]

theorem isHexDigit_of_mem_upperHex4 (isIn : c ∈ upperHex4 n) : isHexDigit c = true := by
  have upper : ∀ digit < 16, isHexDigit (Nat.digitChar digit).toUpper = true := by decide
  obtain ⟨lower, isLower, rfl⟩ := List.mem_map.1 isIn
  obtain ⟨digit, small, rfl⟩ := exists_digitChar_of_mem_hex4 isLower
  exact upper digit small

/-- Four hexadecimal digits are taken off whatever is behind them. -/
theorem takeHex?_upperHex4 (small : n < 65536) (rest : Text) :
    takeHex? 4 (upperHex4 n ++ rest) = some (n, rest) := by
  have four : (upperHex4 n).length = 4 := by rw [upperHex4, List.length_map, length_hex4 small]
  have hex : (upperHex4 n).all isHexDigit = true :=
    List.all_eq_true.2 fun _ => isHexDigit_of_mem_upperHex4
  rw [takeHex?, List.take_left' four, List.drop_left' four, if_pos ⟨four, hex⟩, value_upperHex4]

/-! ## Characters -/

@[simp] theorem char?_toNat (c : Char) : char? c.toNat = some c := by
  rw [char?, if_pos (show c.toNat.isValidChar from c.valid), Char.ofNat_toNat]

end StaticSite.Numeral
