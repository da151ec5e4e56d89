import StaticSite.Instant.Format
import StaticSite.Proofs.Text.Cutting
import StaticSite.Proofs.Text.Numerals

/-!
# Instants that are read back

An instant is read back from the text that writing makes of it, whatever its year, with any decimals
and in a leap second.
-/

namespace StaticSite

theorem daysInMonth_le (year : Int) (month : Nat) : daysInMonth year month ≤ 31 := by
  unfold daysInMonth
  split
  · split <;> omega
  · split <;> omega

theorem Date.of?_parts (date : Date) : Date.of? date.year date.month date.day = some date := by
  rw [of?, dif_pos date.inRange, dif_pos date.monthValid, dif_pos date.dayValid]

theorem DayTime.of?_parts (time : DayTime) :
    DayTime.of? time.hour time.minute time.second time.nano = some time := by
  rw [of?, dif_pos time.hourValid, dif_pos time.minuteValid, dif_pos time.secondValid,
    dif_pos time.nanoValid]

namespace Instant

open Numeral

variable {c : Char} {digits rest : Text} {width n : Nat}

/-! ## Numbers -/

theorem not_isSpace_of_isDigit (digit : isDigit c = true) : Text.isSpace c = false := by
  obtain ⟨above, below⟩ := Char.isDigit_iff_toNat.1 (isDigit_eq_isDigit c ▸ digit)
  have bounds : 48 ≤ c.toNat ∧ c.toNat ≤ 57 := ⟨above, below⟩
  simp only [Text.isSpace, Bool.or_eq_false_iff, Bool.and_eq_false_imp, decide_eq_true_eq,
    decide_eq_false_iff_not, beq_eq_false_iff_ne]
  omega

theorem skipSpaces_cons (noSpace : Text.isSpace c = false) :
    Text.skipSpaces (c :: rest) = c :: rest := by
  rw [Text.skipSpaces, List.dropWhile_cons, noSpace]
  rfl

/-- A run of digits is taken whole if it ends at the width or before something that is no digit. -/
theorem takeNumber?_digits (nonempty : digits ≠ []) (run : ∀ c ∈ digits, isDigit c = true)
    (fits : digits.length ≤ width)
    (stops : ∀ c ∈ (rest.take (width - digits.length)).head?, isDigit c = false) :
    takeNumber? width (digits ++ rest) = some (value 10 digits, rest) := by
  have taken : ((digits ++ rest).take width).takeWhile isDigit = digits := by
    rw [List.take_append, List.take_of_length_le fits]
    exact Text.takeWhile_run run stops
  rw [takeNumber?, taken, if_neg nonempty, List.drop_left]

theorem padded_starts (width n : Nat) :
    ∃ c more, padded width n = c :: more ∧ isDigit c = true := by
  obtain ⟨c, more, starts⟩ := List.exists_cons_of_ne_nil (padded_ne_nil width n)
  have isIn : c ∈ padded width n := by simp [starts]
  exact ⟨c, more, starts, isDigit_of_mem_padded isIn⟩

theorem skipSpaces_padded (width n : Nat) (rest : Text) :
    Text.skipSpaces (padded width n ++ rest) = padded width n ++ rest := by
  obtain ⟨c, more, starts, isFirst⟩ := padded_starts width n
  rw [starts, List.cons_append, skipSpaces_cons (not_isSpace_of_isDigit isFirst)]

theorem readPart?_padded (small : n < 100) (rest : Text) :
    readPart? (padded 2 n ++ rest) = some (n, rest) := by
  have two : (padded 2 n).length = 2 := length_padded (by decide) small
  rw [readPart?, skipSpaces_padded, takeNumber?_digits (padded_ne_nil 2 n)
    (fun _ => isDigit_of_mem_padded) two.le (by simp [two]), value_padded]

theorem skipMark?_self (noSpace : Text.isSpace c = false) (rest : Text) :
    skipMark? c (c :: rest) = some rest := by
  simp [skipMark?, skipSpaces_cons noSpace]

/-! ## Years and decimals -/

/-- A sign takes all digits up to the next mark. -/
theorem takeNumber?_year (year : Nat) (rest : Text) :
    takeNumber? (padded 4 year ++ '-' :: rest).length (padded 4 year ++ '-' :: rest)
      = some (year, '-' :: rest) := by
  rw [takeNumber?_digits (padded_ne_nil 4 year) (fun _ => isDigit_of_mem_padded)
    (by simp), value_padded]
  simp only [List.length_append, Nat.add_sub_cancel_left]
  intro c isFirst
  cases isFirst
  rfl

/-- Without a sign four digits are taken. -/
theorem readYear?_padded {year : Nat} (small : year < 10000) (rest : Text) :
    readYear? (padded 4 year ++ rest) = some ((year : Int), rest) := by
  have four : (padded 4 year).length = 4 := length_padded (by decide) small
  have taken : takeNumber? 4 (padded 4 year ++ rest) = some (year, rest) := by
    rw [takeNumber?_digits (padded_ne_nil 4 year) (fun _ => isDigit_of_mem_padded) four.le
      (by simp [four]), value_padded]
  obtain ⟨c, more, starts, isFirst⟩ := padded_starts 4 year
  rw [readYear?, skipSpaces_padded]
  rw [starts, List.cons_append] at taken ⊢
  split
  · next same =>
    cases same
    cases isFirst
  · next same =>
    cases same
    cases isFirst
  · rw [taken]
    rfl

theorem readYear?_writeYear (year : Int) (rest : Text) :
    readYear? (writeYear year ++ '-' :: rest) = some (year, '-' :: rest) := by
  unfold writeYear
  by_cases plain : 0 ≤ year ∧ year ≤ 9999
  · have whole : ((year.toNat : Nat) : Int) = year := Int.toNat_of_nonneg plain.1
    rw [if_pos plain, readYear?_padded (by omega), whole]
  · rw [if_neg plain, List.cons_append]
    by_cases negative : year < 0
    · have whole : -((year.natAbs : Nat) : Int) = year := by omega
      rw [if_pos negative, readYear?, skipSpaces_cons (by decide)]
      simp only [takeNumber?_year, Option.map_some, whole]
    · have whole : ((year.natAbs : Nat) : Int) = year := by omega
      rw [if_neg negative, readYear?, skipSpaces_cons (by decide)]
      simp only [takeNumber?_year, Option.map_some, whole]

/-- Three, six or nine decimals are read as nanoseconds. -/
theorem readNano?_padded (positive : 0 < width) (fits : width ≤ 9) (small : n < 10 ^ width)
    (stops : ∀ c ∈ rest.head?, isDigit c = false) :
    readNano? ('.' :: (padded width n ++ rest)) = some (n * 10 ^ (9 - width), rest) := by
  have long : (padded width n).length = width := length_padded positive small
  have run : ∀ c ∈ padded width n, isDigit c = true := fun _ => isDigit_of_mem_padded
  have taken : ((padded width n ++ rest).take 9).takeWhile isDigit = padded width n := by
    rw [List.take_append, List.take_of_length_le (by omega)]
    refine Text.takeWhile_run run fun c isFirst => stops c ?_
    cases rest with
    | nil => simp at isFirst
    | cons first more =>
      cases left : 9 - (padded width n).length with
      | zero => simp [left] at isFirst
      | succ left' => simpa [left] using isFirst
  simp only [readNano?, taken]
  rw [if_neg (padded_ne_nil width n), Text.dropWhile_run run stops, value_padded, long]
  rfl

theorem readNano?_writeNano {nano : Nat} (valid : nano < 1000000000)
    (stops : ∀ c ∈ rest.head?, isDigit c = false ∧ c ≠ '.') :
    readNano? (writeNano nano ++ rest) = some (nano, rest) := by
  have stops' : ∀ c ∈ rest.head?, isDigit c = false := fun c isFirst => (stops c isFirst).1
  unfold writeNano
  by_cases whole : nano = 0
  · rw [if_pos whole, List.nil_append, readNano?, whole]
    rintro more rfl
    exact (stops '.' rfl).2 rfl
  rw [if_neg whole]
  by_cases milli : nano % 1000000 = 0
  · rw [if_pos milli, List.cons_append, readNano?_padded (by decide) (by decide) (by omega) stops']
    have same : nano / 1000000 * 10 ^ (9 - 3) = nano := by omega
    rw [same]
  rw [if_neg milli]
  by_cases micro : nano % 1000 = 0
  · rw [if_pos micro, List.cons_append, readNano?_padded (by decide) (by decide) (by omega) stops']
    have same : nano / 1000 * 10 ^ (9 - 6) = nano := by omega
    rw [same]
  · rw [if_neg micro, List.cons_append, readNano?_padded (by decide) (by decide) (by omega) stops']
    have same : nano * 10 ^ (9 - 9) = nano := by omega
    rw [same]

/-! ## Whole instants -/

theorem ofLocal?_zero (date : Date) (time : DayTime) :
    ofLocal? date time 0 = some ⟨date, time⟩ := by
  have hourValid := time.hourValid
  have minuteValid := time.minuteValid
  have sameDay : ¬ ((time.hour : Int) * 60 + time.minute - 0 < 0) ∧
      (time.hour : Int) * 60 + time.minute - 0 < 1440 := by omega
  have minuteOfDay : (((time.hour : Int) * 60 + time.minute - 0) % 1440).toNat
      = time.hour * 60 + time.minute := by omega
  have hour : (time.hour * 60 + time.minute) / 60 = time.hour := by omega
  have minute : (time.hour * 60 + time.minute) % 60 = time.minute := by omega
  simp only [ofLocal?, sameDay.1, sameDay.2, if_true, if_false, minuteOfDay, hour, minute,
    DayTime.of?_parts, Option.bind_eq_bind, Option.bind_some]

@[simp] theorem read?_write (instant : Instant) : read? instant.write = some instant := by
  obtain ⟨date, time⟩ := instant
  have month : date.month < 100 := date.monthValid.2.trans_lt (by decide)
  have day : date.day < 100 :=
    (date.dayValid.2.trans (daysInMonth_le _ _)).trans_lt (by decide)
  have hour : time.hour < 100 := time.hourValid.trans (by decide)
  have minute : time.minute < 100 := time.minuteValid.trans (by decide)
  have second : time.second < 100 := time.secondValid.trans_lt (by decide)
  have nano : readNano? (writeNano time.nano ++ ['Z']) = some (time.nano, ['Z']) :=
    readNano?_writeNano time.nanoValid (by simp; decide)
  have offset : readOffset? ['Z'] = some (0, []) := rfl
  have dash (rest : Text) : skipMark? '-' ('-' :: rest) = some rest := skipMark?_self rfl rest
  have colon (rest : Text) : skipMark? ':' (':' :: rest) = some rest := skipMark?_self rfl rest
  simp only [write, writeFields, List.append_assoc, List.cons_append]
  rw [read?]
  -- The fields in their order, each one with all that is left behind it.
  refine Option.bind_eq_some_iff.2 ⟨_, readYear?_writeYear _ _, ?_⟩
  refine Option.bind_eq_some_iff.2 ⟨_, dash _, ?_⟩
  refine Option.bind_eq_some_iff.2 ⟨_, readPart?_padded month _, ?_⟩
  refine Option.bind_eq_some_iff.2 ⟨_, dash _, ?_⟩
  refine Option.bind_eq_some_iff.2 ⟨_, readPart?_padded day _, ?_⟩
  refine Option.bind_eq_some_iff.2 ⟨_, rfl, ?_⟩
  refine Option.bind_eq_some_iff.2 ⟨_, readPart?_padded hour _, ?_⟩
  refine Option.bind_eq_some_iff.2 ⟨_, colon _, ?_⟩
  refine Option.bind_eq_some_iff.2 ⟨_, readPart?_padded minute _, ?_⟩
  refine Option.bind_eq_some_iff.2 ⟨_, colon _, ?_⟩
  refine Option.bind_eq_some_iff.2 ⟨_, readPart?_padded second _, ?_⟩
  refine Option.bind_eq_some_iff.2 ⟨_, nano, ?_⟩
  refine Option.bind_eq_some_iff.2 ⟨_, offset, ?_⟩
  refine Option.bind_eq_some_iff.2 ⟨_, Date.of?_parts _, ?_⟩
  refine Option.bind_eq_some_iff.2 ⟨_, DayTime.of?_parts _, ?_⟩
  exact ofLocal?_zero date time

end Instant

end StaticSite
