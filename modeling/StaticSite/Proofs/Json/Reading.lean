import Mathlib.Data.List.DropRight
import StaticSite.Json.Reader
import StaticSite.Json.Writer
import StaticSite.Proofs.Json.Literals
import StaticSite.Proofs.Text.Cutting

/-!
# Values that are read back

Every value whose literals are such is read back from the text that writing makes of it, whatever
the level of its lines.
-/

namespace StaticSite.Json

open Numeral

variable {level fuel depth number : Nat} {text rest tail literal : Text} {c : Char}
  {value first : Value} {items : List Value} {member : Text × Value}
  {members : List (Text × Value)} {item : Text → Option (Value × Text)}

/-! ## Literals -/

/-- The text does not begin with a character that would belong to a number in front of it. -/
def EndsNumber (text : Text) : Prop :=
  ∀ c ∈ text.head?, isDigit c = false ∧ c ≠ '.' ∧ c ≠ 'e' ∧ c ≠ 'E'

/-- The text is a whole number literal. -/
structure IsNumber (literal : Text) : Prop where
  starts : ∃ c more, literal = c :: more ∧ (isDigit c = true ∨ c = '-')
  taken : ∀ rest, EndsNumber rest → takeNumber? (literal ++ rest) = some (literal, rest)

/-- The text is the inside of a string literal. -/
def IsString (literal : Text) : Prop :=
  ∀ rest, takeLiteral? (literal ++ '"' :: rest) = some (literal, rest)

theorem isString_escape (text : Text) : IsString (escape text) :=
  takeLiteral?_escape text

/-- Only zero starts with a zero. -/
theorem eq_zero_of_ofNat (starts : Text.ofNat number = '0' :: rest) : rest = [] := by
  have positive : ∀ n, 0 < n → (Text.ofNat n).head? ≠ some '0' := by
    intro n
    induction n using Nat.strong_induction_on with
    | _ n ih =>
      intro positive
      rw [Text.ofNat, Nat.toDigits_eq_if (by decide)]
      by_cases single : n < 10
      · have digits : ∀ n < 10, 0 < n → [Nat.digitChar n].head? ≠ some '0' := by decide
        rw [if_pos single]
        exact digits n single positive
      · rw [if_neg single, List.head?_append_of_ne_nil _ Nat.toDigits_ne_nil]
        exact ih (n / 10) (by omega) (by omega)
  by_cases zero : number = 0
  · rw [zero] at starts
    exact (List.cons.inj starts).2.symm
  · have head := positive number (by omega)
    rw [starts] at head
    exact absurd rfl head

theorem takeWhole?_ofNat (number : Nat) (ends : EndsNumber rest) :
    takeWhole? (Text.ofNat number ++ rest) = some (Text.ofNat number, rest) := by
  have run : ∀ c ∈ Text.ofNat number, isDigit c = true := fun _ => isDigit_of_mem_ofNat
  have stops : ∀ c ∈ rest.head?, isDigit c = false := fun c isFirst => (ends c isFirst).1
  obtain ⟨c, more, starts⟩ := List.exists_cons_of_ne_nil (ofNat_ne_nil number)
  by_cases zero : c = '0'
  · subst zero
    rw [starts, eq_zero_of_ofNat starts]
    rfl
  · have digits : takeWhole? (Text.ofNat number ++ rest)
        = takeDigits? (Text.ofNat number ++ rest) := by
      rw [starts, List.cons_append, takeWhole?]
      simp [zero]
    rw [digits, takeDigits?, Text.takeWhile_run run stops, Text.dropWhile_run run stops,
      if_neg (ofNat_ne_nil number)]

theorem takeFraction?_of_ends (ends : EndsNumber rest) : takeFraction? rest = some ([], rest) := by
  rw [takeFraction?]
  rintro more rfl
  exact (ends '.' rfl).2.1 rfl

theorem takeExponent?_of_ends (ends : EndsNumber rest) : takeExponent? rest = some ([], rest) := by
  cases rest with
  | nil => rfl
  | cons c more =>
    obtain ⟨_, _, noSmall, noLarge⟩ := ends c rfl
    unfold takeExponent?
    dsimp only
    rw [if_neg (by simp [noSmall, noLarge])]

theorem isNumber_ofNat (number : Nat) : IsNumber (Text.ofNat number) := by
  obtain ⟨c, more, starts⟩ := List.exists_cons_of_ne_nil (ofNat_ne_nil number)
  have isFirst : isDigit c = true := isDigit_of_mem_ofNat (n := number) (by simp [starts])
  have noSign : c ≠ '-' := by
    rintro rfl
    cases isFirst
  refine ⟨⟨c, more, starts, .inl isFirst⟩, fun rest ends => ?_⟩
  have whole := takeWhole?_ofNat number ends
  rw [starts, List.cons_append] at whole ⊢
  unfold takeNumber?
  split
  next sign unsigned same =>
    split at same
    · next minus => exact absurd (List.cons.inj minus).1 noSign
    · cases same
      simp [whole, takeFraction?_of_ends ends, takeExponent?_of_ends ends]

/-! ## Values -/

/-- All literals in the value are literals of their kind. -/
inductive WellFormed : Value → Prop where
  | null : WellFormed .null
  | boolean (value : Bool) : WellFormed (.boolean value)
  | number {literal : Text} (isNumber : IsNumber literal) : WellFormed (.number literal)
  | string {literal : Text} (isString : IsString literal) : WellFormed (.string literal)
  | array {items : List Value} (each : ∀ item ∈ items, WellFormed item) : WellFormed (.array items)
  | object {members : List (Text × Value)} (names : ∀ member ∈ members, IsString member.1)
      (each : ∀ member ∈ members, WellFormed member.2) : WellFormed (.object members)

theorem wellFormed_ofText (text : Text) : WellFormed (.ofText text) :=
  .string (isString_escape text)

theorem wellFormed_ofNat (number : Nat) : WellFormed (.ofNat number) :=
  .number (isNumber_ofNat number)

/-! ## Blanks -/

theorem skipBlanks_cons (noBlank : isBlank c = false) : skipBlanks (c :: text) = c :: text := by
  rw [skipBlanks, List.dropWhile_cons, noBlank]
  rfl

theorem isBlank_of_isDigit (digit : isDigit c = true) : isBlank c = false := by
  by_contra blank
  simp only [isBlank, Bool.or_eq_false_iff, beq_eq_false_iff_ne, not_and_or, not_not] at blank
  rcases blank with ((rfl | rfl) | rfl) | rfl <;> cases digit

theorem skipBlanks_lineAt (level : Nat) (text : Text) :
    skipBlanks (lineAt level ++ text) = skipBlanks text := by
  refine List.dropWhile_append_of_pos fun c isIn => ?_
  rcases List.mem_cons.1 isIn with rfl | isSpace
  · rfl
  · rw [List.eq_of_mem_replicate isSpace]
    rfl

theorem endsNumber_cons (ends : isDigit c = false ∧ c ≠ '.' ∧ c ≠ 'e' ∧ c ≠ 'E') :
    EndsNumber (c :: text) := by
  intro first isFirst
  cases isFirst
  exact ends

theorem endsNumber_lineAt (level : Nat) (text : Text) : EndsNumber (lineAt level ++ text) :=
  endsNumber_cons (by decide)

/-- What a value begins with is no blank and closes nothing. -/
theorem WellFormed.starts (wellFormed : WellFormed value) (level : Nat) :
    ∃ c more, writeAt level value = c :: more ∧ isBlank c = false ∧ c ≠ ']' ∧ c ≠ '\x7d' := by
  cases wellFormed with
  | null => exact ⟨_, _, rfl, by decide⟩
  | boolean value => cases value <;> exact ⟨_, _, rfl, by decide⟩
  | number isNumber =>
    obtain ⟨c, more, rfl, isFirst⟩ := isNumber.starts
    refine ⟨c, more, rfl, ?_⟩
    rcases isFirst with digit | rfl
    · refine ⟨isBlank_of_isDigit digit, ?_, ?_⟩ <;>
      · rintro rfl
        cases digit
    · decide
  | string isString => exact ⟨_, _, rfl, by decide⟩
  | @array items each =>
    cases items <;> exact ⟨_, _, rfl, by decide⟩
  | @object members names each =>
    cases members <;> exact ⟨_, _, rfl, by decide⟩

/-! ## Several values -/

theorem readItems?_last (read : item text = some (value, rest))
    (closed : skipBlanks rest = ']' :: tail) :
    readItems? item (fuel + 1) text = some ([value], tail) := by
  rw [readItems?, read]
  simp only [Option.bind_eq_bind, Option.bind_some, closed]

theorem readItems?_more {more : Text} (read : item text = some (value, rest))
    (open' : skipBlanks rest = ',' :: more) : readItems? item (fuel + 1) text
      = (readItems? item fuel more).map fun (values, rest) => (value :: values, rest) := by
  rw [readItems?, read]
  simp only [Option.bind_eq_bind, Option.bind_some, open']
  cases readItems? item fuel more <;> rfl

theorem readMembers?_lineAt (fuel level : Nat) (text : Text) :
    readMembers? item fuel (lineAt level ++ text) = readMembers? item fuel text := by
  cases fuel with
  | zero => rfl
  | succ fuel => rw [readMembers?, readMembers?, skipBlanks_lineAt]

theorem writeMember_append (level : Nat) (member : Text × Value) (rest : Text) :
    writeMember level member ++ rest
      = '"' :: (member.1 ++ '"' :: ':' :: ' ' :: (writeAt level member.2 ++ rest)) := by
  obtain ⟨name, value⟩ := member
  simp [writeMember]

section

variable (blind : ∀ text, item (skipBlanks text) = item text)

include blind

theorem item_lineAt (level : Nat) (text : Text) : item (lineAt level ++ text) = item text := by
  rw [← blind (lineAt level ++ text), skipBlanks_lineAt, blind]

theorem readItems?_lineAt (fuel level : Nat) (text : Text) :
    readItems? item fuel (lineAt level ++ text) = readItems? item fuel text := by
  cases fuel with
  | zero => rfl
  | succ fuel => rw [readItems?, readItems?, item_lineAt blind]

/-- Items are read up to the bracket that closes them. -/
theorem readItems?_write (outer : Nat) (tail : Text) (enough : items.length ≤ fuel)
    (reads : ∀ value ∈ first :: items, ∀ rest, EndsNumber rest →
      item (writeAt level value ++ rest) = some (value, rest)) :
    readItems? item (fuel + 1)
        (writeAt level first ++ (writeItems level items ++ (lineAt outer ++ ']' :: tail)))
      = some (first :: items, tail) := by
  have readsFirst := reads first List.mem_cons_self
  induction items generalizing first fuel with
  | nil =>
    rw [writeItems, List.nil_append]
    refine readItems?_last (readsFirst _ (endsNumber_lineAt outer _)) ?_
    rw [skipBlanks_lineAt, skipBlanks_cons (by decide)]
  | cons second items ih =>
    obtain ⟨fuel, rfl⟩ := Nat.exists_eq_add_one_of_ne_zero (Nat.ne_of_gt (Nat.zero_lt_of_lt enough))
    have later : ∀ value ∈ second :: items, _ := fun value isIn =>
      reads value (List.mem_cons_of_mem _ isIn)
    have others := ih (Nat.le_of_succ_le_succ enough) later (later second List.mem_cons_self)
    simp only [writeItems, List.cons_append, List.append_assoc]
    rw [readItems?_more (readsFirst _ (endsNumber_cons (by decide))) (skipBlanks_cons (by decide)),
      readItems?_lineAt blind, others]
    rfl

theorem item_space (text : Text) : item (' ' :: text) = item text := by
  rw [← blind (' ' :: text), ← blind text]
  rfl

theorem readMembers?_last (named : IsString member.1)
    (read : item (writeAt level member.2 ++ rest) = some (member.2, rest))
    (closed : skipBlanks rest = '\x7d' :: tail) :
    readMembers? item (fuel + 1) (writeMember level member ++ rest) = some ([member], tail) := by
  rw [readMembers?, writeMember_append, skipBlanks_cons (by decide)]
  simp only [named _, Option.bind_eq_bind, Option.bind_some,
    skipBlanks_cons (c := ':') (by decide), item_space blind, read, closed]

theorem readMembers?_more {more : Text} (named : IsString member.1)
    (read : item (writeAt level member.2 ++ rest) = some (member.2, rest))
    (open' : skipBlanks rest = ',' :: more) :
    readMembers? item (fuel + 1) (writeMember level member ++ rest)
      = (readMembers? item fuel more).map fun (members, rest) => (member :: members, rest) := by
  rw [readMembers?, writeMember_append, skipBlanks_cons (by decide)]
  simp only [named _, Option.bind_eq_bind, Option.bind_some,
    skipBlanks_cons (c := ':') (by decide), item_space blind, read, open']
  cases readMembers? item fuel more <;> rfl

/-- Members are read up to the brace that closes them. -/
theorem readMembers?_write {first : Text × Value} (outer : Nat) (tail : Text)
    (enough : members.length ≤ fuel)
    (named : ∀ member ∈ first :: members, IsString member.1)
    (reads : ∀ member ∈ first :: members, ∀ rest, EndsNumber rest →
      item (writeAt level member.2 ++ rest) = some (member.2, rest)) :
    readMembers? item (fuel + 1)
        (writeMember level first
          ++ (writeMembers level members ++ (lineAt outer ++ '\x7d' :: tail)))
      = some (first :: members, tail) := by
  have readsFirst := reads first List.mem_cons_self
  have namedFirst := named first List.mem_cons_self
  induction members generalizing first fuel with
  | nil =>
    rw [writeMembers, List.nil_append]
    refine readMembers?_last blind namedFirst (readsFirst _ (endsNumber_lineAt outer _)) ?_
    rw [skipBlanks_lineAt, skipBlanks_cons (by decide)]
  | cons second members ih =>
    obtain ⟨fuel, rfl⟩ := Nat.exists_eq_add_one_of_ne_zero (Nat.ne_of_gt (Nat.zero_lt_of_lt enough))
    have laterNamed : ∀ member ∈ second :: members, _ := fun member isIn =>
      named member (List.mem_cons_of_mem _ isIn)
    have later : ∀ member ∈ second :: members, _ := fun member isIn =>
      reads member (List.mem_cons_of_mem _ isIn)
    have others := ih (Nat.le_of_succ_le_succ enough) laterNamed later
      (later second List.mem_cons_self) (laterNamed second List.mem_cons_self)
    simp only [writeMembers, List.cons_append, List.append_assoc]
    rw [readMembers?_more blind namedFirst (readsFirst _ (endsNumber_cons (by decide)))
      (skipBlanks_cons (by decide)), readMembers?_lineAt, others]
    rfl

end

/-! ## The round trip -/

theorem readValue?_skipBlanks (depth : Nat) (text : Text) :
    readValue? depth (skipBlanks text) = readValue? depth text := by
  cases depth with
  | zero => rfl
  | succ depth =>
    have again : skipBlanks (skipBlanks text) = skipBlanks text := List.dropWhile_idempotent _ _
    rw [readValue?, readValue?, again]

theorem readValue?_number (isNumber : IsNumber literal) (ends : EndsNumber rest) :
    readValue? (depth + 1) (literal ++ rest) = some (.number literal, rest) := by
  have taken := isNumber.taken rest ends
  obtain ⟨c, more, rfl, isFirst⟩ := isNumber.starts
  have noBlank : isBlank c = false := by
    rcases isFirst with digit | rfl
    · exact isBlank_of_isDigit digit
    · rfl
  have others : ∀ other ∈ ['n', 't', 'f', '"', '[', '\x7b'], c ≠ other := by
    rintro other isIn rfl
    rcases isFirst with digit | rfl
    · simp only [List.mem_cons, List.not_mem_nil, or_false] at isIn
      rcases isIn with rfl | rfl | rfl | rfl | rfl | rfl <;> cases digit
    · simp at isIn
  rw [List.cons_append] at taken ⊢
  rw [readValue?, skipBlanks_cons noBlank]
  split
  · next same => exact absurd (List.cons.inj same).1 (others 'n' (by simp))
  · next same => exact absurd (List.cons.inj same).1 (others 't' (by simp))
  · next same => exact absurd (List.cons.inj same).1 (others 'f' (by simp))
  · next same => exact absurd (List.cons.inj same).1 (others '"' (by simp))
  · next same => exact absurd (List.cons.inj same).1 (others '[' (by simp))
  · next same => exact absurd (List.cons.inj same).1 (others '\x7b' (by simp))
  · rw [taken]
    rfl

theorem length_items_le (level : Nat) (items : List Value) :
    items.length ≤ (writeItems level items).length := by
  induction items with
  | nil => exact Nat.zero_le _
  | cons item items ih =>
    simp only [writeItems, List.length_append, List.length_cons]
    omega

theorem length_members_le (level : Nat) (members : List (Text × Value)) :
    members.length ≤ (writeMembers level members).length := by
  induction members with
  | nil => exact Nat.zero_le _
  | cons member members ih =>
    simp only [writeMembers, List.length_append, List.length_cons]
    omega

theorem length_item_le (level : Nat) (isIn : value ∈ items) :
    (writeAt level value).length ≤ (writeItems level items).length := by
  induction items with
  | nil => cases isIn
  | cons item items ih =>
    simp only [writeItems, List.length_append, List.length_cons]
    rcases List.mem_cons.1 isIn with rfl | isLater
    · omega
    · have later := ih isLater
      omega

theorem length_value_le (level : Nat) (member : Text × Value) :
    (writeAt level member.2).length + 2 ≤ (writeMember level member).length := by
  have whole := congrArg List.length (writeMember_append level member [])
  simp only [List.append_nil, List.length_append, List.length_cons] at whole
  omega

theorem length_member_le (level : Nat) (isIn : member ∈ members) :
    (writeAt level member.2).length ≤ (writeMembers level members).length := by
  induction members with
  | nil => cases isIn
  | cons first members ih =>
    simp only [writeMembers, List.length_append, List.length_cons]
    rcases List.mem_cons.1 isIn with rfl | isLater
    · have inside := length_value_le level member
      omega
    · have later := ih isLater
      omega

/-- Every item is shorter than the array, so a level less is deep enough for it. -/
theorem length_item_lt_array (level : Nat) (isIn : value ∈ first :: items) :
    (writeAt (level + 1) value).length + 2 ≤ (writeAt level (.array (first :: items))).length := by
  simp only [writeAt, List.length_append, List.length_cons]
  rcases List.mem_cons.1 isIn with rfl | isLater
  · omega
  · have shorter := length_item_le (level + 1) isLater
    omega

theorem length_member_lt_object {first : Text × Value} (level : Nat)
    (isIn : member ∈ first :: members) :
    (writeAt (level + 1) member.2).length + 2
      ≤ (writeAt level (.object (first :: members))).length := by
  simp only [writeAt, List.length_append, List.length_cons]
  rcases List.mem_cons.1 isIn with rfl | isLater
  · have inside := length_value_le (level + 1) member
    omega
  · have shorter := length_member_le (level + 1) isLater
    omega

theorem readValue?_array {inside : Text} (opened : skipBlanks text = c :: inside) (filled : c ≠ ']')
    (read : readItems? (readValue? depth) (c :: inside).length (c :: inside) = some (items, rest)) :
    readValue? (depth + 1) ('[' :: text) = some (.array items, rest) := by
  rw [readValue?, skipBlanks_cons (by decide)]
  simp only [opened]
  split
  · next same => exact absurd (List.cons.inj same).1 filled
  · rw [read]
    rfl

theorem readValue?_object {inside : Text} (opened : skipBlanks text = c :: inside)
    (filled : c ≠ '\x7d')
    (read : readMembers? (readValue? depth) (c :: inside).length (c :: inside)
      = some (members, rest)) :
    readValue? (depth + 1) ('\x7b' :: text) = some (.object members, rest) := by
  rw [readValue?, skipBlanks_cons (by decide)]
  simp only [opened]
  split
  · next same => exact absurd (List.cons.inj same).1 filled
  · rw [read]
    rfl

/-- An array is read back if its items are, one level further down. -/
theorem readValue?_writeArray {first : Value} (wellFormed : WellFormed first) (rest : Text)
    (reads : ∀ item ∈ first :: items, ∀ rest, EndsNumber rest →
      readValue? depth (writeAt (level + 1) item ++ rest) = some (item, rest)) :
    readValue? (depth + 1) (writeAt level (.array (first :: items)) ++ rest)
      = some (.array (first :: items), rest) := by
  obtain ⟨c, more, starts, noBlank, filled, _⟩ := wellFormed.starts (level + 1)
  simp only [writeAt, List.cons_append, List.append_assoc, List.nil_append]
  generalize behind : writeItems (level + 1) items ++ (lineAt level ++ ']' :: rest) = tail
  -- The reader of items takes as many steps as there are characters, and each item has one.
  have enough : items.length ≤ (more ++ tail).length := by
    have fewer := length_items_le (level + 1) items
    simp only [← behind, List.length_append]
    omega
  have read := readItems?_write (readValue?_skipBlanks depth) level rest enough reads
  rw [behind, starts] at read
  rw [starts]
  exact readValue?_array ((skipBlanks_lineAt _ _).trans (skipBlanks_cons noBlank)) filled read

/-- An object is read back if the values of its members are, one level further down. -/
theorem readValue?_writeObject {first : Text × Value} (rest : Text)
    (named : ∀ member ∈ first :: members, IsString member.1)
    (reads : ∀ member ∈ first :: members, ∀ rest, EndsNumber rest →
      readValue? depth (writeAt (level + 1) member.2 ++ rest) = some (member.2, rest)) :
    readValue? (depth + 1) (writeAt level (.object (first :: members)) ++ rest)
      = some (.object (first :: members), rest) := by
  simp only [writeAt, List.cons_append, List.append_assoc, List.nil_append]
  generalize behind : writeMembers (level + 1) members ++ (lineAt level ++ '\x7d' :: rest) = tail
  generalize starts :
    first.1 ++ '"' :: ':' :: ' ' :: (writeAt (level + 1) first.2 ++ tail) = more
  have enough : members.length ≤ more.length := by
    have fewer := length_members_le (level + 1) members
    simp only [← starts, ← behind, List.length_append, List.length_cons]
    omega
  have read := readMembers?_write (readValue?_skipBlanks depth) level rest enough named reads
  rw [behind, writeMember_append, starts] at read
  rw [writeMember_append, starts]
  have opened : skipBlanks (lineAt (level + 1) ++ '"' :: more) = '"' :: more :=
    (skipBlanks_lineAt _ _).trans (skipBlanks_cons (by decide))
  exact readValue?_object opened (by decide) read

/-- A value is read back where nothing behind it continues it. -/
theorem readValue?_writeAt (wellFormed : WellFormed value) :
    ∀ level depth rest, (writeAt level value).length ≤ depth + 1 → EndsNumber rest →
      readValue? (depth + 1) (writeAt level value ++ rest) = some (value, rest) := by
  induction wellFormed with
  | null => exact fun level depth rest deep ends => rfl
  | boolean value => cases value <;> exact fun level depth rest deep ends => rfl
  | number isNumber => exact fun level depth rest deep ends => readValue?_number isNumber ends
  | string isString =>
    intro level depth rest deep ends
    simp only [writeAt, List.cons_append, List.append_assoc, List.nil_append]
    rw [readValue?, skipBlanks_cons (by decide)]
    simp only [isString rest, Option.map_some]
  | @array items each ih =>
    intro level depth rest deep ends
    cases items with
    | nil => rfl
    | cons first items =>
      refine readValue?_writeArray (each first List.mem_cons_self) rest fun item isIn rest => ?_
      have fits := length_item_lt_array level isIn
      cases depth with
      | zero => omega
      | succ depth => exact ih item isIn (level + 1) depth rest (by omega)
  | @object members named each ih =>
    intro level depth rest deep ends
    cases members with
    | nil => rfl
    | cons first members =>
      refine readValue?_writeObject rest named fun member isIn rest => ?_
      have fits := length_member_lt_object level isIn
      cases depth with
      | zero => omega
      | succ depth => exact ih member isIn (level + 1) depth rest (by omega)

/-- Reading undoes writing. -/
theorem read?_write (wellFormed : WellFormed value) : read? (write value) = some value := by
  have noRest : EndsNumber [] := nofun
  have read : readValue? ((write value).length + 1) (write value ++ []) = some (value, []) :=
    readValue?_writeAt wellFormed 0 _ [] (Nat.le_succ _) noRest
  rw [List.append_nil] at read
  rw [read?, read]
  rfl

end StaticSite.Json
