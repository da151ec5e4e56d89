import StaticSite.Argument
import StaticSite.Proofs.Disk.Entries
import StaticSite.Proofs.Text.Quotes
import StaticSite.Proofs.Token.Shape

/-!
# Writing arguments

Arguments are written with their values in quotes and blanks between them.  Reading gives them back,
whatever the values hold, and of the values in one role the first or the last one stands.
-/

namespace StaticSite

/-! ## Written arguments -/

namespace Argument

/-- A value between two quotes of a kind that does not occur in it. -/
inductive Quotes (value : Text) : Text → Prop where
  | between (quote : Char) (isQuote : quote = '"' ∨ quote = '\'') (free : quote ∉ value) :
      Quotes value (quote :: (value ++ [quote]))

/-- A value without one of the two kinds of quotes. -/
def Quotable (value : Text) : Prop :=
  ¬ ('"' ∈ value ∧ '\'' ∈ value)

/-- An argument that can be written: its value can be quoted, and its key is a word. -/
def Writable : Argument → Prop
  | positional value => Quotable value
  | keyed key value => key ≠ [] ∧ (∀ c ∈ key, Text.isWordChar c = true) ∧ Quotable value

instance (value : Text) : Decidable (Quotable value) :=
  inferInstanceAs (Decidable (¬ (_ ∧ _)))

instance : (argument : Argument) → Decidable argument.Writable
  | positional value => inferInstanceAs (Decidable (Quotable value))
  | keyed key value => decidable_of_iff (key ≠ [] ∧ key.all Text.isWordChar = true ∧ Quotable value)
      (by rw [List.all_eq_true]; rfl)

/-- One argument in text. -/
inductive Writes : Argument → Text → Prop where
  | positional {value quoted : Text} (quotes : Quotes value quoted) :
      Writes (positional value) quoted
  | keyed {key value quoted : Text} (quotes : Quotes value quoted) :
      Writes (keyed key value) (key ++ '=' :: quoted)

/-- Arguments in text, with blanks between them. -/
inductive WritesAll : List Argument → Text → Prop where
  | none : WritesAll [] []
  | last {argument : Argument} {text : Text} (writes : argument.Writes text) :
      WritesAll [argument] text
  | more {argument next : Argument} {items : List Argument} {text gap behind : Text}
      (writes : argument.Writes text) (nonempty : gap ≠ [])
      (blank : ∀ c ∈ gap, Text.isBlank c = true) (rest : WritesAll (next :: items) behind) :
      WritesAll (argument :: next :: items) (text ++ gap ++ behind)

variable {argument : Argument} {items : List Argument} {value quoted text gap : Text}

theorem exists_quotes (quotable : Quotable value) : ∃ quoted, Quotes value quoted := by
  by_cases double : '"' ∈ value
  · exact ⟨_, .between '\'' (.inr rfl) fun single => quotable ⟨double, single⟩⟩
  · exact ⟨_, .between '"' (.inl rfl) double⟩

theorem exists_writes (writable : argument.Writable) : ∃ text, argument.Writes text := by
  cases argument with
  | positional value =>
    obtain ⟨quoted, quotes⟩ := exists_quotes writable
    exact ⟨quoted, .positional quotes⟩
  | keyed key value =>
    obtain ⟨quoted, quotes⟩ := exists_quotes writable.2.2
    exact ⟨_, .keyed quotes⟩

theorem exists_writesAll (writable : ∀ argument ∈ items, argument.Writable) :
    ∃ text, WritesAll items text := by
  induction items with
  | nil => exact ⟨[], .none⟩
  | cons argument items ih =>
    obtain ⟨text, writes⟩ := exists_writes (writable argument List.mem_cons_self)
    obtain ⟨behind, rest⟩ := ih fun other isIn => writable other (List.mem_cons_of_mem _ isIn)
    cases items with
    | nil => exact ⟨text, .last writes⟩
    | cons next items =>
      exact ⟨_, .more writes (List.cons_ne_nil ' ' []) (List.all_eq_true.1 rfl) rest⟩

/-! ## Reading -/

theorem takeValue_quoted (quotes : Quotes value quoted) (rest : Text) :
    takeValue (quoted ++ rest) = (value, rest) := by
  obtain ⟨quote, isQuote, free⟩ := quotes
  rw [takeValue, List.cons_append, List.append_assoc, List.singleton_append, quotedValue?,
    if_pos isQuote, Text.cut_singleton free, Option.getD_some]

/-- A quote is no blank and no part of a word. -/
theorem head_quoted (quotes : Quotes value quoted) (rest : Text) :
    ∃ quote more, quoted ++ rest = quote :: more ∧ Text.isBlank quote = false ∧
      Text.isWordChar quote = false := by
  obtain ⟨quote, isQuote, free⟩ := quotes
  refine ⟨quote, _, rfl, ?_⟩
  rcases isQuote with rfl | rfl <;> decide

theorem take_written (writable : argument.Writable) (writes : argument.Writes text)
    (rest : Text) : take (text ++ rest) = (argument, rest) := by
  cases writes with
  | positional quotes =>
    obtain ⟨quote, more, starts, _, notWord⟩ := head_quoted quotes rest
    have noKey : (quote :: more).takeWhile Text.isWordChar = [] := by simp [notWord]
    rw [take, starts, noKey, ← starts, takeValue_quoted quotes]
  | @keyed key value quoted quotes =>
    obtain ⟨nonempty, wordChars, _⟩ := writable
    have stops : ∀ c ∈ ('=' :: (quoted ++ rest)).head?, Text.isWordChar c = false := by
      intro c isFirst
      cases isFirst
      decide
    rw [List.append_assoc, List.cons_append, take, Text.takeWhile_run wordChars stops,
      Text.dropWhile_run wordChars stops]
    obtain ⟨c, word, rfl⟩ := List.exists_cons_of_ne_nil nonempty
    show (keyed (c :: word) (takeValue (quoted ++ rest)).1, (takeValue (quoted ++ rest)).2) = _
    rw [takeValue_quoted quotes]

/-- What is written begins with a character that is no blank. -/
theorem head_written (writable : argument.Writable) (writes : argument.Writes text)
    (rest : Text) : ∃ c more, text ++ rest = c :: more ∧ Text.isBlank c = false := by
  cases writes with
  | positional quotes =>
    obtain ⟨quote, more, starts, visible, _⟩ := head_quoted quotes rest
    exact ⟨quote, more, starts, visible⟩
  | keyed quotes =>
    obtain ⟨nonempty, wordChars, _⟩ := writable
    obtain ⟨c, word, rfl⟩ := List.exists_cons_of_ne_nil nonempty
    exact ⟨c, _, rfl, Text.not_isBlank_of_isWordChar (wordChars c List.mem_cons_self)⟩

theorem list_written (writable : argument.Writable) (writes : argument.Writes text)
    (rest : Text) : list (text ++ rest) = argument :: list rest := by
  obtain ⟨c, more, starts, visible⟩ := head_written writable writes rest
  rw [starts, list, dif_neg (Bool.eq_false_iff.1 visible), ← starts, take_written writable writes]

theorem list_gap (blank : ∀ c ∈ gap, Text.isBlank c = true) (rest : Text) :
    list (gap ++ rest) = list rest := by
  induction gap with
  | nil => rfl
  | cons c gap ih =>
    rw [List.cons_append, list, dif_pos (blank c List.mem_cons_self),
      ih fun other isIn => blank other (List.mem_cons_of_mem _ isIn)]

theorem list_writtenAll (writable : ∀ argument ∈ items, argument.Writable)
    (writes : WritesAll items text) : list text = items := by
  induction writes with
  | none => rw [list]
  | @last argument text writes =>
    have whole := list_written (writable argument List.mem_cons_self) writes []
    rwa [List.append_nil, list] at whole
  | @more argument next items text gap behind writes nonempty blank rest ih =>
    rw [List.append_assoc, list_written (writable argument List.mem_cons_self) writes,
      list_gap blank, ih fun other isIn => writable other (List.mem_cons_of_mem _ isIn)]

/-- The value that an argument gives to a key. -/
def valueUnder? (key : Text) : Argument → Option Text
  | positional _ => none
  | keyed other value => if other = key then some value else none

theorem valueUnder?_eq_some {key : Text} :
    valueUnder? key argument = some value ↔ argument = keyed key value := by
  cases argument with
  | positional other => simp [valueUnder?]
  | keyed other held => simp [valueUnder?]

end Argument

/-! ## What arguments give -/

namespace Arguments

variable {items : List Argument}

/-- The main value is the first positional one that is not empty, and a property has the last value
that is given under its name. -/
structure GivenBy (arguments : Arguments) (items : List Argument) : Prop where
  main : (arguments.main = [] ∧ ∀ value, .positional value ∈ items → value = []) ∨
    (arguments.main ≠ [] ∧ ∃ before after, items = before ++ .positional arguments.main :: after ∧
      ∀ value, .positional value ∈ before → value = [])
  props : ∀ key value, arguments.props.get? key = some value ↔
    ∃ before after, items = before ++ .keyed key value :: after ∧
      ∀ other, .keyed key other ∉ after

/-- Later arguments have the first say about a key. -/
theorem get?_props_ofList (items : List Argument) (key : Text) :
    (ofList items).props.get? key = items.reverse.findSome? (Argument.valueUnder? key) := by
  induction items using List.reverseRecOn with
  | nil => rfl
  | append_singleton items argument ih =>
    rw [List.reverse_concat, List.findSome?_cons, ← ih]
    simp only [ofList, List.filterMap_append, Table.ofList, List.foldl_append]
    cases argument with
    | positional value => rfl
    | keyed other value =>
      show (Table.insert _ other value).get? key = _
      rw [Table.get?_insert, Argument.valueUnder?]
      by_cases same : key = other
      · rw [if_pos same, if_pos same.symm]
      · rw [if_neg same, if_neg (Ne.symm same)]

theorem mainValue?_positional {value : Text} (nonempty : value ≠ []) :
    (Argument.positional value).mainValue? = some value := by
  obtain ⟨c, rest, rfl⟩ := List.exists_cons_of_ne_nil nonempty
  rfl

theorem eq_of_mainValue? {argument : Argument} {value : Text}
    (gives : argument.mainValue? = some value) : argument = .positional value ∧ value ≠ [] := by
  match argument, gives with
  | .positional (c :: rest), rfl => exact ⟨rfl, List.cons_ne_nil _ _⟩

theorem eq_nil_of_mainValue? {value : Text}
    (silent : (Argument.positional value).mainValue? = none) : value = [] := by
  by_contra nonempty
  rw [mainValue?_positional nonempty] at silent
  cases silent

theorem givenBy_ofList (items : List Argument) : (ofList items).GivenBy items where
  main := by
    cases found : items.findSome? Argument.mainValue? with
    | none =>
      have silent := List.findSome?_eq_none_iff.1 found
      have noMain : (ofList items).main = [] := by
        rw [ofList, found]
        rfl
      exact .inl ⟨noMain, fun value isIn => eq_nil_of_mainValue? (silent _ isIn)⟩
    | some value =>
      obtain ⟨before, argument, after, rfl, gives, silent⟩ := List.findSome?_eq_some_iff.1 found
      obtain ⟨rfl, nonempty⟩ := eq_of_mainValue? gives
      have isMain : (ofList (before ++ .positional value :: after)).main = value := by
        rw [ofList, found]
        rfl
      rw [isMain]
      exact .inr ⟨nonempty, before, after, rfl,
        fun other isIn => eq_nil_of_mainValue? (silent _ isIn)⟩
  props := by
    intro key value
    rw [get?_props_ofList, List.findSome?_eq_some_iff]
    constructor
    · -- The last item is looked at first, so that no later one has the key of what is found.
      rintro ⟨later, argument, earlier, split, gives, silent⟩
      obtain rfl := Argument.valueUnder?_eq_some.1 gives
      refine ⟨earlier.reverse, later.reverse, ?_, fun other isLater => ?_⟩
      · rw [← List.reverse_reverse items, split]
        simp
      · have unsaid := silent _ (List.mem_reverse.1 isLater)
        rw [Argument.valueUnder?_eq_some.2 rfl] at unsaid
        cases unsaid
    · rintro ⟨before, after, rfl, silent⟩
      refine ⟨after.reverse, .keyed key value, before.reverse, by simp,
        Argument.valueUnder?_eq_some.2 rfl, fun argument isLater => ?_⟩
      rw [Option.eq_none_iff_forall_ne_some]
      intro other gives
      obtain rfl := Argument.valueUnder?_eq_some.1 gives
      exact silent other (List.mem_reverse.1 isLater)

end Arguments

open Argument in
/-- Arguments that can be written are read back from every text that they are written in. -/
theorem Arguments.ofText_written (items : List Argument)
    (writable : ∀ argument ∈ items, argument.Writable) :
    (∃ text, WritesAll items text) ∧
      ∀ text, WritesAll items text → (Arguments.ofText text).GivenBy items := by
  refine ⟨exists_writesAll writable, fun text writes => ?_⟩
  rw [ofText, list_writtenAll writable writes]
  exact givenBy_ofList items

/-- Arguments whose values look like arguments. -/
def nestedArguments : List Argument :=
  [.keyed "k".toList "v='1'".toList, .positional [], .keyed "k".toList "a b".toList,
    .positional "say \"k=2\"".toList]

theorem nestedArguments_read_back :
    (∀ argument ∈ nestedArguments, argument.Writable) ∧
      Argument.WritesAll nestedArguments "k=\"v='1'\" \"\"\t k='a b'\n'say \"k=2\"'".toList ∧
      (Arguments.ofText "k=\"v='1'\" \"\"\t k='a b'\n'say \"k=2\"'".toList).GivenBy
        nestedArguments := by
  have writable : ∀ argument ∈ nestedArguments, argument.Writable := by decide
  have writes : Argument.WritesAll nestedArguments
      "k=\"v='1'\" \"\"\t k='a b'\n'say \"k=2\"'".toList :=
    .more (.keyed (.between '"' (.inl rfl) (by decide))) (List.cons_ne_nil ' ' [])
      (List.all_eq_true.1 rfl)
      (.more (.positional (.between '"' (.inl rfl) (by decide))) (List.cons_ne_nil '\t' [' '])
        (List.all_eq_true.1 rfl)
        (.more (.keyed (.between '\'' (.inr rfl) (by decide))) (List.cons_ne_nil '\n' [])
          (List.all_eq_true.1 rfl)
          (.last (.positional (.between '\'' (.inr rfl) (by decide))))))
  exact ⟨writable, writes, (Arguments.ofText_written nestedArguments writable).2 _ writes⟩

end StaticSite
