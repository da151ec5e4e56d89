import Mathlib
import StaticSite.Proofs.Arguments.Writing
import StaticSite.Proofs.Disk.Trees

/-!
# Joining argument texts

Two argument texts with blanks between them are read one after the other, whatever the second one
holds, exactly if no value of the first one begins with a quote that does not come again.  Only such
a quote looks behind the text that it stands in.
-/

namespace StaticSite

/-! ## Bindings -/

namespace Table

section

variable {κ β : Type} [LT κ] [DecidableEq κ] [Std.Asymm (α := κ) (· < ·)]
  {first second : Table κ β}

/-- Tables with the same values are the same, since their rows stand in one order. -/
theorem ext_get? (same : ∀ key, first.get? key = second.get? key) : first = second := by
  have irreflexive : Std.Irrefl fun row row' : κ × β => row.1 < row'.1 :=
    ⟨fun row => Std.Irrefl.irrefl row.1⟩
  have antisymmetric : Std.Antisymm fun row row' : κ × β => row.1 < row'.1 :=
    ⟨fun row row' before after => absurd after (Std.Asymm.asymm _ _ before)⟩
  have rows : first.rows = second.rows := by
    refine List.Pairwise.eq_of_mem_iff first.increasing second.increasing fun ⟨_, _⟩ => ?_
    rw [mem_rows_iff, mem_rows_iff, same]
  cases first
  cases second
  cases rows
  rfl

end

section

variable {κ β : Type} [LT κ] [DecidableEq κ] [DecidableLT κ]
  [Trans (α := κ) (· < ·) (· < ·) (· < ·)] [Std.Trichotomous (α := κ) (· < ·)]
  [Std.Asymm (α := κ) (· < ·)]

theorem get?_overlay (table upper : Table κ β) (key : κ) :
    (table.overlay upper).get? key = (upper.get? key).or (table.get? key) := by
  have injective : ∀ key key' : κ, id key = id key' → key = key' := fun _ _ same => same
  exact get?_insertAll injective upper.increasing

theorem overlay_insert (table upper : Table κ β) (key : κ) (value : β) :
    table.overlay (upper.insert key value) = (table.overlay upper).insert key value := by
  refine ext_get? fun other => ?_
  rw [get?_overlay, get?_insert, get?_insert, get?_overlay]
  by_cases same : other = key
  · rw [if_pos same, if_pos same, Option.some_or]
  · rw [if_neg same, if_neg same]

theorem ofList_append (front behind : List (κ × β)) :
    ofList (front ++ behind) = (ofList front).overlay (ofList behind) := by
  induction behind using List.reverseRecOn with
  | nil =>
    rw [List.append_nil]
    rfl
  | append_singleton behind row ih =>
    have last (rows : List (κ × β)) : ofList (rows ++ [row]) = (ofList rows).insert row.1 row.2 :=
      List.foldl_append ..
    rw [← List.append_assoc, last, last, overlay_insert, ih]

end

end Table

/-! ## Values that are met -/

namespace Argument

/-- How the argument at the head of a text is made of its value, and the text from the value on. -/
def lead (text : Text) : (Text → Argument) × Text :=
  match text.takeWhile Text.isWordChar, text.dropWhile Text.isWordChar with
  | c :: word, '=' :: rest => (keyed (c :: word), rest)
  | _, _ => (positional, text)

/-- A text begins with a quote that does not come again. -/
def StartsOpen : Text → Prop
  | [] => False
  | quote :: inside => (quote = '"' ∨ quote = '\'') ∧ quote ∉ inside

instance : DecidablePred StartsOpen
  | [] => inferInstanceAs (Decidable False)
  | _ :: _ => inferInstanceAs (Decidable (_ ∧ _))

/-- The values that reading the arguments of a text meets, each with all the text behind it. -/
def valueTexts : Text → List Text
  | [] => []
  | c :: rest =>
      if _ : Text.isBlank c then valueTexts rest
      else (lead (c :: rest)).2 :: valueTexts (take (c :: rest)).2
  termination_by text => text.length
  decreasing_by
    · exact Nat.lt_succ_self _
    · exact length_take_lt (Bool.eq_false_iff.2 ‹_›)

/-- No value begins with a quote that does not come again. -/
def ClosesQuotes (text : Text) : Prop :=
  ∀ value ∈ valueTexts text, ¬ StartsOpen value

variable {text inside : Text} {c quote : Char}

theorem take_eq (text : Text) :
    take text = ((lead text).1 (takeValue (lead text).2).1, (takeValue (lead text).2).2) := by
  unfold take lead
  cases text.takeWhile Text.isWordChar with
  | nil => rfl
  | cons c word =>
    match text.dropWhile Text.isWordChar with
    | [] => rfl
    | d :: rest =>
      by_cases equals : d = '='
      · subst equals
        rfl
      · simp only [List.cons.injEq, equals, false_and, imp_self, implies_true]

/-! ## Reading in front of a blank -/

/-- A run ends at a character that stops it, whatever comes behind. -/
theorem runs_append {test : Char → Bool} {behind : Text}
    (stops : ∀ c ∈ behind.head?, test c = false) (text : Text) :
    (text ++ behind).takeWhile test = text.takeWhile test ∧
      (text ++ behind).dropWhile test = text.dropWhile test ++ behind := by
  have parted : text ++ behind = text.takeWhile test ++ (text.dropWhile test ++ behind) := by
    rw [← List.append_assoc, List.takeWhile_append_dropWhile]
  have run : ∀ c ∈ text.takeWhile test, test c = true := fun c => List.mem_takeWhile_imp
  have stopsAll : ∀ c ∈ (text.dropWhile test ++ behind).head?, test c = false := by
    rw [List.head?_append]
    intro c isFirst
    rcases Option.or_eq_some_iff.1 isFirst with inText | ⟨_, isBehind⟩
    · exact Text.stops_dropWhile test text c inText
    · exact stops c isBehind
  rw [parted]
  exact ⟨Text.takeWhile_run run stopsAll, Text.dropWhile_run run stopsAll⟩

section

variable {behind : Text} (starts : ∀ c ∈ behind.head?, Text.isBlank c = true)

include starts

theorem bareValue_append (text : Text) :
    bareValue (text ++ behind) = ((bareValue text).1, (bareValue text).2 ++ behind) := by
  have stops : ∀ c ∈ behind.head?, (!Text.isBlank c) = false := by
    intro c isFirst
    rw [starts c isFirst]
    rfl
  obtain ⟨front, rest⟩ := runs_append stops text
  rw [bareValue, front, rest]
  rfl

theorem lead_append (text : Text) :
    lead (text ++ behind) = ((lead text).1, (lead text).2 ++ behind) := by
  have stops : ∀ c ∈ behind.head?, Text.isWordChar c = false := by
    intro c isFirst
    by_contra isWord
    have visible := Text.not_isBlank_of_isWordChar (Bool.not_eq_false _ ▸ isWord)
    rw [starts c isFirst] at visible
    cases visible
  obtain ⟨front, rest⟩ := runs_append stops text
  unfold lead
  rw [front, rest]
  cases text.takeWhile Text.isWordChar with
  | nil => rfl
  | cons c word =>
    -- A word at the end of the text is no key, since no blank is an equals sign.
    have noKey : ∀ rest, behind ≠ '=' :: rest := by
      rintro rest rfl
      cases starts '=' rfl
    cases text.dropWhile Text.isWordChar with
    | nil =>
      match behind, noKey with
      | [], _ => rfl
      | d :: tail, noKey =>
        have notEquals : d ≠ '=' := fun same => noKey tail (same ▸ rfl)
        simp [notEquals]
    | cons d tail =>
      by_cases equals : d = '='
      · subst equals
        rfl
      · simp [equals]

theorem takeValue_append (closed : ¬ StartsOpen text) :
    takeValue (text ++ behind) = ((takeValue text).1, (takeValue text).2 ++ behind) := by
  have bare (unquoted : quotedValue? text = none)
      (unquoted' : quotedValue? (text ++ behind) = none) :
      takeValue (text ++ behind) = ((takeValue text).1, (takeValue text).2 ++ behind) := by
    rw [takeValue, takeValue, unquoted, unquoted', Option.getD_none, Option.getD_none,
      bareValue_append starts]
  cases text with
  | nil =>
    refine bare rfl ?_
    cases behind with
    | nil => rfl
    | cons c rest =>
      have blank := starts c rfl
      rw [List.nil_append, quotedValue?, if_neg]
      rintro (rfl | rfl) <;> cases blank
  | cons quote inside =>
    by_cases isQuote : quote = '"' ∨ quote = '\''
    · -- The quote comes again within the text, and there the value ends.
      have closes : quote ∈ inside := by
        by_contra free
        exact closed ⟨isQuote, free⟩
      obtain ⟨value, rest, rfl, free⟩ := List.eq_append_cons_of_mem closes
      have quotes : Quotes value (quote :: (value ++ [quote])) := .between quote isQuote free
      have read := takeValue_quoted quotes rest
      have readOn := takeValue_quoted quotes (rest ++ behind)
      simp only [List.cons_append, List.append_assoc, List.nil_append] at read readOn ⊢
      rw [read, readOn]
    · refine bare ?_ ?_
      · rw [quotedValue?, if_neg isQuote]
      · rw [List.cons_append, quotedValue?, if_neg isQuote]

theorem take_append (closed : ¬ StartsOpen (lead text).2) :
    take (text ++ behind) = ((take text).1, (take text).2 ++ behind) := by
  rw [take_eq, take_eq, lead_append starts, takeValue_append starts closed]

/-- What closes its quotes is read without a look at what comes behind it. -/
theorem list_append (closes : ClosesQuotes text) :
    list (text ++ behind) = list text ++ list behind := by
  fun_induction list text with
  | case1 => rfl
  | case2 c rest blank ih =>
    rw [ClosesQuotes, valueTexts, dif_pos blank] at closes
    rw [List.cons_append, list, dif_pos blank]
    exact ih closes
  | case3 c rest visible ih =>
    rw [ClosesQuotes, valueTexts, dif_neg visible, List.forall_mem_cons] at closes
    obtain ⟨closed, closes⟩ := closes
    rw [List.cons_append, list, dif_neg visible, ← List.cons_append, take_append starts closed,
      ih closes]
    rfl

end

/-! ## Quotes that stay open -/

theorem StartsOpen.exists_cons (opens : StartsOpen text) : ∃ quote inside,
    text = quote :: inside ∧ (quote = '"' ∨ quote = '\'') ∧ quote ∉ inside := by
  cases text with
  | nil => exact opens.elim
  | cons quote inside => exact ⟨quote, inside, rfl, opens⟩

theorem takeValue_open (isQuote : quote = '"' ∨ quote = '\'') (free : quote ∉ inside) :
    takeValue (quote :: inside ++ [' ', quote]) = (inside ++ [' '], []) := by
  have free' : quote ∉ inside ++ [' '] := by
    rw [List.mem_append, List.mem_singleton]
    rintro (isIn | rfl)
    · exact free isIn
    · rcases isQuote with impossible | impossible <;> cases impossible
  have quotes : Quotes (inside ++ [' ']) (quote :: (inside ++ [' '] ++ [quote])) :=
    .between quote isQuote free'
  simpa using takeValue_quoted quotes []

/-- A quote that stays open ends at the next one of its kind, and no argument is read from there
on. -/
theorem length_list_open (opens : ∃ value ∈ valueTexts text, StartsOpen value) :
    ∃ quote, (quote = '"' ∨ quote = '\'') ∧
      (list (text ++ [' ', quote])).length ≤ (list text).length := by
  fun_induction list text with
  | case1 =>
    obtain ⟨value, isIn, _⟩ := opens
    rw [valueTexts] at isIn
    cases isIn
  | case2 c rest blank ih =>
    rw [valueTexts, dif_pos blank] at opens
    obtain ⟨quote, isQuote, short⟩ := ih opens
    refine ⟨quote, isQuote, ?_⟩
    rwa [List.cons_append, list, dif_pos blank]
  | case3 c rest visible ih =>
    have starts (quote : Char) : ∀ c ∈ List.head? [' ', quote], Text.isBlank c = true := by
      rintro c ⟨⟩
      rfl
    -- It is the value of this argument that stays open, or that of a later one.
    by_cases opensHere : StartsOpen (lead (c :: rest)).2
    · obtain ⟨quote, inside, same, isQuote, free⟩ := opensHere.exists_cons
      have nothingBehind : (take (c :: rest ++ [' ', quote])).2 = [] := by
        rw [take_eq, lead_append (starts quote), same, takeValue_open isQuote free]
      refine ⟨quote, isQuote, ?_⟩
      rw [List.cons_append, list, dif_neg visible, ← List.cons_append, nothingBehind, list]
      simp
    · rw [valueTexts, dif_neg visible] at opens
      obtain ⟨value, isIn, isOpen⟩ := opens
      have isLater := (List.mem_cons.1 isIn).resolve_left fun same => opensHere (same ▸ isOpen)
      obtain ⟨quote, isQuote, short⟩ := ih ⟨value, isLater, isOpen⟩
      refine ⟨quote, isQuote, ?_⟩
      rw [List.cons_append, list, dif_neg visible, ← List.cons_append,
        take_append (starts quote) opensHere]
      exact Nat.succ_le_succ short

end Argument

/-! ## What joined arguments give -/

namespace Arguments

open Argument

theorem main_ofList_append (front behind : List Argument) :
    (ofList (front ++ behind)).main
      = if (ofList front).main = [] then (ofList behind).main else (ofList front).main := by
  cases found : front.findSome? mainValue? with
  | none =>
    have silent : (ofList front).main = [] := by
      rw [ofList, found]
      rfl
    rw [if_pos silent, ofList, List.findSome?_append, found]
    rfl
  | some value =>
    obtain ⟨argument, _, gives⟩ := List.exists_of_findSome?_eq_some found
    have isMain : (ofList front).main = value := by
      rw [ofList, found]
      rfl
    rw [isMain, if_neg (eq_of_mainValue? gives).2, ofList, List.findSome?_append, found]
    rfl

theorem props_ofList_append (front behind : List Argument) :
    (ofList (front ++ behind)).props = (ofList front).props.overlay (ofList behind).props := by
  rw [ofList, List.filterMap_append, Table.ofList_append]
  rfl

/-- A text is read like two others one after the other: the first main value stands, and of the
properties with one name the last. -/
structure ReadsInTurn (first second joined : Text) : Prop where
  items : list joined = list first ++ list second
  main : (ofText joined).main
    = if (ofText first).main = [] then (ofText second).main else (ofText first).main
  props : (ofText joined).props = (ofText first).props.overlay (ofText second).props

theorem readsInTurn_iff {first second joined : Text} :
    ReadsInTurn first second joined ↔ list joined = list first ++ list second := by
  refine ⟨ReadsInTurn.items, fun items => ⟨items, ?_, ?_⟩⟩
  · rw [ofText, items, main_ofList_append, ofText, ofText]
  · rw [ofText, items, props_ofList_append, ofText, ofText]

/-- Behind a text and blanks every text is read as if it stood alone, exactly if the first text
leaves no quote open at the beginning of a value. -/
theorem readsInTurn_iff_closesQuotes (first : Text) : ClosesQuotes first ↔
    ∀ gap second, gap ≠ [] → (∀ c ∈ gap, Text.isBlank c = true) →
      ReadsInTurn first second (first ++ gap ++ second) := by
  constructor
  · intro closes gap second nonempty blank
    have starts : ∀ c ∈ (gap ++ second).head?, Text.isBlank c = true := by
      obtain ⟨d, gap, rfl⟩ := List.exists_cons_of_ne_nil nonempty
      rintro _ ⟨⟩
      exact blank d List.mem_cons_self
    rw [readsInTurn_iff, List.append_assoc, list_append starts closes, list_gap blank]
  · intro inTurn
    by_contra opens
    simp only [ClosesQuotes, not_forall, not_not, exists_prop] at opens
    obtain ⟨quote, isQuote, short⟩ := length_list_open opens
    have items := (inTurn [' '] [quote] (List.cons_ne_nil _ _) (List.all_eq_true.1 rfl)).items
    rw [List.append_assoc, List.singleton_append] at items
    have single : (list [quote]).length = 1 := by
      rcases isQuote with rfl | rfl <;> cbv
    rw [items, List.length_append, single] at short
    omega

/-- A value may have text right behind it or hold quotes that do not begin it, and be empty at the
end. -/
example : ClosesQuotes "'a'b\" k=\"v\"w don't k=".toList := by
  have values : valueTexts "'a'b\" k=\"v\"w don't k=".toList
      = ["'a'b\" k=\"v\"w don't k=".toList, "b\" k=\"v\"w don't k=".toList,
        "\"v\"w don't k=".toList, "w don't k=".toList, "don't k=".toList, []] := by
    cbv
  rw [ClosesQuotes, values]
  decide

end Arguments

end StaticSite
