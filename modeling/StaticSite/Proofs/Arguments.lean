import Mathlib.Data.List.Infix
import StaticSite.Argument

/-!
# Values of arguments

The values that a directive gives are parts of its argument text, and bindings that are put together
hold no value that was not given.
-/

namespace StaticSite

/-! ## Bindings -/

namespace Table

variable {κ β : Type} [LT κ] [DecidableEq κ] [DecidableLT κ]
  [Trans (α := κ) (· < ·) (· < ·) (· < ·)] [Std.Trichotomous (α := κ) (· < ·)]
  {table upper : Table κ β} {rows : List (κ × β)} {key : κ} {value : β} {row : κ × β}

theorem mem_rows_of_insert (isIn : row ∈ (table.insert key value).rows) :
    row = (key, value) ∨ row ∈ table.rows :=
  mem_insertRow isIn

theorem mem_rows_of_insertAll
    (isIn : row ∈ (rows.foldl (fun acc row => acc.insert row.1 row.2) table).rows) :
    row ∈ rows ∨ row ∈ table.rows := by
  induction rows generalizing table with
  | nil => exact .inr isIn
  | cons first rest ih =>
    rcases ih isIn with isLater | isIn
    · exact .inl (List.mem_cons_of_mem _ isLater)
    · rcases mem_rows_of_insert isIn with rfl | isIn
      · exact .inl List.mem_cons_self
      · exact .inr isIn

theorem mem_rows_of_overlay (isIn : row ∈ (table.overlay upper).rows) :
    row ∈ upper.rows ∨ row ∈ table.rows :=
  mem_rows_of_insertAll isIn

theorem mem_of_mem_rows_ofList (isIn : row ∈ (ofList rows).rows) : row ∈ rows := by
  rcases mem_rows_of_insertAll isIn with isIn | isIn
  · exact isIn
  · cases isIn

end Table

/-! ## Arguments -/

namespace Argument

/-- The value that is written. -/
def value : Argument → Text
  | positional value => value
  | keyed _ value => value

theorem takeValue_parts (text : Text) :
    (takeValue text).1 <:+: text ∧ (takeValue text).2 <:+ text := by
  unfold takeValue
  cases quoted : quotedValue? text with
  | none =>
    exact ⟨(List.takeWhile_prefix _).isInfix, List.dropWhile_suffix _⟩
  | some parts =>
    obtain ⟨inner, behind⟩ := parts
    cases text with
    | nil => simp [quotedValue?] at quoted
    | cons quote inside =>
      simp only [quotedValue?] at quoted
      split at quoted
      · rw [Text.append_of_cut quoted]
        exact ⟨⟨[quote], [quote] ++ behind, by simp⟩, ⟨quote :: inner ++ [quote], by simp⟩⟩
      · cases quoted

theorem take_parts (text : Text) : (take text).1.value <:+: text ∧ (take text).2 <:+ text := by
  unfold take
  split
  · next split =>
    have behindKey := List.dropWhile_suffix Text.isWordChar (l := text)
    rw [split] at behindKey
    have rest := (List.suffix_cons _ _).trans behindKey
    obtain ⟨within, behind⟩ := takeValue_parts _
    exact ⟨within.trans rest.isInfix, behind.trans rest⟩
  · exact takeValue_parts text

/-- Values are parts of the text that they are written in. -/
theorem value_infix_of_list {text : Text} {argument : Argument} (isIn : argument ∈ list text) :
    argument.value <:+: text := by
  fun_induction list text with
  | case1 => cases isIn
  | case2 c rest blank ih => exact (ih isIn).trans (List.suffix_cons _ _).isInfix
  | case3 c rest visible ih =>
    obtain ⟨within, behind⟩ := take_parts (c :: rest)
    rcases List.mem_cons.1 isIn with rfl | isLater
    · exact within
    · exact (ih isLater).trans behind.isInfix

end Argument

/-- A property that a directive gives is a part of its argument text. -/
theorem Arguments.infix_of_mem_props {text key value : Text}
    (given : (key, value) ∈ (ofText text).props.rows) : value <:+: text := by
  obtain ⟨argument, isIn, pair⟩ := List.mem_filterMap.1 (Table.mem_of_mem_rows_ofList given)
  cases argument with
  | positional => cases pair
  | keyed =>
    cases pair
    exact Argument.value_infix_of_list isIn

end StaticSite
