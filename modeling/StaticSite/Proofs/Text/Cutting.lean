import Mathlib.Data.List.Infix
import Mathlib.Data.List.TakeWhile
import StaticSite.Text

/-!
# Cutting text

What a cut at a mark, a cut at both ends and a cut behind a run of characters come to, each said
without the function that makes it.
-/

namespace StaticSite.Text

variable {mark text before after core front behind : Text} {c : Char} {test : Char → Bool}

/-! ## Runs -/

theorem takeWhile_run (run : ∀ c ∈ front, test c = true)
    (stops : ∀ c ∈ behind.head?, test c = false) :
    (front ++ behind).takeWhile test = front := by
  rw [List.takeWhile_append_of_pos run]
  cases behind with
  | nil => simp
  | cons c rest => simp [stops c rfl]

theorem dropWhile_run (run : ∀ c ∈ front, test c = true)
    (stops : ∀ c ∈ behind.head?, test c = false) :
    (front ++ behind).dropWhile test = behind := by
  rw [List.dropWhile_append_of_pos run]
  cases behind with
  | nil => rfl
  | cons c rest => simp [stops c rfl]

theorem stops_dropWhile (test : Char → Bool) (text : Text) :
    ∀ c ∈ (text.dropWhile test).head?, test c = false := by
  intro c isFirst
  have stops := List.head?_dropWhile_not test text
  rw [Option.mem_def.1 isFirst] at stops
  exact stops

/-! ## Marks -/

/-- Behind `before` the mark comes for the first time. -/
def FirstBehind (mark before : Text) : Prop :=
  ∀ front behind, before ++ mark = front ++ mark ++ behind → behind = []

theorem firstBehind_nil : FirstBehind mark [] := by
  intro front behind same
  have lengths := congrArg List.length same
  simp only [List.length_append, List.length_nil] at lengths
  exact List.length_eq_zero_iff.1 (by omega)

theorem firstBehind_cons : FirstBehind mark (c :: before) ↔
    ¬ mark <+: c :: before ++ mark ∧ FirstBehind mark before := by
  constructor
  · intro first
    refine ⟨?_, fun front behind same => first (c :: front) behind (by simp [same])⟩
    rintro ⟨behind, same⟩
    have none := first [] behind same.symm
    have lengths := congrArg List.length same
    simp only [none, List.length_append, List.length_cons, List.length_nil] at lengths
    omega
  · rintro ⟨notAtStart, first⟩ front behind same
    cases front with
    | nil => exact absurd ⟨behind, same.symm⟩ notAtStart
    | cons d front => exact first front behind (List.cons.inj same).2

/-- Text without the first character of the mark puts off no occurrence of it. -/
theorem FirstBehind.append_left (nonempty : mark ≠ []) (free : ∀ c ∈ mark.head?, c ∉ front)
    (first : FirstBehind mark before) : FirstBehind mark (front ++ before) := by
  induction front with
  | nil => exact first
  | cons d front ih =>
    have rest := ih fun c isFirst => mt (List.mem_cons_of_mem d) (free c isFirst)
    refine firstBehind_cons.2 ⟨fun within => ?_, rest⟩
    obtain ⟨c, mark, rfl⟩ := List.exists_cons_of_ne_nil nonempty
    obtain ⟨behind, same⟩ := within
    exact free c rfl ((List.cons.inj same).1 ▸ List.mem_cons_self)

theorem isPrefixOf?_eq_none_iff : mark.isPrefixOf? text = none ↔ ¬ mark <+: text := by
  rw [Option.eq_none_iff_forall_ne_some, List.IsPrefix, not_exists]
  exact forall_congr' fun after => not_congr List.isPrefixOf?_eq_some_iff_append_eq

/-- A text is cut at the first occurrence of the mark. -/
theorem cut_eq_some_iff (nonempty : mark ≠ []) : cut mark text = some (before, after) ↔
    text = before ++ mark ++ after ∧ FirstBehind mark before := by
  induction text generalizing before with
  | nil => simp [cut, nonempty]
  | cons c rest ih =>
    unfold cut
    cases starts : mark.isPrefixOf? (c :: rest) with
    | some behindMark =>
      have atStart := List.append_eq_of_isPrefixOf?_eq_some starts
      constructor
      · intro found
        cases found
        exact ⟨atStart.symm, firstBehind_nil⟩
      · rintro ⟨split, first⟩
        cases before with
        | nil =>
          have whole : mark ++ behindMark = mark ++ after := atStart.trans split
          rw [List.append_cancel_left whole]
        | cons d inner =>
          -- The mark begins the text, so it also begins every longer part that ends in it.
          have within : mark <+: d :: inner ++ mark :=
            List.prefix_of_prefix_length_le ⟨behindMark, atStart⟩ ⟨after, split.symm⟩
              (by simp only [List.length_append, List.length_cons]; omega)
          exact absurd within (firstBehind_cons.1 first).1
    | none =>
      have notAtStart := isPrefixOf?_eq_none_iff.1 starts
      rw [Option.map_eq_some_iff]
      constructor
      · rintro ⟨⟨inner, tail⟩, found, same⟩
        cases same
        obtain ⟨rfl, first⟩ := ih.1 found
        refine ⟨rfl, firstBehind_cons.2 ⟨fun within => notAtStart ?_, first⟩⟩
        exact within.trans ⟨after, rfl⟩
      · rintro ⟨split, first⟩
        cases before with
        | nil => exact absurd ⟨after, split.symm⟩ notAtStart
        | cons d inner =>
          obtain ⟨rfl, later⟩ := List.cons.inj split
          exact ⟨(inner, after), ih.2 ⟨later, (firstBehind_cons.1 first).2⟩, rfl⟩

/-- A text cannot be cut where the mark does not occur. -/
theorem cut_eq_none_iff (nonempty : mark ≠ []) : cut mark text = none ↔ ¬ mark <:+: text := by
  induction text with
  | nil => simp [cut, nonempty]
  | cons c rest ih =>
    unfold cut
    cases starts : mark.isPrefixOf? (c :: rest) with
    | some after =>
      have within : mark <+: c :: rest := ⟨after, List.append_eq_of_isPrefixOf?_eq_some starts⟩
      simp [within.isInfix]
    | none =>
      have notAtStart := isPrefixOf?_eq_none_iff.1 starts
      simp [ih, List.infix_cons_iff, notAtStart]

/-! ## Blank ends -/

/-- `core` is the text without its blanks at both ends. -/
inductive Trims (text core : Text) : Prop where
  | ends (left right : Text) (split : text = left ++ core ++ right)
      (leftBlank : ∀ c ∈ left, isBlank c = true) (rightBlank : ∀ c ∈ right, isBlank c = true)
      (firstVisible : ∀ c ∈ core.head?, isBlank c = false)
      (lastVisible : ∀ c ∈ core.getLast?, isBlank c = false)

theorem trims_trim (text : Text) : Trims text (trim text) := by
  have front : text.takeWhile isBlank ++ text.dropWhile isBlank = text :=
    List.takeWhile_append_dropWhile
  have back : ((text.dropWhile isBlank).reverse.dropWhile isBlank).reverse
      ++ ((text.dropWhile isBlank).reverse.takeWhile isBlank).reverse
      = text.dropWhile isBlank := by
    rw [← List.reverse_append, List.takeWhile_append_dropWhile, List.reverse_reverse]
  refine .ends (text.takeWhile isBlank)
    ((text.dropWhile isBlank).reverse.takeWhile isBlank).reverse ?_ ?_ ?_ ?_ ?_
  · rw [trim, List.append_assoc, back, front]
  · exact fun c => List.mem_takeWhile_imp
  · exact fun c isIn => List.mem_takeWhile_imp (List.mem_reverse.1 isIn)
  · -- What is left after both cuts begins like what the first one leaves.
    intro c isFirst
    refine stops_dropWhile isBlank text c ?_
    rw [← back]
    exact List.mem_head?_append_of_mem_head? isFirst
  · intro c isLast
    rw [trim, List.getLast?_reverse] at isLast
    exact stops_dropWhile isBlank _ c isLast

theorem trim_eq_of_trims (trims : Trims text core) : trim text = core := by
  obtain ⟨left, right, rfl, leftBlank, rightBlank, firstVisible, lastVisible⟩ := trims
  have rightReversed : ∀ c ∈ right.reverse, isBlank c = true :=
    fun c isIn => rightBlank c (List.mem_reverse.1 isIn)
  by_cases empty : core = []
  · subst empty
    have allBlank : ∀ c ∈ left ++ [] ++ right, isBlank c = true := by
      simpa [or_imp, forall_and] using ⟨leftBlank, rightBlank⟩
    rw [trim, List.dropWhile_eq_nil_iff.2 allBlank]
    rfl
  · have start : ∀ c ∈ (core ++ right).head?, isBlank c = false := by
      rw [List.head?_append_of_ne_nil _ empty]
      exact firstVisible
    have stop : ∀ c ∈ core.reverse.head?, isBlank c = false := by
      rw [List.head?_reverse]
      exact lastVisible
    rw [trim, List.append_assoc, dropWhile_run leftBlank start, List.reverse_append,
      dropWhile_run rightReversed stop, List.reverse_reverse]

theorem trim_append (blank : ∀ c ∈ front, isBlank c = true) (text : Text) :
    trim (front ++ text) = trim text := by
  rw [trim, List.dropWhile_append_of_pos blank, trim]

/-! ## Byte lengths -/

@[simp] theorem byteLength_nil : byteLength [] = 0 := rfl

theorem byteLength_eq_zero : byteLength text = 0 ↔ text = [] := by
  cases text with
  | nil => simp
  | cons c rest =>
    have positive := c.utf8Size_pos
    simp only [byteLength, reduceCtorEq, iff_false]
    omega

theorem byteLength_pos (nonempty : text ≠ []) : 0 < byteLength text :=
  Nat.pos_of_ne_zero (mt byteLength_eq_zero.1 nonempty)

/-- Of two cuts of one text, the one with fewer bytes in front comes first. -/
theorem exists_middle_of_byteLength_le {front' behind' : Text}
    (same : front ++ behind = front' ++ behind') (shorter : byteLength front ≤ byteLength front') :
    ∃ middle, front' = front ++ middle ∧ behind = middle ++ behind' := by
  rcases List.append_eq_append_iff.1 same with ⟨middle, long, rest⟩ | ⟨extra, long, rest⟩
  · exact ⟨middle, long, rest⟩
  · rw [long, byteLength_append] at shorter
    have empty : extra = [] := byteLength_eq_zero.1 (by omega)
    subst empty
    exact ⟨[], by simpa using long.symm, by simpa using rest.symm⟩

end StaticSite.Text
