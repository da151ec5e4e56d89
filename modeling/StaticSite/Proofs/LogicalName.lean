import StaticSite.PathText

/-!
# Logical names

The names that a path text leads through are proper ones, and written between slashes they are a
path text that leads through the same names.  So a target is known by one logical name.
-/

namespace StaticSite

/-- Text that can be the name of an entry in a directory. -/
structure IsName (text : Text) : Prop where
  nonempty : text ≠ []
  notHere : text ≠ ['.']
  notUp : text ≠ ['.', '.']
  noSlash : '/' ∉ text

theorem isName_iff {text : Text} :
    IsName text ↔ text ≠ [] ∧ text ≠ ['.'] ∧ text ≠ ['.', '.'] ∧ '/' ∉ text :=
  ⟨fun ⟨nonempty, notHere, notUp, noSlash⟩ => ⟨nonempty, notHere, notUp, noSlash⟩,
    fun ⟨nonempty, notHere, notUp, noSlash⟩ => ⟨nonempty, notHere, notUp, noSlash⟩⟩

instance (text : Text) : Decidable (IsName text) :=
  decidable_of_iff _ isName_iff.symm

namespace PathText

theorem not_mem_of_mem_splitOn {mark : Char} {text piece : Text}
    (isPiece : piece ∈ text.splitOn mark) : mark ∉ piece := by
  induction text generalizing piece with
  | nil =>
      rw [List.splitOn_nil, List.mem_singleton] at isPiece
      rw [isPiece]
      exact List.not_mem_nil
  | cons c rest ih =>
      rw [List.splitOn_cons_eq_if_modifyHead] at isPiece
      obtain ⟨first, others, split⟩ := List.exists_cons_of_ne_nil (List.splitOn_ne_nil mark rest)
      rw [split] at isPiece ih
      split at isPiece
      · rcases List.mem_cons.1 isPiece with rfl | later
        · exact List.not_mem_nil
        · exact ih later
      · next different =>
          rw [List.modifyHead_cons] at isPiece
          rcases List.mem_cons.1 isPiece with rfl | later
          · intro isMark
            rcases List.mem_cons.1 isMark with same | later
            · exact different (beq_iff_eq.2 same.symm)
            · exact ih List.mem_cons_self later
          · exact ih (List.mem_cons_of_mem _ later)

theorem isName_of_part? {text piece name : Text} (isPiece : piece ∈ text.splitOn '/')
    (found : part? piece = some (.name name)) : IsName name := by
  unfold part? at found
  split at found
  · simp at found
  · next isPart =>
      split at found
      · simp at found
      · next notUp =>
          simp only [Option.some.injEq, PathPart.name.injEq] at found
          subst found
          exact ⟨fun empty => isPart (.inl empty), fun here => isPart (.inr here), notUp,
            not_mem_of_mem_splitOn isPiece⟩

theorem mem_pieces_of_mem_parts {path name : Text} (isPart : .name name ∈ parts path) :
    .name name ∈ (path.splitOn '/').filterMap part? := by
  simp only [parts] at isPart
  split at isPart
  · simpa only [List.mem_cons, reduceCtorEq, false_or] using isPart
  · split at isPart
    · simpa only [List.mem_cons, reduceCtorEq, false_or] using isPart
    · exact isPart

theorem isName_of_mem_parts {path name : Text} (isPart : .name name ∈ parts path) :
    IsName name := by
  obtain ⟨piece, isPiece, found⟩ := List.mem_filterMap.1 (mem_pieces_of_mem_parts isPart)
  exact isName_of_part? isPiece found

/-- Reducing keeps names that were there before or are among the parts. -/
theorem mem_or_mem_of_reduce {stack names : List Text} {parts : List PathPart} {name : Text}
    (reduced : reduce stack parts = some names) (isName : name ∈ names) :
    name ∈ stack ∨ .name name ∈ parts := by
  fun_induction reduce stack parts with
  | case1 stack =>
      cases reduced
      exact .inl isName
  | case2 stack text rest ih =>
      rcases ih reduced with known | later
      · rcases List.mem_cons.1 known with rfl | known
        · exact .inr List.mem_cons_self
        · exact .inl known
      · exact .inr (List.mem_cons_of_mem _ later)
  | case3 rest => cases reduced
  | case4 top stack rest ih =>
      rcases ih reduced with known | later
      · exact .inl (List.mem_cons_of_mem _ known)
      · exact .inr (List.mem_cons_of_mem _ later)
  | case5 stack rest ih =>
      exact (ih reduced).imp_right (List.mem_cons_of_mem _)
  | case6 stack rest ih =>
      exact (ih reduced).imp_right (List.mem_cons_of_mem _)

theorem isName_of_normalize? {path : Text} {names : List Text}
    (normal : normalize? path = some names) : ∀ name ∈ names, IsName name := by
  obtain ⟨stack, reduced, rfl⟩ := Option.map_eq_some_iff.1 normal
  intro name isName
  rcases mem_or_mem_of_reduce reduced (List.mem_reverse.1 isName) with known | isPart
  · exact absurd known List.not_mem_nil
  · exact isName_of_mem_parts isPart

/-! ## Names between slashes -/

theorem reduce_names (stack names : List Text) :
    reduce stack (names.map .name) = some (names.reverse ++ stack) := by
  induction names generalizing stack with
  | nil => rfl
  | cons name rest ih =>
      rw [List.map_cons, reduce, ih, List.reverse_cons, List.append_assoc]
      rfl

theorem part?_of_isName {name : Text} (proper : IsName name) :
    part? name = some (.name name) := by
  simp [part?, proper.nonempty, proper.notHere, proper.notUp]

theorem filterMap_part?_of_isName {names : List Text} (proper : ∀ name ∈ names, IsName name) :
    names.filterMap part? = names.map .name := by
  induction names with
  | nil => rfl
  | cons name rest ih =>
      rw [List.filterMap_cons_some (part?_of_isName (proper name List.mem_cons_self)),
        ih fun other isOther => proper other (List.mem_cons_of_mem _ isOther), List.map_cons]

theorem splitOn_join {names : List Text} (proper : ∀ name ∈ names, IsName name)
    (nonempty : names ≠ []) : (join names).splitOn '/' = names :=
  List.splitOn_intercalate '/' (fun name isName => (proper name isName).noSlash) nonempty

theorem isRooted_join {names : List Text} (proper : ∀ name ∈ names, IsName name) :
    isRooted (join names) = false := by
  cases names with
  | nil => rfl
  | cons name rest =>
      have first := proper name List.mem_cons_self
      obtain ⟨c, more, rfl⟩ := List.exists_cons_of_ne_nil first.nonempty
      have noSlash : c ≠ '/' := fun same => first.noSlash (same ▸ List.mem_cons_self)
      cases rest <;> simp [isRooted, join, List.intercalate_cons_cons, noSlash]

theorem parts_join {names : List Text} (proper : ∀ name ∈ names, IsName name) :
    parts (join names) = names.map .name := by
  by_cases nonempty : names = []
  · rw [nonempty]
    rfl
  · have notHere : names.head? ≠ some ['.'] := fun here =>
      (proper _ (List.mem_of_mem_head? here)).notHere rfl
    simp only [parts, isRooted_join proper, splitOn_join proper nonempty, notHere,
      filterMap_part?_of_isName proper, Bool.false_eq_true, if_false]

/-- Proper names between slashes are a path text that leads through these names. -/
theorem normalize?_join {names : List Text} (proper : ∀ name ∈ names, IsName name) :
    normalize? (join names) = some names := by
  simp [normalize?, parts_join proper, reduce_names]

end PathText

end StaticSite
