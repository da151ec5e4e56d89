import StaticSite.Proofs.Disk.Trees

/-!
# Removing a tree by its path

A tree is removed where its path leads, and that is not always where the path itself stands: behind
a slash a link is followed.  Whatever is removed, what is left is a tree again.
-/

namespace StaticSite.Disk

variable {disk removed : Disk} {path place other : Path} {target : Text}
  {ending : PathEnding} {entry : Entry}

/-! ## What is left is a tree -/

theorem IsTree.clear (isTree : disk.IsTree) (place : Path) : (disk.clear place).IsTree := by
  intro row isRow
  obtain ⟨wasRow, kept⟩ := List.mem_filter.1 isRow
  have isParent := isTree row wasRow
  rw [entry?_clear, if_neg, isParent]
  rintro ⟨below, different⟩
  -- The parent would be strictly below the place, and the row with it.
  have within : place <+: row.1 := below.trans (List.dropLast_prefix _)
  rw [Bool.or_eq_true, beq_iff_eq, List.isPrefixOf_iff_prefix.2 within] at kept
  rcases kept with impossible | same
  · cases impossible
  · have shorter := below.length_le
    rw [← same, Path.parent, List.length_dropLast] at shorter
    have empty : row.1 = [] := List.length_eq_zero_iff.1 (by omega)
    rw [← same, empty] at different
    exact different rfl

theorem IsTree.drop (isTree : disk.IsTree) (nonempty : place ≠ []) : (disk.drop place).IsTree := by
  intro row isRow
  obtain ⟨wasRow, kept⟩ := List.mem_filter.1 isRow
  rw [Bool.not_eq_true', ← Bool.not_eq_true, List.isPrefixOf_iff_prefix] at kept
  rw [entry?_drop nonempty, if_neg fun below => kept (below.trans (List.dropLast_prefix _))]
  exact isTree row wasRow

/-- Below what is missing there is nothing. -/
theorem IsTree.free_below (isTree : disk.IsTree) (free : disk.entry? place = none)
    (below : place <+: other) : disk.entry? other = none := by
  cases stands : disk.entry? other with
  | none => rfl
  | some entry =>
    by_cases same : place = other
    · rw [← same, free] at stands
      cases stands
    · rw [isTree.directory_above stands below same] at free
      cases free

/-! ## What goes -/

/-- Nothing has gone but from a place and below it. -/
structure Empties (disk left : Disk) (place : Path) : Prop where
  outside : ∀ other, ¬ place <+: other → left.entry? other = disk.entry? other
  within : left.Within disk
  isTree : disk.IsTree → left.IsTree

/-- What is left is as it was. -/
theorem Empties.entry?_eq_or {left : Disk} (empties : disk.Empties left place) (other : Path) :
    left.entry? other = disk.entry? other ∨ place <+: other ∧ left.entry? other = none := by
  by_cases below : place <+: other
  · cases stays : left.entry? other with
    | some entry => exact .inl (empties.within _ _ stays).symm
    | none => exact .inr ⟨below, rfl⟩
  · exact .inl (empties.outside other below)

theorem empties_refl (disk : Disk) (place : Path) : disk.Empties disk place :=
  ⟨fun _ _ => rfl, .refl disk, id⟩

theorem empties_clear (disk : Disk) (place : Path) : disk.Empties (disk.clear place) place where
  outside other apart := by rw [entry?_clear, if_neg fun below => apart below.1]
  within := clear_within disk place
  isTree isTree := isTree.clear place

theorem empties_drop (nonempty : place ≠ []) : disk.Empties (disk.drop place) place where
  outside other apart := by rw [entry?_drop nonempty, if_neg apart]
  within := drop_within nonempty
  isTree isTree := isTree.drop nonempty

/-! ## What a path leads through -/

/-- What is no link is looked up where it stands, whatever the ending. -/
theorem look_eq_ok_of_directory (found : disk.placeOf path = .ok place)
    (stands : disk.entry? place = some .directory) (ending : PathEnding) :
    disk.look path ending = .ok (place, .directory) := by
  have leads := resolve_of_placeOf found (.refl disk) stands nofun
  cases ending with
  | plain => exact look_of_placeOf found stands
  | slash | dot => rw [look, leads, Except.ok_bind, if_pos stands]

/-! ## What is removed -/

theorem removeDirectory_eq_ok (done : disk.removeDirectory path ending = .ok removed) :
    ∃ place, disk.placeOf path = .ok place ∧ disk.entry? place = some .directory ∧
      removed = disk.drop place := by
  cases ending with
  | dot =>
    obtain ⟨_, _, impossible⟩ := Except.bind_eq_ok.1 done
    cases impossible
  | plain | slash =>
    obtain ⟨place, found, done⟩ := Except.bind_eq_ok.1 done
    cases stands : disk.entry? place with
    | none =>
      rw [stands] at done
      cases done
    | some entry =>
      rw [stands] at done
      cases entry with
      | file | link => cases done
      | directory =>
        dsimp only at done
        split at done
        · cases done
          exact ⟨place, found, stands, rfl⟩
        · cases done

/-- A directory is emptied where it is found, and goes itself only from its own place. -/
theorem removeTree_of_directory (looked : disk.look path ending = .ok (place, .directory)) :
    (disk.removeTree path ending).2 = disk.clear place ∨
      (disk.removeTree path ending).2 = disk.drop place ∧ disk.placeOf path = .ok place := by
  unfold removeTree
  rw [looked]
  dsimp only
  split
  · next removed done =>
    right
    obtain ⟨other, found, stands, rfl⟩ := removeDirectory_eq_ok done
    have found' := placeOf_mono (clear_within disk place) found
    have stands' := clear_within disk place _ _ stands
    rw [look_eq_ok_of_directory found' stands' ending] at looked
    cases looked
    exact ⟨drop_clear disk place, found'⟩
  · exact .inl rfl
  · exact .inl rfl

theorem removeTree_of_link (looked : disk.look path ending = .ok (place, .link target)) :
    disk.removeTree path ending = (.ok (), disk.drop place) := by
  unfold removeTree
  rw [looked]

end StaticSite.Disk
