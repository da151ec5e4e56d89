import Mathlib.Data.List.Nodup
import StaticSite.Proofs.Disk.Changing

/-!
# Disks as trees

On a disk that is a tree every entry stands in a directory.  What is listed below a directory, and
what is found on a disk that a tree was placed on, is said by what stands at each path.
-/

namespace StaticSite

namespace Path

theorem prefix_parent_iff {path front : Path} (nonempty : path ≠ []) :
    front <+: path.parent ↔ front <+: path ∧ front ≠ path := by
  obtain ⟨above, name, rfl⟩ := (List.eq_nil_or_concat path).resolve_left nonempty
  rw [List.concat_eq_append, parent, List.dropLast_concat, List.prefix_concat_iff]
  constructor
  · intro within
    refine ⟨.inr within, ?_⟩
    rintro rfl
    have longer := within.length_le
    rw [List.length_append, List.length_singleton] at longer
    omega
  · rintro ⟨same | within, different⟩
    · exact absurd same different
    · exact within

/-- Paths into one directory are ordered like what they say behind it. -/
theorem lt_of_append_lt {base first second : Path} (before : base ++ first < base ++ second) :
    first < second := by
  induction base with
  | nil => exact before
  | cons name rest ih =>
    rcases List.cons_lt_cons_iff.1 before with less | ⟨_, later⟩
    · exact absurd less (List.lt_irrefl name)
    · exact ih later

end Path

namespace Table

variable {κ β : Type} [LT κ] [DecidableEq κ] [Std.Irrefl (α := κ) (· < ·)]

theorem mem_rows_iff {table : Table κ β} {key : κ} {value : β} :
    (key, value) ∈ table.rows ↔ table.get? key = some value := by
  have distinct : (table.rows.map (·.1)).Nodup := by
    refine List.pairwise_map.2 (table.increasing.imp ?_)
    intro first second before same
    exact Std.Irrefl.irrefl _ (same ▸ before)
  refine ⟨fun isRow => ?_, mem_rows_of_get?⟩
  cases found : table.get? key with
  | none =>
    have otherKey := List.find?_eq_none.1 (Option.map_eq_none_iff.1 found) _ isRow
    simp at otherKey
  | some held =>
    -- Rows of one key are the same row.
    have equal := List.inj_on_of_nodup_map distinct (mem_rows_of_get? found) isRow rfl
    rw [(Prod.mk.inj equal).2]

section

variable {κ' : Type} [LT κ'] [DecidableEq κ'] [DecidableLT κ']
  [Trans (α := κ') (· < ·) (· < ·) (· < ·)] [Std.Trichotomous (α := κ') (· < ·)]
  {rename : κ → κ'} {rows : List (κ × β)} {table : Table κ' β} {key : κ}

/-- Rows that are put into a table under other keys are found there. -/
theorem get?_insertAll (injective : ∀ key key', rename key = rename key' → key = key')
    (increasing : rows.Pairwise fun first second => first.1 < second.1) :
    (rows.foldl (fun acc row => acc.insert (rename row.1) row.2) table).get? (rename key)
      = ((rows.find? (·.1 = key)).map (·.2)).or (table.get? (rename key)) := by
  induction rows generalizing table with
  | nil => rfl
  | cons row rest ih =>
    obtain ⟨least, increasing⟩ := List.pairwise_cons.1 increasing
    rw [List.foldl_cons, ih increasing, get?_insert]
    by_cases same : key = row.1
    · subst same
      -- Keys increase, so that no later row has this one.
      have noOther : rest.find? (·.1 = row.1) = none := by
        rw [List.find?_eq_none]
        intro later isLater equal
        have before := least later isLater
        rw [of_decide_eq_true equal] at before
        exact Std.Irrefl.irrefl _ before
      simp [noOther]
    · have different : rename key ≠ rename row.1 := fun equal => same (injective _ _ equal)
      rw [if_neg different, List.find?_cons_of_neg (by simpa using Ne.symm same)]

omit [LT κ] [DecidableEq κ] [Std.Irrefl (α := κ) (· < ·)] in
theorem get?_insertAll_of_ne {other : κ'} (different : ∀ row ∈ rows, other ≠ rename row.1) :
    (rows.foldl (fun acc row => acc.insert (rename row.1) row.2) table).get? other
      = table.get? other := by
  induction rows generalizing table with
  | nil => rfl
  | cons row rest ih =>
    rw [List.foldl_cons, ih fun row isRow => different row (List.mem_cons_of_mem _ isRow),
      get?_insert, if_neg (different row List.mem_cons_self)]

end

end Table

namespace Disk

variable {disk tree : Disk} {path place other base front : Path} {entry : Entry}

theorem mem_rows_iff (nonempty : path ≠ []) :
    (path, entry) ∈ disk.entries.rows ↔ disk.entry? path = some entry := by
  unfold entry?
  rw [Table.mem_rows_iff, if_neg nonempty]

theorem get?_rooms {rooms : List Path} :
    (rooms.foldr (fun room (disk : Disk) => disk.put room .directory) disk).entries.get? path
      = if path ∈ rooms then some .directory else disk.entries.get? path := by
  induction rooms with
  | nil => rfl
  | cons room rest ih =>
    rw [List.foldr_cons, put, Table.get?_insert, ih]
    by_cases same : path = room
    · simp [same]
    · simp [same]

/-! ## What is below a directory -/

theorem mem_below : (path, entry) ∈ disk.below base ↔
    path ≠ [] ∧ disk.entry? (base ++ path) = some entry := by
  rw [below, List.mem_filterMap]
  constructor
  · rintro ⟨⟨full, held⟩, isRow, cut⟩
    dsimp only at cut
    split at cut
    · next name rest split =>
      cases cut
      have whole := List.append_eq_of_isPrefixOf?_eq_some split
      refine ⟨List.cons_ne_nil _ _, (mem_rows_iff (by simp)).1 ?_⟩
      rw [whole]
      exact isRow
    · cases cut
  · rintro ⟨nonempty, stands⟩
    refine ⟨(base ++ path, entry), (mem_rows_iff (by simp [nonempty])).2 stands, ?_⟩
    obtain ⟨name, rest, rfl⟩ := List.exists_cons_of_ne_nil nonempty
    have split : base.isPrefixOf? (base ++ name :: rest) = some (name :: rest) :=
      List.isPrefixOf?_eq_some_iff_append_eq.2 rfl
    dsimp only
    rw [split]

theorem pairwise_below (disk : Disk) (base : Path) :
    (disk.below base).Pairwise fun first second => first.1 < second.1 := by
  refine disk.entries.increasing.filterMap _ ?_
  intro row row' before first isFirst second isSecond
  dsimp only at isFirst isSecond
  split at isFirst
  · next name rest split =>
    split at isSecond
    · next name' rest' split' =>
      cases isFirst
      cases isSecond
      rw [← List.append_eq_of_isPrefixOf?_eq_some split,
        ← List.append_eq_of_isPrefixOf?_eq_some split'] at before
      exact Path.lt_of_append_lt before
    · cases isSecond
  · cases isFirst

/-! ## Trees -/

/-- Every entry stands in a directory. -/
def IsTree (disk : Disk) : Prop :=
  ∀ row ∈ disk.entries.rows, disk.entry? (Path.parent row.1) = some .directory

instance (disk : Disk) : Decidable disk.IsTree :=
  inferInstanceAs (Decidable (∀ row ∈ disk.entries.rows, _))

theorem IsTree.directory_above (isTree : disk.IsTree) (stands : disk.entry? path = some entry)
    (above : front <+: path) (different : front ≠ path) :
    disk.entry? front = some .directory := by
  obtain ⟨rest, rfl⟩ := above
  -- Going up from the path name by name, each parent is a directory.
  induction rest using List.reverseRecOn generalizing entry with
  | nil => exact absurd (List.append_nil front).symm different
  | append_singleton rest last ih =>
    rw [← List.append_assoc] at stands
    have parent := isTree _ (mem_rows_of_stands stands (by simp))
    rw [Path.parent, List.dropLast_concat] at parent
    by_cases empty : rest = []
    · rw [empty, List.append_nil] at parent
      exact parent
    · exact ih parent (by simpa using empty)

theorem IsTree.drop_of_free (isTree : disk.IsTree) (free : disk.entry? path = none) :
    disk.drop path = disk := by
  -- Where nothing stands there is nothing below, so no row is dropped.
  have kept : ∀ row ∈ disk.entries.rows, (!path.isPrefixOf row.1) = true := by
    rintro ⟨other, entry⟩ isRow
    rw [Bool.not_eq_true', ← Bool.not_eq_true, List.isPrefixOf_iff_prefix]
    intro above
    have nonempty : other ≠ [] := by
      rintro rfl
      exact nonempty_of_free free (List.prefix_nil.1 above)
    have stands := (mem_rows_iff nonempty).1 isRow
    have found : ∃ held, disk.entry? path = some held := by
      by_cases same : path = other
      · exact ⟨entry, same ▸ stands⟩
      · exact ⟨_, isTree.directory_above stands above same⟩
    obtain ⟨held, found⟩ := found
    rw [free] at found
    cases found
  unfold drop Table.filter
  congr 2
  exact List.filter_eq_self.2 kept

/-! ## A tree placed on a disk -/

/-- Below its place stands what the tree holds; the place itself is a directory. -/
theorem entry?_graft (nonempty : place ≠ []) : entry? (disk.graft place tree) (place ++ path)
    = (tree.entries.get? path).or
        (if path = [] then some .directory else disk.entry? (place ++ path)) := by
  have inside : place ++ path ≠ [] := by simp [nonempty]
  unfold entry?
  rw [if_neg inside, if_neg inside, graft,
    Table.get?_insertAll (fun _ _ same => List.append_cancel_left same) tree.entries.increasing,
    Table.get?_insert]
  simp only [List.append_right_eq_self, Table.get?]

/-- Where there was nothing below, a tree without an entry for its root stands as it is. -/
theorem entry?_graft_of_bare (nonempty : place ≠ []) (rootless : tree.entries.get? [] = none)
    (bare : ∀ path, path ≠ [] → disk.entry? (place ++ path) = none) :
    entry? (disk.graft place tree) (place ++ path) = tree.entry? path := by
  rw [entry?_graft nonempty]
  by_cases root : path = []
  · rw [if_pos root, root, rootless, Option.none_or, entry?_nil]
  · rw [if_neg root, bare path root, Option.or_none, entry?, if_neg root]

theorem entry?_graft_outside (outside : ¬ place <+: other) :
    entry? (disk.graft place tree) other = disk.entry? other := by
  unfold entry?
  by_cases root : other = []
  · rw [if_pos root, if_pos root]
  · have otherKey : ∀ row ∈ tree.entries.rows, other ≠ place ++ row.1 := by
      rintro row _ rfl
      exact outside (List.prefix_append _ _)
    rw [if_neg root, if_neg root, graft, Table.get?_insertAll_of_ne otherKey, Table.get?_insert,
      if_neg]
    rintro rfl
    exact outside List.prefix_rfl

theorem drop_within_graft (nonempty : place ≠ []) :
    (disk.drop place).Within ((disk.drop place).graft place tree) := by
  intro other held found
  rw [entry?_graft_outside, found]
  intro below
  rw [entry?_drop nonempty, if_pos below] at found
  cases found

end Disk

end StaticSite
