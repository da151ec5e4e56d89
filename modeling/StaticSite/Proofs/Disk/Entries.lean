import StaticSite.Disk

/-!
# Entries of changed disks

What stands at each path behind a change of a disk, and disks that hold everything that another
one holds.
-/

namespace StaticSite

namespace Path

theorem mem_climb {names : List Text} {front : Path} :
    front ∈ climb names ↔ front <+: names.reverse := by
  induction names with
  | nil => simp [climb]
  | cons name rest ih =>
    rw [climb, List.mem_cons, ih, List.reverse_cons, List.prefix_concat_iff]

theorem mem_ancestors {path front : Path} : front ∈ ancestors path ↔ front <+: path := by
  rw [ancestors, mem_climb, List.reverse_reverse]

end Path

namespace Table

variable {κ β : Type} [LT κ] [DecidableEq κ]

theorem find?_insertRow [DecidableLT κ] (key other : κ) (value : β) (rows : List (κ × β)) :
    ((insertRow key value rows).find? (·.1 = other)).map (·.2)
      = if other = key then some value else (rows.find? (·.1 = other)).map (·.2) := by
  induction rows with
  | nil =>
      by_cases same : other = key
      · simp [insertRow, same]
      · simp [insertRow, same, Ne.symm same]
  | cons row rest ih =>
      unfold insertRow
      by_cases same : other = key
      · -- The new row stands before every other row of its key.
        subst same
        split
        · simp
        · next different =>
            split
            · simp
            · rw [List.find?_cons_of_neg (by simpa using Ne.symm different), ih,
                if_pos rfl, if_pos rfl]
      · rw [if_neg same] at ih ⊢
        split
        · next replaced =>
            simp [Ne.symm same, ← replaced]
        · split
          · rw [List.find?_cons_of_neg (by simpa using Ne.symm same)]
          · rw [List.find?_cons, List.find?_cons]
            cases decide (row.1 = other) with
            | true => rfl
            | false => exact ih

theorem get?_insert [DecidableLT κ] [Trans (α := κ) (· < ·) (· < ·) (· < ·)]
    [Std.Trichotomous (α := κ) (· < ·)]
    (table : Table κ β) (key other : κ) (value : β) :
    (table.insert key value).get? other = if other = key then some value else table.get? other :=
  find?_insertRow key other value table.rows

theorem get?_filter (table : Table κ β) (keep : κ → Bool) (key : κ) :
    (table.filter fun other _ => keep other).get? key
      = if keep key then table.get? key else none := by
  simp only [get?, filter, List.find?_filter]
  split
  · next kept =>
      congr 2
      funext row
      by_cases same : row.1 = key
      · simp [same, kept]
      · simp [same]
  · next notKept =>
      rw [Option.map_eq_none_iff, List.find?_eq_none]
      intro row _ passes
      simp only [decide_eq_true_eq, Bool.decide_and, Bool.and_eq_true] at passes
      exact notKept (passes.2 ▸ passes.1)

theorem mem_rows_of_get? {table : Table κ β} {key : κ} {value : β}
    (found : table.get? key = some value) : (key, value) ∈ table.rows := by
  obtain ⟨row, isRow, rfl⟩ := Option.map_eq_some_iff.1 found
  have same := List.find?_some isRow
  rw [decide_eq_true_eq] at same
  exact same ▸ List.mem_of_find?_eq_some isRow

end Table

namespace Disk

variable {disk larger : Disk} {path other : Path} {entry : Entry}

@[simp] theorem entry?_nil (disk : Disk) : disk.entry? [] = some .directory := rfl

theorem entry?_put (nonempty : path ≠ []) : entry? (disk.put path entry) other
    = if other = path then some entry else disk.entry? other := by
  unfold entry?
  by_cases root : other = []
  · simp [root, Ne.symm nonempty]
  · rw [if_neg root, if_neg root, put, Table.get?_insert]

@[simp] theorem entry?_put_self (nonempty : path ≠ []) :
    entry? (disk.put path entry) path = some entry := by
  rw [entry?_put nonempty, if_pos rfl]

theorem entry?_put_of_ne (different : other ≠ path) :
    entry? (disk.put path entry) other = disk.entry? other := by
  unfold entry?
  by_cases root : other = []
  · rw [if_pos root, if_pos root]
  · rw [if_neg root, if_neg root, put, Table.get?_insert, if_neg different]

theorem entry?_drop (nonempty : path ≠ []) : entry? (disk.drop path) other
    = if path <+: other then none else disk.entry? other := by
  unfold entry?
  by_cases root : other = []
  · simp [root, nonempty]
  · rw [if_neg root, if_neg root, drop, Table.get?_filter _ fun other => !path.isPrefixOf other]
    simp [← Bool.not_eq_true, List.isPrefixOf_iff_prefix]

theorem free_drop (disk : Disk) (nonempty : path ≠ []) : entry? (disk.drop path) path = none := by
  rw [entry?_drop nonempty, if_pos List.prefix_rfl]

theorem entry?_clear : entry? (disk.clear path) other
    = if path <+: other ∧ other ≠ path then none else disk.entry? other := by
  unfold entry?
  by_cases root : other = []
  · have notBelow : ¬ (path <+: other ∧ other ≠ path) := by
      rintro ⟨above, different⟩
      rw [root] at above different
      exact different (List.prefix_nil.1 above).symm
    rw [if_pos root, if_pos root, if_neg notBelow]
  · rw [if_neg root, if_neg root, clear,
      Table.get?_filter _ fun other => !path.isPrefixOf other || other == path]
    by_cases above : path <+: other
    · by_cases same : other = path
      · simp [same]
      · simp [above, same, ← Bool.not_eq_true, List.isPrefixOf_iff_prefix]
    · simp [above, ← Bool.not_eq_true, List.isPrefixOf_iff_prefix]

theorem isPruned_eq_true {kept : List Path} : isPruned path kept other = true ↔
    path <+: other ∧ other ≠ path ∧ ∀ rest ∈ kept, ¬ other <+: path ++ rest := by
  simp [isPruned, List.isPrefixOf_iff_prefix, ← Bool.not_eq_true, and_assoc]

theorem entry?_prune {kept : List Path} : entry? (disk.prune path kept) other
    = if isPruned path kept other then none else disk.entry? other := by
  unfold entry?
  by_cases root : other = []
  · have stays : ¬ isPruned path kept other = true := by
      rw [isPruned_eq_true, root]
      rintro ⟨above, different, _⟩
      exact different (List.prefix_nil.1 above).symm
    rw [if_pos root, if_pos root, if_neg stays]
  · rw [if_neg root, if_neg root, prune, Table.get?_filter _ fun other => !isPruned path kept other]
    cases isPruned path kept other <;> rfl

theorem holdsFile_eq_true : disk.holdsFile path = true ↔
    ∃ bytes, disk.entry? path = some (.file bytes) := by
  unfold holdsFile
  split
  · next bytes stands => simp [stands]
  · next noFile => simpa using noFile

theorem mem_rows_of_stands {entry : Entry} (found : disk.entry? path = some entry)
    (nonempty : path ≠ []) : (path, entry) ∈ disk.entries.rows := by
  unfold entry? at found
  rw [if_neg nonempty] at found
  exact Table.mem_rows_of_get? found

/-- `larger` holds what `disk` holds, and maybe more. -/
def Within (disk larger : Disk) : Prop :=
  ∀ path entry, disk.entry? path = some entry → larger.entry? path = some entry

theorem Within.refl (disk : Disk) : disk.Within disk :=
  fun _ _ found => found

theorem Within.trans {first second third : Disk} (left : first.Within second)
    (right : second.Within third) : first.Within third :=
  fun path entry found => right path entry (left path entry found)

theorem Within.free {larger : Disk} (within : disk.Within larger)
    (free : larger.entry? path = none) : disk.entry? path = none := by
  cases found : disk.entry? path with
  | none => rfl
  | some entry =>
    rw [within _ _ found] at free
    cases free

theorem within_put (free : disk.entry? path = none) : disk.Within (disk.put path entry) := by
  intro other held found
  have different : other ≠ path := by
    rintro rfl
    rw [free] at found
    cases found
  rw [entry?_put_of_ne different, found]

theorem drop_within_clear (nonempty : path ≠ []) : (disk.drop path).Within (disk.clear path) := by
  intro other held found
  rw [entry?_drop nonempty] at found
  rw [entry?_clear]
  split at found
  · cases found
  · next notBelow =>
      rwa [if_neg fun below => notBelow below.1]

theorem clear_within (disk : Disk) (path : Path) : (disk.clear path).Within disk := by
  intro other held found
  rw [entry?_clear] at found
  split at found
  · cases found
  · exact found

theorem prune_within (disk : Disk) (path : Path) (kept : List Path) :
    (disk.prune path kept).Within disk := by
  intro other held found
  rw [entry?_prune] at found
  split at found
  · cases found
  · exact found

end Disk

end StaticSite
