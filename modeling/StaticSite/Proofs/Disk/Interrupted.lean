import StaticSite.Proofs.Disk.Removing

/-!
# Operations that are stopped

The system can stop a write or a removal on its way.  A file then holds the front part of what was
written to it, and a directory what could not be removed from it.  An operation that comes to its
end all the same has done what it does when nothing stops it.
-/

namespace StaticSite.Disk

variable {disk after : Disk} {path place other : Path} {fault : Fault} {bytes : List UInt8}
  {trouble : WriteTrouble} {ending : PathEnding} {obstacle : Obstacle}

/-! ## Room -/

namespace Room

variable {α : Type} {items arrived : List α} {room : Room}

theorem take_eq_ok (taken : Room.take items room = (.ok (), arrived)) : arrived = items := by
  unfold Room.take at taken
  split at taken
  · cases taken
    rfl
  · split at taken <;> cases taken
    rfl

/-- What there is room for is a front part, and less than the whole. -/
theorem take_eq_error (taken : Room.take items room = (.error fault, arrived)) :
    ∃ count, room = some (count, fault) ∧ count < items.length ∧ arrived = items.take count := by
  unfold Room.take at taken
  split at taken
  · cases taken
  · next count fault' =>
    split at taken <;> cases taken
    exact ⟨count, rfl, ‹_›, rfl⟩

end Room

/-! ## Writing -/

/-- A write that comes to its end leaves all of the bytes. -/
theorem writeBytes_eq_ok (written : disk.writeBytes path bytes trouble = (.ok (), after)) :
    ∃ place opened, disk.openToWrite path = .ok (place, opened) ∧
      after = opened.put place (.file bytes) := by
  unfold writeBytes at written
  split at written
  · cases written
  · split at written
    · cases written
    · next place opened opening =>
      generalize taken : Room.take bytes trouble.room = outcome at written
      obtain ⟨result, arrived⟩ := outcome
      cases written
      rw [Room.take_eq_ok taken]
      exact ⟨place, opened, opening, rfl⟩

/-- The system lets all of the bytes be written. -/
def WriteTrouble.Allows (trouble : WriteTrouble) (bytes : List UInt8) : Prop :=
  trouble.opening = none ∧ ∀ count fault, trouble.room = some (count, fault) → bytes.length ≤ count

theorem WriteTrouble.allows_default (bytes : List UInt8) : WriteTrouble.Allows {} bytes :=
  ⟨rfl, nofun⟩

/-- How a write to the file at a place ends that the system stops: before the file is opened, or
behind a front part of the bytes. -/
inductive StopsWrite (disk : Disk) (place : Path) (bytes : List UInt8) (trouble : WriteTrouble)
    (fault : Fault) : Disk → Prop where
  | unopened (refused : trouble.opening = some fault) :
      StopsWrite disk place bytes trouble fault disk
  | cut {count : Nat} (opened : trouble.opening = none) (room : trouble.room = some (count, fault))
      (short : count < bytes.length) :
      StopsWrite disk place bytes trouble fault (disk.put place (.file (bytes.take count)))

section

variable (opens : disk.openToWrite path = .ok (place, disk))

include opens

/-- Writing to a file that is there succeeds exactly if the system lets it. -/
theorem writeBytes_eq_ok_iff : disk.writeBytes path bytes trouble = (.ok (), after) ↔
    trouble.Allows bytes ∧ after = disk.put place (.file bytes) := by
  unfold writeBytes WriteTrouble.Allows Room.take
  rw [opens]
  cases trouble.opening with
  | some fault => simp
  | none =>
    cases trouble.room with
    | none => simp [eq_comm]
    | some limit =>
      obtain ⟨count, fault⟩ := limit
      by_cases short : count < bytes.length
      · simp [short, Nat.not_le.2 short]
      · simp [short, Nat.not_lt.1 short, eq_comm]

theorem writeBytes_eq_error_iff : disk.writeBytes path bytes trouble = (.error fault, after) ↔
    disk.StopsWrite place bytes trouble fault after := by
  constructor
  · intro failed
    unfold writeBytes at failed
    rw [opens] at failed
    split at failed
    · next refused =>
      cases failed
      exact .unopened refused
    · next opened =>
      generalize taken : Room.take bytes trouble.room = outcome at failed
      obtain ⟨result, arrived⟩ := outcome
      cases failed
      obtain ⟨count, room, short, rfl⟩ := Room.take_eq_error taken
      exact .cut opened room short
  · intro stops
    unfold writeBytes
    cases stops with
    | unopened refused => rw [refused]
    | cut opened room short => simp only [opened, opens, room, Room.take, if_pos short]

end

/-! ## Removing -/

/-- A removal that comes to its end met with no obstacle. -/
theorem removeTree_of_ok {obstacle : Option Obstacle}
    (removed : disk.removeTree path ending obstacle = (.ok (), after)) :
    disk.removeTree path ending = (.ok (), after) := by
  cases obstacle with
  | none => exact removed
  | some obstacle =>
    unfold removeTree at removed
    split at removed <;> cases removed

theorem IsTree.prune (isTree : disk.IsTree) (place : Path) (kept : List Path) :
    (disk.prune place kept).IsTree := by
  intro row isRow
  obtain ⟨wasRow, stays⟩ := List.mem_filter.1 isRow
  rw [Bool.not_eq_true', ← Bool.not_eq_true, isPruned_eq_true] at stays
  have above : Path.parent row.1 <+: row.1 := List.dropLast_prefix _
  rw [entry?_prune, if_neg, isTree row wasRow]
  -- What the parent would go for is below it as well.
  rw [isPruned_eq_true]
  rintro ⟨below, different, goes⟩
  refine stays ⟨below.trans above, fun same => ?_,
    fun rest isKept within => goes rest isKept (above.trans within)⟩
  have shorter : row.1.length ≤ (Path.parent row.1).length := same ▸ below.length_le
  exact different ((above.eq_of_length_le shorter).trans same)

theorem empties_prune (disk : Disk) (place : Path) (kept : List Path) :
    disk.Empties (disk.prune place kept) place where
  outside other apart := by
    rw [entry?_prune, if_neg fun goes => apart (isPruned_eq_true.1 goes).1]
  within := prune_within disk place kept
  isTree isTree := isTree.prune place kept

/-- Whatever stops a removal, nothing has gone but from where the path leads. -/
theorem empties_of_removeTree_plain {above : Path} {name : Text} (disk : Disk)
    (obstacle : Option Obstacle) :
    (disk.removeTree (above ++ [name]) .plain obstacle).2 = disk ∨
      ∃ place, disk.placeOf (above ++ [name]) = .ok place ∧
        disk.Empties (disk.removeTree (above ++ [name]) .plain obstacle).2 place := by
  cases looked : disk.look (above ++ [name]) .plain with
  | error fault =>
    rw [removeTree, looked]
    exact .inl rfl
  | ok outcome =>
    obtain ⟨place, entry⟩ := outcome
    have found := placeOf_of_look looked
    have nonempty := ne_nil_of_placeOf_snoc found
    cases entry with
    | file bytes =>
      rw [removeTree, looked]
      exact .inl rfl
    | link target =>
      cases obstacle with
      | some obstacle =>
        rw [removeTree, looked]
        exact .inl rfl
      | none =>
        rw [removeTree_of_link looked]
        exact .inr ⟨place, found, empties_drop nonempty⟩
    | directory =>
      refine .inr ⟨place, found, ?_⟩
      cases obstacle with
      | some obstacle =>
        rw [removeTree, looked]
        exact empties_prune disk place obstacle.kept
      | none =>
        rcases removeTree_of_directory looked with cleared | ⟨dropped, _⟩
        · rw [cleared]
          exact empties_clear disk place
        · rw [dropped]
          exact empties_drop nonempty

/-- What is left differs exactly if something stood there that is not kept. -/
theorem prune_ne_self {kept : List Path} : disk.prune place kept ≠ disk ↔
    ∃ other entry, disk.entry? other = some entry ∧ isPruned place kept other = true := by
  constructor
  · intro changed
    by_contra nothing
    have stays : ∀ row ∈ disk.entries.rows, (!isPruned place kept row.1) = true := by
      intro row isRow
      rw [Bool.not_eq_true', ← Bool.not_eq_true]
      intro goes
      obtain ⟨below, different, _⟩ := isPruned_eq_true.1 goes
      have nonempty : row.1 ≠ [] := fun empty =>
        different (empty.trans (List.prefix_nil.1 (empty ▸ below)).symm)
      exact nothing ⟨row.1, row.2, (mem_rows_iff nonempty).1 isRow, goes⟩
    refine changed ?_
    unfold prune Table.filter
    congr 2
    exact List.filter_eq_self.2 stays
  · rintro ⟨other, entry, stands, goes⟩ same
    rw [← same, entry?_prune, if_pos goes] at stands
    cases stands

end StaticSite.Disk
