import Mathlib.Data.List.Sort
import StaticSite.Proofs.Disk.Spelling
import StaticSite.Proofs.Disk.Trees

/-!
# Rooms of a directory

Some entries of a directory are set apart as rooms.  Disks that hold the same outside the rooms,
with no links below the directory, cannot be told apart by look-ups that stay outside.
-/

namespace StaticSite.Disk

/-- The path does not lead into one of the rooms of the directory at `root`. -/
def Outside (root : Path) (rooms : List Text) (path : Path) : Prop :=
  ∀ room ∈ rooms, ¬ root ++ [room] <+: path

/-- The disks hold the same outside the rooms of the directory at `root`. -/
def AgreesOutside (first second : Disk) (root : Path) (rooms : List Text) : Prop :=
  ∀ path, Outside root rooms path → first.entry? path = second.entry? path

/-- The names do not begin with a room. -/
def Unlisted (rooms : List Text) (names : List Text) : Prop :=
  ∀ name ∈ names.head?, name ∉ rooms

variable {first second : Disk} {front root path place : Path} {name : Text}
  {rooms names : List Text} {links left : Nat}

theorem outside_of_front (isFront : path <+: root) : Outside root rooms path := by
  intro room _ within
  have longer := (within.trans isFront).length_le
  rw [List.length_append, List.length_singleton] at longer
  omega

theorem outside_append (unlisted : Unlisted rooms names) : Outside root rooms (root ++ names) := by
  intro room isRoom within
  rw [List.prefix_append_right_inj] at within
  obtain ⟨rest, rfl⟩ := within
  exact unlisted room rfl isRoom

theorem unlisted_nil : Unlisted rooms [] := by
  intro name isFirst
  cases isFirst

theorem unlisted_cons (outside : name ∉ rooms) (names : List Text) :
    Unlisted rooms (name :: names) := by
  intro first isFirst
  cases isFirst
  exact outside

theorem Unlisted.mono {more : List Text} (unlisted : Unlisted rooms names)
    (isFront : more <+: names) : Unlisted rooms more := by
  obtain ⟨rest, rfl⟩ := isFront
  intro name isFirst
  exact unlisted name (List.mem_head?_append_of_mem_head? isFirst)

theorem AgreesOutside.trans {third : Disk} (agrees : first.AgreesOutside second root rooms)
    (agrees' : second.AgreesOutside third root rooms) : first.AgreesOutside third root rooms :=
  fun path outside => (agrees path outside).trans (agrees' path outside)

/-- Along `front` both disks lead to the directory at `root`, following as many links, and spell it
in the same way.  Outside the rooms there they hold the same, and no links at or below the
directory. -/
structure SharesRoot (first second : Disk) (front root : Path) (rooms : List Text) : Prop where
  agrees : first.AgreesOutside second root rooms
  linkFree : first.LinkFree root
  reached : ∃ left, first.Leads maxLinks (front.map .enter) [] left root ∧
    second.Leads maxLinks (front.map .enter) [] left root
  spelled : first.canonical front = second.canonical front

/-- From a canonical path on, what is outside the rooms is spelled in the same way. -/
theorem AgreesOutside.canonical_eq (agrees : first.AgreesOutside second root rooms)
    (linkFree : first.LinkFree root) (isCanonical : first.IsCanonical root)
    (unlisted : Unlisted rooms names) :
    first.canonical (root ++ names) = second.canonical (root ++ names) := by
  rw [canonical, canonical, spell_eq_of_unlinked]
  · intro front nonempty isFront target
    rw [List.nil_append]
    rcases List.prefix_or_prefix_of_prefix isFront (List.prefix_append root names) with
      isAbove | isBelow
    · obtain ⟨above, name, rfl⟩ := List.eq_nil_or_concat front |>.resolve_left nonempty
      rw [List.concat_eq_append] at isAbove ⊢
      obtain ⟨_, _, entry, stands, noLink⟩ := isCanonical above name isAbove
      rw [stands]
      exact fun same => noLink target (Option.some.inj same)
    · exact linkFree.not_link isBelow target
  · intro front isFront
    rw [List.nil_append]
    rcases List.prefix_or_prefix_of_prefix isFront (List.prefix_append root names) with
      isAbove | ⟨more, rfl⟩
    · exact agrees _ (outside_of_front isAbove)
    · exact agrees _ (outside_append (unlisted.mono ((List.prefix_append_right_inj _).1 isFront)))

/-- Without links a look-up by names goes the same way as long as it is outside the rooms. -/
theorem follow_eq_of_agreesOutside {here : Path} (agrees : first.AgreesOutside second root rooms)
    (linkFree : first.LinkFree root) (within : root <+: here)
    (outside : ∀ more, more <+: names → Outside root rooms (here ++ more)) :
    first.follow false links (names.map .enter) here
      = second.follow false links (names.map .enter) here := by
  induction names generalizing here with
  | nil => rw [List.map_nil, Disk.follow, Disk.follow]
  | cons name rest ih =>
    have deeper : root <+: here ++ [name] := within.trans (List.prefix_append _ _)
    have sameHere : first.entry? here = second.entry? here :=
      agrees _ (by simpa using outside [] List.nil_prefix)
    have sameNext : first.entry? (here ++ [name]) = second.entry? (here ++ [name]) :=
      agrees _ (outside [name] ⟨rest, rfl⟩)
    have sameRest := ih deeper fun more isFront => by
      simpa using outside (name :: more) (List.cons_prefix_cons.2 ⟨rfl, isFront⟩)
    by_cases inside : first.entry? here = some .directory
    · by_cases long : maxNameBytes < Text.byteLength name
      · simp [Disk.follow, inside, sameHere ▸ inside, long]
      · cases found : first.entry? (here ++ [name]) with
        | none => simp [Disk.follow, inside, sameHere ▸ inside, long, found, sameNext ▸ found]
        | some entry =>
          cases entry with
          | link target => exact absurd found (linkFree.not_link deeper target)
          | directory | file =>
            simpa [Disk.follow, inside, sameHere ▸ inside, long, found, sameNext ▸ found]
              using sameRest
    · simp [Disk.follow, inside, sameHere ▸ inside]

namespace SharesRoot

variable (shares : first.SharesRoot second front root rooms)

include shares

/-- Without links nothing leads elsewhere than its names say. -/
theorem eq_append (leads : first.resolve (front ++ names) = .ok place) :
    place = root ++ names := by
  obtain ⟨left, reached, _⟩ := shares.reached
  exact reached.place_eq_append leads (shares.linkFree.unlinked names)

variable (unlisted : Unlisted rooms names)

include unlisted

theorem resolve_eq : first.resolve (front ++ names) = second.resolve (front ++ names) := by
  obtain ⟨left, reached, reached'⟩ := shares.reached
  by_cases characters : '\x00' ∈ Path.text (front ++ names)
  · simp [resolve, checkCharacters, characters]
  · by_cases empty : names = []
    · subst empty
      rw [List.append_nil, resolve, resolve, reached.follow, reached'.follow]
    · rw [resolve_append_eq reached empty characters,
        resolve_append_eq reached' empty characters]
      exact follow_eq_of_agreesOutside shares.agrees shares.linkFree List.prefix_rfl
        fun more isFront => outside_append (unlisted.mono isFront)

theorem find_eq : first.find (front ++ names) = second.find (front ++ names) := by
  rw [find, find, ← shares.resolve_eq unlisted]
  refine Except.bind_congr fun _ _ => Except.bind_congr fun place leads => ?_
  rw [shares.eq_append leads, shares.agrees _ (outside_append unlisted)]

theorem isFile_eq : first.isFile (front ++ names) = second.isFile (front ++ names) := by
  simp only [isFile, shares.find_eq unlisted]

theorem isDirectory_eq :
    first.isDirectory (front ++ names) = second.isDirectory (front ++ names) := by
  simp only [isDirectory, shares.find_eq unlisted]

theorem exists?_eq : first.exists? (front ++ names) = second.exists? (front ++ names) := by
  simp only [exists?, shares.find_eq unlisted]

theorem readText_eq : first.readText (front ++ names) = second.readText (front ++ names) := by
  simp only [readText, readBytes, shares.find_eq unlisted]

theorem readSource_eq : first.readSource (front ++ names) = second.readSource (front ++ names) := by
  simp only [readSource, readBytes, shares.find_eq unlisted]

end SharesRoot

/-- Directories that hold the same are listed in the same way. -/
theorem below_eq_of_entries {base base' : Path}
    (same : ∀ path, first.entry? (base ++ path) = second.entry? (base' ++ path)) :
    first.below base = second.below base' := by
  have members : ∀ row, row ∈ first.below base ↔ row ∈ second.below base' := by
    rintro ⟨path, entry⟩
    rw [mem_below, mem_below, same]
  -- Both lists are in path order, so that their members tell them apart.
  have : Std.Irrefl fun row row' : Path × Entry => row.1 < row'.1 :=
    ⟨fun row => Std.Irrefl.irrefl row.1⟩
  have : Std.Antisymm fun row row' : Path × Entry => row.1 < row'.1 :=
    ⟨fun row row' before after => absurd (Trans.trans before after) (Std.Irrefl.irrefl row.1)⟩
  exact (pairwise_below first _).eq_of_mem_iff (pairwise_below second _) members

/-- What is below a directory outside the rooms is listed in the same way. -/
theorem AgreesOutside.below_eq (agrees : first.AgreesOutside second root rooms)
    (unlisted : Unlisted rooms names) (nonempty : names ≠ []) :
    first.below (root ++ names) = second.below (root ++ names) := by
  refine below_eq_of_entries fun path => ?_
  rw [List.append_assoc]
  refine agrees _ (outside_append fun name isFirst => unlisted name ?_)
  rwa [List.head?_append_of_ne_nil _ nonempty] at isFirst

end StaticSite.Disk
