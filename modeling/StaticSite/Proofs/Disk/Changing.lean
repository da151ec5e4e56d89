import Mathlib.Data.List.Infix
import StaticSite.Disk.Change
import StaticSite.Proofs.Disk.Looking

/-!
# What changes of the disk do

Making directories and files only adds what was missing.  Removing a tree takes away what is below
its place, and a path may lead through that to the place itself: then it is cut off.
-/

namespace StaticSite.Disk

/-! ## Adding -/

/-- `larger` holds what `disk` holds, and what is new stands where a wanted path leads. -/
structure Grows (disk larger : Disk) (wanted : Path → Entry → Prop) : Prop where
  within : disk.Within larger
  new : ∀ place entry, larger.entry? place = some entry → disk.entry? place = none →
    ∃ path, wanted path entry ∧ larger.resolve path = .ok place

variable {disk made larger : Disk} {path place above : Path} {name : Text} {entry : Entry}
  {wanted wanted' : Path → Entry → Prop}

namespace Grows

theorem refl (disk : Disk) (wanted : Path → Entry → Prop) : disk.Grows disk wanted where
  within := .refl disk
  new place entry found free := by
    rw [free] at found
    cases found

theorem trans (first : disk.Grows made wanted) (second : made.Grows larger wanted) :
    disk.Grows larger wanted where
  within := first.within.trans second.within
  new place entry found free := by
    cases earlier : made.entry? place with
    | none => exact second.new place entry found earlier
    | some held =>
        -- What the first change made is still there, and paths lead where they led.
        have kept := second.within place held earlier
        rw [found] at kept
        cases kept
        obtain ⟨path, isWanted, leads⟩ := first.new place entry earlier free
        exact ⟨path, isWanted, resolve_mono second.within leads⟩

theorem weaken (grows : disk.Grows larger wanted)
    (wider : ∀ path entry, wanted path entry → wanted' path entry) : disk.Grows larger wanted' where
  within := grows.within
  new place entry found free := by
    obtain ⟨path, isWanted, leads⟩ := grows.new place entry found free
    exact ⟨path, wider path entry isWanted, leads⟩

end Grows

theorem nonempty_of_free (free : disk.entry? place = none) : place ≠ [] := by
  rintro rfl
  cases free

theorem grows_put (free : disk.entry? place = none) (isWanted : wanted path entry)
    (leads : (disk.put place entry).resolve path = .ok place) :
    disk.Grows (disk.put place entry) wanted where
  within := within_put free
  new other held found missing := by
    by_cases same : other = place
    · rw [same, entry?_put_self (nonempty_of_free free)] at found
      cases found
      exact ⟨path, isWanted, same ▸ leads⟩
    · rw [entry?_put_of_ne same, missing] at found
      cases found

/-- Only a free place can become a directory, and none that is named with a dot. -/
theorem makeDirectory_eq_ok {ending : PathEnding} : disk.makeDirectory path ending = .ok made ↔
    ending ≠ .dot ∧ ∃ place, disk.placeOf path = .ok place ∧ disk.entry? place = none ∧
      made = disk.put place .directory := by
  cases ending with
  | dot => simp [makeDirectory, Except.bind_eq_ok]
  | plain | slash =>
    simp only [makeDirectory, Except.bind_eq_ok, ne_eq, reduceCtorEq, not_false_eq_true, true_and]
    refine exists_congr fun place => and_congr_right fun _ => ?_
    cases disk.entry? place <;> simp [eq_comm]

/-- What succeeds although something could be refused succeeds if nothing is. -/
theorem ensureDirectory_of_refusal {refusal : Option Fault}
    (ensured : disk.ensureDirectory path refusal = .ok made) :
    disk.ensureDirectory path = .ok made := by
  unfold ensureDirectory at ensured ⊢
  split at ensured
  · cases refusal with
    | none => exact ensured
    | some fault => cases ensured
  · exact ensured

/-- What fails on its own account fails in the same way if it could be refused as well. -/
theorem ensureDirectory_error_of_refusal {refusal : Option Fault} {fault fault' : Fault}
    (failed : disk.ensureDirectory path refusal = .error fault)
    (failed' : disk.ensureDirectory path = .error fault') : fault' = fault := by
  unfold ensureDirectory at failed failed'
  split at failed
  · next making =>
    rw [making] at failed'
    cases failed'
  · next making =>
    rw [making] at failed'
    exact Except.error.inj (failed'.symm.trans failed)

theorem ensureDirectory_grows (ensured : disk.ensureDirectory path = .ok made) :
    disk.Grows made fun other entry => other = path ∧ entry = .directory := by
  unfold ensureDirectory at ensured
  split at ensured
  · next created making =>
      cases ensured
      obtain ⟨_, place, found, free, rfl⟩ := makeDirectory_eq_ok.1 making
      have standing : entry? (disk.put place .directory) place = some .directory :=
        entry?_put_self (nonempty_of_free free)
      exact grows_put free ⟨rfl, rfl⟩ (resolve_of_placeOf found (within_put free) standing
        (by simp))
  · split at ensured
    · cases ensured
      exact .refl _ _
    · cases ensured

/-- Directories are made at the path and above it, and those made before a fault stay. -/
theorem makeClimbing_grows (disk : Disk) (names : List Text) (refused : Path → Option Fault) :
    disk.Grows (disk.makeClimbing names refused).2 fun other entry =>
      other <+: names.reverse ∧ entry = .directory := by
  have here : ∀ {disk made : Disk} {name : Text} {above : List Text} {refusal : Option Fault},
      disk.ensureDirectory (name :: above).reverse refusal = .ok made →
      disk.Grows made fun other entry =>
        other <+: (name :: above).reverse ∧ entry = .directory := by
    intro disk made name above refusal ensured
    refine (ensureDirectory_grows (ensureDirectory_of_refusal ensured)).weaken ?_
    rintro other entry ⟨rfl, rfl⟩
    exact ⟨List.prefix_rfl, rfl⟩
  induction names with
  | nil => exact .refl _ _
  | cons name above ih =>
      unfold makeClimbing
      dsimp only
      split
      · next made ensured => exact here ensured
      · next missing =>
          have further : disk.Grows (disk.makeClimbing above refused).2 fun other entry =>
              other <+: (name :: above).reverse ∧ entry = .directory := by
            refine ih.weaken ?_
            rintro other entry ⟨isFront, rfl⟩
            rw [List.reverse_cons]
            exact ⟨isFront.trans (List.prefix_append _ _), rfl⟩
          -- What is above comes first, and stays even if the directory itself is refused.
          split
          · next fault partly climbed =>
              rw [climbed] at further
              exact further
          · next ready climbed =>
              rw [climbed] at further
              split
              · next made ensured => exact further.trans (here ensured)
              · exact further
      · exact .refl _ _

theorem makeDirectories_grows (disk : Disk) (path : Path)
    (refused : Path → Option Fault := fun _ => none) :
    disk.Grows (disk.makeDirectories path refused).2 fun other entry =>
      other <+: path ∧ entry = .directory := by
  have grows := makeClimbing_grows disk path.reverse refused
  rwa [List.reverse_reverse] at grows

theorem openToWrite_grows (opened : disk.openToWrite path = .ok (place, made)) :
    disk.Grows made fun other entry => other = path ∧ entry = .file [] := by
  obtain ⟨target, located, opened⟩ := Except.bind_eq_ok.1 opened
  obtain ⟨checked, followed⟩ := Except.check_bind_eq_ok.1 located
  cases stands : disk.entry? target with
  | none =>
      rw [stands] at opened
      cases opened
      have standing : entry? (disk.put place (.file [])) place = some (.file []) :=
        entry?_put_self (nonempty_of_free stands)
      obtain ⟨left, leads⟩ := leads_of_follow_within followed (within_put stands) fun _ =>
        ⟨_, standing, by simp⟩
      exact grows_put stands ⟨rfl, rfl⟩
        (resolve_eq_ok.2 ⟨(checkPathText_eq_ok.1 checked).1, leads.follow⟩)
  | some entry =>
      rw [stands] at opened
      cases entry with
      | file bytes =>
          cases opened
          exact .refl _ _
      | directory | link => cases opened

/-! ## Removing -/

/-- The path leads to a directory or link through what stands in that place, so that it leads
nowhere once the place is emptied. -/
def CutsOff (disk : Disk) (path : Path) : Prop :=
  disk.exists? path = true ∧ ∃ place fault, disk.placeOf path = .ok place ∧
    disk.holdsFile place = false ∧ (disk.drop place).placeOf path = .error fault

theorem exists?_eq_true : disk.exists? path = true ↔ ∃ entry, disk.find path = .ok entry := by
  unfold exists?
  cases disk.find path <;> simp [Except.isOk, Except.toBool]

/-- What is found stands in its place, if only as a link. -/
theorem placeOf_of_find (found : disk.find path = .ok entry) :
    ∃ place standing, disk.placeOf path = .ok place ∧ disk.entry? place = some standing := by
  rcases List.eq_nil_or_concat path with rfl | ⟨above, name, rfl⟩
  · exact ⟨[], .directory, placeOf_nil_eq_ok.2 rfl, rfl⟩
  · rw [List.concat_eq_append] at found ⊢
    obtain ⟨checked, goal, canonical, _⟩ := find_eq_ok.1 found
    obtain ⟨left, whole⟩ := follow_eq_ok.1 (resolve_eq_ok.1 canonical).2
    rw [List.map_append] at whole
    obtain ⟨between, parent, front, behind⟩ := whole.split
    cases behind with
    | enter inside short stands _ _ =>
      exact ⟨_, _, placeOf_snoc_eq_ok.2 ⟨checked, parent, front.follow, inside, short, rfl⟩,
        stands⟩
    | link inside short stands _ =>
      exact ⟨_, _, placeOf_snoc_eq_ok.2 ⟨checked, parent, front.follow, inside, short, rfl⟩,
        stands⟩

theorem stands_of_exists? (there : disk.exists? path = true)
    (found : disk.placeOf path = .ok place) : ∃ entry, disk.entry? place = some entry := by
  obtain ⟨_, isThere⟩ := exists?_eq_true.1 there
  obtain ⟨_, standing, found', stands⟩ := placeOf_of_find isThere
  rw [found] at found'
  cases found'
  exact ⟨standing, stands⟩

theorem drop_within (nonempty : place ≠ []) : (disk.drop place).Within disk :=
  (drop_within_clear nonempty).trans (clear_within disk place)

theorem drop_clear (disk : Disk) (place : Path) :
    (disk.clear place).drop place = disk.drop place := by
  unfold drop clear Table.filter
  simp only [List.filter_filter]
  congr 2
  refine List.filter_congr fun row _ => ?_
  cases place.isPrefixOf row.1 <;> rfl

theorem below_clear (disk : Disk) (place : Path) : (disk.clear place).below place = [] := by
  refine List.filterMap_eq_nil_iff.2 fun row isRow => ?_
  obtain ⟨_, kept⟩ := List.mem_filter.1 isRow
  dsimp only
  split
  · next name rest split =>
      have whole := List.append_eq_of_isPrefixOf?_eq_some split
      have above : place.isPrefixOf row.1 = true :=
        List.isPrefixOf_iff_prefix.2 ⟨name :: rest, whole⟩
      have different : row.1 ≠ place := fun same => by simp [same] at whole
      simp [above, different] at kept
  · rfl

theorem removeTree_of_error {fault : Fault} (lost : disk.placeOf path = .error fault) :
    disk.removeTree path .plain = (.error fault, disk) := by
  have looked : disk.look path .plain = .error fault := by
    rw [look, lost, Except.error_bind]
  simp only [removeTree, looked]

theorem removeTree_file (found : disk.placeOf path = .ok place)
    (isFile : disk.holdsFile place = true) :
    disk.removeTree path .plain = (.error .notDirectory, disk) := by
  obtain ⟨_, stands⟩ := holdsFile_eq_true.1 isFile
  simp only [removeTree, look_of_placeOf found stands]

/-- Emptying a directory may make its path lead nowhere.  If it does not, the directory goes too.
A link goes at once. -/
theorem removeTree_plain (found : disk.placeOf path = .ok place)
    (stands : disk.entry? place = some entry) (notFile : disk.holdsFile place = false) :
    disk.removeTree path .plain = (.ok (), disk.drop place) ∨
      ∃ fault, (disk.clear place).placeOf path = .error fault ∧
        (disk.removeTree path .plain).2 = disk.clear place := by
  have looked := look_of_placeOf found stands
  cases entry with
  | file bytes => simp [holdsFile, stands] at notFile
  | link target => exact .inl (by simp only [removeTree, looked])
  | directory =>
      cases again : (disk.clear place).placeOf path with
      | ok other =>
          obtain rfl := place_eq_of_within (clear_within disk place) again found
          have kept : entry? (disk.clear other) other = some .directory := by
            rw [entry?_clear, if_neg (fun below => below.2 rfl), stands]
          have removed : (disk.clear other).removeDirectory path .plain
              = .ok (disk.drop other) := by
            rw [removeDirectory, again, Except.ok_bind, kept]
            simp only [below_clear, List.isEmpty_nil, if_true, drop_clear]
          exact .inl (by simp only [removeTree, looked, removed])
      | error fault =>
          refine .inr ⟨fault, rfl, ?_⟩
          have refused : (disk.clear place).removeDirectory path .plain = .error fault := by
            rw [removeDirectory, again, Except.error_bind]
          simp only [removeTree, looked, refused]
          cases fault <;> rfl

theorem moveTreeTo_of_free {tree : Disk} (found : disk.placeOf path = .ok place)
    (free : disk.entry? place = none) :
    disk.moveTreeTo path tree = .ok (disk.graft place tree) := by
  rw [moveTreeTo, found, Except.ok_bind, free]

theorem moveTreeTo_of_error {tree : Disk} {fault : Fault}
    (lost : disk.placeOf path = .error fault) : disk.moveTreeTo path tree = .error fault := by
  rw [moveTreeTo, lost, Except.error_bind]

theorem moveTreeTo_eq_ok {tree : Disk} (moved : disk.moveTreeTo path tree = .ok made) :
    ∃ place, disk.placeOf path = .ok place ∧ made = disk.graft place tree ∧
      (disk.entry? place = none ∨ disk.entry? place = some .directory) := by
  obtain ⟨place, found, moved⟩ := Except.bind_eq_ok.1 moved
  refine ⟨place, found, ?_⟩
  cases stands : disk.entry? place with
  | none =>
    rw [stands] at moved
    cases moved
    exact ⟨rfl, .inl rfl⟩
  | some entry =>
    rw [stands] at moved
    cases entry with
    | directory =>
      dsimp only at moved
      split at moved
      · cases moved
        exact ⟨rfl, .inr rfl⟩
      · cases moved
    | file | link => cases moved

/-- What stands in its place and is no link exists. -/
theorem exists?_of_placeOf (found : disk.placeOf path = .ok place)
    (stands : disk.entry? place = some entry) (noLink : ∀ target, entry ≠ .link target) :
    disk.exists? path = true := by
  have leads := resolve_of_placeOf found (.refl disk) stands noLink
  obtain ⟨checked, _⟩ := Except.check_bind_eq_ok.1 found
  exact exists?_eq_true.2 ⟨entry, find_eq_ok.2 ⟨checked, place, leads, stands⟩⟩

/-- Nothing that is removed from a directory cuts off the directory's own canonical path. -/
theorem not_cutsOff_of_isCanonical (canonical : disk.IsCanonical above) :
    ¬ disk.CutsOff (above ++ [name]) := by
  rintro ⟨_, place, fault, found, _, lost⟩
  obtain ⟨checked, parent, followed, inside, short, rfl⟩ := placeOf_snoc_eq_ok.1 found
  rw [canonical.follow] at followed
  cases followed
  have kept : ∀ front, front <+: above →
      entry? (disk.drop (above ++ [name])) front = disk.entry? front := by
    intro front isFront
    rw [entry?_drop (by simp), if_neg]
    intro below
    have longer := (below.trans isFront).length_le
    rw [List.length_append, List.length_singleton] at longer
    omega
  have stillCanonical : (disk.drop (above ++ [name])).IsCanonical above := by
    intro front last isFront
    rw [kept _ isFront, kept _ ((List.prefix_append _ _).trans isFront)]
    exact canonical front last isFront
  have stillFound : (disk.drop (above ++ [name])).placeOf (above ++ [name])
      = .ok (above ++ [name]) :=
    placeOf_snoc_eq_ok.2 ⟨checked, above, stillCanonical.follow false,
      (kept _ List.prefix_rfl).trans inside, short, rfl⟩
  rw [stillFound] at lost
  cases lost

end StaticSite.Disk
