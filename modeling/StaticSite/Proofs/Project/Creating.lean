import Mathlib
import StaticSite.Proofs.Disk.Interrupted
import StaticSite.Proofs.Project.Scaffolding

/-!
# What creating a project changes

A new project is made in one place, and what stood there is gone.  Outside that place nothing
changes, but for one case: a name that goes on behind a slash leads through a link, and what the
link leads to is emptied.
-/

namespace StaticSite.Project

variable {disk ready after : Disk} {parent path place goal other : Path} {name written : Text}
  {force : Bool} {result : Except SiteError Text} {ending : PathEnding} {trouble : CreateTrouble}

/-- The path of a new project. -/
def newRoot (parent : Path) (name : Text) : Path :=
  parent ++ [(splitName name).1]

/-- A new project is to be made over a link to a directory, by a name that goes on behind a
slash. -/
structure EmptiesLinked (disk : Disk) (parent : Path) (name : Text) (goal : Path) : Prop where
  named : PathText.checkName name = .ok ()
  short : Disk.checkPathText (writtenPath parent name) = .ok ()
  behindSlash : (splitName name).2 ≠ .plain
  linked : ∃ place target, disk.placeOf (newRoot parent name) = .ok place ∧
    disk.entry? place = some (.link target)
  leads : disk.resolve (newRoot parent name) = .ok goal
  isDirectory : disk.entry? goal = some .directory

/-! ## Furnishing -/

theorem makeRoot_eq_ok {made : Disk} : makeRoot disk path ending = .ok (place, made) ↔
    ending ≠ .dot ∧ disk.placeOf path = .ok place ∧ disk.entry? place = none ∧
      made = disk.put place .directory := by
  rw [makeRoot, Except.bind_eq_ok]
  constructor
  · rintro ⟨_, making, located⟩
    obtain ⟨plain, place', found, free, rfl⟩ := Disk.makeDirectory_eq_ok.1 making
    rw [Disk.placeOf_mono (Disk.within_put free) found, Except.ok_bind] at located
    cases located
    exact ⟨plain, found, free, rfl⟩
  · rintro ⟨plain, found, free, rfl⟩
    refine ⟨_, Disk.makeDirectory_eq_ok.2 ⟨plain, place, found, free, rfl⟩, ?_⟩
    rw [Disk.placeOf_mono (Disk.within_put free) found, Except.ok_bind]

/-- The scaffold is placed where nothing stands. -/
theorem furnish_eq_ok : furnish disk path ending written name = .ok after ↔
    ending ≠ .dot ∧ ∃ place, disk.placeOf path = .ok place ∧ disk.entry? place = none ∧
      (∀ text ∈ furniture written, Disk.checkPathText text = .ok ()) ∧
      after = (disk.put place .directory).graft place (scaffold name) := by
  rw [furnish, Except.bind_eq_ok]
  simp only [Except.check_bind_eq_ok, Except.forM_eq_ok, Fault.check, Except.ok_bind]
  constructor
  · rintro ⟨⟨place, made⟩, making, fits, same⟩
    obtain ⟨plain, found, free, rfl⟩ := makeRoot_eq_ok.1 making
    exact ⟨plain, place, found, free, fits, (Except.ok.inj same).symm⟩
  · rintro ⟨plain, place, found, free, fits, rfl⟩
    exact ⟨_, makeRoot_eq_ok.2 ⟨plain, found, free, rfl⟩, fits, rfl⟩

theorem furnish_of_refusal {refusal : Option Fault}
    (furnished : furnish disk path ending written name refusal = .ok after) :
    furnish disk path ending written name = .ok after := by
  cases refusal with
  | none => exact furnished
  | some fault =>
    obtain ⟨_, _, furnished⟩ := Except.bind_eq_ok.1 furnished
    obtain ⟨_, _, impossible⟩ := Except.bind_eq_ok.1 furnished
    cases impossible

theorem abandon_none (disk : Disk) (path : Path) (ending : PathEnding) :
    abandon disk path ending none = disk := rfl

/-- Nothing remains of a project but in its place. -/
theorem abandon_cases (disk : Disk) (path : Path) (ending : PathEnding) (remains : Option Disk) :
    abandon disk path ending remains = disk ∨ ∃ place tree, disk.placeOf path = .ok place ∧
      remains = some tree ∧
      abandon disk path ending remains = (disk.put place .directory).graft place tree := by
  unfold abandon
  split
  · next making =>
    obtain ⟨_, found, _, rfl⟩ := makeRoot_eq_ok.1 making
    exact .inr ⟨_, _, found, rfl, rfl⟩
  · exact .inl rfl

/-- A new project is refused at once, or made or refused where what stood there has gone. -/
theorem create_cases (created : create disk parent name force trouble = (result, after)) :
    ((PathText.checkName name ≠ .ok () ∨ Disk.checkPathText (writtenPath parent name) ≠ .ok ()) ∧
      (∃ error, result = .error error) ∧ after = disk) ∨
    (PathText.checkName name = .ok () ∧ Disk.checkPathText (writtenPath parent name) = .ok ()) ∧
    ∃ ready, ((isTaken disk (newRoot parent name) (splitName name).2 = false ∨ force = false) ∧
          ready = disk ∨
        isTaken disk (newRoot parent name) (splitName name).2 = true ∧ force = true ∧
          ready
            = (disk.removeTree (newRoot parent name) (splitName name).2 trouble.removal).2) ∧
      ((∃ error, result = .error error) ∧ (after = ready ∨
            after = abandon ready (newRoot parent name) (splitName name).2 trouble.remains) ∨
        result = .ok (writtenPath parent name) ∧
          furnish ready (newRoot parent name) (splitName name).2 (writtenPath parent name) name
            = .ok after) := by
  -- The checks come one after the other, and each of them may be the last.
  unfold create at created
  split at created
  · next unnamed =>
    cases created
    exact .inl ⟨.inl (by simp [unnamed]), ⟨_, rfl⟩, rfl⟩
  · next named =>
    dsimp only at created
    split at created
    · next long =>
      cases created
      exact .inl ⟨.inr (by simp [long]), ⟨_, rfl⟩, rfl⟩
    · next short =>
      refine .inr ⟨⟨named, short⟩, ?_⟩
      split at created
      · next taken =>
        split at created
        · next forced =>
          split at created
          · next removed =>
            cases created
            exact ⟨_, .inr ⟨taken, forced, rfl⟩, .inl ⟨⟨_, rfl⟩, .inl (by rw [newRoot, removed])⟩⟩
          · next removed =>
            refine ⟨_, .inr ⟨taken, forced, rfl⟩, ?_⟩
            rw [newRoot, removed]
            split at created
            · next furnished =>
              cases created
              exact .inr ⟨rfl, furnish_of_refusal furnished⟩
            · cases created
              exact .inl ⟨⟨_, rfl⟩, .inr rfl⟩
        · next unforced =>
          cases created
          exact ⟨disk, .inl ⟨.inr (Bool.eq_false_iff.2 unforced), rfl⟩,
            .inl ⟨⟨_, rfl⟩, .inl rfl⟩⟩
      · next free =>
        refine ⟨disk, .inl ⟨.inl (Bool.eq_false_iff.2 free), rfl⟩, ?_⟩
        split at created
        · next furnished =>
          cases created
          exact .inr ⟨rfl, furnish_of_refusal furnished⟩
        · cases created
          exact .inl ⟨⟨_, rfl⟩, .inr rfl⟩

/-! ## Removing what stands there -/

theorem find_of_isTaken (taken : isTaken disk path ending = true) :
    ∃ entry, disk.find path = .ok entry ∧ (ending ≠ .plain → entry = .directory) := by
  cases ending with
  | plain =>
    obtain ⟨entry, found⟩ := Disk.exists?_eq_true.1 taken
    exact ⟨entry, found, fun impossible => absurd rfl impossible⟩
  | slash | dot => exact ⟨.directory, Disk.isDirectory_eq_true.1 taken, fun _ => rfl⟩

/-- A directory goes as far as it can be removed. -/
theorem empties_of_look (nonempty : disk.placeOf path = .ok goal → goal ≠ [])
    (looked : disk.look path ending = .ok (goal, .directory)) (obstacle : Option Disk.Obstacle) :
    disk.Empties (disk.removeTree path ending obstacle).2 goal := by
  cases obstacle with
  | some obstacle =>
    rw [Disk.removeTree, looked]
    exact Disk.empties_prune disk goal obstacle.kept
  | none =>
    rcases Disk.removeTree_of_directory looked with same | ⟨same, found⟩
    · rw [same]
      exact Disk.empties_clear disk goal
    · rw [same]
      exact Disk.empties_drop (nonempty found)

/-- What stands in the place of a new project goes, unless a link is followed from there. -/
theorem empties_of_removeTree (nonempty : place ≠ []) (found : disk.placeOf path = .ok place)
    (taken : isTaken disk path ending = true)
    (direct : ending = .plain ∨ ∀ target, disk.entry? place ≠ some (.link target))
    (obstacle : Option Disk.Obstacle) :
    disk.Empties (disk.removeTree path ending obstacle).2 place := by
  obtain ⟨entry, isThere, isDirectory⟩ := find_of_isTaken taken
  -- A directory goes with all that is in it, a link goes alone, and a file is not removed at all.
  cases stands : disk.entry? place with
  | none =>
    obtain ⟨_, _, found', stands'⟩ := Disk.placeOf_of_find isThere
    rw [found] at found'
    cases found'
    rw [stands] at stands'
    cases stands'
  | some standing =>
    cases standing with
    | directory =>
      exact empties_of_look (fun _ => nonempty)
        (Disk.look_eq_ok_of_directory found stands ending) obstacle
    | file bytes =>
      by_cases plain : ending = .plain
      · subst plain
        rw [Disk.removeTree, Disk.look_of_placeOf found stands]
        exact Disk.empties_refl disk place
      · -- Behind a slash a file does not count as taken.
        rw [isDirectory plain] at isThere
        obtain ⟨_, goal, leads, isGoal⟩ := Disk.find_eq_ok.1 isThere
        rw [Disk.resolve_of_placeOf found (.refl disk) stands (by simp)] at leads
        cases leads
        rw [stands] at isGoal
        cases isGoal
    | link target =>
      obtain rfl : ending = .plain := direct.resolve_right fun noLink => noLink target stands
      have looked := Disk.look_of_placeOf found stands
      cases obstacle with
      | none =>
        rw [Disk.removeTree_of_link looked]
        exact Disk.empties_drop nonempty
      | some obstacle =>
        rw [Disk.removeTree, looked]
        exact Disk.empties_refl disk place

namespace EmptiesLinked

/-- Behind a slash a link is followed. -/
theorem look_eq (empties : EmptiesLinked disk parent name goal) :
    isTaken disk (newRoot parent name) (splitName name).2 = true ∧
      disk.look (newRoot parent name) (splitName name).2 = .ok (goal, .directory) := by
  obtain ⟨_, _, behindSlash, ⟨place, target, found, linked⟩, leads, isDirectory⟩ := empties
  have isThere : disk.isDirectory (newRoot parent name) = true := by
    have checked := (Except.check_bind_eq_ok.1 found).1
    exact Disk.isDirectory_eq_true.2 (Disk.find_eq_ok.2 ⟨checked, goal, leads, isDirectory⟩)
  cases ending : (splitName name).2 with
  | plain => exact absurd ending behindSlash
  | slash | dot => exact ⟨isThere, by rw [Disk.look, leads, Except.ok_bind, if_pos isDirectory]⟩

/-- What the link leads to is emptied. -/
theorem removeTree_eq (empties : EmptiesLinked disk parent name goal) :
    (disk.removeTree (newRoot parent name) (splitName name).2).2 = disk.clear goal := by
  refine (Disk.removeTree_of_directory empties.look_eq.2).resolve_right ?_
  obtain ⟨_, _, _, ⟨place, target, found, linked⟩, _, isDirectory⟩ := empties
  rintro ⟨_, found'⟩
  rw [found] at found'
  cases found'
  rw [linked] at isDirectory
  cases isDirectory

end EmptiesLinked

/-- What is left of a disk before a project is made on it. -/
structure MakesRoom (disk : Disk) (parent : Path) (name : Text) (force : Bool)
    (removal : Option Disk.Obstacle) (ready : Disk) : Prop where
  isTree : disk.IsTree → ready.IsTree
  within : ready.Within disk
  unforced : force = false → ready = disk
  homeless : (∀ place, disk.placeOf (newRoot parent name) ≠ .ok place) → ready = disk
  outside : ∀ place, disk.placeOf (newRoot parent name) = .ok place →
    (∀ goal, force = true → ¬ EmptiesLinked disk parent name goal) →
    ∀ other, ¬ place <+: other → ready.entry? other = disk.entry? other
  emptied : ∀ goal, force = true → EmptiesLinked disk parent name goal →
    disk.Empties ready goal ∧ (removal = none → ready = disk.clear goal)

theorem makesRoom_of_create {removal : Option Disk.Obstacle}
    (named : PathText.checkName name = .ok ())
    (short : Disk.checkPathText (writtenPath parent name) = .ok ())
    (readied : (isTaken disk (newRoot parent name) (splitName name).2 = false ∨ force = false) ∧
        ready = disk ∨
      isTaken disk (newRoot parent name) (splitName name).2 = true ∧ force = true ∧
        ready = (disk.removeTree (newRoot parent name) (splitName name).2 removal).2) :
    MakesRoom disk parent name force removal ready := by
  rcases readied with ⟨kept, rfl⟩ | ⟨taken, rfl, rfl⟩
  · -- Nothing is removed here: nothing is in the way, or it may not be removed.
    refine ⟨id, .refl _, fun _ => rfl, fun _ => rfl, fun _ _ _ _ _ => rfl, ?_⟩
    rintro goal rfl empties
    rcases kept with free | unforced
    · rw [empties.look_eq.1] at free
      cases free
    · cases unforced
  · obtain ⟨entry, found, isDirectory⟩ := find_of_isTaken taken
    obtain ⟨place, standing, hasPlace, stands⟩ := Disk.placeOf_of_find found
    have nonempty : place ≠ [] := Disk.ne_nil_of_placeOf_snoc hasPlace
    -- Only a slash behind a link makes the removal go where the link leads.
    by_cases direct : (splitName name).2 = .plain ∨
        ∀ target, disk.entry? place ≠ some (.link target)
    · obtain ⟨outside, within, isTree⟩ :=
        empties_of_removeTree nonempty hasPlace taken direct removal
      refine ⟨isTree, within, nofun, fun homeless => absurd hasPlace (homeless place), ?_, ?_⟩
      · intro place' hasPlace' _
        rw [hasPlace] at hasPlace'
        cases hasPlace'
        exact outside
      · rintro goal - ⟨_, _, behindSlash, ⟨place', target, hasPlace', linked⟩, _, _⟩
        rw [hasPlace] at hasPlace'
        cases hasPlace'
        rcases direct with plain | noLink
        · exact absurd plain behindSlash
        · exact absurd linked (noLink target)
    · simp only [not_or, not_forall, not_not] at direct
      obtain ⟨behindSlash, target, linked⟩ := direct
      rw [isDirectory behindSlash] at found
      obtain ⟨_, goal, leads, isGoal⟩ := Disk.find_eq_ok.1 found
      have empties : EmptiesLinked disk parent name goal :=
        ⟨named, short, behindSlash, ⟨place, target, hasPlace, linked⟩, leads, isGoal⟩
      have left := empties_of_look Disk.ne_nil_of_placeOf_snoc empties.look_eq.2 removal
      refine ⟨left.isTree, left.within, nofun, fun homeless => absurd hasPlace (homeless place),
        fun _ _ unlinked => absurd empties (unlinked goal rfl), ?_⟩
      intro other _ empties'
      obtain rfl : other = goal := Except.ok.inj (empties'.leads.symm.trans leads)
      exact ⟨left, fun unobstructed => unobstructed ▸ empties.removeTree_eq⟩

/-! ## Names and path texts -/

/-- A name goes on behind its proper part with a slash, if it goes on. -/
theorem splitName_eq (name : Text) : ∃ behind, name = (splitName name).1 ++ behind ∧
    '/' ∉ (splitName name).1 ∧ (behind = [] ∨ '/' ∈ behind) := by
  have whole : List.intercalate ['/'] (name.splitOn '/') = name := List.intercalate_splitOn '/'
  unfold splitName
  cases pieces : name.splitOn '/' with
  | nil => exact absurd pieces (List.splitOn_ne_nil _ _)
  | cons base rest =>
    have noSlash : '/' ∉ base := PathText.not_mem_of_mem_splitOn (by rw [pieces]; simp)
    rw [pieces] at whole
    cases rest with
    | nil => exact ⟨[], by simpa using whole.symm, noSlash, .inl rfl⟩
    | cons second rest =>
      rw [List.intercalate_cons_of_ne_nil (by simp), List.append_assoc] at whole
      exact ⟨_, whole.symm, noSlash, .inr (by simp)⟩

theorem writtenPath_eq {behind : Text} (whole : name = (splitName name).1 ++ behind) :
    writtenPath parent name = Path.text (newRoot parent name) ++ behind := by
  unfold writtenPath newRoot
  by_cases atTop : parent = []
  · rw [if_pos atTop, atTop, List.nil_append, Path.text, PathText.join,
      List.intercalate_singleton, List.cons_append, ← whole]
  · rw [if_neg atTop, Path.text_append atTop (by simp), PathText.join,
      List.intercalate_singleton, List.append_assoc, List.cons_append, ← whole]

/-- What fits under a path text as it is written fits under the path as well. -/
theorem fits_of_furniture (named : PathText.checkName name = .ok ())
    (fits : ∀ text ∈ furniture (writtenPath parent name), Disk.checkPathText text = .ok ()) :
    Disk.checkPathText (Path.text (newRoot parent name ++ navigationPath)) = .ok () := by
  have isFurniture : writtenBelow (writtenPath parent name) navigationPath
      ∈ furniture (writtenPath parent name) := by
    simp [furniture, Scaffold.files, navigationPath]
  have checked := fits _ isFurniture
  obtain ⟨behind, whole, noSlash, goesOn⟩ := splitName_eq name
  have nonempty : name ≠ [] := by
    rintro rfl
    cases named
  have ends : (writtenPath parent name).getLast? = name.getLast? := by
    obtain ⟨last, ends⟩ := Option.ne_none_iff_exists'.1 (List.getLast?_eq_none_iff.not.2 nonempty)
    unfold writtenPath
    split <;> simp [List.getLast?_append, List.getLast?_cons, ends]
  rw [writtenPath_eq whole] at ends
  rw [writtenBelow, writtenPath_eq whole, List.append_assoc (Path.text _)] at checked
  rw [Path.text_append (by simp [newRoot]) (by decide)]
  refine Disk.checkPathText_of_squeezed ?_ checked
  rcases goesOn with rfl | goesOn
  · -- A name that ends where its proper part does is parted from what follows by a slash.
    rw [List.append_nil] at whole
    rw [if_neg]
    · simp
    · rw [ends]
      intro last
      rw [← whole] at noSlash
      exact noSlash (List.mem_of_getLast? last)
  · exact List.append_ne_nil_of_left_ne_nil (List.ne_nil_of_mem goesOn) _

/-! ## Making the project -/

/-- Making the project changes nothing outside its place. -/
theorem furnish_outside (furnished : furnish ready path ending written name = .ok after)
    (found : ready.placeOf path = .ok place) (apart : ¬ place <+: other) :
    after.entry? other = ready.entry? other := by
  obtain ⟨_, place', found', _, _, rfl⟩ := furnish_eq_ok.1 furnished
  rw [found] at found'
  cases found'
  have different : other ≠ place := by
    rintro rfl
    exact apart List.prefix_rfl
  rw [Disk.entry?_graft_outside apart, Disk.entry?_put_of_ne different]

/-- Behind its making there is the scaffold in the place of a project, and nothing else. -/
theorem holdsSite_of_furnish (isTree : ready.IsTree) (named : PathText.checkName name = .ok ())
    (furnished : furnish ready (newRoot parent name) ending (writtenPath parent name) name
      = .ok after) :
    ∃ place, ready.placeOf (newRoot parent name) = .ok place ∧
      after.placeOf (newRoot parent name) = .ok place ∧
      HoldsSite after (newRoot parent name) place name := by
  obtain ⟨_, place, found, free, fits, rfl⟩ := furnish_eq_ok.1 furnished
  have nonempty : place ≠ [] := Disk.nonempty_of_free free
  have free_below : ∀ path, ready.entry? (place ++ path) = none :=
    fun path => isTree.free_below free (List.prefix_append _ _)
  have holds : ∀ path, Disk.entry? ((ready.put place .directory).graft place (scaffold name))
      (place ++ path) = Disk.entry? (scaffold name) path := by
    intro path
    refine Disk.entry?_graft_of_bare nonempty (scaffold_rootless name) fun inner different => ?_
    rw [Disk.entry?_put_of_ne (by simpa using different), free_below]
  -- Nothing that was there is below the place, so that it is there without the pages as well.
  have within : ready.Within
      (((ready.put place .directory).graft place (scaffold name)).drop (place ++ [liveName])) := by
    intro other entry stands
    have apart : ¬ place <+: other := by
      rintro ⟨path, rfl⟩
      rw [free_below] at stands
      cases stands
    have notBelow : ¬ place ++ [liveName] <+: other :=
      fun below => apart ((List.prefix_append _ _).trans below)
    rw [Disk.entry?_drop (by simp), if_neg notBelow, furnish_outside furnished found apart, stands]
  refine ⟨place, found,
    Disk.placeOf_mono (within.trans (Disk.drop_within (by simp))) found, ?_⟩
  obtain ⟨checked, above, followed, inside, short, rfl⟩ := Disk.placeOf_snoc_eq_ok.1 found
  have reached : ready.Reaches parent above := ⟨Disk.follow_eq_ok.1 followed, inside⟩
  refine ⟨⟨by simp [newRoot], nonempty⟩, ?_, fits_of_furniture named fits, holds⟩
  refine (reached.mono within).enter short ?_
  have notBelow :
      ¬ above ++ [(splitName name).1] ++ [liveName] <+: above ++ [(splitName name).1] := by
    intro below
    have shorter := below.length_le
    simp at shorter
  rw [Disk.entry?_drop (by simp), if_neg notBelow]
  simpa using holds []

/-! ## What it all comes to -/

/-- What creating a project comes to.  The project stands at one place and nothing else changes,
unless a link is emptied that the name goes on behind. -/
structure Creates (disk : Disk) (parent : Path) (name : Text) (force : Bool)
    (trouble : CreateTrouble) (result : Except SiteError Text) (after : Disk) : Prop where
  unforced : ∀ error, result = .error error → force = false → trouble.remains = none → after = disk
  homeless : (∀ place, disk.placeOf (newRoot parent name) ≠ .ok place) → after = disk
  outside : ∀ place, disk.placeOf (newRoot parent name) = .ok place →
    (∀ goal, force = true → ¬ EmptiesLinked disk parent name goal) →
    ∀ other, ¬ place <+: other → after.entry? other = disk.entry? other
  emptied : ∀ place goal, disk.placeOf (newRoot parent name) = .ok place → force = true →
    EmptiesLinked disk parent name goal → ∀ other, ¬ place <+: other →
      (after.entry? other = disk.entry? other ∨ goal <+: other ∧ after.entry? other = none) ∧
      (trouble.removal = none → after.entry? other = Disk.entry? (disk.clear goal) other)
  made : ∀ written, result = .ok written → written = writtenPath parent name ∧
    ∃ place, disk.placeOf (newRoot parent name) = .ok place ∧
      after.placeOf (newRoot parent name) = .ok place ∧
      (∀ path, after.entry? (place ++ path) = Disk.entry? (scaffold name) path) ∧
      ((∃ built html, build after ⟨newRoot parent name⟩ = (.ok { files := [indexPath] }, built) ∧
          built.below (place ++ [liveName]) = [(indexPath, .file (Utf8.encode html))]) ↔
        after.canonical (newRoot parent name) = .ok place ∧
          Disk.checkPathText (Path.text (place ++ navigationPath)) = .ok ())

/-- Outside its place the disk is as it was made ready. -/
structure Finishes (ready after : Disk) (parent : Path) (name : Text) : Prop where
  homeless : (∀ place, ready.placeOf (newRoot parent name) ≠ .ok place) → after = ready
  outside : ∀ place, ready.placeOf (newRoot parent name) = .ok place →
    ∀ other, ¬ place <+: other → after.entry? other = ready.entry? other

theorem finishes_abandon (ready : Disk) (parent : Path) (name : Text) (remains : Option Disk) :
    Finishes ready (abandon ready (newRoot parent name) (splitName name).2 remains) parent
      name := by
  rcases abandon_cases ready (newRoot parent name) (splitName name).2 remains with
    same | ⟨place, tree, found, _, same⟩
  · rw [same]
    exact ⟨fun _ => rfl, fun _ _ _ _ => rfl⟩
  · rw [same]
    refine ⟨fun homeless => absurd found (homeless place), fun place' found' other apart => ?_⟩
    obtain rfl : place = place' := Except.ok.inj (found.symm.trans found')
    have different : other ≠ place := fun isPlace => apart (isPlace ▸ List.prefix_rfl)
    rw [Disk.entry?_graft_outside apart, Disk.entry?_put_of_ne different]

theorem finishes_furnish
    (furnished : furnish ready (newRoot parent name) ending written name = .ok after) :
    Finishes ready after parent name where
  homeless homeless := by
    obtain ⟨_, place, found, _⟩ := furnish_eq_ok.1 furnished
    exact absurd found (homeless place)
  outside place found other apart := furnish_outside furnished found apart

theorem Finishes.entry?_eq (finishes : Finishes ready after parent name)
    (within : ready.Within disk) (hasPlace : disk.placeOf (newRoot parent name) = .ok place)
    (apart : ¬ place <+: other) : after.entry? other = ready.entry? other := by
  by_cases homeless : ∀ place, ready.placeOf (newRoot parent name) ≠ .ok place
  · rw [finishes.homeless homeless]
  · simp only [not_forall, not_not] at homeless
    obtain ⟨place', found⟩ := homeless
    obtain rfl : place' = place :=
      Except.ok.inj ((Disk.placeOf_mono within found).symm.trans hasPlace)
    exact finishes.outside place' found other apart

theorem create_changes (isTree : disk.IsTree)
    (created : create disk parent name force trouble = (result, after)) :
    Creates disk parent name force trouble result after := by
  rcases create_cases created with
    ⟨refused, ⟨error, rfl⟩, rfl⟩ | ⟨⟨named, short⟩, ready, readied, ends⟩
  · refine ⟨fun _ _ _ _ => rfl, fun _ => rfl, fun _ _ _ _ _ => rfl, ?_, nofun⟩
    -- Nothing is emptied for a name that is refused, so the flag promises nothing here.
    intro _ _ _ _ empties
    rcases refused with unnamed | long
    · exact absurd empties.named unnamed
    · exact absurd empties.short long
  · obtain ⟨isTree', within, unforced, homeless, outside, emptied⟩ :=
      makesRoom_of_create named short readied
    have finishes : Finishes ready after parent name := by
      rcases ends with ⟨_, rfl | rfl⟩ | ⟨_, furnished⟩
      · exact ⟨fun _ => rfl, fun _ _ _ _ => rfl⟩
      · exact finishes_abandon ..
      · exact finishes_furnish furnished
    refine ⟨?_, fun noPlace => ?_, ?_, ?_, ?_⟩
    · intro error failed isUnforced nothing
      rcases ends with ⟨_, rfl | rfl⟩ | ⟨succeeded, _⟩
      · exact unforced isUnforced
      · rw [nothing, abandon_none, unforced isUnforced]
      · rw [succeeded] at failed
        cases failed
    · obtain rfl := homeless noPlace
      exact finishes.homeless noPlace
    · intro place hasPlace unlinked other apart
      rw [finishes.entry?_eq within hasPlace apart, outside place hasPlace unlinked other apart]
    · intro place goal hasPlace forced empties other apart
      rw [finishes.entry?_eq within hasPlace apart]
      obtain ⟨left, exactly⟩ := emptied goal forced empties
      exact ⟨left.entry?_eq_or other, fun unobstructed => by rw [exactly unobstructed]⟩
    · intro written succeeded
      rcases ends with ⟨⟨error, failed⟩, _⟩ | ⟨isWritten, furnished⟩
      · rw [failed] at succeeded
        cases succeeded
      · obtain rfl := Except.ok.inj (succeeded.symm.trans isWritten)
        obtain ⟨place, found, found', site⟩ := holdsSite_of_furnish (isTree' isTree) named furnished
        refine ⟨rfl, place, Disk.placeOf_mono within found, found', site.holds, ?_, ?_⟩
        · rintro ⟨built, html, builds, _⟩
          exact site.fits_of_build builds
        · rintro ⟨spelled, longest⟩
          obtain ⟨built, html, builds, published, _⟩ := site.builds spelled longest
          exact ⟨built, html, builds, published⟩

/-- The place of a project to be, with a file of an older one in it. -/
def staleDisk : Disk :=
  (Disk.empty.put ["s".toList] .directory).put ["s".toList, "old".toList] (.file [50])

theorem staleDisk_create_changes : staleDisk.IsTree ∧
    ∃ after, create staleDisk [] "s".toList true = (.ok "/s".toList, after) ∧
      Creates staleDisk [] "s".toList true {} (.ok "/s".toList) after ∧
      after.entry? ["s".toList, "old".toList] = none ∧
      ∃ built, build after ⟨["s".toList]⟩ = (.ok { files := [indexPath] }, built) := by
  have isTree : staleDisk.IsTree := by decide
  have named : PathText.checkName "s".toList = .ok () := by decide
  have taken : isTaken staleDisk ["s".toList] .plain = true := by cbv
  have removed : staleDisk.removeTree ["s".toList] .plain
      = (.ok (), staleDisk.drop ["s".toList]) := by cbv
  have short : Disk.checkPathText "/s".toList = .ok () := by decide
  have fits : ∀ text ∈ furniture "/s".toList, Disk.checkPathText text = .ok () := by decide
  have found : (staleDisk.drop ["s".toList]).placeOf ["s".toList] = .ok ["s".toList] := by cbv
  obtain ⟨after, furnished⟩ : ∃ after, furnish (staleDisk.drop ["s".toList]) ["s".toList] .plain
      "/s".toList "s".toList = .ok after :=
    ⟨_, furnish_eq_ok.2 ⟨by decide, _, found, Disk.free_drop _ (by decide), fits, rfl⟩⟩
  have split : splitName "s".toList = ("s".toList, .plain) := by decide
  have written : writtenPath [] "s".toList = "/s".toList := by decide
  have created : create staleDisk [] "s".toList true = (.ok "/s".toList, after) := by
    simp only [create, named, split, written, List.nil_append, short, taken, removed, furnished,
      if_true]
  have creates := create_changes isTree created
  obtain ⟨_, place, hasPlace, _, holds, builds⟩ := creates.made _ rfl
  have isPlace : staleDisk.placeOf (newRoot [] "s".toList) = .ok ["s".toList] := by cbv
  rw [isPlace] at hasPlace
  cases hasPlace
  refine ⟨isTree, after, created, creates, ?_, ?_⟩
  · exact (holds ["old".toList]).trans rfl
  · have stands : after.entry? ["s".toList] = some .directory := (holds []).trans rfl
    have canonical : after.IsCanonical ["s".toList] :=
      Disk.isCanonical_snoc Disk.isCanonical_nil rfl (by decide) stands fun _ same => by cases same
    have spelled : after.canonical ["s".toList] = .ok ["s".toList] := by
      rw [Disk.canonical, canonical.spell_eq (List.cons_ne_nil _ _)]
      rfl
    obtain ⟨built, _, success, _⟩ := builds.2 ⟨spelled, by decide⟩
    exact ⟨built, success⟩

/-- A link to a directory beside the one that it stands in. -/
def linkedAsideDisk : Disk :=
  (((Disk.empty.put ["there".toList] .directory).put ["there".toList, "f".toList] (.file [49])).put
    ["w".toList] .directory).put ["w".toList, "l".toList] (.link "../there".toList)

/-- With a slash behind its name, the link is emptied and not replaced. -/
theorem linkedAsideDisk_create_empties : linkedAsideDisk.IsTree ∧
    ∃ after, create linkedAsideDisk ["w".toList] "l/".toList true
        = (.error (.io .notDirectory), after) ∧
      linkedAsideDisk.placeOf ["w".toList, "l".toList] = .ok ["w".toList, "l".toList] ∧
      linkedAsideDisk.entry? ["there".toList, "f".toList] = some (.file [49]) ∧
      after.entry? ["there".toList, "f".toList] = none := by
  refine ⟨by decide, (create linkedAsideDisk ["w".toList] "l/".toList true).2,
    Prod.ext ?_ rfl, ?_, by decide, ?_⟩
  · cbv
  · cbv
  · cbv

end StaticSite.Project
