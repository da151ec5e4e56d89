import Mathlib
import StaticSite.Project.Build
import StaticSite.Proofs.Disk.Interrupted
import StaticSite.Proofs.Disk.Spelling

/-!
# Builds that fail

A build that fails leaves the disk as it was, with two exceptions, and both are in the removal of
the published pages.  It may be stopped on its way, and then some of the pages are gone.  And the
path to the pages may lead through them, so that it leads nowhere once they are removed.  Canonical
paths never do, and so it takes an obstacle for a build to lose pages in a project that was
discovered.  A build under a lock makes the lock's file and the directories above it before anything
else.
-/

namespace StaticSite

theorem Disk.IsCanonical.mono {disk larger : Disk} {path : Path} (canonical : disk.IsCanonical path)
    (within : disk.Within larger) : larger.IsCanonical path := by
  intro above name isFront
  obtain ⟨inside, short, entry, found, noLink⟩ := canonical above name isFront
  exact ⟨within _ _ inside, short, entry, within _ _ found, noLink⟩

namespace Project

variable {disk after staged : Disk} {project : Project} {options : BuildOptions}
  {above start : Path} {name : Text} {trouble : BuildTrouble} {obstacle : Option Disk.Obstacle}
  {error : SiteError}

/-! ## Publishing -/

/-- Removing what stands at a path takes something away and fails, or cuts the path off. -/
inductive LosesTree (disk : Disk) (path : Path) : Option Disk.Obstacle → Prop where
  | cutOff (cutsOff : disk.CutsOff path) : LosesTree disk path none
  | stopped {obstacle : Disk.Obstacle} {place other : Path} {entry : Entry}
      (there : disk.exists? path = true) (found : disk.placeOf path = .ok place)
      (isDirectory : disk.entry? place = some .directory)
      (stands : disk.entry? other = some entry)
      (goes : Disk.isPruned place obstacle.kept other = true) :
      LosesTree disk path (some obstacle)

/-- Publishing fails behind the removal of the old pages if that cuts their path off. -/
theorem publish_of_cutsOff (cutsOff : disk.CutsOff (above ++ [name])) (staged : Disk) :
    ∃ fault after, publish disk (above ++ [name]) staged
      = (.error (.buildWrite (above ++ [name]) fault), after) ∧ after ≠ disk := by
  obtain ⟨there, place, fault, found, notFile, lost⟩ := cutsOff
  -- What exists stands in its place, so the removal takes something away.
  obtain ⟨entry, stands⟩ := Disk.stands_of_exists? there found
  have nonempty := Disk.ne_nil_of_placeOf_snoc found
  unfold publish
  rw [if_pos there]
  rcases Disk.removeTree_plain found stands notFile with removed | ⟨fault', lost', cleared⟩
  · rw [removed]
    simp only [Disk.moveTreeTo_of_error lost]
    refine ⟨fault, _, rfl, fun same => ?_⟩
    have gone := Disk.free_drop disk nonempty
    rw [same, stands] at gone
    cases gone
  · -- The directory is empty now, whatever is said about its own removal.
    have changed : disk.clear place ≠ disk := by
      intro same
      rw [same, found] at lost'
      cases lost'
    generalize disk.removeTree (above ++ [name]) .plain = outcome at cleared
    obtain ⟨result, after⟩ := outcome
    obtain rfl : after = disk.clear place := cleared
    cases result with
    | error fault => exact ⟨fault, _, rfl, changed⟩
    | ok =>
        simp only [Disk.moveTreeTo_of_error lost']
        exact ⟨fault', _, rfl, changed⟩

/-- Otherwise publishing fails before anything is removed, or not at all. -/
theorem publish_of_not_cutsOff (noCut : ¬ disk.CutsOff (above ++ [name])) (staged : Disk) :
    (∃ error, publish disk (above ++ [name]) staged = (.error error, disk)) ∨
      ∃ after, publish disk (above ++ [name]) staged = (.ok (), after) := by
  unfold publish
  by_cases there : disk.exists? (above ++ [name]) = true
  · rw [if_pos there]
    cases found : disk.placeOf (above ++ [name]) with
    | error fault =>
        rw [Disk.removeTree_of_error found]
        exact .inl ⟨_, rfl⟩
    | ok place =>
        cases isFile : disk.holdsFile place with
        | true =>
            rw [Disk.removeTree_file found isFile]
            exact .inl ⟨_, rfl⟩
        | false =>
            -- The path is not cut off, so it leads to the emptied place, where all is free.
            have nonempty := Disk.ne_nil_of_placeOf_snoc found
            cases again : (disk.drop place).placeOf (above ++ [name]) with
            | error fault => exact absurd ⟨there, place, fault, found, isFile, again⟩ noCut
            | ok other =>
                obtain rfl := Disk.place_eq_of_within (Disk.drop_within nonempty) again found
                obtain ⟨entry, stands⟩ := Disk.stands_of_exists? there found
                rcases Disk.removeTree_plain found stands isFile with removed | ⟨fault, lost, _⟩
                · rw [removed]
                  simp only [Disk.moveTreeTo_of_free again (Disk.free_drop disk nonempty)]
                  exact .inr ⟨_, rfl⟩
                · rw [Disk.placeOf_mono (Disk.drop_within_clear nonempty) again] at lost
                  cases lost
  · -- Nothing is removed, so that a move that fails is all there is.
    rw [if_neg there]
    dsimp only
    cases disk.moveTreeTo (above ++ [name]) staged with
    | error fault => exact .inl ⟨_, rfl⟩
    | ok after => exact .inr ⟨after, rfl⟩

/-- What keeps the removal from its end lets publishing fail, and what is there can be lost. -/
theorem publish_of_obstacle (staged : Disk) (there : disk.exists? (above ++ [name]) = true)
    (obstacle : Disk.Obstacle) : ∃ error after,
      publish disk (above ++ [name]) staged (some obstacle) = (.error error, after) ∧
        (after ≠ disk ↔ LosesTree disk (above ++ [name]) (some obstacle)) := by
  unfold publish
  rw [if_pos there]
  obtain ⟨_, isThere⟩ := Disk.exists?_eq_true.1 there
  obtain ⟨place, standing, found, stands⟩ := Disk.placeOf_of_find isThere
  have looked := Disk.look_of_placeOf found stands
  -- A file or a link is removed as a whole, so that an obstacle keeps all of it.
  have kept : standing ≠ .directory → ¬ LosesTree disk (above ++ [name]) (some obstacle) := by
    rintro other (_ | ⟨_, found', isDirectory, _⟩)
    rw [found] at found'
    cases found'
    rw [stands] at isDirectory
    exact other (Option.some.inj isDirectory)
  cases standing with
  | file bytes =>
    simp only [Disk.removeTree, looked]
    exact ⟨_, _, rfl, iff_of_false (not_not_intro rfl) (kept fun same => by cases same)⟩
  | link target =>
    simp only [Disk.removeTree, looked]
    exact ⟨_, _, rfl, iff_of_false (not_not_intro rfl) (kept fun same => by cases same)⟩
  | directory =>
    simp only [Disk.removeTree, looked]
    refine ⟨_, _, rfl, Disk.prune_ne_self.trans ⟨?_, ?_⟩⟩
    · rintro ⟨other, entry, stands', goes⟩
      exact .stopped there found stands stands' goes
    · rintro (_ | ⟨_, found', _, stands', goes⟩)
      rw [found] at found'
      cases found'
      exact ⟨_, _, stands', goes⟩

/-- Publishing fails and takes something away exactly if the removal of what stands there does. -/
theorem publish_changes_iff (staged : Disk) :
    (∃ error after, publish disk (above ++ [name]) staged obstacle = (.error error, after) ∧
      after ≠ disk) ↔ LosesTree disk (above ++ [name]) obstacle := by
  cases obstacle with
  | none =>
    -- A removal that nothing stops does harm only where it takes the way to the pages with it.
    constructor
    · rintro ⟨error, after, failed, changed⟩
      refine .cutOff (Classical.byContradiction fun noCut => ?_)
      rcases publish_of_not_cutsOff noCut staged with ⟨_, published⟩ | ⟨_, published⟩
      · rw [published] at failed
        cases failed
        exact changed rfl
      · rw [published] at failed
        cases failed
    · rintro ⟨cutsOff⟩
      obtain ⟨fault, after, published, changed⟩ := publish_of_cutsOff cutsOff staged
      exact ⟨_, after, published, changed⟩
  | some obstacle =>
    by_cases there : disk.exists? (above ++ [name]) = true
    · obtain ⟨error, after, published, lost⟩ := publish_of_obstacle staged there obstacle
      rw [← lost, published]
      constructor
      · rintro ⟨_, _, failed, changed⟩
        cases failed
        exact changed
      · exact fun changed => ⟨error, after, rfl, changed⟩
    · -- Nothing is removed, so that nothing is lost either.
      refine iff_of_false ?_ fun loses => ?_
      · rintro ⟨error, after, failed, changed⟩
        unfold publish at failed
        rw [if_neg there] at failed
        dsimp only at failed
        split at failed
        · cases failed
          exact changed rfl
        · cases failed
      · cases loses with
        | stopped isThere => exact there isThere

/-- Whatever fails, only what was published can be gone. -/
theorem empties_of_publish
    (failed : publish disk (above ++ [name]) staged obstacle = (.error error, after)) :
    after = disk ∨
      ∃ place, disk.placeOf (above ++ [name]) = .ok place ∧ disk.Empties after place := by
  have removes : (disk.removeTree (above ++ [name]) .plain obstacle).2 = disk ∨
      ∃ place, disk.placeOf (above ++ [name]) = .ok place ∧
        disk.Empties (disk.removeTree (above ++ [name]) .plain obstacle).2 place :=
    disk.empties_of_removeTree_plain obstacle
  unfold publish at failed
  by_cases there : disk.exists? (above ++ [name]) = true
  · rw [if_pos there] at failed
    generalize disk.removeTree (above ++ [name]) .plain obstacle = removal at removes failed
    obtain ⟨result, bare⟩ := removal
    cases result with
    | error fault =>
      cases failed
      exact removes
    | ok =>
      dsimp only at failed
      split at failed
      · cases failed
        exact removes
      · cases failed
  · rw [if_neg there] at failed
    dsimp only at failed
    split at failed
    · cases failed
      exact .inl rfl
    · cases failed

/-! ## Building -/

/-- All pages compile and are made aside, but removing the published ones loses them. -/
structure LosesPages (disk : Disk) (project : Project) (options : BuildOptions)
    (trouble : BuildTrouble) : Prop where
  prepares : ∃ ready, prepare disk project options trouble = .ok ready
  loses : LosesTree disk project.live trouble.removal

/-- Nothing is gone, or only what was published. -/
def LosesAtMostPages (disk : Disk) (project : Project) (after : Disk) : Prop :=
  after = disk ∨ ∃ place, disk.placeOf project.live = .ok place ∧ disk.Empties after place

theorem buildWith_changes_iff :
    (∃ error after, buildWith disk project options trouble = (.error error, after) ∧
      after ≠ disk) ↔ project.LosesPages disk options trouble := by
  constructor
  · rintro ⟨error, after, failed, changed⟩
    unfold buildWith at failed
    split at failed
    · cases failed
      exact absurd rfl changed
    · next compiled staged prepared =>
      refine ⟨⟨_, prepared⟩, (publish_changes_iff staged).1 ?_⟩
      split at failed
      · next published =>
        cases failed
        exact ⟨_, _, published, changed⟩
      · cases failed
  · rintro ⟨⟨⟨compiled, staged⟩, prepared⟩, loses⟩
    obtain ⟨error, after, published, changed⟩ := (publish_changes_iff staged).2 loses
    rw [buildWith, prepared]
    simp only [live, published]
    exact ⟨_, after, rfl, changed⟩

theorem losesAtMostPages_of_buildWith
    (failed : buildWith disk project options trouble = (.error error, after)) :
    project.LosesAtMostPages disk after := by
  unfold buildWith at failed
  split at failed
  · cases failed
    exact .inl rfl
  · split at failed
    · next published =>
      cases failed
      exact empties_of_publish published
    · cases failed

theorem build_changes_iff :
    (∃ error after, build disk project trouble = (.error error, after) ∧ after ≠ disk) ↔
      ∃ config, project.config disk = .ok config ∧
        project.LosesPages disk config.build trouble := by
  unfold build
  cases project.config disk with
  | error fault =>
      constructor
      · rintro ⟨error, after, failed, changed⟩
        cases failed
        exact absurd rfl changed
      · rintro ⟨config, impossible, _⟩
        cases impossible
  | ok config => simp [buildWith_changes_iff]

theorem losesAtMostPages_of_build
    (failed : build disk project trouble = (.error error, after)) :
    project.LosesAtMostPages disk after := by
  unfold build at failed
  split at failed
  · cases failed
    exact .inl rfl
  · exact losesAtMostPages_of_buildWith failed

/-! ## Discovered projects -/

/-- The root of a project that was discovered is its own canonical path. -/
theorem isCanonical_of_discover (discovered : discover disk start = .ok project) :
    disk.IsCanonical project.root := by
  obtain ⟨found, looked, chosen⟩ := Except.bind_eq_ok.1 discovered
  cases found with
  | none => cases chosen
  | some nearest =>
      cases chosen
      unfold find? at looked
      split at looked
      · next place canonical =>
          obtain ⟨root, isNearest, same⟩ := Option.map_eq_some_iff.1 (Except.ok.inj looked)
          have isAbove := Path.mem_ancestors.1 (List.mem_of_find?_eq_some isNearest)
          rw [← same]
          exact (Disk.isCanonical_of_canonical canonical).front isAbove
      · cases looked

/-- A build that fails under a canonical path loses nothing, unless something keeps the removal of
the old pages from its end. -/
theorem not_losesPages_of_isCanonical (canonical : disk.IsCanonical project.root)
    (unobstructed : trouble.removal = none) : ¬ project.LosesPages disk options trouble := by
  rintro ⟨_, loses⟩
  rw [unobstructed] at loses
  cases loses with
  | cutOff cutsOff => exact Disk.not_cutsOff_of_isCanonical canonical cutsOff

theorem buildWith_of_isCanonical (canonical : disk.IsCanonical project.root)
    (failed : buildWith disk project options trouble = (.error error, after))
    (unobstructed : trouble.removal = none) : after = disk := by
  by_contra changed
  exact not_losesPages_of_isCanonical canonical unobstructed
    (buildWith_changes_iff.1 ⟨error, after, failed, changed⟩)

theorem build_of_isCanonical (canonical : disk.IsCanonical project.root)
    (failed : build disk project trouble = (.error error, after))
    (unobstructed : trouble.removal = none) : after = disk := by
  by_contra changed
  obtain ⟨_, _, losesPages⟩ := build_changes_iff.1 ⟨error, after, failed, changed⟩
  exact not_losesPages_of_isCanonical canonical unobstructed losesPages

/-! ## Building under the lock -/

/-- What is made for a lock: its file, which is empty, and directories above it. -/
def MadeForLock (path other : Path) (entry : Entry) : Prop :=
  other <+: path.parent ∧ entry = .directory ∨ other = path ∧ entry = .file []

/-- The host behind an attempt to take the build lock, and the lock if it was taken. -/
def lockForBuild (host : Host) (project : Project) (trouble : BuildTrouble) :
    Except LockError HeldLock × Host :=
  host.acquire project.buildLock .exclusive "site build".toList trouble.lock

/-- Taking a lock adds its file and the directories above it where they are missing. -/
theorem acquire_grows (host : Host) (path : Path) (mode : LockMode) (description : Text)
    (trouble : LockTrouble := {}) :
    host.disk.Grows (host.acquire path mode description trouble).2.disk (MadeForLock path) := by
  have rooms : host.disk.Grows (host.disk.makeDirectories path.parent trouble.making).2
      (MadeForLock path) :=
    (Disk.makeDirectories_grows host.disk path.parent trouble.making).weaken fun _ _ => .inl
  unfold Host.acquire
  split
  · next fault partly made =>
      rw [made] at rooms
      exact rooms
  · next ready made =>
      rw [made] at rooms
      split
      · exact rooms
      · next place opened opening =>
          obtain ⟨_, opening⟩ := Except.check_bind_eq_ok.1 opening
          have whole := rooms.trans ((Disk.openToWrite_grows opening).weaken fun _ _ => .inr)
          dsimp only
          split
          · exact whole
          · split <;> exact whole

theorem buildLocked_changes_iff {host : Host} :
    (∃ error after, buildLocked host project trouble = (.error error, after) ∧
      after.disk ≠ (lockForBuild host project trouble).2.disk) ↔
    (∃ held, (lockForBuild host project trouble).1 = .ok held) ∧
      ∃ error after,
        build (lockForBuild host project trouble).2.disk project trouble = (.error error, after) ∧
          after ≠ (lockForBuild host project trouble).2.disk := by
  unfold buildLocked Host.withLock lockForBuild
  generalize host.acquire project.buildLock .exclusive "site build".toList trouble.lock = acquired
  obtain ⟨outcome, ready⟩ := acquired
  cases outcome with
  | error fault =>
      constructor
      · rintro ⟨error, after, failed, changed⟩
        cases failed
        exact absurd rfl changed
      · rintro ⟨⟨held, impossible⟩, _⟩
        cases impossible
  | ok held =>
      dsimp only [buildOn]
      generalize build ready.disk project trouble = built
      obtain ⟨result, after⟩ := built
      cases result with
      | ok report => simp [Host.afterReplacing]
      | error fault => simp [Host.afterReplacing, Host.release, Host.withDisk]

/-- A build under the lock that fails does so at the lock, or as a build without one. -/
theorem build_of_buildLocked {host left : Host}
    (failed : buildLocked host project trouble = (.error error, left)) :
    left.disk = (lockForBuild host project trouble).2.disk ∨
      ∃ error, build (lockForBuild host project trouble).2.disk project trouble
        = (.error error, left.disk) := by
  unfold buildLocked Host.withLock at failed
  unfold lockForBuild
  generalize host.acquire project.buildLock .exclusive "site build".toList trouble.lock = acquired
    at failed
  obtain ⟨outcome, ready⟩ := acquired
  cases outcome with
  | error fault =>
      cases failed
      exact .inl rfl
  | ok held =>
      dsimp only [buildOn] at failed
      generalize build ready.disk project trouble = built at failed
      obtain ⟨result, after⟩ := built
      cases result with
      | ok report => cases failed
      | error fault =>
          simp only [Host.afterReplacing, Prod.mk.injEq] at failed
          obtain ⟨_, rfl⟩ := failed
          exact .inr ⟨fault, rfl⟩

/-! ## Failed builds -/

/-- The project was found by going up from some directory. -/
def IsDiscovered (project : Project) (disk : Disk) : Prop :=
  ∃ start, discover disk start = .ok project

/-- What is left of the disk by a build that failed. -/
structure Leaves (disk : Disk) (project : Project) (trouble : BuildTrouble) (discovered : Prop)
    (after : Disk) : Prop where
  /-- Only published pages can be gone. -/
  loses : project.LosesAtMostPages disk after
  /-- In a project that was discovered it takes an obstacle to removing them. -/
  keeps : discovered → trouble.removal = none → after = disk

/-- Builds that fail leave the disk as it was, and under the lock as it was with the lock's file
made, exactly if they do not lose the published pages. -/
theorem failed_build_changes_iff (host : Host) (project : Project) (trouble : BuildTrouble) :
    (∀ options,
      ((∃ error after, buildWith host.disk project options trouble = (.error error, after) ∧
        after ≠ host.disk) ↔ project.LosesPages host.disk options trouble) ∧
      ∀ error after, buildWith host.disk project options trouble = (.error error, after) →
        project.Leaves host.disk trouble (project.IsDiscovered host.disk) after) ∧
    ((∃ error after, build host.disk project trouble = (.error error, after) ∧
        after ≠ host.disk) ↔
      ∃ config, project.config host.disk = .ok config ∧
        project.LosesPages host.disk config.build trouble) ∧
    (∀ error after, build host.disk project trouble = (.error error, after) →
      project.Leaves host.disk trouble (project.IsDiscovered host.disk) after) ∧
    host.disk.Grows (lockForBuild host project trouble).2.disk (MadeForLock project.buildLock) ∧
    ((∃ error after, buildLocked host project trouble = (.error error, after) ∧
        after.disk ≠ (lockForBuild host project trouble).2.disk) ↔
      (∃ held, (lockForBuild host project trouble).1 = .ok held) ∧
        ∃ config, project.config (lockForBuild host project trouble).2.disk = .ok config ∧
          project.LosesPages (lockForBuild host project trouble).2.disk config.build trouble) ∧
    ∀ error after, buildLocked host project trouble = (.error error, after) →
      project.Leaves (lockForBuild host project trouble).2.disk trouble
        (project.IsDiscovered host.disk) after.disk := by
  have grows := acquire_grows host project.buildLock .exclusive "site build".toList trouble.lock
  refine ⟨fun options => ⟨buildWith_changes_iff, fun error after failed => ⟨?_, ?_⟩⟩,
    build_changes_iff, fun error after failed => ⟨losesAtMostPages_of_build failed, ?_⟩, grows, ?_,
    fun error after failed => ⟨?_, ?_⟩⟩
  · exact losesAtMostPages_of_buildWith failed
  · rintro ⟨start, discovered⟩
    exact buildWith_of_isCanonical (isCanonical_of_discover discovered) failed
  · rintro ⟨start, discovered⟩
    exact build_of_isCanonical (isCanonical_of_discover discovered) failed
  · rw [buildLocked_changes_iff, build_changes_iff]
  · rcases build_of_buildLocked failed with same | ⟨_, failed⟩
    · exact .inl same
    · exact losesAtMostPages_of_build failed
  · -- What the lock adds takes nothing from the canonical path.
    rintro ⟨start, discovered⟩ unobstructed
    rcases build_of_buildLocked failed with same | ⟨_, failed⟩
    · exact same
    · exact build_of_isCanonical ((isCanonical_of_discover discovered).mono grows.within) failed
        unobstructed

/-- A site without pages, with a link back to itself among the published ones. -/
def loopedSite : Disk :=
  (((Disk.empty.put [liveName] .directory).put [liveName, "up".toList] (.link "..".toList)).put
    [liveName, "x".toList] (.file [49])).put [templatesName] .directory

theorem loopedSite_build_changes : ∃ error after,
    buildWith loopedSite { root := [liveName, "up".toList] } {} = (.error error, after) ∧
      after ≠ loopedSite := by
  refine buildWith_changes_iff.2 ⟨⟨([], Disk.empty), by cbv⟩, .cutOff ?_⟩
  -- The path leads through `live` to the site, and there to `live` itself.
  exact ⟨by cbv, [liveName], .notFound, by cbv, by cbv, by cbv⟩

end Project

end StaticSite
