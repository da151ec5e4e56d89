import StaticSite.Proofs.Disk.Replacing
import StaticSite.Proofs.Disk.Trees

/-!
# Making a directory and those above it

Directories that are made for a path lie one in the other, the last one where the path leads, and
all of them are new and empty.  Hence what stands under a name in that directory stood there before,
and a name that was out of reach has nothing under it.
-/

namespace StaticSite.Disk

variable {disk made larger : Disk} {path front place here other : Path} {name : Text}
  {names : List Text} {entry : Entry} {fault : Fault} {refusal : Option Fault}
  {refused : Path → Option Fault}

/-- A name in a directory that a path leads to. -/
theorem Reaches.place_eq (reaches : disk.Reaches front here)
    (found : disk.placeOf (front ++ [name]) = .ok place) : place = here ++ [name] := by
  obtain ⟨_, parent, followed, _, _, rfl⟩ := placeOf_snoc_eq_ok.1 found
  obtain ⟨_, leads⟩ := reaches.leads
  rw [leads.follow] at followed
  rw [Except.ok.inj followed]

theorem Reaches.unique (reaches : disk.Reaches front here) (reaches' : disk.Reaches front other) :
    other = here := by
  obtain ⟨_, leads⟩ := reaches.leads
  obtain ⟨_, leads'⟩ := reaches'.leads
  exact Except.ok.inj (leads'.follow.symm.trans leads.follow)

/-- A name that is no link leads to what stands under it. -/
theorem Reaches.eq_append_of_follow (reaches : disk.Reaches front here)
    (noLink : ∀ target, disk.entry? (here ++ [name]) ≠ some (.link target))
    (followed : disk.follow false maxLinks ((front ++ [name]).map .enter) [] = .ok other) :
    disk.entry? here = some .directory ∧ other = here ++ [name] := by
  obtain ⟨_, whole⟩ := follow_eq_ok.1 followed
  rw [List.map_append] at whole
  obtain ⟨_, middle, upTo, behind⟩ := whole.split
  cases behind with
  | enter inside _ _ _ more =>
    obtain rfl := reaches.unique ⟨⟨_, upTo⟩, inside⟩
    cases more
    exact ⟨inside, rfl⟩
  | link inside _ stands _ =>
    obtain rfl := reaches.unique ⟨⟨_, upTo⟩, inside⟩
    exact absurd stands (noLink _)

/-- The directory is there by now: it was before, or its place was free. -/
theorem ensureDirectory_eq_ok (ensured : disk.ensureDirectory path = .ok made) :
    checkPathText path.text = .ok () ∧ ∃ place, made.Reaches path place ∧
      (made = disk ∨ disk.placeOf path = .ok place ∧ disk.entry? place = none ∧
        made = disk.put place .directory) := by
  unfold ensureDirectory at ensured
  split at ensured
  · next making =>
    cases ensured
    obtain ⟨_, place, found, free, rfl⟩ := makeDirectory_eq_ok.1 making
    have stands : entry? (disk.put place .directory) place = some .directory :=
      entry?_put_self (nonempty_of_free free)
    have leads := resolve_of_placeOf found (within_put free) stands (by simp)
    exact ⟨(Except.check_bind_eq_ok.1 found).1, place,
      ⟨follow_eq_ok.1 (resolve_eq_ok.1 leads).2, stands⟩, .inr ⟨found, free, rfl⟩⟩
  · split at ensured
    · next isDirectory =>
      cases ensured
      obtain ⟨here, reaches⟩ := reaches_of_isDirectory isDirectory
      exact ⟨(find_eq_ok.1 (isDirectory_eq_true.1 isDirectory)).1, here, reaches, .inl rfl⟩
    · cases ensured

theorem isDirectory_of_ensureDirectory (ensured : disk.ensureDirectory path = .ok made) :
    made.isDirectory path = true := by
  obtain ⟨checked, _, reaches, _⟩ := ensureDirectory_eq_ok ensured
  exact reaches.isDirectory checked

/-- Where a directory can be made or is there already, the one above it is there. -/
theorem isDirectory_above_of_ensureDirectory
    (ensured : disk.ensureDirectory (front ++ [name]) = .ok made) :
    disk.isDirectory front = true := by
  obtain ⟨_, place, reaches, same | ⟨located, _⟩⟩ := ensureDirectory_eq_ok ensured
  · have isDirectory := isDirectory_of_ensureDirectory ensured
    rw [same] at isDirectory
    exact isDirectory_of_find_append (isDirectory_eq_true.1 isDirectory) (List.cons_ne_nil name [])
  · obtain ⟨parent, reaches, checked⟩ := reaches_of_placeOf located
    exact reaches.isDirectory checked

/-- A climb that succeeds although something could be refused comes to the same if nothing is. -/
theorem makeClimbing_of_refused (climbed : disk.makeClimbing names refused = (.ok (), made)) :
    disk.makeClimbing names = (.ok (), made) := by
  induction names generalizing made with
  | nil => exact climbed
  | cons name above ih =>
    rw [makeClimbing, List.reverse_cons] at climbed ⊢
    cases first : disk.ensureDirectory (above.reverse ++ [name])
        (refused (above.reverse ++ [name])) with
    | ok found =>
      rw [first] at climbed
      rw [ensureDirectory_of_refusal first]
      exact climbed
    | error fault =>
      rw [first] at climbed
      split at climbed
      · next isOk => cases isOk
      · next isFault =>
        cases isFault
        split at climbed
        · cases climbed
        · next ready higher =>
          split at climbed
          · next second =>
            cases climbed
            cases plain : disk.ensureDirectory (above.reverse ++ [name]) with
            | error fault =>
              obtain rfl := ensureDirectory_error_of_refusal first plain
              simp only [ih higher, ensureDirectory_of_refusal second]
            | ok found =>
              -- The one above is there, so nothing has changed since the first attempt.
              have there := isDirectory_above_of_ensureDirectory plain
              have still := makeDirectories_of_isDirectory there refused
              rw [makeDirectories, List.reverse_reverse, higher] at still
              obtain rfl := (Prod.mk.inj still).2
              rw [first] at second
              cases second
          · cases climbed
      · cases climbed

theorem makeDirectories_of_refused (made' : disk.makeDirectories path refused = (.ok (), made)) :
    disk.makeDirectories path = (.ok (), made) :=
  makeClimbing_of_refused made'

/-- What has been made for a path on the way to `place`: nothing, or a directory at `place` itself
and some above it. -/
def MadeUpTo (disk made : Disk) (place : Path) : Prop :=
  made = disk ∨ disk.entry? place = none ∧
    ∀ other entry, made.entry? other = some entry → disk.entry? other = none → other <+: place

/-- One more directory below those that have been made. -/
theorem MadeUpTo.put (upTo : disk.MadeUpTo made here) (within : disk.Within made)
    (isBelow : here <+: place) (free : made.entry? place = none) :
    disk.MadeUpTo (made.put place .directory) place := by
  refine .inr ⟨within.free free, fun other entry stands isFree => ?_⟩
  by_cases same : other = place
  · exact same ▸ List.prefix_rfl
  · rw [entry?_put_of_ne same] at stands
    rcases upTo with rfl | ⟨_, new⟩
    · rw [isFree] at stands
      cases stands
    · exact (new other entry stands isFree).trans isBelow

end StaticSite.Disk
