import StaticSite.Proofs.Disk.Fronts
import StaticSite.Proofs.Disk.Interrupted
import StaticSite.Proofs.Disk.Members

/-!
# Files in place of links

A file that is put where a link was ends the look-ups that led through the link.  A link that leads
to no directory is never in the middle of a look-up, so in its place a file cuts nothing off.
-/

namespace StaticSite.Disk

variable {disk larger : Disk} {creating : Bool} {links : Nat} {todo first second : List PathStep}
  {path place here goal other : Path} {name : Text} {names : List Text} {bytes : List UInt8}

/-- What the path leads to, with all links followed, is a directory. -/
def LeadsToDirectory (disk : Disk) (path : Path) : Prop :=
  ∃ goal, disk.follow false maxLinks (path.map .enter) [] = .ok goal ∧
    disk.entry? goal = some .directory

/-- Steps that others come behind lead to a directory. -/
theorem leads_of_follow_append (more : second ≠ [])
    (followed : disk.follow creating links (first ++ second) here = .ok goal) :
    ∃ left middle, disk.Leads links first here left middle ∧
      disk.entry? middle = some .directory := by
  generalize steps : first ++ second = todo at followed
  fun_induction disk.follow creating links todo here generalizing first with
  | case1 links here => exact absurd (List.append_eq_nil_iff.1 steps).2 more
  | case2 | case6 | case7 | case9 | case10 => cases followed
  | case3 links here rest inside ih =>
    have inside := Decidable.not_not.1 inside
    rcases List.append_eq_cons_iff.1 steps with ⟨rfl, rfl⟩ | ⟨tail, rfl, rfl⟩
    · exact ⟨links, here, .arrived, inside⟩
    · obtain ⟨left, middle, leads, isDirectory⟩ := ih rfl followed
      exact ⟨left, middle, .stay inside leads, isDirectory⟩
  | case4 links here rest inside ih =>
    have inside := Decidable.not_not.1 inside
    rcases List.append_eq_cons_iff.1 steps with ⟨rfl, rfl⟩ | ⟨tail, rfl, rfl⟩
    · exact ⟨links, here, .arrived, inside⟩
    · obtain ⟨left, middle, leads, isDirectory⟩ := ih rfl followed
      exact ⟨left, middle, .close inside leads, isDirectory⟩
  | case5 links here rest inside ih =>
    have inside := Decidable.not_not.1 inside
    rcases List.append_eq_cons_iff.1 steps with ⟨rfl, rfl⟩ | ⟨tail, rfl, rfl⟩
    · exact ⟨links, here, .arrived, inside⟩
    · obtain ⟨left, middle, leads, isDirectory⟩ := ih rfl followed
      exact ⟨left, middle, .up inside leads, isDirectory⟩
  | case8 links here rest inside name _ short missing free =>
    -- Only a last step may find nothing, and this one is not the last.
    rw [Bool.and_eq_true, List.isEmpty_iff] at free
    rcases List.append_eq_cons_iff.1 steps with ⟨rfl, _⟩ | ⟨tail, rfl, same⟩
    · exact ⟨links, here, .arrived, Decidable.not_not.1 inside⟩
    · rw [free.2] at same
      exact absurd (List.append_eq_nil_iff.1 same.symm).2 more
  | case11 here rest inside name _ short target found links ih =>
    have inside := Decidable.not_not.1 inside
    rcases List.append_eq_cons_iff.1 steps with ⟨rfl, rfl⟩ | ⟨tail, rfl, rfl⟩
    · exact ⟨links + 1, here, .arrived, inside⟩
    · obtain ⟨left, middle, leads, isDirectory⟩ := ih (List.append_assoc _ _ _) followed
      exact ⟨left, middle, .link inside (Nat.not_lt.1 short) found leads, isDirectory⟩
  | case12 links here rest inside name _ short entry noLink found ih =>
    have inside := Decidable.not_not.1 inside
    rcases List.append_eq_cons_iff.1 steps with ⟨rfl, rfl⟩ | ⟨tail, rfl, rfl⟩
    · exact ⟨links, here, .arrived, inside⟩
    · obtain ⟨left, middle, leads, isDirectory⟩ := ih rfl followed
      exact ⟨left, middle, .enter inside (Nat.not_lt.1 short) found noLink leads, isDirectory⟩

/-- A link whose target is followed before other steps leads to a directory. -/
theorem leadsToDirectory_of_link {target : Text} (canonical : disk.IsCanonical here)
    (enough : links < maxLinks) (inside : disk.entry? here = some .directory)
    (short : Text.byteLength name ≤ maxNameBytes)
    (found : disk.entry? (here ++ [name]) = some (.link target)) {left : Nat}
    (leads : disk.Leads links (PathStep.ofText target)
      (if PathText.isRooted target then [] else here) left goal)
    (isDirectory : disk.entry? goal = some .directory) :
    disk.LeadsToDirectory (here ++ [name]) := by
  obtain ⟨extra, sum⟩ := Nat.exists_eq_add_of_le (Nat.succ_le_of_lt enough)
  have onward := leads.moreLinks extra
  rw [← List.append_nil (PathStep.ofText target)] at onward
  have step : disk.Leads (links + extra + 1) [.enter name] here (left + extra) goal :=
    .link inside short found onward
  rw [Nat.add_right_comm, ← Nat.succ_eq_add_one, ← sum] at step
  refine ⟨goal, ?_, isDirectory⟩
  rw [List.map_append]
  exact (canonical.leads.append step).follow

theorem writeTarget_eq_ok : disk.writeTarget path = .ok place ↔
    checkPathText path.text = .ok () ∧
      disk.follow true maxLinks (path.map .enter) [] = .ok place := by
  rw [writeTarget, Except.check_bind_eq_ok]

theorem openToWrite_eq_ok : disk.openToWrite path = .ok (place, larger) ↔
    disk.writeTarget path = .ok place ∧ disk.AcceptsFile place ∧
      larger = disk.fill place (.file []) := by
  rw [openToWrite, Except.bind_eq_ok]
  constructor
  · rintro ⟨target, located, opened⟩
    cases stands : disk.entry? target with
    | none =>
      rw [stands] at opened
      cases opened
      exact ⟨located, .inl stands, (fill_of_free stands).symm⟩
    | some entry =>
      rw [stands] at opened
      cases entry with
      | file bytes =>
        cases opened
        exact ⟨located, .inr (holdsFile_eq_true.2 ⟨_, stands⟩), (fill_of_stands stands).symm⟩
      | directory | link => cases opened
  · rintro ⟨located, accepts, rfl⟩
    refine ⟨place, located, ?_⟩
    rcases accepts with free | isFile
    · rw [free, fill_of_free free]
    · obtain ⟨_, stands⟩ := holdsFile_eq_true.1 isFile
      rw [stands, fill_of_stands stands]

theorem Reaches.isDirectory (reaches : disk.Reaches path here)
    (checked : checkPathText path.text = .ok ()) : disk.isDirectory path = true := by
  obtain ⟨leads, inside⟩ := reaches
  have canonical : disk.resolve path = .ok here :=
    resolve_eq_ok.2 ⟨(checkPathText_eq_ok.1 checked).1, follow_eq_ok.2 leads⟩
  exact isDirectory_eq_true.2 (find_eq_ok.2 ⟨checked, here, canonical, inside⟩)

theorem reaches_of_placeOf {above : Path} (found : disk.placeOf (above ++ [name]) = .ok place) :
    ∃ parent, disk.Reaches above parent ∧ checkPathText above.text = .ok () := by
  obtain ⟨checked, parent, followed, inside, _⟩ := placeOf_snoc_eq_ok.1 found
  exact ⟨parent, ⟨follow_eq_ok.1 followed, inside⟩,
    checkPathText_of_prefix (Path.text_prefix (List.prefix_append _ _)) checked⟩

/-- A path that leads to a file has a place, and no link to a directory stands there. -/
theorem placeOf_of_readBytes {above : Path} (read : disk.readBytes (above ++ [name]) = .ok bytes) :
    ∃ place, disk.placeOf (above ++ [name]) = .ok place ∧
      disk.entry? place ≠ some .directory ∧ ¬ disk.LeadsToDirectory place := by
  obtain ⟨checked, goal, canonical, isFile⟩ := find_eq_ok.1 (readBytes_eq_ok.1 read)
  obtain ⟨left, whole⟩ := follow_eq_ok.1 (resolve_eq_ok.1 canonical).2
  rw [List.map_append] at whole
  obtain ⟨between, parent, front, behind⟩ := whole.split
  -- The place itself leads to the file too, with more links left for what is behind it.
  obtain ⟨used, sum⟩ := Nat.exists_eq_add_of_le front.left_le
  have onward := behind.moreLinks used
  rw [← sum] at onward
  have leads : disk.Leads maxLinks ((parent ++ [name]).map .enter) [] (left + used) goal := by
    rw [List.map_append]
    exact (front.isCanonical isCanonical_nil).leads.append onward
  have harmless : ¬ disk.LeadsToDirectory (parent ++ [name]) := by
    rintro ⟨other, followed, isDirectory⟩
    rw [leads.follow] at followed
    cases followed
    rw [isFile] at isDirectory
    cases isDirectory
  cases behind with
  | enter inside short stands _ more =>
    cases more
    exact ⟨parent ++ [name],
      placeOf_snoc_eq_ok.2 ⟨checked, parent, front.follow, inside, short, rfl⟩,
      by simp [isFile], harmless⟩
  | link inside short stands _ =>
    exact ⟨parent ++ [name],
      placeOf_snoc_eq_ok.2 ⟨checked, parent, front.follow, inside, short, rfl⟩,
      by simp [stands], harmless⟩

/-- With the file there nothing has to be made to open it. -/
theorem openToWrite_eq_self : disk.openToWrite path = .ok (place, disk) ↔
    disk.writeTarget path = .ok place ∧ disk.holdsFile place = true := by
  rw [openToWrite_eq_ok]
  constructor
  · rintro ⟨located, accepts, same⟩
    rw [same]
    exact ⟨same ▸ located, accepts.fill⟩
  · rintro ⟨located, isFile⟩
    obtain ⟨_, stands⟩ := holdsFile_eq_true.1 isFile
    exact ⟨located, .inr isFile, (fill_of_stands stands).symm⟩

theorem replaceFile_eq_ok : disk.replaceFile path bytes = .ok larger ↔
    '\x00' ∉ path.text ∧ ∃ place, disk.placeOf path = .ok place ∧
      disk.entry? place ≠ some .directory ∧ larger = disk.put place (.file bytes) := by
  unfold replaceFile
  by_cases inside : '\x00' ∈ path.text
  · simp [inside]
  · rw [if_neg inside, Except.bind_eq_ok]
    simp only [inside, not_false_eq_true, true_and]
    refine exists_congr fun place => and_congr_right fun _ => ?_
    cases stands : disk.entry? place with
    | none => simp [eq_comm]
    | some entry => cases entry <;> simp [eq_comm]

/-- A file that can be opened is led to. -/
theorem leads_of_openToWrite (opened : disk.openToWrite path = .ok (place, disk)) :
    ∃ left, disk.Leads maxLinks (path.map .enter) [] left place := by
  obtain ⟨located, isFile⟩ := openToWrite_eq_self.1 opened
  obtain ⟨_, stands⟩ := holdsFile_eq_true.1 isFile
  exact leads_of_follow_within (writeTarget_eq_ok.1 located).2 (.refl disk)
    fun _ => ⟨_, stands, nofun⟩

theorem Leads.directory_of_close {left : Nat} (leads : disk.Leads links [.close] here left place) :
    disk.entry? place = some .directory := by
  cases leads with
  | close inside more =>
    cases more
    exact inside

/-- No step leads on from a file. -/
theorem Leads.of_file {left : Nat} (leads : disk.Leads links todo here left place)
    (isFile : disk.entry? here = some (.file bytes)) : todo = [] ∧ place = here := by
  cases leads with
  | arrived => exact ⟨rfl, rfl⟩
  | stay inside | close inside | up inside | enter inside | link inside =>
    rw [isFile] at inside
    cases inside

/-- What leads to a file is followed to it even if its last name may be free. -/
theorem Leads.follow_file {left : Nat} (leads : disk.Leads links todo here left place)
    (isFile : disk.holdsFile place = true) (creating : Bool) :
    disk.follow creating links todo here = .ok place := by
  have notDirectory : disk.entry? place ≠ some .directory := by
    intro isDirectory
    rw [holdsFile, isDirectory] at isFile
    cases isFile
  induction leads with
  | arrived => rw [Disk.follow]
  | stay inside _ ih => simpa [Disk.follow, inside] using ih isFile notDirectory
  | close inside _ ih => simpa [Disk.follow, inside] using ih isFile notDirectory
  | up inside _ ih => simpa [Disk.follow, inside] using ih isFile notDirectory
  | @enter links left name rest here place entry inside short found noLink more ih =>
    -- A slash at the end would ask for a directory.
    have noClose : (rest == [.close]) = false := by
      rw [beq_eq_false_iff_ne]
      rintro rfl
      exact notDirectory more.directory_of_close
    rw [Disk.follow, if_neg (not_not_intro inside)]
    simp only [noClose, Bool.and_false, Bool.false_eq_true, if_false, Nat.not_lt.2 short, found]
    cases entry with
    | link target => exact absurd rfl (noLink target)
    | directory | file => exact ih isFile notDirectory
  | @link links left name target rest here place inside short found more ih =>
    have noClose : (rest == [.close]) = false := by
      rw [beq_eq_false_iff_ne]
      rintro rfl
      obtain ⟨_, _, _, behind⟩ := more.split
      exact notDirectory behind.directory_of_close
    rw [Disk.follow, if_neg (not_not_intro inside)]
    simp only [noClose, Bool.and_false, Bool.false_eq_true, if_false, Nat.not_lt.2 short, found]
    exact ih isFile notDirectory

theorem reaches_of_isDirectory (isDirectory : disk.isDirectory path = true) :
    ∃ here, disk.Reaches path here := by
  obtain ⟨_, here, canonical, inside⟩ := find_eq_ok.1 (isDirectory_eq_true.1 isDirectory)
  exact ⟨here, follow_eq_ok.1 (resolve_eq_ok.1 canonical).2, inside⟩

section

variable (notDirectory : disk.entry? place ≠ some .directory)

include notDirectory

theorem ne_nil_of_notDirectory : place ≠ [] := by
  rintro rfl
  exact notDirectory rfl

theorem directory_put (bytes : List UInt8) (inside : disk.entry? other = some .directory) :
    entry? (disk.put place (.file bytes)) other = some .directory := by
  rw [entry?_put_of_ne, inside]
  rintro rfl
  exact notDirectory inside

/-- A look-up comes to the same, or to the new file where it followed the old link to its end. -/
theorem follow_put_file (harmless : ¬ disk.LeadsToDirectory place)
    (canonical : disk.IsCanonical here) (enough : links ≤ maxLinks)
    (followed : disk.follow creating links todo here = .ok goal) :
    (disk.put place (.file bytes)).follow creating links todo here = .ok goal ∨
      (disk.put place (.file bytes)).follow creating links todo here = .ok place ∧
        disk.entry? goal ≠ some .directory := by
  fun_induction disk.follow creating links todo here with
  | case1 links here =>
    rw [Disk.follow]
    exact .inl followed
  | case2 | case6 | case7 | case9 | case10 => cases followed
  | case3 links here rest inside ih | case4 links here rest inside ih =>
    have inside := directory_put notDirectory bytes (Decidable.not_not.1 inside)
    rw [Disk.follow, if_neg (not_not_intro inside)]
    exact ih canonical enough followed
  | case5 links here rest inside ih =>
    have inside := directory_put notDirectory bytes (Decidable.not_not.1 inside)
    rw [Disk.follow, if_neg (not_not_intro inside)]
    exact ih (canonical.front (List.dropLast_prefix _)) enough followed
  | case8 links here rest inside name noClose short missing free =>
    cases followed
    have inside := directory_put notDirectory bytes (Decidable.not_not.1 inside)
    rw [Disk.follow, if_neg (not_not_intro inside)]
    simp only [noClose, Bool.false_eq_true, if_false, short]
    by_cases same : here ++ [name] = place
    · obtain rfl : rest = [] := by
        rw [Bool.and_eq_true, List.isEmpty_iff] at free
        exact free.2
      -- The step that was allowed to lead nowhere is the last one, and it finds the new file.
      rw [same, entry?_put_self (ne_nil_of_notDirectory notDirectory), Disk.follow]
      exact .inl rfl
    · rw [entry?_put_of_ne same, missing]
      simp only [free, if_true]
      exact .inl trivial
  | case11 here rest inside name noClose short target found links ih =>
    have inside := Decidable.not_not.1 inside
    have inside' := directory_put notDirectory bytes inside
    have canonical' : disk.IsCanonical (if PathText.isRooted target then [] else here) := by
      split
      · exact isCanonical_nil
      · exact canonical
    rw [Disk.follow, if_neg (not_not_intro inside')]
    simp only [noClose, Bool.false_eq_true, if_false, short]
    by_cases same : here ++ [name] = place
    · -- With steps left behind it the link would be one to a directory.
      obtain rfl : rest = [] := by
        by_contra more
        obtain ⟨left, middle, leads, isDirectory⟩ := leads_of_follow_append more followed
        exact harmless (same ▸ leadsToDirectory_of_link canonical enough inside
          (Nat.not_lt.1 short) found leads isDirectory)
      rw [same, entry?_put_self (ne_nil_of_notDirectory notDirectory), Disk.follow]
      refine .inr ⟨rfl, fun isDirectory => ?_⟩
      rw [List.append_nil] at followed
      obtain ⟨left, leads⟩ := leads_of_follow_within followed (.refl disk) fun _ =>
        ⟨_, isDirectory, by simp⟩
      exact harmless (same ▸ leadsToDirectory_of_link canonical enough inside
        (Nat.not_lt.1 short) found leads isDirectory)
    · rw [entry?_put_of_ne same, found]
      exact ih canonical' (Nat.le_of_succ_le enough) followed
  | case12 links here rest inside name noClose short entry noLink found ih =>
    have inside := Decidable.not_not.1 inside
    have inside' := directory_put notDirectory bytes inside
    have further := ih (isCanonical_snoc canonical inside (Nat.not_lt.1 short) found noLink) enough
      followed
    rw [Disk.follow, if_neg (not_not_intro inside')]
    simp only [noClose, Bool.false_eq_true, if_false, short]
    by_cases same : here ++ [name] = place
    · rw [same, entry?_put_self (ne_nil_of_notDirectory notDirectory)]
      rwa [same] at further
    · rw [entry?_put_of_ne same, found]
      cases entry with
      | link target => exact absurd rfl (noLink target)
      | directory | file => exact further

theorem Reaches.put_file {front : Path} (harmless : ¬ disk.LeadsToDirectory place)
    (reaches : disk.Reaches front here) : (disk.put place (.file bytes)).Reaches front here := by
  obtain ⟨⟨left, leads⟩, inside⟩ := reaches
  refine ⟨follow_eq_ok.1 ?_, directory_put notDirectory _ inside⟩
  rcases follow_put_file notDirectory harmless isCanonical_nil (Nat.le_refl _) leads.follow with
    same | ⟨_, noDirectory⟩
  · exact same
  · exact absurd inside noDirectory

theorem holdsFile_put_file (isFile : disk.holdsFile other = true ∨ other = place) :
    holdsFile (disk.put place (.file bytes)) other = true := by
  by_cases same : other = place
  · rw [same, holdsFile, entry?_put_self (ne_nil_of_notDirectory notDirectory)]
  · rw [holdsFile, entry?_put_of_ne same]
    exact isFile.resolve_right same

/-- A file that can be opened can still be opened, though maybe in the new place. -/
theorem openToWrite_put_file (bytes : List UInt8) (harmless : ¬ disk.LeadsToDirectory place)
    (opened : disk.openToWrite path = .ok (goal, disk)) :
    ∃ opens, (opens = goal ∨ opens = place) ∧
      (disk.put place (.file bytes)).openToWrite path
        = .ok (opens, disk.put place (.file bytes)) := by
  obtain ⟨located, isFile⟩ := openToWrite_eq_self.1 opened
  obtain ⟨checked, followed⟩ := writeTarget_eq_ok.1 located
  rcases follow_put_file notDirectory harmless isCanonical_nil (Nat.le_refl _) followed with
    same | ⟨atPlace, _⟩
  · exact ⟨goal, .inl rfl, openToWrite_eq_self.2
      ⟨writeTarget_eq_ok.2 ⟨checked, same⟩, holdsFile_put_file notDirectory (.inl isFile)⟩⟩
  · exact ⟨place, .inr rfl, openToWrite_eq_self.2
      ⟨writeTarget_eq_ok.2 ⟨checked, atPlace⟩, holdsFile_put_file notDirectory (.inr rfl)⟩⟩

variable (within : (disk.put place (.file bytes)).Within larger)

include within

theorem file_of_within : larger.entry? place = some (.file bytes) :=
  within _ _ (entry?_put_self (ne_nil_of_notDirectory notDirectory))

/-- Whatever else is added, a look-up comes to the same or ends at the new file, and needs nothing
of what is added for that. -/
theorem Leads.put_file {left left' : Nat} (leads : disk.Leads links todo here left goal)
    (leads' : larger.Leads links todo here left' other) : (other = goal ∨ other = place) ∧
      ∃ left, (disk.put place (.file bytes)).Leads links todo here left other := by
  have isFile := file_of_within notDirectory within
  have isPut : ∀ path, path = place →
      entry? (disk.put place (.file bytes)) path = some (.file bytes) := by
    rintro _ rfl
    exact entry?_put_self (ne_nil_of_notDirectory notDirectory)
  have kept : ∀ {path entry}, path ≠ place → disk.entry? path = some entry →
      entry? (disk.put place (.file bytes)) path = some entry ∧
        larger.entry? path = some entry := by
    intro path entry apart found
    have stands : entry? (disk.put place (.file bytes)) path = some entry :=
      (entry?_put_of_ne apart).trans found
    exact ⟨stands, within _ _ stands⟩
  induction leads generalizing left' with
  | arrived =>
    cases leads'
    exact ⟨.inl rfl, _, .arrived⟩
  | stay inside _ ih =>
    cases leads' with
    | stay _ more =>
      obtain ⟨oneOf, left, leads⟩ := ih more
      exact ⟨oneOf, left, .stay (directory_put notDirectory _ inside) leads⟩
  | close inside _ ih =>
    cases leads' with
    | close _ more =>
      obtain ⟨oneOf, left, leads⟩ := ih more
      exact ⟨oneOf, left, .close (directory_put notDirectory _ inside) leads⟩
  | up inside _ ih =>
    cases leads' with
    | up _ more =>
      obtain ⟨oneOf, left, leads⟩ := ih more
      exact ⟨oneOf, left, .up (directory_put notDirectory _ inside) leads⟩
  | @enter links left name rest here goal entry inside short found noLink _ ih =>
    have inside' := directory_put notDirectory bytes inside
    by_cases same : here ++ [name] = place
    · cases leads' with
      | enter _ _ _ _ more =>
        obtain ⟨oneOf, left, leads⟩ := ih more
        exact ⟨oneOf, left, .enter inside' short (isPut _ same) nofun leads⟩
      | link _ _ found' _ =>
        rw [same, isFile] at found'
        cases found'
    · obtain ⟨stands, stands'⟩ := kept same found
      cases leads' with
      | enter _ _ _ _ more =>
        obtain ⟨oneOf, left, leads⟩ := ih more
        exact ⟨oneOf, left, .enter inside' short stands noLink leads⟩
      | @link _ _ _ target _ _ _ _ _ found' _ =>
        rw [stands'] at found'
        cases found'
        exact absurd rfl (noLink target)
  | @link links left name target rest here goal inside short found _ ih =>
    have inside' := directory_put notDirectory bytes inside
    by_cases same : here ++ [name] = place
    · cases leads' with
      | enter _ _ found' _ more =>
        -- A file stands where the link was, so the look-up in the larger disk ends there.
        obtain ⟨rfl, rfl⟩ := more.of_file (same ▸ isFile)
        exact ⟨.inr same, _, .enter inside' short (isPut _ same) nofun .arrived⟩
      | link _ _ found' _ =>
        rw [same, isFile] at found'
        cases found'
    · obtain ⟨stands, stands'⟩ := kept same found
      cases leads' with
      | enter _ _ found' noLink' _ =>
        rw [stands'] at found'
        cases found'
        exact absurd rfl (noLink' target)
      | link _ _ found' more =>
        rw [stands'] at found'
        cases found'
        obtain ⟨oneOf, left, leads⟩ := ih more
        exact ⟨oneOf, left, .link inside' short stands leads⟩

/-- A directory is reached where it was reached before. -/
theorem Reaches.of_put_file {front : Path} (reaches : disk.Reaches front here)
    (reaches' : larger.Reaches front other) :
    other = here ∧ (disk.put place (.file bytes)).Reaches front here := by
  obtain ⟨⟨_, leads⟩, inside⟩ := reaches
  obtain ⟨⟨_, leads'⟩, inside'⟩ := reaches'
  obtain ⟨same | atPlace, stillLeads⟩ := leads.put_file notDirectory within leads'
  · exact ⟨same, same ▸ stillLeads, directory_put notDirectory _ inside⟩
  · rw [atPlace, file_of_within notDirectory within] at inside'
    cases inside'

/-- A file that is still opened is opened where it was before, or is the new one. -/
theorem openToWrite_of_put_file (opened : disk.openToWrite path = .ok (goal, disk))
    (opened' : larger.openToWrite path = .ok (other, larger)) : (other = goal ∨ other = place) ∧
      (disk.put place (.file bytes)).openToWrite path
        = .ok (other, disk.put place (.file bytes)) := by
  obtain ⟨located, isFile⟩ := openToWrite_eq_self.1 opened
  obtain ⟨_, leads⟩ := leads_of_openToWrite opened
  obtain ⟨_, leads'⟩ := leads_of_openToWrite opened'
  obtain ⟨oneOf, _, stillLeads⟩ := leads.put_file notDirectory within leads'
  have isFile' : holdsFile (disk.put place (.file bytes)) other = true := by
    rcases oneOf with rfl | rfl
    · exact holdsFile_put_file notDirectory (.inl isFile)
    · exact holdsFile_put_file notDirectory (.inr rfl)
  exact ⟨oneOf, openToWrite_eq_self.2 ⟨writeTarget_eq_ok.2
    ⟨(writeTarget_eq_ok.1 located).1, stillLeads.follow_file isFile' true⟩, isFile'⟩⟩

/-- Where the path still leads to a file, that is the new one. -/
theorem eq_of_readBytes_put_file {above : Path} {content : List UInt8}
    (found : disk.placeOf (above ++ [name]) = .ok place)
    (read : larger.readBytes (above ++ [name]) = .ok content) :
    content = bytes ∧ isDirectory (disk.put place (.file bytes)) above = true := by
  obtain ⟨checked, parent, followed, isParent, _, rfl⟩ := placeOf_snoc_eq_ok.1 found
  have checked := checkPathText_of_prefix (Path.text_prefix (List.prefix_append _ _)) checked
  obtain ⟨_, goal, leads, stands⟩ := find_eq_ok.1 (readBytes_eq_ok.1 read)
  obtain ⟨_, whole⟩ := follow_eq_ok.1 (resolve_eq_ok.1 leads).2
  rw [List.map_append] at whole
  obtain ⟨between, middle, front, behind⟩ := whole.split
  have isFile := file_of_within notDirectory within
  have reaches : disk.Reaches above parent := ⟨follow_eq_ok.1 followed, isParent⟩
  cases behind with
  | enter inside _ _ _ more =>
    obtain ⟨rfl, stillReaches⟩ := reaches.of_put_file notDirectory within ⟨⟨_, front⟩, inside⟩
    cases more
    rw [isFile] at stands
    cases stands
    exact ⟨rfl, stillReaches.isDirectory checked⟩
  | link inside _ found' _ =>
    obtain ⟨rfl, _⟩ := reaches.of_put_file notDirectory within ⟨⟨_, front⟩, inside⟩
    rw [isFile] at found'
    cases found'

end

/-- Where the directory is still reached, the new file is read. -/
theorem readBytes_put_file {above : Path} (notDirectory : disk.entry? place ≠ some .directory)
    (found : disk.placeOf (above ++ [name]) = .ok place)
    (room : isDirectory (disk.put place (.file bytes)) above = true) :
    (disk.put place (.file bytes)).readBytes (above ++ [name]) = .ok bytes := by
  obtain ⟨checked, parent, followed, isParent, short, rfl⟩ := placeOf_snoc_eq_ok.1 found
  have reaches : disk.Reaches above parent := ⟨follow_eq_ok.1 followed, isParent⟩
  obtain ⟨other, reaches'⟩ := reaches_of_isDirectory room
  obtain ⟨_, stillReaches⟩ := reaches.of_put_file notDirectory (.refl _) reaches'
  have stands : entry? (disk.put (parent ++ [name]) (.file bytes)) (parent ++ [name])
      = some (.file bytes) := entry?_put_self (ne_nil_of_notDirectory notDirectory)
  rw [readBytes_eq_ok, stillReaches.find_eq short (by simp [stands]), checked, Except.ok_bind,
    stands]

/-- A file that has been opened for writing can be opened again. -/
theorem openToWrite_again (opened : disk.openToWrite path = .ok (place, larger)) :
    larger.openToWrite path = .ok (place, larger) := by
  obtain ⟨located, accepts, rfl⟩ := openToWrite_eq_ok.1 opened
  refine openToWrite_eq_self.2 ⟨?_, accepts.fill⟩
  obtain ⟨checked, followed⟩ := writeTarget_eq_ok.1 located
  refine writeTarget_eq_ok.2 ⟨checked, ?_⟩
  rcases accepts with free | isFile
  · rw [fill_of_free free]
    have notDirectory : disk.entry? place ≠ some .directory := by simp [free]
    have harmless : ¬ disk.LeadsToDirectory place := by
      rintro ⟨goal, leads, isDirectory⟩
      have standing : entry? (disk.put place (.file [])) place = some (.file []) :=
        entry?_put_self (nonempty_of_free free)
      obtain ⟨_, opens⟩ := leads_of_follow_within followed (within_put free) fun _ =>
        ⟨_, standing, nofun⟩
      obtain ⟨_, leads⟩ := leads_of_follow_within leads (within_put free) nofun
      obtain rfl := leads.place_eq (opens.isCanonical isCanonical_nil).leads
      exact notDirectory isDirectory
    rcases follow_put_file notDirectory harmless isCanonical_nil (Nat.le_refl _) followed with
      same | ⟨same, _⟩ <;> exact same
  · obtain ⟨_, stands⟩ := holdsFile_eq_true.1 isFile
    rwa [fill_of_stands stands]

/-- No look-up that goes on leads through a file. -/
theorem not_leadsToDirectory_of_leads {left : Nat} (isFile : disk.holdsFile place = true)
    (leads : disk.Leads maxLinks todo [] left place) : ¬ disk.LeadsToDirectory place := by
  rintro ⟨goal, followed, isDirectory⟩
  rw [(leads.isCanonical isCanonical_nil).leads.follow] at followed
  cases followed
  rw [holdsFile, isDirectory] at isFile
  cases isFile

/-- What is written to a file is read from it. -/
theorem readBytes_of_writeBytes {written : Disk} {trouble : WriteTrouble}
    (writing : disk.writeBytes path bytes trouble = (.ok (), written)) :
    written.readBytes path = .ok bytes := by
  obtain ⟨place, opened, opening, rfl⟩ := writeBytes_eq_ok writing
  -- The file stands before its content is put there, so that no look-up changes.
  have opened' := openToWrite_again opening
  obtain ⟨_, isFile⟩ := openToWrite_eq_self.1 opened'
  obtain ⟨_, leads⟩ := leads_of_openToWrite opened'
  have notDirectory : opened.entry? place ≠ some .directory := by
    intro isDirectory
    rw [holdsFile, isDirectory] at isFile
    cases isFile
  obtain ⟨opens, oneOf, again⟩ := openToWrite_put_file notDirectory bytes
    (not_leadsToDirectory_of_leads isFile leads) opened'
  obtain rfl : opens = place := by simpa using oneOf
  obtain ⟨located, _⟩ := openToWrite_eq_self.1 again
  have checked := (writeTarget_eq_ok.1 located).1
  obtain ⟨_, stillLeads⟩ := leads_of_openToWrite again
  exact readBytes_eq_ok.2 (find_eq_ok.2 ⟨checked, opens,
    resolve_eq_ok.2 ⟨(checkPathText_eq_ok.1 checked).1, stillLeads.follow⟩,
    entry?_put_self (ne_nil_of_notDirectory notDirectory)⟩)

/-- Directories that are there need not be made. -/
theorem ensureDirectory_of_isDirectory (isDirectory : disk.isDirectory path = true)
    (refusal : Option Fault := none) : disk.ensureDirectory path refusal = .ok disk := by
  unfold ensureDirectory
  cases making : disk.makeDirectory path .plain with
  | error fault => exact if_pos isDirectory
  | ok made =>
    obtain ⟨_, place, found, free, _⟩ := makeDirectory_eq_ok.1 making
    obtain ⟨_, _, found', stands⟩ := placeOf_of_find (isDirectory_eq_true.1 isDirectory)
    rw [found] at found'
    cases found'
    rw [free] at stands
    cases stands

theorem makeDirectories_of_isDirectory (isDirectory : disk.isDirectory path = true)
    (refused : Path → Option Fault := fun _ => none) :
    disk.makeDirectories path refused = (.ok (), disk) := by
  rcases List.eq_nil_or_concat path with rfl | ⟨above, name, rfl⟩
  · rfl
  · have ensured := ensureDirectory_of_isDirectory isDirectory (refused (above.concat name))
    rw [List.concat_eq_append] at ensured ⊢
    rw [makeDirectories, List.reverse_append, List.reverse_singleton, List.singleton_append,
      makeClimbing]
    simp only [List.reverse_cons, List.reverse_reverse, ensured]

end StaticSite.Disk
