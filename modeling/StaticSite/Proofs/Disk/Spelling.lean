import StaticSite.Disk.Contain
import StaticSite.Proofs.Disk.Descending
import StaticSite.Proofs.Disk.Fronts

/-!
# Canonical paths that can be spelled

Spelling a path out goes the same way as following it, and can only end earlier, where the text
becomes too long.  So a target is inside the project, or it is what its names lead to although the
path cannot be spelled; such a target may be anywhere.
-/

namespace StaticSite.Disk

variable {disk larger other : Disk} {links left : Nat} {todo : List PathStep}
  {here place path root : Path} {names : List Text}

/-! ## Spelling and following -/

/-- What is spelled out in the end is where the steps lead. -/
theorem leads_of_spell (spelled : disk.spell links todo here = .ok place) :
    ∃ left, disk.Leads links todo here left place := by
  fun_induction disk.spell links todo here with
  | case1 links here =>
    cases spelled
    exact ⟨links, .arrived⟩
  | case2 | case3 | case4 | case5 | case6 | case8 | case10 => cases spelled
  | case7 here name rest fits inside short target found links ih =>
    obtain ⟨left, leads⟩ := ih spelled
    exact ⟨left, .link (Decidable.not_not.1 inside) (Nat.not_lt.1 short) found leads⟩
  | case9 links here name rest fits inside short entry noLink found fits' ih =>
    obtain ⟨left, leads⟩ := ih spelled
    exact ⟨left, .enter (Decidable.not_not.1 inside) (Nat.not_lt.1 short) found noLink leads⟩
  | case11 links here step rest noName inside ih =>
    have inside := Decidable.not_not.1 inside
    obtain ⟨left, leads⟩ := ih spelled
    refine ⟨left, ?_⟩
    cases step with
    | enter name => exact absurd rfl (noName name)
    | stay => exact .stay inside leads
    | close => exact .close inside leads
    | up => exact .up inside leads

/-- What is spelled out in the end can be looked up by its text. -/
theorem byteLength_of_spell (spelled : disk.spell links todo here = .ok place)
    (short : Text.byteLength here.text ≤ maxPathBytes) :
    Text.byteLength place.text ≤ maxPathBytes := by
  fun_induction disk.spell links todo here with
  | case1 links here =>
    cases spelled
    exact short
  | case2 | case3 | case4 | case5 | case6 | case8 | case10 => cases spelled
  | case7 here name rest fits inside named target found links ih =>
    refine ih spelled ?_
    split
    · decide
    · exact short
  | case9 links here name rest fits inside named entry noLink found fits' ih =>
    exact ih spelled (Nat.not_lt.1 fits)
  | case11 links here step rest noName inside ih =>
    refine ih spelled ?_
    split
    · obtain ⟨more, whole⟩ := Path.text_prefix (List.dropLast_prefix here)
      rw [← whole, Text.byteLength_append] at short
      exact Nat.le_trans (Nat.le_add_right _ _) short
    · exact short

/-- What steps lead to is spelled out, or the text becomes too long on the way. -/
theorem Leads.spell (leads : disk.Leads links todo here left place) :
    disk.spell links todo here = .ok place ∨ disk.spell links todo here = .error .nameTooLong := by
  induction leads with
  | arrived => exact .inl (by rw [Disk.spell])
  | stay inside _ ih | close inside _ ih | up inside _ ih => simpa [Disk.spell, inside] using ih
  | @enter links left name rest here place entry inside short found noLink _ ih =>
    rw [Disk.spell, if_neg (not_not_intro inside), if_neg (Nat.not_lt.2 short), found]
    split
    · exact .inr rfl
    · cases entry with
      | link target => exact absurd rfl (noLink target)
      | directory | file =>
        dsimp only
        split
        · exact .inr rfl
        · exact ih
  | link inside short found _ ih =>
    rw [Disk.spell, if_neg (not_not_intro inside), if_neg (Nat.not_lt.2 short), found]
    split
    · exact .inr rfl
    · exact ih

/-- On a disk that holds more the same text is spelled. -/
theorem Leads.spell_eq (leads : disk.Leads links todo here left place)
    (within : disk.Within larger) :
    larger.spell links todo here = disk.spell links todo here := by
  induction leads with
  | arrived => rw [Disk.spell, Disk.spell]
  | stay inside _ ih | close inside _ ih | up inside _ ih =>
    simpa [Disk.spell, inside, within _ _ inside] using ih
  | @enter links left name rest here place entry inside short found noLink _ ih =>
    cases entry with
    | link target => exact absurd rfl (noLink target)
    | directory | file =>
      simp [Disk.spell, inside, within _ _ inside, found, within _ _ found, ih]
  | link inside short found _ ih =>
    rw [Disk.spell, Disk.spell]
    simp only [inside, within _ _ inside, found, within _ _ found, ih]

theorem resolve_of_canonical (found : disk.canonical path = .ok place) :
    disk.resolve path = .ok place := by
  obtain ⟨characters, spelled⟩ := Except.check_bind_eq_ok.1 found
  obtain ⟨left, leads⟩ := leads_of_spell spelled
  exact resolve_eq_ok.2 ⟨checkCharacters_eq_ok.1 characters, leads.follow⟩

theorem byteLength_of_canonical (found : disk.canonical path = .ok place) :
    Text.byteLength place.text ≤ maxPathBytes :=
  byteLength_of_spell (Except.check_bind_eq_ok.1 found).2 (by decide)

/-- A path that leads somewhere has a canonical path, unless that is too long to be spelled. -/
theorem canonical_of_resolve (found : disk.resolve path = .ok place) :
    disk.canonical path = .ok place ∨ disk.canonical path = .error .nameTooLong := by
  obtain ⟨characters, followed⟩ := resolve_eq_ok.1 found
  obtain ⟨left, leads⟩ := follow_eq_ok.1 followed
  rw [canonical, checkCharacters_eq_ok.2 characters]
  exact leads.spell

theorem isCanonical_of_canonical (found : disk.canonical path = .ok place) :
    disk.IsCanonical place :=
  isCanonical_of_resolve (resolve_of_canonical found)

/-- No path text of the disk comes near the length at which it cannot be looked up. -/
def HasShortPaths (disk : Disk) : Prop :=
  ∀ row ∈ disk.entries.rows, Text.byteLength row.1.text < maxPathBytes

instance (disk : Disk) : Decidable disk.HasShortPaths :=
  inferInstanceAs (Decidable (∀ row ∈ disk.entries.rows, _))

theorem HasShortPaths.fits {entry : Entry} (short : disk.HasShortPaths) (nonempty : path ≠ [])
    (stands : disk.entry? path = some entry) : Text.byteLength path.text < maxPathBytes :=
  short (path, entry) (mem_rows_of_stands stands nonempty)

theorem Leads.spell_of_short (leads : disk.Leads links todo here left place)
    (short : disk.HasShortPaths) : disk.spell links todo here = .ok place := by
  induction leads with
  | arrived => rw [Disk.spell]
  | stay inside _ ih | close inside _ ih | up inside _ ih => simpa [Disk.spell, inside] using ih
  | @enter links left name rest here place entry inside named found noLink _ ih =>
    have fits := short.fits (by simp) found
    rw [Disk.spell, if_neg (by omega), if_neg (not_not_intro inside), if_neg (Nat.not_lt.2 named),
      found]
    cases entry with
    | link target => exact absurd rfl (noLink target)
    | directory | file =>
      dsimp only
      rw [if_neg (by simp; omega)]
      exact ih
  | link inside named found _ ih =>
    have fits := short.fits (by simp) found
    rw [Disk.spell, if_neg (by omega), if_neg (not_not_intro inside), if_neg (Nat.not_lt.2 named),
      found]
    exact ih

/-- Where all paths are short, whatever leads somewhere has a canonical path. -/
theorem canonical_of_short (short : disk.HasShortPaths) (found : disk.resolve path = .ok place) :
    disk.canonical path = .ok place := by
  obtain ⟨characters, followed⟩ := resolve_eq_ok.1 found
  obtain ⟨left, leads⟩ := follow_eq_ok.1 followed
  rw [canonical, checkCharacters_eq_ok.2 characters]
  exact leads.spell_of_short short

/-- A path without links is spelled as it is, unless its text is too long. -/
theorem IsCanonical.spell_eq (canonical : disk.IsCanonical (here ++ names))
    (nonempty : names ≠ []) :
    disk.spell links (names.map .enter) here
      = if maxPathBytes < Text.byteLength (Path.text (here ++ names)) then .error .nameTooLong
        else .ok (here ++ names) := by
  induction names generalizing here with
  | nil => exact absurd rfl nonempty
  | cons name rest ih =>
    obtain ⟨inside, short, entry, found, noLink⟩ := canonical here name (by simp)
    have noAsk : asksDirectory (rest.map .enter) = false := by
      cases rest <;> rfl
    rw [List.append_cons] at canonical
    rw [List.map_cons, spell, if_neg (not_not_intro inside), if_neg (Nat.not_lt.2 short), found,
      noAsk, List.append_cons here name rest]
    by_cases long : maxPathBytes < Text.byteLength (Path.text (here ++ [name]))
    · -- The text only gets longer on the way.
      obtain ⟨more, whole⟩ := Path.text_prefix (List.prefix_append (here ++ [name]) rest)
      rw [if_pos long, if_pos (by rw [← whole, Text.byteLength_append]; omega)]
    · rw [if_neg long]
      cases entry with
      | link target => exact absurd rfl (noLink target)
      | directory | file =>
        dsimp only
        rw [Bool.false_and, if_neg Bool.false_ne_true]
        by_cases last : rest = []
        · rw [last, List.map_nil, spell, List.append_nil, if_neg long]
        · exact ih canonical last

/-- Where a path leads on a smaller disk already, its canonical path is the same. -/
theorem canonical_eq_of_within (leads : disk.Leads maxLinks (path.map .enter) [] left place)
    (within : disk.Within larger) : larger.canonical path = disk.canonical path := by
  rw [canonical, canonical, leads.spell_eq within]

/-- Where no link stands on the way, disks that hold the same on it spell the same. -/
theorem spell_eq_of_unlinked (unlinked : disk.Unlinked here names)
    (same : ∀ front, front <+: names → disk.entry? (here ++ front) = other.entry? (here ++ front)) :
    disk.spell links (names.map .enter) here = other.spell links (names.map .enter) here := by
  induction names generalizing here with
  | nil => rw [List.map_nil, spell, spell]
  | cons name rest ih =>
    have sameHere : disk.entry? here = other.entry? here := by
      simpa using same [] List.nil_prefix
    have sameNext : disk.entry? (here ++ [name]) = other.entry? (here ++ [name]) :=
      same [name] ⟨rest, rfl⟩
    have sameRest := ih unlinked.tail fun front isFront => by
      simpa using same (name :: front) (List.cons_prefix_cons.2 ⟨rfl, isFront⟩)
    rw [List.map_cons, spell, spell, ← sameHere, ← sameNext]
    cases found : disk.entry? (here ++ [name]) with
    | none => rfl
    | some entry =>
      cases entry with
      | link target =>
        exact absurd found (unlinked [name] (List.cons_ne_nil _ _) ⟨rest, rfl⟩ target)
      | directory | file => simp only [sameRest]

/-! ## Targets -/

/-- The path leads on from the root, but not to anything whose canonical path can be spelled. -/
def Overlong (disk : Disk) (root path : Path) : Prop :=
  root <+: path ∧ disk.canonical path = .error .nameTooLong

/-- A target that can be read is what the names of its directive lead to.  It is inside the project,
unless it is read under a path that cannot be spelled. -/
theorem read_target {relative : Text} {target : Target} {bytes : List UInt8}
    (located : disk.contain? root relative = some target)
    (read : disk.readBytes target.place = .ok bytes) :
    ∃ names place, PathText.normalize? relative = some names ∧
      target.logical = PathText.join names ∧ disk.resolve (root ++ names) = .ok place ∧
      disk.entry? place = some (.file bytes) ∧ disk.resolve target.place = .ok place ∧
      (target.place = place ∧ disk.canonical (root ++ names) = .ok place ∧ root <+: place ∨
        target.place = root ++ names ∧ disk.Overlong root (root ++ names)) := by
  obtain ⟨names, normal, located⟩ := Option.bind_eq_some_iff.1 located
  obtain ⟨check, place, found, isFile⟩ := find_eq_ok.1 (readBytes_eq_ok.1 read)
  dsimp only at located
  split at located
  · next written canonical =>
    split at located
    · next inside =>
      cases located
      have leads := resolve_of_canonical canonical
      obtain rfl := (isCanonical_of_resolve leads).resolve_eq found
      exact ⟨names, place, normal, rfl, leads, isFile, found,
        .inl ⟨rfl, canonical, List.isPrefixOf_iff_prefix.1 inside⟩⟩
    · cases located
  · next fault failed =>
    -- What can be read under its names but has no canonical path is too long to be spelled.
    cases located
    refine ⟨names, place, normal, rfl, found, isFile, found, .inr ⟨rfl, List.prefix_append _ _, ?_⟩⟩
    rcases canonical_of_resolve found with spelled | long
    · rw [failed] at spelled
      cases spelled
    · exact long

end StaticSite.Disk
