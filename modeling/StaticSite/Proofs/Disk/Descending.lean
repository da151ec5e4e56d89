import StaticSite.Proofs.Disk.Looking

/-!
# Look-ups below a directory

A look-up whose first steps lead to a directory goes on from there.  Where no link stands on the
way down, a path leads to exactly what its names say.
-/

namespace StaticSite

/-- Whether the entry is a symbolic link. -/
def Entry.isLink : Entry → Bool
  | .link _ => true
  | .directory | .file _ => false

namespace Disk

variable {disk larger : Disk} {links left : Nat} {todo more : List PathStep}
  {here middle place root path : Path} {name : Text} {names : List Text}

/-- On a disk that holds more, a look-up leads to the same place and follows as many links. -/
theorem Leads.mono (leads : disk.Leads links todo here left place) (within : disk.Within larger) :
    larger.Leads links todo here left place := by
  induction leads with
  | arrived => exact .arrived
  | stay inside _ ih => exact .stay (within _ _ inside) ih
  | close inside _ ih => exact .close (within _ _ inside) ih
  | up inside _ ih => exact .up (within _ _ inside) ih
  | enter inside short found noLink _ ih =>
      exact .enter (within _ _ inside) short (within _ _ found) noLink ih
  | link inside short found _ ih => exact .link (within _ _ inside) short (within _ _ found) ih

/-- What is to be entered behind the first steps is looked up from where these lead, whether or not
the last name may be free. -/
theorem Leads.follow_append (leads : disk.Leads links todo here left middle) (creating : Bool) :
    disk.follow creating links (todo ++ .enter name :: more) here
      = disk.follow creating left (.enter name :: more) middle := by
  -- With a name still to come, no step of the first ones is the last one.
  have notLast : ∀ steps : List PathStep, (steps ++ .enter name :: more).isEmpty = false := by
    intro steps
    cases steps <;> rfl
  have noClose : ∀ steps : List PathStep,
      (steps ++ .enter name :: more == [.close]) = false := by
    intro steps
    rw [beq_eq_false_iff_ne]
    intro same
    have isClose : PathStep.enter name ∈ [PathStep.close] := same ▸ by simp
    simp at isClose
  induction leads with
  | arrived => rfl
  | stay inside _ ih => simpa [Disk.follow, inside] using ih
  | close inside _ ih => simpa [Disk.follow, inside] using ih
  | up inside _ ih => simpa [Disk.follow, inside] using ih
  | @enter links left next rest here place entry inside short found noLink _ ih =>
      rw [List.cons_append, Disk.follow, if_neg (not_not_intro inside)]
      simp only [noClose, Bool.and_false, Bool.false_eq_true, if_false, Nat.not_lt.2 short, found]
      cases entry with
      | link target => exact absurd rfl (noLink target)
      | directory | file => exact ih
  | @link links left next target rest here place inside short found _ ih =>
      rw [List.cons_append, Disk.follow, if_neg (not_not_intro inside)]
      simp only [noClose, Bool.and_false, Bool.false_eq_true, if_false, Nat.not_lt.2 short, found]
      rw [List.append_assoc] at ih
      exact ih

/-- The steps down to a directory and those from there on make one look-up. -/
theorem resolve_append_eq {front : Path}
    (leads : disk.Leads maxLinks (front.map .enter) [] left root) (nonempty : names ≠ [])
    (characters : '\x00' ∉ Path.text (front ++ names)) :
    disk.resolve (front ++ names) = disk.follow false left (names.map .enter) root := by
  obtain ⟨name, rest, rfl⟩ := List.exists_cons_of_ne_nil nonempty
  rw [resolve, checkCharacters_eq_ok.2 characters, Except.ok_bind, List.map_append, List.map_cons,
    leads.follow_append]

/-! ## Without links -/

/-- Below `here` no name on the way down the path is that of a link. -/
def Unlinked (disk : Disk) (here : Path) (names : List Text) : Prop :=
  ∀ front, front ≠ [] → front <+: names →
    ∀ target, disk.entry? (here ++ front) ≠ some (.link target)

theorem Unlinked.tail (unlinked : disk.Unlinked here (name :: names)) :
    disk.Unlinked (here ++ [name]) names := by
  intro front nonempty isFront target
  rw [List.append_assoc, List.singleton_append]
  exact unlinked (name :: front) (List.cons_ne_nil _ _) (List.cons_prefix_cons.2 ⟨rfl, isFront⟩)
    target

theorem unlinked_singleton (noLink : ∀ target, disk.entry? (here ++ [name]) ≠ some (.link target)) :
    disk.Unlinked here [name] := by
  intro front nonempty isFront
  obtain ⟨head, tail, rfl⟩ := List.exists_cons_of_ne_nil nonempty
  obtain ⟨rfl, isTail⟩ := List.cons_prefix_cons.1 isFront
  obtain rfl := List.prefix_nil.1 isTail
  exact noLink

theorem Leads.eq_append_of_unlinked
    (leads : disk.Leads links (names.map .enter) here left place)
    (unlinked : disk.Unlinked here names) : place = here ++ names := by
  induction names generalizing here with
  | nil =>
      cases leads
      rw [List.append_nil]
  | cons name rest ih =>
      cases leads with
      | enter _ _ _ _ more =>
          rw [ih more unlinked.tail, List.append_assoc, List.singleton_append]
      | link _ _ found _ =>
          exact absurd found (unlinked [name] (by simp) (by simp) _)

/-- No link stands at the path or below it. -/
def LinkFree (disk : Disk) (root : Path) : Prop :=
  ∀ row ∈ disk.entries.rows, root <+: row.1 → row.2.isLink = false

instance (disk : Disk) (root : Path) : Decidable (disk.LinkFree root) :=
  inferInstanceAs (Decidable (∀ row ∈ disk.entries.rows, _))

theorem LinkFree.not_link (linkFree : disk.LinkFree root) (below : root <+: path)
    (target : Text) : disk.entry? path ≠ some (.link target) := by
  intro stands
  have nonempty : path ≠ [] := by
    rintro rfl
    cases stands
  exact absurd (linkFree _ (mem_rows_of_stands stands nonempty) below) (by simp [Entry.isLink])

theorem LinkFree.unlinked (linkFree : disk.LinkFree root) (names : List Text) :
    disk.Unlinked root names :=
  fun _ _ _ => linkFree.not_link (List.prefix_append _ _)

/-- Below a directory that is reached, what no link leads away from stands where its names say. -/
theorem Leads.place_eq_append {front : Path}
    (reached : disk.Leads maxLinks (front.map .enter) [] left root)
    (leads : disk.resolve (front ++ names) = .ok place) (unlinked : disk.Unlinked root names) :
    place = root ++ names := by
  obtain ⟨_, whole⟩ := follow_eq_ok.1 (resolve_eq_ok.1 leads).2
  rw [List.map_append] at whole
  obtain ⟨between, middle, before, behind⟩ := whole.split
  obtain rfl := before.place_eq reached
  exact behind.eq_append_of_unlinked unlinked

theorem eq_append_of_unlinked (atRoot : disk.IsCanonical root)
    (leads : disk.resolve (root ++ names) = .ok place) (unlinked : disk.Unlinked root names) :
    place = root ++ names :=
  atRoot.leads.place_eq_append leads unlinked

end Disk

end StaticSite
