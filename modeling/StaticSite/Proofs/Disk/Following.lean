import StaticSite.Disk.Locate
import StaticSite.Proofs.Disk.Entries

/-!
# Where paths lead

`Leads` says step by step where a look-up goes.  Look-ups compose, a place that a look-up ends at
leads to itself with no link followed, and a disk that only holds more leads to the same places.
-/

namespace StaticSite.Disk

/-- `disk.Leads links todo here left place`: with `links` links left, the steps lead from `here`
to `place`, and `left` links are left then. -/
inductive Leads (disk : Disk) : Nat → List PathStep → Path → Nat → Path → Prop where
  | arrived {links : Nat} {here : Path} : Leads disk links [] here links here
  | stay {links left : Nat} {rest : List PathStep} {here place : Path}
      (inside : disk.entry? here = some .directory) (more : Leads disk links rest here left place) :
      Leads disk links (.stay :: rest) here left place
  | close {links left : Nat} {rest : List PathStep} {here place : Path}
      (inside : disk.entry? here = some .directory) (more : Leads disk links rest here left place) :
      Leads disk links (.close :: rest) here left place
  | up {links left : Nat} {rest : List PathStep} {here place : Path}
      (inside : disk.entry? here = some .directory)
      (more : Leads disk links rest here.parent left place) :
      Leads disk links (.up :: rest) here left place
  | enter {links left : Nat} {name : Text} {rest : List PathStep} {here place : Path}
      {entry : Entry}
      (inside : disk.entry? here = some .directory) (short : Text.byteLength name ≤ maxNameBytes)
      (found : disk.entry? (here ++ [name]) = some entry) (noLink : ∀ target, entry ≠ .link target)
      (more : Leads disk links rest (here ++ [name]) left place) :
      Leads disk links (.enter name :: rest) here left place
  | link {links left : Nat} {name target : Text} {rest : List PathStep} {here place : Path}
      (inside : disk.entry? here = some .directory) (short : Text.byteLength name ≤ maxNameBytes)
      (found : disk.entry? (here ++ [name]) = some (.link target))
      (more : Leads disk links (PathStep.ofText target ++ rest)
        (if PathText.isRooted target then [] else here) left place) :
      Leads disk (links + 1) (.enter name :: rest) here left place

variable {disk : Disk} {links left : Nat} {todo rest : List PathStep} {here place : Path}

/-- A look-up leads to the same place on a disk that holds more, if something stands there that may
still have been missing. -/
theorem leads_of_follow_within {creating : Bool} {larger : Disk}
    (followed : disk.follow creating links todo here = .ok place) (within : disk.Within larger)
    (stands : creating = true →
      ∃ entry, larger.entry? place = some entry ∧ ∀ target, entry ≠ .link target) :
    ∃ left, larger.Leads links todo here left place := by
  fun_induction disk.follow creating links todo here with
  | case1 links here =>
      cases followed
      exact ⟨links, .arrived⟩
  | case2 | case6 | case7 | case9 | case10 => cases followed
  | case3 links here rest inside ih =>
      obtain ⟨left, leads⟩ := ih followed
      exact ⟨left, .stay (within _ _ (Decidable.not_not.1 inside)) leads⟩
  | case4 links here rest inside ih =>
      obtain ⟨left, leads⟩ := ih followed
      exact ⟨left, .close (within _ _ (Decidable.not_not.1 inside)) leads⟩
  | case5 links here rest inside ih =>
      obtain ⟨left, leads⟩ := ih followed
      exact ⟨left, .up (within _ _ (Decidable.not_not.1 inside)) leads⟩
  | case8 links here rest inside name _ short missing free =>
      -- The place is free on `disk`, so it is the last one and `larger` has to fill it.
      cases followed
      rw [Bool.and_eq_true, List.isEmpty_iff] at free
      obtain ⟨isCreating, rfl⟩ := free
      obtain ⟨entry, found, noLink⟩ := stands isCreating
      exact ⟨links, .enter (within _ _ (Decidable.not_not.1 inside)) (Nat.not_lt.1 short) found
        noLink .arrived⟩
  | case11 here rest inside name _ short target found links ih =>
      obtain ⟨left, leads⟩ := ih followed
      exact ⟨left, .link (within _ _ (Decidable.not_not.1 inside)) (Nat.not_lt.1 short)
        (within _ _ found) leads⟩
  | case12 links here rest inside name _ short entry noLink found ih =>
      obtain ⟨left, leads⟩ := ih followed
      exact ⟨left, .enter (within _ _ (Decidable.not_not.1 inside)) (Nat.not_lt.1 short)
        (within _ _ found) noLink leads⟩

theorem Leads.follow (leads : disk.Leads links todo here left place) :
    disk.follow false links todo here = .ok place := by
  induction leads with
  | arrived => rw [Disk.follow]
  | stay inside _ ih => simpa [Disk.follow, inside] using ih
  | close inside _ ih => simpa [Disk.follow, inside] using ih
  | up inside _ ih => simpa [Disk.follow, inside] using ih
  | @enter links left name rest here place entry inside short found noLink _ ih =>
      cases entry with
      | link target => exact absurd rfl (noLink target)
      | directory | file => simpa [Disk.follow, inside, Nat.not_lt.2 short, found] using ih
  | link inside short found _ ih =>
      simpa [Disk.follow, inside, Nat.not_lt.2 short, found] using ih

/-- `Leads` is what `follow` does when nothing is to be created. -/
theorem follow_eq_ok : disk.follow false links todo here = .ok place ↔
    ∃ left, disk.Leads links todo here left place :=
  ⟨fun followed => leads_of_follow_within followed (.refl disk) nofun,
    fun ⟨_, leads⟩ => leads.follow⟩

namespace Leads

theorem left_le (leads : disk.Leads links todo here left place) : left ≤ links := by
  induction leads with
  | arrived => exact Nat.le_refl _
  | stay _ _ ih => exact ih
  | close _ _ ih => exact ih
  | up _ _ ih => exact ih
  | enter _ _ _ _ _ ih => exact ih
  | link _ _ _ _ ih => exact Nat.le_succ_of_le ih

/-- Links that a look-up did without are left behind it. -/
theorem moreLinks (leads : disk.Leads links todo here left place) (extra : Nat) :
    disk.Leads (links + extra) todo here (left + extra) place := by
  induction leads with
  | arrived => exact .arrived
  | stay inside _ ih => exact .stay inside ih
  | close inside _ ih => exact .close inside ih
  | up inside _ ih => exact .up inside ih
  | enter inside short found noLink _ ih => exact .enter inside short found noLink ih
  | link inside short found _ ih =>
      rw [Nat.add_right_comm]
      exact .link inside short found ih

theorem append {between : Nat} {more : List PathStep} {middle : Path}
    (first : disk.Leads links todo here between middle)
    (second : disk.Leads between more middle left place) :
    disk.Leads links (todo ++ more) here left place := by
  induction first with
  | arrived => exact second
  | stay inside _ ih => exact .stay inside (ih second)
  | close inside _ ih => exact .close inside (ih second)
  | up inside _ ih => exact .up inside (ih second)
  | enter inside short found noLink _ ih => exact .enter inside short found noLink (ih second)
  | link inside short found _ ih =>
      have joined := ih second
      rw [List.append_assoc] at joined
      exact .link inside short found joined

/-- The steps behind a look-up's first ones go on from where those lead. -/
theorem split {first second : List PathStep}
    (leads : disk.Leads links (first ++ second) here left place) :
    ∃ between middle, disk.Leads links first here between middle ∧
      disk.Leads between second middle left place := by
  generalize steps : first ++ second = todo at leads
  induction leads generalizing first with
  | arrived =>
      obtain ⟨rfl, rfl⟩ := List.append_eq_nil_iff.1 steps
      exact ⟨_, _, .arrived, .arrived⟩
  | @stay links left rest here place inside more ih =>
      rcases List.append_eq_cons_iff.1 steps with ⟨rfl, rfl⟩ | ⟨tail, rfl, rfl⟩
      · exact ⟨_, _, .arrived, .stay inside more⟩
      · obtain ⟨between, middle, front, behind⟩ := ih rfl
        exact ⟨between, middle, .stay inside front, behind⟩
  | @close links left rest here place inside more ih =>
      rcases List.append_eq_cons_iff.1 steps with ⟨rfl, rfl⟩ | ⟨tail, rfl, rfl⟩
      · exact ⟨_, _, .arrived, .close inside more⟩
      · obtain ⟨between, middle, front, behind⟩ := ih rfl
        exact ⟨between, middle, .close inside front, behind⟩
  | @up links left rest here place inside more ih =>
      rcases List.append_eq_cons_iff.1 steps with ⟨rfl, rfl⟩ | ⟨tail, rfl, rfl⟩
      · exact ⟨_, _, .arrived, .up inside more⟩
      · obtain ⟨between, middle, front, behind⟩ := ih rfl
        exact ⟨between, middle, .up inside front, behind⟩
  | @enter links left name rest here place entry inside short found noLink more ih =>
      rcases List.append_eq_cons_iff.1 steps with ⟨rfl, rfl⟩ | ⟨tail, rfl, rfl⟩
      · exact ⟨_, _, .arrived, .enter inside short found noLink more⟩
      · obtain ⟨between, middle, front, behind⟩ := ih rfl
        exact ⟨between, middle, .enter inside short found noLink front, behind⟩
  | @link links left name target rest here place inside short found more ih =>
      rcases List.append_eq_cons_iff.1 steps with ⟨rfl, rfl⟩ | ⟨tail, rfl, rfl⟩
      · exact ⟨_, _, .arrived, .link inside short found more⟩
      · -- The steps of the link's target come before those left of the first ones.
        obtain ⟨between, middle, front, behind⟩ := ih (List.append_assoc _ _ _)
        exact ⟨between, middle, .link inside short found front, behind⟩

theorem place_eq {left' : Nat} {place' : Path} (leads : disk.Leads links todo here left place)
    (leads' : disk.Leads links todo here left' place') : place = place' :=
  Except.ok.inj (leads.follow.symm.trans leads'.follow)

end Leads

/-! ## Paths without links -/

/-- Every name of the path is that of an entry in a directory, and none is that of a link. -/
def IsCanonical (disk : Disk) (path : Path) : Prop :=
  ∀ above name, above ++ [name] <+: path →
    disk.entry? above = some .directory ∧ Text.byteLength name ≤ maxNameBytes ∧
      ∃ entry, disk.entry? (above ++ [name]) = some entry ∧ ∀ target, entry ≠ .link target

theorem isCanonical_nil : disk.IsCanonical [] := by
  intro above name isFront
  simp at isFront

theorem IsCanonical.front {path : Path} (canonical : disk.IsCanonical path)
    (isFront : place <+: path) : disk.IsCanonical place :=
  fun above name deeper => canonical above name (deeper.trans isFront)

theorem isCanonical_snoc {name : Text} {entry : Entry} (canonical : disk.IsCanonical here)
    (inside : disk.entry? here = some .directory) (short : Text.byteLength name ≤ maxNameBytes)
    (found : disk.entry? (here ++ [name]) = some entry) (noLink : ∀ target, entry ≠ .link target) :
    disk.IsCanonical (here ++ [name]) := by
  intro above last isFront
  rcases List.prefix_concat_iff.1 isFront with same | deeper
  · obtain ⟨rfl, sameName⟩ := List.append_inj' same rfl
    cases sameName
    exact ⟨inside, short, entry, found, noLink⟩
  · exact canonical above last deeper

theorem Leads.isCanonical (leads : disk.Leads links todo here left place)
    (canonical : disk.IsCanonical here) : disk.IsCanonical place := by
  induction leads with
  | arrived => exact canonical
  | stay _ _ ih => exact ih canonical
  | close _ _ ih => exact ih canonical
  | up _ _ ih => exact ih (canonical.front (List.dropLast_prefix _))
  | enter inside short found noLink _ ih =>
      exact ih (isCanonical_snoc canonical inside short found noLink)
  | link _ _ _ _ ih =>
      -- A link's target is followed from the root directory or from where the link stands.
      refine ih ?_
      split
      · exact isCanonical_nil
      · exact canonical

theorem leads_of_isCanonical {names : List Text} (canonical : disk.IsCanonical (here ++ names)) :
    disk.Leads links (names.map .enter) here links (here ++ names) := by
  induction names generalizing here with
  | nil =>
      rw [List.append_nil]
      exact .arrived
  | cons name rest ih =>
      obtain ⟨inside, short, entry, found, noLink⟩ := canonical here name (by simp)
      rw [List.append_cons] at canonical ⊢
      exact .enter inside short found noLink (ih canonical)

/-- A path without links leads to itself, and no link is used up. -/
theorem IsCanonical.leads {path : Path} (canonical : disk.IsCanonical path) :
    disk.Leads links (path.map .enter) [] links path :=
  leads_of_isCanonical canonical

theorem follow_of_isCanonical {names : List Text} (canonical : disk.IsCanonical (here ++ names))
    (creating : Bool) :
    disk.follow creating links (names.map .enter) here = .ok (here ++ names) := by
  induction names generalizing here with
  | nil => rw [List.map_nil, Disk.follow, List.append_nil]
  | cons name rest ih =>
      obtain ⟨inside, short, entry, found, noLink⟩ := canonical here name (by simp)
      rw [List.append_cons] at canonical ⊢
      have noClose : (rest.map PathStep.enter == [.close]) = false := by
        cases rest <;> simp
      rw [List.map_cons, Disk.follow, if_neg (not_not_intro inside)]
      simp only [noClose, Bool.and_false, Bool.false_eq_true, if_false, Nat.not_lt.2 short, found]
      cases entry with
      | link target => exact absurd rfl (noLink target)
      | directory | file => exact ih canonical

/-- A path without links is followed to itself, whether or not its last name may be free. -/
theorem IsCanonical.follow {path : Path} (canonical : disk.IsCanonical path) (creating : Bool) :
    disk.follow creating links (path.map .enter) [] = .ok path :=
  follow_of_isCanonical canonical creating

end StaticSite.Disk
