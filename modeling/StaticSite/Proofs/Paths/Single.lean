import Mathlib.Data.List.Infix
import StaticSite.Project.Create
import StaticSite.Proofs.LogicalName

/-!
# Single names

The check of a site's name goes by the parts of the text, and slashes at its end are no parts.  So
it accepts a proper name with any padding behind it, and what is accepted is the name of an entry
exactly if there is no padding.
-/

namespace StaticSite.PathText

/-- `Pads text base`: the text is a proper name, and behind it slashes with nothing or a dot behind
each. -/
structure Pads (text base : Text) : Prop where
  isName : IsName base
  padded : ∃ padding : List Text, text = join (base :: padding) ∧
    ∀ piece ∈ padding, piece = [] ∨ piece = ['.']

variable {text base piece : Text} {parent : Path} {padding : List Text}

/-! ## The pieces of an accepted text -/

theorem part?_eq_none_iff : part? piece = none ↔ piece = [] ∨ piece = ['.'] := by
  unfold part?
  split
  · next dropped => simp [dropped]
  · next kept => split <;> simp [kept]

theorem part?_eq_name_iff {name : Text} (noSlash : '/' ∉ piece) :
    part? piece = some (.name name) ↔ IsName piece ∧ name = piece := by
  constructor
  · intro found
    unfold part? at found
    split at found
    · cases found
    · next kept =>
      split at found
      · cases found
      · next notUp =>
        cases found
        exact ⟨⟨fun empty => kept (.inl empty), fun here => kept (.inr here), notUp, noSlash⟩, rfl⟩
  · rintro ⟨proper, rfl⟩
    exact part?_of_isName proper

theorem filterMap_part?_eq_nil_iff : padding.filterMap part? = [] ↔
    ∀ piece ∈ padding, piece = [] ∨ piece = ['.'] := by
  simp only [List.filterMap_eq_nil_iff, part?_eq_none_iff]

theorem Pads.splitOn (pads : Pads text base) : ∃ padding, text.splitOn '/' = base :: padding ∧
    padding.filterMap part? = [] := by
  obtain ⟨proper, padding, rfl, isPadding⟩ := pads
  refine ⟨padding, List.splitOn_intercalate '/' ?_ (List.cons_ne_nil _ _),
    filterMap_part?_eq_nil_iff.2 isPadding⟩
  rintro piece isIn
  rcases List.mem_cons.1 isIn with rfl | isIn
  · exact proper.noSlash
  · rcases isPadding piece isIn with rfl | rfl <;> decide

theorem pads_of_splitOn (proper : IsName base) (pieces : text.splitOn '/' = base :: padding)
    (noParts : padding.filterMap part? = []) : Pads text base where
  isName := proper
  padded := by
    refine ⟨padding, ?_, filterMap_part?_eq_nil_iff.1 noParts⟩
    rw [join, ← pieces, List.intercalate_splitOn]

theorem splitOn_of_isRooted (rooted : isRooted text = true) :
    ∃ pieces, text.splitOn '/' = [] :: pieces := by
  cases text with
  | nil => cases rooted
  | cons c rest =>
    obtain rfl : c = '/' := by simpa [isRooted] using rooted
    exact ⟨rest.splitOn '/', List.splitOn_append_cons_self [] rest⟩

theorem Pads.isRooted (pads : Pads text base) : isRooted text = false := by
  obtain ⟨padding, pieces, _⟩ := pads.splitOn
  refine Bool.eq_false_iff.2 fun rooted => ?_
  obtain ⟨_, pieces'⟩ := splitOn_of_isRooted rooted
  exact pads.isName.nonempty (List.cons.inj (pieces.symm.trans pieces')).1

theorem head?_splitOn_ne_nil (notRooted : isRooted text ≠ true) (nonempty : text ≠ []) :
    (text.splitOn '/').head? ≠ some [] := by
  obtain ⟨c, rest, rfl⟩ := List.exists_cons_of_ne_nil nonempty
  have noSlash : (c == '/') ≠ true := by simpa [isRooted] using notRooted
  obtain ⟨first, pieces, split⟩ := List.exists_cons_of_ne_nil (List.splitOn_ne_nil '/' rest)
  rw [List.splitOn_cons_eq_if_modifyHead, if_neg noSlash, split, List.modifyHead_cons]
  simp

/-- The only part of a text is a name exactly if the text is that name with padding. -/
theorem parts_eq_singleton_iff : parts text = [.name base] ↔ Pads text base := by
  constructor
  · intro single
    have nonempty : text ≠ [] := by
      rintro rfl
      cases single
    obtain ⟨first, pieces, split⟩ := List.exists_cons_of_ne_nil (List.splitOn_ne_nil '/' text)
    have noSlash : '/' ∉ first := not_mem_of_mem_splitOn (split ▸ List.mem_cons_self)
    simp only [parts] at single
    split at single
    · simp at single
    · next notRooted =>
      split at single
      · simp at single
      · next notHere =>
        have notEmpty := head?_splitOn_ne_nil notRooted nonempty
        rw [split, List.head?_cons] at notEmpty notHere
        cases isPart : part? first with
        | none =>
          -- Nothing or a dot at the front makes a text rooted, empty or one with a leading dot.
          rcases part?_eq_none_iff.1 isPart with rfl | rfl
          · exact absurd rfl notEmpty
          · exact absurd rfl notHere
        | some part =>
          rw [split, List.filterMap_cons_some isPart, List.cons.injEq] at single
          obtain ⟨rfl, noParts⟩ := single
          obtain ⟨proper, rfl⟩ := (part?_eq_name_iff noSlash).1 isPart
          exact pads_of_splitOn proper split noParts
  · intro pads
    obtain ⟨padding, pieces, noParts⟩ := pads.splitOn
    have notHere : (text.splitOn '/').head? ≠ some ['.'] := by
      rw [pieces, List.head?_cons, ne_eq, Option.some.injEq]
      exact pads.isName.notHere
    simp only [parts]
    rw [pads.isRooted, if_neg Bool.false_ne_true, if_neg notHere, pieces,
      List.filterMap_cons_some (part?_of_isName pads.isName), noParts]

/-! ## The check -/

theorem faultOfParts?_eq_none_iff {parts : List PathPart} : faultOfParts? text parts = none ↔
    ∃ names : List Text, parts = names.map .name := by
  induction parts with
  | nil => exact ⟨fun _ => ⟨[], rfl⟩, fun _ => rfl⟩
  | cons part rest ih =>
    cases part with
    | name first =>
      rw [faultOfParts?, ih]
      constructor
      · rintro ⟨names, rfl⟩
        exact ⟨first :: names, rfl⟩
      · rintro ⟨names, same⟩
        cases names with
        | nil => cases same
        | cons second names => exact ⟨names, (List.cons.inj same).2⟩
    | root | here | up =>
      refine ⟨nofun, ?_⟩
      rintro ⟨names, same⟩
      cases names <;> cases same

theorem checkSingle_eq_ok_iff : checkSingle text = .ok () ↔ ∃ base, parts text = [.name base] := by
  rw [checkSingle]
  cases found : faultOfParts? text (parts text) with
  | some fault =>
    refine ⟨nofun, ?_⟩
    rintro ⟨base, single⟩
    rw [single] at found
    cases found
  | none =>
    obtain ⟨names, areNames⟩ := faultOfParts?_eq_none_iff.1 found
    dsimp only
    rw [areNames, List.length_map]
    constructor
    · intro accepted
      split at accepted
      · next one =>
        obtain ⟨base, rfl⟩ := List.length_eq_one_iff.1 one
        exact ⟨base, rfl⟩
      · cases accepted
    · rintro ⟨base, single⟩
      have one := congrArg List.length single
      rw [List.length_map] at one
      exact if_pos one

theorem checkName_eq_ok_iff : checkName text = .ok () ↔ ∃ base, Pads text base := by
  simp only [← parts_eq_singleton_iff, ← checkSingle_eq_ok_iff]
  unfold checkName
  split
  · next empty =>
    subst empty
    exact ⟨nofun, fun accepted => by cases accepted⟩
  · rfl

/-! ## The entry that is named -/

theorem pads_self (proper : IsName text) : Pads text text :=
  ⟨proper, [], (List.intercalate_singleton ..).symm, nofun⟩

theorem Pads.eq_iff (pads : Pads text base) : base = text ↔ '/' ∉ text := by
  constructor
  · rintro rfl
    exact pads.isName.noSlash
  · intro noSlash
    obtain ⟨_, padding, rfl, _⟩ := pads
    cases padding with
    | nil => exact (List.intercalate_singleton ..).symm
    | cons piece padding => simp [join, List.intercalate_cons_cons] at noSlash

theorem Pads.splitName (pads : Pads text base) : (Project.splitName text).1 = base := by
  obtain ⟨padding, pieces, _⟩ := pads.splitOn
  rw [Project.splitName, pieces]
  cases padding <;> rfl

/-- A path text behind another.  A slash comes between them unless one is there or nothing is in
front of it, and a rooted text stands alone. -/
def joined (front behind : Text) : Text :=
  if isRooted behind then behind
  else if front = [] ∨ front.getLast? = some '/' then front ++ behind
  else front ++ '/' :: behind

theorem splitOn_slash (text : Text) : (text ++ ['/']).splitOn '/' = text.splitOn '/' ++ [[]] := by
  rw [List.splitOn_append_cons_self, List.splitOn_nil]

theorem head?_splitOn_append (front behind : Text) :
    ((front ++ '/' :: behind).splitOn '/').head? = (front.splitOn '/').head? := by
  rw [List.splitOn_append_cons_self, List.head?_append_of_ne_nil _ (List.splitOn_ne_nil _ _)]

/-- What comes behind a slash adds its pieces, whatever is in front of the slash. -/
theorem parts_append (front behind : Text) : parts (front ++ '/' :: behind)
    = parts (front ++ ['/']) ++ (behind.splitOn '/').filterMap part? := by
  have sameRoot : isRooted (front ++ '/' :: behind) = isRooted (front ++ ['/']) := by
    cases front <;> rfl
  have pieces : ((front ++ '/' :: behind).splitOn '/').filterMap part?
      = ((front ++ ['/']).splitOn '/').filterMap part?
        ++ (behind.splitOn '/').filterMap part? := by
    rw [splitOn_slash, List.splitOn_append_cons_self, List.filterMap_append,
      List.filterMap_append, List.append_assoc]
    rfl
  simp only [parts, sameRoot, head?_splitOn_append, pieces]
  split
  · rfl
  · split <;> rfl

/-- A slash at the end is no part, but for the root. -/
theorem parts_slash (nonempty : text ≠ []) : parts (text ++ ['/']) = parts text := by
  have sameRoot : isRooted (text ++ ['/']) = isRooted text := by
    obtain ⟨c, rest, rfl⟩ := List.exists_cons_of_ne_nil nonempty
    rfl
  have pieces : ((text ++ ['/']).splitOn '/').filterMap part?
      = (text.splitOn '/').filterMap part? := by
    rw [splitOn_slash, List.filterMap_append]
    exact List.append_nil _
  simp only [parts, sameRoot, head?_splitOn_append, pieces]

theorem Pads.parts_joined (pads : Pads text base) (front : Text) :
    parts (joined front text) = parts front ++ [.name base] := by
  obtain ⟨padding, pieces, noParts⟩ := pads.splitOn
  have behindSlash (front : Text) :
      parts (front ++ '/' :: text) = parts (front ++ ['/']) ++ [.name base] := by
    rw [parts_append, pieces, List.filterMap_cons_some (part?_of_isName pads.isName), noParts]
  rw [joined, pads.isRooted, if_neg Bool.false_ne_true]
  split
  · next noSlash =>
    rcases noSlash with rfl | ends
    · exact parts_eq_singleton_iff.2 pads
    · obtain ⟨before, rfl⟩ := List.getLast?_eq_some_iff.1 ends
      rw [List.append_assoc]
      exact behindSlash before
  · next slash =>
    rw [behindSlash, parts_slash (not_or.1 slash).1]

theorem getLast?_text (proper : ∀ name ∈ parent, IsName name) (nonempty : parent ≠ []) :
    (Path.text parent).getLast? ≠ some '/' := by
  intro ends
  obtain ⟨before, whole⟩ := List.getLast?_eq_some_iff.1 ends
  have pieces : (Path.text parent).splitOn '/' = [] :: parent := by
    rw [Path.text]
    exact (List.splitOn_append_cons_self [] _).trans
      (congrArg ([] :: ·) (splitOn_join proper nonempty))
  have last : ([] :: parent).getLast? = some [] := by
    rw [← pieces, whole, splitOn_slash, List.getLast?_concat]
  obtain ⟨first, rest, rfl⟩ := List.exists_cons_of_ne_nil nonempty
  rw [List.getLast?_cons_cons] at last
  exact (proper _ (List.mem_of_getLast? last)).nonempty rfl

/-- A project is created at the name behind the path text of its parent directory. -/
theorem Pads.writtenPath (pads : Pads text base) (proper : ∀ name ∈ parent, IsName name) :
    Project.writtenPath parent text = joined (Path.text parent) text := by
  rw [joined, pads.isRooted, if_neg Bool.false_ne_true, Project.writtenPath]
  by_cases atTop : parent = []
  · rw [if_pos atTop, atTop]
    rfl
  · have noSlash : ¬ (parent.text = [] ∨ parent.text.getLast? = some '/') :=
      not_or.2 ⟨List.cons_ne_nil _ _, getLast?_text proper atTop⟩
    rw [if_neg atTop, if_neg noSlash]

/-- A name is accepted exactly if it is a proper name with padding, and is that proper name exactly
if it has no slash.  The padding is lost in the entry that is named: behind any path text the name
leads to the entry of the proper name there, which is the one where a project is created. -/
theorem accepted_name_names_entry (name : Text) :
    (checkName name = .ok () ↔ ∃ base, Pads name base) ∧
      (checkName name = .ok () ∧ '/' ∉ name ↔ IsName name) ∧
      ∀ base, Pads name base → (base = name ↔ '/' ∉ name) ∧ (Project.splitName name).1 = base ∧
        (∀ front, parts (joined front name) = parts front ++ [.name base]) ∧
        ∀ parent : Path, (∀ other ∈ parent, IsName other) →
          Project.writtenPath parent name = joined parent.text name := by
  refine ⟨checkName_eq_ok_iff, ⟨?_, fun proper => ?_⟩, fun base pads => ?_⟩
  · rintro ⟨accepted, noSlash⟩
    obtain ⟨base, pads⟩ := checkName_eq_ok_iff.1 accepted
    exact pads.eq_iff.2 noSlash ▸ pads.isName
  · exact ⟨checkName_eq_ok_iff.2 ⟨name, pads_self proper⟩, proper.noSlash⟩
  · exact ⟨pads.eq_iff, pads.splitName, pads.parts_joined, fun _ => pads.writtenPath⟩

/-- A name with a slash behind it is accepted, and names the entry without the slash. -/
theorem slashedName_accepted : checkName "a/".toList = .ok () ∧ ¬ IsName "a/".toList ∧
    parts (joined "/sites".toList "a/".toList)
      = parts "/sites".toList ++ [.name "a".toList] := by
  decide

end StaticSite.PathText
