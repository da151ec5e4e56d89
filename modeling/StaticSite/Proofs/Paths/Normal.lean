import Mathlib.Data.List.Infix
import StaticSite.Disk.Contain
import StaticSite.Proofs.LogicalName

/-!
# Normal forms of path texts

What the names of a path text come to is said without a stack: each `..` takes back the nearest name
in front of it that is left, the leftmost one first.  There are no such names exactly if some front
part of the text climbs, with more `..` than names.  The names between slashes are a normal form:
they can stand for the text wherever it goes on, and lead to the same target.
-/

namespace StaticSite.PathText

/-- The segment that goes up. -/
def up : Text := ['.', '.']

/-- The text between slashes, without empty pieces and single dots. -/
def segments (path : Text) : List Text :=
  (path.splitOn '/').filter fun piece => piece ≠ [] ∧ piece ≠ ['.']

/-- Some front part goes up more often than it goes down. -/
def Climbs (segments : List Text) : Prop :=
  ∃ front, front <+: segments ∧ front.countP (· ≠ up) < front.count up

/-- `Collapses segments names`: the names are left once every segment that goes up has taken back
the nearest name in front of it that was still there. -/
inductive Collapses : List Text → List Text → Prop where
  | names {names : List Text} (noUp : up ∉ names) : Collapses names names
  /-- The first segment that goes up stands right behind the name that it takes back. -/
  | back {before behind left : List Text} {name : Text} (noUp : up ∉ before)
      (isName : name ≠ up) (more : Collapses (before ++ behind) left) :
      Collapses (before ++ name :: up :: behind) left

variable {path other name : Text} {stack before behind names left : List Text} {disk : Disk}
  {root : Path} {target target' : Target}

/-! ## Segments and parts -/

/-- The part that a segment stands for. -/
def segmentPart (segment : Text) : PathPart :=
  if segment = up then .up else .name segment

theorem filterMap_part? (pieces : List Text) : pieces.filterMap part?
    = (pieces.filter fun piece => piece ≠ [] ∧ piece ≠ ['.']).map segmentPart := by
  induction pieces with
  | nil => rfl
  | cons piece rest ih =>
    by_cases dropped : piece = [] ∨ piece = ['.']
    · have noPart : part? piece = none := if_pos dropped
      rw [List.filterMap_cons_none noPart, ih, List.filter_cons_of_neg]
      rwa [decide_eq_true_eq, ← not_or, not_not]
    · have isPart : part? piece = some (segmentPart piece) := by
        rw [part?, if_neg dropped, segmentPart]
        exact (apply_ite some _ _ _).symm
      rw [List.filterMap_cons_some isPart, ih, List.filter_cons_of_pos, List.map_cons]
      rwa [decide_eq_true_eq, ← not_or]

/-- The root and a leading dot are no names and take none back. -/
theorem reduce_parts (stack : List Text) (path : Text) :
    reduce stack (parts path) = reduce stack ((segments path).map segmentPart) := by
  rw [segments, ← filterMap_part?]
  simp only [parts]
  split
  · rw [reduce]
  · split
    · rw [reduce]
    · rfl

theorem reduce_name (isName : name ≠ up) :
    reduce stack ((name :: behind).map segmentPart)
      = reduce (name :: stack) (behind.map segmentPart) := by
  rw [List.map_cons, segmentPart, if_neg isName, reduce]

theorem reduce_up :
    reduce (name :: stack) ((up :: behind).map segmentPart)
      = reduce stack (behind.map segmentPart) := by
  rw [List.map_cons, segmentPart, if_pos rfl, reduce]

theorem reduce_climb : reduce [] ((up :: behind).map segmentPart) = none := by
  rw [List.map_cons, segmentPart, if_pos rfl, reduce]

/-! ## Climbing -/

theorem reduce_eq_none_iff : reduce stack (behind.map segmentPart) = none ↔
    ∃ front, front <+: behind ∧ stack.length + front.countP (· ≠ up) < front.count up := by
  induction behind generalizing stack with
  | nil =>
    constructor
    · intro impossible
      cases impossible
    · rintro ⟨front, isFront, more⟩
      rw [List.prefix_nil.1 isFront] at more
      cases more
  | cons segment behind ih =>
    -- A front part that climbs is not empty, so it begins with the segment.
    have begins : (∃ front, front <+: segment :: behind ∧
          stack.length + front.countP (· ≠ up) < front.count up) ↔
        ∃ front, front <+: behind ∧ stack.length + (segment :: front).countP (· ≠ up)
          < (segment :: front).count up := by
      constructor
      · rintro ⟨front, isFront, more⟩
        rcases List.prefix_cons_iff.1 isFront with rfl | ⟨tail, rfl, isTail⟩
        · cases more
        · exact ⟨tail, isTail, more⟩
      · rintro ⟨front, isFront, more⟩
        exact ⟨segment :: front, List.cons_prefix_cons.2 ⟨rfl, isFront⟩, more⟩
    rw [begins]
    by_cases goesUp : segment = up
    · subst goesUp
      cases stack with
      | nil =>
        rw [reduce_climb]
        exact ⟨fun _ => ⟨[], List.nil_prefix, by simp⟩, fun _ => rfl⟩
      | cons top stack =>
        rw [reduce_up, ih]
        refine exists_congr fun front => and_congr_right fun _ => ?_
        simp only [List.length_cons, List.countP_cons, List.count_cons, beq_self_eq_true, if_true,
          ne_eq, not_true_eq_false, decide_false, Bool.false_eq_true, if_false]
        omega
    · rw [reduce_name goesUp, ih]
      refine exists_congr fun front => and_congr_right fun _ => ?_
      simp only [List.length_cons, List.countP_cons, List.count_cons, beq_iff_eq, goesUp,
        ne_eq, not_false_eq_true, decide_true, if_true, if_false]
      omega

/-! ## Collapsing -/

/-- Lists that are parted at the same element are parted in the same way. -/
theorem parted_eq {front front' rest rest' : List Text} {mark : Text} (free : mark ∉ front)
    (free' : mark ∉ front') (same : front ++ mark :: rest = front' ++ mark :: rest') :
    front = front' ∧ rest = rest' := by
  induction front generalizing front' with
  | nil =>
    cases front' with
    | nil => exact ⟨rfl, (List.cons.inj same).2⟩
    | cons first front' => exact absurd ((List.cons.inj same).1 ▸ List.mem_cons_self) free'
  | cons first front ih =>
    cases front' with
    | nil => exact absurd ((List.cons.inj same).1 ▸ List.mem_cons_self) free
    | cons first' front' =>
      obtain ⟨rfl, tails⟩ := List.cons.inj same
      obtain ⟨rfl, rfl⟩ := ih (mt (List.mem_cons_of_mem _) free)
        (mt (List.mem_cons_of_mem _) free') tails
      exact ⟨rfl, rfl⟩

theorem collapses_names (noUp : up ∉ names) : Collapses names left ↔ left = names := by
  constructor
  · intro collapses
    cases collapses with
    | names => rfl
    | back => simp at noUp
  · rintro rfl
    exact .names noUp

theorem collapses_back (noUp : up ∉ before) (isName : name ≠ up) :
    Collapses (before ++ name :: up :: behind) left ↔ Collapses (before ++ behind) left := by
  refine ⟨fun collapses => ?_, .back noUp isName⟩
  generalize whole : before ++ name :: up :: behind = segments at collapses
  cases collapses with
  | names noUp' => simp [← whole] at noUp'
  | @back before' behind' _ name' noUp' isName' more =>
    have parted : (before ++ [name]) ++ up :: behind = (before' ++ [name']) ++ up :: behind' := by
      simpa using whole
    obtain ⟨fronts, rfl⟩ := parted_eq (by simp [noUp, Ne.symm isName])
      (by simp [noUp', Ne.symm isName']) parted
    obtain ⟨rfl, _⟩ := List.append_inj' fronts rfl
    exact more

theorem not_collapses_up : ¬ Collapses (up :: behind) left := by
  generalize whole : up :: behind = segments
  intro collapses
  cases collapses with
  | names noUp => simp [← whole] at noUp
  | @back before _ _ name noUp isName more =>
    cases before with
    | nil => exact isName (List.cons.inj whole).1.symm
    | cons first before => exact noUp ((List.cons.inj whole).1 ▸ List.mem_cons_self)

/-- The stack holds the names that are left so far, last name first. -/
theorem reduce_eq_some_iff (noUp : up ∉ stack) :
    reduce stack (behind.map segmentPart) = some left ↔
      Collapses (stack.reverse ++ behind) left.reverse := by
  induction behind generalizing stack with
  | nil =>
    rw [List.append_nil, collapses_names (by simpa using noUp), List.reverse_inj]
    exact ⟨fun same => (Option.some.inj same).symm, fun same => congrArg some same.symm⟩
  | cons segment behind ih =>
    by_cases goesUp : segment = up
    · subst goesUp
      cases stack with
      | nil =>
        rw [reduce_climb]
        exact ⟨nofun, fun collapses => absurd collapses not_collapses_up⟩
      | cons top stack =>
        obtain ⟨isName, noUp⟩ := not_or.1 (mt List.mem_cons.2 noUp)
        rw [reduce_up, ih noUp, List.reverse_cons, List.append_assoc, List.singleton_append,
          collapses_back (by simpa using noUp) (Ne.symm isName)]
    · rw [reduce_name goesUp, ih (by simp [noUp, Ne.symm goesUp]), List.reverse_cons,
        List.append_assoc, List.singleton_append]

/-! ## Path texts -/

theorem normalize?_eq (path : Text) :
    normalize? path = (reduce [] ((segments path).map segmentPart)).map List.reverse := by
  rw [normalize?, reduce_parts]

theorem normalize?_eq_none_iff : normalize? path = none ↔ Climbs (segments path) := by
  rw [normalize?_eq, Option.map_eq_none_iff, reduce_eq_none_iff]
  simp only [List.length_nil, Nat.zero_add]
  rfl

theorem normalize?_eq_some_iff : normalize? path = some names ↔
    Collapses (segments path) names := by
  rw [normalize?_eq, Option.map_eq_some_iff]
  constructor
  · rintro ⟨left, reduced, rfl⟩
    exact (reduce_eq_some_iff List.not_mem_nil).1 reduced
  · intro collapses
    exact ⟨names.reverse, (reduce_eq_some_iff List.not_mem_nil).2 (by simpa using collapses),
      List.reverse_reverse names⟩

theorem segments_append (path more : Text) :
    segments (path ++ '/' :: more) = segments path ++ segments more := by
  rw [segments, List.splitOn_append_cons_self, List.filter_append, segments, segments]

theorem reduce_append (stack : List Text) (front rest : List PathPart) :
    reduce stack (front ++ rest) = (reduce stack front).bind (reduce · rest) := by
  fun_induction reduce stack front with
  | case1 => rfl
  | case2 stack text front ih => rw [List.cons_append, reduce, ih]
  | case3 => rw [List.cons_append, reduce, Option.bind_none]
  | case4 top stack front ih => rw [List.cons_append, reduce, ih]
  | case5 stack front ih => rw [List.cons_append, reduce, ih]
  | case6 stack front ih => rw [List.cons_append, reduce, ih]

/-- What comes behind a slash goes on from the names in front of it. -/
theorem normalize?_append (path more : Text) : normalize? (path ++ '/' :: more)
    = (normalize? path).bind fun names =>
      (reduce names.reverse ((segments more).map segmentPart)).map List.reverse := by
  rw [normalize?_eq, normalize?_eq, segments_append, List.map_append, reduce_append]
  cases reduce [] ((segments path).map segmentPart) with
  | none => rfl
  | some stack => simp

/-! ## Targets -/

/-- Where a path text leads depends only on the names that it comes to. -/
theorem contain?_congr (same : normalize? path = normalize? other) :
    disk.contain? root path = disk.contain? root other := by
  rw [Disk.contain?, Disk.contain?, same]

theorem logical_of_contain? (located : disk.contain? root path = some target) :
    ∃ names, normalize? path = some names ∧ target.logical = join names := by
  rw [Disk.contain?] at located
  obtain ⟨names, normal, found⟩ := Option.bind_eq_some_iff.1 located
  refine ⟨names, normal, ?_⟩
  dsimp only at found
  split at found
  · split at found
    · cases found
      rfl
    · cases found
  · cases found
    rfl

theorem join_inj {names names' : List Text} (proper : ∀ name ∈ names, IsName name)
    (proper' : ∀ name ∈ names', IsName name) (same : join names = join names') :
    names = names' := by
  have normal := normalize?_join proper
  rw [same, normalize?_join proper'] at normal
  exact (Option.some.inj normal).symm

/-- One logical name belongs to the path texts that come to the same names. -/
theorem logical_eq_iff (located : disk.contain? root path = some target)
    (located' : disk.contain? root other = some target') :
    target.logical = target'.logical ↔ normalize? path = normalize? other := by
  obtain ⟨names, normal, logical⟩ := logical_of_contain? located
  obtain ⟨names', normal', logical'⟩ := logical_of_contain? located'
  rw [normal, normal', logical, logical']
  refine ⟨fun same => congrArg some ?_, fun same => congrArg join (Option.some.inj same)⟩
  exact join_inj (isName_of_normalize? normal) (isName_of_normalize? normal') same

/-- A path text comes to nothing exactly if it climbs, and otherwise to the names that are left of
its segments, which are its normal form: they are proper names, come to themselves, can stand for
the text in front of a slash and lead where it does.  So all texts that come to the same names, and
no others, have one logical name and one target. -/
theorem normal_form_canonical (path : Text) :
    (normalize? path = none ↔ Climbs (segments path)) ∧
      (∀ names, normalize? path = some names ↔ Collapses (segments path) names) ∧
      (∀ names, normalize? path = some names →
        (∀ name ∈ names, IsName name) ∧ normalize? (join names) = some names ∧
        (∀ more, normalize? (path ++ '/' :: more) = normalize? (join names ++ '/' :: more)) ∧
        ∀ (disk : Disk) (root : Path), disk.contain? root (join names) = disk.contain? root path ∧
          ∀ target, disk.contain? root path = some target → target.logical = join names) ∧
      ∀ (disk : Disk) (root : Path) (other : Text) (target target' : Target),
        disk.contain? root path = some target → disk.contain? root other = some target' →
        (target.logical = target'.logical ↔ normalize? path = normalize? other) ∧
          (target.logical = target'.logical → target = target') := by
  refine ⟨normalize?_eq_none_iff, fun _ => normalize?_eq_some_iff, fun names normal => ?_,
    fun disk root other target target' located located' => ?_⟩
  · have proper := isName_of_normalize? normal
    have again := normalize?_join proper
    refine ⟨proper, again, fun more => ?_, fun disk root => ⟨?_, fun target located => ?_⟩⟩
    · rw [normalize?_append, normalize?_append, normal, again]
    · exact contain?_congr (again.trans normal.symm)
    · obtain ⟨names', normal', logical⟩ := logical_of_contain? located
      rw [logical, Option.some.inj (normal'.symm.trans normal)]
  · refine ⟨logical_eq_iff located located', fun sameName => ?_⟩
    rw [contain?_congr ((logical_eq_iff located located').1 sameName), located'] at located
    exact (Option.some.inj located).symm

end StaticSite.PathText
