import StaticSite.Proofs.Text.Insertion

/-!
# Places in text

Where a mark stands in a text, by the number of characters in front of it, and what becomes of that
when a piece is put in elsewhere: unless the mark straddles the place where the piece goes in, it
stays where it is or moves on by the length of the piece.
-/

namespace StaticSite.Text

/-- The first place at which the mark begins. -/
def place? (mark text : Text) : Option Nat :=
  (List.range (text.length + 1)).find? fun place => mark.isPrefixOf (text.drop place)

/-- The text with a piece put in front of what stands at a place. -/
def insertAt (place : Nat) (piece text : Text) : Text :=
  text.take place ++ (piece ++ text.drop place)

/-- The text without as many characters from a place on. -/
def removeAt (place length : Nat) (text : Text) : Text :=
  text.take place ++ text.drop (place + length)

/-- The text with a piece put in at every place, the one behind its last character included.
Places count in the text as it was. -/
def insertAll (pieces : Nat → Text) : Text → Text
  | [] => pieces 0
  | c :: rest => pieces 0 ++ c :: insertAll (fun place => pieces (place + 1)) rest

/-- The mark begins in front of a place and ends behind it. -/
def Straddles (mark : Text) (place : Nat) (text : Text) : Prop :=
  ∃ first second, first ≠ [] ∧ second ≠ [] ∧ mark = first ++ second ∧
    first <:+ text.take place ∧ second <+: text.drop place

/-- Where a place comes to when a piece of some length is put in at another one. -/
def moved (place length other : Nat) : Nat :=
  if other < place then other else other + length

variable {mark piece other text front behind before after : Text} {place first second : Nat}

/-! ## First places -/

theorem stands_iff (nonempty : mark ≠ []) : mark <+: text.drop place ↔
    ∃ before after, text = before ++ (mark ++ after) ∧ before.length = place := by
  constructor
  · rintro ⟨after, split⟩
    refine ⟨text.take place, after, by rw [split, List.take_append_drop], ?_⟩
    rw [List.length_take]
    refine Nat.min_eq_left (Nat.le_of_lt (Decidable.byContradiction fun beyond => ?_))
    rw [List.drop_of_length_le (Nat.not_lt.1 beyond), List.append_eq_nil_iff] at split
    exact nonempty split.1
  · rintro ⟨before, after, rfl, rfl⟩
    rw [List.drop_left]
    exact List.prefix_append mark after

theorem stands_infix : (∃ place, mark <+: text.drop place) ↔ mark <:+: text := by
  constructor
  · rintro ⟨place, stands⟩
    exact stands.isInfix.trans (List.drop_suffix place text).isInfix
  · rintro ⟨before, after, rfl⟩
    refine ⟨before.length, ?_⟩
    rw [List.append_assoc, List.drop_left]
    exact List.prefix_append mark after

theorem place?_eq_some_iff (nonempty : mark ≠ []) : place? mark text = some place ↔
    mark <+: text.drop place ∧ ∀ earlier < place, ¬ mark <+: text.drop earlier := by
  rw [place?, List.find?_range_eq_some]
  simp only [List.isPrefixOf_iff_prefix, List.mem_range, Nat.lt_succ_iff, Bool.not_eq_true',
    ← Bool.not_eq_true]
  refine and_congr_right fun stands => and_iff_right ?_
  obtain ⟨before, after, rfl, rfl⟩ := (stands_iff nonempty).1 stands
  rw [List.length_append]
  exact Nat.le_add_right _ _

theorem place?_eq_none_iff (nonempty : mark ≠ []) :
    place? mark text = none ↔ ¬ mark <:+: text := by
  rw [← stands_infix, not_exists, place?, List.find?_eq_none]
  simp only [List.isPrefixOf_iff_prefix, List.mem_range, Nat.lt_succ_iff]
  refine ⟨fun absent place stands => ?_, fun absent place _ => absent place⟩
  obtain ⟨before, after, rfl, rfl⟩ := (stands_iff nonempty).1 stands
  exact absent _ (by simp) stands

/-- A text is cut at the first place of the mark. -/
theorem place?_of_cut (nonempty : mark ≠ []) (found : cut mark text = some (before, after)) :
    place? mark text = some before.length := by
  obtain ⟨rfl, first⟩ := (cut_eq_some_iff nonempty).1 found
  rw [place?_eq_some_iff nonempty, List.append_assoc, List.drop_left]
  refine ⟨List.prefix_append mark after, fun earlier less stands => ?_⟩
  -- An earlier mark would end in front of where the first one ends.
  rw [List.drop_append_of_le_length (Nat.le_of_lt less), ← List.append_assoc] at stands
  obtain ⟨rest, split⟩ := List.prefix_of_prefix_length_le stands
    (List.prefix_append (before.drop earlier ++ mark) after) (by simp)
  have nothing := first (before.take earlier) rest (by
    rw [List.append_assoc, split, ← List.append_assoc, List.take_append_drop])
  have lengths := congrArg List.length split
  rw [nothing, List.length_append, List.length_append, List.length_drop, List.length_nil]
    at lengths
  omega

theorem place?_of_cut_eq_none (nonempty : mark ≠ []) (none : cut mark text = none) :
    place? mark text = .none :=
  (place?_eq_none_iff nonempty).2 ((cut_eq_none_iff nonempty).1 none)

/-! ## One piece -/

theorem exists_split (within : place ≤ text.length) :
    ∃ front behind, text = front ++ behind ∧ front.length = place :=
  ⟨text.take place, text.drop place, (List.take_append_drop place text).symm,
    List.length_take_of_le within⟩

theorem insertAt_append : insertAt front.length piece (front ++ behind)
    = front ++ (piece ++ behind) := by
  rw [insertAt, List.take_left, List.drop_left]

theorem removeAt_insertAt (within : place ≤ text.length) :
    removeAt place piece.length (insertAt place piece text) = text := by
  obtain ⟨front, behind, rfl, rfl⟩ := exists_split within
  rw [insertAt_append, removeAt, List.take_left, ← List.append_assoc,
    ← List.length_append, List.drop_left]

/-- Two pieces may go in one after the other, the later place first or last. -/
theorem insertAt_insertAt (ordered : first ≤ second) (within : second ≤ text.length) :
    insertAt (second + piece.length) other (insertAt first piece text)
      = insertAt first piece (insertAt second other text) := by
  obtain ⟨inFront, behind, rfl, isSecond⟩ := exists_split within
  obtain ⟨front, middle, rfl, rfl⟩ := exists_split (isSecond.symm ▸ ordered)
  rw [List.length_append] at isSecond
  subst isSecond
  rw [List.append_assoc]
  have later : insertAt (front.length + middle.length) other (front ++ (middle ++ behind))
      = front ++ (middle ++ (other ++ behind)) := by
    rw [← List.length_append, ← List.append_assoc, insertAt_append, List.append_assoc]
  have last : insertAt (front.length + middle.length + piece.length) other
      (front ++ (piece ++ (middle ++ behind)))
        = front ++ (piece ++ (middle ++ (other ++ behind))) := by
    have place : front.length + middle.length + piece.length
        = (front ++ (piece ++ middle)).length := by
      simp only [List.length_append]
      omega
    have parts : front ++ (piece ++ (middle ++ behind)) = front ++ (piece ++ middle) ++ behind := by
      simp only [List.append_assoc]
    rw [place, parts, insertAt_append]
    simp only [List.append_assoc]
  rw [later, insertAt_append, insertAt_append, last]

/-! ## A mark beside a piece -/

theorem not_straddles_of_head (apart : ∀ c ∈ (text.drop place).head?, c ∉ mark.tail) :
    ¬ Straddles mark place text := by
  rintro ⟨first, second, nonempty, nonempty', rfl, _, behind, split⟩
  obtain ⟨c, rest, rfl⟩ := List.exists_cons_of_ne_nil nonempty'
  refine apart c (by rw [← split]; rfl) ?_
  rw [List.tail_append_of_ne_nil nonempty]
  exact List.mem_append_right _ List.mem_cons_self

/-- A mark that begins in front of a place that it does not straddle ends in front of it. -/
theorem add_length_le_of_not_straddles {start : Nat} (nonempty : mark ≠ [])
    (unbroken : ¬ Straddles mark place text) (stands : mark <+: text.drop start)
    (inFront : start < place) : start + mark.length ≤ place := by
  obtain ⟨before, after, rfl, rfl⟩ := (stands_iff nonempty).1 stands
  obtain ⟨count, rfl⟩ := Nat.exists_eq_add_of_lt inFront
  refine Decidable.byContradiction fun beyond => unbroken ?_
  have inMark : count + 1 < mark.length := by omega
  refine ⟨mark.take (count + 1), mark.drop (count + 1), ?_, ?_,
    (List.take_append_drop _ mark).symm, ?_, ?_⟩
  · exact List.ne_nil_of_length_pos (by rw [List.length_take]; omega)
  · exact List.ne_nil_of_length_pos (by rw [List.length_drop]; omega)
  · rw [Nat.add_assoc, List.take_length_add_append, List.take_append_of_le_length (by omega)]
    exact List.suffix_append _ _
  · rw [Nat.add_assoc, List.drop_length_add_append, List.drop_append_of_le_length (by omega)]
    exact List.prefix_append _ _

/-- A mark that does not straddle the place of a piece stands as before, moved on if it is behind
it. -/
theorem stands_moved {start : Nat} (unbroken : ¬ Straddles mark place text)
    (within : place ≤ text.length) (nonempty : mark ≠ []) (stands : mark <+: text.drop start)
    (piece : Text) :
    mark <+: (insertAt place piece text).drop (moved place piece.length start) := by
  obtain ⟨front, behind, rfl, rfl⟩ := exists_split within
  rw [insertAt_append, moved]
  split
  · next inFront =>
    have ends := add_length_le_of_not_straddles nonempty unbroken stands inFront
    rw [List.drop_append_of_le_length inFront.le] at stands ⊢
    have fits : mark.length ≤ (front.drop start).length := by
      rw [List.length_drop]
      omega
    exact (List.prefix_of_prefix_length_le stands (List.prefix_append _ _) fits).trans
      (List.prefix_append _ _)
  · next notInFront =>
    obtain ⟨count, rfl⟩ := Nat.exists_eq_add_of_le (Nat.le_of_not_lt notInFront)
    rw [List.drop_length_add_append] at stands
    rwa [Nat.add_assoc, List.drop_length_add_append, Nat.add_comm, List.drop_length_add_append]

section

variable (fenced : Fenced mark piece) (absent : ¬ mark <:+: piece)
  (unbroken : ¬ Straddles mark place text) (within : place ≤ text.length)

include fenced absent unbroken within

theorem stands_insertAt_iff (goal : Nat) (nonempty : mark ≠ []) :
    mark <+: (insertAt place piece text).drop goal ↔
      ∃ start, mark <+: text.drop start ∧ goal = moved place piece.length start := by
  constructor
  · obtain ⟨front, behind, rfl, rfl⟩ := exists_split within
    have positive : 0 < mark.length := List.length_pos_iff.2 nonempty
    rw [insertAt_append]
    simp only [stands_iff nonempty]
    rintro ⟨before, after, split, rfl⟩
    cases fenced.occurs split with
    | inFront middle isFront isAfter =>
      refine ⟨before.length, ⟨before, middle ++ behind, ?_, rfl⟩, ?_⟩
      · simp only [isFront, List.append_assoc]
      · rw [moved, if_pos]
        simp only [isFront, List.length_append]
        omega
    | within left right whole => exact absurd (infix_of_split whole) absent
    | behind middle isBehind isBefore =>
      refine ⟨front.length + middle.length, ⟨front ++ middle, after, ?_, List.length_append⟩, ?_⟩
      · simp only [isBehind, List.append_assoc]
      · rw [moved, if_neg (by omega)]
        simp only [isBefore, List.length_append]
        omega
  · rintro ⟨start, stands, rfl⟩
    exact stands_moved unbroken within nonempty stands piece

/-- A piece that the mark does not touch moves its first place on, if that is not in front. -/
theorem place?_insertAt (nonempty : mark ≠ []) :
    place? mark (insertAt place piece text)
      = (place? mark text).map (moved place piece.length) := by
  have stands_iff := fun goal =>
    stands_insertAt_iff fenced absent unbroken within goal nonempty
  cases found : place? mark text with
  | none =>
    rw [Option.map_none, place?_eq_none_iff nonempty, ← stands_infix]
    rintro ⟨goal, stands⟩
    obtain ⟨start, stands', _⟩ := (stands_iff goal).1 stands
    exact (place?_eq_none_iff nonempty).1 found ( stands_infix.1 ⟨start, stands'⟩)
  | some start =>
    obtain ⟨stands, noEarlier⟩ := (place?_eq_some_iff nonempty).1 found
    rw [Option.map_some, place?_eq_some_iff nonempty]
    refine ⟨(stands_iff _).2 ⟨start, stands, rfl⟩, fun earlier less stands' => ?_⟩
    obtain ⟨start', stands'', rfl⟩ := (stands_iff earlier).1 stands'
    refine noEarlier start' (Nat.lt_of_not_le fun later => ?_) stands''
    unfold moved at less
    split at less <;> split at less <;> omega

end

/-! ## Several pieces -/

theorem insertAll_of_none {pieces : Nat → Text} (none : ∀ place, pieces place = []) :
    insertAll pieces text = text := by
  induction text generalizing pieces with
  | nil => exact none 0
  | cons c rest ih => rw [insertAll, none, ih fun place => none (place + 1), List.nil_append]

theorem insertAt_succ {c : Char} :
    insertAt (place + 1) piece (c :: text) = c :: insertAt place piece text := rfl

theorem insertAt_zero : insertAt 0 piece text = piece ++ text := rfl

theorem insertAll_single (piece : Text) (within : place ≤ text.length) :
    insertAll (fun other => if place = other then piece else []) text
      = insertAt place piece text := by
  induction text generalizing place with
  | nil =>
    obtain rfl := Nat.le_zero.1 within
    rw [insertAll, if_pos rfl, insertAt_zero, List.append_nil]
  | cons c rest ih =>
    cases place with
    | zero =>
      rw [insertAll, if_pos rfl, insertAt_zero, insertAll_of_none fun _ => if_neg (by omega)]
    | succ before =>
      rw [insertAll, if_neg (by omega), insertAt_succ, ← ih (Nat.le_of_succ_le_succ within)]
      simp only [Nat.add_right_cancel_iff, List.nil_append]

/-- Where both pieces go in at one place, the first one goes in front. -/
theorem insertAll_pair (within : first ≤ text.length) (within' : second ≤ text.length) :
    insertAll (fun place =>
        (if first = place then piece else []) ++ if second = place then other else []) text
      = if first ≤ second then insertAt first piece (insertAt second other text)
        else insertAt second other (insertAt first piece text) := by
  induction text generalizing first second with
  | nil =>
    obtain rfl := Nat.le_zero.1 within
    obtain rfl := Nat.le_zero.1 within'
    simp [insertAll, insertAt]
  | cons c rest ih =>
    cases first with
    | zero =>
      cases second with
      | zero =>
        rw [insertAll, insertAll_of_none fun _ => by simp]
        simp [insertAt]
      | succ before' =>
        have single := insertAll_single other (Nat.le_of_succ_le_succ within')
        simp [insertAll, insertAt_succ, insertAt_zero, single]
    | succ before =>
      cases second with
      | zero =>
        have single := insertAll_single piece (Nat.le_of_succ_le_succ within)
        simp [insertAll, insertAt_succ, insertAt_zero, single]
      | succ before' =>
        have both := ih (Nat.le_of_succ_le_succ within) (Nat.le_of_succ_le_succ within')
        by_cases ordered : before ≤ before'
        · simp [insertAll, insertAt_succ, both, ordered]
        · simp [insertAll, insertAt_succ, both, ordered]

end StaticSite.Text
