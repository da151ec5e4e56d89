import StaticSite.Proofs.Text.Cutting

/-!
# Slices of text

A slice is taken between two byte positions.  It is refused where a position is out of range or
inside of a character, and otherwise splits the text in three.
-/

namespace StaticSite

/-- Why a slice is refused. -/
inductive SliceFault where
  | outOfRange
  | insideCharacter
  deriving DecidableEq, Repr

namespace Text

/-- Byte `position` is the first byte of a character, or the end of the text. -/
def isBoundary : Nat → Text → Bool
  | 0, _ => true
  | _ + 1, [] => false
  | position + 1, c :: rest =>
      c.utf8Size ≤ position + 1 && isBoundary (position + 1 - c.utf8Size) rest

/-- The text from byte `start` up to byte `stop`. -/
def slice (text : Text) (start stop : Nat) : Except SliceFault Text :=
  if stop < start ∨ byteLength text < stop then .error .outOfRange
  else if isBoundary start text && isBoundary stop text then
    .ok (takeBytes (stop - start) (dropBytes start text))
  else .error .insideCharacter

/-- The byte position of the first occurrence of `mark`. -/
def position? (mark text : Text) : Option Nat :=
  (cut mark text).map fun (before, _) => byteLength before

variable {text front piece behind mark before after : Text} {position start stop : Nat}

/-! ## Boundaries -/

theorem isBoundary_iff : isBoundary position text = true ↔
    ∃ front behind, text = front ++ behind ∧ byteLength front = position := by
  induction text generalizing position with
  | nil =>
    cases position with
    | zero => exact ⟨fun _ => ⟨[], [], rfl, rfl⟩, fun _ => rfl⟩
    | succ position =>
      constructor
      · intro inside
        cases inside
      · rintro ⟨front, behind, split, size⟩
        rw [(List.append_eq_nil_iff.1 split.symm).1] at size
        cases size
  | cons c rest ih =>
    have positive := c.utf8Size_pos
    cases position with
    | zero => exact ⟨fun _ => ⟨[], c :: rest, rfl, rfl⟩, fun _ => rfl⟩
    | succ position =>
      rw [isBoundary, Bool.and_eq_true, decide_eq_true_eq, ih]
      constructor
      · rintro ⟨fits, front, behind, rfl, size⟩
        refine ⟨c :: front, behind, rfl, ?_⟩
        rw [byteLength]
        omega
      · rintro ⟨front, behind, split, size⟩
        cases front with
        | nil => cases size
        | cons d front =>
          obtain ⟨rfl, rfl⟩ := List.cons.inj split
          rw [byteLength] at size
          exact ⟨by omega, front, behind, rfl, by omega⟩

theorem isBoundary_append (front behind : Text) :
    isBoundary (byteLength front) (front ++ behind) = true :=
  isBoundary_iff.2 ⟨front, behind, rfl, rfl⟩

/-! ## Cuts at a byte -/

theorem dropBytes_append (front behind : Text) :
    dropBytes (byteLength front) (front ++ behind) = behind := by
  induction front with
  | nil => cases behind <;> rfl
  | cons c front ih =>
    have positive := c.utf8Size_pos
    rw [List.cons_append, dropBytes, if_neg (by rw [byteLength]; omega), byteLength,
      Nat.add_sub_cancel_left, ih]

theorem takeBytes_append (front behind : Text) :
    takeBytes (byteLength front) (front ++ behind) = front := by
  induction front with
  | nil => cases behind <;> rfl
  | cons c front ih =>
    have positive := c.utf8Size_pos
    rw [List.cons_append, takeBytes, if_neg (by rw [byteLength]; omega), byteLength,
      Nat.add_sub_cancel_left, ih]

/-! ## Slices -/

/-- Between two boundaries a slice is not refused. -/
theorem slice_append (front piece behind : Text) :
    slice (front ++ (piece ++ behind)) (byteLength front) (byteLength front + byteLength piece)
      = .ok piece := by
  have second : isBoundary (byteLength front + byteLength piece) (front ++ (piece ++ behind))
      = true := by
    rw [← List.append_assoc, ← byteLength_append]
    exact isBoundary_append _ _
  rw [slice, if_neg (by simp only [byteLength_append]; omega), isBoundary_append, second,
    Bool.and_self, if_pos rfl, dropBytes_append, Nat.add_sub_cancel_left, takeBytes_append]

/-- Up to the end of the text a slice is not refused either. -/
theorem slice_rest (front behind : Text) :
    slice (front ++ behind) (byteLength front) (byteLength (front ++ behind)) = .ok behind := by
  have whole := slice_append front behind []
  rwa [List.append_nil, ← byteLength_append] at whole

theorem boundaries_of_slice (sliced : slice text start stop = .ok piece) :
    isBoundary start text = true ∧ isBoundary stop text = true := by
  unfold slice at sliced
  split at sliced
  · cases sliced
  · split at sliced
    · next boundaries => exact Bool.and_eq_true_iff.1 boundaries
    · cases sliced

/-- What is sliced up to the end is as long as there are bytes left. -/
theorem byteLength_of_slice_rest (sliced : slice text start (byteLength text) = .ok piece) :
    start + byteLength piece = byteLength text := by
  obtain ⟨front, behind, rfl, rfl⟩ := isBoundary_iff.1 (boundaries_of_slice sliced).1
  rw [slice_rest] at sliced
  cases sliced
  rw [byteLength_append]

theorem position?_eq_none : position? mark text = none ↔ cut mark text = none :=
  Option.map_eq_none_iff

theorem position?_of_cut (found : cut mark text = some (before, after)) :
    position? mark text = some (byteLength before) := by
  rw [position?, found, Option.map_some]

theorem byteLength_le_of_position? (found : position? mark text = some position) :
    position + byteLength mark ≤ byteLength text := by
  obtain ⟨⟨before, after⟩, cutThere, rfl⟩ := Option.map_eq_some_iff.1 found
  rw [append_of_cut cutThere, byteLength_append, byteLength_append]
  dsimp only
  omega

end Text

end StaticSite
