import StaticSite.Proofs.Text.Cutting

/-!
# Insertion into text

A text holds a piece, and a mark occurs in the text.  If the piece ends on both sides in characters
that cannot stand in the middle of the mark, the mark occurs in front of the piece, in it or behind
it.  What is inserted at the mark then leaves the piece whole.
-/

namespace StaticSite.Text

variable {mark piece text text' text'' front behind before after : Text} {c : Char}

/-! ## Fences -/

/-- No occurrence of the mark reaches over an end of the piece. -/
structure Fenced (mark piece : Text) : Prop where
  first : ∃ c ∈ piece.head?, c ∉ mark.tail
  last : ∃ c ∈ piece.getLast?, c ∉ mark.dropLast

theorem fenced_singleton (apart : c ∉ mark) : Fenced mark [c] :=
  ⟨⟨c, rfl, mt List.mem_of_mem_tail apart⟩, ⟨c, rfl, mt List.mem_of_mem_dropLast apart⟩⟩

theorem infix_of_split (split : text = before ++ (mark ++ after)) : mark <:+: text :=
  ⟨before, after, (List.append_assoc ..).trans split.symm⟩

theorem includes_iff : includes mark text = true ↔ mark <:+: text := by
  by_cases empty : mark = []
  · subst empty
    cases text with
    | nil => exact iff_of_true rfl List.nil_infix
    | cons c rest => exact iff_of_true rfl List.nil_infix
  · rw [includes, Option.isSome_iff_ne_none, Ne, cut_eq_none_iff empty, not_not]

theorem not_infix (absent : includes mark text = false) : ¬ mark <:+: text := by
  rw [← includes_iff, absent]
  exact Bool.false_ne_true

/-- Where a mark between `before` and `after` is in a text of three parts. -/
inductive Occurs (mark front piece behind before after : Text) : Prop where
  | inFront (middle : Text) (isFront : front = before ++ (mark ++ middle))
      (isAfter : after = middle ++ (piece ++ behind))
  | within (left right : Text) (whole : piece = left ++ (mark ++ right))
      (isBefore : before = front ++ left) (isAfter : after = right ++ behind)
  | behind (middle : Text) (isBehind : behind = middle ++ (mark ++ after))
      (isBefore : before = front ++ (piece ++ middle))

namespace Fenced

theorem append_of_ends {left right : Text} {d : Char} (first : left.head? = some c)
    (apart : c ∉ mark.tail) (middle : Text) (last : right.getLast? = some d)
    (apart' : d ∉ mark.dropLast) : Fenced mark (left ++ (middle ++ right)) := by
  refine ⟨⟨c, ?_, apart⟩, ⟨d, ?_, apart'⟩⟩
  · rw [Option.mem_def, List.head?_append, first, Option.some_or]
  · rw [Option.mem_def, List.getLast?_append, List.getLast?_append, last, Option.some_or,
      Option.some_or]

variable (fenced : Fenced mark piece)

include fenced

theorem not_beyond_end {inner shared spare : Text} (whole : piece = inner ++ shared)
    (split : mark = shared ++ spare) : shared = [] ∨ spare = [] := by
  by_contra neither
  obtain ⟨left, right⟩ := not_or.1 neither
  obtain ⟨c, last, apart⟩ := fenced.last
  rw [whole, Option.mem_def, List.getLast?_append_of_ne_nil _ left] at last
  rw [split, List.dropLast_append_of_ne_nil right] at apart
  exact apart (List.mem_append_left _ (List.mem_of_getLast? last))

theorem not_before_start {spare shared : Text} (rest : piece ++ behind = shared ++ after)
    (split : mark = spare ++ shared) : spare = [] ∨ shared = [] := by
  by_contra neither
  obtain ⟨left, right⟩ := not_or.1 neither
  obtain ⟨c, first, apart⟩ := fenced.first
  have same := congrArg List.head? rest
  rw [List.head?_append, Option.mem_def.1 first, List.head?_append_of_ne_nil _ right] at same
  rw [split, List.tail_append_of_ne_nil left] at apart
  exact apart (List.mem_append_right _ (List.mem_of_mem_head? same.symm))

/-- A mark that does not begin in front of the piece. -/
theorem occurs_of_later {inner : Text} (isBefore : before = front ++ inner)
    (split : piece ++ behind = inner ++ (mark ++ after)) :
    Occurs mark front piece behind before after := by
  rcases List.append_eq_append_iff.1 split with ⟨middle, later, rest⟩ | ⟨shared, whole, rest⟩
  · exact .behind middle rest (by rw [isBefore, later])
  · rcases List.append_eq_append_iff.1 rest with ⟨right, within, rest⟩ | ⟨spare, within, beyond⟩
    · exact .within inner right (within ▸ whole) isBefore rest
    · -- A mark that begins in the piece and ends behind it has nothing on one of the sides.
      rcases fenced.not_beyond_end whole within with rfl | rfl
      · exact .behind [] rest.symm (by rw [isBefore, whole, List.append_nil, List.append_nil])
      · rw [List.append_nil] at within
        exact .within inner [] (by rw [within, whole, List.append_nil]) isBefore beyond.symm

/-- The mark occurs in front of the piece, in it or behind it. -/
theorem occurs (split : front ++ (piece ++ behind) = before ++ (mark ++ after)) :
    Occurs mark front piece behind before after := by
  rcases List.append_eq_append_iff.1 split with ⟨inner, isBefore, rest⟩ | ⟨spare, isFront, rest⟩
  · exact fenced.occurs_of_later isBefore rest
  · rcases List.append_eq_append_iff.1 rest with ⟨middle, within, rest⟩ | ⟨shared, within, beyond⟩
    · exact .inFront middle (within ▸ isFront) rest
    · rcases fenced.not_before_start beyond within with rfl | rfl
      · rw [List.append_nil] at isFront
        have start : piece ++ behind = [] ++ (mark ++ after) := rest.symm
        exact fenced.occurs_of_later (by rw [isFront, List.append_nil]) start
      · rw [List.append_nil] at within
        exact .inFront [] (by rw [isFront, within, List.append_nil]) beyond.symm

theorem infix_iff : mark <:+: front ++ (piece ++ behind) ↔
    mark <:+: front ∨ mark <:+: piece ∨ mark <:+: behind := by
  constructor
  · rintro ⟨before, after, split⟩
    rw [List.append_assoc] at split
    cases fenced.occurs split.symm with
    | inFront middle isFront => exact .inl (infix_of_split isFront)
    | within left right whole => exact .inr (.inl (infix_of_split whole))
    | behind middle isBehind => exact .inr (.inr (infix_of_split isBehind))
  · rintro (inFront | inPiece | inBehind)
    · exact inFront.trans (List.prefix_append _ _).isInfix
    · exact inPiece.trans ⟨front, behind, List.append_assoc ..⟩
    · exact inBehind.trans ((List.suffix_append _ _).trans (List.suffix_append _ _)).isInfix

end Fenced

/-- A character that is not in the mark keeps its occurrences apart. -/
theorem infix_append_cons (apart : c ∉ mark) :
    mark <:+: front ++ c :: behind ↔ mark <:+: front ∨ mark <:+: behind := by
  refine (fenced_singleton apart).infix_iff.trans (or_congr_right (or_iff_right_of_imp ?_))
  rintro ⟨left, right, whole⟩
  -- The mark within a character that is not in it is empty.
  have empty : mark = [] := List.eq_nil_iff_forall_not_mem.2 fun d isIn => by
    have isChar : d ∈ [c] := whole ▸ by simp [isIn]
    exact apart (List.mem_singleton.1 isChar ▸ isIn)
  exact empty ▸ List.nil_infix

theorem infix_cons (nonempty : mark ≠ []) (apart : c ∉ mark) :
    mark <:+: c :: behind ↔ mark <:+: behind := by
  have parts : mark <:+: [] ++ c :: behind ↔ mark <:+: [] ∨ mark <:+: behind :=
    infix_append_cons apart
  exact parts.trans (or_iff_right fun within => nonempty (List.infix_nil.1 within))

theorem ofLines_cons {line : String} {rest : List String} (more : rest ≠ []) :
    ofLines (line :: rest) = line.toList ++ '\n' :: ofLines rest := by
  obtain ⟨next, rest, rfl⟩ := List.exists_cons_of_ne_nil more
  simp [ofLines, List.intercalate_cons_cons]

/-- A mark without line feeds occurs in one of the lines. -/
theorem infix_ofLines {lines : List String} (nonempty : mark ≠ []) (apart : '\n' ∉ mark) :
    mark <:+: ofLines lines ↔ ∃ line ∈ lines, mark <:+: line.toList := by
  induction lines with
  | nil => simpa [ofLines, List.intercalate] using nonempty
  | cons line rest ih =>
    by_cases more : rest = []
    · subst more
      simp [ofLines]
    · rw [ofLines_cons more, infix_append_cons apart, ih]
      simp only [List.mem_cons, exists_eq_or_imp]

theorem not_infix_ofLines {lines : List String} (nonempty : mark ≠ []) (apart : '\n' ∉ mark)
    (absent : ∀ line ∈ lines, includes mark line.toList = false) : ¬ mark <:+: ofLines lines := by
  rw [infix_ofLines nonempty apart]
  rintro ⟨line, isLine, within⟩
  exact not_infix (absent line isLine) within

theorem getLast?_ofLines {lines : List String} (several : 2 ≤ lines.length)
    (last : lines.getLast? = some "") : (ofLines lines).getLast? = some '\n' := by
  induction lines with
  | nil => cases last
  | cons line rest ih =>
    have more : rest ≠ [] := by
      rintro rfl
      exact absurd several (by simp)
    rw [List.getLast?_cons_of_ne_nil more] at last
    rw [ofLines_cons more, List.getLast?_append_of_ne_nil _ (List.cons_ne_nil _ _)]
    by_cases several' : 2 ≤ rest.length
    · rw [List.getLast?_cons, ih several' last]
      rfl
    · obtain ⟨only, rfl⟩ := List.length_eq_one_iff.1
        (show rest.length = 1 by simp only [List.length_cons] at several; omega)
      cases last
      rfl

/-! ## First occurrences -/

theorem firstBehind_iff (nonempty : mark ≠ []) :
    FirstBehind mark before ↔ ¬ mark <:+: before ++ mark.dropLast := by
  have ends := List.dropLast_append_getLast nonempty
  constructor
  · rintro first ⟨front, behind, split⟩
    have again := first front (behind ++ [mark.getLast nonempty])
    -- The last character of the mark is missing, so what comes behind is not empty with it.
    rw [← List.append_assoc (front ++ mark), split, List.append_assoc, ends] at again
    simpa using again rfl
  · intro absent front behind same
    rcases List.eq_nil_or_concat behind with none | ⟨behind, d, rfl⟩
    · exact none
    · rw [List.concat_eq_append] at same
      rw [← ends, ← List.append_assoc before, ← List.append_assoc (front ++ _)] at same
      refine absurd ⟨front, behind, ?_⟩ absent
      have cutOff := (List.append_inj' same rfl).1
      rw [ends] at cutOff
      exact cutOff.symm

theorem FirstBehind.not_infix (nonempty : mark ≠ []) (first : FirstBehind mark before) :
    ¬ mark <:+: before :=
  fun within => (firstBehind_iff nonempty).1 first (within.trans (List.prefix_append _ _).isInfix)

theorem cut_append (nonempty : mark ≠ []) (first : FirstBehind mark before) :
    cut mark (before ++ (mark ++ after)) = some (before, after) :=
  (cut_eq_some_iff nonempty).2 ⟨(List.append_assoc ..).symm, first⟩

/-! ## Pieces that stay whole -/

/-- Wherever the first text has the piece, the second one has it too, with more around it. -/
def Keeps (piece text text' : Text) : Prop :=
  ∀ front behind, text = front ++ (piece ++ behind) →
    ∃ front' behind', text' = front' ++ (piece ++ behind') ∧ front.Sublist front' ∧
      behind.Sublist behind'

theorem keeps_refl : Keeps piece text text :=
  fun front behind split => ⟨front, behind, split, .refl _, .refl _⟩

theorem Keeps.trans (kept : Keeps piece text text') (kept' : Keeps piece text' text'') :
    Keeps piece text text'' := by
  intro front behind split
  obtain ⟨front', behind', split', inFront, inBehind⟩ := kept front behind split
  obtain ⟨front'', behind'', split'', inFront', inBehind'⟩ := kept' front' behind' split'
  exact ⟨front'', behind'', split'', inFront.trans inFront', inBehind.trans inBehind'⟩

theorem keeps_append (new : Text) : Keeps piece text (text ++ new) := by
  rintro front behind rfl
  exact ⟨front, behind ++ new, by simp only [List.append_assoc], .refl _,
    List.sublist_append_left _ _⟩

theorem sublist_around (left right : Text) :
    (before ++ (mark ++ after)).Sublist (before ++ (left ++ (mark ++ (right ++ after)))) :=
  (List.append_sublist_append_left before).2
    (((List.append_sublist_append_left mark).2 (List.sublist_append_right right after)).trans
      (List.sublist_append_right left _))

namespace Fenced

variable (fenced : Fenced mark piece) (absent : ¬ mark <:+: piece)

include fenced absent

/-- Text put around a mark that does not occur in the piece leaves the piece whole. -/
theorem keeps (before left right after : Text) :
    Keeps piece (before ++ (mark ++ after)) (before ++ (left ++ (mark ++ (right ++ after)))) := by
  intro front behind split
  cases fenced.occurs split.symm with
  | inFront middle isFront isAfter =>
    refine ⟨before ++ (left ++ (mark ++ (right ++ middle))), behind, ?_,
      isFront ▸ sublist_around left right, .refl _⟩
    simp only [isAfter, List.append_assoc]
  | within inner rest whole =>
    exact absurd (infix_of_split whole) absent
  | behind middle isBehind isBefore =>
    refine ⟨front, middle ++ (left ++ (mark ++ (right ++ after))), ?_, .refl _,
      isBehind ▸ sublist_around left right⟩
    simp only [isBefore, List.append_assoc]

theorem keeps_insertAfter? {new : Text} (inserted : insertAfter? mark new text = some text') :
    Keeps piece text text' := by
  obtain ⟨⟨before, after⟩, found, rfl⟩ := Option.map_eq_some_iff.1 inserted
  have kept := fenced.keeps absent before [] new after
  simpa only [append_of_cut found, List.append_assoc, List.nil_append] using kept

theorem keeps_insertBefore? {new : Text} (inserted : insertBefore? mark new text = some text') :
    Keeps piece text text' := by
  obtain ⟨⟨before, after⟩, found, rfl⟩ := Option.map_eq_some_iff.1 inserted
  have kept := fenced.keeps absent before new [] after
  simpa only [append_of_cut found, List.append_assoc, List.nil_append] using kept

end Fenced

end StaticSite.Text
