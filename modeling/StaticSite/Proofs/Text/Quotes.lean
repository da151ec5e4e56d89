import StaticSite.Proofs.Text.Insertion

/-!
# Quoted values

A value stands between two quotes, and a key right in front of the first one says which value it is.
The quotes part a text, and a key is the end of a part.
-/

namespace StaticSite.Text

/-- The text in front of the first occurrence of `mark`. -/
def upTo? (mark text : Text) : Option Text :=
  (cut mark text).map Prod.fst

/-- The text behind the first occurrence of `mark`. -/
def behind? (mark text : Text) : Option Text :=
  (cut mark text).map Prod.snd

/-- The text between the first quote that `key` is right in front of and the next quote. -/
def quoted? (key text : Text) : Option Text :=
  (behind? (key ++ ['"']) text).bind (upTo? ['"'])

variable {mark key front behind before after value : Text} {c : Char}

/-! ## Parting at a character -/

theorem firstBehind_singleton : FirstBehind [c] before ↔ c ∉ before := by
  rw [firstBehind_iff (List.cons_ne_nil _ _), List.dropLast_singleton, List.append_nil,
    List.singleton_infix_iff]

theorem cut_singleton (free : c ∉ before) : cut [c] (before ++ c :: after) = some (before, after) :=
  cut_append (List.cons_ne_nil _ _) (firstBehind_singleton.2 free)

theorem upTo?_singleton (free : c ∉ before) : upTo? [c] (before ++ c :: after) = some before := by
  rw [upTo?, cut_singleton free, Option.map_some]

theorem upTo?_singleton_eq_none (free : c ∉ front) : upTo? [c] front = none := by
  have absent : ¬ [c] <:+: front := mt (List.singleton_infix_iff ..).1 free
  rw [upTo?, (cut_eq_none_iff (List.cons_ne_nil _ _)).2 absent, Option.map_none]

theorem upTo?_singleton_eq_some :
    upTo? [c] front = some value ↔ c ∉ value ∧ ∃ rest, front = value ++ c :: rest := by
  constructor
  · intro found
    obtain ⟨⟨_, rest⟩, cutThere, rfl⟩ := Option.map_eq_some_iff.1 found
    obtain ⟨split, first⟩ := (cut_eq_some_iff (List.cons_ne_nil _ _)).1 cutThere
    exact ⟨firstBehind_singleton.1 first, rest, split.trans (List.append_assoc ..)⟩
  · rintro ⟨free, rest, rfl⟩
    exact upTo?_singleton free

/-- Texts that are parted at the same character are parted in the same way. -/
theorem parted_eq (free : c ∉ front) (free' : c ∉ before)
    (same : front ++ c :: behind = before ++ c :: after) : front = before ∧ behind = after := by
  have cutThere : cut [c] (front ++ c :: behind) = some (front, behind) := cut_singleton free
  rw [same, cut_singleton free'] at cutThere
  cases cutThere
  exact ⟨rfl, rfl⟩

theorem isPrefixOf?_parted (unmarked : c ∉ mark) (free : c ∉ front) (behind : Text) :
    (mark ++ [c]).isPrefixOf? (front ++ c :: behind)
      = if mark = front then some behind else none := by
  split
  · next same =>
    exact List.isPrefixOf?_eq_some_iff_append_eq.2 (same ▸ List.append_assoc ..)
  · next different =>
    rw [isPrefixOf?_eq_none_iff]
    rintro ⟨after, split⟩
    rw [List.append_assoc] at split
    exact different (parted_eq unmarked free split).1

theorem behind?_cons {d : Char} {rest : Text} : behind? mark (d :: rest)
    = (mark.isPrefixOf? (d :: rest)).or (behind? mark rest) := by
  rw [behind?, cut]
  cases mark.isPrefixOf? (d :: rest) with
  | some after => rfl
  | none => exact Option.map_map ..

/-- A mark that ends in the character comes first where a part ends in the rest of it. -/
theorem behind?_snoc (unmarked : c ∉ mark) (free : c ∉ front) :
    behind? (mark ++ [c]) (front ++ c :: behind)
      = if mark <:+ front then some behind else behind? (mark ++ [c]) behind := by
  -- Within a part the mark can begin only where the rest of the part is the mark itself.
  induction front with
  | nil =>
    have starts := isPrefixOf?_parted unmarked free behind
    rw [List.nil_append] at starts ⊢
    rw [behind?_cons, starts]
    by_cases empty : mark = []
    · simp [empty]
    · simp [empty]
  | cons d front ih =>
    have starts := isPrefixOf?_parted unmarked free behind
    rw [List.cons_append] at starts ⊢
    rw [behind?_cons, starts, ih (mt (List.mem_cons_of_mem d) free)]
    by_cases whole : mark = d :: front
    · simp [whole]
    · simp [whole, List.suffix_cons_iff]

/-! ## Values between quotes -/

theorem not_mem_of_quoted? (found : quoted? key before = some value) : '"' ∉ value := by
  obtain ⟨_, _, taken⟩ := Option.bind_eq_some_iff.1 found
  exact (upTo?_singleton_eq_some.1 taken).1

section

variable (unquoted : '"' ∉ key) (free : '"' ∉ front)

include unquoted free

theorem quoted?_of_suffix (isKey : key <:+ front) :
    quoted? key (front ++ '"' :: behind) = upTo? ['"'] behind := by
  rw [quoted?, behind?_snoc unquoted free, if_pos isKey, Option.bind_some]

theorem quoted?_of_not_suffix (notKey : ¬ key <:+ front) :
    quoted? key (front ++ '"' :: behind) = quoted? key behind := by
  rw [quoted?, behind?_snoc unquoted free, if_neg notKey, quoted?]

end

end StaticSite.Text
