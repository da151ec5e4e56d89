import StaticSite.Proofs.Toml.Values

/-!
# Lines that are read back

A key with its value on a line of its own adds the value to the table that is open.
-/

namespace StaticSite.Toml

variable {key rest text : Text} {value : Value} {rows : Rows} {draft : Draft}

theorem skipBlanks_eq_self (starts : ∀ c ∈ text.head?, isLineBlank c = false) :
    skipBlanks text = text := by
  cases text with
  | nil => rfl
  | cons c text => exact List.dropWhile_cons_of_neg (by simp [starts c rfl])

/-! ## Bare keys -/

theorem ne_of_bare {c other : Char} (isBare : isBareKeyChar c = true)
    (notBare : isBareKeyChar other = false) : c ≠ other := by
  rintro rfl
  rw [isBare] at notBare
  cases notBare

theorem isLineBlank_of_bare {c : Char} (isBare : isBareKeyChar c = true) :
    isLineBlank c = false := by
  have noSpace : c ≠ ' ' := ne_of_bare isBare rfl
  have noTab : c ≠ '\t' := ne_of_bare isBare rfl
  simp [isLineBlank, noSpace, noTab]

/-- Keys of bare characters are no strings and have one part. -/
theorem readKey?_bare (nonempty : key ≠ []) (bare : ∀ c ∈ key, isBareKeyChar c = true)
    (rest : Text) :
    readKey? (key ++ " = ".toList ++ rest) = some ([], key, "= ".toList ++ rest) := by
  obtain ⟨c, tail, rfl⟩ := List.exists_cons_of_ne_nil nonempty
  have isBare := bare c List.mem_cons_self
  have stops : ∀ other ∈ (" = ".toList ++ rest).head?, isBareKeyChar other = false := by
    intro other isFirst
    cases isFirst
    rfl
  have part : readKeyPart? (c :: tail ++ " = ".toList ++ rest)
      = some (c :: tail, " = ".toList ++ rest) := by
    rw [List.append_assoc, List.cons_append, readKeyPart?, if_pos isBare, ← List.cons_append,
      Text.takeWhile_run bare stops, Text.dropWhile_run bare stops]
    · exact ne_of_bare isBare rfl
    · exact ne_of_bare isBare rfl
  have parts : ∀ fuel, readKeyParts? (fuel + 1) (c :: tail ++ " = ".toList ++ rest)
      = some ([c :: tail], "= ".toList ++ rest) := by
    intro fuel
    rw [readKeyParts?, skipBlanks_eq_self, part]
    · rfl
    · intro first isFirst
      cases isFirst
      exact isLineBlank_of_bare isBare
  obtain ⟨fuel, length⟩ : ∃ fuel, (c :: tail ++ " = ".toList ++ rest).length = fuel + 1 := ⟨_, rfl⟩
  rw [readKey?, length, parts]
  rfl

/-! ## Pairs -/

/-- A line that begins with a bare key is a statement of its own. -/
theorem readStatements?_bare {c : Char} (fuel : Nat) (isBare : isBareKeyChar c = true) :
    readStatements? (fuel + 1) draft (c :: text)
      = (readStatement? draft (c :: text)).bind fun (draft, rest) =>
          readStatements? fuel draft rest := by
  have noComment : c ≠ '#' := ne_of_bare isBare rfl
  have noEnd : newline? (skipComment (c :: text)) = none := by
    rw [skipComment]
    · unfold newline?
      split
      · next same => exact absurd (List.cons.inj same).1 (ne_of_bare isBare rfl)
      · next same => exact absurd (List.cons.inj same).1 (ne_of_bare isBare rfl)
      · rfl
    · rintro rest same
      exact noComment (List.cons.inj same).1
  rw [readStatements?, skipBlanks_eq_self]
  · dsimp only
    rw [noEnd]
    dsimp only
    rw [if_neg (by simpa using noComment)]
    rfl
  · intro first isFirst
    cases isFirst
    exact isLineBlank_of_bare isBare

/-- A pair adds to the rows of the open table. -/
theorem readStatements?_pair {written : Text} {fuel : Nat} (nonempty : key ≠ [])
    (bare : key.all isBareKeyChar = true) (writes : Writes written value)
    (added : Rows.changeAt false (fun _ inner => inner.addDotted? [] key value) draft.current
      .header draft.rows = some rows) :
    readStatements? (fuel + 1) draft (key ++ " = ".toList ++ (written ++ '\n' :: rest))
      = readStatements? fuel { draft with rows } rest := by
  have bare : ∀ c ∈ key, isBareKeyChar c = true := List.all_eq_true.1 bare
  have pair : readPair? (readValue? (maxNesting - 1))
      (key ++ " = ".toList ++ (written ++ '\n' :: rest))
        = some (([], key, value), '\n' :: rest) := by
    have behind : skipBlanks (' ' :: (written ++ '\n' :: rest)) = written ++ '\n' :: rest := by
      refine (List.dropWhile_cons_of_pos rfl).trans (skipBlanks_eq_self fun c isFirst => ?_)
      cases written with
      | nil =>
        cases isFirst
        rfl
      | cons => exact writes.starts c isFirst
    rw [readPair?, readKey?_bare nonempty bare]
    change (readValue? (maxNesting - 1) (skipBlanks (' ' :: (written ++ '\n' :: rest)))).bind
      (fun found => some ((([] : List Text), key, found.1), found.2)) = _
    rw [behind, writes.read]
    rfl
  obtain ⟨c, tail, rfl⟩ := List.exists_cons_of_ne_nil nonempty
  have isBare := bare c List.mem_cons_self
  have step : readStatement? draft (c :: tail ++ " = ".toList ++ (written ++ '\n' :: rest))
      = some ({ draft with rows }, rest) := by
    rw [List.cons_append, List.cons_append] at pair ⊢
    rw [readStatement?, pair]
    · change (Rows.changeAt false (fun _ inner => inner.addDotted? [] (c :: tail) value)
        draft.current .header draft.rows).bind (fun rows => some ({ draft with rows }, rest)) = _
      rw [added]
      rfl
    · -- A key does not begin with a bracket, so that the line is no header.
      exact fun _ same => ne_of_bare isBare rfl (List.cons.inj same).1
    · exact fun _ same => ne_of_bare isBare rfl (List.cons.inj same).1
  have front : c :: tail ++ " = ".toList ++ (written ++ '\n' :: rest)
      = c :: (tail ++ " = ".toList ++ (written ++ '\n' :: rest)) := rfl
  rw [front] at step ⊢
  rw [readStatements?_bare fuel isBare, step]
  rfl

end StaticSite.Toml
