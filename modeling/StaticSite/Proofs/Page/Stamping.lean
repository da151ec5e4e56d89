import StaticSite.Proofs.Page.Decoding

/-!
# What stamps do to a page

A stamp goes in at the first body tag or in front of the first closing body tag.  The markers of the
page stay whole unless their file names have such a tag, and the source path is read back unless the
second stamp lands in it.
-/

namespace StaticSite

open PageStamps

variable {stamps : PageStamps} {mark file path html front behind before after rest : Text}
  {index : Nat}

/-! ## Where stamps go -/

theorem stampSourcePath_of_cut (found : Text.cut bodyTag html = some (before, after)) :
    stampSourcePath path html = before ++ (bodyTag ++ (sourcePathAttribute path ++ after)) := by
  rw [stampSourcePath, Text.insertAfter?, found, Option.map_some, Option.getD_some]
  simp only [List.append_assoc]

theorem stampAdminScript_of_none (none : Text.cut bodyClose html = none) :
    stampAdminScript html = html ++ '\n' :: adminScript := by
  rw [stampAdminScript, Text.insertBefore?, none, Option.map_none, Option.getD_none]

theorem stampAdminScript_of_cut (found : Text.cut bodyClose html = some (before, after)) :
    stampAdminScript html = before ++ ('\n' :: adminScript ++ (bodyClose ++ after)) := by
  rw [stampAdminScript, Text.insertBefore?, found, Option.map_some, Option.getD_some]
  simp only [List.append_assoc]

theorem apply_of_adminScript (scripted : stamps.adminScript = true) : stamps.apply path html
    = stampAdminScript (if stamps.sourcePath then stampSourcePath path html else html) :=
  if_pos scripted

theorem apply_of_no_adminScript (plain : ¬ stamps.adminScript = true) : stamps.apply path html
    = if stamps.sourcePath then stampSourcePath path html else html :=
  if_neg plain

/-! ## Markers stay whole -/

theorem fenced_includeMarker (opens : '<' ∉ mark.tail) (closes : '>' ∉ mark.dropLast) :
    Text.Fenced mark (includeMarker file index) := by
  have ends : Text.Fenced mark ("<!-- __TP_INC__ file=\"".toList ++
      (file ++ ("\" token_index=\"".toList ++ Text.ofNat index) ++ "\" -->".toList)) :=
    Text.Fenced.append_of_ends (by decide) opens _ (by decide) closes
  unfold includeMarker
  simpa only [List.append_assoc] using ends

section

variable {piece : Text}

theorem keeps_stampSourcePath (fenced : Text.Fenced bodyTag piece) (absent : ¬ bodyTag <:+: piece) :
    Text.Keeps piece html (stampSourcePath path html) := by
  unfold stampSourcePath
  cases inserted : Text.insertAfter? bodyTag (sourcePathAttribute path) html with
  | none => exact Text.keeps_refl
  | some stamped => exact fenced.keeps_insertAfter? absent inserted

theorem keeps_stampAdminScript (fenced : Text.Fenced bodyClose piece)
    (absent : ¬ bodyClose <:+: piece) : Text.Keeps piece html (stampAdminScript html) := by
  unfold stampAdminScript
  dsimp only
  cases inserted : Text.insertBefore? bodyClose ('\n' :: adminScript) html with
  | none => exact Text.keeps_append _
  | some stamped => exact fenced.keeps_insertBefore? absent inserted

end

/-- A marker stays whole unless its file name has a tag that a stamp goes to. -/
theorem keeps_includeMarker (noTag : stamps.sourcePath = true → ¬ bodyTag <:+: file)
    (noClose : stamps.adminScript = true → ¬ bodyClose <:+: file) :
    Text.Keeps (includeMarker file index) html (stamps.apply path html) := by
  have first : Text.Keeps (includeMarker file index) html
      (if stamps.sourcePath then stampSourcePath path html else html) := by
    split
    · next named =>
      refine keeps_stampSourcePath
        (fenced_includeMarker (by decide) (by decide)) ?_
      rw [includeMarker_eq, infix_markerParts (by decide) ⟨'<', by decide, rfl⟩
        (by decide) (by decide) (by decide)]
      exact noTag named
    · exact Text.keeps_refl
  by_cases scripted : stamps.adminScript = true
  · rw [apply_of_adminScript scripted]
    refine first.trans (keeps_stampAdminScript
      (fenced_includeMarker (by decide) (by decide)) ?_)
    rw [includeMarker_eq, infix_markerParts (by decide) ⟨'<', by decide, rfl⟩
      (by decide) (by decide) (by decide)]
    exact noClose scripted
  · rw [apply_of_no_adminScript scripted]
    exact first

/-! ## The source path -/

theorem sourcePathAttribute_append : sourcePathAttribute path ++ rest
    = " data-source-path=".toList ++ '"' :: (path ++ '"' :: rest) := by
  have opening : " data-source-path=\"".toList = " data-source-path=".toList ++ ['"'] := by simp
  unfold sourcePathAttribute
  rw [opening]
  simp only [List.append_assoc, List.cons_append, List.nil_append]

theorem readSourcePath?_of_first (first : Text.FirstBehind bodyTag front) :
    readSourcePath? (front ++ (bodyTag ++ (" data-source-path=".toList ++ '"' :: rest)))
      = Text.upTo? ['"'] rest := by
  unfold readSourcePath?
  rw [Text.behind?, Text.cut_append (by decide) first, Option.map_some,
    Option.bind_eq_bind, Option.bind_some,
    Text.quoted?_of_suffix (by decide) (by decide) (by decide)]

/-- From an attribute in the first body tag its path is read, unless it has a quote. -/
theorem readSourcePath?_eq_iff (first : Text.FirstBehind bodyTag front) :
    readSourcePath? (front ++ (bodyTag ++ (sourcePathAttribute path ++ rest))) = some path
      ↔ '"' ∉ path := by
  rw [sourcePathAttribute_append, readSourcePath?_of_first first, Text.upTo?_singleton_eq_some]
  exact and_iff_left ⟨rest, rfl⟩

/-! ## The admin script -/

theorem includes_literal {chars : List Char} (opens : mark.head? = some '<')
    (absent : chars.contains '<' = false) :
    Text.includes mark (String.ofList chars).toList = false := by
  rw [String.toList_ofList, ← Bool.not_eq_true, Text.includes_iff]
  intro within
  have isIn := within.subset (List.mem_of_mem_head? opens)
  rw [← List.contains_iff_mem, absent] at isIn
  cases isIn

set_option maxRecDepth 2000 in
/-- The script has no tags but those of the script element itself. -/
theorem not_infix_adminScript (opens : mark.head? = some '<') (apart : '\n' ∉ mark)
    (noScript : Text.includes mark "<script>".toList = false)
    (noEnd : Text.includes mark "</script>".toList = false) : ¬ mark <:+: adminScript := by
  have nonempty : mark ≠ [] := by
    rintro rfl
    cases opens
  refine Text.not_infix_ofLines nonempty apart ?_
  simp only [List.forall_mem_cons]
  -- Line by line, since no single evaluation gets through the whole script.
  and_intros
  any_goals exact List.forall_mem_nil _
  all_goals first
    | exact includes_literal opens (by decide +kernel)
    | assumption

theorem not_infix_script (opens : mark.head? = some '<') (apart : '\n' ∉ mark)
    (noScript : Text.includes mark "<script>".toList = false)
    (noEnd : Text.includes mark "</script>".toList = false) : ¬ mark <:+: '\n' :: adminScript := by
  have nonempty : mark ≠ [] := by
    rintro rfl
    cases opens
  rw [Text.infix_cons nonempty apart]
  exact not_infix_adminScript opens apart noScript noEnd

/-- The script opens no body of its own. -/
theorem bodyTag_not_infix_script : ¬ bodyTag <:+: '\n' :: adminScript :=
  not_infix_script (by decide) (by decide) (by decide +kernel) (by decide +kernel)

/-- Both ends of the script are line feeds. -/
theorem fenced_adminScript (apart : '\n' ∉ mark) : Text.Fenced mark ('\n' :: adminScript) := by
  have last : adminScript.getLast? = some '\n' :=
    Text.getLast?_ofLines (by decide +kernel) (by decide +kernel)
  refine ⟨⟨'\n', rfl, mt List.mem_of_mem_tail apart⟩,
    ⟨'\n', ?_, mt List.mem_of_mem_dropLast apart⟩⟩
  rw [List.getLast?_cons, last]
  rfl

/-- The first body tag stays the first one when the script goes in front of it. -/
theorem firstBehind_bodyTag_of_script {middle : Text}
    (first : Text.FirstBehind bodyTag (before ++ (bodyClose ++ middle))) :
    Text.FirstBehind bodyTag (before ++ ('\n' :: adminScript ++ (bodyClose ++ middle))) := by
  rw [Text.firstBehind_iff (by decide)] at first ⊢
  simp only [List.append_assoc] at first ⊢
  rw [(fenced_adminScript (by decide)).infix_iff]
  rintro (inFront | inScript | inBehind)
  · exact first (inFront.trans (List.prefix_append _ _).isInfix)
  · exact bodyTag_not_infix_script inScript
  · exact first (inBehind.trans (List.suffix_append _ _).isInfix)

/-! ## The source path of a stamped page -/

/-- A closing body tag in the attribute is one in its path. -/
theorem exists_of_attribute {left right : Text}
    (whole : bodyTag ++ sourcePathAttribute path = left ++ (bodyClose ++ right)) :
    ∃ left' right', path = left' ++ (bodyClose ++ right') ∧
      left = bodyTag ++ (" data-source-path=".toList ++ '"' :: left') := by
  have quoteApart : Text.Fenced bodyClose ['"'] := Text.fenced_singleton (by decide)
  have parts : (bodyTag ++ " data-source-path=".toList) ++ (['"'] ++ (path ++ (['"'] ++ [])))
      = left ++ (bodyClose ++ right) := by
    rw [← whole, ← List.append_nil (sourcePathAttribute path), sourcePathAttribute_append]
    simp only [List.append_assoc, List.cons_append, List.nil_append]
  cases quoteApart.occurs parts with
  | inFront middle isFront =>
    exact absurd (Text.infix_of_split isFront) (Text.not_infix (by decide))
  | within left' right' isQuote =>
    exact absurd (Text.infix_of_split isQuote) (Text.not_infix (by decide))
  | behind middle inValue isLeft =>
    cases quoteApart.occurs inValue with
    | inFront right' isPath =>
      refine ⟨middle, right', isPath, ?_⟩
      rw [isLeft]
      simp only [List.append_assoc, List.cons_append, List.nil_append]
    | within left' right' isQuote =>
      exact absurd (Text.infix_of_split isQuote) (Text.not_infix (by decide))
    | behind middle' isEnd =>
      exact absurd (Text.infix_of_split isEnd) (Text.not_infix (by decide))

/-- Where the path goes on with a closing tag, the script that lands there is read instead. -/
theorem readSourcePath?_ne_of_script {left right : Text} (first : Text.FirstBehind bodyTag front)
    (isPath : path = left ++ (bodyClose ++ right)) :
    readSourcePath? (front ++ (bodyTag ++ (" data-source-path=".toList ++ '"' ::
      (left ++ '\n' :: rest)))) ≠ some path := by
  have opens : bodyClose = '<' :: "/body>".toList := by decide
  rw [readSourcePath?_of_first first, Ne, Text.upTo?_singleton_eq_some]
  rintro ⟨_, rest', same⟩
  rw [isPath, List.append_assoc, opens] at same
  exact absurd (List.cons.inj (List.append_cancel_left same)).1 (by decide)

theorem fenced_attribute : Text.Fenced bodyClose (bodyTag ++ sourcePathAttribute path) := by
  have first : bodyTag.head? = some '<' := by decide
  have last : ['"'].getLast? = some '"' := rfl
  exact Text.Fenced.append_of_ends first (by decide)
    (" data-source-path=\"".toList ++ path) last (by decide)

theorem path_infix : path <:+: front ++ (bodyTag ++ (sourcePathAttribute path ++ rest)) := by
  refine ⟨front ++ (bodyTag ++ " data-source-path=\"".toList), '"' :: rest, ?_⟩
  unfold sourcePathAttribute
  simp only [List.append_assoc, List.cons_append, List.nil_append]

/-- With the script the source path is still read back, unless the script lands in it. -/
theorem readSourcePath?_stampAdminScript (first : Text.FirstBehind bodyTag front) :
    readSourcePath? (stampAdminScript (front ++ (bodyTag ++ (sourcePathAttribute path ++ rest))))
      = some path ↔ '"' ∉ path ∧ (bodyClose <:+: path → bodyClose <:+: front) := by
  cases found : Text.cut bodyClose (front ++ (bodyTag ++ (sourcePathAttribute path ++ rest))) with
  | none =>
    have absent : ¬ bodyClose <:+: path := fun inPath =>
      (Text.cut_eq_none_iff (by decide)).1 found (inPath.trans path_infix)
    rw [stampAdminScript_of_none found]
    simp only [List.append_assoc]
    rw [readSourcePath?_eq_iff first]
    exact (and_iff_left fun inPath => absurd inPath absent).symm
  | some parts =>
    obtain ⟨before, after⟩ := parts
    obtain ⟨split, firstClose⟩ := (Text.cut_eq_some_iff (by decide)).1 found
    have notBefore := firstClose.not_infix (by decide)
    rw [stampAdminScript_of_cut found]
    rw [List.append_assoc, ← List.append_assoc bodyTag] at split
    -- The script goes in front of the first closing tag, wherever that one is.
    cases fenced_attribute.occurs split with
    | inFront middle isFront isAfter =>
      subst isFront isAfter
      have parts : before ++ ('\n' :: adminScript ++ (bodyClose ++ (middle ++
          (bodyTag ++ sourcePathAttribute path ++ rest)))) = before ++ ('\n' :: adminScript ++
            (bodyClose ++ middle)) ++ (bodyTag ++ (sourcePathAttribute path ++ rest)) := by
        simp only [List.append_assoc]
      rw [parts, readSourcePath?_eq_iff (firstBehind_bodyTag_of_script first)]
      exact (and_iff_left fun _ => Text.infix_of_split rfl).symm
    | within left right whole isBefore isAfter =>
      obtain ⟨left', right', isPath, isLeft⟩ := exists_of_attribute whole
      subst isBefore isLeft
      have notFront : ¬ bodyClose <:+: front :=
        fun inFront => notBefore (inFront.trans (List.prefix_append _ _).isInfix)
      have parts : front ++ (bodyTag ++ (" data-source-path=".toList ++ '"' :: left'))
          ++ ('\n' :: adminScript ++ (bodyClose ++ after)) = front ++ (bodyTag ++
            (" data-source-path=".toList ++ '"' :: (left' ++ '\n' :: (adminScript ++
              (bodyClose ++ after))))) := by
        simp only [List.append_assoc, List.cons_append]
      rw [parts]
      exact iff_of_false (readSourcePath?_ne_of_script first isPath)
        fun kept => notFront (kept.2 (Text.infix_of_split isPath))
    | behind middle isBehind isBefore =>
      have notPath : ¬ bodyClose <:+: path := by
        intro inPath
        refine notBefore (inPath.trans ?_)
        rw [isBefore, List.append_assoc]
        exact path_infix
      have parts : before ++ ('\n' :: adminScript ++ (bodyClose ++ after)) = front ++ (bodyTag ++
          (sourcePathAttribute path ++ (middle ++ ('\n' :: adminScript ++
            (bodyClose ++ after))))) := by
        simp only [isBefore, List.append_assoc]
      rw [parts, readSourcePath?_eq_iff first]
      exact (and_iff_left fun inPath => absurd inPath notPath).symm

/-- The source path is read back, unless it has a quote or the script lands in it. -/
theorem readSourcePath?_apply (named : stamps.sourcePath = true)
    (found : Text.cut bodyTag html = some (front, rest)) :
    readSourcePath? (stamps.apply path html) = some path ↔ '"' ∉ path ∧
      (stamps.adminScript = true → bodyClose <:+: path → bodyClose <:+: front) := by
  have first := ((Text.cut_eq_some_iff (by decide)).1 found).2
  by_cases scripted : stamps.adminScript = true
  · rw [apply_of_adminScript scripted, if_pos named, stampSourcePath_of_cut found,
      readSourcePath?_stampAdminScript first]
    simp only [scripted, true_imp_iff]
  · rw [apply_of_no_adminScript scripted, if_pos named, stampSourcePath_of_cut found,
      readSourcePath?_eq_iff first]
    exact (and_iff_left fun on => absurd on scripted).symm

end StaticSite
