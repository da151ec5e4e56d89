import StaticSite.Proofs.Arguments.Writing
import StaticSite.Proofs.Disk.Agreement
import StaticSite.Proofs.Project.Deleting
import StaticSite.Proofs.Text.Encoding
import StaticSite.Proofs.Token.Inserting
import StaticSite.Proofs.Token.Writing

/-!
# What inserting an include changes

An include is put on a line of its own into one file, where the text alone says: what the
directives of the page are is not asked.  So the include is one more directive of the page unless
one is begun and not ended in front of it, and the others stay unless one of them reaches over the
place.
-/

namespace StaticSite

namespace Project

/-! ## The place of a line -/

/-- A line goes in front of the first end of the main element, or else of the body, or else to the
end of the text. -/
inductive InsertionPoint : Text → Text → Prop where
  | main (front behind : Text) (first : Text.FirstBehind "</main>".toList front) :
      InsertionPoint front ("</main>".toList ++ behind)
  | body (front behind : Text)
      (noMain : ¬ "</main>".toList <:+: front ++ ("</body>".toList ++ behind))
      (first : Text.FirstBehind "</body>".toList front) :
      InsertionPoint front ("</body>".toList ++ behind)
  | ends (front : Text) (noMain : ¬ "</main>".toList <:+: front)
      (noBody : ¬ "</body>".toList <:+: front) : InsertionPoint front []

section

variable {front behind : Text}

/-- The text alone says where the place is. -/
theorem InsertionPoint.front_eq (point : InsertionPoint front behind) :
    ((Text.cut "</main>".toList (front ++ behind)).or
      (Text.cut "</body>".toList (front ++ behind))).elim (front ++ behind) Prod.fst = front := by
  cases point with
  | main behind first => rw [Text.cut_append (by decide) first, Option.some_or, Option.elim_some]
  | body behind noMain first =>
    rw [(Text.cut_eq_none_iff (by decide)).2 noMain, Text.cut_append (by decide) first,
      Option.none_or, Option.elim_some]
  | ends noMain noBody =>
    rw [List.append_nil, (Text.cut_eq_none_iff (by decide)).2 noMain,
      (Text.cut_eq_none_iff (by decide)).2 noBody, Option.none_or, Option.elim_none]

theorem InsertionPoint.insertLine_eq (point : InsertionPoint front behind) (line : Text) :
    insertLine line (front ++ behind) = front ++ (line ++ behind) := by
  unfold insertLine Text.insertBefore?
  cases point with
  | main behind first =>
    rw [Text.cut_append (by decide) first, Option.map_some, Option.some_or, Option.getD_some]
    simp only [List.append_assoc]
  | body behind noMain first =>
    rw [(Text.cut_eq_none_iff (by decide)).2 noMain, Text.cut_append (by decide) first,
      Option.map_none, Option.none_or, Option.map_some, Option.getD_some]
    simp only [List.append_assoc]
  | ends noMain noBody =>
    rw [List.append_nil, (Text.cut_eq_none_iff (by decide)).2 noMain,
      (Text.cut_eq_none_iff (by decide)).2 noBody, Option.map_none, Option.map_none, Option.none_or,
      Option.getD_none, List.append_nil]

theorem exists_insertionPoint (source : Text) :
    ∃ front behind, source = front ++ behind ∧ InsertionPoint front behind := by
  cases mainThere : Text.cut "</main>".toList source with
  | some parts =>
    obtain ⟨split, first⟩ := (Text.cut_eq_some_iff (by decide)).1 mainThere
    exact ⟨_, _, split.trans (List.append_assoc ..), .main _ _ first⟩
  | none =>
    have noMain := (Text.cut_eq_none_iff (by decide)).1 mainThere
    cases bodyThere : Text.cut "</body>".toList source with
    | some parts =>
      obtain ⟨split, first⟩ := (Text.cut_eq_some_iff (by decide)).1 bodyThere
      rw [List.append_assoc] at split
      exact ⟨_, _, split, .body _ _ (split ▸ noMain) first⟩
    | none =>
      have noBody := (Text.cut_eq_none_iff (by decide)).1 bodyThere
      exact ⟨source, [], (List.append_nil _).symm, .ends _ noMain noBody⟩

end

/-! ## The added include -/

/-- The target of an added include, as it is written. -/
def quotedTarget (path : Text) : Text :=
  '"' :: ("./".toList ++ path ++ ['"'])

/-- An added include, as it is written. -/
def includeText (path : Text) : Text :=
  openBraces ++ ' ' :: ("include".toList ++ ' ' :: (quotedTarget path ++ ' ' :: closeBraces))

theorem includeLine_eq (path : Text) : includeLine path = margin ++ includeText path ++ ['\n'] := by
  have opens : " include \"./".toList = ' ' :: ("include".toList ++ ' ' :: '"' :: "./".toList) := by
    decide
  have ends : "\" ".toList = ['"', ' '] := by
    decide
  unfold includeLine includeText quotedTarget margin
  rw [opens, ends]
  simp only [List.append_assoc, List.cons_append, List.nil_append]

variable {disk after : Disk} {project : Project} {rooms rooms' : List Text}
  {root opened place : Path} {names : List Text} {file path source text : Text} {index : Nat}
  {error : SiteError} {trouble : Disk.WriteTrouble}

theorem isPlainPartial_iff : isPlainPartial path = true ↔
    path ≠ [] ∧ (∀ part ∈ PathText.parts path, (PathText.name? part).isSome = true) ∧ '"' ∉ path ∧
      '\n' ∉ path ∧ '\r' ∉ path ∧ ¬ closeBraces <:+: path := by
  simp only [isPlainPartial, Bool.and_eq_true, Bool.not_eq_true', List.all_eq_true,
    List.contains_eq_mem, and_assoc, ← Bool.not_eq_true, Text.includes_iff, decide_eq_true_eq,
    List.isEmpty_iff]

/-- Whatever else the path is made of, it is read as it stands and gives no properties. -/
theorem ofText_quotedTarget (unquoted : '"' ∉ path) :
    (Arguments.ofText (quotedTarget path)).main = "./".toList ++ path ∧
      (Arguments.ofText (quotedTarget path)).props.rows = [] := by
  have free : '"' ∉ "./".toList ++ path := by
    rw [List.mem_append, not_or]
    exact ⟨by decide, unquoted⟩
  have writable : ∀ argument ∈ [Argument.positional ("./".toList ++ path)], argument.Writable :=
    List.forall_mem_singleton.2 fun both => free both.1
  have quotes : Argument.Quotes ("./".toList ++ path) (quotedTarget path) :=
    .between '"' (.inl rfl) free
  rw [Arguments.ofText, Argument.list_writtenAll writable (.last (.positional quotes))]
  exact ⟨rfl, rfl⟩

theorem directiveShape_includeText (plain : isPlainPartial path = true) :
    DirectiveShape (includeText path) "include".toList (quotedTarget path) := by
  obtain ⟨_, _, _, oneLine, _, unclosed⟩ := isPlainPartial_iff.1 plain
  refine directiveShape_spaced (by decide) (SourcePiece.isWordChar_of_mem_word .inclusion)
    ?_ ?_ ?_ ?_
  · simp [quotedTarget, oneLine]
  · have apart : '"' ∉ closeBraces := by decide
    intro within
    rw [quotedTarget, Text.infix_cons (by decide) apart] at within
    rcases (Text.infix_append_cons apart).1 within with inTarget | inEnd
    · have inPath : closeBraces <:+: '.' :: '/' :: path := inTarget
      iterate 2 rw [Text.infix_cons (by decide) (by decide)] at inPath
      exact unclosed inPath
    · exact absurd inEnd (by decide)
  · rintro c isFirst
    cases isFirst
    decide
  · intro c isLast
    rw [quotedTarget, List.getLast?_cons, List.getLast?_concat] at isLast
    cases isLast
    decide

theorem oneLine_includeText (plain : isPlainPartial path = true) : '\n' ∉ includeText path := by
  obtain ⟨_, _, _, oneLine, _⟩ := isPlainPartial_iff.1 plain
  simp [includeText, quotedTarget, oneLine, openBraces, closeBraces]

section

variable {front behind : Text} {start : Nat} {token : Token}

theorem reads_includeText (adds : Adds (front ++ (includeLine path ++ behind)) front behind start
    (includeText path) "include".toList (quotedTarget path) index token) :
    token.kind = .inclusion ∧ token.content = quotedTarget path :=
  adds.reads.known .inclusion (by decide)

/-- Without its include an added line is blank. -/
theorem removeFrom_includeText (adds : Adds (front ++ (includeLine path ++ behind)) front behind
    (Text.byteLength (front ++ margin)) (includeText path) "include".toList (quotedTarget path)
    index token) :
    token.removeFrom (front ++ (includeLine path ++ behind))
      = front ++ ("\n    \n".toList ++ behind) := by
  have cut := Token.removeFrom_append adds.starts adds.stops (['\n'] ++ behind)
  rw [includeLine_eq]
  simp only [List.append_assoc] at cut ⊢
  exact cut

end

/-! ## The edit -/

theorem isEditableName_mono (more : ∀ room ∈ rooms, room ∈ rooms')
    (editable : isEditableName rooms file = true) : isEditableName rooms' file = true := by
  unfold isEditableName at editable ⊢
  split at editable
  · rw [Bool.and_eq_true, List.contains_iff_mem] at editable ⊢
    exact ⟨more _ editable.1, editable.2⟩
  · cases editable

theorem insertable_deletable : ∀ room ∈ insertableRooms, room ∈ deletableRooms := by
  decide

/-- A file that can be edited can be edited again, with its new text. -/
theorem Opens.put (opens : Opens disk project rooms file root names opened place source)
    (more : ∀ room ∈ rooms, room ∈ rooms') (text : Text) :
    Opens (disk.put place (.file (Utf8.encode text))) project rooms' file root names opened place
      text := by
  obtain ⟨bytes, stands, _⟩ := opens.holds
  have alike := Disk.looksLike_put opens.ne_nil stands (Utf8.encode text)
  exact { opens with
    atRoot := by rw [← alike.canonical_eq, opens.atRoot]
    editable := isEditableName_mono more opens.editable
    leads := by rw [← alike.resolve_eq, opens.leads]
    reached := by simpa only [Disk.Overlong, ← alike.canonical_eq] using opens.reached
    holds := ⟨_, Disk.entry?_put_self opens.ne_nil, Utf8.decode?_encode text⟩ }

/-- Why an include cannot be inserted: its page cannot be edited or is no text, or its target is no
plain path. -/
inductive RefusesInsertion (disk : Disk) (project : Project) (file path : Text) :
    SiteError → Prop where
  | place {error : SiteError}
      (refused : project.editablePlace disk insertableRooms file = .error error) :
      RefusesInsertion disk project file path error
  | notPlain {place : Path} (located : project.editablePlace disk insertableRooms file = .ok place)
      (refused : isPlainPartial path = false) :
      RefusesInsertion disk project file path (.notEditable path)
  | unreadable {place : Path} {fault : Fault}
      (located : project.editablePlace disk insertableRooms file = .ok place)
      (plain : isPlainPartial path = true) (refused : disk.readText place = .error fault) :
      RefusesInsertion disk project file path (.io fault)

theorem planInsertion_eq_error : project.planInsertion disk file path = .error error ↔
    RefusesInsertion disk project file path error := by
  constructor
  · intro refused
    rcases Except.bind_eq_error.1 refused with refused | ⟨place, located, refused⟩
    · exact .place refused
    split at refused
    · next plain =>
      rcases Except.bind_eq_error.1 refused with refused | ⟨source, _, refused⟩
      · obtain ⟨fault, unreadable, rfl⟩ := Except.mapError_eq_error.1 refused
        exact .unreadable located plain unreadable
      · cases refused
    · next notPlain =>
      cases refused
      exact .notPlain located (Bool.not_eq_true _ ▸ notPlain)
  · intro refuses
    cases refuses with
    | place refused =>
      rw [planInsertion, refused]
      rfl
    | notPlain located refused =>
      rw [planInsertion, located, Except.ok_bind, refused]
      rfl
    | unreadable located plain refused =>
      rw [planInsertion, located, Except.ok_bind, if_pos plain, refused]
      rfl

/-- An insertion fails at one of these checks, or where the system stops the write. -/
theorem insertInclude_eq_error :
    project.insertInclude disk file path trouble = (.error error, after) ↔
      RefusesInsertion disk project file path error ∧ after = disk ∨
        ∃ root names opened place source fault,
          Opens disk project insertableRooms file root names opened place source ∧
          isPlainPartial path = true ∧ error = .io fault ∧
          disk.StopsWrite place (Utf8.encode (insertLine (includeLine path) source)) trouble fault
            after := by
  rw [← planInsertion_eq_error]
  unfold insertInclude
  constructor
  · intro failed
    cases planned : project.planInsertion disk file path with
    | error other =>
      rw [planned] at failed
      cases failed
      exact .inl ⟨rfl, rfl⟩
    | ok plan =>
      obtain ⟨opened, text⟩ := plan
      rw [planned] at failed
      obtain ⟨source, located, plain, read, rfl⟩ := planInsertion_eq_ok.1 planned
      obtain ⟨root, names, place, opens⟩ := opens_of_editablePlace located read
      obtain ⟨fault, rfl, stops⟩ := (carryOut_eq_error opens.openToWrite_eq).1 failed
      exact .inr ⟨root, names, opened, place, source, fault, opens, plain, rfl, stops⟩
  · rintro (⟨refused, rfl⟩ | ⟨root, names, opened, place, source, fault, opens, plain, rfl, stops⟩)
    · rw [refused]
      rfl
    · have planned := planInsertion_eq_ok.2 ⟨source, opens.editablePlace_eq, plain,
        Disk.readText_eq_ok.2 opens.readBytes, rfl⟩
      rw [planned]
      exact (carryOut_eq_error opens.openToWrite_eq).2 ⟨fault, rfl, stops⟩

/-- A page into which an include is inserted between two parts of it. -/
structure InsertsBetween (disk : Disk) (project : Project) (file path : Text) (after : Disk)
    (opened place : Path) (front behind : Text) : Prop where
  located : project.editablePlace disk insertableRooms file = .ok opened
  leads : disk.resolve opened = .ok place
  read : disk.readText opened = .ok (front ++ behind)
  point : InsertionPoint front behind
  stands : after.entry? place
    = some (.file (Utf8.encode (front ++ (includeLine path ++ behind))))
  others : ∀ other, other ≠ place → after.entry? other = disk.entry? other
  /-- The include is one more directive, with the path for its only argument, and can be deleted. -/
  added : ¬ Unfinished front → ∃ index token,
    Adds (front ++ (includeLine path ++ behind)) front behind (Text.byteLength (front ++ margin))
      (includeText path) "include".toList (quotedTarget path) index token ∧
    token.reading = (.inclusion, quotedTarget path) ∧
    (Arguments.ofText token.content).main = "./".toList ++ path ∧
    (Arguments.ofText token.content).props.rows = [] ∧
    directives (front ++ (includeLine path ++ behind))
      = directives front ++ token.reading :: directives behind ∧
    ∀ trouble : Disk.WriteTrouble,
      trouble.Allows (Utf8.encode (front ++ ("\n    \n".toList ++ behind))) →
      ∃ final, project.deleteInclude after file index trouble = (.ok (), final) ∧
        final.entry? place = some (.file (Utf8.encode (front ++ ("\n    \n".toList ++ behind)))) ∧
        ∀ other, other ≠ place → final.entry? other = disk.entry? other
  /-- What else can become of the directives. -/
  line : PutsOnLine front (includeText path) "include".toList (quotedTarget path) behind

theorem insertsBetween_of_insertInclude
    (inserted : project.insertInclude disk file path trouble = (.ok (), after)) :
    ∃ opened place front behind,
      InsertsBetween disk project file path after opened place front behind := by
  obtain ⟨root, names, opened, place, source, opens, plain, _, rfl⟩ :=
    insertInclude_eq_ok.1 inserted
  obtain ⟨front, behind, rfl, point⟩ := exists_insertionPoint source
  have puts :=
    putsOnLine (directiveShape_includeText plain) (oneLine_includeText plain) front behind
  rw [point.insertLine_eq]
  refine ⟨opened, place, front, behind, opens.editablePlace_eq, opens.leads_opened,
    Disk.readText_eq_ok.2 opens.readBytes, point, Disk.entry?_put_self opens.ne_nil,
    fun other different => Disk.entry?_put_of_ne different, ?_, puts⟩
  intro unbegun
  obtain ⟨index, token, adds⟩ := puts.added unbegun
  rw [← includeLine_eq] at adds
  obtain ⟨kind, content⟩ := reads_includeText adds
  have reading : token.reading = (.inclusion, quotedTarget path) := by
    rw [Token.reading, kind, content]
  have isDirective : directivesAmong [token] = [token.reading] := by
    simp [directivesAmong, Token.isDirective, kind]
  have whole := adds.directives_eq
  rw [isDirective, List.singleton_append] at whole
  obtain ⟨main, props⟩ := ofText_quotedTarget (isPlainPartial_iff.1 plain).2.2.1
  refine ⟨index, token, adds, reading, content ▸ main, content ▸ props, whole, ?_⟩
  -- The page that is written can be edited like the one that was read.
  have opens' := opens.put insertable_deletable (front ++ (includeLine path ++ behind))
  intro trouble allowed
  rw [← removeFrom_includeText adds] at allowed ⊢
  exact ⟨_, deleteInclude_eq_ok.2 ⟨_, _, _, _, _, token, opens', adds.found, kind, allowed, rfl⟩,
    Disk.entry?_put_self opens.ne_nil, fun other different =>
    (Disk.entry?_put_of_ne different).trans (Disk.entry?_put_of_ne different)⟩

/-- An insertion puts one line into one page, where the text of the page says.  The include on it
is one more directive unless one is begun in front of it, and the others stay unless one of them
reaches over the place.  An insertion that is refused leaves everything as it is; where the write is
stopped, the page may hold a front part of the new text. -/
theorem insertion_adds_include (disk : Disk) (project : Project) (file path : Text) :
    (∀ trouble after, project.insertInclude disk file path trouble = (.ok (), after) →
      ∃ opened place front behind,
        InsertsBetween disk project file path after opened place front behind) ∧
    ∀ trouble error after,
      project.insertInclude disk file path trouble = (.error error, after) ↔
        RefusesInsertion disk project file path error ∧ after = disk ∨
          ∃ root names opened place source fault,
            Opens disk project insertableRooms file root names opened place source ∧
            isPlainPartial path = true ∧ error = .io fault ∧
            disk.StopsWrite place (Utf8.encode (insertLine (includeLine path) source)) trouble fault
              after :=
  ⟨fun _ _ => insertsBetween_of_insertInclude, fun _ _ _ => insertInclude_eq_error⟩

/-- A page with one directive in its main element. -/
def slotPage : Text :=
  "<main>\x7b\x7b slot \x7d\x7d</main>".toList

theorem slotPage_insertion_adds_include : ∃ after index final,
    insertInclude (onePageSite slotPage) ⟨[]⟩ "templates/p.html".toList "a b.html".toList
      = (.ok (), after) ∧
    deleteInclude after ⟨[]⟩ "templates/p.html".toList index = (.ok (), final) ∧
    final.entry? [templatesName, "p.html".toList] = some (.file (Utf8.encode
      "<main>\x7b\x7b slot \x7d\x7d\n    \n</main>".toList)) := by
  have opens : Opens _ _ insertableRooms _ _ _ _ _ _ := opens_onePageSite slotPage (by decide)
  have inserted := insertInclude_eq_ok.2 ⟨_, _, _, _, _, opens,
    show isPlainPartial "a b.html".toList = true by decide, Disk.WriteTrouble.allows_default _, rfl⟩
  obtain ⟨opened, place, front, behind, between⟩ :=
    (insertion_adds_include (onePageSite slotPage) ⟨[]⟩ _ _).1 _ _ inserted
  obtain rfl := Except.ok.inj (between.located.symm.trans opens.editablePlace_eq)
  obtain rfl := Except.ok.inj (between.leads.symm.trans opens.leads_opened)
  have whole : front ++ behind = slotPage :=
    Except.ok.inj (between.read.symm.trans (Disk.readText_eq_ok.2 opens.readBytes))
  have isFront := between.point.front_eq
  rw [whole] at isFront
  obtain rfl : "<main>\x7b\x7b slot \x7d\x7d".toList = front := isFront
  obtain rfl : "</main>".toList = behind := (List.append_cancel_left whole).symm
  obtain ⟨index, _, _, _, _, _, _, deletes⟩ := between.added
    (not_unfinished (show _ = some '\x7d' by decide) (by decide) (by decide))
  obtain ⟨final, deleted, stands, _⟩ := deletes {} (Disk.WriteTrouble.allows_default _)
  exact ⟨_, index, final, inserted, deleted, stands⟩

/-- A page that begins a directive and does not end it. -/
def unfinishedPage : Text :=
  "<body>\x7b\x7b slot\n</body>".toList

/-- The page with the line of an include in it. -/
def swallowingPage : Text :=
  "<body>\x7b\x7b slot\n\n    \x7b\x7b include \"./x.html\" \x7d\x7d\n</body>".toList

theorem unfinishedPage_swallows_include : ∃ after,
    insertInclude (onePageSite unfinishedPage) ⟨[]⟩ "templates/p.html".toList "x.html".toList
      = (.ok (), after) ∧
    after.entry? [templatesName, "p.html".toList] = some (.file (Utf8.encode swallowingPage)) ∧
    directives unfinishedPage = [] ∧
    directives swallowingPage = [(.slot, "\x7b\x7b include \"./x.html\"".toList)] ∧
    deleteInclude after ⟨[]⟩ "templates/p.html".toList 1
      = (.error (.notInclude "templates/p.html".toList 1), after) := by
  have opens : Opens _ _ insertableRooms _ _ _ _ _ _ :=
    opens_onePageSite unfinishedPage (by decide)
  have swallows : insertLine (includeLine "x.html".toList) unfinishedPage = swallowingPage := by
    decide
  have inserted := insertInclude_eq_ok.2 ⟨_, _, _, _, _, opens,
    show isPlainPartial "x.html".toList = true by decide, Disk.WriteTrouble.allows_default _, rfl⟩
  have opens' := opens.put insertable_deletable swallowingPage
  rw [swallows] at inserted
  have found : (tokenize swallowingPage)[1]?
      = some ⟨.slot, "\x7b\x7b include \"./x.html\"".toList, 6, 43⟩ := by cbv
  refine ⟨_, inserted, Disk.entry?_put_self (by decide), by cbv, by cbv, ?_⟩
  exact deleteInclude_eq_error.2 (.inl ⟨.notInclude opens'.editablePlace_eq
    (Disk.readText_eq_ok.2 opens'.readBytes) found (by decide), rfl⟩)

end Project

end StaticSite
