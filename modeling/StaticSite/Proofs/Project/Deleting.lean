import StaticSite.Proofs.Project.Editing
import StaticSite.Proofs.Token.Removing

/-!
# What deleting an include changes

Deleting an include takes the bytes of one token out of one file.  What this does to the other
tokens of the file ends at the directives on the two sides.  Whether the include can be deleted is
looked at before the file is written; what fails behind that is the write itself, and it may leave a
front part of the new text.
-/

namespace StaticSite.Project

variable {disk after : Disk} {project : Project} {file source : Text} {index : Nat} {opened : Path}
  {token : Token} {error : SiteError} {trouble : Disk.WriteTrouble}

/-- Why an include cannot be deleted: its file cannot be edited or is no text, or its index is not
that of an include. -/
inductive RefusesDeletion (disk : Disk) (project : Project) (file : Text) (index : Nat) :
    SiteError → Prop where
  | place {error : SiteError}
      (refused : project.editablePlace disk deletableRooms file = .error error) :
      RefusesDeletion disk project file index error
  | unreadable {place : Path} {fault : Fault}
      (located : project.editablePlace disk deletableRooms file = .ok place)
      (refused : disk.readText place = .error fault) :
      RefusesDeletion disk project file index (.io fault)
  | outOfRange {place : Path} {source : Text}
      (located : project.editablePlace disk deletableRooms file = .ok place)
      (read : disk.readText place = .ok source) (beyond : (tokenize source).length ≤ index) :
      RefusesDeletion disk project file index (.indexOutOfRange index (tokenize source).length)
  | notInclude {place : Path} {source : Text} {token : Token}
      (located : project.editablePlace disk deletableRooms file = .ok place)
      (read : disk.readText place = .ok source) (found : (tokenize source)[index]? = some token)
      (other : token.kind ≠ .inclusion) :
      RefusesDeletion disk project file index (.notInclude file index)

theorem planDeletion_eq_error : project.planDeletion disk file index = .error error ↔
    RefusesDeletion disk project file index error := by
  constructor
  · intro refused
    rcases Except.bind_eq_error.1 refused with refused | ⟨place, located, refused⟩
    · exact .place refused
    rcases Except.bind_eq_error.1 refused with refused | ⟨source, read, refused⟩
    · obtain ⟨fault, unreadable, rfl⟩ := Except.mapError_eq_error.1 refused
      exact .unreadable located unreadable
    rw [Except.mapError_eq_ok] at read
    dsimp only at refused
    split at refused
    · next missing =>
      cases refused
      exact .outOfRange located read (List.getElem?_eq_none_iff.1 missing)
    · next token found =>
      split at refused
      · cases refused
      · next other =>
        cases refused
        exact .notInclude located read found other
  · intro refuses
    cases refuses with
    | place refused =>
      rw [planDeletion, refused]
      rfl
    | unreadable located refused =>
      rw [planDeletion, located, Except.ok_bind, refused]
      rfl
    | outOfRange located read beyond =>
      rw [planDeletion, located, Except.ok_bind, read, Except.mapError_ok, Except.ok_bind]
      simp only [List.getElem?_eq_none beyond]
    | notInclude located read found other =>
      rw [planDeletion, located, Except.ok_bind, read, Except.mapError_ok, Except.ok_bind]
      simp only [found, other, if_false]

/-- A deletion fails at one of these checks, or where the system stops the write. -/
theorem deleteInclude_eq_error :
    project.deleteInclude disk file index trouble = (.error error, after) ↔
      RefusesDeletion disk project file index error ∧ after = disk ∨
        ∃ root names opened place source token fault,
          Opens disk project deletableRooms file root names opened place source ∧
          (tokenize source)[index]? = some token ∧ token.kind = .inclusion ∧ error = .io fault ∧
          disk.StopsWrite place (Utf8.encode (token.removeFrom source)) trouble fault after := by
  rw [← planDeletion_eq_error]
  unfold deleteInclude
  constructor
  · intro failed
    cases planned : project.planDeletion disk file index with
    | error other =>
      rw [planned] at failed
      cases failed
      exact .inl ⟨rfl, rfl⟩
    | ok plan =>
      obtain ⟨opened, text⟩ := plan
      rw [planned] at failed
      obtain ⟨source, token, located, read, found, kind, rfl⟩ := planDeletion_eq_ok.1 planned
      obtain ⟨root, names, place, opens⟩ := opens_of_editablePlace located read
      obtain ⟨fault, rfl, stops⟩ := (carryOut_eq_error opens.openToWrite_eq).1 failed
      exact .inr ⟨root, names, opened, place, source, token, fault, opens, found, kind, rfl, stops⟩
  · rintro (⟨refused, rfl⟩ | ⟨root, names, opened, place, source, token, fault, opens, found, kind,
      rfl, stops⟩)
    · rw [refused]
      rfl
    · have planned := planDeletion_eq_ok.2 ⟨source, token, opens.editablePlace_eq,
        Disk.readText_eq_ok.2 opens.readBytes, found, kind, rfl⟩
      rw [planned]
      exact (carryOut_eq_error opens.openToWrite_eq).2 ⟨fault, rfl, stops⟩

theorem isMatch_of_inclusion (found : (tokenize source)[index]? = some token)
    (kind : token.kind = .inclusion) : token.IsMatch 0 source := by
  refine (recognises_tokensFrom 0 source).directives token (List.mem_of_getElem? found) ?_
  rw [Token.isDirective, kind]
  rfl

/-- Deleting an include of a text writes the file without the bytes of its token and nothing else,
and the other tokens change between the directives on its two sides at most.  A deletion that is
refused leaves everything as it is; where the write is stopped, the file may hold a front part of
the new text. -/
theorem deletion_is_local (disk : Disk) (project : Project) (file : Text) (index : Nat) :
    (∀ opened source token, project.editablePlace disk deletableRooms file = .ok opened →
      disk.readText opened = .ok source → (tokenize source)[index]? = some token →
      token.kind = .inclusion →
      Removes source index token (token.removeFrom source) ∧
      ∃ place, disk.resolve opened = .ok place ∧
        ∀ trouble : Disk.WriteTrouble, trouble.Allows (Utf8.encode (token.removeFrom source)) →
          ∃ after, project.deleteInclude disk file index trouble = (.ok (), after) ∧
            after.entry? place = some (.file (Utf8.encode (token.removeFrom source))) ∧
            ∀ other, other ≠ place → after.entry? other = disk.entry? other) ∧
    ∀ trouble error after,
      project.deleteInclude disk file index trouble = (.error error, after) ↔
        RefusesDeletion disk project file index error ∧ after = disk ∨
          ∃ root names opened place source token fault,
            Opens disk project deletableRooms file root names opened place source ∧
            (tokenize source)[index]? = some token ∧ token.kind = .inclusion ∧ error = .io fault ∧
            disk.StopsWrite place (Utf8.encode (token.removeFrom source)) trouble fault after := by
  refine ⟨fun opened source token located read found kind => ?_,
    fun trouble error after => deleteInclude_eq_error⟩
  obtain ⟨root, names, place, opens⟩ := opens_of_editablePlace located read
  refine ⟨removes_of_isMatch found (isMatch_of_inclusion found kind), place, opens.leads_opened,
    fun trouble allowed => ⟨_, deleteInclude_eq_ok.2
      ⟨root, names, opened, place, source, token, opens, found, kind, allowed, rfl⟩,
      Disk.entry?_put_self opens.ne_nil, fun other different => Disk.entry?_put_of_ne different⟩⟩

/-- A page whose include stands between single braces. -/
def crampedPage : Text :=
  "\x7b\x7b prop a \x7d\x7d\x7b \x7b\x7b include \"c\" \x7d\x7d\x7d\x7b\x7b slot \x7d\x7d".toList

/-- A site with one page. -/
def onePageSite (page : Text) : Disk :=
  (Disk.empty.put [templatesName] .directory).put [templatesName, "p.html".toList]
    (.file (Utf8.encode page))

theorem opens_onePageSite (page : Text) {rooms : List Text}
    (editable : isEditableName rooms "templates/p.html".toList = true) :
    Opens (onePageSite page) ⟨[]⟩ rooms "templates/p.html".toList []
      [templatesName, "p.html".toList] [templatesName, "p.html".toList]
      [templatesName, "p.html".toList] page where
  atRoot := by cbv
  editable := editable
  named := by decide
  leads := by cbv
  reached := .inl ⟨rfl, by cbv, List.nil_prefix⟩
  readable := by decide
  holds := ⟨_, Disk.entry?_put_self (by decide), Utf8.decode?_encode page⟩

theorem crampedPage_deletion_is_local : ∃ after,
    deleteInclude (onePageSite crampedPage) ⟨[]⟩ "templates/p.html".toList 2 = (.ok (), after) ∧
      after.entry? [templatesName, "p.html".toList] = some (.file (Utf8.encode
        "\x7b\x7b prop a \x7d\x7d\x7b \x7d\x7b\x7b slot \x7d\x7d".toList)) ∧
      directives "\x7b\x7b prop a \x7d\x7d\x7b \x7d\x7b\x7b slot \x7d\x7d".toList
        = [(.prop, "a".toList), (.slot, [])] := by
  have opens :=
    opens_onePageSite crampedPage (show isEditableName deletableRooms _ = true by decide)
  have read := Disk.readText_eq_ok.2 opens.readBytes
  have found : (tokenize crampedPage)[2]? = some ⟨.inclusion, "\"c\"".toList, 14, 31⟩ := by cbv
  have edits : Token.removeFrom crampedPage ⟨.inclusion, "\"c\"".toList, 14, 31⟩
      = "\x7b\x7b prop a \x7d\x7d\x7b \x7d\x7b\x7b slot \x7d\x7d".toList := by cbv
  obtain ⟨removes, place, leads, deletes⟩ :=
    (deletion_is_local (onePageSite crampedPage) ⟨[]⟩ "templates/p.html".toList 2).1
      _ _ _ opens.editablePlace_eq read found rfl
  cases opens.leads_opened.symm.trans leads
  obtain ⟨after, deleted, stands, _⟩ := deletes {} (Disk.WriteTrouble.allows_default _)
  rw [edits] at stands removes
  have first : (tokenize crampedPage)[0]? = some ⟨.prop, "a".toList, 0, 12⟩ := by cbv
  have isMatch : Token.IsMatch 0 crampedPage ⟨.prop, "a".toList, 0, 12⟩ :=
    (recognises_tokensFrom 0 crampedPage).directives _ (List.mem_of_getElem? first) rfl
  refine ⟨after, deleted, stands, ?_⟩
  rw [removes.directives 12 "\x7b ".toList (.inr ⟨0, _, by decide, first, isMatch, rfl⟩) (by cbv)
    (by decide) (by decide)]
  cbv

/-- A site whose page has an include behind a byte that is no text. -/
def garbledPageSite : Disk :=
  (Disk.empty.put [templatesName] .directory).put [templatesName, "p.html".toList]
    (.file (255 :: Utf8.encode "\x7b\x7b include \"a\" \x7d\x7d".toList))

/-- Where a page is no text, none of its includes can be deleted.  Where there is no room for the
new text, the old one is lost all the same. -/
theorem pages_refused_or_cut :
    (tokenize (Utf8.decodeLossy
        (255 :: Utf8.encode "\x7b\x7b include \"a\" \x7d\x7d".toList)))[1]?.map Token.kind
          = some .inclusion ∧
      deleteInclude garbledPageSite ⟨[]⟩ "templates/p.html".toList 1
        = (.error (.io .notUtf8), garbledPageSite) ∧
      ∃ after, deleteInclude (onePageSite crampedPage) ⟨[]⟩ "templates/p.html".toList 2
          { room := some (0, .noSpace) } = (.error (.io .noSpace), after) ∧
        after.entry? [templatesName, "p.html".toList] = some (.file []) := by
  refine ⟨by cbv, by cbv, _, deleteInclude_eq_error.2 (.inr ⟨_, _, _, _, _,
    ⟨.inclusion, "\"c\"".toList, 14, 31⟩, _, opens_onePageSite crampedPage (by decide), by cbv, rfl,
    rfl, .cut rfl rfl (by decide)⟩), Disk.entry?_put_self (by decide)⟩

end StaticSite.Project
