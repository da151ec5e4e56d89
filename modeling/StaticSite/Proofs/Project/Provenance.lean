import Mathlib
import StaticSite.Proofs.Project.Opening
import StaticSite.Proofs.Project.Pages
import StaticSite.Proofs.Template.Journal

/-!
# Where markers come from

A marker tells a file and a token index.  On the disk that a page was compiled from, the file has
an include directive at that index, the one that the marker was written for, and deleting the
include takes this directive out.
-/

namespace StaticSite

namespace Disk

/-- Every name is one that an entry of a directory can have. -/
def WellNamed (disk : Disk) : Prop :=
  ∀ row ∈ disk.entries.rows, ∀ name ∈ row.1, IsName name ∧ '\x00' ∉ name

instance (disk : Disk) : Decidable disk.WellNamed :=
  inferInstanceAs (Decidable (∀ row ∈ disk.entries.rows, _))

/-- The file that a logical name leads to from the project root: its place and its bytes. -/
def source? (disk : Disk) (root : Path) (file : Text) : Option (Path × List UInt8) := do
  let names ← PathText.normalize? file
  match disk.resolve (root ++ names) with
  | .ok place =>
      match disk.entry? place with
      | some (.file bytes) => some (place, bytes)
      | _ => none
  | .error _ => none

/-- The text under a logical name is that of the file that it leads to. -/
def HasText (disk : Disk) (root : Path) (file text : Text) : Prop :=
  ∃ place bytes, disk.source? root file = some (place, bytes) ∧ Utf8.decodeLossy bytes = text

variable {disk : Disk} {root path place : Path} {file : Text} {bytes : List UInt8}

theorem source?_eq_some : disk.source? root file = some (place, bytes) ↔
    ∃ names, PathText.normalize? file = some names ∧ disk.resolve (root ++ names) = .ok place ∧
      disk.entry? place = some (.file bytes) := by
  unfold source?
  simp only [Option.bind_eq_bind, Option.bind_eq_some_iff]
  refine exists_congr fun names => and_congr_right fun _ => ?_
  cases disk.resolve (root ++ names) with
  | error fault => simp
  | ok found =>
      simp only [Except.ok.injEq]
      constructor
      · intro isFile
        split at isFile
        · next stands =>
            cases isFile
            exact ⟨rfl, stands⟩
        · cases isFile
      · rintro ⟨rfl, stands⟩
        rw [stands]

theorem WellNamed.of_isCanonical (wellNamed : disk.WellNamed) (canonical : disk.IsCanonical path) :
    ∀ name ∈ path, IsName name ∧ '\x00' ∉ name := by
  rcases List.eq_nil_or_concat path with rfl | ⟨above, last, rfl⟩
  · intro name isName
    exact absurd isName List.not_mem_nil
  · rw [List.concat_eq_append] at canonical ⊢
    obtain ⟨_, _, entry, found, _⟩ := canonical above last List.prefix_rfl
    exact wellNamed _ (mem_rows_of_stands found (by simp))

theorem not_mem_text {c : Char} (different : c ≠ '/') (outside : ∀ name ∈ path, c ∉ name) :
    c ∉ path.text := by
  have joined : c ∉ PathText.join path := by
    induction path with
    | nil => exact List.not_mem_nil
    | cons name rest ih =>
        have first := outside name List.mem_cons_self
        have others := ih fun other isOther => outside other (List.mem_cons_of_mem _ isOther)
        cases rest with
        | nil => simpa [PathText.join] using first
        | cons => simp_all [PathText.join, List.intercalate_cons_cons]
  simp [Path.text, different, joined]

end Disk

/-- Source that can be edited reads the same when compiled. -/
theorem Utf8.decodeLossy_of_decode? {bytes : List UInt8} {text : Text}
    (decoded : decode? bytes = some text) : decodeLossy bytes = text := by
  unfold decode? at decoded
  unfold decodeLossy
  generalize units bytes = found at decoded ⊢
  induction found generalizing text with
  | nil =>
      cases decoded
      rfl
  | cons unit rest ih =>
      cases unit with
      | none => simp at decoded
      | some c =>
          simp only [List.mapM_cons, id, Option.pure_def, Option.bind_eq_bind,
            Option.bind_some, Option.bind_eq_some_iff, Option.some.injEq] at decoded
          obtain ⟨later, decoded, rfl⟩ := decoded
          rw [List.map_cons, ih decoded, Option.getD_some]

namespace Project

variable {disk : Disk} {project : Project} {root place page : Path} {file source : Text}
  {bytes : List UInt8} {index : Nat} {token : Token} {listing : Path → Option Fault}

/-- Pages have names that a disk can hold. -/
theorem names_of_mem_pages {directory : Path} {walked : Walk} (wellNamed : disk.WellNamed)
    (walking : walk disk directory listing = .ok walked) (isPage : page ∈ pages walked.entries) :
    ∀ name ∈ page, IsName name ∧ '\x00' ∉ name := by
  obtain ⟨_, entry, isEntry, _⟩ := mem_pages.1 isPage
  -- What a walk comes upon are the ends of paths that the disk holds.
  obtain ⟨above, _, isBelow⟩ := mem_below_of_walk walking isEntry
  obtain ⟨nonempty, stands⟩ := Disk.mem_below.1 isBelow
  intro name isName
  exact wellNamed _ (Disk.mem_rows_of_stands stands (by simp [nonempty])) name
    (List.mem_append_right _ isName)

/-- The text of a page is that of the file that its name leads to. -/
theorem hasText_pageName (wellNamed : disk.WellNamed)
    (atRoot : disk.canonical project.root = .ok root)
    (proper : ∀ name ∈ page, IsName name ∧ '\x00' ∉ name)
    (read : disk.readSource (project.templates ++ page) = .ok source) :
    disk.HasText root (pageName page) source := by
  obtain ⟨bytes, isFile, decoded⟩ := Disk.readSource_eq_ok.1 read
  obtain ⟨_, place, found, stands⟩ := Disk.find_eq_ok.1 (Disk.readBytes_eq_ok.1 isFile)
  rw [templates, List.append_assoc, List.singleton_append] at found
  have properAll : ∀ name ∈ templatesName :: page, IsName name ∧ '\x00' ∉ name := by
    intro name isName
    rcases List.mem_cons.1 isName with rfl | isName
    · exact ⟨⟨by decide, by decide, by decide, by decide⟩, by decide⟩
    · exact proper name isName
  -- The page was read below the root as it was given; its name counts from the canonical root.
  have rootNames := wellNamed.of_isCanonical (Disk.isCanonical_of_canonical atRoot)
  have characters : '\x00' ∉ Path.text (root ++ templatesName :: page) := by
    refine Disk.not_mem_text (by decide) fun name isName => ?_
    rcases List.mem_append.1 isName with isName | isName
    · exact (rootNames name isName).2
    · exact (properAll name isName).2
  refine ⟨place, bytes, Disk.source?_eq_some.2 ⟨templatesName :: page, ?_, ?_, stands⟩, decoded⟩
  · exact PathText.normalize?_join fun name isName => (properAll name isName).1
  · exact Disk.resolve_append (Disk.resolve_of_canonical atRoot) found characters

/-- The text of a target is that of the file that its logical name leads to. -/
theorem hasText_logical {relative : Text} {target : Target}
    (located : disk.contain? root relative = some target)
    (read : disk.readSource target.place = .ok source) :
    disk.HasText root target.logical source := by
  obtain ⟨bytes, isFile, decoded⟩ := Disk.readSource_eq_ok.1 read
  obtain ⟨names, place, normal, logical, leads, stands, _⟩ := Disk.read_target located isFile
  refine ⟨place, bytes, Disk.source?_eq_some.2 ⟨names, ?_, leads, stands⟩, decoded⟩
  rw [logical]
  exact PathText.normalize?_join (PathText.isName_of_normalize? normal)

/-! ## Deleting a marked include -/

/-- Deleting the include at the index of an include directive takes this directive out, or the
file is refused as a whole. -/
theorem deleteInclude_of_source? (atRoot : disk.canonical project.root = .ok root)
    (isSource : disk.source? root file = some (place, bytes))
    (found : (tokenize (Utf8.decodeLossy bytes))[index]? = some token)
    (kind : token.kind = .inclusion) :
    project.deleteInclude disk file index = (.error (.notEditable file), disk) ∨
      project.deleteInclude disk file index = (.error (.io .notUtf8), disk) ∨
      project.deleteInclude disk file index = (.ok (), disk.put place
        (.file (Utf8.encode (token.removeFrom (Utf8.decodeLossy bytes))))) := by
  obtain ⟨names, normal, leads, stands⟩ := Disk.source?_eq_some.1 isSource
  unfold deleteInclude planDeletion
  cases located : project.editablePlace disk deletableRooms file with
  | error error =>
    rw [editablePlace_eq_error atRoot located]
    exact .inl rfl
  | ok opened =>
    refine .inr ?_
    rw [Except.ok_bind]
    obtain ⟨others, isFile⟩ := Disk.isFile_eq_true.1 (isFile_of_editablePlace located)
    rw [← Disk.readBytes_eq_ok] at isFile
    cases decoded : Utf8.decode? others with
    | none =>
      left
      rw [Disk.readText, isFile, Except.ok_bind, decoded]
      rfl
    | some text =>
      right
      have read := Disk.readText_eq_ok.2 ⟨_, isFile, decoded⟩
      -- What is opened is the file that the logical name leads to.
      obtain ⟨_, _, other, opens⟩ := opens_of_editablePlace located read
      obtain rfl := Except.ok.inj (atRoot.symm.trans opens.atRoot)
      obtain rfl := Option.some.inj (normal.symm.trans opens.named)
      obtain rfl := Except.ok.inj (leads.symm.trans opens.leads)
      obtain ⟨_, stands', decoded'⟩ := opens.holds
      rw [stands] at stands'
      cases stands'
      rw [Utf8.decodeLossy_of_decode? decoded'] at found ⊢
      rw [read]
      simp only [Except.mapError_ok, Except.ok_bind, found, kind, if_true]
      exact (carryOut_eq_ok opens.openToWrite_eq).2 ⟨Disk.WriteTrouble.allows_default _, rfl⟩

/-! ## Compile runs -/

/-- In every compile run of a page, failing ones included, each slice that is compiled is a slice
of the tokens of the file that its frame names, and each marker names an include directive of its
file, which deleting the include at the marked index takes out. -/
theorem markers_lead_back {maxDepth : Nat} {compiler : Compiler} {walked : Walk}
    (wellNamed : disk.WellNamed)
    (prepared : Compiler.forProject disk project.root maxDepth = .ok compiler)
    (walking : walk disk project.templates listing = .ok walked)
    (isPage : page ∈ pages walked.entries)
    (read : disk.readSource (project.templates ++ page) = .ok source) :
    (compiler.recordSource (pageName page) source).result
        = compiler.compileSource (pageName page) source ∧
      (∀ frame index tokens,
        .entered frame index tokens ∈ (compiler.recordSource (pageName page) source).events →
        ∃ place bytes, disk.source? compiler.root frame.file = some (place, bytes) ∧
          tokens <+: (tokenize (Utf8.decodeLossy bytes)).drop index) ∧
      ∀ file index token,
        .marked file index token ∈ (compiler.recordSource (pageName page) source).events →
        ∃ place bytes, disk.source? compiler.root file = some (place, bytes) ∧
          (tokenize (Utf8.decodeLossy bytes))[index]? = some token ∧ token.kind = .inclusion ∧
          (project.deleteInclude disk file index = (.error (.notEditable file), disk) ∨
            project.deleteInclude disk file index = (.error (.io .notUtf8), disk) ∨
            project.deleteInclude disk file index = (.ok (), disk.put place
              (.file (Utf8.encode (token.removeFrom (Utf8.decodeLossy bytes)))))) := by
  obtain ⟨root, atRoot, made⟩ := Except.bind_eq_ok.1 prepared
  rw [Except.mapError_eq_ok] at atRoot
  cases made
  have knows : Compiler.Knows { disk, root, maxDepth } (disk.HasText root) := by
    intro relative target source located read
    exact hasText_logical ((Compiler.locate_eq_ok _).1 located) read
  have known : disk.HasText root (pageName page) source :=
    hasText_pageName wellNamed atRoot (names_of_mem_pages wellNamed walking isPage) read
  refine ⟨Compiler.result_recordSource .., ?_, ?_⟩
  · intro frame index tokens happened
    obtain ⟨text, ⟨place, bytes, isSource, rfl⟩, slice⟩ :=
      Compiler.sound_of_mem_recordSource knows known happened
    exact ⟨place, bytes, isSource, slice⟩
  · intro file index token happened
    obtain ⟨text, ⟨place, bytes, isSource, rfl⟩, found, kind⟩ :=
      Compiler.sound_of_mem_recordSource knows known happened
    exact ⟨place, bytes, isSource, found, kind,
      deleteInclude_of_source? atRoot isSource found kind⟩

/-- A site whose only page includes a component. -/
def twoFileSite : Disk :=
  ((Disk.empty.put [templatesName] .directory).put [templatesName, "p.html".toList]
    (.file (Utf8.encode "<p>\x7b\x7b include \"c\" \x7d\x7d</p>".toList))).put ["c".toList]
    (.file [])

theorem twoFileSite_markers_lead_back :
    twoFileSite.WellNamed ∧ ∀ file index token,
      .marked file index token ∈ (Compiler.recordSource
        { disk := twoFileSite, root := [], maxDepth := 1 } (pageName ["p.html".toList])
        "<p>\x7b\x7b include \"c\" \x7d\x7d</p>".toList).events →
      ∃ place bytes, twoFileSite.source? [] file = some (place, bytes) ∧
        (tokenize (Utf8.decodeLossy bytes))[index]? = some token ∧ token.kind = .inclusion ∧
        (deleteInclude twoFileSite ⟨[]⟩ file index = (.error (.notEditable file), twoFileSite) ∨
          deleteInclude twoFileSite ⟨[]⟩ file index = (.error (.io .notUtf8), twoFileSite) ∨
          deleteInclude twoFileSite ⟨[]⟩ file index = (.ok (), twoFileSite.put place
            (.file (Utf8.encode (token.removeFrom (Utf8.decodeLossy bytes)))))) := by
  have wellNamed : twoFileSite.WellNamed := by decide
  have prepared : Compiler.forProject twoFileSite (Project.mk []).root 1
      = .ok { disk := twoFileSite, root := [], maxDepth := 1 } := by cbv
  have walking : walk twoFileSite (Project.mk []).templates
      = .ok ⟨[(["p.html".toList],
          .file (Utf8.encode "<p>\x7b\x7b include \"c\" \x7d\x7d</p>".toList))], none⟩ := by cbv
  have read : twoFileSite.readSource ((Project.mk []).templates ++ ["p.html".toList])
      = .ok "<p>\x7b\x7b include \"c\" \x7d\x7d</p>".toList := by cbv
  exact ⟨wellNamed, (markers_lead_back wellNamed prepared walking (by decide) read).2.2⟩

end Project

end StaticSite
