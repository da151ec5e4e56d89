import StaticSite.Project

/-!
# Editing sources

Single includes are removed from sources and added to pages.  Only files under certain
directories can be edited.  An edit is planned as a whole before the file is written.
-/

namespace StaticSite.Project

/-- The directories whose files can lose an include. -/
def deletableRooms : List Text := [templatesName, "components".toList]

/-- The directories whose files can gain an include. -/
def insertableRooms : List Text := [templatesName]

/-- Whether a path text names something in one of some directories, without ever going up. -/
def isEditableName (rooms : List Text) (file : Text) : Bool :=
  match (PathText.parts file).filter (· ≠ .here) with
  | .name room :: first :: rest =>
      rooms.contains room && (first :: rest).all fun part => (PathText.name? part).isSome
  | _ => false

/-- Where a file that can be edited is opened. -/
def editablePlace (disk : Disk) (project : Project) (rooms : List Text) (file : Text) :
    Except SiteError Path :=
  if isEditableName rooms file then
    match disk.canonical project.root with
    | .error fault => .error (.io fault)
    | .ok root =>
        match disk.contain? root file with
        | some target =>
            if disk.isFile target.place then .ok target.place else .error (.notEditable file)
        | none => .error (.notEditable file)
  else .error (.notEditable file)

/-- The file that loses the include at a token index, and its new text. -/
def planDeletion (disk : Disk) (project : Project) (file : Text) (index : Nat) :
    Except SiteError (Path × Text) := do
  let place ← editablePlace disk project deletableRooms file
  let source ← (disk.readText place).mapError .io
  let tokens := tokenize source
  match tokens[index]? with
  | none => .error (.indexOutOfRange index tokens.length)
  | some token =>
      if token.kind = .inclusion then .ok (place, token.removeFrom source)
      else .error (.notInclude file index)

/-- Writes the text that is planned for a file.  A write that fails may leave the file with a front
part of the text. -/
def carryOut (disk : Disk) (plan : Except SiteError (Path × Text)) (trouble : Disk.WriteTrouble) :
    Except SiteError Unit × Disk :=
  match plan with
  | .error error => (.error error, disk)
  | .ok (place, text) =>
      let (result, after) := disk.writeText place text trouble
      (result.mapError .io, after)

/-- Removes the include at a token index of a file. -/
def deleteInclude (disk : Disk) (project : Project) (file : Text) (index : Nat)
    (trouble : Disk.WriteTrouble := {}) : Except SiteError Unit × Disk :=
  carryOut disk (planDeletion disk project file index) trouble

/-- Whether a text can stand as the target of an include: a plain relative path without
characters that would end the directive or its quotes. -/
def isPlainPartial (path : Text) : Bool :=
  !path.isEmpty && (PathText.parts path).all (fun part => (PathText.name? part).isSome)
    && !path.contains '"' && !path.contains '\n' && !path.contains '\r'
    && !Text.includes closeBraces path

/-- The line that includes a part. -/
def includeLine (path : Text) : Text :=
  "\n    ".toList ++ openBraces ++ " include \"./".toList ++ path ++ "\" ".toList ++ closeBraces
    ++ ['\n']

/-- Puts a line before the end of the main element, or else of the body, or else at the end. -/
def insertLine (line source : Text) : Text :=
  ((Text.insertBefore? "</main>".toList line source).or
    (Text.insertBefore? "</body>".toList line source)).getD (source ++ line)

/-- The page that gains an include of a part, and its new text. -/
def planInsertion (disk : Disk) (project : Project) (file path : Text) :
    Except SiteError (Path × Text) := do
  let place ← editablePlace disk project insertableRooms file
  if isPlainPartial path then
    let source ← (disk.readText place).mapError .io
    .ok (place, insertLine (includeLine path) source)
  else .error (.notEditable path)

/-- Adds an include of a part to a page. -/
def insertInclude (disk : Disk) (project : Project) (file path : Text)
    (trouble : Disk.WriteTrouble := {}) : Except SiteError Unit × Disk :=
  carryOut disk (planInsertion disk project file path) trouble

end StaticSite.Project
