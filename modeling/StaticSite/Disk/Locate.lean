import StaticSite.Disk
import StaticSite.Fault
import StaticSite.Text.Utf8

/-!
# Finding entries

Paths are followed name by name from the root directory.  A symbolic link is replaced by its
target, at most forty times in one look-up.  The canonical path of an entry is the one on which
no link is left.  The system follows a path without ever writing it out; a program that asks for
the canonical path gets it spelled, and that ends where the text becomes too long to be looked up.
-/

namespace StaticSite

/-- A step of a look-up. -/
inductive PathStep where
  | enter (name : Text)
  | up
  /-- A dot: go nowhere, but only inside a directory. -/
  | stay
  /-- A slash at the end: it asks the same as a dot, but the name before it is still the last
  one. -/
  | close
  deriving DecidableEq, Repr

namespace PathStep

/-- The step that stands for the text between two slashes; empty text is no step. -/
def ofPiece? (piece : Text) : Option PathStep :=
  if piece = [] then none
  else if piece = ['.'] then some .stay
  else if piece = ['.', '.'] then some .up
  else some (.enter piece)

/-- The steps that a path text asks for, from the directory that it starts in. -/
def ofText (path : Text) : List PathStep :=
  (path.splitOn '/').filterMap ofPiece? ++ if path.getLast? = some '/' then [.close] else []

end PathStep

namespace Disk

/-- Longer names are refused, by their bytes. -/
def maxNameBytes : Nat := 255

/-- Longer path texts are refused, by their bytes. -/
def maxPathBytes : Nat := 4095

/-- So many links are followed in one look-up. -/
def maxLinks : Nat := 40

/-- Takes steps from the directory `here`, following at most `links` links, to a canonical path.
If `creating`, the last name may be free; it is to be the name of a file, so a slash behind it is
refused whatever stands there. -/
def follow (disk : Disk) (creating : Bool) (links : Nat) (todo : List PathStep) (here : Path) :
    Except Fault Path :=
  match todo with
  | [] => .ok here
  | step :: rest =>
      if disk.entry? here ≠ some .directory then .error .notDirectory
      else match step with
        | .stay | .close => follow disk creating links rest here
        | .up => follow disk creating links rest here.parent
        | .enter name =>
            if creating && rest == [.close] then .error .isDirectory
            else if maxNameBytes < Text.byteLength name then .error .nameTooLong
            else match disk.entry? (here ++ [name]) with
              | none => if creating && rest.isEmpty then .ok (here ++ [name]) else .error .notFound
              | some (.link target) =>
                  match links with
                  | 0 => .error .tooManyLinks
                  | links + 1 =>
                      follow disk creating links (PathStep.ofText target ++ rest)
                        (if PathText.isRooted target then [] else here)
              | some _ => follow disk creating links rest (here ++ [name])
  termination_by (links, todo.length)

/-- Refuses path texts with a character that no name has. -/
def checkCharacters (path : Text) : Except Fault Unit :=
  if '\x00' ∈ path then .error .nulInName else .ok ()

/-- Refuses path texts under which nothing can be opened. -/
def checkPathText (path : Text) : Except Fault Unit := do
  checkCharacters path
  if maxPathBytes < Text.byteLength path then .error .nameTooLong

/-- Where a path leads, all links followed.  Names are looked up one by one, so neither the length
of the whole path text matters nor that of the path it leads to. -/
def resolve (disk : Disk) (path : Path) : Except Fault Path := do
  checkCharacters path.text
  disk.follow false maxLinks (path.map .enter) []

/-- Whether the steps begin by asking for a directory: they go up, or come to their end behind a
slash or a dot. -/
def asksDirectory (todo : List PathStep) : Bool :=
  match todo.dropWhile fun step => step == .stay || step == .close with
  | [] => !todo.isEmpty
  | .up :: _ => true
  | _ => false

/-- Takes steps as `follow` does, and spells the path out on the way.  Each name is looked up by
the whole text that is spelled by then, with a slash behind it where a directory is asked for. -/
def spell (disk : Disk) (links : Nat) (todo : List PathStep) (here : Path) : Except Fault Path :=
  match todo with
  | [] => .ok here
  | .enter name :: rest =>
      if maxPathBytes < Text.byteLength (Path.text (here ++ [name])) then .error .nameTooLong
      else if disk.entry? here ≠ some .directory then .error .notDirectory
      else if maxNameBytes < Text.byteLength name then .error .nameTooLong
      else match disk.entry? (here ++ [name]) with
        | none => .error .notFound
        | some (.link target) =>
            match links with
            | 0 => .error .tooManyLinks
            | links + 1 =>
                spell disk links (PathStep.ofText target ++ rest)
                  (if PathText.isRooted target then [] else here)
        | some _ =>
            if asksDirectory rest
                && maxPathBytes < Text.byteLength (Path.text (here ++ [name])) + 1 then
              .error .nameTooLong
            else spell disk links rest (here ++ [name])
  | step :: rest =>
      if disk.entry? here ≠ some .directory then .error .notDirectory
      else spell disk links rest (if step = .up then here.parent else here)
  termination_by (links, todo.length)

/-- The canonical path of what a path names.  It is refused where its text is too long, even if
files can be opened under the path. -/
def canonical (disk : Disk) (path : Path) : Except Fault Path := do
  checkCharacters path.text
  disk.spell maxLinks (path.map .enter) []

/-- The canonical path of what a path text names, seen from the directory `here`. -/
def canonicalText (disk : Disk) (here : Path) (path : Text) : Except Fault Path := do
  checkCharacters path
  if path = [] then .error .notFound
  disk.spell maxLinks (PathStep.ofText path) (if PathText.isRooted path then [] else here)

/-- The canonical path of the file that writing to a path would change or create. -/
def writeTarget (disk : Disk) (path : Path) : Except Fault Path := do
  checkPathText path.text
  disk.follow true maxLinks (path.map .enter) []

/-- The path with all links followed but one in the last place. -/
def placeOf (disk : Disk) (path : Path) : Except Fault Path := do
  checkPathText path.text
  let parent ← disk.follow false maxLinks (path.parent.map .enter) []
  match path.fileName? with
  | none => .ok []
  | some name =>
      if disk.entry? parent ≠ some .directory then .error .notDirectory
      else if maxNameBytes < Text.byteLength name then .error .nameTooLong
      else .ok (parent ++ [name])

/-- What a path names, all links followed. -/
def find (disk : Disk) (path : Path) : Except Fault Entry := do
  checkPathText path.text
  let place ← disk.resolve path
  match disk.entry? place with
  | some entry => .ok entry
  | none => .error .notFound

/-- Where a path whose text has some ending leads, and what stands there.  Only an ending makes it
lead through a link in the last place, and then to a directory. -/
def look (disk : Disk) (path : Path) : PathEnding → Except Fault (Path × Entry)
  | .plain => do
      let place ← disk.placeOf path
      match disk.entry? place with
      | some entry => .ok (place, entry)
      | none => .error .notFound
  | .slash | .dot => do
      let place ← disk.resolve path
      if disk.entry? place = some .directory then .ok (place, .directory)
      else .error .notDirectory

/-- Whether a path names anything, all links followed. -/
def exists? (disk : Disk) (path : Path) : Bool :=
  (disk.find path).isOk

/-- Whether a path names a directory, all links followed. -/
def isDirectory (disk : Disk) (path : Path) : Bool :=
  match disk.find path with
  | .ok .directory => true
  | _ => false

/-- Whether a path names a regular file, all links followed. -/
def isFile (disk : Disk) (path : Path) : Bool :=
  match disk.find path with
  | .ok (.file _) => true
  | _ => false

/-- The bytes of the file that a path names. -/
def readBytes (disk : Disk) (path : Path) : Except Fault (List UInt8) := do
  match ← disk.find path with
  | .file bytes => .ok bytes
  | _ => .error .isDirectory

/-- The text of the file that a path names; a file that is not UTF-8 is refused. -/
def readText (disk : Disk) (path : Path) : Except Fault Text := do
  match Utf8.decode? (← disk.readBytes path) with
  | some text => .ok text
  | none => .error .notUtf8

/-- The source text of the file that a path names; ill-formed bytes are replaced. -/
def readSource (disk : Disk) (path : Path) : Except Fault Text :=
  (disk.readBytes path).map Utf8.decodeLossy

end Disk

end StaticSite
