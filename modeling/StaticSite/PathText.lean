import StaticSite.Text

/-!
# Paths as text

Directives, edits and command lines name files by slash-separated text.  This module splits
such text into its parts, reduces it to the names that are left once every `..` has taken back
the name before it, and says which text is a single name.
-/

namespace StaticSite

/-- A part of a path text. -/
inductive PathPart where
  | root
  | here
  | up
  | name (text : Text)
  deriving DecidableEq, Repr

/-- How the text of a path goes on behind its last name.  A slash asks for a directory there, and
a dot for what that directory itself is. -/
inductive PathEnding where
  | plain
  | slash
  | dot
  deriving DecidableEq, Repr

namespace PathText

/-- Whether the text starts at the root directory. -/
def isRooted (path : Text) : Bool :=
  path.head? == some '/'

/-- The part that stands between two slashes.  Nothing and a single dot stand for no part. -/
def part? (piece : Text) : Option PathPart :=
  if piece = [] ∨ piece = ['.'] then none
  else if piece = ['.', '.'] then some .up
  else some (.name piece)

/-- The parts of a path text.  A leading slash is the root, and a leading dot is kept; repeated
and trailing slashes and all other dots mean nothing. -/
def parts (path : Text) : List PathPart :=
  let pieces := path.splitOn '/'
  let rest := pieces.filterMap part?
  if isRooted path then .root :: rest
  else if pieces.head? = some ['.'] then .here :: rest
  else rest

/-- The name of a part that is one. -/
def name? : PathPart → Option Text
  | .name text => some text
  | _ => none

/-- Names between slashes. -/
def join (names : List Text) : Text :=
  List.intercalate ['/'] names

/-- The names of a path text between slashes; all other parts are left out. -/
def slashed (path : Text) : Text :=
  join ((parts path).filterMap name?)

/-- Takes parts onto a stack of names, last name first.  Going up takes the last name back, and
fails where there is none. -/
def reduce : List Text → List PathPart → Option (List Text)
  | stack, [] => some stack
  | stack, .name text :: rest => reduce (text :: stack) rest
  | [], .up :: _ => none
  | _ :: stack, .up :: rest => reduce stack rest
  | stack, .root :: rest => reduce stack rest
  | stack, .here :: rest => reduce stack rest

/-- The names that a path text leads through, counted from the directory it is taken in, unless
it climbs above that directory. -/
def normalize? (path : Text) : Option (List Text) :=
  (reduce [] (parts path)).map List.reverse

end PathText

/-- Why a text is not a single name. -/
inductive NameFault where
  | empty
  | rooted (path : Text)
  | here (path : Text)
  | up (path : Text)
  | count (found : Nat) (path : Text)
  deriving DecidableEq, Repr

namespace NameFault

/-- The wording of the fault. -/
def message : NameFault → Text
  | empty => "Name cannot be empty".toList
  | rooted path => "Path cannot be absolute or rooted: '".toList ++ path ++ ['\'']
  | here path => "Path cannot contain current directory (.): '".toList ++ path ++ ['\'']
  | up path => "Path cannot contain parent directory (..): '".toList ++ path ++ ['\'']
  | count found path =>
      "Path must be a single component, found ".toList ++ Text.ofNat found ++ ": '".toList
        ++ path ++ ['\'']

end NameFault

namespace PathText

/-- The first part that a single name cannot have, read from the left. -/
def faultOfParts? (path : Text) : List PathPart → Option NameFault
  | [] => none
  | .root :: _ => some (.rooted path)
  | .here :: _ => some (.here path)
  | .up :: _ => some (.up path)
  | .name _ :: rest => faultOfParts? path rest

/-- Accepts a text that has exactly one part, a name. -/
def checkSingle (path : Text) : Except NameFault Unit :=
  match faultOfParts? path (parts path) with
  | some fault => .error fault
  | none => if (parts path).length = 1 then .ok () else .error (.count (parts path).length path)

/-- Accepts the text that may name a site. -/
def checkName (name : Text) : Except NameFault Unit :=
  if name = [] then .error .empty else checkSingle name

end PathText

end StaticSite
