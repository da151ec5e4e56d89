import StaticSite.Json.Quoted
import StaticSite.Json.Value

/-!
# Writing JSON texts

One item or member a line, indented by two spaces for each level; an empty array or object stays
on its line.
-/

namespace StaticSite.Json

/-- A string value that stands for a text. -/
def Value.ofText (text : Text) : Value :=
  .string (escape text)

/-- A number value. -/
def Value.ofNat (number : Nat) : Value :=
  .number (Text.ofNat number)

/-- A new line at a level. -/
def lineAt (level : Nat) : Text :=
  '\n' :: List.replicate (2 * level) ' '

mutual

/-- A value whose items stand one level deeper than `level`. -/
def writeAt (level : Nat) : Value → Text
  | .null => "null".toList
  | .boolean true => "true".toList
  | .boolean false => "false".toList
  | .number literal => literal
  | .string literal => '"' :: literal ++ ['"']
  | .array [] => "[]".toList
  | .array (first :: rest) =>
      '[' :: lineAt (level + 1) ++ writeAt (level + 1) first ++ writeItems (level + 1) rest
        ++ lineAt level ++ [']']
  | .object [] => ['\x7b', '\x7d']
  | .object (first :: rest) =>
      '\x7b' :: lineAt (level + 1) ++ writeMember (level + 1) first
        ++ writeMembers (level + 1) rest ++ lineAt level ++ ['\x7d']

/-- The items behind the first one. -/
def writeItems (level : Nat) : List Value → Text
  | [] => []
  | item :: rest => ',' :: lineAt level ++ writeAt level item ++ writeItems level rest

/-- A member. -/
def writeMember (level : Nat) : Text × Value → Text
  | (name, value) => '"' :: name ++ "\": ".toList ++ writeAt level value

/-- The members behind the first one. -/
def writeMembers (level : Nat) : List (Text × Value) → Text
  | [] => []
  | member :: rest => ',' :: lineAt level ++ writeMember level member ++ writeMembers level rest

end

/-- The text of a value. -/
def write (value : Value) : Text :=
  writeAt 0 value

end StaticSite.Json
