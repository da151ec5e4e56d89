import StaticSite.Page.Stamp
import StaticSite.Template.Compile
import StaticSite.Toml.Document

/-!
# The configuration of a project

A configuration names the site and says how its pages are built.  It is a TOML document with the
tables `site` and `build`; keys with other names are passed over.
-/

namespace StaticSite

/-- How pages are built. -/
structure BuildOptions where
  maxDepth : Nat := defaultMaxDepth
  stamps : PageStamps := {}
  deriving DecidableEq, Repr

/-- The configuration of a project. -/
structure Config where
  siteName : Option Text := none
  build : BuildOptions := {}
  deriving DecidableEq, Repr

namespace Config

open Toml

/-- The configuration of a new site. -/
def forSite (name : Text) : Config where
  siteName := some name

/-! ## Reading -/

/-- What a value has to be, unless it is missing. -/
def given {α : Type} (read : Value → Option α) (default : α) : Option Value → Option α
  | none => some default
  | some value => read value

/-- The text of a string. -/
def text? : Value → Option Text
  | .string text => some text
  | _ => none

/-- A truth value. -/
def boolean? : Value → Option Bool
  | .boolean value => some value
  | _ => none

/-- An integer that is not negative. -/
def natural? : Value → Option Nat
  | .integer number => if 0 ≤ number then some number.toNat else none
  | _ => none

/-- The values of a table's keys.  An array stands for a table with the keys in order, and a
point in time for a table without any of them. -/
def fields? (keys : List Text) : Value → Option (List (Option Value))
  | .table _ rows => some (keys.map (Rows.get? rows))
  | .array items => some ((List.range keys.length).map (items[·]?))
  | .tables items =>
      let values := items.reverse.map (Value.table .header)
      some ((List.range keys.length).map (values[·]?))
  | .datetime _ => some (keys.map fun _ => none)
  | _ => none

/-- The site name that the table `site` gives. -/
def siteName? (value : Value) : Option (Option Text) := do
  match ← fields? ["name".toList] value with
  | [name] => given (fun value => (text? value).map some) none name
  | _ => none

/-- The options that the table `build` gives. -/
def options? (value : Value) : Option BuildOptions := do
  let default : BuildOptions := {}
  let keys := ["max_depth".toList, "admin_script".toList, "source_path_attr".toList]
  match ← fields? keys value with
  | [maxDepth, adminScript, sourcePath] => do
      some {
        maxDepth := ← given natural? default.maxDepth maxDepth
        stamps := {
          adminScript := ← given boolean? default.stamps.adminScript adminScript
          sourcePath := ← given boolean? default.stamps.sourcePath sourcePath } }
  | _ => none

/-- The configuration that a document holds. -/
def read? (text : Text) : Option Config := do
  let rows ← readDocument? text
  some {
    siteName := ← given siteName? none (rows.get? "site".toList)
    build := ← given options? {} (rows.get? "build".toList) }

/-! ## Writing -/

/-- A truth value in words. -/
def writeBool (value : Bool) : Text :=
  if value then "true".toList else "false".toList

/-- The document of a configuration. -/
def write (config : Config) : Text :=
  let name : Text := match config.siteName with
    | some name => "name = ".toList ++ Toml.quote name ++ ['\n']
    | none => []
  "[site]\n".toList ++ name
    ++ "\n[build]\nmax_depth = ".toList ++ Text.ofNat config.build.maxDepth
    ++ "\nadmin_script = ".toList ++ writeBool config.build.stamps.adminScript
    ++ "\nsource_path_attr = ".toList ++ writeBool config.build.stamps.sourcePath ++ ['\n']

/-- The document of a configuration, unless the depth limit is greater than the integers of TOML. -/
def document? (config : Config) : Option Text :=
  if config.build.maxDepth ≤ 9223372036854775807 then some config.write else none

end Config

end StaticSite
