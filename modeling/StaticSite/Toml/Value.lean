import StaticSite.Text

/-!
# TOML values

The values of a TOML document.  A table remembers how it came to be, since that decides what a
document may still add to it.
-/

namespace StaticSite.Toml

/-- How a table came to be. -/
inductive Origin where
  /-- Written as a value between braces; nothing can be added. -/
  | inline
  /-- Opened by a header of its own. -/
  | header
  /-- On the way to the table of a header. -/
  | implied
  /-- On the way to the last part of a dotted key. -/
  | dotted
  deriving DecidableEq, Repr

/-- A TOML value.  Numbers with a fraction or an exponent and points in time are kept as they
are written. -/
inductive Value where
  | string (text : Text)
  | integer (number : Int)
  | float (written : Text)
  | boolean (value : Bool)
  | datetime (written : Text)
  | array (items : List Value)
  | table (origin : Origin) (rows : List (Text × Value))
  /-- Tables that share a header in double brackets, latest first. -/
  | tables (items : List (List (Text × Value)))
  deriving Inhabited

/-- The rows of a table in the order in which they were added. -/
abbrev Rows := List (Text × Value)

namespace Rows

/-- The value of a key. -/
def get? (rows : Rows) (key : Text) : Option Value :=
  rows.lookup key

/-- The rows with the value of a key replaced. -/
def set (rows : Rows) (key : Text) (value : Value) : Rows :=
  rows.map fun row => if row.1 = key then (key, value) else row

/-- Changes the table that a path of keys leads to, making tables that are missing.  The change
is told how the table came to be.  A dotted key does not enter a table that has a header of its
own, nothing enters a table between braces, and of tables that share a header the latest is
entered. -/
def changeAt (dotted : Bool) (change : Origin → Rows → Option Rows) :
    List Text → Origin → Rows → Option Rows
  | [], origin, rows => change origin rows
  | key :: path, _, rows =>
      match get? rows key with
      | none => do
          let origin := if dotted then .dotted else .implied
          let inner ← changeAt dotted change path origin []
          some (rows ++ [(key, .table origin inner)])
      | some (.table origin inner) =>
          if origin = .inline || (dotted && origin = .header) then none
          else do
            let inner ← changeAt dotted change path origin inner
            some (set rows key (.table origin inner))
      | some (.tables (latest :: earlier)) => do
          let latest ← changeAt dotted change path .header latest
          some (set rows key (.tables (latest :: earlier)))
      | some _ => none

/-- Adds a key that is new. -/
def add? (rows : Rows) (key : Text) (value : Value) : Option Rows :=
  match get? rows key with
  | some _ => none
  | none => some (rows ++ [(key, value)])

/-- Adds the value of a dotted key, `path` being all its parts but the last.  The table that it
goes to was made for dotted keys. -/
def addDotted? (rows : Rows) (path : List Text) (key : Text) (value : Value) : Option Rows :=
  changeAt true (fun origin inner =>
    if path ≠ [] && origin ≠ .dotted then none else add? inner key value) path .header rows

/-- Opens the table of a header, `path` being all parts of its key but the last.  A table has
one header. -/
def openTable? (rows : Rows) (path : List Text) (key : Text) : Option Rows :=
  changeAt false (fun _ inner =>
    match get? inner key with
    | none => some (inner ++ [(key, .table .header [])])
    | some (.table .implied known) => some (set inner key (.table .header known))
    | some _ => none) path .header rows

/-- Opens one more table of a header in double brackets. -/
def openItem? (rows : Rows) (path : List Text) (key : Text) : Option Rows :=
  changeAt false (fun _ inner =>
    match get? inner key with
    | none => some (inner ++ [(key, .tables [[]])])
    | some (.tables items) => some (set inner key (.tables ([] :: items)))
    | some _ => none) path .header rows

end Rows

end StaticSite.Toml
