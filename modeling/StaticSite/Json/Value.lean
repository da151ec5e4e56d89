import StaticSite.Text

/-!
# JSON values

A JSON text as it is written: numbers and strings are kept as literals, and the members of an
object in their order, repetitions included.
-/

namespace StaticSite.Json

/-- A JSON value.  The text of a string is what stands between its quotation marks, escapes and
all; so are the names of an object. -/
inductive Value where
  | null
  | boolean (value : Bool)
  | number (literal : Text)
  | string (literal : Text)
  | array (items : List Value)
  | object (members : List (Text × Value))
  deriving Inhabited

end StaticSite.Json
