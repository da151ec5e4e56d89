import StaticSite.Page.AdminScript

/-!
# Stamping a compiled page

A published page says in its body tag which source file it comes from, and carries the admin
script at the end of its body.
-/

namespace StaticSite

/-- Which stamps a page gets. -/
structure PageStamps where
  sourcePath : Bool := true
  adminScript : Bool := true
  deriving DecidableEq, Repr

namespace PageStamps

/-- The start of an opening body tag. -/
def bodyTag : Text := "<body".toList

/-- The closing body tag. -/
def bodyClose : Text := "</body>".toList

/-- The attribute that names a source file. -/
def sourcePathAttribute (path : Text) : Text :=
  " data-source-path=\"".toList ++ path ++ ['"']

/-- Names the source file in the first body tag, if there is one. -/
def stampSourcePath (path html : Text) : Text :=
  (Text.insertAfter? bodyTag (sourcePathAttribute path) html).getD html

/-- Puts the admin script on a new line before the first closing body tag, or at the end of a
page that has none. -/
def stampAdminScript (html : Text) : Text :=
  let script := '\n' :: StaticSite.adminScript
  (Text.insertBefore? bodyClose script html).getD (html ++ script)

/-- A compiled page with the stamps that are on. -/
def apply (stamps : PageStamps) (path html : Text) : Text :=
  let named := if stamps.sourcePath then stampSourcePath path html else html
  if stamps.adminScript then stampAdminScript named else named

end PageStamps

end StaticSite
