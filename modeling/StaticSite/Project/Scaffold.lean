import StaticSite.Text

/-!
# The scaffold of a new site

The directories and files that every new site starts with.
-/

namespace StaticSite.Scaffold

/-- The directories of a new site, in the order in which they are made. -/
def directories : List Text :=
  ["live", "components", "templates", "static", "layouts", ".sitecraft"].map String.toList

/-- The layout of public pages. -/
def guestLayout : Text :=
  Text.ofLines
    ["<!DOCTYPE html>",
     "<html lang=\"en\">",
     "<head>",
     "  <meta charset=\"UTF-8\">",
     "  <meta name=\"viewport\" content=\"width=device-width, initial-scale=1.0\">",
     "  <link rel=\"stylesheet\" href=\"/static/output.css\">",
     "  <title>\x7b\x7b slot \"title\" \x7d\x7d</title>",
     "</head>",
     "<body class=\"site-body\">",
     "  <div class=\"site-container\">",
     "    \x7b\x7b include \"./components/navigation.html\" \x7d\x7d",
     "",
     "    <main class=\"site-main\">",
     "      \x7b\x7b slot \"main\" \x7d\x7d",
     "    </main>",
     "",
     "    \x7b\x7b include \"./components/footer.html\" \x7d\x7d",
     "  </div>",
     "</body>",
     "</html>",
     ""]

/-- The navigation bar. -/
def navigation : Text :=
  Text.ofLines
    ["<nav class=\"site-nav sitecraft-component\">",
     "  <a href=\"/\" class=\"site-brand\">Home</a>",
     "</nav>",
     ""]

/-- The page footer. -/
def footer : Text :=
  Text.ofLines
    ["<footer class=\"site-footer sitecraft-component\">",
     "  Built with sitecraft.",
     "</footer>",
     ""]

/-- The first page, which fills the layout. -/
def indexPage : Text :=
  Text.ofLines
    ["\x7b\x7b layout \"./layouts/guest_layout.html\" \x7d\x7d",
     "",
     "\x7b\x7b block \"title\" \x7d\x7dHome\x7b\x7b endblock \x7d\x7d",
     "",
     "\x7b\x7b block \"main\" \x7d\x7d",
     "  <section class=\"hero\">",
     "    <h1>Welcome</h1>",
     "    <p>Edit <code>templates/index.html</code> and run <code>sitecraft build</code>.</p>",
     "  </section>",
     "\x7b\x7b endblock \x7d\x7d",
     "",
     "\x7b\x7b endlayout \x7d\x7d",
     ""]

/-- The style sheet source. -/
def inputStyle : Text :=
  Text.ofLines
    ["@import \"tailwindcss\";",
     ""]

/-- The files of a new site under their directories. -/
def files : List (Text × Text × Text) :=
  [("layouts".toList, "guest_layout.html".toList, guestLayout),
   ("components".toList, "navigation.html".toList, navigation),
   ("components".toList, "footer.html".toList, footer),
   ("templates".toList, "index.html".toList, indexPage),
   ("static".toList, "input.css".toList, inputStyle)]

end StaticSite.Scaffold
