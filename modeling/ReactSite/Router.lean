import ReactSite.Naming
import ReactSite.Page.Module
import ReactSite.Route
/-!
# Router — the pages of a site and the module that routes to them

Every page but the entry document has an entry: its route, and the module it is imported from.  The entry module imports
all of them and declares one route each; every other address shows the entry component.
-/
namespace ReactSite

/-- **A page of the site**: its route and the path of its module. -/
structure PageRoute where
  route : String
  modulePath : String
deriving DecidableEq, Repr

/-- The routes registered so far, in order. -/
structure Router where
  entryComponent : String := "App"
  entries : List PageRoute := []
deriving Repr

namespace Router

/-- A directory with slashes only, and none at its ends. -/
def cleanDirectory (dir : String) : String := String.ofList (Route.unslashed (Route.slashed dir.toList))

/-- **The entry of the document `stem` in directory `dir`.** -/
def entryFor (dir stem : String) : PageRoute :=
  let dir := cleanDirectory dir
  let component := Naming.component stem
  ⟨Route.ofDocument dir stem, "./" ++ (if dir = "" then component else Lexical.join dir component)⟩

def add (t : Router) (dir stem : String) : Router := { t with entries := t.entries ++ [entryFor dir stem] }

def cleared (t : Router) : Router := { t with entries := [] }

/-- **The identifier a page's module is imported under**: its path without the leading `./`, made safe. -/
def pageIdentifier (modulePath : String) : String :=
  "Page_" ++ String.ofList ((Naming.identifierList (modulePath.toList.drop 2)).dropWhile (· = '_'))

def importLine (p : PageRoute × String) : String := "import " ++ p.2 ++ " from \"" ++ p.1.modulePath ++ "\";"

def routeLine (path identifier : String) : String :=
  "      <Route path=\"" ++ path ++ "\" element=\x7b<" ++ identifier ++ " />\x7d />"

/-- **The text of an entry module** for pages and the identifiers they are imported under. -/
def render (pages : List (PageRoute × String)) (entryComponent entryPath : String) : String :=
  let imports := [Page.reactImport, "import ReactDOM from \"react-dom/client\";",
    "import \x7b BrowserRouter, Routes, Route \x7d from \"react-router-dom\";",
    "import " ++ entryComponent ++ " from \"" ++ entryPath ++ "\";"] ++ pages.map importLine
  let routes := pages.map (fun p => routeLine p.1.route p.2) ++ [routeLine "*" entryComponent]
  "\n".intercalate imports ++
    "\n\nconst root = ReactDOM.createRoot(document.getElementById(\"root\"));\nroot.render(\n  <BrowserRouter>\n" ++
    "    <Routes>\n" ++ "\n".intercalate routes ++ "\n    </Routes>\n  </BrowserRouter>\n);\n"

/-- **The entry module** of the registered pages. -/
def entryModule (t : Router) : String :=
  render (t.entries.map fun e => (e, pageIdentifier e.modulePath)) t.entryComponent ("./" ++ t.entryComponent)

end Router
end ReactSite
