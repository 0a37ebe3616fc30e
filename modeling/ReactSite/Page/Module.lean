import ReactSite.Jsx
/-!
# Page modules — the text of the generated modules

A module is its imports, one function component, and its default export.  The layout is fixed; nothing is reformatted.
-/
namespace ReactSite
namespace Page

def reactImport : String := "import React from \"react\";"

/-- The import of a page that runs code once it is shown. -/
def effectImport : String := "import React, \x7b useEffect \x7d from \"react\";"

def helmetImport : String := "import \x7b Helmet \x7d from \"react-helmet\";"

def headTag : String := "Helmet"

/-- **The style sheets of a page** as one `style` element around a template literal. -/
def styleBlock (styles : List String) : String :=
  "<style>\x7b`" ++ String.ofList (Jsx.templateText ("\n".intercalate styles).toList) ++ "`\x7d</style>"

/-- A script without the line breaks around it. -/
def trimNewlines (script : String) : String :=
  String.ofList (((script.toList.dropWhile (· = '\n')).reverse.dropWhile (· = '\n')).reverse)

/-- **The scripts of a page** as an effect that runs once. -/
def effectBlock (scripts : List String) : String :=
  "  useEffect(() => \x7b\n" ++ "\n".intercalate (scripts.map trimNewlines) ++ "\n  \x7d, []);\n"

/-- **The text of a page's module.** -/
def render (imports : List String) (name content effect : String) : String :=
  "\n".intercalate imports ++ "\n\nfunction " ++ name ++ "() \x7b\n" ++ effect ++ "  return (\n    <>\n" ++ content ++
    "\n    </>\n  );\n\x7d\n\nexport default " ++ name ++ ";\n"

end Page
end ReactSite
