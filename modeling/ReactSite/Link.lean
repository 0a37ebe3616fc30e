import ReactSite.Files.Tree
import ReactSite.Naming
/-!
# Links — which links of a page lead to files of the site, and what the page imports for them

A link is internal when it names something that exists below the source root, or a directory with an `index.html`.  An
internal asset is imported under an identifier that is unique on the page.
-/
namespace ReactSite

/-- **Where a page stands**: the files there are, the root of the site, and the page's directory below it. -/
structure Surroundings where
  files : FileTree
  sourceRoot : Path
  directory : String := ""

/-- The document that stands for its directory. -/
def indexDocument : String := "index.html"

namespace Surroundings

/-- **A link's target relative to the source root**; a leading slash starts there. -/
def sitePath (site : Surroundings) (link : String) : String :=
  if link.toList.head? = some '/' then String.ofList (Lexical.normalizeList (Naming.withoutRoot link.toList))
  else Lexical.normalize (Lexical.join site.directory link)

def fullPath (site : Surroundings) (link : String) : String :=
  (Lexical.components (site.sitePath link)).foldl Lexical.join site.sourceRoot.toString

def target (site : Surroundings) (link : String) : Path := Path.ofString (site.fullPath link)

/-- **A link is internal** when its target exists, or an index document below it. -/
def linkExists (site : Surroundings) (link : String) : Bool :=
  site.files.pathExists (site.target link) || site.files.pathExists ((site.target link).child indexDocument)

/-- A link names a directory that an index document stands for. -/
def servesIndex (site : Surroundings) (link : String) : Bool :=
  site.files.isDirectory (site.target link) && site.files.pathExists ((site.target link).child indexDocument)

end Surroundings

/-! ## Imports -/

/-- **What a page imports**: the statements, the identifiers they bind, and the specifier each identifier stands for. -/
structure Imports where
  statements : List String := []
  identifiers : List String := []
  bindings : List (String × String) := []
  /-- The navigation component was imported. -/
  navigation : Bool := false
deriving Repr

namespace Imports

/-- A statement stands once. -/
def add (i : Imports) (statement : String) : Imports :=
  if i.statements.contains statement then i else { i with statements := i.statements ++ [statement] }

/-- A name with a number, for when the name itself is taken. -/
def suffixed (name : String) (k : Nat) : String := name ++ "_" ++ toString k

/-- **A name that is not taken**: the name itself, or else with the least number from 2 on that makes it free.  Among
one more candidate than there are taken names, one is free. -/
def freshName (taken : List String) (name : String) : String :=
  if !taken.contains name then name
  else (((List.range' 2 (taken.length + 1)).map (suffixed name)).find? (!taken.contains ·)).getD name

/-- **Binds a specifier to an identifier**; a specifier bound before keeps its identifier. -/
def identify (i : Imports) (specifier name : String) : String × Imports :=
  match i.bindings.lookup specifier with
  | some identifier => (identifier, i)
  | none            =>
    let identifier := freshName i.identifiers name
    (identifier, { i with bindings := i.bindings ++ [(specifier, identifier)],
                          identifiers := i.identifiers ++ [identifier] })

end Imports

/-! ## Resolution -/

/-- **What a link turned out to be.** -/
inductive Resolution where
  | empty (link : Option String)
  | external (link : String)
  /-- An asset, imported under an identifier. -/
  | internal (identifier : String)
  /-- A file imported for its effect. -/
  | importOnly
deriving DecidableEq, Repr

namespace Resolution

/-- The link or the identifier a resolution carries. -/
def value? : Resolution → Option String
  | empty link          => link
  | external link       => some link
  | internal identifier => some identifier
  | importOnly          => none

/-- An identifier in braces: the value of an attribute that is to become an expression. -/
def placeholder (identifier : String) : String := "\x7b" ++ identifier ++ "\x7d"

/-- **What is written into the attribute the link came from.** -/
def written? : Resolution → Option String
  | internal identifier => some (placeholder identifier)
  | r                   => r.value?

end Resolution

def effectImport (specifier : String) : String := "import \"" ++ specifier ++ "\";"

def valueImport (identifier specifier : String) : String :=
  "import " ++ identifier ++ " from \"" ++ specifier ++ "\";"

/-- **Classifies a link** and imports what it leads to. -/
def resolveLink (site : Surroundings) (link : Option String) (effectOnly : Bool) (i : Imports) :
    Resolution × Imports :=
  match link with
  | none => (.empty none, i)
  | some link =>
    if link = "" then (.empty (some link), i)
    else if !site.linkExists link then (.external link, i)
    else
      let specifier := Naming.specifier link site.directory
      if effectOnly then (.importOnly, i.add (effectImport specifier))
      else
        let (identifier, i) := i.identify specifier (Naming.identifier link)
        (.internal identifier, i.add (valueImport identifier specifier))

end ReactSite
