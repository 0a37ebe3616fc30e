import ReactSite.Path.Lexical
/-!
# Names — the identifiers and module specifiers of the generated code

An identifier made from a link or a file name keeps the ASCII letters and digits and has `_` for everything else.
-/
namespace ReactSite
namespace Naming

/-- An ASCII letter or digit. -/
def isWordChar (c : Char) : Bool := c.isAlpha || c.isDigit

def identifierChar (c : Char) : Char := if isWordChar c then c else '_'

def identifierList (s : List Char) : List Char :=
  match s.map identifierChar with
  | []        => ['_']
  | c :: rest => if c.isDigit then '_' :: c :: rest else c :: rest

/-- **An identifier for a link or a name**; one that would be empty or start with a digit gets a leading `_`. -/
def identifier (s : String) : String := String.ofList (identifierList s.toList)

/-- The first letter in upper case. -/
def capitalize : List Char → List Char
  | []        => []
  | c :: rest => c.toUpper :: rest

/-- **The component a document defines**, named after the document. -/
def component (stem : String) : String := String.ofList (capitalize (identifierList stem.toList))

/-- A specifier that names a file relative to the importing module starts with `./` or `../`. -/
def isRelativeSpecifier (s : List Char) : Bool :=
  ['.', '/'].isPrefixOf s || ['.', '.', '/'].isPrefixOf s

def relativeSpecifier (s : List Char) : List Char :=
  if isRelativeSpecifier s then s else '.' :: '/' :: s

/-- A link without its leading slashes; nothing left means the source root itself. -/
def withoutRoot (link : List Char) : List Char :=
  Lexical.orDot (link.dropWhile (· = '/'))

/-- **The module specifier for a link** on a page in directory `dir`: a leading slash starts at the source root. -/
def specifier (link dir : String) : String :=
  String.ofList (relativeSpecifier
    (if link.toList.head? = some '/' then Lexical.relativeList (withoutRoot link.toList) (Lexical.orDot dir.toList)
     else link.toList))

end Naming
end ReactSite
