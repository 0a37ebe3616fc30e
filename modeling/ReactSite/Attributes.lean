import ReactSite.Failure
import ReactSite.Text.Case
/-!
# Attributes — the ordered attributes of a tag, and the pass every tag's attributes go through

A name stands at most once; writing a name that is there already keeps its position and changes its value.
-/
namespace ReactSite

/-- Attribute names with their values, in order. -/
abbrev Attributes := List (String × String)

namespace Attributes

def get? (attrs : Attributes) (name : String) : Option String := attrs.lookup name

/-- **Writes one attribute**: in place when the name is there, at the end when it is not. -/
def put (attrs : Attributes) (name value : String) : Attributes :=
  if attrs.any (·.1 = name) then attrs.map fun a => if a.1 = name then (name, value) else a
  else attrs ++ [(name, value)]

/-- Attributes written one after the other. -/
def ofList (l : List (String × String)) : Attributes := l.foldl (fun attrs a => attrs.put a.1 a.2) []

/-- The value of the first attribute whose name in lower case is `name`. -/
def getFolded? (attrs : Attributes) (name : String) : Option String :=
  (attrs.find? fun a => Text.lower a.1 = name).map (·.2)

def folded (attrs : Attributes) : Attributes := ofList (attrs.map fun a => (Text.lower a.1, a.2))

/-- The same names with the same values, in any order. -/
def sameAs (a b : Attributes) : Bool :=
  a.length == b.length && a.all fun x => b.get? x.1 == some x.2

end Attributes

/-- **The rename table**: the property name for a lower-case attribute name. -/
abbrev RenameTable := List (String × String)

/-- **A lower-case attribute name with a property name that is no text**: whether that can be no key either, and what is raised when
the name is needed. -/
structure Misname where
  name : String
  unhashable : Bool
  error : Raised
deriving DecidableEq, Repr

namespace Attributes

/-- Inline styles and event handlers have no place in the generated code. -/
def isDropped (name : String) : Bool :=
  Text.lower name = "style" || ['o', 'n'].isPrefixOf (Text.lower name).toList

/-- The name an attribute is written under. -/
def renamed (table : RenameTable) (name : String) : String := (table.lookup (Text.lower name)).getD name

/-- **The pass every tag's attributes go through**: what is dropped goes, the rest is renamed, values stay. -/
def passed (table : RenameTable) (attrs : Attributes) : Attributes :=
  ofList ((attrs.filter fun a => !isDropped a.1).map fun a => (renamed table a.1, a.2))

end Attributes
end ReactSite
