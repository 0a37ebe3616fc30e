import ReactSite.Path.Lexical
/-!
# Paths — the names of files and directories

A path is kept as its components; empty components and `.` vanish when it is read, `..` stays until the path is
resolved.  It starts at the root (one or two slashes, as written) or at the directory the program runs in.
-/
namespace ReactSite

/-- **A path**: how many slashes it starts with (none, one or two) and its components. -/
structure Path where
  slashes : Nat
  parts : List String
deriving DecidableEq, Repr, Inhabited

namespace Path

def ofString (s : String) : Path :=
  ⟨Lexical.rootSlashes s.toList,
   (Lexical.components s).filter fun part => part ≠ "" && part ≠ "."⟩

def isAbsolute (p : Path) : Bool := p.slashes != 0

/-- **The text of a path**; a path with nothing in it is written `.`. -/
def toString (p : Path) : String :=
  if p.slashes = 0 ∧ p.parts = [] then "."
  else String.ofList (List.replicate p.slashes '/') ++ "/".intercalate p.parts

/-- `b` read from directory `a`; an absolute `b` stands alone. -/
def join (a b : Path) : Path :=
  if b.isAbsolute then b else ⟨a.slashes, a.parts ++ b.parts⟩

def child (p : Path) (name : String) : Path := ⟨p.slashes, p.parts ++ [name]⟩

/-- The last component; empty when there is none. -/
def name (p : Path) : String := p.parts.getLast?.getD ""

def parent (p : Path) : Path := ⟨p.slashes, p.parts.dropLast⟩

/-- The last component cut before its last dot, and the part cut off; the dot neither starts nor ends the component. -/
def stemAndSuffix (s : List Char) : List Char × List Char :=
  let after := (s.reverse.takeWhile (· ≠ '.')).reverse
  let stem := ((s.reverse.dropWhile (· ≠ '.')).drop 1).reverse
  if stem = [] ∨ after = [] ∨ '.' ∉ s then (s, []) else (stem, '.' :: after)

def stem (p : Path) : String := String.ofList (stemAndSuffix p.name.toList).1

def suffix (p : Path) : String := String.ofList (stemAndSuffix p.name.toList).2

/-- A component that the directory reached so far leads to; the root is above itself. -/
def enter (reached : List String) (part : String) : List String :=
  if part = ".." then reached.dropLast else reached ++ [part]

/-- **The place a path leads to** from directory `base`, by its text alone. -/
def resolveFrom (base : List String) (p : Path) : List String :=
  p.parts.foldl enter (if p.isAbsolute then [] else base)

def ofPlace (place : List String) : Path := ⟨1, place⟩

/-- What is left of `place` below `top`, when it is at or below it. -/
def below? (place top : List String) : Option (List String) :=
  if top.isPrefixOf place then some (place.drop top.length) else none

/-- No file name holds the character NUL. -/
def hasNul (p : Path) : Bool := p.parts.any fun part => part.toList.contains '\x00'

end Path
end ReactSite
