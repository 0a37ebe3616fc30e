import ReactSite.Text.Replace
/-!
# Lexical paths — what can be said of a slash-separated path without looking at any file

A path is a text; its components stand between the slashes.  Normalising drops the empty and the `.` components and lets
a `..` take away the component before it.  Nothing here knows which components exist.
-/
namespace ReactSite
namespace Lexical

open Text (splitAt)

def parentPart : List Char := ['.', '.']

/-- How many leading slashes a path keeps: two stay two, three or more count as one. -/
def rootSlashes : List Char → Nat
  | '/' :: '/' :: '/' :: _ => 1
  | '/' :: '/' :: _        => 2
  | '/' :: _               => 1
  | _                      => 0

/-- Puts one component on the stack of those kept so far, last one first. -/
def pushPart (rooted : Bool) (stack : List (List Char)) (part : List Char) : List (List Char) :=
  if part = [] ∨ part = ['.'] then stack
  else if part ≠ parentPart then part :: stack
  else match stack with
    | []           => if rooted then [] else [parentPart]
    | top :: below => if top = parentPart then parentPart :: stack else below

/-- The components of a path that are left after normalising. -/
def normalParts (path : List Char) : List (List Char) :=
  ((splitAt '/' path).foldl (pushPart (rootSlashes path != 0)) []).reverse

/-- The text `.` for a path of which nothing is left. -/
def orDot (path : List Char) : List Char :=
  if path = [] then ['.'] else path

/-- **The normal form of a path.** -/
def normalizeList (path : List Char) : List Char :=
  orDot (List.replicate (rootSlashes path) '/' ++ ['/'].intercalate (normalParts path))

/-- **One path after another**: a rooted second path stands alone. -/
def joinList (a b : List Char) : List Char :=
  if b.head? = some '/' then b
  else if a = [] ∨ a.getLast? = some '/' then a ++ b
  else a ++ '/' :: b

/-- How far two lists of components agree from the start. -/
def commonLength : List (List Char) → List (List Char) → Nat
  | a :: as, b :: bs => if a = b then commonLength as bs + 1 else 0
  | _, _             => 0

/-- **The way from directory `start` to `path`**, both relative to the same place, neither climbing to a place that the
other names. -/
def relativeList (path start : List Char) : List Char :=
  let p := normalParts path
  let s := normalParts start
  let common := commonLength p s
  orDot (['/'].intercalate (List.replicate (s.length - common) parentPart ++ p.drop common))

/-- **The last component and what stands before it**, the latter without its closing slashes unless all are. -/
def splitLast (path : List Char) : List Char × List Char :=
  let before := (path.reverse.dropWhile (· ≠ '/')).reverse
  let last := (path.reverse.takeWhile (· ≠ '/')).reverse
  if before.all (· = '/') then (before, last) else ((before.reverse.dropWhile (· = '/')).reverse, last)

/-- **A path without its extension**: the last dot of the last component and what follows go, if a character other than
a dot stands before that dot in the component. -/
def dropExtension (path : List Char) : List Char :=
  let before := (path.reverse.dropWhile (· ≠ '/')).reverse
  let last := (path.reverse.takeWhile (· ≠ '/')).reverse
  let body := last.dropWhile (· = '.')
  if '.' ∈ body then
    before ++ last.takeWhile (· = '.') ++ ((body.reverse.dropWhile (· ≠ '.')).drop 1).reverse
  else path

/-! ## On strings -/

def normalize (path : String) : String := String.ofList (normalizeList path.toList)
def join (a b : String) : String := String.ofList (joinList a.toList b.toList)
def relative (path start : String) : String := String.ofList (relativeList path.toList start.toList)

/-- The components of a path, the empty ones included. -/
def components (path : String) : List String := (splitAt '/' path.toList).map String.ofList

end Lexical
end ReactSite
