import ReactSite.Path.Lexical
/-!
# Routes — the address of a page inside the generated application

A route is `/` or a list of components joined by slashes, without a slash at either end.
-/
namespace ReactSite
namespace Route

/-- Both kinds of separator become slashes. -/
def slashed (s : List Char) : List Char := s.map fun c => if c = '\\' then '/' else c

/-- Drops the slashes at both ends. -/
def unslashed (s : List Char) : List Char :=
  ((s.dropWhile (· = '/')).reverse.dropWhile (· = '/')).reverse

def normalizeList (path : List Char) : List Char :=
  let bare := unslashed (if path = [] then [] else Lexical.normalizeList (slashed path))
  if bare = [] ∨ bare = ['.'] then ['/'] else bare

/-- **The route a path stands for.** -/
def normalize (path : String) : String := String.ofList (normalizeList path.toList)

/-- **The route of the document `stem` in directory `dir`**; an index document has its directory's route. -/
def ofDocument (dir stem : String) : String :=
  if stem = "index" then normalize dir else normalize (Lexical.join dir stem)

end Route
end ReactSite
