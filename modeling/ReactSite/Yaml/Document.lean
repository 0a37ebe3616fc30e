import ReactSite.Yaml.Block
/-!
# Documents — reading a configuration file

A file holds one document.  Three dashes may open it and three dots may close it; after directives the dashes must
stand.  Anything else around the document, such as a second one, makes the file malformed.
-/
namespace ReactSite
namespace Yaml

def isAllowed (c : Char) : Bool :=
  c = '\t' || c = '\n' || c = '\r' || c = '\x85' || (' ' ≤ c && c ≤ '~') || ('\xa0' ≤ c && c ≤ '\ufffd') ||
    '\uffff' < c

/-! ## Directives -/

/-- The name of a directive has letters, digits, dashes and underscores. -/
def isNameChar (c : Char) : Bool := c.isAlphanum || c = '-' || c = '_'

/-- The line goes on with a space or ends. -/
def spaceNext : List Char → Bool
  | []     => true
  | c :: _ => c = ' ' || isBreak c

/-- **The version of a version directive fits**: the major number is 1, and only a comment follows the minor one. -/
def versionFits (s : List Char) : Bool :=
  let s := s.dropWhile (· = ' ')
  let major := s.takeWhile Char.isDigit
  match s.drop major.length with
  | '.' :: rest =>
    let minor := rest.takeWhile Char.isDigit
    let rest := rest.drop minor.length
    let after := rest.dropWhile (· = ' ')
    major ≠ [] && minor ≠ [] && Html.digitsValue 10 major = 1 && spaceNext rest &&
      (after = [] || after.head? = some '#')
  | _ => false

/-- Past the directives, and whether there are any; a version is given once at most. -/
def directives : Nat → (versioned : Bool) → Cursor → Option (Bool × Cursor)
  | 0, _, _                => none
  | fuel + 1, versioned, c =>
    if !(c.col == 0 && c.at? '%') then some (versioned, c)
    else
      let line := (c.rest.drop 1).takeWhile (!isBreak ·)
      let name := line.takeWhile isNameChar
      let rest := line.drop name.length
      let isVersion := name = ['Y', 'A', 'M', 'L']
      if name = [] || !spaceNext rest || (isVersion && (versioned || !versionFits rest)) then none
      else (directives fuel (versioned || isVersion) (c.skip (line.length + 1)).token).map fun r => (true, r.2)

/-! ## The document -/

def isFinished : Nat → Cursor → Bool
  | 0, _        => false
  | fuel + 1, c => c.rest.isEmpty || (c.atMarker '.' && isFinished fuel (c.skip 3).token)

/-- The value of the document at a token. -/
def document (fuel : Nat) (c : Cursor) : Option (Value × Cursor) :=
  if c.atMarker '-' then
    let first := (c.skip 3).token
    if first.atEnd then some (.null, first) else blockNode fuel 0 (first.line ≠ c.line) first
  else blockNode fuel 0 true c

/-- **The value that a file holds**; a file without a document holds no value, a malformed one is none. -/
def parse? (text : List Char) : Option Value := do
  if !text.all isAllowed then none
  let text := if text.head? = some byteOrderMark then text.drop 1 else text
  let fuel := 3 * text.length + 8
  let start := (⟨text, 0, 0⟩ : Cursor).token
  let (directed, start) ← directives fuel false start
  if start.rest.isEmpty && !directed then return .null
  if start.atMarker '.' || (directed && !start.atMarker '-') then none
  let (value, after) ← document fuel start
  if isFinished fuel after.token then return value else none

/-- **A reader of configuration files** that never raises anything. -/
def read : Reader := fun text => .ok (parse? text)

end Yaml
end ReactSite
