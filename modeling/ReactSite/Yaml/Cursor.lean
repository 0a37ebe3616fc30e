/-!
# Cursors — places in a configuration file

Layout is meaning in a configuration file: a cursor knows the column and the line it stands at.
-/
namespace ReactSite
namespace Yaml

/-- **A place in a file**: what is left of it, the column and the line. -/
structure Cursor where
  rest : List Char
  col : Nat := 0
  line : Nat := 0

def byteOrderMark : Char := '\ufeff'

def isBreak (c : Char) : Bool := c = '\n' || c = '\r' || c = '\x85' || c = '\u2028' || c = '\u2029'

/-- White space or a line end. -/
def isGap (c : Char) : Bool := c = ' ' || c = '\t' || isBreak c

/-- White space, a line end, or the end of the file comes next. -/
def gapNext : List Char → Bool
  | []     => true
  | c :: _ => isGap c

namespace Cursor

/-- One character on; a byte order mark takes no column. -/
def next (c : Cursor) : Cursor :=
  match c.rest with
  | []        => c
  | d :: rest =>
    if isBreak d then ⟨rest, 0, c.line + 1⟩
    else ⟨rest, if d = byteOrderMark then c.col else c.col + 1, c.line⟩

def skip (c : Cursor) : Nat → Cursor
  | 0     => c
  | n + 1 => c.next.skip n

def at? (c : Cursor) (d : Char) : Bool := c.rest.head? = some d

/-- Past spaces, line ends and comments. -/
def tokenFrom (inComment : Bool) (col line : Nat) : List Char → Cursor
  | []        => ⟨[], col, line⟩
  | d :: rest =>
    if isBreak d then tokenFrom false 0 (line + 1) rest
    else if inComment then tokenFrom true (col + 1) line rest
    else if d = ' ' then tokenFrom false (col + 1) line rest
    else if d = '#' then tokenFrom true (col + 1) line rest
    else ⟨d :: rest, col, line⟩

/-- **The place of the next token.** -/
def token (c : Cursor) : Cursor := tokenFrom false c.col c.line c.rest

/-- Three times `d` at the start of a line, standing alone: a document marker. -/
def atMarker (c : Cursor) (d : Char) : Bool :=
  c.col == 0 && match c.rest with
    | x :: y :: z :: rest => x = d && y = d && z = d && gapNext rest
    | _                   => false

def atEnd (c : Cursor) : Bool := c.rest.isEmpty || c.atMarker '-' || c.atMarker '.'

/-- An indicator that stands alone, such as the dash of a list item. -/
def atIndicator (c : Cursor) (d : Char) : Bool :=
  match c.rest with
  | x :: rest => x = d && gapNext rest
  | []        => false

end Cursor
end Yaml
end ReactSite
