import ReactSite.Text.Quoted
/-!
# JSX text — writing a text so that a JSX reader reads it back

In JSX a brace opens an expression.  A literal brace in running text is therefore written as an expression of its own,
and the text of a title, which has to stay one child, becomes one string expression.  A style sheet stands in a template
literal.
-/
namespace ReactSite
namespace Jsx

def isBrace (c : Char) : Bool := c = '\x7b' || c = '\x7d'

/-- A brace as an expression that yields it. -/
def braceGroup (c : Char) : List Char := ['\x7b', '\'', c, '\'', '\x7d']

/-- **Running text**: every brace as an expression of its own. -/
def escapeText (s : List Char) : List Char :=
  s.flatMap fun c => if isBrace c then braceGroup c else [c]

/-- One character inside a double-quoted JSON string. -/
def jsonChar (c : Char) : List Char :=
  if c = '"' then ['\\', '"']
  else if c = '\\' then ['\\', '\\']
  else if c = '\n' then ['\\', 'n']
  else if c = '\r' then ['\\', 'r']
  else if c = '\t' then ['\\', 't']
  else if c = '\x08' then ['\\', 'b']
  else if c = '\x0c' then ['\\', 'f']
  else if c.val < 0x20 then '\\' :: 'u' :: Text.hexDigits 4 c.toNat
  else [c]

def jsonString (s : List Char) : List Char := '"' :: s.flatMap jsonChar ++ ['"']

/-- **One text child**: with a brace in it, a string expression; without, the text itself. -/
def textChild (s : List Char) : List Char :=
  if s.any isBrace then '\x7b' :: jsonString s ++ ['\x7d'] else s

/-- **The inside of a template literal**: backslashes, backquotes and `${` are escaped. -/
def templateText : List Char → List Char
  | []                  => []
  | '$' :: '\x7b' :: rest => '\\' :: '$' :: '\x7b' :: templateText rest
  | c :: rest           => if c = '\\' ∨ c = '\x60' then '\\' :: c :: templateText rest else c :: templateText rest

end Jsx
end ReactSite
