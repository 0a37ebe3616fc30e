import ReactSite.Failure
/-!
# Values — what a configuration file says

A configuration file holds scalars, lists and mappings.  A mapping keeps its keys in order, each once; writing a key
again changes its value in place.
-/
namespace ReactSite
namespace Yaml

/-- **What counts as one key** of a mapping: a truth value is the number 0 or 1. -/
inductive Key where
  | null
  | number (n : Int)
  | text (s : String)
  /-- A key of another kind, by a name of its own. -/
  | other (name : String)
deriving DecidableEq, Repr

/-- **What there is to know of a value of another kind**, such as a number with a point, a date or a set; or of one that has no
text, such as a number of too many digits and a list that holds one. -/
structure Other (α : Type) where
  type : String
  /-- The value inside a list or a mapping, as it is shown there. -/
  shown : String
  /-- The value used as a text, or what is raised then. -/
  text : Except Raised String
  isEmpty : Bool := false
  /-- The key that it is, if it can be one. -/
  key? : Option Key := none
  /-- What it holds, if it can stand for a list. -/
  items? : Option (List α) := none

/-- **A configured value.** -/
inductive Value where
  | null
  | bool (b : Bool)
  | int (n : Int)
  | text (s : String)
  | list (items : List Value)
  | mapping (pairs : List (Value × Value))
  | other (value : Other Value)
deriving Inhabited

/-- **A reader of configuration files**: from a text to the value that it says, none if the text is malformed, or what is
raised. -/
abbrev Reader := List Char → Except Raised (Option Value)

namespace Value

def typeName : Value → String
  | null      => "NoneType"
  | bool _    => "bool"
  | int _     => "int"
  | text _    => "str"
  | list _    => "list"
  | mapping _ => "dict"
  | other o   => o.type

/-- **The key that a value is**; a list or a mapping is none. -/
def key? : Value → Option Key
  | null      => some .null
  | bool b    => some (.number (if b then 1 else 0))
  | int n     => some (.number n)
  | text s    => some (.text s)
  | list _    => none
  | mapping _ => none
  | other o   => o.key?

def isKey (v : Value) : Bool := v.key?.isSome

/-- What a list holds, and what stands for a list: the keys of a mapping, the characters of a text. -/
def items? : Value → Option (List Value)
  | list items    => some items
  | mapping pairs => some (pairs.map (·.1))
  | text s        => some (s.toList.map fun c => text (String.singleton c))
  | other o       => o.items?
  | _             => none

/-- The values are one key. -/
def sameKey (a b : Value) : Bool := a.isKey && a.key? == b.key?

def putPair (pairs : List (Value × Value)) (key value : Value) : List (Value × Value) :=
  if pairs.any (sameKey key ·.1) then pairs.map fun p => if sameKey key p.1 then (p.1, value) else p
  else pairs ++ [(key, value)]

/-- **One mapping over another**, key by key. -/
def mergePairs (base upper : List (Value × Value)) : List (Value × Value) :=
  upper.foldl (fun pairs p => putPair pairs p.1 p.2) base

def getPair? (pairs : List (Value × Value)) (name : String) : Option Value :=
  (pairs.find? fun p => sameKey (text name) p.1).map (·.2)

/-- **A value that says nothing**: no value, false, zero, or an empty text, list or mapping. -/
def isEmpty : Value → Bool
  | null       => true
  | bool b     => !b
  | int n      => n == 0
  | text s     => s == ""
  | list l     => l.isEmpty
  | mapping ps => ps.isEmpty
  | other o    => o.isEmpty

mutual

/-- A value inside a list or a mapping, as it is shown there. -/
def shown : Value → String
  | null          => "None"
  | bool b        => if b then "True" else "False"
  | int n         => toString n
  | text s        => Text.quoted s
  | list items    => "[" ++ ", ".intercalate (shownItems items) ++ "]"
  | mapping pairs => "\x7b" ++ ", ".intercalate (shownPairs pairs) ++ "\x7d"
  | other o       => o.shown

def shownItems : List Value → List String
  | []      => []
  | v :: vs => shown v :: shownItems vs

def shownPairs : List (Value × Value) → List String
  | []           => []
  | (k, v) :: ps => (shown k ++ ": " ++ shown v) :: shownPairs ps

end

/-- **A value used as a text.** -/
def asText : Value → Except Raised String
  | text s  => .ok s
  | other o => o.text
  | v       => .ok v.shown

end Value
end Yaml
end ReactSite
