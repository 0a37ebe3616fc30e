import ReactSite.Html.ReferenceTable
/-!
# Character references — `&…` in the text and the attribute values of a page

A numeric reference names a code point, a named one stands in a table.  The semicolon may be missing after a number and
after the old names; in an attribute value a name without it is left alone when the text goes on like a query string.
What is no reference stays as it is.
-/
namespace ReactSite
namespace Html

/-- A named reference: its name, its characters, and whether it may go without a semicolon. -/
structure NamedReference where
  name : List Char
  chars : List Char
  bare : Bool

/-- **The names of characters.** -/
def namedReferences : List NamedReference :=
  ReferenceTable.codes.map fun e => ⟨e.1.toList, e.2.map Char.ofNat, ReferenceTable.bareNames.contains e.1⟩

/-- The code points that the numbers 0x80 to 0x9f stand for: those of the old Western code page. -/
def westernCodes : List Nat :=
  [0x20ac, 0x81, 0x201a, 0x192, 0x201e, 0x2026, 0x2020, 0x2021, 0x2c6, 0x2030, 0x160, 0x2039, 0x152, 0x8d, 0x17d, 0x8f,
   0x90, 0x2018, 0x2019, 0x201c, 0x201d, 0x2022, 0x2013, 0x2014, 0x2dc, 0x2122, 0x161, 0x203a, 0x153, 0x9d, 0x17e,
   0x178]

/-- **The character a number stands for**; a number that is no character stands for U+FFFD. -/
def numberedChar (n : Nat) : Char :=
  if n = 0 ∨ (0xd800 ≤ n ∧ n < 0xe000) ∨ 0x10ffff < n then '\ufffd'
  else if 0x80 ≤ n ∧ n < 0xa0 then Char.ofNat (westernCodes.getD (n - 0x80) n)
  else Char.ofNat n

def isHexDigit (c : Char) : Bool := c.isDigit || ('a' ≤ c && c ≤ 'f') || ('A' ≤ c && c ≤ 'F')

def digitValue (c : Char) : Nat :=
  if c.isDigit then c.toNat - 48 else c.toLower.toNat - 87

def digitsValue (base : Nat) (digits : List Char) : Nat :=
  digits.foldl (fun n c => n * base + digitValue c) 0

/-- A number with `digits`, and how long the reference is, `marker` characters before the digits included. -/
def numbered? (marker base : Nat) (digits rest : List Char) : Option (List Char × Nat) :=
  if digits = [] then none
  else some ([numberedChar (digitsValue base digits)],
    marker + digits.length + (if rest.head? = some ';' then 1 else 0))

/-- How much of `s` a name takes, with its semicolon if there is one. -/
def NamedReference.span? (r : NamedReference) (s : List Char) : Option Nat :=
  if !r.name.isPrefixOf s then none
  else if (s.drop r.name.length).head? = some ';' then some (r.name.length + 1)
  else if r.bare then some r.name.length
  else none

def longestNamed? (s : List Char) : Option (List Char × Nat) :=
  namedReferences.foldl (fun best r =>
    match r.span? s, best with
    | some n, some (cs, m) => if m < n then some (r.chars, n) else some (cs, m)
    | some n, none         => some (r.chars, n)
    | none, best           => best) none

/-- In a value, a name without a semicolon is no reference before `=`, a letter or a digit. -/
def isQueryLike (s : List Char) (n : Nat) : Bool :=
  (s.take n).getLast? ≠ some ';' &&
    match (s.drop n).head? with
    | some c => c = '=' || c.isAlphanum
    | none   => false

/-- **The reference that the text after an `&` is**: its characters and its length. -/
def reference? (inValue : Bool) (s : List Char) : Option (List Char × Nat) :=
  match s with
  | '#' :: x :: rest =>
    if x = 'x' ∨ x = 'X' then numbered? 2 16 (rest.takeWhile isHexDigit) (rest.dropWhile isHexDigit)
    else numbered? 1 10 ((x :: rest).takeWhile Char.isDigit) ((x :: rest).dropWhile Char.isDigit)
  | _ =>
    match longestNamed? s with
    | some (cs, n) => if inValue && isQueryLike s n then none else some (cs, n)
    | none         => none

/-- **A text with its references replaced by their characters.** -/
def decodeReferences (inValue : Bool) : List Char → List Char
  | [] => []
  | c :: rest =>
    if c = '&' then
      match reference? inValue rest with
      | some (ds, n) => ds ++ decodeReferences inValue (rest.drop n)
      | none         => c :: decodeReferences inValue rest
    else c :: decodeReferences inValue rest
termination_by s => s.length
decreasing_by all_goals simp only [List.length_drop, List.length_cons]; omega

end Html
end ReactSite
