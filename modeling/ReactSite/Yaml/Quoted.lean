import ReactSite.Yaml.Cursor
import ReactSite.Html.Reference
/-!
# Quoted and plain scalars — the text of a scalar

A scalar may run over several lines: a line end in it counts as a space, an empty line as a line end.  Between double
quotes a backslash escapes; between single quotes a quote is written twice; a scalar without quotes ends where the
layout or an indicator ends it.
-/
namespace ReactSite
namespace Yaml

/-- The line end a break stands for. -/
def breakText (c : Char) : Char := if c = '\u2028' ∨ c = '\u2029' then c else '\n'

/-- What the breaks between two lines of a scalar become: the first a space unless more follow. -/
def folded (breaks : List Char) : List Char :=
  match breaks with
  | []      => []
  | b :: bs => if b ≠ '\n' then b :: bs else if bs = [] then [' '] else bs

/-- Past white space and line ends inside quotes, with the line ends met; a document marker there is an error. -/
def quotedGap (tabs : Bool) : Nat → Cursor → Option (List Char × Cursor)
  | 0, _        => none
  | fuel + 1, c =>
    if c.col == 0 && (c.atMarker '-' || c.atMarker '.') then none
    else match c.rest with
      | []     => some ([], c)
      | d :: _ =>
        if isBreak d then (quotedGap tabs fuel c.next).map fun r => (breakText d :: r.1, r.2)
        else if d = ' ' || (tabs && d = '\t') then quotedGap tabs fuel c.next
        else some ([], c)

/-- The characters that a one-letter escape stands for. -/
def escapes : List (Char × Char) :=
  [('0', '\x00'), ('a', '\x07'), ('b', '\x08'), ('t', '\t'), ('\t', '\t'), ('n', '\n'), ('v', '\x0b'), ('f', '\x0c'),
   ('r', '\r'), ('e', '\x1b'), (' ', ' '), ('"', '"'), ('\\', '\\'), ('/', '/'), ('N', '\x85'), ('_', '\xa0'),
   ('L', '\u2028'), ('P', '\u2029')]

/-- How many hexadecimal digits follow an escape letter. -/
def escapeWidth : Char → Nat
  | 'x' => 2
  | 'u' => 4
  | 'U' => 8
  | _   => 0

/-- **The text between double quotes**, from after the first quote. -/
def doubleQuoted : Nat → Cursor → Option (List Char × Cursor)
  | 0, _        => none
  | fuel + 1, c =>
    match c.rest with
    | []             => none
    | '"' :: _       => some ([], c.next)
    | '\\' :: e :: _ =>
      let after := c.next.next
      if isBreak e then do
        let (breaks, after) ← quotedGap true fuel after
        let (s, last) ← doubleQuoted fuel after
        return (breaks ++ s, last)
      else match escapes.lookup e with
        | some d => (doubleQuoted fuel after).map fun r => (d :: r.1, r.2)
        | none   =>
          let digits := after.rest.take (escapeWidth e)
          if escapeWidth e = 0 ∨ digits.length ≠ escapeWidth e ∨ !digits.all Html.isHexDigit then none
          else (doubleQuoted fuel (after.skip (escapeWidth e))).map fun r =>
            (Char.ofNat (Html.digitsValue 16 digits) :: r.1, r.2)
    | d :: _         =>
      if isGap d then
        let blanks := c.rest.takeWhile fun x => x = ' ' || x = '\t'
        let after := c.skip blanks.length
        match after.rest with
        | []     => none
        | x :: _ =>
          if isBreak x then do
            let (breaks, after) ← quotedGap true fuel after.next
            let (s, last) ← doubleQuoted fuel after
            return (folded (breakText x :: breaks) ++ s, last)
          else (doubleQuoted fuel after).map fun r => (blanks ++ r.1, r.2)
      else (doubleQuoted fuel c.next).map fun r => (d :: r.1, r.2)

/-- **The text between single quotes**, from after the first quote. -/
def singleQuoted : Nat → Cursor → Option (List Char × Cursor)
  | 0, _        => none
  | fuel + 1, c =>
    match c.rest with
    | []                => none
    | '\'' :: '\'' :: _ => (singleQuoted fuel c.next.next).map fun r => ('\'' :: r.1, r.2)
    | '\'' :: _         => some ([], c.next)
    | d :: _            =>
      if isGap d then
        let blanks := c.rest.takeWhile fun x => x = ' ' || x = '\t'
        let after := c.skip blanks.length
        match after.rest with
        | []     => none
        | x :: _ =>
          if isBreak x then do
            let (breaks, after) ← quotedGap true fuel after.next
            let (s, last) ← singleQuoted fuel after
            return (folded (breakText x :: breaks) ++ s, last)
          else (singleQuoted fuel after).map fun r => (blanks ++ r.1, r.2)
      else (singleQuoted fuel c.next).map fun r => (d :: r.1, r.2)

/-! ## Without quotes -/

/-- The characters that mean something between brackets. -/
def isFlowMark (c : Char) : Bool := c = ',' || c = '[' || c = ']' || c = '\x7b' || c = '\x7d'

/-- The characters no plain scalar starts with. -/
def plainBarred : List Char := ['#', '&', '*', '!', '|', '>', '\'', '"', '%', '@', '\x60']

/-- A plain scalar may start here. -/
def startsPlain (flow : Bool) : List Char → Bool
  | []        => false
  | c :: rest =>
    if c = '-' then !gapNext rest
    else if c = '?' ∨ c = ':' then !flow && !gapNext rest
    else !isGap c && !isFlowMark c && !plainBarred.contains c

/-- A plain scalar goes on: with no gap, no colon before a gap, and between brackets no bracket. -/
def plainGoesOn (flow : Bool) : List Char → Bool
  | []        => false
  | c :: rest =>
    !isGap c &&
    !(c = ':' && (gapNext rest || (flow && match rest with | d :: _ => isFlowMark d | [] => false))) &&
    !(flow && (isFlowMark c || c = '?'))

/-- The characters of a plain scalar up to the next gap or indicator. -/
def plainRun (flow : Bool) : List Char → List Char
  | []        => []
  | c :: rest => if plainGoesOn flow (c :: rest) then c :: plainRun flow rest else []

/-- Past the line ends and the indentation after a line of a plain scalar, with the line ends met; a document marker
ends the search. -/
def plainGap : Nat → Cursor → Option (List Char × Cursor)
  | 0, _        => none
  | fuel + 1, c =>
    if c.col == 0 && (c.atMarker '-' || c.atMarker '.') then none
    else match c.rest with
      | []     => some ([], c)
      | d :: _ =>
        if isBreak d then (plainGap fuel c.next).map fun r => (breakText d :: r.1, r.2)
        else if d = ' ' then plainGap fuel c.next
        else some ([], c)

/-- **The text of a plain scalar**, whose later lines stand at column `indent` at least, and the place after it. -/
def plain (flow : Bool) (indent : Nat) : Nat → Cursor → List Char × Cursor
  | 0, c        => ([], c)
  | fuel + 1, c =>
    let run := plainRun flow c.rest
    if run = [] ∨ c.at? '#' then ([], c)
    else
      let c := c.skip run.length
      let blanks := c.rest.takeWhile (· = ' ')
      let after := c.skip blanks.length
      match after.rest with
      | []     => (run, after)
      | x :: _ =>
        if isBreak x then
          match plainGap fuel after.next with
          | none                => (run, after.next)
          | some (breaks, next) =>
            if next.at? '#' || (!flow && next.col < indent) then (run, next)
            else
              let (more, last) := plain flow indent fuel next
              if more = [] then (run, last) else (run ++ folded (breakText x :: breaks) ++ more, last)
        else if blanks = [] ∨ after.at? '#' then (run, after)
        else
          let (more, last) := plain flow indent fuel after
          if more = [] then (run, last) else (run ++ blanks ++ more, last)

end Yaml
end ReactSite
