import ReactSite.Yaml.Quoted
import ReactSite.Yaml.Scalar
/-!
# Flow collections — lists and mappings between brackets

Between brackets layout means nothing.  Entries stand between commas, and one more comma may follow the last of them.  A
key without a colon has no value; a key and its colon inside a list are a mapping of their own.
-/
namespace ReactSite
namespace Yaml

/-- **A scalar**, what it stands for and the place after it.  Quotes make it a text; without quotes its later lines
stand at column `indent` at least, and the brackets end it if it is between brackets. -/
def scalar? (flow : Bool) (indent : Nat) (c : Cursor) : Option (Value × Cursor) :=
  let fuel := c.rest.length + 1
  match c.rest with
  | '"' :: _  => (doubleQuoted fuel c.next).map fun r => (.text (String.ofList r.1), r.2)
  | '\'' :: _ => (singleQuoted fuel c.next).map fun r => (.text (String.ofList r.1), r.2)
  | rest      =>
    if startsPlain flow rest then
      let (text, after) := plain flow indent fuel c
      some (plainValue text, after)
    else none

/-- No key and its colon are further apart than this. -/
def maxKeyLength : Nat := 1024

/-- **The place after the colon of a key** that starts at `start` and ends at `after`: the colon is on the line the key
starts on, and outside brackets something separates it from the value. -/
def colonAfter? (flow : Bool) (start after : Cursor) : Option Cursor :=
  let colon := after.token
  if (if flow then colon.at? ':' else colon.atIndicator ':') && colon.line = start.line &&
      start.rest.length ≤ colon.rest.length + maxKeyLength then
    some colon.next
  else none

def entryEnds (c : Cursor) : Bool := c.at? ',' || c.at? ']' || c.at? '\x7d'

mutual

/-- **A value between brackets.** -/
def flowNode : Nat → Cursor → Option (Value × Cursor)
  | 0, _        => none
  | fuel + 1, c =>
    if c.at? '[' then (flowItems fuel c.next.token).map fun r => (.list r.1, r.2)
    else if c.at? '\x7b' then (flowPairs fuel c.next.token []).map fun r => (.mapping r.1, r.2)
    else if c.atEnd then none
    else scalar? true 0 c

/-- The value after the colon of a key; there may be none. -/
def flowValue : Nat → Cursor → Option (Value × Cursor)
  | 0, _        => none
  | fuel + 1, c => if entryEnds c.token then some (.null, c) else flowNode fuel c.token

/-- The items of a list from here to its closing bracket. -/
def flowItems : Nat → Cursor → Option (List Value × Cursor)
  | 0, _        => none
  | fuel + 1, c =>
    if c.at? ']' then some ([], c.next)
    else do
      let (first, after) ← flowNode fuel c
      let (item, after) ← match colonAfter? true c after with
        | none       => some (first, after)
        | some after =>
          if first.isKey then (flowValue fuel after).map fun r => (.mapping [(first, r.1)], r.2) else none
      let last := after.token
      if last.at? ']' then return ([item], last.next)
      if !last.at? ',' then none
      let (items, last) ← flowItems fuel last.next.token
      return (item :: items, last)

/-- The pairs of a mapping from here to its closing brace, after the pairs read so far. -/
def flowPairs : Nat → Cursor → List (Value × Value) → Option (List (Value × Value) × Cursor)
  | 0, _, _            => none
  | fuel + 1, c, pairs =>
    if c.at? '\x7d' then some (pairs, c.next)
    else do
      let (key, after) ← flowNode fuel c
      if !key.isKey then none
      let (value, after) ← match colonAfter? true c after with
        | none       => some (.null, after)
        | some after => flowValue fuel after
      let last := after.token
      let pairs := Value.putPair pairs key value
      if last.at? '\x7d' then return (pairs, last.next)
      if !last.at? ',' then none
      flowPairs fuel last.next.token pairs

end

end Yaml
end ReactSite
