import ReactSite.Yaml.Flow
/-!
# Block collections — lists and mappings by layout

The items of a list stand behind dashes in one column, the keys of a mapping start in one column.  What belongs to an
item or a key stands further right; only a list under a key may stand in the key's own column.
-/
namespace ReactSite
namespace Yaml

/-- **What follows an entry of a collection in column `col`**: another entry, something of an outer collection, or
something that fits nowhere. -/
inductive Following where
  | entry
  | outside
  | misplaced
deriving DecidableEq

/-- What stands at the token `c` after an entry. -/
def following (col : Nat) (c : Cursor) : Following :=
  if c.atEnd || c.col < col then .outside else if c.col = col then .entry else .misplaced

mutual

/-- **The value at a token.**  Its later lines stand at column `indent` at least; a list or a mapping may start here
when `open?` says so, that is, unless a key stands before it on its line. -/
def blockNode : Nat → (indent : Nat) → (open? : Bool) → Cursor → Option (Value × Cursor)
  | 0, _, _, _                  => none
  | fuel + 1, indent, open?, c =>
    if c.atIndicator '-' then
      if open? then (blockItems fuel c.col c).map fun r => (.list r.1, r.2) else none
    else if c.at? '[' || c.at? '\x7b' then flowNode fuel c
    else do
      let (value, after) ← scalar? false indent c
      if (colonAfter? false c after).isNone then return (value, after)
      if !open? then none
      let (pairs, after) ← blockPairs fuel c.col c []
      return (.mapping pairs, after)

/-- The items of the list in column `col` from the dash at `c` on. -/
def blockItems : Nat → (col : Nat) → Cursor → Option (List Value × Cursor)
  | 0, _, _          => none
  | fuel + 1, col, c => do
    let first := c.next.token
    let (item, after) ←
      if !first.atEnd && col < first.col then blockNode fuel (col + 1) true first else some (.null, first)
    let next := after.token
    match following col next with
    | .misplaced => none
    | .outside   => return ([item], next)
    | .entry     =>
      if !next.atIndicator '-' then return ([item], next)
      let (items, last) ← blockItems fuel col next
      return (item :: items, last)

/-- The pairs of the mapping in column `col` from the key at `c` on, after the pairs read so far. -/
def blockPairs : Nat → (col : Nat) → Cursor → List (Value × Value) → Option (List (Value × Value) × Cursor)
  | 0, _, _, _              => none
  | fuel + 1, col, c, pairs => do
    let (key, after) ← scalar? false (col + 1) c
    let after ← colonAfter? false c after
    let first := after.token
    let (value, after) ←
      if first.atEnd then some (.null, first)
      else if col < first.col then blockNode fuel (col + 1) (first.line ≠ c.line) first
      else if first.col = col && first.atIndicator '-' then
        (blockItems fuel col first).map fun r => (.list r.1, r.2)
      else some (.null, first)
    let next := after.token
    let pairs := Value.putPair pairs key value
    match following col next with
    | .misplaced => none
    | .outside   => return (pairs, next)
    | .entry     => blockPairs fuel col next pairs

end

end Yaml
end ReactSite
