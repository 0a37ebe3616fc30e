import ReactSite.Text.CaseTable
/-!
# Lower case — full Unicode lower-casing, as names are compared

Every character has its own lower-case form, with two exceptions: U+0130 becomes two characters, and a capital sigma is
written in its final form at the end of a word, that is after a letter with case and not before one, looking past the
ignorable characters on either side.
-/
namespace ReactSite
namespace Text

/-- Membership in a table of closed intervals. -/
def inRanges (table : List (Nat × Nat)) (n : Nat) : Bool :=
  table.any fun r => r.1 ≤ n && n ≤ r.2

/-- The lower-case form of a character outside ASCII, away from the two exceptions. -/
def lowerWide (n : Nat) : Nat :=
  match lowerRuns.find? (fun r => r.first ≤ n && n ≤ r.last && (n - r.first) % r.step == 0) with
  | some r => (n + r.shift).toNat
  | none   => n

/-- The lower-case form of one character that is no capital sigma. -/
def lowerChar (c : Char) : List Char :=
  if c.val < 0x80 then [c.toLower]
  else if c.val = 0x130 then ['i', Char.ofNat 0x307]
  else [Char.ofNat (lowerWide c.toNat)]

/-- The nearest character that a sigma does not look past has case. -/
def casedNext (s : List Char) : Bool :=
  match s.dropWhile (fun c => inRanges caseIgnorableRanges c.toNat) with
  | c :: _ => inRanges casedRanges c.toNat
  | []     => false

/-- Lower-cases the rest of a text whose earlier part is `before`, last character first. -/
def lowerFrom (before : List Char) : List Char → List Char
  | [] => []
  | c :: rest =>
    (if c.val = 0x3a3 then [if casedNext before && !casedNext rest then 'ς' else 'σ'] else lowerChar c) ++
      lowerFrom (c :: before) rest

/-- **The lower-case form of a text.** -/
def lower (s : String) : String :=
  String.ofList (lowerFrom [] s.toList)

/-- The lower-case form as far as ASCII goes: markup names are folded by it when a document is read. -/
def lowerAscii (s : String) : String :=
  s.map Char.toLower

end Text
end ReactSite
