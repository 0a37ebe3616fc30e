/-!
# Blank text — white space and trimming

White space is every character that counts as a blank in running text, the information separators U+001C–U+001F and the
next-line control U+0085 included.
-/
namespace ReactSite
namespace Text

/-- **White space.** -/
def isBlank (c : Char) : Bool :=
  (0x09 ≤ c.val && c.val ≤ 0x0d) || (0x1c ≤ c.val && c.val ≤ 0x20) || c.val == 0x85 || c.val == 0xa0 ||
    c.val == 0x1680 || (0x2000 ≤ c.val && c.val ≤ 0x200a) || c.val == 0x2028 || c.val == 0x2029 || c.val == 0x202f ||
    c.val == 0x205f || c.val == 0x3000

/-- Drops the characters that satisfy `p` at both ends. -/
def trimList (p : Char → Bool) (s : List Char) : List Char :=
  ((s.dropWhile p).reverse.dropWhile p).reverse

/-- Drops the white space at both ends. -/
def trim (s : String) : String :=
  String.ofList (trimList isBlank s.toList)

/-- **Nothing but white space**, possibly nothing at all. -/
def isBlankText (s : String) : Bool :=
  s.toList.all isBlank

end Text
end ReactSite
