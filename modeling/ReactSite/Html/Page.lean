import ReactSite.Html.Tree
import ReactSite.Markup.Reader
import ReactSite.Text.Utf8
/-!
# Pages — a reader of pages

Before the markup comes the prolog: white space, comments, and at most one document type, whose identifiers tell whether
the page is XHTML.
-/
namespace ReactSite
namespace Html

/-- A byte order mark is no part of the text. -/
def dropMark : List Char → List Char
  | '\ufeff' :: rest => rest
  | s                => s

/-- **The characters of a page as they are read**: line ends unified, no NUL, nothing blank at the start. -/
def clean (s : List Char) : List Char :=
  skipSpace ((Text.unifyNewlines (dropMark s)).map fun c => if c = '\x00' then '\ufffd' else c)

/-! ## The document type -/

/-- `s` starts with `word`, which is in lower case, in any case. -/
def startsWithWord (word s : List Char) : Bool := word.isPrefixOf (s.map Char.toLower)

/-- What follows the comments and processing instructions at the start of a page. -/
def afterMisc (s : List Char) : List Char :=
  match _h : skipSpace s with
  | '<' :: '!' :: '-' :: '-' :: rest => afterMisc (afterComment rest)
  | '<' :: '?' :: rest               => afterMisc (afterBracket rest)
  | s                                => s
termination_by s.length
decreasing_by
  · have h1 := length_dropWhile_le isSpace s
    have h2 := afterComment_length_le rest
    simp only [skipSpace] at _h
    rw [_h] at h1
    simp only [List.length_cons] at h1
    omega
  · have h1 := length_dropWhile_le isSpace s
    have h2 := afterBracket_length_le rest
    simp only [skipSpace] at _h
    rw [_h] at h1
    simp only [List.length_cons] at h1
    omega

/-- A quoted identifier, which a `>` also ends, and what follows. -/
def identifier : List Char → Option (List Char × List Char)
  | [] => none
  | q :: rest =>
    if q = '"' ∨ q = '\'' then
      let after := rest.dropWhile fun c => c ≠ q && c ≠ '>'
      some (rest.takeWhile (fun c => c ≠ q && c ≠ '>'), if after.head? = some q then after.drop 1 else after)
    else none

/-- **The public and the system identifier** of the document type; the empty text for one that is missing. -/
def identifiers (s : List Char) : List Char × List Char :=
  if startsWithWord "<!doctype".toList (afterMisc s) then
    let s := skipSpace ((skipSpace ((afterMisc s).drop 9)).dropWhile inTagName)
    if startsWithWord "public".toList s then
      match identifier (skipSpace (s.drop 6)) with
      | some (pub, rest) => (pub, ((identifier (skipSpace rest)).map (·.1)).getD [])
      | none             => ([], [])
    else if startsWithWord "system".toList s then
      ([], ((identifier (skipSpace (s.drop 6))).map (·.1)).getD [])
    else ([], [])
  else ([], [])

def xhtmlPublicIds : List String :=
  ["-//W3C//DTD XHTML 1.0 Strict//EN", "-//W3C//DTD XHTML 1.0 Transitional//EN", "-//W3C//DTD XHTML 1.0 Frameset//EN"]

def xhtmlSystemIds : List String :=
  ["http://www.w3.org/TR/xhtml1/DTD/xhtml1-strict.dtd", "http://www.w3.org/TR/xhtml1/DTD/xhtml1-transitional.dtd",
   "http://www.w3.org/TR/xhtml1/DTD/xhtml1-frameset.dtd"]

/-- **The page declares itself XHTML.** -/
def isXhtml (s : List Char) : Bool :=
  xhtmlPublicIds.contains (String.ofList (identifiers s).1) || xhtmlSystemIds.contains (String.ofList (identifiers s).2)

/-! ## Reading -/

/-- What is raised when no element comes of a text. -/
def emptyDocument : Raised := ⟨["ParserError"], "Document is empty"⟩

/-- **Reads a page.** -/
def read : PageReader := fun text =>
  let s := clean text.toList
  match treeOf? (tokens s) with
  | some root => .ok { root, xhtml := isXhtml s }
  | none      => .error emptyDocument

end Html
end ReactSite
