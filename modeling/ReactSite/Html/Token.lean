import ReactSite.Html.Reference
import ReactSite.Attributes
import ReactSite.Markup.Vocabulary
/-!
# Tokens — a page as a sequence of tags and texts

Comments, processing instructions and declarations leave no token.  After the start tag of an element whose content is
plain text, everything up to its end tag is one text.  A tag that the input breaks off in is no tag, though a start tag
so cut still shows that an element was about to begin.
-/
namespace ReactSite
namespace Html

/-- **A piece of a page.** -/
inductive Token where
  /-- Running text, its references replaced. -/
  | text (s : String)
  /-- A `<` that starts nothing. -/
  | lessSign
  | startTag (name : String) (attributes : Attributes) (selfClosing : Bool)
  /-- A start tag the input ends in. -/
  | cutTag (name : String)
  | endTag (name : String)
deriving Repr

/-- White space between the parts of a tag. -/
def isSpace (c : Char) : Bool := c = ' ' || c = '\t' || c = '\n' || c = '\x0c' || c = '\r'

def skipSpace (s : List Char) : List Char := s.dropWhile isSpace

/-- A tag name goes on. -/
def inTagName (c : Char) : Bool := !isSpace c && c != '/' && c != '>'

def inAttributeName (c : Char) : Bool := inTagName c && c != '='

def inBareValue (c : Char) : Bool := !isSpace c && c != '>'

theorem length_dropWhile_le (p : Char → Bool) (s : List Char) : (s.dropWhile p).length ≤ s.length :=
  (List.dropWhile_sublist p).length_le

/-! ## Attributes -/

/-- A value and what follows it; none when the input ends in it. -/
def scanValue : List Char → Option (List Char × List Char)
  | [] => none
  | c :: rest =>
    if c = '"' ∨ c = '\'' then
      match rest.dropWhile (· ≠ c) with
      | []         => none
      | _ :: after => some (rest.takeWhile (· ≠ c), after)
    else some ((c :: rest).takeWhile inBareValue, (c :: rest).dropWhile inBareValue)

theorem scanValue_length_le {s v after : List Char} (h : scanValue s = some (v, after)) :
    after.length ≤ s.length := by
  cases s with
  | nil => simp [scanValue] at h
  | cons c rest =>
    simp only [scanValue] at h
    split at h
    · have hle := length_dropWhile_le (· ≠ c) rest
      cases hd : rest.dropWhile (· ≠ c) with
      | nil => rw [hd] at h; cases h
      | cons d ds =>
        rw [hd] at h hle
        cases h
        simp only [List.length_cons] at hle ⊢
        omega
    · cases h
      exact length_dropWhile_le ..

inductive TagEnd where
  | plain
  | selfClosing
  | cut
deriving DecidableEq, Repr

def nameText (s : List Char) : String := String.ofList (s.map Char.toLower)

/-- The value of an attribute that is given without one: flags have their own name as value. -/
def flagDefault (name : String) : String :=
  if Vocabulary.flagNames.contains name then name else ""

/-- **Reads one attribute** that starts with `c`; none when the input ends in its value. -/
def scanAttribute (c : Char) (rest : List Char) : Option ((String × String) × List Char) :=
  let name := nameText (c :: rest.takeWhile inAttributeName)
  match skipSpace (rest.dropWhile inAttributeName) with
  | '=' :: after =>
    (scanValue (skipSpace after)).map fun r => ((name, String.ofList (decodeReferences true r.1)), r.2)
  | after => some ((name, flagDefault name), after)

theorem scanAttribute_length_le {c : Char} {rest after : List Char} {a : String × String}
    (h : scanAttribute c rest = some (a, after)) : after.length ≤ rest.length := by
  have h1 := length_dropWhile_le isSpace (rest.dropWhile inAttributeName)
  have h2 := length_dropWhile_le inAttributeName rest
  simp only [scanAttribute, skipSpace] at h
  split at h
  · next after' heq =>
    obtain ⟨r, hr, hr'⟩ := Option.map_eq_some_iff.1 h
    have h3 : r.2.length ≤ (after'.dropWhile isSpace).length :=
      scanValue_length_le (show scanValue _ = some (r.1, r.2) by rw [hr])
    have h4 := length_dropWhile_le isSpace after'
    cases hr'
    rw [heq] at h1
    simp only [List.length_cons] at h1
    omega
  · cases h
    omega

/-- The attributes of a tag, how it ends, and what follows it. -/
structure TagRest where
  attributes : List (String × String)
  ending : TagEnd
  after : List Char

/-- **Reads the attributes of a tag** up to its end. -/
def scanAttributes : List Char → TagRest
  | [] => ⟨[], .cut, []⟩
  | c :: rest =>
    if isSpace c then scanAttributes rest
    else if c = '>' then ⟨[], .plain, rest⟩
    else if c = '/' then
      match rest with
      | '>' :: after => ⟨[], .selfClosing, after⟩
      | rest         => scanAttributes rest
    else
      match _h : scanAttribute c rest with
      | none            => ⟨[], .cut, []⟩
      | some (a, after) =>
        let more := scanAttributes after
        { more with attributes := a :: more.attributes }
termination_by s => s.length
decreasing_by
  all_goals simp only [List.length_cons]
  · omega
  · omega
  · have := scanAttribute_length_le _h
    omega

theorem scanAttributes_length_le (s : List Char) : (scanAttributes s).after.length ≤ s.length := by
  fun_induction scanAttributes s with
  | case1 => simp
  | case2 c rest _ ih => simp only [List.length_cons]; omega
  | case3 => simp
  | case4 => simp only [List.length_cons]; omega
  | case5 => simp only [List.length_cons]; omega
  | case6 => simp
  | case7 c rest _ _ _ a after h more ih =>
    have h1 := scanAttribute_length_le h
    have h2 : more.after.length ≤ after.length := ih
    simp only [List.length_cons]
    omega

/-- The attributes of a tag: of one name, the first. -/
def firstOfEach (l : List (String × String)) : Attributes :=
  l.foldl (fun attrs a => if attrs.any (·.1 = a.1) then attrs else attrs ++ [a]) []

/-! ## Markup that leaves no token -/

/-- What follows the next `>`. -/
def afterBracket (s : List Char) : List Char := (s.dropWhile (· ≠ '>')).drop 1

/-- What follows the end of a comment whose start has been read. -/
def afterCommentBody : List Char → List Char
  | '-' :: '-' :: '>' :: rest        => rest
  | '-' :: '-' :: '!' :: '>' :: rest => rest
  | _ :: rest                        => afterCommentBody rest
  | []                               => []

/-- What follows a comment; one that is closed at once has no body. -/
def afterComment : List Char → List Char
  | '>' :: rest        => rest
  | '-' :: '>' :: rest => rest
  | s                  => afterCommentBody s

theorem afterBracket_length_le (s : List Char) : (afterBracket s).length ≤ s.length := by
  have := length_dropWhile_le (· ≠ '>') s
  simp only [afterBracket, List.length_drop]
  omega

theorem afterCommentBody_length_le (s : List Char) : (afterCommentBody s).length ≤ s.length := by
  fun_induction afterCommentBody s <;> simp_all <;> omega

theorem afterComment_length_le (s : List Char) : (afterComment s).length ≤ s.length := by
  unfold afterComment
  split
  · simp
  · simp only [List.length_cons]; omega
  · exact afterCommentBody_length_le _

/-! ## Elements of plain text -/

inductive Content where
  | markup
  /-- Plain text, with references in it or not, up to the end tag. -/
  | plain (references : Bool)
  /-- Plain text to the end of the input. -/
  | rest
deriving DecidableEq, Repr

/-- **What the content of an element is.** -/
def contentOf (name : String) : Content :=
  if ["script", "style", "xmp", "iframe", "noembed", "noframes"].contains name then .plain false
  else if ["title", "textarea"].contains name then .plain true
  else if name = "plaintext" then .rest
  else .markup

/-- `s` starts with the end tag of the element. -/
def startsEndTag (name s : List Char) : Bool :=
  match s with
  | '<' :: '/' :: rest =>
    name.isPrefixOf (rest.map Char.toLower) && match (rest.drop name.length).head? with
      | some c => !inTagName c
      | none   => false
  | _ => false

/-- The text before the end tag of an element, and what follows that text. -/
def splitAtEndTag (name : List Char) : List Char → List Char × List Char
  | [] => ([], [])
  | c :: rest =>
    if startsEndTag name (c :: rest) then ([], c :: rest)
    else (c :: (splitAtEndTag name rest).1, (splitAtEndTag name rest).2)

theorem splitAtEndTag_length_le (name s : List Char) : (splitAtEndTag name s).2.length ≤ s.length := by
  induction s with
  | nil => simp [splitAtEndTag]
  | cons c rest ih =>
    unfold splitAtEndTag
    split
    · simp
    · simp only [List.length_cons]; omega

/-! ## The sequence of tokens -/

def textToken (references : Bool) (s : List Char) : Token :=
  .text (String.ofList (if references then decodeReferences false s else s))

/-- The token of a start tag with the text that is its content, and what follows. -/
def startTokens (s : List Char) : List Token × List Char :=
  let name := nameText (s.takeWhile inTagName)
  let tag := scanAttributes (s.dropWhile inTagName)
  let attributes := firstOfEach tag.attributes
  match tag.ending, contentOf name with
  | .cut, _                    => ([.cutTag name], [])
  | .selfClosing, _            => ([.startTag name attributes true], tag.after)
  | .plain, .markup            => ([.startTag name attributes false], tag.after)
  | .plain, .rest              => ([.startTag name attributes false, textToken false tag.after], [])
  | .plain, .plain references =>
    let content := splitAtEndTag name.toList tag.after
    ([.startTag name attributes false, textToken references content.1], content.2)

/-- The token of an end tag, and what follows. -/
def endTokens (s : List Char) : List Token × List Char :=
  let tag := scanAttributes (s.dropWhile inTagName)
  (if tag.ending = .cut then [] else [.endTag (nameText (s.takeWhile inTagName))], tag.after)

/-- The tokens of what a `<` starts, and what follows. -/
def markupTokens : List Char → List Token × List Char
  | '/' :: []               => ([.text "</"], [])
  | '/' :: c :: rest        =>
    if c.isAlpha then endTokens (c :: rest) else ([], afterBracket (c :: rest))
  | '!' :: '-' :: '-' :: rest => ([], afterComment rest)
  | '!' :: rest             => ([], afterBracket rest)
  | '?' :: rest             => ([], afterBracket rest)
  | c :: rest               => if c.isAlpha then startTokens (c :: rest) else ([.lessSign], c :: rest)
  | []                      => ([.lessSign], [])

theorem startTokens_length_le (s : List Char) : (startTokens s).2.length ≤ s.length := by
  have h1 := scanAttributes_length_le (s.dropWhile inTagName)
  have h2 := length_dropWhile_le inTagName s
  simp only [startTokens]
  split
  · simp
  · simp only; omega
  · simp only; omega
  · simp
  · have h3 := splitAtEndTag_length_le (nameText (s.takeWhile inTagName)).toList
      (scanAttributes (s.dropWhile inTagName)).after
    simp only; omega

theorem endTokens_length_le (s : List Char) : (endTokens s).2.length ≤ s.length := by
  have h1 := scanAttributes_length_le (s.dropWhile inTagName)
  have h2 := length_dropWhile_le inTagName s
  simp only [endTokens]
  omega

theorem markupTokens_length_le (s : List Char) : (markupTokens s).2.length ≤ s.length := by
  unfold markupTokens
  split
  · simp
  · next c rest =>
    split
    · have := endTokens_length_le (c :: rest)
      simp only [List.length_cons] at this ⊢
      omega
    · have := afterBracket_length_le (c :: rest)
      simp only [List.length_cons] at this ⊢
      omega
  · next rest => have := afterComment_length_le rest; simp only [List.length_cons]; omega
  · next rest _ => have := afterBracket_length_le rest; simp only [List.length_cons]; omega
  · next rest => have := afterBracket_length_le rest; simp only [List.length_cons]; omega
  · split
    · exact startTokens_length_le _
    · simp
  · simp

/-- **The tokens of a page.** -/
def tokens : List Char → List Token
  | [] => []
  | c :: rest =>
    if c = '<' then (markupTokens rest).1 ++ tokens (markupTokens rest).2
    else textToken true (c :: rest.takeWhile (· ≠ '<')) :: tokens (rest.dropWhile (· ≠ '<'))
termination_by s => s.length
decreasing_by
  · have := markupTokens_length_le rest
    simp only [List.length_cons]; omega
  · have := length_dropWhile_le (· ≠ '<') rest
    simp only [List.length_cons]; omega

end Html
end ReactSite
