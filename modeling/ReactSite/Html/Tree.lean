import ReactSite.Html.Token
import ReactSite.Html.Nesting
import ReactSite.Markup.Element
/-!
# Tree building — the element tree of a sequence of tokens

The elements that are open at a point of the page form a stack.  Each token acts on the stack: a start tag first closes
what cannot hold it and opens the `html`, `head` or `body` that the author left out, an end tag closes its element with
all that is open inside, a text goes to the innermost element.  What comes after the end of the root is lost.
-/
namespace ReactSite
namespace Html

/-- **An element whose end has not come yet**; its children stand last one first. -/
structure OpenElement where
  tag : String
  attributes : Attributes
  text : String := ""
  children : List Element := []

namespace OpenElement

def close (o : OpenElement) : Element := .mk 0 o.tag o.attributes o.text o.children.reverse ""

/-- A text joins the tail of the last child, or the text before the first. -/
def addText (o : OpenElement) (s : String) : OpenElement :=
  match o.children with
  | []        => { o with text := o.text ++ s }
  | e :: rest => { o with children := e.withTail (e.tail ++ s) :: rest }

def addChild (o : OpenElement) (e : Element) : OpenElement := { o with children := e :: o.children }

end OpenElement

/-- **The state of tree building.** -/
structure Builder where
  /-- The open elements, innermost first. -/
  stack : List OpenElement := []
  /-- The first root that was closed. -/
  root : Option Element := none
  headSeen : Bool := false
  bodySeen : Bool := false
  /-- How many start tags of `html`, `head` and `body` were not followed. -/
  discarded : Nat := 0

namespace Builder

def current (b : Builder) : Option String := b.stack.head?.map (·.tag)

def isOpen (b : Builder) (tag : String) : Bool := b.stack.any (·.tag = tag)

def push (b : Builder) (tag : String) (attributes : Attributes) : Builder :=
  { b with stack := { tag, attributes } :: b.stack,
           headSeen := b.headSeen || tag = "head", bodySeen := b.bodySeen || tag = "body" }

def pop (b : Builder) : Builder :=
  match b.stack with
  | []             => b
  | [o]            => { b with stack := [], root := b.root <|> some o.close }
  | o :: p :: rest => { b with stack := p.addChild o.close :: rest }

def popMany (b : Builder) : Nat → Builder
  | 0     => b
  | n + 1 => b.pop.popMany n

/-- **Closes what cannot hold an element `tag`.** -/
def autoClose (b : Builder) (tag : String) : Builder :=
  b.popMany (b.stack.takeWhile fun o => (closers o.tag).contains tag).length

/-- **Opens the elements that an element `tag` stands in** and that the author left out. -/
def imply (b : Builder) (tag : String) : Builder :=
  if tag = "html" then b
  else
    let b := if b.stack.isEmpty then b.push "html" [] else b
    if tag = "head" ∨ tag = "body" then b
    else if b.stack.length ≤ 1 ∧ headTags.contains tag then
      if b.headSeen || b.bodySeen then b else b.push "head" []
    else if frameTags.contains tag || b.bodySeen || b.isOpen "head" || b.isOpen "body" then b
    else b.push "body" []

/-- Makes way for an element `tag`. -/
def prepare (b : Builder) (tag : String) : Builder := (b.autoClose tag).imply tag

/-- A second `html`, `head` or `body` is not followed. -/
def isMisplaced (b : Builder) (tag : String) : Bool :=
  (tag = "html" && !b.stack.isEmpty) || (tag = "head" && b.stack.length != 1) || (tag = "body" && b.isOpen "body")

def startTag (b : Builder) (tag : String) (attributes : Attributes) (selfClosing : Bool) : Builder :=
  let b := b.prepare tag
  if b.isMisplaced tag then { b with discarded := b.discarded + 1 }
  else
    let b := b.push tag attributes
    if selfClosing || Vocabulary.voidTags.contains tag then b.pop else b

/-- **An end tag** closes its element, unless that is not open or something of a higher rank is open inside. -/
def endTag (b : Builder) (tag : String) : Builder :=
  if ["html", "head", "body"].contains tag && b.discarded != 0 then { b with discarded := b.discarded - 1 }
  else if !b.isOpen tag then b
  else
    let inside := b.stack.takeWhile (·.tag ≠ tag)
    if inside.any (rank tag < rank ·.tag) then b else b.popMany (inside.length + 1)

/-- A text goes to the innermost element; outside every element it is lost. -/
def addText (b : Builder) (s : String) : Builder :=
  match b.stack with
  | []        => b
  | o :: rest => { b with stack := (if s = "" then o else o.addText s) :: rest }

/-- Makes way for running text: the head cannot hold it. -/
def prepareText (b : Builder) : Builder :=
  (if b.current = some "head" then b.autoClose "p" else b).imply "p"

/-- **A text**; outside the body only its leading white space stays where it is. -/
def text (b : Builder) (s : String) : Builder :=
  if b.stack.isEmpty || b.current = some "html" || b.current = some "head" then
    let b := b.addText (String.ofList (s.toList.takeWhile isSpace))
    let rest := s.toList.dropWhile isSpace
    if rest = [] then b else b.prepareText.addText (String.ofList rest)
  else b.addText s

def step (b : Builder) : Token → Builder
  | .text s                              => b.text s
  | .lessSign                            => b.prepareText.addText "<"
  | .startTag tag attributes selfClosing => b.startTag tag attributes selfClosing
  | .cutTag tag                          => b.prepare tag
  | .endTag tag                          => b.endTag tag

/-- Closes everything; the result is the root. -/
def finish (b : Builder) : Option Element := (b.popMany b.stack.length).root

end Builder

/-- **The tree of a sequence of tokens**; none when no element comes of it. -/
def treeOf? (tokens : List Token) : Option Element :=
  (tokens.foldl Builder.step {}).finish

end Html
end ReactSite
