import ReactSite.Attributes
/-!
# Elements — the tree of a markup document

An element has a tag, attributes, the text before its first child, its children, and the text after its end tag (its
tail).  An absent text is the empty text.  The number an element carries is its identity: edits address it by that
number wherever it stands by then.
-/
namespace ReactSite

/-- **An element of a document.** -/
inductive Element where
  | mk (id : Nat) (tag : String) (attributes : Attributes) (text : String) (children : List Element) (tail : String)
deriving Inhabited, Repr

namespace Element

def id : Element → Nat
  | mk id _ _ _ _ _ => id

def tag : Element → String
  | mk _ tag _ _ _ _ => tag

def attributes : Element → Attributes
  | mk _ _ attributes _ _ _ => attributes

def text : Element → String
  | mk _ _ _ text _ _ => text

def children : Element → List Element
  | mk _ _ _ _ children _ => children

def tail : Element → String
  | mk _ _ _ _ _ tail => tail

def withTag : Element → String → Element
  | mk id _ attributes text children tail, tag => mk id tag attributes text children tail

def withAttributes : Element → Attributes → Element
  | mk id tag _ text children tail, attributes => mk id tag attributes text children tail

def withTail : Element → String → Element
  | mk id tag attributes text children _, tail => mk id tag attributes text children tail

/-! ## Document order -/

mutual

/-- **The elements of a tree in document order**, an element before its children. -/
def preorder : Element → List Element
  | mk id tag attributes text children tail =>
    mk id tag attributes text children tail :: preorderAll children

def preorderAll : List Element → List Element
  | []      => []
  | e :: es => preorder e ++ preorderAll es

end

mutual

/-- Numbers the elements in document order, starting with `n`; the second result is the next free number. -/
def numberFrom (n : Nat) : Element → Element × Nat
  | mk _ tag attributes text children tail =>
    let (children, next) := numberAllFrom (n + 1) children
    (mk n tag attributes text children tail, next)

def numberAllFrom (n : Nat) : List Element → List Element × Nat
  | []      => ([], n)
  | e :: es =>
    let (e, next) := numberFrom n e
    let (es, last) := numberAllFrom next es
    (e :: es, last)

end

/-- **Identities in document order**, the root being 0. -/
def numbered (e : Element) : Element := (numberFrom 0 e).1

/-- The first child with a tag, children of children not counted. -/
def childTagged? (e : Element) (tag : String) : Option Element :=
  e.children.find? (·.tag = tag)

/-! ## Edits -/

mutual

/-- Applies `f` to the element with a number. -/
def modify (n : Nat) (f : Element → Element) : Element → Element
  | mk id tag attributes text children tail =>
    if id = n then f (mk id tag attributes text children tail)
    else mk id tag attributes text (modifyAll n f children) tail

def modifyAll (n : Nat) (f : Element → Element) : List Element → List Element
  | []      => []
  | e :: es => modify n f e :: modifyAll n f es

end

/-- What taking an element out of a tree leaves: the rest of the tree, the element, and the text that its tail was
joined to. -/
structure Detached (α : Type) where
  rest : α
  element : Element
  joined : String

mutual

/-- **Takes out the element with a number**, which is below the root.  Its tail stays: it is added to the tail of the
sibling before it, or else to the text of its parent. -/
def detach (n : Nat) : Element → Option (Detached Element)
  | mk id tag attributes text children tail =>
    (detachAmong n text children).map fun d =>
      ⟨mk id tag attributes d.rest.1 d.rest.2 tail, d.element, d.joined⟩

/-- The same among siblings that follow `text`; the rest is the new text and the siblings left. -/
def detachAmong (n : Nat) (text : String) : List Element → Option (Detached (String × List Element))
  | []      => none
  | e :: es =>
    if e.id = n then some ⟨(text ++ e.tail, es), e, text ++ e.tail⟩
    else match detach n e with
      | some d => some ⟨(text, d.rest :: es), d.element, d.joined⟩
      | none   => (detachAmong n e.tail es).map fun d => ⟨(text, e.withTail d.rest.1 :: d.rest.2), d.element, d.joined⟩

end

/-! ## Texts -/

/-- A character that no stored text may hold: a control character other than tab and the line ends, or one of the two
noncharacters at the end of the basic plane. -/
def isForbidden (c : Char) : Bool :=
  (c.val < 0x20 && c.val != 0x09 && c.val != 0x0a && c.val != 0x0d) || c.val == 0xfffe || c.val == 0xffff

/-- **A text that can be stored** in a tree. -/
def isStorable (s : String) : Bool := s.toList.all fun c => !isForbidden c

/-- Every text and tail of a tree can be stored. -/
def textsStorable (e : Element) : Bool :=
  e.preorder.all fun x => isStorable x.text && isStorable x.tail

end Element

/-- **A document**: its root, and whether it declares itself to be XHTML, which changes how it is written out. -/
structure Document where
  root : Element
  xhtml : Bool := false
deriving Inhabited

end ReactSite
