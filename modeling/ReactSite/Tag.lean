import ReactSite.Failure
import ReactSite.Markup.Element
import ReactSite.Text.Blank
/-!
# Tags — a document as the flat list of its tags

A tag has its name in lower case, the attributes of its element, and the identity of the element it was read from.  A
tag made by hand has no identity; its element is then looked up by name and attributes.
-/
namespace ReactSite

/-- **One tag of a document.** -/
structure Tag where
  name : String
  attributes : Attributes
  /-- The element the tag was read from, when it was. -/
  element : Option Nat := none
deriving Repr

/-! ## Names in braces

An attribute name may put a namespace in braces before the local name; an empty one means no namespace. -/

/-- **What an attribute name refers to.** -/
inductive NameForm where
  | plain
  /-- `local` in no namespace, written with empty braces. -/
  | bare (localName : String)
  | namespaced
  | empty
  | unclosed
deriving DecidableEq, Repr

def nameForm (name : String) : NameForm :=
  match name.toList with
  | []        => .empty
  | c :: rest =>
    if c ≠ '\x7b' then .plain
    else match rest.dropWhile (· ≠ '\x7d') with
      | []             => .unclosed
      | _ :: []        => .empty
      | _ :: localName => if rest.head? = some '\x7d' then .bare (String.ofList localName) else .namespaced

/-- **The value found under an attribute's own name.** -/
def valueUnder (attrs : Attributes) (name : String) : Except Failure String :=
  let found (key : String) := match attrs.get? key with
    | some value => .ok value
    | none       => .error (.unknownAttribute name)
  if !Element.isStorable name then .error .forbiddenText
  else match nameForm name with
    | .plain          => found name
    | .bare localName => found localName
    | .namespaced     => .error (.unknownAttribute name)
    | .empty          => .error .emptyAttributeName
    | .unclosed       => .error .openAttributeName

/-! ## Extraction -/

def tagOf (e : Element) : Except Failure Tag := do
  let attrs ← e.attributes.mapM fun a => do return (a.1, ← valueUnder e.attributes a.1)
  return { name := Text.lower e.tag, attributes := attrs, element := some e.id }

/-- **The tags of a tree**, in document order. -/
def tagsOf (root : Element) : Except Failure (List Tag) := root.preorder.mapM tagOf

/-- **The style sheets of a tree**: the texts of its `style` elements that are not blank. -/
def stylesOf (root : Element) : List String :=
  ((root.preorder.filter (·.tag = "style")).map (·.text)).filter (!Text.isBlankText ·)

def scriptTypes : List String :=
  ["", "text/javascript", "application/javascript", "application/ecmascript", "text/ecmascript", "module"]

/-- A script that stands in the page itself and runs there. -/
def isInlineScript (e : Element) : Bool :=
  e.tag = "script" && (e.attributes.get? "src").isNone &&
    scriptTypes.contains (Text.lower (Text.trim ((e.attributes.get? "type").getD "")))

/-- **The inline scripts of a tree** that are not blank. -/
def scriptsOf (root : Element) : List String :=
  ((root.preorder.filter isInlineScript).map (·.text)).filter (!Text.isBlankText ·)

/-- An element that a tag describes: the case of names does not matter. -/
def Tag.describes (r : Tag) (e : Element) : Bool :=
  Text.lower e.tag = Text.lower r.name && e.attributes.folded.sameAs r.attributes.folded

/-- **The first element that a tag describes.** -/
def locate? (root : Element) (r : Tag) : Option Element := root.preorder.find? r.describes

end ReactSite
