import ReactSite.Mapping
/-!
# Edits — applying the mapping of a document to its tree

Tags and results are taken pairwise, in order.  Two lists that part (one ends first, or the tags differ) describe
different documents, and the edit stops there.  A tag that goes away takes its subtree with it, and what is decided
about the subtree's tags is still carried out there.
-/
namespace ReactSite
namespace Page

/-- **A tree being edited**, and the subtrees taken out of it. -/
structure Draft where
  root : Element
  detached : List Element := []

/-- The name an attribute is stored under; none for a name that cannot be stored. -/
def storedName? (name : String) : Option String :=
  if !Element.isStorable name then none
  else match nameForm name with
    | .plain          => some name
    | .bare localName => some localName
    | .namespaced     => some name
    | .empty          => none
    | .unclosed       => none

/-- **The attributes that can be stored**; the others are left out. -/
def storedAttributes (attrs : Attributes) : Attributes :=
  Attributes.ofList (attrs.filterMap fun a =>
    match storedName? a.1 with
    | some name => if Element.isStorable a.2 then some (name, a.2) else none
    | none      => none)

/-- A link that was given a route becomes a navigation link. -/
def becomesNavigation (tag : String) (attrs : Attributes) : Bool :=
  Text.lower tag = "a" && attrs.any (·.1 = Mapping.navigationAttribute)

/-- The element of a tag with its new attributes. -/
def withResult (tag : String) (attrs : Attributes) (e : Element) : Element :=
  let e := e.withAttributes (storedAttributes attrs)
  if becomesNavigation tag attrs then e.withTag Mapping.navigationTag else e

namespace Draft

/-- The tail that stays in place of an element is stored again with the text before it. -/
def checkJoined {α : Type} (d : Element.Detached α) : Except Failure Unit :=
  if d.element.tail ≠ "" ∧ !Element.isStorable d.joined then .error .forbiddenText else .ok ()

/-- Takes an element out of one of the subtrees that are out already. -/
def dropDetached (n : Nat) : List Element → Except Failure (List Element)
  | []      => .ok []
  | e :: es =>
    match e.detach n with
    | some d => do
      checkJoined d
      return d.element :: d.rest :: es
    | none   => return e :: (← dropDetached n es)

/-- **Takes out an element**; the root stays, having no parent. -/
def drop (w : Draft) (n : Nat) : Except Failure Draft :=
  match w.root.detach n with
  | some d => do
    checkJoined d
    return ⟨d.rest, d.element :: w.detached⟩
  | none   => return { w with detached := ← dropDetached n w.detached }

def modify (w : Draft) (n : Nat) (f : Element → Element) : Draft :=
  ⟨w.root.modify n f, w.detached.map (Element.modify n f)⟩

def elementOf? (w : Draft) (r : Tag) : Option Nat :=
  match r.element with
  | some n => some n
  | none   => (locate? w.root r).map (·.id)

/-- **Carries out one result.**  A tag that no element answers to is passed over. -/
def edit (w : Draft) (r : Tag) (m : MappedTag) : Except Failure Draft :=
  match w.elementOf? r, m.attributes with
  | none, _            => .ok w
  | some n, none       => w.drop n
  | some n, some attrs => .ok (w.modify n (withResult r.name attrs))

end Draft

/-- What a list is said to have where it has ended. -/
def endMark : String := "<end>"

/-- **Carries out the results from position `index` on.** -/
def carryOutFrom (file : Option String) : Nat → List Tag → List MappedTag → Draft → Except Failure Draft
  | _, [], [], w              => .ok w
  | index, r :: _, [], _      => .error (.of (.drift index r.name endMark) file)
  | index, [], m :: _, _      => .error (.of (.drift index endMark m.name) file)
  | index, r :: rs, m :: ms, w =>
    if Text.lower r.name ≠ Text.lower m.name then .error (.of (.drift index r.name m.name) file)
    else do carryOutFrom file (index + 1) rs ms (← w.edit r m)

/-- **Applies the mapping of a document to its tree.** -/
def carryOut (file : Option String) (root : Element) (tags : List Tag) (results : List MappedTag) :
    Except Failure Draft :=
  carryOutFrom file 0 tags results { root }

end Page
end ReactSite
