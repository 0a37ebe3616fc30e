import ReactSite.Page.Content
/-!
# Writing — a written page as pieces between marks

The text of a page is cut at its marks: each `<`, `/` and `>` of a tag, the space before an attribute and the `=` in it.
A piece is what follows a mark.  The values that are to become expressions are pieces of their own (`Piece.slot`), so the
page with quotes around them and the page without come from the same pieces.
-/
namespace ReactSite
namespace Xml

open Vocabulary

/-- **What follows a mark**: a text, or a value that is to become an expression. -/
inductive Piece where
  | plain (text : List Char)
  | slot (value : List Char)

namespace Piece

def quoted : Piece → List Char
  | plain text => text
  | slot value => '"' :: value ++ ['"']

def bare : Piece → List Char
  | plain text => text
  | slot value => value

end Piece

def written (f : Piece → List Char) (ps : List (Char × Piece)) : List Char := ps.flatMap fun p => p.1 :: f p.2

@[simp] theorem written_nil (f : Piece → List Char) : written f [] = [] := rfl

@[simp] theorem written_cons (f : Piece → List Char) (p : Char × Piece) (ps : List (Char × Piece)) :
    written f (p :: ps) = p.1 :: (f p.2 ++ written f ps) := rfl

@[simp] theorem written_append (f : Piece → List Char) (ps qs : List (Char × Piece)) :
    written f (ps ++ qs) = written f ps ++ written f qs := List.flatMap_append

/-! ## Attributes -/

/-- **The attributes of an element as they are written**, in XHTML with those that go along. -/
def writtenAttributes (xhtml : Bool) (tag : String) (attrs : Attributes) : Attributes :=
  if xhtml then
    attrs.map (fun a => (a.1, flagValue a)) ++
    ((match attrs.get? "name", attrs.get? "id" with
      | some name, none => if namedTags.contains tag then [("id", name)] else []
      | _, _            => []) ++
    (match attrs.get? "lang" with
      | some lang => [("xml:lang", lang)]
      | none      => []))
  else attrs

theorem attributesText_eq (xhtml : Bool) (tag : String) (attrs : Attributes) :
    attributesText xhtml tag attrs =
      String.join ((writtenAttributes xhtml tag attrs).map fun a => attributeText a.1 a.2) := by
  unfold attributesText writtenAttributes
  cases xhtml with
  | false => rfl
  | true =>
    generalize attrs.get? "name" = name
    generalize attrs.get? "id" = givenId
    generalize attrs.get? "lang" = lang
    have hown : (attrs.map fun a => (a.1, flagValue a)).map (fun a => attributeText a.1 a.2) =
        attrs.map fun a => attributeText a.1 (flagValue a) := by
      rw [List.map_map]
      rfl
    simp only [if_true, List.map_append, String.join_append, hown, String.append_assoc]
    by_cases ht : namedTags.contains tag = true
    · cases lang <;> cases givenId <;> cases name <;> simp only [ht] <;> simp
    · cases lang <;> cases givenId <;> cases name <;> simp only [ht] <;> simp

/-- The slots of a page: the number of an element, and the value that its `src` was given. -/
abbrev Slots := List (Nat × String)

def isSlot (slots : Slots) (n : Nat) (a : String × String) : Bool := a.1 = "src" && (n, a.2) ∈ slots

theorem mem_of_isSlot {slots : Slots} {n : Nat} {a : String × String} (h : isSlot slots n a = true) :
    (n, a.2) ∈ slots := by
  unfold isSlot at h
  simp at h
  exact h.2

/-- **The pieces of an attribute** of element `n`. -/
def attributePieces (slots : Slots) (n : Nat) (a : String × String) : List (Char × Piece) :=
  [(' ', .plain a.1.toList),
   ('=', if isSlot slots n a then .slot a.2.toList else .plain ('"' :: (escapeValue a.2).toList ++ ['"']))]

/-! ## Elements -/

/-- What comes after the attributes of an element: its text, the pieces of its children, its end tag and its tail. -/
def contentPieces (xhtml : Bool) (tag text tail : String) (isLeaf : Bool) (inner : List (Char × Piece)) :
    List (Char × Piece) :=
  if text = "" ∧ isLeaf then
    (if !xhtml then [('/', .plain []), ('>', .plain (escapeText tail).toList)]
     else if voidTags.contains tag then [(' ', .plain []), ('/', .plain []), ('>', .plain (escapeText tail).toList)]
     else [('>', .plain []), ('<', .plain []), ('/', .plain tag.toList), ('>', .plain (escapeText tail).toList)])
  else ('>', .plain (escapeText text).toList) :: inner ++
    [('<', .plain []), ('/', .plain tag.toList), ('>', .plain (escapeText tail).toList)]

mutual

/-- **The pieces of an element and its tail.** -/
def elementPieces (xhtml : Bool) (slots : Slots) : Element → List (Char × Piece)
  | .mk n tag attrs text children tail =>
    ('<', .plain tag.toList) :: (writtenAttributes xhtml tag attrs).flatMap (attributePieces slots n) ++
      contentPieces xhtml tag text tail children.isEmpty (elementsPieces xhtml slots children)

def elementsPieces (xhtml : Bool) (slots : Slots) : List Element → List (Char × Piece)
  | []      => []
  | e :: es => elementPieces xhtml slots e ++ elementsPieces xhtml slots es

end

section

variable {slots : Slots}

theorem written_attributePieces (hslots : ∀ s ∈ slots, escapeValue s.2 = s.2) (n : Nat) (a : String × String) :
    written Piece.quoted (attributePieces slots n a) = (attributeText a.1 a.2).toList := by
  have hspace : " ".toList = [' '] := by decide
  have hequals : "=\"".toList = ['=', '"'] := by decide
  have hquote : "\"".toList = ['"'] := by decide
  have hvalue : Piece.quoted (if isSlot slots n a then .slot a.2.toList
      else .plain ('"' :: (escapeValue a.2).toList ++ ['"'])) = '"' :: (escapeValue a.2).toList ++ ['"'] := by
    by_cases h : isSlot slots n a = true
    · rw [if_pos h, Piece.quoted, hslots _ (mem_of_isSlot h)]
    · rw [if_neg h, Piece.quoted]
  simp only [attributePieces, written_cons, written_nil, hvalue]
  simp [attributeText, Piece.quoted, hspace, hequals, hquote]

theorem written_attributesPieces (hslots : ∀ s ∈ slots, escapeValue s.2 = s.2) (n : Nat) (attrs : Attributes) :
    written Piece.quoted (attrs.flatMap (attributePieces slots n)) =
      (String.join (attrs.map fun a => attributeText a.1 a.2)).toList := by
  induction attrs with
  | nil => rfl
  | cons a attrs ih =>
    rw [List.flatMap_cons, written_append, written_attributePieces hslots, ih, List.map_cons, String.join_cons,
      String.toList_append]

theorem written_contentPieces (xhtml : Bool) (tag text tail : String) (isLeaf : Bool) (inner : List (Char × Piece)) :
    written Piece.quoted (contentPieces xhtml tag text tail isLeaf inner) =
      (if text = "" ∧ isLeaf then
        (if !xhtml then "/>" else if voidTags.contains tag then " />" else "></" ++ tag ++ ">").toList
       else ">".toList ++ (escapeText text).toList ++ written Piece.quoted inner ++ ("</" ++ tag ++ ">").toList) ++
      (escapeText tail).toList := by
  have hclose : ">".toList = ['>'] := by decide
  have hend : "</".toList = ['<', '/'] := by decide
  have hshort : "/>".toList = ['/', '>'] := by decide
  have hvoid : " />".toList = [' ', '/', '>'] := by decide
  have hempty : "></".toList = ['>', '<', '/'] := by decide
  unfold contentPieces
  by_cases h : text = "" ∧ isLeaf = true
  · rw [if_pos h, if_pos h]
    cases xhtml with
    | false => simp [Piece.quoted, hshort]
    | true =>
      by_cases hv : voidTags.contains tag = true
      · rw [if_neg (by simp), if_pos hv, if_neg (by simp), if_pos hv]
        simp [Piece.quoted, hvoid]
      · rw [if_neg (by simp), if_neg hv, if_neg (by simp), if_neg hv]
        simp [Piece.quoted, hempty, hclose]
  · rw [if_neg h, if_neg h]
    simp [Piece.quoted, hclose, hend]

mutual

/-- **With their quotes, the pieces make the text of the element.** -/
theorem written_elementPieces (hslots : ∀ s ∈ slots, escapeValue s.2 = s.2) (xhtml : Bool) : ∀ e : Element,
    written Piece.quoted (elementPieces xhtml slots e) = (element xhtml e).toList
  | .mk n tag attrs text children tail => by
    have hopen : "<".toList = ['<'] := by decide
    have hattrs := written_attributesPieces hslots n (writtenAttributes xhtml tag attrs)
    have hchildren := written_elementsPieces hslots xhtml children
    rw [elementPieces, element, attributesText_eq]
    simp only [String.toList_append, written_append, written_cons, hattrs, hopen, written_contentPieces, hchildren,
      Piece.quoted, List.cons_append, List.nil_append, List.append_assoc]
    by_cases h : text = "" ∧ children.isEmpty = true
    · rw [if_pos h, if_pos h]
    · rw [if_neg h, if_neg h]
      simp

theorem written_elementsPieces (hslots : ∀ s ∈ slots, escapeValue s.2 = s.2) (xhtml : Bool) : ∀ es : List Element,
    written Piece.quoted (elementsPieces xhtml slots es) = (elements xhtml es).toList
  | [] => by
    rw [elementsPieces, elements]
    rfl
  | e :: es => by
    rw [elementsPieces, elements, written_append, String.toList_append, written_elementPieces hslots,
      written_elementsPieces hslots]

end

end

end Xml
end ReactSite
