import ReactSite.Markup.Element
import ReactSite.Markup.Vocabulary
/-!
# Written markup — an element tree as XML text

Plain documents use the short form `<x/>` for every element without content.  A document that declares itself XHTML is
written for readers of HTML: the short form, with a space, for the elements that never have content and only for those;
a name also as an `id`; a language also as `xml:lang`; a bare flag with its own name as value.
-/
namespace ReactSite
namespace Xml

open Vocabulary

/-- The three characters that markup itself uses, as entities. -/
def basicEntity : Char → List Char
  | '&' => ['&', 'a', 'm', 'p', ';']
  | '<' => ['&', 'l', 't', ';']
  | '>' => ['&', 'g', 't', ';']
  | c   => [c]

/-- A character of running text. -/
def textEntity (c : Char) : List Char :=
  if c = '\r' then ['&', '#', '1', '3', ';'] else basicEntity c

/-- A character of an attribute value between double quotes. -/
def valueEntity (c : Char) : List Char :=
  match c with
  | '"'  => ['&', 'q', 'u', 'o', 't', ';']
  | '\n' => ['&', '#', '1', '0', ';']
  | '\t' => ['&', '#', '9', ';']
  | c    => textEntity c

/-- The leading text of a section that is written without its own tags. -/
def escapeLeading (s : String) : String := String.ofList (s.toList.flatMap basicEntity)

def escapeText (s : String) : String := String.ofList (s.toList.flatMap textEntity)

def escapeValue (s : String) : String := String.ofList (s.toList.flatMap valueEntity)

/-- One attribute, with the space before it. -/
def attributeText (name value : String) : String := " " ++ name ++ "=\"" ++ escapeValue value ++ "\""

/-- The value an attribute has in an XHTML document. -/
def flagValue (a : String × String) : String :=
  if a.2 = "" ∧ flagNames.contains (Text.lowerAscii a.1) then a.1 else a.2

/-- The attributes of an element as they are written. -/
def attributesText (xhtml : Bool) (tag : String) (attrs : Attributes) : String :=
  if xhtml then
    String.join (attrs.map fun a => attributeText a.1 (flagValue a)) ++
    (match attrs.get? "name", attrs.get? "id" with
      | some name, none => if namedTags.contains tag then attributeText "id" name else ""
      | _, _            => "") ++
    (match attrs.get? "lang" with
      | some lang => attributeText "xml:lang" lang
      | none      => "")
  else String.join (attrs.map fun a => attributeText a.1 a.2)

mutual

/-- **An element and its tail as text.** -/
def element (xhtml : Bool) : Element → String
  | .mk _ tag attrs text children tail =>
    "<" ++ tag ++ attributesText xhtml tag attrs ++
    (if text = "" ∧ children.isEmpty then
      (if !xhtml then "/>" else if voidTags.contains tag then " />" else "></" ++ tag ++ ">")
     else ">" ++ escapeText text ++ elements xhtml children ++ "</" ++ tag ++ ">") ++
    escapeText tail

def elements (xhtml : Bool) : List Element → String
  | []      => ""
  | e :: es => element xhtml e ++ elements xhtml es

end

/-- **What an element holds**, without its own tags. -/
def inner (xhtml : Bool) (e : Element) : String :=
  escapeLeading e.text ++ elements xhtml e.children

end Xml
end ReactSite
