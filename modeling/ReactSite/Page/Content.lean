import ReactSite.Markup.Xml
import ReactSite.Page.Edit
import ReactSite.Page.Module
import ReactSite.Text.Replace
/-!
# Content — a mapped document as a page module

The style sheets and scripts are read off before the tree is edited, for the edit takes them out.  Afterwards every text
is made readable as JSX, the head becomes the children of the head component, the body's content the rest of the page,
and the placeholders of imported assets lose their quotes.
-/
namespace ReactSite
namespace Page

mutual

/-- **Texts and tails as JSX reads them**; the text of a title stays one child. -/
def escapeTexts : Element → Element
  | .mk id tag attrs text children tail =>
    .mk id tag attrs
      (if tag = "title" ∧ children.isEmpty then String.ofList (Jsx.textChild text.toList)
       else String.ofList (Jsx.escapeText text.toList))
      (escapeTextsAll children)
      (String.ofList (Jsx.escapeText tail.toList))

def escapeTextsAll : List Element → List Element
  | []      => []
  | e :: es => escapeTexts e :: escapeTextsAll es

end

/-- **The head component** with the head's content and the style sheets; nothing when there is neither. -/
def headSection (xhtml : Bool) (root : Element) (styles : List String) : String :=
  let head := root.childTagged? "head"
  let filled := match head with
    | some h => !h.children.isEmpty || !Text.isBlankText h.text
    | none   => false
  if !filled && styles.isEmpty then ""
  else
    "<" ++ headTag ++ ">" ++ (match head with | some h => Xml.inner xhtml h | none => "") ++
      (if styles.isEmpty then "" else styleBlock styles) ++ "</" ++ headTag ++ ">"

def bodySection (xhtml : Bool) (root : Element) : String :=
  match root.childTagged? "body" with
  | some body => Xml.inner xhtml body
  | none      => ""

/-- **A quoted placeholder becomes an expression.** -/
def unquote (content identifier : String) : String :=
  let placeholder := Resolution.placeholder identifier
  String.ofList (Text.replaceAll ('"' :: placeholder.toList ++ ['"']) placeholder.toList content.toList)

/-- **The module of a mapped document.** -/
def moduleText (document : Document) (tags : List Tag) (outcome : Outcome) (name : String)
    (file : Option String := none) : Except Failure String := do
  let styles := stylesOf document.root
  let scripts := scriptsOf document.root
  let draft ← carryOut file document.root tags outcome.results
  let root := escapeTexts draft.root
  if !root.textsStorable then throw .forbiddenText
  let head := headSection document.xhtml root styles
  let content := outcome.identifiers.foldl unquote (head ++ bodySection document.xhtml root)
  let imports := (if scripts.isEmpty then reactImport else effectImport) ::
    (if head = "" then [] else [helmetImport]) ++ outcome.imports
  return render imports name content (if scripts.isEmpty then "" else effectBlock scripts)

end Page
end ReactSite
