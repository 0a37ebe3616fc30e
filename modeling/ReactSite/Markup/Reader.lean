import ReactSite.Failure
import ReactSite.Markup.Element
import ReactSite.Text.Blank
/-!
# Page readers — from the text of a page to its document

How markup is read is the business of the reader.  A blank page stands for a page with an empty body, and the elements of
a document that was read are numbered in document order.
-/
namespace ReactSite

/-- **A reader of pages**: from a text to the document that it holds, or what is raised. -/
abbrev PageReader := String → Except Raised Document

namespace PageReader

/-- The page that a blank text stands for. -/
def emptyPage : String := "<html><body></body></html>"

/-- **Reads a page.** -/
def load (read : PageReader) (text : String) : Except Failure Document :=
  match read (if Text.isBlankText text then emptyPage else text) with
  | .ok document => .ok { document with root := document.root.numbered }
  | .error e     => .error (.raised e)

end PageReader
end ReactSite
