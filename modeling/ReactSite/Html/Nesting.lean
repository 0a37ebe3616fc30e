import ReactSite.Markup.Vocabulary
/-!
# Nesting — which elements close each other

Authors leave end tags out.  A start tag closes the elements that cannot hold it, as listed here, and an end tag closes
the elements inside its own, unless one of those ranks higher.
-/
namespace ReactSite
namespace Html

def headings : List String := ["h1", "h2", "h3", "h4", "h5", "h6"]

def paragraphClosers : List String :=
  ["address", "blockquote", "body", "caption", "center", "col", "colgroup", "dd", "dir", "div", "dl", "dt", "fieldset",
   "form", "frameset", "h1", "h2", "h3", "h4", "h5", "h6", "head", "hr", "li", "listing", "menu", "ol", "p", "pre",
   "table", "tbody", "td", "tfoot", "th", "title", "tr", "ul", "xmp"]

def headClosers : List String :=
  ["a", "abbr", "acronym", "address", "b", "bdo", "big", "blockquote", "body", "br", "center", "cite", "code", "dd",
   "dfn", "dir", "div", "dl", "dt", "em", "fieldset", "font", "form", "frameset", "h1", "h2", "h3", "h4", "h5", "h6",
   "hr", "i", "iframe", "img", "kbd", "li", "listing", "map", "menu", "ol", "p", "pre", "q", "s", "samp", "small",
   "span", "strike", "strong", "sub", "sup", "table", "tt", "u", "ul", "var", "xmp"]

/-- **The start tags that close an open element.** -/
def closers (tag : String) : List String :=
  match tag with
  | "a"        => ["a", "fieldset", "table", "td", "th"]
  | "address"  => ["dd", "dl", "dt", "form", "li", "ul"]
  | "b"        => ["center", "p", "td", "th"]
  | "i"        => ["center", "p", "td", "th"]
  | "big"      => ["p"]
  | "s"        => ["p"]
  | "small"    => ["p"]
  | "strike"   => ["p"]
  | "tt"       => ["p"]
  | "caption"  => ["col", "colgroup", "tbody", "tfoot", "thead", "tr"]
  | "col"      => ["col", "colgroup", "tbody", "tfoot", "thead", "tr"]
  | "colgroup" => ["colgroup", "tbody", "tfoot", "thead", "tr"]
  | "dd"       => ["dt"]
  | "dir"      => ["dd", "dl", "dt", "form", "ul"]
  | "dl"       => ["form", "li"]
  | "dt"       => ["dd", "dl"]
  | "font"     => ["center", "td", "th"]
  | "form"     => ["form"]
  | "legend"   => ["fieldset"]
  | "li"       => ["li"]
  | "listing"  => ["dd", "dl", "dt", "fieldset", "form", "li", "table", "ul"]
  | "pre"      => ["dd", "dl", "dt", "fieldset", "form", "li", "table", "ul"]
  | "menu"     => ["dd", "dl", "dt", "form", "ul"]
  | "ol"       => ["form"]
  | "option"   => ["optgroup", "option"]
  | "p"        => paragraphClosers
  | "span"     => ["td", "th"]
  | "tbody"    => ["tbody", "tfoot"]
  | "thead"    => ["tbody", "tfoot"]
  | "td"       => ["tbody", "td", "tfoot", "th", "tr"]
  | "th"       => ["tbody", "td", "tfoot", "th", "tr"]
  | "tfoot"    => ["tbody"]
  | "tr"       => ["tbody", "tfoot", "tr"]
  | "u"        => ["p", "td", "th"]
  | "ul"       => ["address", "form", "menu", "pre"]
  | "head"     => headClosers
  | tag        => if headings.contains tag then ["fieldset", "form", "li", "p", "table"] else []

/-- **The rank of an element**: an end tag closes nothing that ranks above its own element. -/
def rank (tag : String) : Nat :=
  match tag with
  | "div"   => 150
  | "td"    => 160
  | "th"    => 160
  | "tr"    => 170
  | "thead" => 180
  | "tbody" => 180
  | "tfoot" => 180
  | "table" => 190
  | "head"  => 200
  | "body"  => 200
  | "html"  => 220
  | _       => 100

/-- The elements that belong into the head of a page. -/
def headTags : List String := ["script", "style", "meta", "link", "title", "base"]

/-- The elements of a page of frames, which has no body. -/
def frameTags : List String := ["noframes", "frame", "frameset"]

end Html
end ReactSite
