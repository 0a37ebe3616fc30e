import ReactSite.Link
import ReactSite.Tag
import ReactSite.Route
/-!
# Mapping — what becomes of each tag

Every tag's attributes go through the common pass.  Links, images, scripts, styles and style sheets are then treated by
a handler of their own; a handler may decide that the tag goes away.
-/
namespace ReactSite

/-- **The tags with a handler of their own.** -/
inductive Handler where
  | hyperlink
  | image
  | script
  | style
  | stylesheet
deriving DecidableEq, Repr

/-- **What a tag becomes**: its new attributes, or none when it goes away. -/
structure MappedTag where
  name : String
  attributes : Option Attributes
deriving Repr

/-- **Everything the mapping of a document decided.** -/
structure Outcome where
  results : List MappedTag := []
  imports : List String := []
  identifiers : List String := []
deriving Repr

namespace Mapping

def navigationImport : String := "import \x7b Link \x7d from \"react-router-dom\";"

def navigationTag : String := "Link"

def navigationAttribute : String := "to"

/-- **The handler for a tag.** -/
def handler? (r : Tag) : Option Handler :=
  match Text.lower r.name with
  | "link"   =>
    if Text.lower (Text.trim ((r.attributes.getFolded? "rel").getD "")) = "stylesheet" then some .stylesheet else none
  | "a"      => some .hyperlink
  | "img"    => some .image
  | "script" => some .script
  | "style"  => some .style
  | _        => none

/-- **The route a link leads to.** -/
def linkRoute (site : Surroundings) (href : String) : String :=
  let target := site.sitePath href
  if site.servesIndex href then Route.normalize target
  else
    let (directory, name) := Lexical.splitLast (Lexical.dropExtension target.toList)
    Route.ofDocument (String.ofList directory) (String.ofList name)

/-- The attributes of a navigation link: the address becomes the route. -/
def navigationAttributes (route : String) (attrs : Attributes) : Attributes :=
  Attributes.ofList (attrs.map fun a => if a.1 = "href" then (navigationAttribute, route) else a)

/-- The navigation component is imported once. -/
def importNavigation (i : Imports) : Imports :=
  if i.navigation then i else { i.add navigationImport with navigation := true }

def ofHyperlink (site : Surroundings) (tag : String) (attrs : Attributes) (i : Imports) : MappedTag × Imports :=
  match attrs.get? "href" with
  | some href =>
    if href ≠ "" && site.linkExists href then
      (⟨tag, some (navigationAttributes (linkRoute site href) attrs)⟩, importNavigation i)
    else (⟨tag, some attrs⟩, i)
  | none => (⟨tag, some attrs⟩, i)

/-- The source of an internal image or script becomes a placeholder for what is imported. -/
def ofSource (site : Surroundings) (tag : String) (attrs : Attributes) (i : Imports) : MappedTag × Imports :=
  match resolveLink site (attrs.get? "src") false i with
  | (.internal identifier, i) => (⟨tag, some (attrs.put "src" (Resolution.placeholder identifier))⟩, i)
  | (_, i)                    => (⟨tag, some attrs⟩, i)

/-- An inline script goes away: the page runs its code otherwise. -/
def ofScript (site : Surroundings) (tag : String) (attrs : Attributes) (i : Imports) : MappedTag × Imports :=
  if (attrs.get? "src").isNone then (⟨tag, none⟩, i) else ofSource site tag attrs i

def ofStylesheet (site : Surroundings) (tag : String) (attrs : Attributes) (i : Imports) : MappedTag × Imports :=
  (⟨tag, none⟩, (resolveLink site (attrs.get? "href") true i).2)

/-- **Maps one tag.** -/
def ofTag (site : Surroundings) (table : RenameTable) (r : Tag) (i : Imports) : MappedTag × Imports :=
  let attrs := Attributes.passed table r.attributes
  match handler? r with
  | none             => (⟨r.name, some attrs⟩, i)
  | some .hyperlink  => ofHyperlink site r.name attrs i
  | some .image      => ofSource site r.name attrs i
  | some .script     => ofScript site r.name attrs i
  | some .style      => (⟨r.name, none⟩, i)
  | some .stylesheet => ofStylesheet site r.name attrs i

def ofTags (site : Surroundings) (table : RenameTable) : List Tag → Imports → List MappedTag × Imports
  | [], i      => ([], i)
  | r :: rs, i =>
    let (m, i) := ofTag site table r i
    let (ms, i) := ofTags site table rs i
    (m :: ms, i)

/-- **Maps a document**: one result for each tag, in order. -/
def ofPage (site : Surroundings) (table : RenameTable) (tags : List Tag) : Outcome :=
  let (results, i) := ofTags site table tags {}
  ⟨results, i.statements, i.identifiers⟩

end Mapping
end ReactSite
