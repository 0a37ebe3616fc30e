import ReactSite.Markup.Reader
import ReactSite.Page.Content
import ReactSite.Project.Scaffold
import ReactSite.Router
/-!
# Projects — converting the documents of a site one by one

A project lays a source directory out again in the output directory of a React application.  A document becomes a module
named after it, every other file keeps its name.  The entry document becomes the entry component.
-/
namespace ReactSite

/-- **What a conversion works on**: the files, and the routes registered so far. -/
structure Workspace where
  files : FileTree
  routes : Router := {}

/-- **A step of a conversion**, which may fail and leaves a workspace either way. -/
abbrev Action (α : Type) := ExceptT Failure (StateM Workspace) α

namespace Action

def ofFiles {α : Type} (a : FileAction FileError α) : Action α := ExceptT.mk fun w =>
  let (r, files) := a w.files
  (r.mapError Failure.file, { w with files })

/-- A file action that fails in its own words, as a step. -/
def onFiles {α : Type} (a : FileAction Failure α) : Action α := ExceptT.mk fun w =>
  let (r, files) := a w.files
  (r, { w with files })

def ofExcept {α : Type} (r : Except Failure α) : Action α := ExceptT.mk fun w => (r, w)

def look (path : Path) : Action (Option FileNode) := do
  ofExcept (((← get).files.look path).mapError Failure.file)

/-- Runs a step with routes of its own; the routes are afterwards what they were. -/
def withRoutes {α : Type} (routes : Router) (a : Action α) : Action α := ExceptT.mk fun w =>
  let (r, w') := a { w with routes }
  (r, { w' with routes := w.routes })

end Action

/-- **A project**: where it reads, where it writes, its rules, and what reads its pages. -/
structure Project where
  source : Path
  dest : Path
  rules : Rules := {}
  renames : RenameTable
  misnames : List Misname := []
  pages : PageReader

namespace Project

def output (p : Project) : Path := p.dest.join (Path.ofString p.rules.outputSubdir)

/-- **The source exists, and the destination has its output directory**; a destination that is entirely missing is
scaffolded if the rules allow it. -/
def ensureRoots (p : Project) (runner : Scaffold.Runner) : FileAction Failure Unit := do
  if (← look p.source) ≠ some .directory then throw (.of .sourceMissing p.source.toString)
  if (← look p.dest).isNone then
    if !p.rules.scaffoldEnabled then throw (.of .destinationMissing p.dest.toString)
    Scaffold.make runner p.dest p.rules.scaffoldCommands
  if (← look p.output) ≠ some .directory then throw (.of (.notGenerated p.output.name) p.dest.toString)
where
  look (path : Path) : FileAction Failure (Option FileNode) := do
    match (← get).look path with
    | .ok node => return node
    | .error e => throw (.file e)

/-! ## Places -/

/-- A document, by its suffix. -/
def isPage (p : Project) (path : Path) : Bool := p.rules.markupExtensions.contains (Text.lower path.suffix)

/-- **A path relative to the source root**, `base` being where relative roots start.  What leads out of the root, or has
a NUL in its name, is no source file. -/
def relative (p : Project) (base : Location) (path : Path) : Except Failure Path :=
  let full := p.source.join path
  let outside := Failure.of .outsideSource full.toString
  if full.hasNul then .error outside
  else match Path.below? (full.resolveFrom base) (p.source.resolveFrom base) with
    | some parts => .ok ⟨0, parts⟩
    | none       => .error outside

/-- The entry document, by its relative path. -/
def isEntryPath (p : Project) (relative : Path) : Bool := relative.toString = p.rules.entryDocument

/-- The name of a module can be made: the extension is only put behind the name of a document that is not the entry document, and has
to be a text there. -/
def checkName (p : Project) (relative : Path) : Except Failure Unit :=
  if p.isPage relative && !p.isEntryPath relative then p.rules.ask .pageModule else .ok ()

def namesEntry (p : Project) (base : Location) (path : Path) : Except Failure Bool := do
  return p.isEntryPath (← p.relative base path)

/-- **The place of the output** for a relative path. -/
def outputPath (p : Project) (relative : Path) : Path :=
  if !p.isPage relative then p.output.join relative
  else if p.isEntryPath relative then
    p.output.join (Path.ofString (p.rules.entryComponent ++ p.rules.moduleExtension))
  else
    (p.output.join relative.parent).join
      (Path.ofString (Naming.component relative.stem ++ p.rules.moduleExtension))

/-- **The place of the output** of a source file or directory. -/
def destination (p : Project) (base : Location) (path : Path) : Except Failure Path := do
  let relative ← p.relative base path
  p.checkName relative
  return p.outputPath relative

/-! ## One file -/

/-- The directory of a document as links on it see it. -/
def directoryOf (relative : Path) : String :=
  if relative.parent.parts = [] then "" else relative.parent.toString

def componentOf (p : Project) (relative : Path) : String :=
  if p.isEntryPath relative then p.rules.entryComponent else Naming.component relative.stem

/-- The text of a document, from its bytes. -/
def pageText (bytes : List UInt8) : String := String.ofList (Text.unifyNewlines (Text.decodeLossy bytes))

/-- **The document that a file holds.** -/
def documentIn (p : Project) (bytes : List UInt8) : Except Failure Document := p.pages.load (pageText bytes)

/-- What is raised for a tag with an attribute whose new name is no text. -/
def misname? (p : Project) (unhashable : Bool) (r : Tag) : Option Raised :=
  (r.attributes.filter fun a => !Attributes.isDropped a.1).findSome? fun a =>
    (p.misnames.find? fun m => m.name = Text.lower a.1 && m.unhashable == unhashable).map (·.error)

/-- The first tag whose attributes are stored under a name that is no text, by its position, with what is raised then. -/
def misstored? (p : Project) (tags : List Tag) (results : List MappedTag) : Option (Raised × Nat) :=
  (tags.zip results).zipIdx.findSome? fun ((r, m), i) =>
    if m.attributes.isSome then (p.misname? false r).map (·, i) else none

/-- **New names are texts.**  One that can be no key is found out when the attributes are renamed, any other when the attributes of
the tag are to be stored, after the edits before it. -/
def checkRenames (p : Project) (root : Element) (tags : List Tag) (results : List MappedTag) (file : String) :
    Except Failure Unit :=
  match tags.findSome? (p.misname? true), p.misstored? tags results with
  | some error, _         => .error (.raised error)
  | none, none            => .ok ()
  | none, some (error, i) => do
    discard (Page.carryOut file root (tags.take i) (results.take i))
    .error (.raised error)

/-- **The module of a document**, from its bytes and the files there are. -/
def convert (p : Project) (files : FileTree) (relative : Path) (bytes : List UInt8) : Except Failure String := do
  let document ← p.documentIn bytes
  let tags ← tagsOf document.root
  let outcome := Mapping.ofPage ⟨files, p.source, directoryOf relative⟩ p.renames tags
  p.checkRenames document.root tags outcome.results relative.toString
  let text ← Page.moduleText document tags outcome (p.componentOf relative) relative.toString
  p.checkName relative
  return text

/-- An unreadable document is the project's own error. -/
def pageBytes (p : Project) (relative : Path) : Action (List UInt8) :=
  tryCatch (Action.ofFiles (FileTree.read (p.source.join relative))) fun
    | .file e => throw (.of (.unreadable e) relative.toString)
    | f       => throw f

/-- **Converts one document** and writes its module.  Unless it is the entry document, its route is registered when
`register` says so. -/
def convertPage (p : Project) (register : Bool) (path : Path) : Action Path := do
  let base := (← get).files.current
  let relative ← Action.ofExcept (p.relative base path)
  let bytes ← p.pageBytes relative
  let module ← Action.ofExcept (p.convert (← get).files relative bytes)
  let target := p.outputPath relative
  Action.ofFiles (FileTree.writeText target (Text.encode module))
  if register && !p.isEntryPath relative then
    modify fun w => { w with routes := w.routes.add (directoryOf relative) relative.stem }
  return target

/-- **Copies a file that is no document** to its place in the output. -/
def placeAsset (p : Project) (path : Path) : Action Path := do
  let target ← Action.ofExcept (p.destination (← get).files.current path)
  Action.ofFiles do
    FileTree.makeDirectories target.parent
    FileTree.copy path target
  return target

/-- **Takes away the output** of a source file or directory, if there is one. -/
def clearOutput (p : Project) (path : Path) : Action (Option Path) := do
  let target ← Action.ofExcept (p.destination (← get).files.current path)
  match ← Action.look target with
  | none   => return none
  | some _ =>
    Action.ofFiles (FileTree.remove target)
    return some target

end Project
end ReactSite
