import ReactSite.Project.Pass
/-!
# Watching — keeping the output in step with the source

Each file event starts what brings the output up to date: a new file a full pass, a changed file its own conversion, a
deleted file a pass and the removal of its output.  A failure is reported elsewhere and forgotten here, so that watching
goes on; events on directories need nothing.
-/
namespace ReactSite

/-- **What happened to a source file.** -/
inductive FileEvent where
  | created (path : Path)
  | modified (path : Path)
  | deleted (path : Path)
  | moved (path target : Path)
deriving Repr

namespace Watch

/-- A step whose failure does not matter. -/
def quietly {α : Type} (a : Action α) : Action Unit := tryCatch (discard a) fun _ => pure ()

def afterCreation (p : Project) : Action Unit := quietly (p.buildAlone true)

def afterChange (p : Project) (path : Path) : Action Unit :=
  quietly (if p.isPage path then p.convertPage false path else p.placeAsset path)

def afterDeletion (p : Project) (path : Path) : Action Unit := do
  quietly (p.buildAlone false)
  quietly (p.clearOutput path)

/-- **Brings the output up to date after an event.** -/
def handle (p : Project) : FileEvent → Action Unit
  | .created _     => afterCreation p
  | .modified path => afterChange p path
  | .deleted path  => afterDeletion p path
  | .moved path _  => do
    afterDeletion p path
    afterCreation p

/-! ## Looking for changes -/

/-- The files below a directory, with their places and their bytes. -/
def filesBelow (t : FileTree) (top : Location) : List (Location × List UInt8) :=
  t.entries.filterMap fun e => match e.2 with
    | .file bytes => if top.isPrefixOf e.1 then some (e.1, bytes) else none
    | .directory  => none

/-- **What happened to the files below a directory** between two looks at the tree. -/
def eventsBetween (before after : FileTree) (top : Location) : List FileEvent :=
  let old := filesBelow before top
  let new := filesBelow after top
  (old.filter fun f => (new.lookup f.1).isNone).map (fun f => .deleted (Path.ofPlace f.1)) ++
    new.filterMap fun f => match old.lookup f.1 with
      | none       => some (.created (Path.ofPlace f.1))
      | some bytes => if bytes = f.2 then none else some (.modified (Path.ofPlace f.1))

end Watch
end ReactSite
