import ReactSite.Project.Basic
/-!
# Passes — converting a whole site

A pass visits the files of the source, those of a directory before those of its subdirectories, in the order of their
names.  A document that fails does not stop the pass; the report says why it failed.  At the end the entry module is
written, with a route for every document that was converted.
-/
namespace ReactSite

/-- **What a pass did.** -/
structure Report where
  pages : Nat := 0
  assets : Nat := 0
  /-- The documents that failed, by relative path, with the message of each failure. -/
  failures : List (String × String) := []
  entryModule : Option Path := none
deriving Repr

def Report.isOk (r : Report) : Bool := r.failures.isEmpty

namespace Project

/-- The path of a visited file relative to the source root. -/
def visitedPath (p : Project) (path : Path) : Path := ⟨0, path.parts.drop p.source.parts.length⟩

/-- **Visits one file.**  A failing asset ends the pass, a failing document only its own conversion. -/
def visit (p : Project) (copyStatic : Bool) (report : Report) (path : Path) : Action Report :=
  if p.isPage path then
    tryCatch (do
      discard (p.convertPage true path)
      return { report with pages := report.pages + 1 }) fun f =>
      return { report with failures := report.failures ++ [((p.visitedPath path).toString, f.message)] }
  else if copyStatic then do
    discard (p.placeAsset path)
    return { report with assets := report.assets + 1 }
  else return report

/-- Visits a directory, at most `depth` levels deep.  What it holds is looked up when it is reached. -/
def walk (p : Project) (copyStatic : Bool) : Nat → Report → Path → Action Report
  | 0, report, _ => return report
  | depth + 1, report, dir => do
    let t := (← get).files
    match t.locate dir with
    | .error _ => return report
    | .ok loc  =>
      let files := t.fileNames loc
      let directories := t.directoryNames loc
      let report ← files.foldlM (fun r name => p.visit copyStatic r (dir.child name)) report
      directories.foldlM (fun r name => walk p copyStatic depth r (dir.child name)) report

/-- The longest path the operating system takes has this many characters, so no directory is deeper. -/
def maxPathLength : Nat := 4096

/-- How deep a walk goes at most: as deep as the tree is, and deeper by what outputs inside the source can add. -/
def walkDepth (files : FileTree) : Nat := files.depth + maxPathLength

/-- **Converts every document**, copies the other files if `copyStatic` says so, and writes the entry module. -/
def build (p : Project) (copyStatic : Bool) : Action Report := do
  Action.ofExcept (p.rules.ask .entryDocument)
  let entry := p.source.join (Path.ofString p.rules.entryDocument)
  match ← Action.look entry with
  | some (.file _) => pure ()
  | _              => throw (.of (.entryMissing p.rules.entryDocument) entry.toString)
  modify fun w => { w with routes := w.routes.cleared }
  let report ← p.walk copyStatic (walkDepth (← get).files) {} p.source
  Action.ofExcept (p.rules.ask .routeModule)
  let target := p.output.join (Path.ofString p.rules.routeModule)
  Action.ofFiles (FileTree.writeText target (Text.encode (← get).routes.entryModule))
  return { report with entryModule := some target }

/-- A pass with routes of its own. -/
def buildAlone (p : Project) (copyStatic : Bool) : Action Report :=
  Action.withRoutes { entryComponent := p.rules.entryComponent } (p.build copyStatic)

end Project
end ReactSite
