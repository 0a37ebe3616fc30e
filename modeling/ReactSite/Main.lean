import ReactSite.Command.Standard
import ReactSite.Watch
/-!
# Program — the command line on a real disk

What a command line needs is loaded into a file tree, the run happens there, and what it changed is written back.  All
decisions are made by the run; here are only the disk, the console and the clock.
-/
namespace ReactSite
namespace Program

/-- The path of a place on the disk. -/
def pathOf (loc : Location) : String := "/" ++ "/".intercalate loc

/-- Puts the directories that lead to a place into the tree, as far as the disk has them. -/
def loadAbove (loc : Location) (t : FileTree) : IO FileTree :=
  (List.range loc.length).foldlM (fun t i => do
    let place := (← IO.currentDir) / pathOf (loc.take i)
    return if i != 0 && (← place.isDir) then t.put (loc.take i) .directory else t) t

/-- The packages of a React application are never looked at. -/
def isPassedOver (name : String) : Bool := name = "node_modules"

/-- Whether a file of the disk can be written to. -/
def canWrite (loc : Location) : IO Bool := do
  try
    let _ ← IO.FS.Handle.mk ((← IO.currentDir) / pathOf loc) .append
    return true
  catch _ => return false

/-- Puts what lies at a place of the disk into the tree. -/
partial def load (loc : Location) (t : FileTree) : IO FileTree := do
  let place := (← IO.currentDir) / pathOf loc
  if ← place.isDir then
    let names := (← place.readDir).toList.map (·.fileName)
    (names.filter (!isPassedOver ·)).foldlM (fun t name => load (loc ++ [name]) t) (t.put loc .directory)
  else if ← place.pathExists then
    let t := t.put loc (.file (← IO.FS.readBinFile place).toList)
    return if ← canWrite loc then t else t.lock loc
  else return t

/-- Loads the place a path leads to, and the way to it. -/
def loadPath (p : Path) (t : FileTree) : IO FileTree := do
  let loc := p.resolveFrom t.current
  load loc (← loadAbove loc t)

def configDir : IO Path := do
  match ← IO.getEnv "HTML2REACT_CONFIG_DIR" with
  | some dir => if dir ≠ "" then return Path.ofString dir
  | none     => pure ()
  return (Path.ofString ((← IO.getEnv "HOME").getD "/")).join (Path.ofString ".html2react")

/-- What a run works with here. -/
def environment : IO Command.Environment := do
  return .standard (← configDir) ((← IO.getEnv "HTML2REACT_LOG_DIR").getD "logs")

/-- All that a command line can look at. -/
def loadFor (env : Command.Environment) (arguments : List String) : IO FileTree := do
  let here := Path.ofString (← IO.currentDir).toString
  let t ← loadAbove (here.parts ++ [""]) { FileTree.empty with current := here.parts }
  match Command.Request.of arguments with
  | .run config _ =>
    let t ← loadPath (Path.ofString config) (← loadPath env.configDir (← loadPath (Path.ofString env.logDir) t))
    match Settings.read env.yaml t (Path.ofString config) with
    | .ok settings => loadPath settings.dest (← loadPath settings.source t)
    | .error _     => return t
  | _ => return t

/-- Takes away what lies at a place of the disk. -/
def discardPlace (loc : Location) : IO Unit := do
  let place := (← IO.currentDir) / pathOf loc
  if ← place.isDir then IO.FS.removeDirAll place
  else if ← place.pathExists then IO.FS.removeFile place

/-- Writes back what a run changed. -/
def store (before after : FileTree) : IO Unit := do
  for (loc, _) in before.entries do
    if (after.get? loc).isNone then discardPlace loc
  for (loc, node) in after.entries do
    if before.get? loc ≠ some node then
      let place := (← IO.currentDir) / pathOf loc
      match node with
      | .directory  => IO.FS.createDirAll place
      | .file bytes => IO.FS.writeBinFile place ⟨bytes.toArray⟩
  let readable : IO.AccessRight := { read := true }
  for loc in after.locked do
    if loc ∉ before.locked then
      IO.setAccessRights ((← IO.currentDir) / pathOf loc) { user := readable, group := readable, other := readable }

/-- Looks at the source once a second and brings the output up to date. -/
partial def keepWatching (p : Project) (seen : FileTree) : IO Unit := do
  IO.sleep 1000
  let now ← loadPath p.dest (← loadPath p.source { FileTree.empty with current := seen.current })
  let events := Watch.eventsBetween seen now (p.source.resolveFrom seen.current)
  let (_, w) := (events.forM (Watch.handle p)).run { files := now }
  store now w.files
  keepWatching p now

def run (arguments : List String) : IO UInt32 := do
  let env ← environment
  let before ← loadFor env arguments
  let (result, w) := (Command.run env arguments).run { files := before }
  store before w.files
  match result with
  | .error f   =>
    IO.eprintln f.message
    return 1
  | .ok ending =>
    IO.print ending.output
    match ending.watched with
    | none   => return ending.status.toUInt32
    | some p =>
      (← IO.getStdout).flush
      keepWatching p w.files
      return 0

end Program
end ReactSite

def main (arguments : List String) : IO UInt32 := ReactSite.Program.run arguments
