import ReactSite.Files.Tree
/-!
# File actions — operations that change a file tree

An action ends with a result or with an error, and with the tree it leaves either way: what was done before an error
stays done.
-/
namespace ReactSite

/-- **An action on a file tree** that may fail with an `ε`. -/
abbrev FileAction (ε α : Type) := ExceptT ε (StateM FileTree) α

namespace FileTree

/-- Lifts a looked-up place into an action, naming the path in the error. -/
def atPath {α : Type} (p : Path) (r : Except FileFault α) : FileAction FileError α :=
  match r with
  | .ok a        => pure a
  | .error fault => throw ⟨fault, p.toString⟩

/-- **Makes one directory**, in a directory that exists. -/
def makeDirectory (p : Path) : FileAction FileError Unit := do
  let t ← get
  let loc ← atPath p (t.slot p)
  if (t.get? loc).isSome then throw ⟨.alreadyExists, p.toString⟩
  else set (t.put loc .directory)

/-- **Makes a directory and those above it that are missing**; one that is there already is kept. -/
def makeDirectories (p : Path) : FileAction FileError Unit :=
  tryCatch (makeDirectory p) fun e => do
    if h : e.fault = .noEntry ∧ p.parts ≠ [] then
      makeDirectories p.parent
      tryCatch (makeDirectory p) fun e' => do
        if e'.fault = .noEntry ∨ !(← get).isDirectory p then throw e'
    else if !(← get).isDirectory p then throw e
termination_by p.parts.length
decreasing_by
  have : p.parts.length ≠ 0 := fun h0 => h.2 (List.length_eq_zero_iff.1 h0)
  simp only [Path.parent, List.length_dropLast]
  omega

/-- **Makes a directory after those above it that are missing**, from the top down; one that is there already is kept. -/
def makeTree (p : Path) : FileAction FileError Unit := do
  if h : 1 < p.parts.length then
    if !(← get).pathExists p.parent then
      tryCatch (makeTree p.parent) fun e => if e.fault = .alreadyExists then pure () else throw e
  tryCatch (makeDirectory p) fun e => do
    if !(← get).isDirectory p then throw e
termination_by p.parts.length
decreasing_by
  simp only [Path.parent, List.length_dropLast]
  omega

def read (p : Path) : FileAction FileError (List UInt8) := do
  let t ← get
  let loc ← atPath p (t.locate p)
  match t.get? loc with
  | some (.file content) => pure content
  | _                    => throw ⟨.isDirectory, p.toString⟩

def write (p : Path) (content : List UInt8) : FileAction FileError Unit := do
  let t ← get
  let loc ← atPath p (t.slot p)
  if t.get? loc = some .directory then throw ⟨.isDirectory, p.toString⟩
  else if loc ∈ t.locked then throw ⟨.notPermitted, p.toString⟩
  else set (t.put loc (.file content))

/-- **Writes a text**, making the directories above it that are missing. -/
def writeText (p : Path) (text : List UInt8) : FileAction FileError Unit := do
  makeDirectories p.parent
  write p text

/-- Writes what a file holds at another path, with the permissions of the file. -/
def transfer (source target : Path) : FileAction FileError Unit := do
  let content ← read source
  write target content
  modify fun t => t.withPermissions source target

/-- **Copies a file** to a path, or into the directory that stands there. -/
def copy (source target : Path) : FileAction FileError Unit := do
  let t ← get
  let inside := t.isDirectory target
  let target := if inside then target.child source.name else target
  match t.locate source, t.locate target with
  | .ok a, .ok b => if a = b then throw ⟨.sameFile target.toString inside, source.toString⟩
  | _, _         => pure ()
  transfer source target

/-- **Takes away what a path leads to**, with all that is below it. -/
def remove (p : Path) : FileAction FileError Unit := do
  let t ← get
  let loc ← atPath p (t.locate p)
  set (t.erase loc)

end FileTree
end ReactSite
