import ReactSite.Files.Error
import ReactSite.Path.Basic
/-!
# File trees — the files and directories a conversion reads and writes

A tree is the list of its entries, each under the list of the names that lead to it from the root; the root is a
directory.  A path is looked up component by component: every component but the last is a directory, `..` leads to the
directory above, and a name has at most 255 bytes.

A tree leaves out links, symbolic and hard: each place is one entry, and each entry has one place.  Of the permissions it
has one, that to write to a file; every file can be read, and every directory be entered, listed and changed.  All names
are Unicode texts.
-/
namespace ReactSite

/-- **An entry**: a file with its bytes, or a directory. -/
inductive FileNode where
  | file (content : List UInt8)
  | directory
deriving DecidableEq, Repr

/-- The names that lead from the root to an entry. -/
abbrev Location := List String

/-- **A tree of files**, and the directory in which relative paths start. -/
structure FileTree where
  entries : List (Location × FileNode)
  current : Location := []
  /-- The files that are read-only, as they are for a process without privileges. -/
  locked : List Location := []
deriving Repr

namespace FileTree

def empty : FileTree where
  entries := []

def get? (t : FileTree) (loc : Location) : Option FileNode :=
  if loc = [] then some .directory else t.entries.lookup loc

/-- Puts an entry at a place, over the one that was there. -/
def put (t : FileTree) (loc : Location) (node : FileNode) : FileTree :=
  if t.entries.any (·.1 = loc) then
    { t with entries := t.entries.map fun e => if e.1 = loc then (loc, node) else e }
  else { t with entries := t.entries ++ [(loc, node)] }

/-- Takes away an entry and all that is below it. -/
def erase (t : FileTree) (loc : Location) : FileTree :=
  { t with
    entries := t.entries.filter fun e => !loc.isPrefixOf e.1
    locked := t.locked.filter fun l => !loc.isPrefixOf l }

instance (t : FileTree) (loc : Location) : Decidable (loc ∈ t.locked) :=
  decidable_of_iff (t.locked.any (· = loc) = true) (by simp)

/-- Makes a file read-only. -/
def lock (t : FileTree) (loc : Location) : FileTree := { t with locked := loc :: t.locked }

/-- The longest name a directory can hold, in bytes. -/
def maxNameBytes : Nat := 255

/-- Follows components from a place that has been reached. -/
def follow (t : FileTree) : Location → List String → Except FileFault Location
  | reached, [] => .ok reached
  | reached, part :: rest =>
    if t.get? reached ≠ some .directory then .error .notDirectory
    else if part = ".." then follow t reached.dropLast rest
    else if maxNameBytes < part.utf8ByteSize then .error .nameTooLong
    else if (t.get? (reached ++ [part])).isNone then .error .noEntry
    else follow t (reached ++ [part]) rest

/-- Where the components of a path start. -/
def origin (t : FileTree) (p : Path) : Location :=
  if p.isAbsolute then [] else t.current

/-- The longest path the file system takes, in bytes. -/
def maxPathBytes : Nat := 4095

/-- What is wrong with a path whatever the tree holds. -/
def pathFault? (p : Path) : Option FileFault :=
  if p.hasNul then some .nulInName
  else if maxPathBytes < p.toString.utf8ByteSize then some .nameTooLong
  else none

/-- **The place of an existing entry.** -/
def locate (t : FileTree) (p : Path) : Except FileFault Location :=
  match pathFault? p with
  | some fault => .error fault
  | none       => t.follow (t.origin p) p.parts

/-- **The place an entry has or would have**: its directory exists, the entry itself need not. -/
def slot (t : FileTree) (p : Path) : Except FileFault Location :=
  if p.name = "" ∨ p.name = ".." then t.locate p
  else match pathFault? p with
  | some fault => .error fault
  | none       => do
    let dir ← t.locate p.parent
    if t.get? dir ≠ some .directory then .error .notDirectory
    else if maxNameBytes < p.name.utf8ByteSize then .error .nameTooLong
    else .ok (dir ++ [p.name])

def node? (t : FileTree) (p : Path) : Option FileNode :=
  match t.locate p with
  | .ok loc  => t.get? loc
  | .error _ => none

def pathExists (t : FileTree) (p : Path) : Bool := (t.node? p).isSome

def isDirectory (t : FileTree) (p : Path) : Bool := t.node? p = some .directory

def isFile (t : FileTree) (p : Path) : Bool :=
  match t.node? p with
  | some (.file _) => true
  | _              => false

/-- **Looks at a path.**  There is nothing where the path does not lead; a name that is too long is refused. -/
def look (t : FileTree) (p : Path) : Except FileError (Option FileNode) :=
  match t.locate p with
  | .ok loc             => .ok (t.get? loc)
  | .error .nameTooLong => .error ⟨.nameTooLong, p.toString⟩
  | .error _            => .ok none

/-- **Gives a file the permissions of another**: it is read-only where that one is. -/
def withPermissions (t : FileTree) (source target : Path) : FileTree :=
  match t.locate source, t.locate target with
  | .ok a, .ok b => if a ∈ t.locked then t.lock b else t
  | _, _         => t

/-! ## Listing -/

/-- The order of names: by their characters' code points. -/
def nameLe (a b : String) : Bool := !(b < a)

/-- A name put in its place among names in order. -/
def insertName (name : String) : List String → List String
  | []            => [name]
  | other :: rest => if nameLe name other then name :: other :: rest else other :: insertName name rest

def sortNames (names : List String) : List String := names.foldr insertName []

/-- The names of the entries of a directory that `p` holds of, in order. -/
def namesIn (t : FileTree) (loc : Location) (p : FileNode → Bool) : List String :=
  sortNames (t.entries.filterMap fun e =>
    if e.1 ≠ [] ∧ e.1.dropLast = loc ∧ p e.2 then e.1.getLast? else none)

def fileNames (t : FileTree) (loc : Location) : List String := t.namesIn loc (· ≠ .directory)

def directoryNames (t : FileTree) (loc : Location) : List String := t.namesIn loc (· = .directory)

/-- One more than the number of names on the longest way to an entry. -/
def depth (t : FileTree) : Nat := (t.entries.map (·.1.length)).foldl max 0 + 1

end FileTree
end ReactSite
