import ReactSite.Attributes
import ReactSite.Config.Packaged
import ReactSite.Failure
import ReactSite.Files.Action
/-!
# Configuration store — the packaged configuration under the user's own

The configuration has three sections, each a file.  A user's file of a section lies in the user's configuration
directory; what it says goes over what the packaged file says, key by key.  A file that is missing, unreadable or
malformed says nothing.
-/
namespace ReactSite

open Yaml (Value)

namespace Config

/-- **The sections of the configuration.** -/
inductive Section where
  | renames
  | rules
  | logging
deriving DecidableEq, Repr

namespace Section

def fileName : Section → String
  | renames => "props_map.yml"
  | rules   => "transpiler.yml"
  | logging => "logging.yml"

def packagedFile : Section → String
  | renames => Packaged.renameFile
  | rules   => Packaged.rulesFile
  | logging => Packaged.loggingFile

def packaged : Section → List (Value × Value)
  | renames => Packaged.renames
  | rules   => Packaged.rules
  | logging => Packaged.logging

def all : List Section := [renames, rules, logging]

end Section

/-! ## The user's files -/

/-- **What a configuration file says**, none if it is malformed; the file has to be a text. -/
def valueOf (yaml : Yaml.Reader) (bytes : List UInt8) : Except Failure (Option Value) :=
  match Text.decode bytes with
  | .ok text    => (yaml (Text.unifyNewlines text)).mapError .raised
  | .error part => .error (.undecodable part)

/-- The pair that the item at `index` of a list stands for. -/
def pairOf (item : Value) (index : Nat) : Except Failure (Value × Value) :=
  match item.items? with
  | some [key, value] => if key.isKey then .ok (key, value) else .error (.notKey key.typeName)
  | some items        => .error (.notPair index items.length)
  | none              => .error (.notSequence index)

/-- **A user's value over a mapping.**  A list of pairs does for a mapping; an empty value changes nothing. -/
def overlay (base : List (Value × Value)) (value : Value) : Except Failure (List (Value × Value)) :=
  if value.isEmpty then .ok base
  else match value with
    | .mapping pairs => .ok (Value.mergePairs base pairs)
    | value          =>
      match value.items? with
      | some items => do return Value.mergePairs base (← items.zipIdx.mapM fun i => pairOf i.1 i.2)
      | none       => .error (.notMapping value.typeName)

/-- **A section** with the user's files in directory `dir`. -/
def sectionIn (yaml : Yaml.Reader) (files : FileTree) (dir : Path) (s : Section) : Except Failure (List (Value × Value)) :=
  match files.look (dir.child s.fileName) with
  | .error e => .error (.file e)
  | .ok (some (.file bytes)) => do
    match ← valueOf yaml bytes with
    | some value => overlay s.packaged value
    | none       => return s.packaged
  | .ok _ => .ok s.packaged

/-- Gives the user's directory a copy of one packaged file, if it does not have it and the copy can be made. -/
def provideFile (dir : Path) (s : Section) : FileAction FileError Unit := do
  match (← get).look (dir.child s.fileName) with
  | .error e   => throw e
  | .ok (some _) => pure ()
  | .ok none   => tryCatch (FileTree.write (dir.child s.fileName) (Text.encode s.packagedFile)) fun _ => pure ()

/-- **Gives the user's directory a copy of each packaged file** that it does not have, as far as that can be done. -/
def provide (dir : Path) : StateM FileTree Unit :=
  discard (ExceptT.run do
    FileTree.makeDirectories dir
    Section.all.forM (provideFile dir))

end Config

/-- **The configuration**, section by section. -/
structure Config where
  renames : List (Value × Value)
  rules : List (Value × Value)
  logging : List (Value × Value)

namespace Config

/-- **Loads the configuration**, the user's files lying in directory `dir`. -/
def load (yaml : Yaml.Reader) (dir : Path) : FileAction Failure Config := do
  ExceptT.lift (provide dir)
  let files ← get
  return { renames := ← sectionIn yaml files dir .renames
           rules := ← sectionIn yaml files dir .rules
           logging := ← sectionIn yaml files dir .logging }

/-- The rename table; a property name that is no text is empty there. -/
def renameTable (c : Config) : RenameTable :=
  c.renames.filterMap fun p => match p.1, p.2 with
    | .text name, .text property => some (name, property)
    | .text name, _              => some (name, "")
    | _, _                       => none

/-- **The property names that are no texts.** -/
def misnames (c : Config) : List Misname :=
  c.renames.filterMap fun p => match p.1, p.2 with
    | .text _, .text _ => none
    | .text name, v    =>
      let message := if v.isKey then "Argument must be bytes or unicode, got '" else "unhashable type: '"
      some ⟨name, !v.isKey, .ofType (message ++ v.typeName ++ "'")⟩
    | _, _             => none

end Config
end ReactSite
