import ReactSite.Config.Store
/-!
# Settings — where a project reads and where it writes

A project file names the two directories; a relative one starts at the directory of the project file.
-/
namespace ReactSite

open Yaml (Value)

/-- **The settings of a project**: the root of its source and the root of its destination. -/
structure Settings where
  source : Path
  dest : Path
deriving DecidableEq, Repr

namespace Settings

/-- The names of the settings in a project file. -/
def sourceKey : String := "src_dir"
def destKey : String := "dest_dir"

/-- A setting; a value that says nothing sets nothing. -/
def setting? (pairs : List (Value × Value)) (key : String) : Option Value :=
  (Value.getPair? pairs key).filter fun v => !v.isEmpty

/-- **The place a directory setting names**, seen from directory `base`. -/
def rootFrom (base : Location) (v : Value) : Except Failure Path := do
  let path := Path.ofString (← v.asText.mapError .raised)
  if path.hasNul then .error (.file ⟨.nulInName, path.toString⟩) else .ok (Path.ofPlace (path.resolveFrom base))

/-- The settings that a project file in directory `base` gives; `file` is its name in errors. -/
def ofValue (file : String) (base : Location) (value : Value) : Except Failure Settings :=
  let absent (pairs : List (Value × Value)) := [sourceKey, destKey].filter fun key => (setting? pairs key).isNone
  let pairs? : Option (List (Value × Value)) := match value with
    | .mapping pairs => some pairs
    | value          => if value.isEmpty then some [] else none
  match pairs? with
  | none       => .error (.of .settingsNotMapping file)
  | some pairs =>
    match setting? pairs sourceKey, setting? pairs destKey with
    | some source, some dest => do return ⟨← rootFrom base source, ← rootFrom base dest⟩
    | _, _                   => .error (.of (.settingsIncomplete (absent pairs)) file)

/-- **Reads a project file.** -/
def read (yaml : Yaml.Reader) (files : FileTree) (path : Path) : Except Failure Settings :=
  let file := path.toString
  match files.look path with
  | .error e                => .error (.file e)
  | .ok (some (.file bytes)) => do
    match ← Config.valueOf yaml bytes with
    | some value => ofValue file (path.resolveFrom files.current).dropLast value
    | none       => .error (.of .settingsMalformed file)
  | .ok _ => .error (.of (.settingsNotFound file) file)

end Settings
end ReactSite
