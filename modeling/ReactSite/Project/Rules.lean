import ReactSite.Attributes
import ReactSite.Failure
import ReactSite.Yaml.Value
/-!
# Rules — the naming and layout rules of a project

The rules come from a configuration; what it does not mention is as the defaults say.  Some of them are only looked at when
they are used: the commands that make a missing destination are kept as they are configured, and a name that is no text does
no harm before it is asked for.
-/
namespace ReactSite

open Yaml (Value)

/-- **Where a name is asked for**: in looking for the entry document, in naming the module of another document, and in naming the
entry module. -/
inductive NameUse where
  | entryDocument
  | pageModule
  | routeModule
deriving DecidableEq, Repr

/-- **How a project is laid out.** -/
structure Rules where
  entryDocument : String := "index.html"
  entryComponent : String := "App"
  routeModule : String := "index.js"
  moduleExtension : String := ".js"
  /-- The suffixes of documents, in lower case. -/
  markupExtensions : List String := [".html", ".htm"]
  outputSubdir : String := "src"
  scaffoldEnabled : Bool := false
  scaffoldCommands : Value := .list []
  /-- What is raised where a name is asked for that is no text. -/
  misnamed : List (NameUse × Raised) := []

namespace Rules

/-- Asks for a name. -/
def ask (r : Rules) (use : NameUse) : Except Failure Unit :=
  match r.misnamed.lookup use with
  | some error => .error (.raised error)
  | none       => .ok ()

/-- The types cannot be put together to a path. -/
def notJoinable (v : Value) : Raised :=
  .ofType ("unsupported operand type(s) for /: 'PosixPath' and '" ++ v.typeName ++ "'")

/-- The value cannot be put behind a name. -/
def notAppendable (v : Value) : Raised := .ofType ("can only concatenate str (not \"" ++ v.typeName ++ "\") to str")

/-- What a list holds, or what stands for a list. -/
def itemsOf (v : Value) : Except Failure (List Value) :=
  match v.items? with
  | some items => .ok items
  | none       => .error (.raised (.notIterable v.typeName))

/-- A suffix, in lower case. -/
def suffixOf : Value → Except Failure String
  | .text s => .ok (Text.lower s)
  | v       => .error (.raised ⟨["AttributeError"], "'" ++ v.typeName ++ "' object has no attribute 'lower'"⟩)

/-- A name; what is no text has none. -/
def nameOf : Value → String
  | .text s => s
  | _       => ""

def subdirOf : Value → Except Failure String
  | .text s => .ok s
  | v       => .error (.raised (notJoinable v))

/-- One rule: as configured, or the default. -/
def rule {α : Type} (pairs : List (Value × Value)) (name : String) (default : α) (read : Value → Except Failure α) :
    Except Failure α :=
  match Value.getPair? pairs name with
  | some v => read v
  | none   => .ok default

/-- What is raised where a name is asked for, if it is no text. -/
def misname? (pairs : List (Value × Value)) (name : String) (use : NameUse) (error : Value → Raised) :
    Option (NameUse × Raised) :=
  match Value.getPair? pairs name with
  | some (.text _) => none
  | some v         => some (use, error v)
  | none           => none

/-- **The rules that a configuration gives.**  No document has the empty path, so none is the entry document where that has no
name. -/
def ofPairs (pairs : List (Value × Value)) : Except Failure Rules := do
  let base : Rules := {}
  return {
    markupExtensions := ← rule pairs "markup_extensions" base.markupExtensions fun v => do (← itemsOf v).mapM suffixOf
    outputSubdir := ← rule pairs "output_subdir" base.outputSubdir subdirOf
    entryDocument := ← rule pairs "entry_document" base.entryDocument fun v => .ok (nameOf v)
    entryComponent := ← rule pairs "entry_component" base.entryComponent fun v => v.asText.mapError .raised
    routeModule := ← rule pairs "route_module" base.routeModule fun v => .ok (nameOf v)
    moduleExtension := ← rule pairs "module_extension" base.moduleExtension fun v => v.asText.mapError .raised
    scaffoldEnabled := ← rule pairs "scaffold_enabled" base.scaffoldEnabled fun v => .ok !v.isEmpty
    scaffoldCommands := ← rule pairs "scaffold_commands" base.scaffoldCommands .ok
    misnamed := [misname? pairs "entry_document" .entryDocument notJoinable,
      misname? pairs "module_extension" .pageModule notAppendable,
      misname? pairs "route_module" .routeModule notJoinable].filterMap id }

end Rules
end ReactSite
