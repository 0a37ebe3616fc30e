import ReactSite.Command.Run
import ReactSite.Html.Page
import ReactSite.Yaml.Document
/-!
# Standard environment — what an ordinary run works with

Pages and configuration files are read by the readers of this library.  The commands there are work on the file tree itself: they
make directories, succeed or fail; any other command is not found.  Of a logging section only the version is looked at, since
nothing that a log says is kept.
-/
namespace ReactSite
namespace Command

open Yaml (Value)

/-! ## Commands -/

/-- Makes one directory, with those above it or not; the result tells whether it is there. -/
def makeOne (parents : Bool) (operand : String) : StateM FileTree Bool := do
  if operand = "" then return false
  let path := Path.ofString operand
  match ← (if parents then FileTree.makeDirectories path else FileTree.makeDirectory path).run with
  | .ok _    => return true
  | .error _ => return false

/-- Makes the directories it is told to; one that cannot be made does not keep the others back. -/
def makeAll (arguments : List String) : StateM FileTree Scaffold.Ending := do
  let parents := arguments.any fun a => a = "-p" || a = "--parents"
  let operands := arguments.filter fun a => a ≠ "-p" && a ≠ "--parents" && a ≠ "--"
  let made ← operands.mapM (makeOne parents)
  return .exit (if operands.isEmpty || made.contains false then 1 else 0)

/-- **Runs a command.** -/
def shell : Scaffold.Runner
  | []                   => return .broken ⟨["IndexError"], "list index out of range"⟩
  | "mkdir" :: arguments => makeAll arguments
  | "true" :: _          => return .exit 0
  | "false" :: _         => return .exit 1
  | name :: _            => return .refused (FileError.message ⟨.noEntry, name⟩)

/-! ## Logging -/

/-- The version of the logging section that is understood. -/
def loggingVersion : Value := .int 1

/-- **Looks at the version of a logging section.** -/
def acceptLogging (logging : List (Value × Value)) (_log : Path) : FileAction Raised Unit :=
  match Value.getPair? logging "version" with
  | none         => pure ()
  | some version => do
    if !Value.sameKey loggingVersion version then throw ⟨["ValueError"], "Unsupported version: " ++ (← version.asText)⟩

/-- **The standard environment**, given the directories. -/
def Environment.standard (configDir : Path) (logDir : String) : Environment where
  pages := Html.read
  yaml := Yaml.read
  runner := shell
  logging := acceptLogging
  configDir := configDir
  logDir := logDir

end Command
end ReactSite
