import ReactSite.Command.Arguments
import ReactSite.Config.Settings
import ReactSite.Project.Pass
/-!
# Runs — what the program does for a command line

A run loads the configuration, reads the project file and carries out its task.  It ends with an exit status and with
what it has printed.  A conversion error is printed and ends the run with status 1; any other failure is the run's own.
-/
namespace ReactSite
namespace Command

open Yaml (Value)

def versionLine : String := "html2react v0.3.0\n"

def usage : String :=
  "usage: html2react [-h] [--config CONFIG] [-v] [--version] \x7bbuild,file,watch\x7d ...\n\n" ++
  "Convert a static HTML site into a React app\n"

/-- **How a run ends**: its exit status, what it has printed, and the project to go on watching, if any. -/
structure Ending where
  status : Nat
  output : String
  watched : Option Project := none

/-- **What a run works with**: what reads pages and configuration files, what runs commands and sets up logging, and the directories
that are named to it. -/
structure Environment where
  pages : PageReader
  yaml : Yaml.Reader
  runner : Scaffold.Runner
  /-- Sets up logging as a section says, the log being written to a path. -/
  logging : List (Value × Value) → Path → FileAction Raised Unit
  /-- The user's configuration directory. -/
  configDir : Path
  /-- The directory of the log. -/
  logDir : String

/-! ## Logging -/

/-- **A logging section that is to be followed** has a version. -/
def isVersioned (logging : List (Value × Value)) : Bool :=
  (Value.getPair? logging "version").any fun version => !version.isEmpty

/-- The line that reports a fault of the logging section. -/
def loggingLine (fault : String) : String := "Error loading logging config: " ++ fault ++ "\n"

/-- The classes of the errors that are reported while logging is set up. -/
def loggingFaults : List String := ["ValueError", "TypeError", "AttributeError", "ImportError", "OSError"]

/-- **What the setup of logging leaves**: the lines that it has printed, and the configuration, if that could be loaded. -/
structure LogSetup where
  printed : String := ""
  config : Option Config := none

/-- A step whose failure is printed, if it is of a class that is reported. -/
def reporting (config : Option Config) (step : Action LogSetup) : Action LogSetup :=
  tryCatch step fun f => do
    if f.classes.any loggingFaults.contains then return { printed := loggingLine f.message, config } else throw f

/-- Makes the directory of the log; a directory without a name cannot be made. -/
def makeLogDir (logDir : String) : FileAction FileError Path := do
  if logDir = "" then throw ⟨.noEntry, ""⟩
  FileTree.makeTree (Path.ofString logDir)
  return Path.ofString logDir

/-- A file action that raises something, as a step. -/
def raising {α : Type} (a : FileAction Raised α) : Action α := ExceptT.mk fun w =>
  let (r, files) := a w.files
  (r.mapError Failure.raised, { w with files })

/-- **Sets up logging.**  Only the directory of the log has to be there. -/
def setUpLog (env : Environment) : Action LogSetup := do
  let dir ← Action.ofFiles (makeLogDir env.logDir)
  reporting none do
    let config ← Action.onFiles (Config.load env.yaml env.configDir)
    reporting (some config) do
      if isVersioned config.logging then raising (env.logging config.logging (dir.child "html2react.log"))
      return { config := some config }

/-! ## The task -/

/-- **Opens the project** that a project file names.  The configuration is loaded unless it is at hand. -/
def openProject (env : Environment) (settings : Settings) (config? : Option Config) : Action Project := do
  let config ← match config? with
    | some config => pure config
    | none        => Action.onFiles (Config.load env.yaml env.configDir)
  let rules ← Action.ofExcept (Rules.ofPairs config.rules)
  let p : Project :=
    { source := settings.source, dest := settings.dest, rules, renames := config.renameTable, misnames := config.misnames,
      pages := env.pages }
  Action.onFiles (p.ensureRoots env.runner)
  return p

/-- **A report as it is printed**: the counts, then a line for each document that failed. -/
def reportLines (r : Report) : String :=
  "Transpiled " ++ toString r.pages ++ " pages, copied " ++ toString r.assets ++ " assets\n" ++
    String.join (r.failures.map fun f => "  FAILED " ++ f.1 ++ ": " ++ f.2 ++ "\n")

def perform (p : Project) : Task → Action Ending
  | .single path => do
    let target ← p.convertPage false (Path.ofString path)
    return { status := 0, output := "Wrote " ++ target.toString ++ "\n" }
  | .build copyStatic => do
    let report ← p.buildAlone copyStatic
    return { status := if report.isOk then 0 else 1, output := reportLines report }
  | .watch => do
    let report ← p.buildAlone true
    return { status := 0, output := reportLines report, watched := some p }

def ofConversionError (f : Failure) : Action Ending :=
  match f with
  | .conversion e => return { status := 1, output := "Error: " ++ e.message ++ "\n" }
  | f             => throw f

/-- Carries out a task for the project that a project file names. -/
def carryOut (env : Environment) (config : String) (task : Task) (config? : Option Config) : Action Ending := do
  let settings ← Action.ofExcept (Settings.read env.yaml (← get).files (Path.ofString config))
  perform (← openProject env settings config?) task

/-- **Runs the program** on a command line. -/
def run (env : Environment) (arguments : List String) : Action Ending := do
  match Request.of arguments with
  | .misuse  => return { status := 2, output := "" }
  | .help    => return { status := 0, output := usage }
  | .version => return { status := 0, output := versionLine }
  | .run config task =>
    let log ← setUpLog env
    let ending ← tryCatch (carryOut env config task log.config) ofConversionError
    return { ending with output := log.printed ++ ending.output }

end Command
end ReactSite
