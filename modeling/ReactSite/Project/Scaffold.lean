import ReactSite.Files.Action
import ReactSite.Project.Rules
import ReactSite.Text.Replace
/-!
# Scaffolding — making the destination of a project that has none

The configured commands run one after the other, each being looked at when its turn comes; the first that fails ends the
scaffolding.  What a command does is the business of the runner.
-/
namespace ReactSite
namespace Scaffold

open Yaml (Value)

/-- **How a command ends**: with an exit status, for a reason of the operating system's, or with something raised before it
starts. -/
inductive Ending where
  | exit (status : Nat)
  | refused (reason : String)
  | broken (error : Raised)
deriving DecidableEq, Repr

/-- **What runs commands**: a command's name and arguments, if it has any. -/
abbrev Runner := List String → StateM FileTree Ending

/-- The destination in place of its mark. -/
def withDestination (dest argument : String) : String :=
  String.ofList (Text.replaceAll ['\x7b', 'd', 'e', 's', 't', '\x7d'] dest.toList argument.toList)

/-- The error that the ending of a command is, if it is one. -/
def fault? (dest : String) (command : List String) : Ending → Option Failure
  | .exit 0         => none
  | .exit status    =>
    some (.of (.scaffoldFailed ("Command '" ++ Text.quotedList command ++ "' returned non-zero exit status " ++
      toString status ++ ".") command) dest)
  | .refused reason => some (.of (.scaffoldFailed reason command) dest)
  | .broken error   => some (.raised error)

/-- Runs one command. -/
def runCommand (runner : Runner) (dest : String) (command : Value) : FileAction Failure Unit := do
  let items ← Rules.itemsOf command
  let words ← items.mapM fun v => v.asText.mapError Failure.raised
  let words := words.map (withDestination dest)
  match fault? dest words (← runner words) with
  | none   => pure ()
  | some f => throw f

/-- **Makes the destination** by running the commands. -/
def make (runner : Runner) (dest : Path) (commands : Value) : FileAction Failure Unit := do
  if commands.isEmpty then throw (.of .noScaffold dest.toString)
  (← Rules.itemsOf commands).forM (runCommand runner dest.toString)

end Scaffold
end ReactSite
