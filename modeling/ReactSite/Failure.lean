import ReactSite.Files.Error
import ReactSite.Text.Utf8
/-!
# Failures — how a conversion can end without a result

A conversion error is one the program reports in its own words, with the file it concerns.  Beside it stand the failures
of what it works with: the file system, the markup, the configuration.
-/
namespace ReactSite

/-- **The kinds of conversion error** that a caller can tell apart. -/
inductive ErrorKind where
  | general
  | configuration
  | missingEntry
  | consistency
  | scaffold
deriving DecidableEq, Repr

/-- **What went wrong** in a conversion. -/
inductive Cause where
  | unreadable (error : FileError)
  | outsideSource
  | sourceMissing
  | destinationMissing
  | settingsNotFound (path : String)
  | settingsMalformed
  | settingsNotMapping
  | settingsIncomplete (keys : List String)
  | entryMissing (name : String)
  /-- The tags and the mapping results part at a position. -/
  | drift (index : Int) (expected actual : String)
  | noScaffold
  | scaffoldFailed (reason : String) (command : List String)
  | notGenerated (directory : String)
  /-- A cause that a caller words itself. -/
  | stated (kind : ErrorKind) (message : String) (command : List String)
deriving DecidableEq, Repr

namespace Cause

def kind : Cause → ErrorKind
  | unreadable _         => .general
  | outsideSource        => .configuration
  | sourceMissing        => .configuration
  | destinationMissing   => .configuration
  | settingsNotFound _   => .configuration
  | settingsMalformed    => .configuration
  | settingsNotMapping   => .configuration
  | settingsIncomplete _ => .configuration
  | entryMissing _       => .missingEntry
  | drift _ _ _          => .consistency
  | noScaffold           => .scaffold
  | scaffoldFailed _ _   => .scaffold
  | notGenerated _       => .scaffold
  | stated kind _ _      => kind

/-- **The wording of each cause.** -/
def message : Cause → String
  | unreadable error            => "Cannot read document: " ++ error.message
  | outsideSource               => "File is outside the source directory"
  | sourceMissing               => "Source directory doesn't exist"
  | destinationMissing          => "Destination directory doesn't exist"
  | settingsNotFound path       => "Project config not found: " ++ path
  | settingsMalformed           => "Could not parse project config: <yaml>"
  | settingsNotMapping          => "Project config must be a mapping"
  | settingsIncomplete keys     => "Project config missing keys: " ++ ", ".intercalate keys
  | entryMissing name           => "Entry document " ++ name ++ " not found"
  | drift index expected actual =>
    "Tag mismatch at position " ++ toString index ++ ": expected <" ++ expected ++ ">, got <" ++ actual ++ ">"
  | noScaffold                  => "No scaffold commands configured"
  | scaffoldFailed reason _     => "Scaffold command failed: " ++ reason
  | notGenerated directory      =>
    "Destination has no '" ++ directory ++ "' directory; is it a generated React project?"
  | stated _ message _          => message

def command : Cause → List String
  | scaffoldFailed _ command => command
  | stated _ _ command       => command
  | _                        => []

end Cause

/-- **A conversion error**: its cause, and the file or directory it concerns. -/
structure ConversionError where
  cause : Cause
  file : Option String := none
deriving DecidableEq, Repr

/-- The error as it is shown: a file with a name stands in front. -/
def ConversionError.message (e : ConversionError) : String :=
  match e.file with
  | some file => if file = "" then e.cause.message else "[" ++ file ++ "] " ++ e.cause.message
  | none      => e.cause.message

/-- **An error raised by what the program works with**: the name of its class with those of the classes above it, and its
message. -/
structure Raised where
  classes : List String
  message : String
deriving DecidableEq, Repr

namespace Raised

def ofType (message : String) : Raised := ⟨["TypeError"], message⟩

/-- A value of a type stands where a list is needed. -/
def notIterable (type : String) : Raised := ofType ("'" ++ type ++ "' object is not iterable")

end Raised

/-- **A failure.** -/
inductive Failure where
  | conversion (error : ConversionError)
  | file (error : FileError)
  | raised (error : Raised)
  /-- A text or a name holds a character that a tree cannot store. -/
  | forbiddenText
  /-- An attribute name that opens a brace has nothing after the closing one. -/
  | emptyAttributeName
  /-- An attribute name opens a brace and does not close it. -/
  | openAttributeName
  /-- An attribute cannot be found again under its own name. -/
  | unknownAttribute (name : String)
  /-- A configuration file is no text. -/
  | undecodable (part : Text.IllFormed)
  /-- An item of a list that stands for a mapping is no pair. -/
  | notPair (index length : Nat)
  /-- An item of a list that stands for a mapping holds nothing at all. -/
  | notSequence (index : Nat)
  /-- A key of a configured mapping is itself a collection, of a type. -/
  | notKey (type : String)
  /-- A value of a type stands where a mapping is needed. -/
  | notMapping (type : String)
deriving DecidableEq, Repr

/-- **The failure as a report shows it.** -/
def Failure.message : Failure → String
  | conversion error      => error.message
  | file error            => error.message
  | raised error          => error.message
  | forbiddenText         => "All strings must be XML compatible: Unicode or ASCII, no NULL bytes or control characters"
  | emptyAttributeName    => "Empty tag name"
  | openAttributeName     => "Invalid tag name"
  | unknownAttribute name => Text.quoted name
  | undecodable part      => part.message
  | notPair index length  =>
    "dictionary update sequence element #" ++ toString index ++ " has length " ++ toString length ++
      "; 2 is required"
  | notSequence index     =>
    "cannot convert dictionary update sequence element #" ++ toString index ++ " to a sequence"
  | notKey type           => "unhashable type: '" ++ type ++ "'"
  | notMapping type       => (Raised.notIterable type).message

def ErrorKind.className : ErrorKind → String
  | general       => "TranspilerError"
  | configuration => "ConfigurationError"
  | missingEntry  => "MissingEntryPointError"
  | consistency   => "ConsistencyError"
  | scaffold      => "ScaffoldError"

/-- **The classes of a failure**, its own first. -/
def Failure.classes : Failure → List String
  | conversion error    => [error.cause.kind.className, "TranspilerError"]
  | file error          => error.fault.classes
  | raised error        => error.classes
  | unknownAttribute _  => ["KeyError", "LookupError"]
  | forbiddenText       => ["ValueError"]
  | emptyAttributeName  => ["ValueError"]
  | openAttributeName   => ["ValueError"]
  | undecodable _       => ["UnicodeDecodeError", "UnicodeError", "ValueError"]
  | notPair _ _         => ["ValueError"]
  | notSequence _       => ["TypeError"]
  | notKey _            => ["TypeError"]
  | notMapping _        => ["TypeError"]

def Failure.of (cause : Cause) (file : Option String := none) : Failure := .conversion ⟨cause, file⟩

end ReactSite
