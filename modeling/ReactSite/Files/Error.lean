import ReactSite.Text.Quoted
/-!
# File errors — why the file system refuses an operation
-/
namespace ReactSite

/-- **What is wrong** with the place an operation was asked to work on. -/
inductive FileFault where
  | noEntry
  | alreadyExists
  | notDirectory
  | isDirectory
  | nameTooLong
  /-- The file is read-only. -/
  | notPermitted
  /-- The name holds the character NUL, which no file name can. -/
  | nulInName
  /-- A file was to be copied onto itself, by the path `target`; `inside` says that the path leads into a directory that
  was the target. -/
  | sameFile (target : String) (inside : Bool)
deriving DecidableEq, Repr

/-- The number and the words of a fault the operating system reports. -/
def FileFault.report : FileFault → Nat × String
  | .noEntry       => (2, "No such file or directory")
  | .alreadyExists => (17, "File exists")
  | .notDirectory  => (20, "Not a directory")
  | .isDirectory   => (21, "Is a directory")
  | .nameTooLong   => (36, "File name too long")
  | .notPermitted  => (13, "Permission denied")
  | .nulInName     => (22, "Invalid argument")
  | .sameFile _ _  => (22, "Invalid argument")

/-- The classes of the errors that tell of a fault, its own first. -/
def FileFault.classes : FileFault → List String
  | .noEntry       => ["FileNotFoundError", "OSError"]
  | .alreadyExists => ["FileExistsError", "OSError"]
  | .notDirectory  => ["NotADirectoryError", "OSError"]
  | .isDirectory   => ["IsADirectoryError", "OSError"]
  | .nameTooLong   => ["OSError"]
  | .notPermitted  => ["PermissionError", "OSError"]
  | .nulInName     => ["ValueError"]
  | .sameFile _ _  => ["SameFileError", "OSError"]

/-- How a path is shown as a value. -/
def quotedPath (path : String) : String := "PosixPath(" ++ Text.quoted path ++ ")"

/-- **A refused operation**: the fault and the path it was found at. -/
structure FileError where
  fault : FileFault
  path : String
deriving DecidableEq, Repr

namespace FileError

def message (e : FileError) : String :=
  match e.fault with
  | .nulInName => "embedded null byte"
  | .sameFile target inside =>
    quotedPath e.path ++ " and " ++ (if inside then Text.quoted target else quotedPath target) ++ " are the same file"
  | fault =>
    "[Errno " ++ toString fault.report.1 ++ "] " ++ fault.report.2 ++ ": " ++ Text.quoted e.path

end FileError
end ReactSite
