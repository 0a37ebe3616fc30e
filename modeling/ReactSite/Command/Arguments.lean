import ReactSite.Command.Word
/-!
# Arguments — what a command line asks for

Options for every command stand before the command, its own options and its operand after it.  An option that asks for
help or for the version is answered at once, whatever follows; what is not understood is a misuse.
-/
namespace ReactSite
namespace Command

inductive Task where
  /-- Converts the whole project. -/
  | build (copyStatic : Bool)
  /-- Converts one document. -/
  | single (path : String)
  /-- Converts the whole project, then again after every change. -/
  | watch
deriving DecidableEq, Repr

/-- **What a command line asks for.** -/
inductive Request where
  | run (config : String) (task : Task)
  | help
  | version
  | misuse
deriving DecidableEq, Repr

/-! ## After the command -/

inductive TaskOption where
  | help
  | noStatic
deriving DecidableEq, Repr

def helpOptions : OptionTable TaskOption := [("-h", .help), ("--help", .help)]

def buildOptions : OptionTable TaskOption := helpOptions ++ [("--no-static", .noStatic)]

/-- **What the words after a command say**: the flags that are set, and the operands with the mark among them.  Unknown
options are kept with the operands. -/
structure TaskWords where
  noStatic : Bool := false
  operands : List (Word TaskOption × String) := []

/-- Reads the words after a command. -/
def taskWords (table : OptionTable TaskOption) : List (Word TaskOption × String) → TaskWords → Except Request TaskWords
  | [], read => .ok read
  | (.option meaning name attached, text) :: rest, read =>
    match flags? table meaning name attached with
    | none                => .error .misuse
    | some (flags, known) =>
      if flags.contains .help then .error .help
      else
        let operands := if known then read.operands else read.operands ++ [(.unknown, text)]
        taskWords table rest { noStatic := true, operands }
  | word :: rest, read => taskWords table rest { read with operands := read.operands ++ [word] }

/-- **The one operand**: a mark before it or after it does not count. -/
def operand? : List (Word TaskOption × String) → Option String
  | [(.operand, text)]                  => some text
  | [(.separator, _), (.operand, text)] => some text
  | [(.operand, text), (.separator, _)] => some text
  | _                                   => none

/-- **The task** that a command and the words after it name. -/
def taskOf (command : String) (arguments : List String) : Except Request Task := do
  let table := if command = "build" then buildOptions else helpOptions
  let after := words table arguments
  if after.any (·.1.isAmbiguous) then throw .misuse
  match command with
  | "build" =>
    let read ← taskWords table after {}
    if read.operands.isEmpty then return .build (!read.noStatic) else throw .misuse
  | "watch" =>
    let read ← taskWords table after {}
    if read.operands.isEmpty then return .watch else throw .misuse
  | "file"  =>
    match operand? (← taskWords table after {}).operands with
    | some path => return .single path
    | none      => throw .misuse
  | _       => throw .misuse

/-! ## Before the command -/

inductive GlobalOption where
  | help
  | config
  | verbose
  | version
deriving DecidableEq, Repr

def globalOptions : OptionTable GlobalOption :=
  [("-h", .help), ("--help", .help), ("--config", .config), ("-v", .verbose), ("--verbose", .verbose),
   ("--version", .version)]

/-- The answer to options that are answered at once. -/
def immediate? : List GlobalOption → Option Request
  | []            => none
  | .help :: _    => some .help
  | .version :: _ => some .version
  | _ :: rest     => immediate? rest

/-- **Reads the words up to the command**; `understood` is false once an unknown option has been met.  More output on
the console is all that `--verbose` asks for, and none of it is part of an answer. -/
def request (config : String) (understood : Bool) : List (Word GlobalOption × String) → Request
  | [] => .misuse
  | (.operand, command) :: rest =>
    match taskOf command (rest.map (·.2)) with
    | .error answer => answer
    | .ok task      => if understood then .run config task else .misuse
  | (.unknown, _) :: rest => request config false rest
  | (.option .config _ (some value), _) :: rest => request value understood rest
  | (.option .config _ none, _) :: (.operand, value) :: rest => request value understood rest
  | (.option .config _ none, _) :: _ => .misuse
  | (.option meaning name attached, _) :: rest =>
    match flags? globalOptions meaning name attached with
    | none                => .misuse
    | some (flags, known) => (immediate? flags).getD (request config (understood && known) rest)
  | _ => .misuse

/-- The project file that is read when none is named. -/
def defaultConfig : String := "config.json"

/-- **What a command line asks for.** -/
def Request.of (arguments : List String) : Request :=
  let read := words globalOptions arguments
  if read.any (·.1.isAmbiguous) then .misuse else request defaultConfig true read

end Command
end ReactSite
