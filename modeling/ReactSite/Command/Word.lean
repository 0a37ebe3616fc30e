import ReactSite.Text.Replace
/-!
# Words — what the words of a command line are

A word is an option, an operand, or the mark `--` after which every word is an operand.  An option goes by its name or
by the start of a long name that no other option's name has.  A value is attached to it after `=`; options of one letter
may share a word.
-/
namespace ReactSite
namespace Command

/-- The names options go by, each with the option. -/
abbrev OptionTable (α : Type) := List (String × α)

/-- **A word of a command line.** -/
inductive Word (α : Type) where
  | operand
  /-- The mark that ends the options. -/
  | separator
  /-- An option by one of its names, and the text attached to it. -/
  | option (meaning : α) (name : String) (attached : Option String)
  /-- An option that is not known. -/
  | unknown
  /-- The start of several names. -/
  | ambiguous
deriving Repr

/-- The text before the first `=` and the text after it. -/
def splitValue (s : List Char) : List Char × Option String :=
  match s.dropWhile (· ≠ '=') with
  | []        => (s, none)
  | _ :: rest => (s.takeWhile (· ≠ '='), some (String.ofList rest))

/-- A minus sign before a number, whole or with a point; no option is named like that. -/
def isNegativeNumber (s : List Char) : Bool :=
  match s with
  | '-' :: rest =>
    match Text.splitAt '.' rest with
    | [whole]           => whole ≠ [] && whole.all Char.isDigit
    | [whole, fraction] => fraction ≠ [] && (whole ++ fraction).all Char.isDigit
    | _                 => false
  | _ => false

/-- **The options a word that is no name can mean**: the one whose long name it gives, else those whose long name it
starts, or the one-letter option it begins with, the other letters being attached. -/
def candidates {α : Type} (table : OptionTable α) (s : List Char) : List (Word α) :=
  match s with
  | '-' :: '-' :: _ =>
    let (start, attached) := splitValue s
    let exact := table.filter fun o => o.1.toList = start
    let meant := if exact.isEmpty then table.filter fun o => start.isPrefixOf o.1.toList else exact
    meant.map fun o => .option o.2 o.1 attached
  | dash :: letter :: rest =>
    (table.filter fun o => o.1.toList = [dash, letter]).map fun o => .option o.2 o.1 (some (String.ofList rest))
  | _ => []

/-- **What a word is**, no mark standing before it. -/
def Word.of {α : Type} (table : OptionTable α) (text : String) : Word α :=
  let s := text.toList
  if text = "--" then .separator
  else if text = "-" || s.head? ≠ some '-' then .operand
  else match table.lookup text with
    | some meaning => .option meaning text none
    | none         =>
      match candidates table s with
      | [word]      => word
      | _ :: _ :: _ => .ambiguous
      | []          => if isNegativeNumber s || s.contains ' ' then .operand else .unknown

/-- **The words of a command line**, each with its text. -/
def words {α : Type} (table : OptionTable α) : List String → List (Word α × String)
  | []           => []
  | text :: rest =>
    match Word.of table text with
    | .separator => (.separator, text) :: rest.map fun t => (.operand, t)
    | word       => (word, text) :: words table rest

def Word.isAmbiguous {α : Type} : Word α → Bool
  | .ambiguous => true
  | _          => false

/-- The options behind one dash from these letters on, and whether all of them are known; what follows an unknown letter
is passed over.  A dash or a value among them is a misuse. -/
def letters? {α : Type} (table : OptionTable α) : List Char → Option (List α × Bool)
  | []             => some ([], true)
  | letter :: rest =>
    if letter = '-' || letter = '=' then none
    else match table.lookup (String.ofList ['-', letter]) with
      | none         => some ([], false)
      | some meaning => (letters? table rest).map fun r => (meaning :: r.1, r.2)

/-- **The options that a word without a value stands for**, in order, and whether all of them are known; none if it is a
misuse. -/
def flags? {α : Type} (table : OptionTable α) (meaning : α) (name : String) (attached : Option String) :
    Option (List α × Bool) :=
  match attached with
  | none      => some ([meaning], true)
  | some text =>
    if name.toList.take 2 = ['-', '-'] then none
    else (letters? table text.toList).map fun r => (meaning :: r.1, r.2)

end Command
end ReactSite
