import ReactSite.Html.Reference
import ReactSite.Text.Replace
import ReactSite.Yaml.Value
/-!
# Scalars — what an unquoted scalar stands for

Some unquoted scalars are written forms of no value, of truth values and of whole numbers; every other scalar is a text.
-/
namespace ReactSite
namespace Yaml

/-- The written forms of no value; the empty scalar is one. -/
def nullWords : List String := ["", "~", "null", "Null", "NULL"]

def trueWords : List String := ["yes", "Yes", "YES", "true", "True", "TRUE", "on", "On", "ON"]

def falseWords : List String := ["no", "No", "NO", "false", "False", "FALSE", "off", "Off", "OFF"]

/-- Digits of a base; a number may have `_` between its digits. -/
def isDigits (digit : Char → Bool) (s : List Char) : Bool := s ≠ [] && s.all fun c => digit c || c = '_'

def digits (base : Nat) (s : List Char) : Nat := Html.digitsValue base (s.filter (· ≠ '_'))

/-- One of the later places of a number in base sixty: below 60, in one digit or two. -/
def isSixtieth (s : List Char) : Bool :=
  match s with
  | [d]    => d.isDigit
  | [t, d] => '0' ≤ t && t ≤ '5' && d.isDigit
  | _      => false

/-- A whole number without its sign: binary, hexadecimal, octal, decimal, or in base sixty. -/
def natural? (s : List Char) : Option Nat :=
  match s with
  | ['0']            => some 0
  | '0' :: 'b' :: ds => if isDigits (fun c => c = '0' || c = '1') ds then some (digits 2 ds) else none
  | '0' :: 'x' :: ds => if isDigits Html.isHexDigit ds then some (digits 16 ds) else none
  | '0' :: ds        => if isDigits (fun c => '0' ≤ c && c ≤ '7') ds then some (digits 8 ds) else none
  | c :: ds          =>
    if !c.isDigit then none
    else if (c :: ds).all fun d => d.isDigit || d = '_' then some (digits 10 (c :: ds))
    else match Text.splitAt ':' (c :: ds) with
      | first :: rest =>
        if isDigits Char.isDigit first && rest ≠ [] && rest.all isSixtieth then
          some (rest.foldl (fun n place => n * 60 + digits 10 place) (digits 10 first))
        else none
      | [] => none
  | []               => none

/-- **A whole number.** -/
def integer? (s : List Char) : Option Int :=
  match s with
  | '-' :: rest => (natural? rest).map fun n => -(n : Int)
  | '+' :: rest => (natural? rest).map fun n => (n : Int)
  | s           => (natural? s).map fun n => (n : Int)

/-- **What an unquoted scalar stands for.** -/
def plainValue (s : List Char) : Value :=
  let word := String.ofList s
  if nullWords.contains word then .null
  else if trueWords.contains word then .bool true
  else if falseWords.contains word then .bool false
  else match integer? s with
    | some n => .int n
    | none   => .text word

end Yaml
end ReactSite
