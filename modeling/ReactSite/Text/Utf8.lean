import ReactSite.Text.Quoted
/-!
# UTF-8 — reading and writing the bytes of a text

A reader splits the bytes into characters and ill-formed parts; each ill-formed part is as long as the bytes could still
be the start of a character.  A tolerant reader shows such a part as U+FFFD, a strict one refuses the text.
-/
namespace ReactSite
namespace Text

/-- Reads `n` continuation bytes, the first between `lo` and `hi`; on a byte that does not fit, what is left starts with
that byte. -/
def continuation (lo hi : UInt8) : Nat → Nat → List UInt8 → Option Nat × List UInt8
  | 0, acc, rest => (some acc, rest)
  | _ + 1, _, [] => (none, [])
  | n + 1, acc, b :: rest =>
    if lo ≤ b ∧ b ≤ hi then continuation 0x80 0xbf n (acc * 64 + b.toNat % 64) rest else (none, b :: rest)

/-- The code point that starts with byte `b`, or none for an ill-formed part, and the bytes after it. -/
def codePoint (b : UInt8) (rest : List UInt8) : Option Nat × List UInt8 :=
  if b < 0x80 then (some b.toNat, rest)
  else if b < 0xc2 then (none, rest)
  else if b < 0xe0 then continuation 0x80 0xbf 1 (b.toNat % 32) rest
  else if b < 0xf0 then
    continuation (if b = 0xe0 then 0xa0 else 0x80) (if b = 0xed then 0x9f else 0xbf) 2 (b.toNat % 16) rest
  else if b < 0xf5 then
    continuation (if b = 0xf0 then 0x90 else 0x80) (if b = 0xf4 then 0x8f else 0xbf) 3 (b.toNat % 8) rest
  else (none, rest)

theorem continuation_length_le (n : Nat) : ∀ (lo hi : UInt8) (acc : Nat) (s : List UInt8),
    (continuation lo hi n acc s).2.length ≤ s.length := by
  induction n with
  | zero => intro lo hi acc s; simp [continuation]
  | succ n ih =>
    intro lo hi acc s
    cases s with
    | nil => simp [continuation]
    | cons b rest =>
      unfold continuation
      split
      · exact Nat.le_trans (ih ..) (Nat.le_succ _)
      · simp

theorem codePoint_length_le (b : UInt8) (rest : List UInt8) : (codePoint b rest).2.length ≤ rest.length := by
  unfold codePoint
  repeat' split
  all_goals first | exact Nat.le_refl _ | exact continuation_length_le ..

/-- **The characters of a byte sequence**, none standing for each ill-formed part. -/
def decodeParts : List UInt8 → List (Option Char)
  | [] => []
  | b :: rest => (codePoint b rest).1.map Char.ofNat :: decodeParts (codePoint b rest).2
termination_by s => s.length
decreasing_by exact Nat.lt_succ_of_le (codePoint_length_le b rest)

/-- **Tolerant reading**: each ill-formed part becomes U+FFFD. -/
def decodeLossy (bytes : List UInt8) : List Char :=
  (decodeParts bytes).map (·.getD '\ufffd')

/-! ## Strict reading -/

/-- **An ill-formed part**: its bytes, where it starts, and whether nothing follows it. -/
structure IllFormed where
  start : Nat
  bytes : List UInt8
  isLast : Bool
deriving DecidableEq, Repr

/-- The first ill-formed part, `start` bytes having been read. -/
def illFormedFrom (start : Nat) : List UInt8 → Option IllFormed
  | [] => none
  | b :: rest =>
    let after := (codePoint b rest).2
    let length := rest.length + 1 - after.length
    if (codePoint b rest).1.isNone then some ⟨start, (b :: rest).take length, after.isEmpty⟩
    else illFormedFrom (start + length) after
termination_by s => s.length
decreasing_by exact Nat.lt_succ_of_le (codePoint_length_le b rest)

/-- **Strict reading**: the characters, or the first ill-formed part. -/
def decode (bytes : List UInt8) : Except IllFormed (List Char) :=
  match illFormedFrom 0 bytes with
  | none      => .ok (decodeLossy bytes)
  | some part => .error part

namespace IllFormed

/-- Why the part is ill-formed: it starts no character, it is cut short, or what follows does not continue it. -/
def reason (p : IllFormed) : String :=
  if p.bytes.all fun b => b < 0xc2 || 0xf5 ≤ b then "invalid start byte"
  else if p.isLast then "unexpected end of data"
  else "invalid continuation byte"

def message (p : IllFormed) : String :=
  let place := match p.bytes with
    | [b] => "byte 0x" ++ String.ofList (hexDigits 2 b.toNat) ++ " in position " ++ toString p.start
    | bs  => "bytes in position " ++ toString p.start ++ "-" ++ toString (p.start + bs.length - 1)
  "'utf-8' codec can't decode " ++ place ++ ": " ++ p.reason

end IllFormed

def encode (s : String) : List UInt8 :=
  s.toUTF8.data.toList

/-- **Every line ends in a line feed**: a carriage return, with or without a line feed after it, becomes one. -/
def unifyNewlines : List Char → List Char
  | '\r' :: '\n' :: rest => '\n' :: unifyNewlines rest
  | '\r' :: rest         => '\n' :: unifyNewlines rest
  | c :: rest            => c :: unifyNewlines rest
  | []                   => []

end Text
end ReactSite
