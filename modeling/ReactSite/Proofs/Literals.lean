import ReactSite.Html.Reference
import ReactSite.Proofs.Expressions
import ReactSite.Proofs.Identifiers
import ReactSite.Proofs.Importing
import ReactSite.Router
/-!
# Literals — what a reader of the generated code makes of a quoted text

Specifiers, module paths and routes are written between double quotes as they are.  A reader ends a string literal at the
next quote and takes a backslash for the beginning of an escape; the value of an attribute ends at the next quote as well,
knows no escapes, and has its character references replaced.  Values are sequences of UTF-16 code units.  An escape and a
reference stand for less than they take, so a text that holds one is never read as itself, however it goes on
(`literal?_quoted`, `attribute?_quoted`).
-/
namespace ReactSite
namespace Jsx

/-! ## Code units -/

/-- The code units of a code point. -/
def codeUnits (n : Nat) : List Nat :=
  if n < 0x10000 then [n] else [0xd800 + (n - 0x10000) / 0x400, 0xdc00 + (n - 0x10000) % 0x400]

/-- **The code units of a text.** -/
def units (s : List Char) : List Nat := s.flatMap fun c => codeUnits c.toNat

theorem length_codeUnits (n : Nat) : 1 ≤ (codeUnits n).length ∧ (codeUnits n).length ≤ 2 := by
  unfold codeUnits
  split <;> simp

@[simp] theorem units_nil : units [] = [] := rfl

@[simp] theorem units_cons (c : Char) (s : List Char) : units (c :: s) = codeUnits c.toNat ++ units s := rfl

theorem length_le_units : ∀ s : List Char, s.length ≤ (units s).length
  | []     => Nat.le_refl 0
  | c :: s => by
    have hc := (length_codeUnits c.toNat).1
    have ih := length_le_units s
    rw [units_cons, List.length_append, List.length_cons]
    omega

theorem units_append (s s' : List Char) : units (s ++ s') = units s ++ units s' := List.flatMap_append

theorem length_units_take_drop (k : Nat) (s : List Char) :
    (units (s.take k)).length + (units (s.drop k)).length = (units s).length := by
  rw [← List.length_append, ← units_append, List.take_append_drop]

/-! ## Spellings -/

/-- **Another way to write something**: the code units it stands for, and how many characters it takes. -/
structure Spelled where
  units : List Nat
  length : Nat
deriving DecidableEq, Repr

/-- The same behind `k` more characters. -/
def Spelled.behind (k : Nat) (e : Spelled) : Spelled := { e with length := e.length + k }

/-- The code unit of a given number of hexadecimal digits. -/
def fixed? (count : Nat) (t : List Char) : Option Spelled :=
  if (t.take count).length = count ∧ (t.take count).all Html.isHexDigit then
    some ⟨[Html.digitsValue 16 (t.take count)], count⟩
  else none

/-- The code point of all digits up to a mark. -/
def numeral? (isDigit : Char → Bool) (base : Nat) (mark : Char) (t : List Char) : Option Spelled :=
  let digits := t.takeWhile isDigit
  if digits ≠ [] ∧ (t.drop digits.length).head? = some mark ∧ Html.digitsValue base digits ≤ 0x10ffff then
    some ⟨codeUnits (Html.digitsValue base digits), digits.length + 1⟩
  else none

/-! ## String literals -/

def isLineEnd (c : Char) : Bool := c = '\n' || c = '\r' || c = '\u2028' || c = '\u2029'

/-- The letters that stand for a control character behind a backslash. -/
def letterEscapes : List (Char × Nat) :=
  [('b', 0x08), ('t', 0x09), ('n', 0x0a), ('v', 0x0b), ('f', 0x0c), ('r', 0x0d)]

/-- **The escape behind a backslash.**  A line end goes on with the literal on the next line; a digit is no escape, but for
a zero that no digit follows; any other character stands for itself. -/
def escape? : List Char → Option Spelled
  | 'x' :: t           => (fixed? 2 t).map (·.behind 1)
  | 'u' :: '\x7b' :: t => (numeral? Html.isHexDigit 16 '\x7d' t).map (·.behind 2)
  | 'u' :: t           => (fixed? 4 t).map (·.behind 1)
  | '\r' :: '\n' :: _  => some ⟨[], 2⟩
  | '0' :: t           => if t.head?.any Char.isDigit then none else some ⟨[0], 1⟩
  | c :: _             =>
    if isLineEnd c then some ⟨[], 1⟩
    else if c.isDigit then none
    else some ⟨((letterEscapes.lookup c).map ([·])).getD (codeUnits c.toNat), 1⟩
  | []                 => none

/-- **Reads a string literal** behind its opening quote, from the `k`-th character on: its code units, and what follows the
closing quote.  No line ends within a literal. -/
def readLiteral : Nat → List Char → Option (List Nat × List Char)
  | _, []         => none
  | k + 1, _ :: t => readLiteral k t
  | 0, c :: t     =>
    if c = '"' then some ([], t)
    else if c = '\\' then
      (escape? t).bind fun e => (readLiteral e.length t).map fun r => (e.units ++ r.1, r.2)
    else if c = '\n' ∨ c = '\r' then none
    else (readLiteral 0 t).map fun r => (codeUnits c.toNat ++ r.1, r.2)

/-- **The value of the string literal** whose opening quote stands in front. -/
def literal? (t : List Char) : Option (List Nat) := (readLiteral 0 t).map (·.1)

/-! ## Attributes -/

/-- **The character reference behind an ampersand**: by number, or by a name that the reader knows. -/
def reference? (names : List Char → Option Char) : List Char → Option Spelled
  | '#' :: 'x' :: t => (numeral? Html.isHexDigit 16 ';' t).map (·.behind 2)
  | '#' :: t        => (numeral? Char.isDigit 10 ';' t).map (·.behind 1)
  | t               =>
    let name := t.takeWhile Naming.isWordChar
    if name ≠ [] ∧ (t.drop name.length).head? = some ';' then
      (names name).map fun c => ⟨codeUnits c.toNat, name.length + 1⟩
    else none

/-- **Replaces the character references** of a text, from its `k`-th character on. -/
def dereference (names : List Char → Option Char) : Nat → List Char → List Nat
  | _, []         => []
  | k + 1, _ :: t => dereference names k t
  | 0, c :: t     =>
    match if c = '&' then reference? names t else none with
    | some e => e.units ++ dereference names e.length t
    | none   => codeUnits c.toNat ++ dereference names 0 t

/-- **The value of the attribute** whose opening quote stands in front. -/
def attribute? (names : List Char → Option Char) (t : List Char) : Option (List Nat) :=
  if '"' ∈ t then some (dereference names 0 (t.takeWhile (· ≠ '"'))) else none

/-! ## What a spelling takes -/

/-- **A spelling that stands in a text**: it takes characters that are there, none of them a quote, and stands for no more
code units than it takes characters. -/
structure Spelled.Fits (e : Spelled) (t : List Char) : Prop where
  length_le : e.length ≤ t.length
  units_le : e.units.length ≤ e.length
  quote : '"' ∉ t.take e.length

theorem Spelled.Fits.behind {e : Spelled} {t p : List Char} (h : e.Fits t) (hp : '"' ∉ p) :
    (e.behind p.length).Fits (p ++ t) where
  length_le := by
    rw [List.length_append, Nat.add_comm p.length]
    exact Nat.add_le_add_right h.length_le p.length
  units_le := Nat.le_add_right_of_le h.units_le
  quote := by
    rw [Spelled.behind, Nat.add_comm, List.take_length_add_append, List.mem_append, not_or]
    exact ⟨hp, h.quote⟩

theorem fits_of_fixed? {count : Nat} {t : List Char} {e : Spelled} (hpos : 1 ≤ count) (h : fixed? count t = some e) :
    e.Fits t := by
  unfold fixed? at h
  split at h
  · rename_i hdigits
    cases h
    refine ⟨?_, hpos, fun hquote => ?_⟩
    · rw [← hdigits.1]
      exact List.length_take_le' count t
    · exact absurd (List.all_eq_true.1 hdigits.2 _ hquote) (by decide)
  · cases h

/-- Characters of one kind and the mark behind them. -/
theorem take_takeWhile_mark {p : Char → Bool} {t : List Char} {mark : Char}
    (h : (t.drop (t.takeWhile p).length).head? = some mark) :
    (t.takeWhile p).length + 1 ≤ t.length ∧ t.take ((t.takeWhile p).length + 1) = t.takeWhile p ++ [mark] := by
  rw [List.head?_drop] at h
  refine ⟨(List.getElem?_eq_some_iff.1 h).1, ?_⟩
  rw [List.take_add_one, h, ← List.prefix_iff_eq_take.1 (List.takeWhile_prefix p)]
  rfl

theorem quote_notMem_takeWhile_mark {p : Char → Bool} {mark : Char} (hp : p '"' = false) (hmark : mark ≠ '"') (t : List Char) :
    '"' ∉ t.takeWhile p ++ [mark] := by
  rw [List.mem_append, not_or]
  refine ⟨fun h => ?_, by simpa using hmark.symm⟩
  have hall := List.all_eq_true.1 (List.all_takeWhile (l := t) (p := p)) _ h
  rw [hp] at hall
  cases hall

theorem fits_of_numeral? {p : Char → Bool} {base : Nat} {mark : Char} {t : List Char} {e : Spelled} (hp : p '"' = false)
    (hmark : mark ≠ '"') (h : numeral? p base mark t = some e) : e.Fits t := by
  unfold numeral? at h
  simp only at h
  split at h
  · rename_i hdigits
    cases h
    obtain ⟨hlen, htake⟩ := take_takeWhile_mark hdigits.2.1
    have hpos := List.length_pos_iff.2 hdigits.1
    have hunits := (length_codeUnits (Html.digitsValue base (t.takeWhile p))).2
    refine ⟨hlen, by simp only; omega, ?_⟩
    simp only
    rw [htake]
    exact quote_notMem_takeWhile_mark hp hmark t
  · cases h

/-- **An escape** takes one character and stands for no more than this has, or it fits. -/
theorem escape?_cases {t : List Char} {e : Spelled} (h : escape? t = some e) :
    e.Fits t ∨ ∃ c t', t = c :: t' ∧ e.length = 1 ∧ e.units.length ≤ (codeUnits c.toNat).length := by
  unfold escape? at h
  split at h
  · obtain ⟨e', h', rfl⟩ := Option.map_eq_some_iff.1 h
    exact .inl ((fits_of_fixed? (by decide) h').behind (p := ['x']) (by decide))
  · obtain ⟨e', h', rfl⟩ := Option.map_eq_some_iff.1 h
    exact .inl ((fits_of_numeral? (by decide) (by decide) h').behind (p := ['u', '\x7b']) (by decide))
  · obtain ⟨e', h', rfl⟩ := Option.map_eq_some_iff.1 h
    exact .inl ((fits_of_fixed? (by decide) h').behind (p := ['u']) (by decide))
  · cases h
    exact .inl ⟨by simp, Nat.zero_le 2, by simp⟩
  · split at h
    · cases h
    · cases h
      exact .inr ⟨_, _, rfl, rfl, (length_codeUnits _).1⟩
  · split at h
    · cases h
      exact .inr ⟨_, _, rfl, rfl, Nat.zero_le _⟩
    split at h
    · cases h
    · rename_i c t _ _ _ _ _ _ _
      cases h
      refine .inr ⟨c, t, rfl, rfl, ?_⟩
      cases letterEscapes.lookup c with
      | none => exact Nat.le_refl _
      | some n => exact (length_codeUnits c.toNat).1
  · cases h

theorem fits_of_reference? {names : List Char → Option Char} {t : List Char} {e : Spelled} (h : reference? names t = some e) :
    e.Fits t := by
  unfold reference? at h
  split at h
  · obtain ⟨e', h', rfl⟩ := Option.map_eq_some_iff.1 h
    exact (fits_of_numeral? (by decide) (by decide) h').behind (p := ['#', 'x']) (by decide)
  · obtain ⟨e', h', rfl⟩ := Option.map_eq_some_iff.1 h
    exact (fits_of_numeral? (by decide) (by decide) h').behind (p := ['#']) (by decide)
  · simp only at h
    split at h
    · rename_i hname
      obtain ⟨c, -, rfl⟩ := Option.map_eq_some_iff.1 h
      obtain ⟨hlen, htake⟩ := take_takeWhile_mark hname.2
      have hpos := List.length_pos_iff.2 hname.1
      have hunits := (length_codeUnits c.toNat).2
      refine ⟨hlen, by simp only; omega, ?_⟩
      simp only
      rw [htake]
      exact quote_notMem_takeWhile_mark (by decide) (by decide) t
    · cases h

/-! ## String literals that denote what they quote -/

/-- **A character that stands for itself** in a string literal between double quotes. -/
def isVerbatim (c : Char) : Bool := c ≠ '"' && c ≠ '\\' && c ≠ '\n' && c ≠ '\r'

section

variable {rest : List Char}

/-- Within a text that a quote ends, an escape stays in the text, or takes the quote. -/
theorem escape?_within {t : List Char} {e : Spelled} (h : escape? (t ++ '"' :: rest) = some e) :
    (e.length ≤ t.length ∧ e.units.length ≤ (units (t.take e.length)).length) ∨ (t = [] ∧ e.length = 1) := by
  rcases escape?_cases h with hfits | ⟨c, t', hsplit, hone, hunits⟩
  · have hlen : e.length ≤ t.length := by
      by_contra hlong
      refine hfits.quote (List.mem_take_iff_getElem.2 ⟨t.length, ?_, by simp⟩)
      rw [List.length_append, List.length_cons]
      omega
    have hle := hfits.units_le
    have hwidth := length_le_units (t.take e.length)
    rw [List.length_take_of_le hlen] at hwidth
    exact .inl ⟨hlen, hle.trans hwidth⟩
  · cases t with
    | nil => exact .inr ⟨rfl, hone⟩
    | cons d t =>
      cases hsplit
      refine .inl ⟨by rw [hone, List.length_cons]; omega, ?_⟩
      rw [hone]
      simpa using hunits

/-- **A literal has no more code units than what stands between its quotes**; nothing is read past the end of the line. -/
theorem length_le_of_readLiteral : ∀ (s : List Char) {k : Nat} {r : List Nat × List Char}, k ≤ s.length →
    readLiteral k (s ++ '"' :: ';' :: '\n' :: rest) = some r → r.1.length ≤ (units (s.drop k)).length
  | [], 0, r, _, h         => by
    rw [List.nil_append, readLiteral, if_pos rfl] at h
    cases h
    exact Nat.le_refl 0
  | _ :: s, k + 1, r, hk, h => length_le_of_readLiteral s (Nat.le_of_succ_le_succ hk) h
  | c :: s, 0, r, _, h      => by
    rw [List.cons_append, readLiteral] at h
    rw [List.drop_zero, units_cons, List.length_append]
    have hc := (length_codeUnits c.toNat).1
    split at h
    · cases h
      exact Nat.zero_le _
    split at h
    · obtain ⟨e, he, hread⟩ := Option.bind_eq_some_iff.1 h
      obtain ⟨r', hr', rfl⟩ := Option.map_eq_some_iff.1 hread
      rcases escape?_within he with ⟨hlen, hunits⟩ | ⟨rfl, hone⟩
      · have ih := length_le_of_readLiteral s hlen hr'
        have hwhole := length_units_take_drop e.length s
        rw [List.length_append]
        omega
      · -- the quote is taken by the escape, and the line ends before there is another one
        rw [hone] at hr'
        cases hr'
    split at h
    · cases h
    · obtain ⟨r', hr', rfl⟩ := Option.map_eq_some_iff.1 h
      have ih := length_le_of_readLiteral s (Nat.zero_le _) hr'
      rw [List.drop_zero] at ih
      rw [List.length_append]
      omega

/-- **A quoted text is read as itself just when all its characters stand for themselves.** -/
theorem literal?_quoted : ∀ s : List Char,
    literal? (s ++ '"' :: ';' :: '\n' :: rest) = some (units s) ↔ ∀ c ∈ s, isVerbatim c = true
  | []     => by simp [literal?, readLiteral]
  | c :: s => by
    have ih := literal?_quoted s
    rw [literal?] at ih ⊢
    rw [List.forall_mem_cons, List.cons_append, readLiteral, units_cons, isVerbatim]
    have hc := (length_codeUnits c.toNat).1
    by_cases hquote : c = '"'
    · -- the literal ends here
      rw [if_pos hquote]
      simp [hquote, codeUnits]
    rw [if_neg hquote]
    by_cases hslash : c = '\\'
    · -- an escape: what is read has fewer code units than the text
      rw [if_pos hslash]
      refine iff_of_false (fun h => ?_) (by simp [hslash])
      obtain ⟨r, hread, hr⟩ := Option.map_eq_some_iff.1 h
      obtain ⟨e, he, hread⟩ := Option.bind_eq_some_iff.1 hread
      obtain ⟨r', hr', rfl⟩ := Option.map_eq_some_iff.1 hread
      rcases escape?_within he with ⟨hlen, hunits⟩ | ⟨rfl, hone⟩
      · have hle := length_le_of_readLiteral s hlen hr'
        have hwhole := length_units_take_drop e.length s
        have heq := congrArg List.length hr
        simp only [List.length_append] at heq
        omega
      · rw [hone] at hr'
        cases hr'
    rw [if_neg hslash]
    by_cases hline : c = '\n' ∨ c = '\r'
    · rw [if_pos hline]
      rcases hline with rfl | rfl <;> simp
    · rw [if_neg hline, ← ih]
      rw [not_or] at hline
      simp [hquote, hslash, hline, Option.map_map]

/-- A quote and a backslash that are escaped, and a letter by its number. -/
example : literal? "a\\\"\\\\\\x62\";\n".toList = some (units "a\"\\b".toList) := by
  decide

end

/-! ## Attributes that denote what they quote -/

variable {names : List Char → Option Char}

/-- **A text holds a character reference.** -/
def HasReference (names : List Char → Option Char) (s : List Char) : Prop :=
  ∃ p q, s = p ++ '&' :: q ∧ (reference? names q).isSome

theorem hasReference_cons {c : Char} {s : List Char} :
    HasReference names (c :: s) ↔ (c = '&' ∧ (reference? names s).isSome) ∨ HasReference names s := by
  constructor
  · rintro ⟨p, q, h, hq⟩
    cases p with
    | nil => cases h; exact .inl ⟨rfl, hq⟩
    | cons d p => cases h; exact .inr ⟨p, q, rfl, hq⟩
  · rintro (⟨rfl, h⟩ | ⟨p, q, rfl, hq⟩)
    · exact ⟨[], s, rfl, h⟩
    · exact ⟨c :: p, q, rfl, hq⟩

/-- What a reference stands for, and what comes after it, have no more code units than the text. -/
theorem length_reference?_le {s : List Char} {e : Spelled} (h : reference? names s = some e) :
    e.units.length + (units (s.drop e.length)).length ≤ (units s).length := by
  have hfits := fits_of_reference? h
  have hwidth := length_le_units (s.take e.length)
  have hwhole := length_units_take_drop e.length s
  have hle := hfits.units_le
  rw [List.length_take_of_le hfits.length_le] at hwidth
  omega

variable (names) in
theorem length_dereference_le : ∀ (s : List Char) (k : Nat),
    (dereference names k s).length ≤ (units (s.drop k)).length
  | [], _         => by simp [dereference]
  | _ :: s, k + 1 => length_dereference_le s k
  | c :: s, 0     => by
    rw [dereference, List.drop_zero, units_cons, List.length_append]
    split
    · rename_i e he
      split at he
      · have href := length_reference?_le he
        have ih := length_dereference_le s e.length
        rw [List.length_append]
        omega
      · cases he
    · have ih := length_dereference_le s 0
      rw [List.drop_zero] at ih
      rw [List.length_append]
      omega

/-- **A text stays as it is just when there is nothing to replace.** -/
theorem dereference_eq_units : ∀ s : List Char, dereference names 0 s = units s ↔ ¬ HasReference names s
  | []     => by simp [dereference, HasReference]
  | c :: s => by
    have ih := dereference_eq_units s
    rw [dereference, units_cons, hasReference_cons]
    split
    · rename_i e he
      split at he
      · rename_i hamp
        refine iff_of_false (fun h => ?_) (fun h => h (.inl ⟨hamp, by rw [he]; rfl⟩))
        have href := length_reference?_le he
        have hle := length_dereference_le names s e.length
        have hc := (length_codeUnits c.toNat).1
        have heq := congrArg List.length h
        rw [List.length_append, List.length_append] at heq
        omega
      · cases he
    · rename_i he
      rw [List.append_cancel_left_eq, ih, not_or]
      refine (and_iff_right ?_).symm
      rintro ⟨hamp, href⟩
      rw [if_pos hamp] at he
      rw [he] at href
      cases href

theorem takeWhile_quote {s : List Char} (h : '"' ∉ s) (t : List Char) : (s ++ '"' :: t).takeWhile (· ≠ '"') = s := by
  have hall : ∀ c ∈ s, decide (c ≠ '"') = true := fun c hc => decide_eq_true fun e => h (e ▸ hc)
  rw [List.takeWhile_append_of_pos hall]
  simp

/-- **A quoted attribute is read as itself just when it holds neither a quote nor a reference.** -/
theorem attribute?_quoted (s rest : List Char) :
    attribute? names (s ++ '"' :: rest) = some (units s) ↔ '"' ∉ s ∧ ¬ HasReference names s := by
  rw [attribute?, if_pos (by simp), Option.some.injEq]
  by_cases hquote : '"' ∈ s
  · -- what is read ends at the first quote
    refine iff_of_false (fun h => ?_) (fun h => h.1 hquote)
    obtain ⟨p, q, rfl, hp⟩ := List.eq_append_cons_of_mem hquote
    rw [List.append_assoc, List.cons_append, takeWhile_quote hp] at h
    have hle := length_dereference_le names p 0
    have heq := congrArg List.length h
    rw [units_append, units_cons, List.length_append, List.length_append] at heq
    have hc := (length_codeUnits '"'.toNat).1
    rw [List.drop_zero] at hle
    omega
  · rw [takeWhile_quote hquote, dereference_eq_units]
    exact (and_iff_right hquote).symm

end Jsx

/-! ## The lines of a module -/

/-- **A module quotes a text**: in a line of its own, between what leads up to the quote and what follows the quote behind
the text; `rest` is what a reader has before it once it is past the opening quote. -/
def Quotes (module lead value tail : String) (rest : List Char) : Prop :=
  ∃ before after, module.toList = before ++ (lead.toList ++ '"' :: rest) ∧
    rest = value.toList ++ '"' :: (tail.toList ++ '\n' :: after)

theorem exists_line {line : String} (q : List Char) : ∀ {lines : List String}, line ∈ lines →
    ∃ p r, ("\n".intercalate lines).toList ++ '\n' :: q = p ++ (line.toList ++ '\n' :: r)
  | [], h => absurd h List.not_mem_nil
  | [l], h => by
    rw [List.mem_singleton.1 h, String.intercalate_singleton]
    exact ⟨[], q, rfl⟩
  | l :: l' :: lines, h => by
    rw [String.intercalate_cons_cons, String.toList_append, String.toList_append, List.append_assoc, List.append_assoc]
    rcases List.mem_cons.1 h with rfl | h
    · exact ⟨[], _, rfl⟩
    · obtain ⟨p, r, hline⟩ := exists_line q h
      rw [hline]
      exact ⟨l.toList ++ "\n".toList ++ p, r, by simp only [List.append_assoc]⟩

section

variable {module line lead value : String} {lines : List String} {p q : List Char}

theorem exists_quotes {t : String} (hmem : line ∈ lines)
    (hline : line.toList = lead.toList ++ '"' :: (value.toList ++ '"' :: t.toList))
    (hmodule : module.toList = p ++ (("\n".intercalate lines).toList ++ '\n' :: q)) :
    ∃ after, Quotes module lead value t (value.toList ++ '"' :: (t.toList ++ '\n' :: after)) := by
  obtain ⟨before, after, hlines⟩ := exists_line q hmem
  refine ⟨after, p ++ before, after, ?_, rfl⟩
  rw [hmodule, hlines, hline]
  simp only [List.append_assoc, List.cons_append]

/-- **The string literal of an import statement** in a module denotes what it quotes just when this can be quoted as it is. -/
theorem exists_quotes_literal (hmem : line ∈ lines)
    (hline : line.toList = lead.toList ++ '"' :: (value.toList ++ ['"', ';']))
    (hmodule : module.toList = p ++ (("\n".intercalate lines).toList ++ '\n' :: q)) :
    ∃ rest, Quotes module lead value ";" rest ∧ (Jsx.literal? rest = some (Jsx.units value.toList) ↔
      ∀ c ∈ value.toList, Jsx.isVerbatim c = true) := by
  obtain ⟨after, h⟩ := exists_quotes (t := ";") hmem hline hmodule
  exact ⟨_, h, Jsx.literal?_quoted value.toList⟩

end

/-- The line that imports from a module; `p` is what leads up to the quote, and the module path in quotes. -/
def importing (p : String × String) : String := p.1 ++ "\"" ++ p.2 ++ "\";"

theorem toList_importing (p : String × String) :
    (importing p).toList = p.1.toList ++ '"' :: (p.2.toList ++ ['"', ';']) := by
  have hquote : "\"".toList = ['"'] := by decide
  have hend : "\";".toList = ['"', ';'] := by decide
  rw [importing, String.toList_append, String.toList_append, String.toList_append, hquote, hend, List.append_assoc,
    List.append_assoc, List.singleton_append]

theorem valueImport_eq (v s : String) : valueImport v s = importing ("import " ++ v ++ " from ", s) := by
  have hfrom : " from \"" = " from " ++ "\"" := by decide
  simp only [valueImport, importing, hfrom, String.append_assoc]

theorem effectImport_eq (s : String) : effectImport s = importing ("import ", s) := by
  have himport : "import \"" = "import " ++ "\"" := by decide
  simp only [effectImport, importing, himport]

namespace Router

/-- The imports of an entry module: what leads up to each module path, and the path. -/
def quotedImports (t : Router) : List (String × String) :=
  [("import React from ", "react"), ("import ReactDOM from ", "react-dom/client"),
    ("import \x7b BrowserRouter, Routes, Route \x7d from ", "react-router-dom"),
    ("import " ++ t.entryComponent ++ " from ", "./" ++ t.entryComponent)] ++
  t.entries.map fun e => ("import " ++ pageIdentifier e.modulePath ++ " from ", e.modulePath)

/-- The routes of an entry module, each with the component that it shows. -/
def quotedRoutes (t : Router) : List (String × String) :=
  t.entries.map (fun e => (e.route, pageIdentifier e.modulePath)) ++ [("*", t.entryComponent)]

theorem entryModule_eq_quoted (t : Router) : t.entryModule =
    "\n".intercalate (t.quotedImports.map importing) ++
      "\n\nconst root = ReactDOM.createRoot(document.getElementById(\"root\"));\nroot.render(\n  <BrowserRouter>\n" ++
      "    <Routes>\n" ++ "\n".intercalate (t.quotedRoutes.map fun r => routeLine r.1 r.2) ++
      "\n    </Routes>\n  </BrowserRouter>\n);\n" := by
  have himports : t.quotedImports.map importing = [Page.reactImport, "import ReactDOM from \"react-dom/client\";",
      "import \x7b BrowserRouter, Routes, Route \x7d from \"react-router-dom\";",
      valueImport t.entryComponent ("./" ++ t.entryComponent)] ++ t.pageImports := by
    rw [quotedImports, List.map_append, List.map_map, valueImport_eq]
    exact congrArg₂ (· ++ ·) rfl (List.map_congr_left fun e _ => (valueImport_eq _ _).symm)
  have hroutes : t.quotedRoutes.map (fun r => routeLine r.1 r.2) =
      t.entries.map (fun e => routeLine e.route (pageIdentifier e.modulePath)) ++ [routeLine "*" t.entryComponent] := by
    rw [quotedRoutes, List.map_append, List.map_map]
    rfl
  rw [entryModule_eq, himports, hroutes]

theorem exists_toList_entryModule_imports (t : Router) :
    ∃ q, t.entryModule.toList = [] ++ (("\n".intercalate (t.quotedImports.map importing)).toList ++ '\n' :: q) := by
  have hbreak :
      "\n\nconst root = ReactDOM.createRoot(document.getElementById(\"root\"));\nroot.render(\n  <BrowserRouter>\n".toList =
      '\n' :: "\nconst root = ReactDOM.createRoot(document.getElementById(\"root\"));\nroot.render(\n  <BrowserRouter>\n".toList := by
    decide +kernel
  rw [entryModule_eq_quoted]
  simp only [String.toList_append, hbreak, List.append_assoc, List.cons_append, List.nil_append]
  exact ⟨_, rfl⟩

theorem exists_toList_entryModule_routes (t : Router) : ∃ p q, t.entryModule.toList =
    p ++ (("\n".intercalate (t.quotedRoutes.map fun r => routeLine r.1 r.2)).toList ++ '\n' :: q) := by
  have hbreak : "\n    </Routes>\n  </BrowserRouter>\n);\n".toList =
      '\n' :: "    </Routes>\n  </BrowserRouter>\n);\n".toList := by
    decide +kernel
  rw [entryModule_eq_quoted, String.toList_append, String.toList_append, hbreak, List.append_assoc]
  exact ⟨_, _, rfl⟩

theorem toList_routeLine (path identifier : String) : (routeLine path identifier).toList =
    "      <Route path=".toList ++ '"' :: (path.toList ++ '"' :: (" element=\x7b<" ++ identifier ++ " />\x7d />").toList) := by
  have hopen : "      <Route path=\"".toList = "      <Route path=".toList ++ ['"'] := by decide
  have hclose : "\" element=\x7b<".toList = '"' :: " element=\x7b<".toList := by decide
  unfold routeLine
  simp only [String.toList_append, hopen, hclose, List.append_assoc, List.cons_append, List.nil_append]

end Router

namespace Page

/-- **The assets and style sheets that a page imports**: each under a specifier for a link that leads to a file. -/
theorem exists_link_of_import {site : Surroundings} {table : RenameTable} {tags : List Tag} {statement : String}
    (h : statement ∈ (Mapping.ofPage site table tags).imports) (hnav : statement ≠ Mapping.navigationImport) :
    ∃ link lead, site.isInternal link = true ∧
      (lead = "import " ∨ ∃ v ∈ (Mapping.ofPage site table tags).identifiers, lead = "import " ++ v ++ " from ") ∧
      statement = importing (lead, Naming.specifier link site.directory) := by
  have hdemanded := Mapping.ofPage_importsDemanded site table tags
  obtain heq | ⟨v, hv, s, rfl⟩ | ⟨r, -, -, link, hlink, rfl⟩ := hdemanded.only statement h
  · exact absurd heq hnav
  · obtain ⟨p, -, -, link, hlink, hin, -⟩ := hdemanded.used v hv
    obtain rfl := (hdemanded.unique_specifier v hv).unique h hin
    exact ⟨link, _, (Option.filter_eq_some_iff.1 hlink).2, .inr ⟨v, hv, rfl⟩, valueImport_eq v _⟩
  · exact ⟨link, _, (Option.filter_eq_some_iff.1 hlink).2, .inl rfl, effectImport_eq _⟩

theorem exists_toList_render (imports : List String) (name content effect : String) :
    ∃ q, (render imports name content effect).toList = ("\n".intercalate imports).toList ++ '\n' :: q := by
  have hbreak : "\n\nfunction ".toList = '\n' :: "\nfunction ".toList := by decide
  refine ⟨("\nfunction " ++ name ++ "() \x7b\n" ++ effect ++ "  return (\n    <>\n" ++ content ++
    "\n    </>\n  );\n\x7d\n\nexport default " ++ name ++ ";\n").toList, ?_⟩
  simp only [render, String.toList_append, hbreak, List.append_assoc, List.cons_append]

theorem exists_lines_of_moduleText {document : Document} {tags : List Tag} {outcome : Outcome} {file : Option String}
    {name text : String} (h : moduleText document tags outcome name file = .ok text) :
    ∃ lines q, (∀ statement ∈ outcome.imports, statement ∈ lines) ∧
      text.toList = ("\n".intercalate lines).toList ++ '\n' :: q := by
  obtain ⟨draft, -, rfl⟩ := exists_of_moduleText h
  obtain ⟨q, hq⟩ := exists_toList_render _ _ _ _
  exact ⟨_, q, fun statement hin => List.mem_append_right _ hin, hq⟩

end Page

/-- **What quoted texts denote.**  Every import of an asset or a style sheet stands in its page's module in a line of its
own, with the specifier for an internal link between its quotes; every import of an entry module stands so with its module
path, and every route with its address.  The string literal there has the specifier or the path as its value just when none
of its characters is a quote, a backslash or a line break, and the attribute has the address as its value just when there is
no quote in it and nothing that a JSX reader takes for a character reference, whichever names it knows. -/
theorem quoted_denotes_iff (names : List Char → Option Char) :
    (∀ document tags site table name file text,
      Page.moduleText document tags (Mapping.ofPage site table tags) name file = .ok text →
        ∀ statement ∈ (Mapping.ofPage site table tags).imports, statement ≠ Mapping.navigationImport →
          ∃ link lead rest, site.isInternal link = true ∧
            (lead = "import " ∨ ∃ v ∈ (Mapping.ofPage site table tags).identifiers, lead = "import " ++ v ++ " from ") ∧
            statement = importing (lead, Naming.specifier link site.directory) ∧
            Quotes text lead (Naming.specifier link site.directory) ";" rest ∧
            (Jsx.literal? rest = some (Jsx.units (Naming.specifier link site.directory).toList) ↔
              ∀ c ∈ (Naming.specifier link site.directory).toList, Jsx.isVerbatim c = true)) ∧
    ∀ t : Router,
      (∀ i ∈ t.quotedImports, ∃ rest, Quotes t.entryModule i.1 i.2 ";" rest ∧
        (Jsx.literal? rest = some (Jsx.units i.2.toList) ↔ ∀ c ∈ i.2.toList, Jsx.isVerbatim c = true)) ∧
      (∀ r ∈ t.quotedRoutes, ∃ rest,
        Quotes t.entryModule "      <Route path=" r.1 (" element=\x7b<" ++ r.2 ++ " />\x7d />") rest ∧
          (Jsx.attribute? names rest = some (Jsx.units r.1.toList) ↔
            '"' ∉ r.1.toList ∧ ¬ Jsx.HasReference names r.1.toList)) := by
  refine ⟨?pages, fun t => ⟨?imports, ?routes⟩⟩
  case pages =>
    intro document tags site table name file text h statement hin hnav
    obtain ⟨lines, q, hlines, htext⟩ := Page.exists_lines_of_moduleText h
    obtain ⟨link, lead, hlink, hlead, rfl⟩ := Page.exists_link_of_import hin hnav
    obtain ⟨rest, hquotes, hiff⟩ := exists_quotes_literal (p := []) (hlines _ hin) (toList_importing _) htext
    exact ⟨link, lead, rest, hlink, hlead, rfl, hquotes, hiff⟩
  case imports =>
    intro i hi
    obtain ⟨q, hq⟩ := t.exists_toList_entryModule_imports
    exact exists_quotes_literal (p := []) (List.mem_map_of_mem hi) (toList_importing i) hq
  case routes =>
    intro r hr
    obtain ⟨p, q, hq⟩ := t.exists_toList_entryModule_routes
    have hline : Router.routeLine r.1 r.2 ∈ t.quotedRoutes.map fun r => Router.routeLine r.1 r.2 := List.mem_map_of_mem hr
    obtain ⟨after, hquotes⟩ := exists_quotes hline (Router.toList_routeLine r.1 r.2) hq
    exact ⟨_, hquotes, Jsx.attribute?_quoted _ _⟩

/-- The module of a page in a directory is imported by its path. -/
theorem quoted_denotes_team : ∃ rest,
    Quotes (Router.entryModule ⟨"App", [Router.entryFor "about" "team"]⟩) "import Page_about_Team from " "./about/Team"
      ";" rest ∧
      Jsx.literal? rest = some (Jsx.units "./about/Team".toList) := by
  have himport : ("import Page_about_Team from ", "./about/Team") ∈
      Router.quotedImports ⟨"App", [Router.entryFor "about" "team"]⟩ := by decide +kernel
  have hverbatim : "./about/Team".toList.all Jsx.isVerbatim = true := by decide +kernel
  obtain ⟨rest, hquotes, hiff⟩ := ((quoted_denotes_iff fun _ => none).2 _).1 _ himport
  exact ⟨rest, hquotes, hiff.2 (List.all_eq_true.1 hverbatim)⟩

namespace Page

/-- A site with an image that has a quote in its name. -/
def quoteSite : Surroundings :=
  ⟨⟨[(["site"], .directory), (["site", "a\"b.png"], .file [])], [], []⟩, ⟨1, ["site"]⟩, ""⟩

def quotePage : Element :=
  .mk 0 "html" [] "" [.mk 0 "body" [] "" [.mk 0 "img" [("src", "a\"b.png")] "" [] ""] ""] ""

/-- **The quote in the name of an image ends the literal**: what is imported is another file. -/
theorem literal_cut_short : ∃ tags rest, tagsOf quotePage.numbered = .ok tags ∧
    moduleText ⟨quotePage.numbered, false⟩ tags (Mapping.ofPage quoteSite [] tags) "Page" =
      .ok ("import React from \"react\";\nimport a_b_png from \"" ++ rest) ∧
    rest = Naming.specifier "a\"b.png" quoteSite.directory ++ "\";\n\nfunction Page() \x7b\n  return (\n    <>\n" ++
      "<img src=\x7ba_b_png\x7d/>\n    </>\n  );\n\x7d\n\nexport default Page;\n" ∧
    Jsx.literal? rest.toList = some (Jsx.units "./a".toList) ∧
    Jsx.units "./a".toList ≠ Jsx.units (Naming.specifier "a\"b.png" quoteSite.directory).toList := by
  refine ⟨_, _, rfl, ?_, rfl, ?_, ?_⟩
  · decide +kernel
  · decide +kernel
  · decide

end Page
end ReactSite
