import Mathlib.Data.List.Chain
import ReactSite.Html.Reference
import ReactSite.Proofs.Expressions
import ReactSite.Proofs.Reading
/-!
# Titles — what a JSX reader makes of a title

The text of a title is one child: itself, or with a brace in it a string expression.  Then it is written as XML, which
spells the characters of markup as entities.  A reader takes entities back in running text, but not in an expression, so a
string reads as the title's text with the entities in it (`readString_written`).  A title keeps its text just when that
makes no difference, and its string does not end as an imported placeholder in quotes does (`denotes_titleInside_iff`).
-/
namespace ReactSite
namespace Jsx

open Xml (Spelling TextLetter)

/-- The letters that stand for a character behind a backslash. -/
def stringEscapes : List (Char × Char) :=
  [('"', '"'), ('\\', '\\'), ('/', '/'), ('b', '\x08'), ('f', '\x0c'), ('n', '\n'), ('r', '\r'), ('t', '\t')]

/-- The character that four hexadecimal digits stand for; half of a surrogate pair is none. -/
def numberedChar? (digits : List Char) : Option Char :=
  if digits.all Html.isHexDigit ∧ (Html.digitsValue 16 digits).isValidChar then
    some (Char.ofNat (Html.digitsValue 16 digits))
  else none

/-- **Reads a string literal** behind its opening quote.  The literal has a value only if its closing quote ends the text. -/
def readString : List Char → Option (List Char)
  | []                                      => none
  | ['"']                                   => some []
  | '\\' :: 'u' :: a :: b :: c :: d :: rest =>
    (numberedChar? [a, b, c, d]).bind fun x => (readString rest).map (x :: ·)
  | '\\' :: e :: rest                       => (stringEscapes.lookup e).bind fun x => (readString rest).map (x :: ·)
  | c :: rest                               =>
    if c = '"' ∨ c = '\\' ∨ c.val < 0x20 then none else (readString rest).map (c :: ·)

/-- **What stands between two tags denotes a text**: as a string literal in braces, or as running text without a brace. -/
inductive Denotes : List Char → List Char → Prop where
  | expression {s t : List Char} (h : readString s = some t) : Denotes ('\x7b' :: '"' :: (s ++ ['\x7d'])) t
  | text {s t : List Char} (hbrace : ∀ c ∈ s, isBrace c = false) (h : Spelling TextLetter s t) : Denotes s t

/-- **Behind an opening brace stands a string literal**, and a closing brace ends it. -/
theorem denotes_cons_iff {s t : List Char} :
    Denotes ('\x7b' :: s) t ↔ ∃ r, s = '"' :: (r ++ ['\x7d']) ∧ readString r = some t := by
  constructor
  · intro h
    generalize hw : '\x7b' :: s = w at h
    cases h with
    | expression h => exact ⟨_, (List.cons.inj hw).2, h⟩
    | text hbrace =>
      have hopen := hbrace '\x7b' (by rw [← hw]; exact List.mem_cons_self)
      cases hopen
  · rintro ⟨r, rfl, h⟩
    exact .expression h

/-! ## Strings -/

/-- A character that stands for itself in a string. -/
def isPlain (c : Char) : Bool := c ≠ '"' && c ≠ '\\' && !(c.val < 0x20)

theorem readString_plain {c : Char} (h : isPlain c = true) (rest : List Char) :
    readString (c :: rest) = (readString rest).map (c :: ·) := by
  simp only [isPlain, Bool.and_eq_true, decide_eq_true_eq, Bool.not_eq_true', decide_eq_false_iff_not] at h
  obtain ⟨⟨hquote, hslash⟩, hlow⟩ := h
  rw [readString.eq_5 c rest (fun h => absurd h hquote) (fun _ _ _ _ _ h => absurd h hslash) fun _ _ h => absurd h hslash,
    if_neg (by simp [hquote, hslash, hlow])]

theorem readString_plains (rest : List Char) : ∀ {s : List Char}, (∀ c ∈ s, isPlain c = true) →
    readString (s ++ rest) = (readString rest).map (s ++ ·)
  | [], _     => by simp
  | c :: s, h => by
    rw [List.forall_mem_cons] at h
    rw [List.cons_append, readString_plain h.1, readString_plains rest h.2, Option.map_map]
    rfl

theorem getLast?_cons_of_some {c d : Char} {s : List Char} (h : s.getLast? = some d) : (c :: s).getLast? = some d := by
  rw [List.getLast?_cons, h]
  rfl

theorem getLast?_of_readString {s t : List Char} (h : readString s = some t) : s.getLast? = some '"' := by
  induction s using readString.induct generalizing t with
  | case1 => cases h
  | case2 => rfl
  | case3 a b c d rest ih =>
    rw [readString] at h
    obtain ⟨x, -, h⟩ := Option.bind_eq_some_iff.1 h
    obtain ⟨t', h, -⟩ := Option.map_eq_some_iff.1 h
    iterate 6 apply getLast?_cons_of_some
    exact ih h
  | case4 e rest hu ih =>
    rw [readString.eq_4 e rest hu] at h
    obtain ⟨x, -, h⟩ := Option.bind_eq_some_iff.1 h
    obtain ⟨t', h, -⟩ := Option.map_eq_some_iff.1 h
    exact getLast?_cons_of_some (getLast?_cons_of_some (ih h))
  | case5 c rest hquote hu hslash hbad =>
    rw [readString.eq_5 c rest hquote hu hslash, if_pos hbad] at h
    cases h
  | case6 c rest hquote hu hslash hgood ih =>
    rw [readString.eq_5 c rest hquote hu hslash, if_neg hgood] at h
    obtain ⟨t', h, -⟩ := Option.map_eq_some_iff.1 h
    exact getLast?_cons_of_some (ih h)

theorem readString_escape {e c : Char} (h : (e, c) ∈ stringEscapes) (rest : List Char) :
    readString ('\\' :: e :: rest) = (readString rest).map (c :: ·) := by
  have hletters : ∀ p ∈ stringEscapes, p.1 ≠ 'u' ∧ stringEscapes.lookup p.1 = some p.2 := by decide
  obtain ⟨hu, hlookup⟩ := hletters _ h
  rw [readString.eq_4 e rest fun _ _ _ _ _ h => absurd h hu, hlookup]
  rfl

theorem readString_numbered {digits : List Char} {c : Char} (hlen : digits.length = 4)
    (hc : numberedChar? digits = some c) (rest : List Char) :
    readString ('\\' :: 'u' :: (digits ++ rest)) = (readString rest).map (c :: ·) := by
  obtain ⟨x, y, z, w, rfl⟩ := List.length_eq_four.1 hlen
  rw [List.cons_append, List.cons_append, List.cons_append, List.cons_append, List.nil_append, readString, hc]
  rfl

/-! ### In the markup -/

/-- The characters that markup itself uses. -/
def isMarkup (c : Char) : Bool := c = '&' || c = '<' || c = '>'

theorem basicEntity_cases (c : Char) :
    (Xml.basicEntity c = [c] ∧ isMarkup c = false) ∨ (1 < (Xml.basicEntity c).length ∧ isMarkup c = true) := by
  unfold Xml.basicEntity
  split
  · exact .inr (by decide)
  · exact .inr (by decide)
  · exact .inr (by decide)
  · rename_i hamp hlt hgt
    refine .inl ⟨rfl, ?_⟩
    rw [isMarkup, decide_eq_false hamp, decide_eq_false hlt, decide_eq_false hgt]
    rfl

/-- One character of a string as it is written: escaped for the string, and then for the markup. -/
def writtenChar (c : Char) : List Char := (jsonChar c).flatMap Xml.textEntity

theorem numberedChar?_hexDigits : ∀ n < 0x20, (Text.hexDigits 4 n).flatMap Xml.textEntity = Text.hexDigits 4 n ∧
    (Text.hexDigits 4 n).length = 4 ∧ '"' ∉ Text.hexDigits 4 n ∧
    numberedChar? (Text.hexDigits 4 n) = some (Char.ofNat n) ∧ isMarkup (Char.ofNat n) = false := by
  decide

/-- **How a character is written in a string**: behind a backslash as a letter or as its number, or as its entity. -/
inductive Written (c : Char) : List Char → Prop where
  | letter {e : Char} (h : (e, c) ∈ stringEscapes) (hc : Xml.basicEntity c = [c]) : Written c ['\\', e]
  | number {digits : List Char} (hlen : digits.length = 4) (hquote : '"' ∉ digits) (h : numberedChar? digits = some c)
      (hc : Xml.basicEntity c = [c]) : Written c ('\\' :: 'u' :: digits)
  | entity (h : ∀ d ∈ Xml.basicEntity c, isPlain d = true) : Written c (Xml.basicEntity c)

theorem basicEntity_of_not_markup {c : Char} (h : isMarkup c = false) : Xml.basicEntity c = [c] := by
  rcases basicEntity_cases c with ⟨e, -⟩ | ⟨-, hc⟩
  · exact e
  · rw [h] at hc
    cases hc

theorem written_writtenChar (c : Char) : Written c (writtenChar c) := by
  unfold writtenChar
  by_cases h : c ∈ ['"', '\\', '\n', '\r', '\t', '\x08', '\x0c']
  · simp only [List.mem_cons, List.not_mem_nil, or_false] at h
    rcases h with rfl | rfl | rfl | rfl | rfl | rfl | rfl <;> exact .letter (by decide) rfl
  · simp only [List.mem_cons, List.not_mem_nil, or_false, not_or] at h
    obtain ⟨hquote, hslash, hline, hreturn, htab, hback, hfeed⟩ := h
    rw [jsonChar, if_neg hquote, if_neg hslash, if_neg hline, if_neg hreturn, if_neg htab, if_neg hback, if_neg hfeed]
    by_cases hlow : c.val < 0x20
    · obtain ⟨hdigits, hlen, hnone, hc, hmarkup⟩ := numberedChar?_hexDigits c.toNat (UInt32.lt_iff_toNat_lt.1 hlow)
      rw [Char.ofNat_toNat] at hc hmarkup
      rw [if_pos hlow, List.flatMap_cons, List.flatMap_cons, hdigits]
      exact .number hlen hnone hc (basicEntity_of_not_markup hmarkup)
    · rw [if_neg hlow, List.flatMap_singleton, Xml.textEntity, if_neg hreturn]
      refine .entity ?_
      unfold Xml.basicEntity
      split
      · exact List.all_eq_true.1 (by decide)
      · exact List.all_eq_true.1 (by decide)
      · exact List.all_eq_true.1 (by decide)
      · simp [isPlain, hquote, hslash, UInt32.not_lt.1 hlow]

/-- **A written character is read as its entity.** -/
theorem readString_writtenChar (c : Char) (rest : List Char) :
    readString (writtenChar c ++ rest) = (readString rest).map (Xml.basicEntity c ++ ·) := by
  have hw := written_writtenChar c
  generalize writtenChar c = w at hw ⊢
  cases hw with
  | letter h hc =>
    rw [hc]
    exact readString_escape h rest
  | number hlen hquote h hc =>
    rw [hc]
    exact readString_numbered hlen h rest
  | entity h => exact readString_plains rest h

/-- **A string in the markup reads as its text with the entities in it.** -/
theorem readString_written : ∀ s : List Char,
    readString (s.flatMap writtenChar ++ ['"']) = some (s.flatMap Xml.basicEntity)
  | []     => rfl
  | c :: s => by
    rw [List.flatMap_cons, List.append_assoc, readString_writtenChar, readString_written s]
    rfl

theorem length_le_flatMap_basicEntity (s : List Char) : s.length ≤ (s.flatMap Xml.basicEntity).length := by
  induction s with
  | nil => exact Nat.le_refl _
  | cons c s ih =>
    rw [List.flatMap_cons, List.length_append, List.length_cons]
    rcases basicEntity_cases c with ⟨h, -⟩ | ⟨h, -⟩
    · rw [h, List.length_singleton]
      omega
    · omega

theorem flatMap_basicEntity_eq_self_iff {s : List Char} :
    s.flatMap Xml.basicEntity = s ↔ ∀ c ∈ s, isMarkup c = false := by
  induction s with
  | nil => simp
  | cons c s ih =>
    have hle := length_le_flatMap_basicEntity s
    rw [List.flatMap_cons, List.forall_mem_cons]
    rcases basicEntity_cases c with ⟨h, hc⟩ | ⟨h, hc⟩
    · rw [h, List.singleton_append, List.cons.injEq, ih]
      simp [hc]
    · refine iff_of_false (fun e => ?_) fun e => ?_
      · have hlen := congrArg List.length e
        rw [List.length_append, List.length_cons] at hlen
        omega
      · rw [hc] at e
        cases e.1

/-! ### Quotes -/

/-- **A quote that no closing brace comes before**, as two neighbours. -/
def Unclosed (a b : Char) : Prop := a = '\x7d' → b ≠ '"'

theorem isChain_of_quote_notMem : ∀ {s : List Char}, '"' ∉ s → s.IsChain Unclosed
  | [], _          => .nil
  | [c], _         => .singleton c
  | c :: d :: s, h => by
    rw [List.mem_cons, not_or] at h
    refine .cons_cons (fun _ hd => ?_) (isChain_of_quote_notMem h.2)
    rw [hd] at h
    exact h.2 List.mem_cons_self

/-- A written character does not begin with a quote, and a quote in it has a backslash before it. -/
theorem isChain_writtenChar (c : Char) : (writtenChar c).IsChain Unclosed ∧ (writtenChar c).head? ≠ some '"' := by
  have hw := written_writtenChar c
  generalize writtenChar c = w at hw ⊢
  cases hw with
  | letter h hc => exact ⟨.cons_cons (fun h => absurd h (by decide)) (.singleton _), by simp⟩
  | number hlen hquote h hc => exact ⟨isChain_of_quote_notMem (by simp [hquote]), by simp⟩
  | entity h =>
    have hnone : '"' ∉ Xml.basicEntity c := fun hin => absurd (h _ hin) (by decide)
    exact ⟨isChain_of_quote_notMem hnone, fun hhead => hnone (List.mem_of_head? hhead)⟩

theorem isChain_append {s s' : List Char} (h : s.IsChain Unclosed) (h' : s'.IsChain Unclosed)
    (hhead : s'.head? ≠ some '"') : (s ++ s').IsChain Unclosed :=
  List.isChain_append.2 ⟨h, h', fun _ _ _ hb _ e => hhead (e ▸ hb)⟩

theorem isChain_written : ∀ s : List Char, (s.flatMap writtenChar).IsChain Unclosed ∧
    (s.flatMap writtenChar).head? ≠ some '"'
  | []     => ⟨.nil, by simp⟩
  | c :: s => by
    obtain ⟨hc, hhead⟩ := isChain_writtenChar c
    obtain ⟨hs, hrest⟩ := isChain_written s
    rw [List.flatMap_cons]
    refine ⟨isChain_append hc hs hrest, ?_⟩
    rw [List.head?_append]
    cases h : (writtenChar c).head? with
    | none => simpa using hrest
    | some d =>
      rw [h] at hhead
      exact hhead

end Jsx

namespace Page

open Jsx (Denotes readString isMarkup Unclosed writtenChar)
open Naming (IsIdentifier)

/-! ## Placeholders in a title -/

theorem not_infix_of_isChain {s : List Char} (h : s.IsChain Unclosed) (v : String) : ¬ quoted v <:+: s := by
  intro hin
  have hclose : ['\x7d', '"'] <:+: quoted v := by
    refine ⟨'"' :: '\x7b' :: v.toList, [], ?_⟩
    simp [quoted, braced_eq]
  have hpair := h.infix (hclose.trans hin)
  rw [List.isChain_pair] at hpair
  exact hpair rfl rfl

section

variable {vs : List String}

theorem unquoteAll_of_isChain {s : List Char} (h : s.IsChain Unclosed) : unquoteAll vs s = s :=
  unquoteAll_eq_self_iff.2 fun v _ => not_infix_of_isChain h v

/-- An occurrence that is not in front of the last two characters ends with the first of them. -/
theorem eq_of_occurrence {o m p q : List Char} {c d : Char} (hne : c ≠ d) (hm : ¬ o ++ [c] <:+: m)
    (h : p ++ (o ++ [c]) ++ q = m ++ [c, d]) : q = [d] ∧ m = p ++ o := by
  have hsplit : m ++ [c, d] = m ++ [c] ++ [d] := by simp
  rcases List.eq_nil_or_concat q with rfl | ⟨q, x, rfl⟩
  · rw [List.append_nil, hsplit, ← List.append_assoc] at h
    have hlast := (List.append_inj' h rfl).2
    exact absurd (List.cons.inj hlast).1 hne
  · rw [hsplit, List.concat_eq_append, ← List.append_assoc] at h
    obtain ⟨h, hx⟩ := List.append_inj' h rfl
    rcases List.eq_nil_or_concat q with rfl | ⟨q, y, rfl⟩
    · rw [List.append_nil, ← List.append_assoc] at h
      exact ⟨hx, (List.append_inj' h rfl).1.symm⟩
    · rw [List.concat_eq_append, ← List.append_assoc] at h
      exact absurd ⟨p, q, (List.append_inj' h rfl).1⟩ hm

/-- **Where only the last quote can close a placeholder**, either nothing changes, or the text ends in a placeholder
afterwards. -/
theorem unquoteAll_closed {m : List Char} (hm : m.IsChain Unclosed) (hvs : ∀ v ∈ vs, IsIdentifier v) :
    unquoteAll vs (m ++ ['"', '\x7d']) = m ++ ['"', '\x7d'] ∨
      ∃ v ∈ vs, ∃ p, m = p ++ '"' :: braced v ∧ unquoteAll vs (m ++ ['"', '\x7d']) = p ++ (braced v ++ ['\x7d']) := by
  induction vs with
  | nil => exact .inl rfl
  | cons v vs ih =>
    rw [unquoteAll_cons]
    by_cases h : quoted v <:+: m ++ ['"', '\x7d']
    · -- the placeholder is at the end, for its quote is none of those before
      obtain ⟨p, q, hpq⟩ := h
      obtain ⟨rfl, hm'⟩ : q = ['\x7d'] ∧ m = p ++ '"' :: braced v :=
        eq_of_occurrence (by decide) (not_infix_of_isChain hm v) hpq
      have hfirst : ¬ quoted v <:+: p ++ (quoted v).dropLast := by
        have hdrop : (quoted v).dropLast = '"' :: braced v := by
          rw [quoted, List.dropLast_concat]
        rw [hdrop, ← hm']
        exact not_infix_of_isChain hm v
      have hone : Text.replaceAll (quoted v) (braced v) ['\x7d'] = ['\x7d'] :=
        Text.replaceAll_eq_self fun hin => by simpa using quote_mem_of_quoted hin
      have hchain : (p ++ (braced v ++ ['\x7d'])).IsChain Unclosed := by
        have hp : p.IsChain Unclosed := (hm' ▸ hm).left_of_append
        have hquote := quote_notMem_braced (hvs v List.mem_cons_self)
        refine Jsx.isChain_append hp (Jsx.isChain_of_quote_notMem (by simp [hquote])) ?_
        rw [braced_eq]
        simp
      rw [← hpq, List.append_assoc, Text.replaceAll_first (quoted_ne_nil v) _ _ hfirst, hone, unquoteAll_of_isChain hchain]
      exact .inr ⟨v, List.mem_cons_self, p, hm', rfl⟩
    · rw [Text.replaceAll_eq_self h]
      rcases ih fun w hw => hvs w (List.mem_cons_of_mem _ hw) with he | ⟨w, hw, p, hp⟩
      · exact .inl he
      · exact .inr ⟨w, List.mem_cons_of_mem _ hw, p, hp⟩

end

/-! ## The inside of a title -/

/-- **What is written between the tags of a title** that has a text, with the quotes off the placeholders. -/
def titleInside (vs : List String) (text : String) : List Char :=
  unquoteAll vs (Xml.escapeText (String.ofList (Jsx.textChild text.toList))).toList

/-- **A text that a title keeps**: with a brace in it, it holds none of the characters of markup, and no imported
placeholder stands in quotes in its string. -/
def IsKept (vs : List String) (text : String) : Prop :=
  (∃ c ∈ text.toList, Jsx.isBrace c = true) →
    (∀ c ∈ text.toList, isMarkup c = false) ∧ ∀ v ∈ vs, ¬ quoted v <:+: Jsx.textChild text.toList

theorem escapeText_textChild_of_brace {s : List Char} (h : ∃ c ∈ s, Jsx.isBrace c = true) :
    (Xml.escapeText (String.ofList (Jsx.textChild s))).toList =
      '\x7b' :: '"' :: s.flatMap writtenChar ++ ['"', '\x7d'] := by
  have hany : s.any Jsx.isBrace = true := List.any_eq_true.2 h
  have hopen : Xml.textEntity '\x7b' = ['\x7b'] := by decide
  have hclose : Xml.textEntity '\x7d' = ['\x7d'] := by decide
  have hquote : Xml.textEntity '"' = ['"'] := by decide
  rw [Xml.escapeText, String.toList_ofList, String.toList_ofList, Jsx.textChild, if_pos hany, Jsx.jsonString]
  simp only [List.cons_append, List.flatMap_cons, List.flatMap_append, List.flatMap_assoc, hopen, hclose, hquote,
    List.flatMap_nil, List.append_nil, List.append_assoc, List.nil_append]
  rfl

theorem isChain_title (s : List Char) : ('\x7b' :: '"' :: s.flatMap writtenChar).IsChain Unclosed := by
  obtain ⟨hs, hhead⟩ := Jsx.isChain_written s
  have hopen : ['\x7b', '"'].IsChain Unclosed := .cons_cons (fun h => absurd h (by decide)) (.singleton _)
  exact Jsx.isChain_append hopen hs hhead

theorem not_denotes_placeholder {m p t : List Char} {v : String} (h : '\x7b' :: m = p ++ '"' :: braced v) :
    ¬ Denotes (p ++ (braced v ++ ['\x7d'])) t := by
  cases p with
  | nil => cases (List.cons.inj h).1
  | cons c p =>
    obtain ⟨rfl, -⟩ := List.cons.inj h
    rw [List.cons_append, Jsx.denotes_cons_iff]
    rintro ⟨r, hr, hvalue⟩
    rw [← List.append_assoc, ← List.cons_append] at hr
    have hlast := congrArg List.getLast? (List.append_inj' hr rfl).1
    rw [Jsx.getLast?_cons_of_some (Jsx.getLast?_of_readString hvalue), braced_eq, ← List.cons_append, ← List.append_assoc,
      List.getLast?_concat] at hlast
    cases hlast

theorem isBrace_textEntity {c d : Char} (h : Jsx.isBrace c = false) (hd : d ∈ Xml.textEntity c) :
    Jsx.isBrace d = false := by
  have hany : ∀ l ∈ ["&#13;", "&amp;", "&lt;", "&gt;"], l.toList.any Jsx.isBrace = false := by decide
  have hnone : ∀ l ∈ ["&#13;", "&amp;", "&lt;", "&gt;"], ∀ d ∈ l.toList, Jsx.isBrace d = false := fun l hl d hd =>
    Bool.eq_false_iff.2 (List.any_eq_false.1 (hany l hl) d hd)
  unfold Xml.textEntity at hd
  split at hd
  · exact hnone "&#13;" (by decide) d hd
  · unfold Xml.basicEntity at hd
    split at hd
    · exact hnone "&amp;" (by decide) d hd
    · exact hnone "&lt;" (by decide) d hd
    · exact hnone "&gt;" (by decide) d hd
    · rw [List.mem_singleton.1 hd]
      exact h

/-- A title without a brace is running text, also where placeholders lose their quotes. -/
theorem denotes_of_no_brace (vs : List String) {text : String} (h : ∀ c ∈ text.toList, Jsx.isBrace c = false) :
    Denotes (titleInside vs text) text.toList := by
  have hbrace : ∀ d ∈ text.toList.flatMap Xml.textEntity, Jsx.isBrace d = false := by
    intro d hd
    obtain ⟨c, hc, hd⟩ := List.mem_flatMap.1 hd
    exact isBrace_textEntity (h c hc) hd
  have hself : titleInside vs text = text.toList.flatMap Xml.textEntity := by
    rw [titleInside, textChild_of_forall h, Xml.escapeText, String.ofList_toList, String.toList_ofList]
    refine unquoteAll_eq_self_iff.2 fun v _ hin => ?_
    have hopen : '\x7b' ∈ quoted v := by simp [quoted, braced_eq]
    cases hbrace _ (hin.subset hopen)
  have hspelled := Xml.spelling_escapeText text
  rw [escapeText_of_forall h, Xml.escapeText, String.ofList_toList, String.toList_ofList] at hspelled
  rw [hself]
  exact .text hbrace hspelled

/-- **A title denotes its text just when the text is kept.** -/
theorem denotes_titleInside_iff {vs : List String} (hvs : ∀ v ∈ vs, IsIdentifier v) (text : String) :
    Denotes (titleInside vs text) text.toList ↔ IsKept vs text := by
  by_cases hbrace : ∃ c ∈ text.toList, Jsx.isBrace c = true
  · have hwritten := escapeText_textChild_of_brace hbrace
    have hkept : IsKept vs text ↔ (∀ c ∈ text.toList, isMarkup c = false) ∧
        unquoteAll vs ('\x7b' :: '"' :: text.toList.flatMap writtenChar ++ ['"', '\x7d']) =
          '\x7b' :: '"' :: text.toList.flatMap writtenChar ++ ['"', '\x7d'] := by
      rw [unquoteAll_eq_self_iff, ← hwritten]
      refine (imp_iff_right hbrace).trans (and_congr_right fun _ => forall₂_congr fun v hv => not_congr ?_)
      rw [infix_escapeText_iff (hvs v hv), String.toList_ofList]
    rw [hkept, titleInside, hwritten, ← Jsx.flatMap_basicEntity_eq_self_iff]
    have hread := Jsx.readString_written text.toList
    rcases unquoteAll_closed (isChain_title text.toList) hvs with h | ⟨v, -, p, hp, h⟩
    · -- the string stands as it was written, and is read with the entities in it
      have hstring : '\x7b' :: '"' :: text.toList.flatMap writtenChar ++ ['"', '\x7d'] =
          '\x7b' :: '"' :: ((text.toList.flatMap writtenChar ++ ['"']) ++ ['\x7d']) := by simp
      rw [and_iff_left h, h, hstring, Jsx.denotes_cons_iff]
      constructor
      · rintro ⟨r, hr, hvalue⟩
        have hbody := (List.append_inj' (List.cons.inj hr).2 rfl).1
        rw [← hbody, hread, Option.some.injEq] at hvalue
        exact hvalue
      · intro htext
        exact ⟨_, rfl, by rw [hread, htext]⟩
    · -- the string has lost its last quote; then it is shorter than it was written
      refine iff_of_false (h ▸ not_denotes_placeholder hp) ?_
      rintro ⟨-, he⟩
      have hlen := congrArg List.length (he.symm.trans h)
      rw [hp] at hlen
      simp at hlen
  · have hplain : ∀ c ∈ text.toList, Jsx.isBrace c = false := by simpa using hbrace
    exact iff_of_true (denotes_of_no_brace vs hplain) fun h => absurd h hbrace

/-! ## Titles of a page -/

theorem elements_infix_element (xhtml : Bool) (n : Nat) (tag : String) (attrs : Attributes) (text tail : String)
    {es : List Element} (h : es ≠ []) :
    (Xml.elements xhtml es).toList <:+: (Xml.element xhtml (.mk n tag attrs text es tail)).toList := by
  rw [Xml.element, if_neg fun hc => h (List.isEmpty_iff.1 hc.2)]
  refine ⟨("<" ++ tag ++ Xml.attributesText xhtml tag attrs ++ ">" ++ Xml.escapeText text).toList,
    ("</" ++ tag ++ ">" ++ Xml.escapeText tail).toList, ?_⟩
  simp only [String.toList_append, List.append_assoc]

theorem escapeTextsAll_ne_nil {es : List Element} {x : Element} (h : x ∈ Element.preorderAll es) :
    escapeTextsAll es ≠ [] := by
  cases es with
  | nil => exact absurd h List.not_mem_nil
  | cons e es =>
    rw [escapeTextsAll]
    exact List.cons_ne_nil _ _

mutual

theorem infix_element (xhtml : Bool) : ∀ {e x : Element}, x ∈ e.preorder →
    (Xml.element xhtml (escapeTexts x)).toList <:+: (Xml.element xhtml (escapeTexts e)).toList
  | .mk n tag attrs text children tail, x, h => by
    rw [Element.preorder, List.mem_cons] at h
    rcases h with rfl | h
    · exact List.infix_refl _
    · rw [escapeTexts]
      exact (infix_elements xhtml h).trans
        (elements_infix_element xhtml n tag attrs _ _ (escapeTextsAll_ne_nil h))

theorem infix_elements (xhtml : Bool) : ∀ {es : List Element} {x : Element}, x ∈ Element.preorderAll es →
    (Xml.element xhtml (escapeTexts x)).toList <:+: (Xml.elements xhtml (escapeTextsAll es)).toList
  | e :: es, x, h => by
    rw [Element.preorderAll, List.mem_append] at h
    rw [escapeTextsAll, Xml.elements, String.toList_append]
    rcases h with h | h
    · exact (infix_element xhtml h).trans (List.prefix_append _ _).isInfix
    · exact (infix_elements xhtml h).trans (List.suffix_append _ _).isInfix

end

theorem infix_section (xhtml : Bool) {root x : Element} {tag : String} (h : x ∈ sectionElements root tag) :
    ∃ e, (escapeTexts root).childTagged? tag = some e ∧ e.children ≠ [] ∧
      (Xml.element xhtml (escapeTexts x)).toList <:+: (Xml.inner xhtml e).toList := by
  unfold sectionElements at h
  rw [childTagged?_escapeTexts]
  cases hs : root.childTagged? tag with
  | none =>
    rw [hs] at h
    cases h
  | some e =>
    rw [hs] at h
    obtain ⟨n, name, attrs, text, children, tail⟩ := e
    refine ⟨_, rfl, escapeTextsAll_ne_nil h, ?_⟩
    simp only [escapeTexts, Xml.inner, Element.children_mk, String.toList_append]
    exact (infix_elements xhtml h).trans (List.suffix_append _ _).isInfix

/-- **Every element of the head and the body is written in the page.** -/
theorem infix_page (xhtml : Bool) {root x : Element} (styles : List String)
    (h : x ∈ sectionElements root "head" ++ sectionElements root "body") :
    (Xml.element xhtml (escapeTexts x)).toList <:+:
      (headSection xhtml (escapeTexts root) styles ++ bodySection xhtml (escapeTexts root)).toList := by
  rw [String.toList_append]
  rcases List.mem_append.1 h with h | h
  · refine List.IsInfix.trans ?_ (List.prefix_append _ _).isInfix
    obtain ⟨e, hs, hchildren, hinside⟩ := infix_section xhtml h
    rcases headSection_cases xhtml (escapeTexts root) styles with ⟨-, -, hnone⟩ | he
    · exact absurd (hnone e hs) hchildren
    · rw [hs] at he
      rw [he]
      refine hinside.trans ⟨("<" ++ headTag ++ ">").toList,
        ((if styles.isEmpty then "" else styleBlock styles) ++ "</" ++ headTag ++ ">").toList, ?_⟩
      simp only [String.toList_append, List.append_assoc]
  · obtain ⟨e, hs, -, hinside⟩ := infix_section xhtml h
    rw [bodySection, hs]
    exact hinside.trans (List.suffix_append _ _).isInfix

/-- **A title as it is written**: its tags around its inside, or one closed tag when there is no text. -/
def titleElement (vs : List String) (xhtml : Bool) (attrs : Attributes) (text : String) : List Char :=
  '<' :: (unquoteAll vs ("title" ++ Xml.attributesText xhtml "title" attrs).toList ++
    if text = "" ∧ xhtml = false then ['/', '>'] else '>' :: (titleInside vs text ++ "</title>".toList))

theorem textChild_eq_nil {s : List Char} (h : Jsx.textChild s = []) : s = [] := by
  rw [Jsx.textChild] at h
  split at h
  · cases h
  · exact h

theorem element_title (xhtml : Bool) (n : Nat) (attrs : Attributes) (text tail : String) :
    (Xml.element xhtml (escapeTexts (.mk n "title" attrs text [] tail))).toList = titleElement [] xhtml attrs text ++
      (Xml.escapeText (String.ofList (Jsx.escapeText tail.toList))).toList := by
  have hempty : String.ofList (Jsx.textChild text.toList) = "" ↔ text = "" := by
    rw [← String.toList_inj, ← String.toList_inj, String.toList_ofList]
    refine ⟨textChild_eq_nil, fun h => ?_⟩
    rw [h]
    rfl
  have htitle : ("title" = "title" ∧ ([] : List Element).isEmpty = true) := ⟨rfl, rfl⟩
  have hnil : ∀ s : List Char, unquoteAll [] s = s := fun _ => rfl
  have hvoid : "title" ∉ Vocabulary.voidTags := by decide
  rw [escapeTexts, if_pos htitle, escapeTextsAll, Xml.element, titleElement]
  by_cases h : text = ""
  · rw [if_pos ⟨hempty.2 h, rfl⟩]
    cases xhtml with
    | false => simp [h, hnil]
    | true => simp [h, hnil, hvoid, titleInside, Jsx.textChild, Xml.escapeText]
  · rw [if_neg fun hc => h (hempty.1 hc.1), if_neg fun hc => h hc.1]
    simp [hnil, titleInside, Xml.elements]

/-- **Placeholders lose their quotes within a title and around it.** -/
theorem unquoteAll_titleElement {vs : List String} (hvs : ∀ v ∈ vs, IsIdentifier v) (xhtml : Bool) (attrs : Attributes)
    (text : String) (a b : List Char) : unquoteAll vs (a ++ titleElement [] xhtml attrs text ++ b) =
      unquoteAll vs a ++ titleElement vs xhtml attrs text ++ unquoteAll vs b := by
  have hopen : isMark '<' = true := by decide
  have hclose : isMark '>' = true := by decide
  have hslash : isMark '/' = true := by decide
  have hnil : unquoteAll vs [] = [] := unquoteAll_of_isChain .nil
  have htitle : unquoteAll vs "title".toList = "title".toList :=
    unquoteAll_of_isChain (Jsx.isChain_of_quote_notMem (by decide))
  have hend : ∀ q, "</title>".toList ++ q = '<' :: ([] ++ '/' :: ("title".toList ++ '>' :: q)) := fun _ => rfl
  unfold titleElement
  rw [List.append_assoc, List.cons_append, unquoteAll_append_cons hvs hopen, List.append_assoc (unquoteAll [] _)]
  by_cases h : text = "" ∧ xhtml = false
  · have hshort : ['/', '>'] ++ b = '/' :: ([] ++ '>' :: b) := rfl
    rw [if_pos h, if_pos h, hshort, unquoteAll_append_cons hvs hslash, unquoteAll_append_cons hvs hclose, hnil]
    simp [unquoteAll]
  · rw [if_neg h, if_neg h, List.cons_append, List.append_assoc, hend, unquoteAll_append_cons hvs hclose,
      unquoteAll_append_cons hvs hopen, unquoteAll_append_cons hvs hslash, unquoteAll_append_cons hvs hclose, hnil, htitle]
    simp [titleInside, unquoteAll]

/-- **What the titles of a page denote.**  A page of storable texts becomes a module, and every title without children in
its head or its body is written in the module's content.  What stands between its tags denotes its text just when the
text has no brace, or none of the characters of markup and no imported placeholder in quotes in its string. -/
theorem moduleText_titles_iff (root : Element) (xhtml : Bool) (site : Surroundings) (table : RenameTable)
    (tags : List Tag) (name : String) (file : Option String) (htags : tagsOf root.numbered = .ok tags)
    (hs : root.numbered.textsStorable = true) :
    ∃ draft content, carryOut file root.numbered tags (Mapping.ofPage site table tags).results = .ok draft ∧
      moduleText ⟨root.numbered, xhtml⟩ tags (Mapping.ofPage site table tags) name file =
        .ok (moduleAround ⟨root.numbered, xhtml⟩ (Mapping.ofPage site table tags) name
          (headSection xhtml (escapeTexts draft.root) (stylesOf root.numbered)) content) ∧
      ∀ n attrs text tail, Element.mk n "title" attrs text [] tail ∈
          sectionElements draft.root "head" ++ sectionElements draft.root "body" →
        (∃ before after, content.toList =
          before ++ titleElement (Mapping.ofPage site table tags).identifiers xhtml attrs text ++ after) ∧
        (Denotes (titleInside (Mapping.ofPage site table tags).identifiers text) text.toList ↔
          IsKept (Mapping.ofPage site table tags).identifiers text) := by
  obtain ⟨draft, hd, hstorable⟩ := carryOut_eq_ok file htags hs site table
  have hvs : ∀ v ∈ (Mapping.ofPage site table tags).identifiers, IsIdentifier v := Mapping.isIdentifier_of_mem
  have hmodule : moduleText ⟨root.numbered, xhtml⟩ tags (Mapping.ofPage site table tags) name file = _ :=
    moduleText_eq hd (textsStorable_escapeTexts _ hstorable) name
  refine ⟨draft, _, hd, hmodule, fun n attrs text tail h => ⟨?_, denotes_titleInside_iff hvs text⟩⟩
  obtain ⟨before, after, hpage⟩ := infix_page xhtml (stylesOf root.numbered) h
  rw [element_title, ← List.append_assoc, List.append_assoc] at hpage
  rw [toList_foldl_unquote, ← hpage, unquoteAll_titleElement hvs]
  exact ⟨_, _, rfl⟩

/-- Decided along the title, not over all characters. -/
instance (vs : List String) (text : String) : Decidable (IsKept vs text) :=
  decidable_of_iff (text.toList.any Jsx.isBrace = true →
      text.toList.any isMarkup = false ∧ ∀ v ∈ vs, ¬ quoted v <:+: Jsx.textChild text.toList)
    (by simp only [IsKept, List.any_eq_true, List.any_eq_false, Bool.not_eq_true])

/-- A page with a logo, and with everything in its title that a string escapes. -/
def escapingPage : Element :=
  .mk 0 "html" [] "" [
    .mk 0 "head" [] "" [.mk 0 "title" [] "\"\x7blogo_png\x7d\"\n\\\t" [] ""] "",
    .mk 0 "body" [] "" [.mk 0 "img" [("src", "logo.png")] "" [] ""] ""] ""

theorem moduleText_titles_iff_escapingPage : ∃ tags, tagsOf escapingPage.numbered = .ok tags ∧
    escapingPage.numbered.textsStorable = true ∧ (Mapping.ofPage logoSite [] tags).identifiers = ["logo_png"] ∧
    Denotes (titleInside ["logo_png"] "\"\x7blogo_png\x7d\"\n\\\t") "\"\x7blogo_png\x7d\"\n\\\t".toList := by
  obtain ⟨draft, content, hd, -, htitles⟩ :=
    moduleText_titles_iff escapingPage false logoSite [] _ "Page" none rfl (by decide)
  refine ⟨_, rfl, by decide, rfl, (htitles 2 [] _ "" ?_).2.2 (by decide)⟩
  cases hd
  exact List.mem_cons_self

/-- A page whose title has a brace and an ampersand. -/
def bracedPage : Element :=
  .mk 0 "html" [] "" [
    .mk 0 "head" [] "" [.mk 0 "title" [] "a \x7bb\x7d & c" [] ""] "",
    .mk 0 "body" [] "" [.mk 0 "p" [] "x" [] ""] ""] ""

/-- **An ampersand in a string becomes an entity that nothing takes back.** -/
theorem title_spoiled : ∃ tags, tagsOf bracedPage.numbered = .ok tags ∧
    moduleText ⟨bracedPage.numbered, false⟩ tags (Mapping.ofPage logoSite [] tags) "Page" = .ok
      ("import React from \"react\";\nimport \x7b Helmet \x7d from \"react-helmet\";\n\nfunction Page() \x7b\n" ++
        "  return (\n    <>\n<Helmet><title>\x7b\"a \x7bb\x7d &amp; c\"\x7d</title></Helmet><p>x</p>\n    </>\n" ++
        "  );\n\x7d\n\nexport default Page;\n") ∧
    ¬ Denotes "\x7b\"a \x7bb\x7d &amp; c\"\x7d".toList "a \x7bb\x7d & c".toList := by
  refine ⟨_, rfl, by decide +kernel, ?_⟩
  have hinside : titleInside [] "a \x7bb\x7d & c" = "\x7b\"a \x7bb\x7d &amp; c\"\x7d".toList := by decide
  rw [← hinside, denotes_titleInside_iff (by simp)]
  decide

end Page
end ReactSite
