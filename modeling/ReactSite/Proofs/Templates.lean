import ReactSite.Page.Module
import ReactSite.Proofs.Replacement
/-!
# Templates — a style sheet in a template literal

A reader of a template literal takes the character after a backslash as it is, ends at a backquote, and leaves the text for
an expression at `${`.  The text that is written for a style sheet has none of the last two outside an escape, so the reader
ends at the backquote that closes the literal and has the style sheet (`readTemplate_templateText`).  Escaping goes through
the text once; the same comes of replacing backslashes, then backquotes, then `${` (`templateText_eq_replaceAll`).
-/
namespace ReactSite
namespace Jsx

/-- **Where the reading of a template literal ends.** -/
inductive TemplateEnd where
  /-- At the closing backquote; what follows it. -/
  | closed (rest : List Char)
  /-- At the `${` of a substitution; what follows it. -/
  | substitution (rest : List Char)
  /-- At the end of the input. -/
  | cut
deriving DecidableEq, Repr

/-- **Reads a template literal** behind its opening backquote: the characters that it stands for, and where they end. -/
def readTemplate : List Char → List Char × TemplateEnd
  | []                    => ([], .cut)
  | '\x60' :: rest        => ([], .closed rest)
  | '$' :: '\x7b' :: rest => ([], .substitution rest)
  | '\\' :: c :: rest     => (c :: (readTemplate rest).1, (readTemplate rest).2)
  | c :: rest             => (c :: (readTemplate rest).1, (readTemplate rest).2)

/-- A character that is not special is read as it is; a dollar sign is not, before anything but an opening brace. -/
theorem readTemplate_plain {c : Char} {rest : List Char} (hc : ¬ (c = '\\' ∨ c = '\x60'))
    (hdollar : c = '$' → rest.head? ≠ some '\x7b') :
    readTemplate (c :: rest) = (c :: (readTemplate rest).1, (readTemplate rest).2) := by
  rw [not_or] at hc
  refine readTemplate.eq_5 c rest hc.2 (fun r hc' hr => hdollar hc' ?_) fun d r hc' _ => hc.1 hc'
  rw [hr]
  rfl

/-- Escaping starts a text with a brace only where the text does. -/
theorem head?_templateText {s : List Char} (h : s.head? ≠ some '\x7b') (rest : List Char) :
    (templateText s ++ '\x60' :: rest).head? ≠ some '\x7b' := by
  cases s using templateText.fun_cases with
  | case1 => simp [templateText]
  | case2 s => simp [templateText]
  | case3 c s _ hc => simp [templateText, hc]
  | case4 c s _ hc =>
    have hne : c ≠ '\x7b' := by simpa using h
    simp [templateText, hc, hne]

/-- **The text of a style sheet is read back** up to the backquote behind it. -/
theorem readTemplate_templateText (s rest : List Char) :
    readTemplate (templateText s ++ '\x60' :: rest) = (s, .closed rest) := by
  induction s using templateText.induct with
  | case1 => rfl
  | case2 s ih =>
    have hbrace : readTemplate ('\x7b' :: (templateText s ++ '\x60' :: rest)) = ('\x7b' :: s, .closed rest) := by
      rw [readTemplate_plain (by decide) fun h => absurd h (by decide), ih]
    rw [templateText, List.cons_append, List.cons_append, List.cons_append, readTemplate, hbrace]
  | case3 c s hpair hc ih =>
    rw [templateText.eq_3 c s hpair, if_pos hc, List.cons_append, List.cons_append, readTemplate, ih]
  | case4 c s hpair hc ih =>
    -- a dollar sign that is written as it is has no brace behind it, in the text and as it is written
    have hdollar : c = '$' → (templateText s ++ '\x60' :: rest).head? ≠ some '\x7b' := by
      intro hd
      apply head?_templateText
      intro hbrace
      obtain ⟨s', rfl⟩ := List.head?_eq_some_iff.1 hbrace
      exact hpair s' hd rfl
    rw [templateText.eq_3 c s hpair, if_neg hc, List.cons_append, readTemplate_plain hc hdollar, ih]

/-! ## One pass for three replacements -/

theorem replaceAll_singleton (old : Char) (new : List Char) : ∀ s : List Char,
    Text.replaceAll [old] new s = s.flatMap fun c => if c = old then new else [c]
  | [] => rfl
  | c :: s => by
    have ih := replaceAll_singleton old new s
    rw [Text.replaceAll] at ih
    rw [Text.replaceAll, Text.replaceFrom_cons, List.flatMap_cons]
    by_cases hc : c = old
    · rw [if_pos (by simp [hc]), if_pos hc, ← ih]
      rfl
    · rw [if_neg (by simp [Ne.symm hc]), if_neg hc, ih]
      rfl

/-- A character after the two replacements of single characters. -/
def shielded (c : Char) : List Char := if c = '\\' ∨ c = '\x60' then ['\\', c] else [c]

theorem replaceAll_shielded (s : List Char) :
    Text.replaceAll ['\x60'] ['\\', '\x60'] (Text.replaceAll ['\\'] ['\\', '\\'] s) = s.flatMap shielded := by
  rw [replaceAll_singleton, replaceAll_singleton, List.flatMap_assoc]
  refine List.flatMap_congr fun c _ => ?_
  unfold shielded
  by_cases hslash : c = '\\'
  · simp [hslash]
  · by_cases hquote : c = '\x60' <;> simp [hslash, hquote]

theorem replaceFrom_plain {c : Char} {s : List Char} (h : c = '$' → s.head? ≠ some '\x7b') :
    Text.replaceAll ['$', '\x7b'] ['\\', '$', '\x7b'] (c :: s) = c :: Text.replaceAll ['$', '\x7b'] ['\\', '$', '\x7b'] s := by
  rw [Text.replaceAll, Text.replaceFrom_cons, if_neg]
  · rfl
  · rw [List.isPrefixOf_iff_prefix]
    rintro ⟨rest, hrest⟩
    rw [List.cons_append, List.cons.injEq] at hrest
    exact h hrest.1.symm (by rw [← hrest.2]; rfl)

/-- **The one pass does what replacing backslashes, then backquotes, then `${` does.** -/
theorem templateText_eq_replaceAll (s : List Char) : templateText s =
    Text.replaceAll ['$', '\x7b'] ['\\', '$', '\x7b']
      (Text.replaceAll ['\x60'] ['\\', '\x60'] (Text.replaceAll ['\\'] ['\\', '\\'] s)) := by
  rw [replaceAll_shielded]
  induction s using templateText.induct with
  | case1 => rfl
  | case2 s ih =>
    rw [templateText, ih]
    rfl
  | case3 c s hpair hc ih =>
    have hdollar : c ≠ '$' := by
      rintro rfl
      exact absurd hc (by decide)
    rw [templateText.eq_3 c s hpair, if_pos hc, ih, List.flatMap_cons, shielded, if_pos hc, List.cons_append,
      List.singleton_append, replaceFrom_plain fun h => absurd h (by decide), replaceFrom_plain fun h => absurd h hdollar]
  | case4 c s hpair hc ih =>
    -- the first two replacements put nothing before a brace, so the third finds what stands in the text
    have hhead : c = '$' → (s.flatMap shielded).head? ≠ some '\x7b' := by
      intro hd
      cases s with
      | nil => simp
      | cons d s =>
        have hne : d ≠ '\x7b' := fun e => hpair s hd (by rw [e])
        rw [List.flatMap_cons, shielded]
        split <;> simp [hne]
    rw [templateText.eq_3 c s hpair, if_neg hc, ih, List.flatMap_cons, shielded, if_neg hc, List.singleton_append,
      replaceFrom_plain hhead]

end Jsx

namespace Page

open Jsx (readTemplate)

/-- **The style block of a page holds its style sheets**: whatever these are, the template literal in it closes at the last
backquote of the block, no substitution is met, and it stands for the sheets joined by line feeds. -/
theorem styleBlock_reads (styles : List String) : ∃ body closing : List Char,
    (styleBlock styles).toList = "<style>\x7b".toList ++ '\x60' :: (body ++ '\x60' :: closing) ∧
    closing = "\x7d</style>".toList ∧ '\x60' ∉ closing ∧
    readTemplate (body ++ '\x60' :: closing) = (("\n".intercalate styles).toList, .closed closing) := by
  refine ⟨Jsx.templateText ("\n".intercalate styles).toList, _, ?_, rfl, by decide, Jsx.readTemplate_templateText _ _⟩
  simp only [styleBlock, String.toList_append, String.toList_ofList, List.append_assoc]
  rfl

/-- A sheet with a backslash, a backquote and a substitution, and one that ends in a dollar sign before a brace. -/
example : readTemplate (Jsx.templateText "a\\`$\x7bb$".toList ++ ['\x60']) = ("a\\`$\x7bb$".toList, .closed []) := by
  decide

end Page
end ReactSite
