import ReactSite.Proofs.Unquoting
import ReactSite.Proofs.Writing
/-!
# Quoting — where in a written page a placeholder can stand in quotes

Running text never holds one: a brace in it is an expression of its own, so that `{` comes before a quote only.  An
attribute value holds one just when it is the placeholder itself, for its own quotes are entities.  A style sheet holds
those that it was given, for it is taken over but for backslashes.
-/
namespace ReactSite
namespace Page

open Naming (IsIdentifier)

section

variable {v : String}

theorem quote_mem_of_quoted {s : List Char} (h : quoted v <:+: s) : '"' ∈ s := by
  refine h.subset ?_
  unfold quoted
  simp

theorem infix_append_mark (hv : IsIdentifier v) {c : Char} (hc : isMark c = true) {a b : List Char} :
    quoted v <:+: a ++ c :: b ↔ quoted v <:+: a ∨ quoted v <:+: b :=
  Text.infix_append_cons_iff (mark_notMem_quoted hv hc)

/-! ## Entities -/

/-- A character stays, or it is a mark and becomes an entity. -/
def Spells (f : Char → List Char) : Prop :=
  ∀ c, f c = [c] ∨ (isMark c = true ∧ ∃ m, f c = '&' :: m ++ [';'] ∧ '"' ∉ m)

theorem spells_basicEntity : Spells Xml.basicEntity := by
  intro c
  unfold Xml.basicEntity
  split
  · exact .inr ⟨by decide, ['a', 'm', 'p'], rfl, by decide⟩
  · exact .inr ⟨by decide, ['l', 't'], rfl, by decide⟩
  · exact .inr ⟨by decide, ['g', 't'], rfl, by decide⟩
  · exact .inl rfl

theorem spells_textEntity : Spells Xml.textEntity := by
  intro c
  unfold Xml.textEntity
  by_cases h : c = '\r'
  · rw [if_pos h, h]
    exact .inr ⟨by decide, ['#', '1', '3'], rfl, by decide⟩
  · rw [if_neg h]
    exact spells_basicEntity c

/-- **Entities neither make nor break a placeholder in quotes.** -/
theorem infix_flatMap_iff (hv : IsIdentifier v) {f : Char → List Char} (hf : Spells f) (s a : List Char) :
    quoted v <:+: a ++ s.flatMap f ↔ quoted v <:+: a ++ s := by
  induction s generalizing a with
  | nil => rfl
  | cons c s ih =>
    rw [List.flatMap_cons]
    rcases hf c with h | ⟨hc, m, h, hm⟩
    · have hone := ih (a ++ [c])
      rw [h]
      simpa using hone
    · have hrest := ih []
      have hnot : ¬ quoted v <:+: m := fun hin => hm (quote_mem_of_quoted hin)
      rw [List.nil_append, List.nil_append] at hrest
      rw [h, List.cons_append, List.cons_append, List.append_assoc, List.singleton_append,
        infix_append_mark hv (by decide), infix_append_mark hv (by decide), infix_append_mark hv hc, hrest]
      simp [hnot]

theorem infix_escapeText_iff (hv : IsIdentifier v) (s : String) :
    quoted v <:+: (Xml.escapeText s).toList ↔ quoted v <:+: s.toList := by
  rw [Xml.escapeText, String.toList_ofList]
  exact infix_flatMap_iff hv spells_textEntity s.toList []

theorem infix_escapeLeading_iff (hv : IsIdentifier v) (s : String) :
    quoted v <:+: (Xml.escapeLeading s).toList ↔ quoted v <:+: s.toList := by
  rw [Xml.escapeLeading, String.toList_ofList]
  exact infix_flatMap_iff hv spells_basicEntity s.toList []

/-! ## Values -/

theorem valueEntity_cases (c : Char) :
    (Xml.valueEntity c = [c] ∧ c ≠ '"') ∨
      ('&' ∈ Xml.valueEntity c ∧ '"' ∉ Xml.valueEntity c ∧ (isMark c = true ∨ c = '"')) := by
  unfold Xml.valueEntity
  split
  · exact .inr ⟨by decide, by decide, .inr rfl⟩
  · exact .inr ⟨by decide, by decide, .inl (by decide)⟩
  · exact .inr ⟨by decide, by decide, .inl (by decide)⟩
  · rename_i hq _ _
    rcases spells_textEntity c with h | ⟨hc, m, h, hm⟩
    · exact .inl ⟨h, hq⟩
    · rw [h]
      exact .inr ⟨by simp, by simp [hm], .inl hc⟩

theorem quote_notMem_escapeValue (s : String) : '"' ∉ (Xml.escapeValue s).toList := by
  rw [Xml.escapeValue, String.toList_ofList, List.mem_flatMap]
  rintro ⟨c, -, h⟩
  rcases valueEntity_cases c with ⟨e, hq⟩ | ⟨-, hq, -⟩
  · rw [e, List.mem_singleton] at h
    exact hq h.symm
  · exact hq h

theorem flatMap_eq_self {f : Char → List Char} : ∀ {s : List Char}, (∀ c ∈ s, f c = [c]) → s.flatMap f = s
  | [], _ => rfl
  | c :: s, h => by
    rw [List.flatMap_cons, h c List.mem_cons_self, flatMap_eq_self fun d hd => h d (List.mem_cons_of_mem _ hd)]
    rfl

theorem escapeValue_placeholder (hv : IsIdentifier v) :
    Xml.escapeValue (Resolution.placeholder v) = Resolution.placeholder v := by
  rw [← String.toList_inj, Xml.escapeValue, String.toList_ofList]
  apply flatMap_eq_self
  intro c hc
  rcases valueEntity_cases c with ⟨e, -⟩ | ⟨-, -, hm | hq⟩
  · exact e
  · have hin : c ∈ quoted v := by
      unfold quoted braced
      simp [hc]
    exact absurd hin (mark_notMem_quoted hv hm)
  · exact absurd (hq ▸ hc) (quote_notMem_braced hv)

/-- **A value stands between its quotes as a placeholder just when it is one.** -/
theorem infix_value_iff (hv : IsIdentifier v) (s : String) :
    quoted v <:+: '"' :: (Xml.escapeValue s).toList ++ ['"'] ↔ s = Resolution.placeholder v := by
  rw [quoted_infix_iff hv (quote_notMem_escapeValue s)]
  constructor
  · intro h
    have hamp : '&' ∉ (Xml.escapeValue s).toList := by
      rw [h]
      exact notMem_braced hv (by decide) (by decide) (by decide) (by decide)
    have hself : (Xml.escapeValue s).toList = s.toList := by
      rw [Xml.escapeValue, String.toList_ofList] at hamp ⊢
      apply flatMap_eq_self
      intro c hc
      rcases valueEntity_cases c with ⟨e, -⟩ | ⟨hin, -, -⟩
      · exact e
      · exact absurd (List.mem_flatMap.2 ⟨c, hc, hin⟩) hamp
    rw [hself] at h
    exact String.toList_inj.1 h
  · rintro rfl
    rw [escapeValue_placeholder hv]
    rfl

/-! ## Running text and style sheets -/

/-- **In running text a quote follows every opening brace.** -/
theorem not_infix_escapeText (hv : IsIdentifier v) (s : List Char) : ¬ quoted v <:+: Jsx.escapeText s := by
  -- the start of the placeholder, an opening brace before the identifier
  obtain ⟨x, xs, hx⟩ := List.exists_cons_of_ne_nil hv.ne_nil
  have hne : x ≠ '\'' := by
    rintro rfl
    have hnot : '\'' ∉ v.toList := hv.notMem (by decide) (by decide)
    rw [hx] at hnot
    exact hnot List.mem_cons_self
  have hstart : ['\x7b', x] <:+: quoted v := by
    refine ⟨['"'], xs ++ ['\x7d', '"'], ?_⟩
    simp [quoted, braced_eq, hx]
  intro h
  have hin := hstart.trans h
  clear h hstart
  induction s with
  | nil => simp [Jsx.escapeText] at hin
  | cons c s ih =>
    have hcons : Jsx.escapeText (c :: s) = (if Jsx.isBrace c then Jsx.braceGroup c else [c]) ++ Jsx.escapeText s := rfl
    rw [hcons] at hin
    by_cases hb : Jsx.isBrace c = true
    · have hbrace : c = '\x7b' ∨ c = '\x7d' := by simpa [Jsx.isBrace] using hb
      rw [if_pos hb, Jsx.braceGroup] at hin
      simp only [List.cons_append, List.nil_append, List.infix_cons_iff, List.cons_prefix_cons] at hin
      rcases hbrace with rfl | rfl <;> simp_all
    · rw [if_neg hb, List.singleton_append, List.infix_cons_iff, List.cons_prefix_cons] at hin
      rcases hin with ⟨rfl, -⟩ | hin
      · exact hb (by decide)
      · exact ih hin

theorem infix_templateText_iff (hv : IsIdentifier v) (s a : List Char) :
    quoted v <:+: a ++ Jsx.templateText s ↔ quoted v <:+: a ++ s := by
  fun_induction Jsx.templateText s generalizing a with
  | case1 => rfl
  | case2 s ih =>
    have hrest := ih ['\x7b']
    rw [List.singleton_append, List.singleton_append] at hrest
    rw [infix_append_mark hv (by decide), ← List.nil_append ('$' :: _), infix_append_mark hv (by decide),
      infix_append_mark hv (by decide), hrest]
    simp [quoted]
  | case3 c s _ hc ih =>
    have hrest := ih []
    have hmark : isMark c = true := by
      rcases hc with rfl | rfl <;> decide
    rw [List.nil_append, List.nil_append] at hrest
    rw [infix_append_mark hv (by decide), ← List.nil_append (c :: Jsx.templateText s), infix_append_mark hv hmark,
      infix_append_mark hv hmark, hrest]
    simp [quoted]
  | case4 c s _ hc ih =>
    have hrest := ih (a ++ [c])
    simpa using hrest

end

end Page
end ReactSite
