import ReactSite.Proofs.Grammar
import ReactSite.Proofs.Survival
/-!
# Reading — what is written of a tree can be read back

A page is escaped twice: braces become groups, then the characters of markup become entities.  Both layers are letters
of one grammar, so every text is spelled as what it was before (`spelling_escaped`), and the content that is written of
an element reads as the element's own text and children (`content_inner`).  Content is read in one way, so it reads as
nothing else (`inner_reads`).
-/
namespace ReactSite
namespace Xml

/-! ## Texts -/

theorem textLetter_basicEntity {c : Char} (h : Jsx.isBrace c = false) : TextLetter (basicEntity c) c := by
  have hamp : TextLetter ('&' :: ("amp".toList ++ [';'])) '&' := .entity (.named (by decide))
  have hlt : TextLetter ('&' :: ("lt".toList ++ [';'])) '<' := .entity (.named (by decide))
  have hgt : TextLetter ('&' :: ("gt".toList ++ [';'])) '>' := .entity (.named (by decide))
  unfold basicEntity
  split
  · exact hamp
  · exact hlt
  · exact hgt
  · rename_i ha hl hg
    have hbrace : c ≠ '\x7b' ∧ c ≠ '\x7d' := by simpa [Jsx.isBrace] using h
    refine .plain ?_
    simp only [List.mem_cons, List.not_mem_nil, or_false, not_or]
    exact ⟨hl, hg, ha, hbrace⟩

theorem textLetter_textEntity {c : Char} (h : Jsx.isBrace c = false) : TextLetter (textEntity c) c := by
  have hreturn : TextLetter ('&' :: ('#' :: Nat.toDigits 10 '\r'.toNat ++ [';'])) '\r' := .entity (.numbered _)
  unfold textEntity
  split
  · rename_i hc
    rw [hc]
    exact hreturn
  · exact textLetter_basicEntity h

theorem valueLetter_valueEntity (c : Char) : ValueLetter (valueEntity c) c := by
  have hquote : ValueLetter ('&' :: ("quot".toList ++ [';'])) '"' := .entity (.named (by decide))
  have hline : ValueLetter ('&' :: ('#' :: Nat.toDigits 10 '\n'.toNat ++ [';'])) '\n' := .entity (.numbered _)
  have htab : ValueLetter ('&' :: ('#' :: Nat.toDigits 10 '\t'.toNat ++ [';'])) '\t' := .entity (.numbered _)
  have hreturn : ValueLetter ('&' :: ('#' :: Nat.toDigits 10 '\r'.toNat ++ [';'])) '\r' := .entity (.numbered _)
  have hamp : ValueLetter ('&' :: ("amp".toList ++ [';'])) '&' := .entity (.named (by decide))
  have hlt : ValueLetter ('&' :: ("lt".toList ++ [';'])) '<' := .entity (.named (by decide))
  have hgt : ValueLetter ('&' :: ("gt".toList ++ [';'])) '>' := .entity (.named (by decide))
  unfold valueEntity
  split
  · exact hquote
  · exact hline
  · exact htab
  · rename_i hq _ _
    unfold textEntity
    split
    · rename_i hc
      rw [hc]
      exact hreturn
    · unfold basicEntity
      split
      · exact hamp
      · exact hlt
      · exact hgt
      · rename_i ha hl hg
        refine .plain ?_
        simp only [List.mem_cons, List.not_mem_nil, or_false, not_or]
        exact ⟨hl, hg, ha, hq⟩

/-- **A text under both escapes is spelled as the text itself**, if the second one writes letters and leaves the groups
of the first alone. -/
theorem spelling_escaped {f : Char → List Char} (hf : ∀ c, Jsx.isBrace c = false → TextLetter (f c) c)
    (hgroup : ∀ c, Jsx.isBrace c = true → (Jsx.braceGroup c).flatMap f = Jsx.braceGroup c) :
    ∀ s : List Char, Spelling TextLetter ((Jsx.escapeText s).flatMap f) s
  | []     => .nil
  | c :: s => by
    rw [Jsx.escapeText, List.flatMap_cons, List.flatMap_append]
    refine .cons ?_ (spelling_escaped hf hgroup s)
    cases hc : Jsx.isBrace c with
    | true =>
      rw [if_pos rfl, hgroup c hc]
      exact .group hc
    | false =>
      rw [if_neg Bool.false_ne_true, List.flatMap_singleton]
      exact hf c hc

theorem eq_of_isBrace {c : Char} (h : Jsx.isBrace c = true) : c = '\x7b' ∨ c = '\x7d' := by
  simpa [Jsx.isBrace] using h

theorem spelling_escapeText (s : String) :
    Spelling TextLetter (escapeText (String.ofList (Jsx.escapeText s.toList))).toList s.toList := by
  rw [escapeText, String.toList_ofList, String.toList_ofList]
  refine spelling_escaped (fun c hc => textLetter_textEntity hc) (fun c hc => ?_) s.toList
  rcases eq_of_isBrace hc with rfl | rfl <;> decide

theorem spelling_escapeLeading (s : String) :
    Spelling TextLetter (escapeLeading (String.ofList (Jsx.escapeText s.toList))).toList s.toList := by
  rw [escapeLeading, String.toList_ofList, String.toList_ofList]
  refine spelling_escaped (fun c hc => textLetter_basicEntity hc) (fun c hc => ?_) s.toList
  rcases eq_of_isBrace hc with rfl | rfl <;> decide

theorem spelling_escapeValue (s : String) : Spelling ValueLetter (escapeValue s).toList s.toList := by
  rw [escapeValue, String.toList_ofList]
  induction s.toList with
  | nil => exact .nil
  | cons c s ih => exact .cons (valueLetter_valueEntity c) ih

/-- **Attributes are written as they are read.** -/
theorem attributeList_attributesText (tag : String) : ∀ {attrs : Attributes}, (∀ a ∈ attrs, isName a.1) →
    AttributeList (attributesText false tag attrs).toList attrs
  | [], _         => .nil
  | a :: attrs, h => by
    have hspace : " ".toList = [' '] := by decide
    have hequals : "=\"".toList = ['=', '"'] := by decide
    have hquote : "\"".toList = ['"'] := by decide
    have hrest := attributeList_attributesText tag fun b hb => h b (List.mem_cons_of_mem _ hb)
    have hlist := AttributeList.cons (h a List.mem_cons_self) (spelling_escapeValue a.2) hrest
    rw [String.ofList_toList] at hlist
    simpa [attributesText, attributeText, hspace, hequals, hquote] using hlist

end Xml

namespace Page

open Element (preorderAll)
open Xml (Content Spelling TextLetter)

/-! ## Elements -/

mutual

/-- **An element without its identity**, which is not written. -/
def anonymous : Element → Element
  | .mk _ tag attrs text children tail => .mk 0 tag attrs text (anonymousAll children) tail

def anonymousAll : List Element → List Element
  | []      => []
  | e :: es => anonymous e :: anonymousAll es

end

/-- **An element that can be read back**: its names are names of XML, and it is no title that holds a brace and no
element, for such a title is written as one expression. -/
structure IsLegible (e : Element) : Prop where
  tag : Xml.isName e.tag
  attributes : ∀ a ∈ e.attributes, Xml.isName a.1
  title : e.tag = "title" → e.children = [] → ∀ c ∈ e.text.toList, Jsx.isBrace c = false

theorem escapeText_of_forall : ∀ {s : List Char}, (∀ c ∈ s, Jsx.isBrace c = false) → Jsx.escapeText s = s
  | [], _     => rfl
  | c :: s, h => by
    have hs := escapeText_of_forall fun d hd => h d (List.mem_cons_of_mem _ hd)
    rw [Jsx.escapeText] at hs ⊢
    rw [List.flatMap_cons, hs, h c List.mem_cons_self]
    rfl

theorem textChild_of_forall {s : List Char} (h : ∀ c ∈ s, Jsx.isBrace c = false) : Jsx.textChild s = s := by
  rw [Jsx.textChild, if_neg]
  rw [List.any_eq_true]
  rintro ⟨c, hc, hbrace⟩
  rw [h c hc] at hbrace
  cases hbrace

/-- The text of an element that can be read back is written as running text, also in a title. -/
theorem escapeTexts_mk {n : Nat} {tag : String} {attrs : Attributes} {text tail : String} {children : List Element}
    (h : IsLegible (.mk n tag attrs text children tail)) :
    escapeTexts (.mk n tag attrs text children tail) =
      .mk n tag attrs (String.ofList (Jsx.escapeText text.toList)) (escapeTextsAll children)
        (String.ofList (Jsx.escapeText tail.toList)) := by
  rw [escapeTexts]
  split
  · rename_i htitle
    have hplain : ∀ c ∈ text.toList, Jsx.isBrace c = false := h.title htitle.1 (List.isEmpty_iff.1 htitle.2)
    rw [textChild_of_forall hplain, escapeText_of_forall hplain]
  · rfl

theorem escapeText_eq_nil {s : List Char} (h : Jsx.escapeText s = []) : s = [] := by
  cases s with
  | nil => rfl
  | cons c s =>
    rw [Jsx.escapeText, List.flatMap_cons] at h
    have hc := (List.append_eq_nil_iff.1 h).1
    split at hc <;> cases hc

/-- **What is written of siblings after a text** reads as that text and these siblings. -/
theorem content_elements : ∀ {es : List Element} {s t : List Char}, (∀ e ∈ preorderAll es, IsLegible e) →
    Spelling TextLetter s t →
      Content (s ++ (Xml.elements false (escapeTextsAll es)).toList) (String.ofList t) (anonymousAll es)
  | [], s, t, _, hs => by
    rw [escapeTextsAll, Xml.elements, String.toList_empty, List.append_nil]
    exact .text hs
  | .mk n tag attrs text children tail :: es, s, t, h, hs => by
    rw [preorderAll, List.forall_mem_append, Element.preorder, List.forall_mem_cons] at h
    obtain ⟨⟨he, hchildren⟩, hes⟩ := h
    have hattrs := Xml.attributeList_attributesText tag he.attributes
    have hrest := content_elements hes (Xml.spelling_escapeText tail)
    have hbody := content_elements hchildren (Xml.spelling_escapeText text)
    rw [String.ofList_toList] at hrest hbody
    have hopen : "<".toList = ['<'] := by decide
    have hclose : ">".toList = ['>'] := by decide
    have hend : "</".toList = ['<', '/'] := by decide
    have hshort : "/>".toList = ['/', '>'] := by decide
    rw [escapeTextsAll, Xml.elements, escapeTexts_mk he, Xml.element, anonymousAll, anonymous]
    by_cases hempty : String.ofList (Jsx.escapeText text.toList) = "" ∧ (escapeTextsAll children).isEmpty
    · obtain ⟨htext, hnone⟩ := hempty
      have htext' : text = "" := by
        rw [← String.toList_inj, String.toList_ofList] at htext
        rw [← String.toList_inj]
        exact escapeText_eq_nil htext
      have hnone' : children = [] := by
        cases children with
        | nil => rfl
        | cons => rw [escapeTextsAll] at hnone; cases hnone
      subst htext' hnone'
      rw [if_pos ⟨htext, hnone⟩]
      simpa [hopen, hshort, anonymousAll] using Content.selfClosing hs he.tag hattrs hrest
    · rw [if_neg hempty]
      simpa [hopen, hclose, hend] using Content.element hs he.tag hattrs hbody hrest

/-- **What an element holds is written so that it reads as the element's text and children.** -/
theorem content_inner {e : Element} (h : ∀ x ∈ e.preorder, IsLegible x) :
    Content (Xml.inner false (escapeTexts e)).toList e.text (anonymousAll e.children) := by
  obtain ⟨n, tag, attrs, text, children, tail⟩ := e
  rw [Element.preorder, List.forall_mem_cons] at h
  have hcontent := content_elements h.2 (Xml.spelling_escapeLeading text)
  rw [String.ofList_toList] at hcontent
  rw [escapeTexts_mk h.1, Xml.inner, String.toList_append]
  exact hcontent

mutual

theorem preorder_escapeTexts : ∀ e : Element, (escapeTexts e).preorder = e.preorder.map escapeTexts
  | .mk n tag attrs text children tail => by
    rw [Element.preorder, List.map_cons, escapeTexts, Element.preorder, preorderAll_escapeTextsAll]

theorem preorderAll_escapeTextsAll : ∀ es : List Element,
    preorderAll (escapeTextsAll es) = (preorderAll es).map escapeTexts
  | []      => rfl
  | e :: es => by
    rw [escapeTextsAll, preorderAll, preorderAll, List.map_append, preorder_escapeTexts, preorderAll_escapeTextsAll]

end

theorem preorder_subset {e x : Element} (h : x ∈ e.preorder) : x.preorder ⊆ e.preorder :=
  (Element.preorder_sublist h).subset

/-- **Nothing is lost by writing, and nothing leaves its place.**  In a tree whose elements can be read back, what is
written of any element's inside, after the texts were made readable as JSX, is read in one way: as the text the element
had and the children it had, with their names, attributes, texts, tails and nesting.  A brace stands in a group there,
or inside a tag. -/
theorem inner_reads (root : Element) (h : ∀ e ∈ root.preorder, IsLegible e) :
    List.Forall₂ (fun e written =>
      (∀ text es, Content (Xml.inner false written).toList text es ↔ text = e.text ∧ es = anonymousAll e.children) ∧
        Xml.BracesGrouped (Xml.inner false written).toList)
      root.preorder (escapeTexts root).preorder := by
  rw [preorder_escapeTexts, List.forall₂_map_right_iff, List.forall₂_same]
  intro e he
  have hcontent := content_inner fun x hx => h x (preorder_subset he hx)
  refine ⟨fun text es => ⟨fun hread => ?_, ?_⟩, ?_⟩
  · obtain ⟨htext, hes, -⟩ := hread.unique hcontent (.inl rfl) (.inl rfl) rfl
    exact ⟨htext, hes⟩
  · rintro ⟨rfl, rfl⟩
    exact hcontent
  · simpa only [List.append_nil] using hcontent.bracesGrouped .nil

/-- A body whose text, attribute and tail hold what markup and expressions are written with. -/
def dressedBody : Element :=
  .mk 0 "body" [] "\x7ba\x7d &amp; \r" [
    .mk 1 "p" [("title", "\"\x7bx\x7d\"\n<")] "" [.mk 2 "br" [] "" [] "\x7b'\x7b'\x7d"] "\r>"] ""

theorem inner_reads_dressedBody : (∀ e ∈ dressedBody.preorder, IsLegible e) ∧
    Xml.inner false (escapeTexts dressedBody) = "\x7b'\x7b'\x7da\x7b'\x7d'\x7d &amp;amp; \r<p title=\"&quot;\x7bx\x7d" ++
      "&quot;&#10;&lt;\"><br/>\x7b'\x7b'\x7d'\x7b'\x7b'\x7d'\x7b'\x7d'\x7d</p>&#13;&gt;" ∧
    ∀ text es, Content (Xml.inner false (escapeTexts dressedBody)).toList text es ↔
      text = "\x7ba\x7d &amp; \r" ∧ es = [
        .mk 0 "p" [("title", "\"\x7bx\x7d\"\n<")] "" [.mk 0 "br" [] "" [] "\x7b'\x7b'\x7d"] "\r>"] := by
  have hlegible : ∀ e ∈ dressedBody.preorder, IsLegible e := by
    intro e he
    rcases he with _ | ⟨_, _ | ⟨_, _ | ⟨_, ⟨⟩⟩⟩⟩ <;> exact ⟨by decide, by decide, by decide⟩
  have hreads := inner_reads dressedBody hlegible
  cases hreads with
  | cons hbody _ => exact ⟨hlegible, by decide, hbody.1⟩

end Page
end ReactSite
