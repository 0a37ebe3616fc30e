import ReactSite.Proofs.Importing
import ReactSite.Proofs.Slots
import ReactSite.Proofs.Storing
/-!
# Expressions — which attributes of a page become expressions

The slots of a page are the sources that its mapping gave a placeholder (`Mapping.slots`).  A module's content is the
page with quotes off the slots and nothing else changed just when no other piece of the page holds one of the page's
placeholders in quotes (`moduleText_bare_iff`).  Running text never does; a name, another attribute value, the string of
a title or a style sheet can.
-/
namespace ReactSite

open Naming (IsIdentifier)
open Xml (Piece Slots written elementPieces elementsPieces)

namespace Mapping

/-- **The sources that became placeholders**: the number of the tag's element, and the value it was given. -/
def slots (site : Surroundings) (table : RenameTable) (tags : List Tag) (results : List MappedTag) : Slots :=
  (tags.zip results).filterMap fun p =>
    match p.1.element, internalLink? site table "src" p.1, p.2.attributes with
    | some n, some _, some attrs => if hasSource p.1 then (attrs.get? "src").map fun value => (n, value) else none
    | _, _, _                    => none

theorem placeholder_of_mem_slots {site : Surroundings} {table : RenameTable} {tags : List Tag} {s : Nat × String}
    (h : s ∈ slots site table tags (ofPage site table tags).results) :
    ∃ v ∈ (ofPage site table tags).identifiers, s.2 = Resolution.placeholder v := by
  obtain ⟨⟨r, m⟩, hp, hs⟩ := List.mem_filterMap.1 h
  cases hn : r.element with
  | none => simp [hn] at hs
  | some n =>
    cases hl : internalLink? site table "src" r with
    | none => simp [hn, hl] at hs
    | some link =>
      by_cases hr : hasSource r = true
      · rw [ofPage_eq] at hp
        obtain ⟨v, hv, ha⟩ := results_ofTags hr hl hp
        have hvalue := Attributes.get?_put (Attributes.passed table r.attributes) "src" (Resolution.placeholder v)
        simp only [hn, hl, ha, hr, hvalue, if_true, Option.map_some, Option.some.injEq] at hs
        exact ⟨v, (serves_ofTags site table tags).mem_identifiers hv, by rw [← hs]⟩
      · cases ha : m.attributes <;> simp [hn, hl, ha, hr] at hs

theorem isIdentifier_of_mem {site : Surroundings} {table : RenameTable} {tags : List Tag} :
    ∀ v ∈ (ofPage site table tags).identifiers, IsIdentifier v :=
  (serves_ofTags site table tags).isIdentifier

end Mapping

namespace Page

/-! ## The pieces of a page -/

def sectionLead (root : Element) (tag : String) : String :=
  match root.childTagged? tag with
  | some e => Xml.escapeLeading e.text
  | none   => ""

def sectionPieces (xhtml : Bool) (slots : Slots) (root : Element) (tag : String) : List (Char × Piece) :=
  match root.childTagged? tag with
  | some e => elementsPieces xhtml slots e.children
  | none   => []

def stylePieces (styles : List String) : List (Char × Piece) :=
  if styles.isEmpty then []
  else [('<', .plain ['s', 't', 'y', 'l', 'e']), ('>', .plain ['\x7b']),
    ('\x60', .plain (Jsx.templateText ("\n".intercalate styles).toList)), ('\x60', .plain ['\x7d']),
    ('<', .plain []), ('/', .plain ['s', 't', 'y', 'l', 'e']), ('>', .plain [])]

/-- What stands before the first mark of a page. -/
def pageLead (xhtml : Bool) (root : Element) (styles : List String) : List Char :=
  if headSection xhtml root styles = "" then (sectionLead root "body").toList else []

/-- The pieces of a page: the head component when there is one, and the body's content. -/
def pagePieces (xhtml : Bool) (slots : Slots) (root : Element) (styles : List String) : List (Char × Piece) :=
  (if headSection xhtml root styles = "" then []
   else ('<', .plain headTag.toList) :: ('>', .plain (sectionLead root "head").toList) ::
    sectionPieces xhtml slots root "head" ++ stylePieces styles ++
    [('<', .plain []), ('/', .plain headTag.toList), ('>', .plain (sectionLead root "body").toList)]) ++
  sectionPieces xhtml slots root "body"

/-- **The text of a page**, its pieces written by `f`. -/
def pageText (f : Piece → List Char) (xhtml : Bool) (slots : Slots) (root : Element) (styles : List String) : List Char :=
  pageLead xhtml root styles ++ written f (pagePieces xhtml slots root styles)

section

variable {slots : Slots}

theorem inner_eq (hslots : ∀ s ∈ slots, Xml.escapeValue s.2 = s.2) (xhtml : Bool) (root : Element) (tag : String) :
    (match root.childTagged? tag with | some e => Xml.inner xhtml e | none => "").toList =
      (sectionLead root tag).toList ++ written Piece.quoted (sectionPieces xhtml slots root tag) := by
  unfold sectionLead sectionPieces
  cases root.childTagged? tag with
  | none => rfl
  | some e =>
    have hchildren := Xml.written_elementsPieces hslots xhtml e.children
    simp only [Xml.inner, String.toList_append, hchildren]

theorem written_stylePieces (styles : List String) :
    written Piece.quoted (stylePieces styles) = (if styles.isEmpty then "" else styleBlock styles).toList := by
  unfold stylePieces
  split
  · rfl
  · have hopen : "<style>\x7b`".toList = ['<', 's', 't', 'y', 'l', 'e', '>', '\x7b', '\x60'] := by decide
    have hclose : "`\x7d</style>".toList = ['\x60', '\x7d', '<', '/', 's', 't', 'y', 'l', 'e', '>'] := by decide
    simp only [styleBlock, String.toList_append, hopen, hclose, String.toList_ofList]
    simp [Piece.quoted]

/-- There is no head component only if the head holds no element and there is no style sheet. -/
theorem headSection_cases (xhtml : Bool) (root : Element) (styles : List String) :
    (headSection xhtml root styles = "" ∧ styles = [] ∧ ∀ e, root.childTagged? "head" = some e → e.children = []) ∨
      headSection xhtml root styles = "<" ++ headTag ++ ">" ++
        (match root.childTagged? "head" with | some e => Xml.inner xhtml e | none => "") ++
        (if styles.isEmpty then "" else styleBlock styles) ++ "</" ++ headTag ++ ">" := by
  unfold headSection
  cases root.childTagged? "head" with
  | none =>
    by_cases hs : styles.isEmpty = true
    · refine .inl ⟨by simp [hs], List.isEmpty_iff.1 hs, fun e he => ?_⟩
      cases he
    · exact .inr (by simp [hs])
  | some e =>
    by_cases h : (!(!e.children.isEmpty || !Text.isBlankText e.text) && styles.isEmpty) = true
    · refine .inl ⟨if_pos h, ?_⟩
      simp only [Bool.and_eq_true, Bool.not_eq_true', Bool.or_eq_false_iff, Bool.not_eq_false', List.isEmpty_iff] at h
      refine ⟨h.2, fun x hx => ?_⟩
      cases hx
      exact h.1.1
    · exact .inr (if_neg h)

/-- **With the quotes around its slots, the text of a page is what is written before they come off.** -/
theorem pageText_quoted (hslots : ∀ s ∈ slots, Xml.escapeValue s.2 = s.2) (xhtml : Bool) (root : Element)
    (styles : List String) : pageText Piece.quoted xhtml slots root styles =
      (headSection xhtml root styles ++ bodySection xhtml root).toList := by
  have hbody : (bodySection xhtml root).toList =
      (sectionLead root "body").toList ++ written Piece.quoted (sectionPieces xhtml slots root "body") :=
    inner_eq hslots xhtml root "body"
  rw [String.toList_append, hbody]
  unfold pageText pageLead pagePieces
  by_cases h : headSection xhtml root styles = ""
  · rw [if_pos h, if_pos h, h]
    rfl
  · have hhead : (headSection xhtml root styles).toList = '<' :: (headTag.toList ++ '>' ::
        ((sectionLead root "head").toList ++ written Piece.quoted (sectionPieces xhtml slots root "head") ++
          written Piece.quoted (stylePieces styles) ++ '<' :: '/' :: (headTag.toList ++ ['>']))) := by
      have hopen : "<".toList = ['<'] := by decide
      have hclose : ">".toList = ['>'] := by decide
      have hend : "</".toList = ['<', '/'] := by decide
      have hinner := inner_eq hslots xhtml root "head"
      rcases headSection_cases xhtml root styles with ⟨he, -⟩ | he
      · exact absurd he h
      · rw [he]
        simp only [String.toList_append, hinner, ← written_stylePieces, hopen, hclose, hend]
        simp
    rw [if_neg h, if_neg h, hhead]
    simp [Piece.quoted]

/-! ## Where a placeholder stands in quotes -/

/-- **The elements of a section of a document**, in document order. -/
def sectionElements (root : Element) (tag : String) : List Element :=
  match root.childTagged? tag with
  | some e => Element.preorderAll e.children
  | none   => []

theorem childTagged?_escapeTexts (root : Element) (tag : String) :
    (escapeTexts root).childTagged? tag = (root.childTagged? tag).map escapeTexts := by
  cases root with | mk n name attrs text children tail =>
  unfold Element.childTagged?
  rw [escapeTexts, Element.children_mk, Element.children_mk]
  induction children with
  | nil => rfl
  | cons e es ih =>
    have htag : (escapeTexts e).tag = e.tag := by
      cases e
      rfl
    rw [escapeTextsAll, List.find?_cons, List.find?_cons, htag]
    split
    · rfl
    · exact ih

variable {vs : List String}

theorem isClear_of_forall {text : List Char} (h : '"' ∉ text) : IsClear vs (.plain text) := by
  intro v _ hin
  exact h (quote_mem_of_quoted hin)

theorem isClear_sectionLead (hvs : ∀ v ∈ vs, IsIdentifier v) (root : Element) {tag : String} (htag : tag ≠ "title") :
    IsClear vs (.plain (sectionLead (escapeTexts root) tag).toList) := by
  unfold sectionLead
  rw [childTagged?_escapeTexts]
  cases h : root.childTagged? tag with
  | none => exact isClear_nil
  | some e =>
    have he : e.tag = tag := by simpa using List.find?_some h
    obtain ⟨n, name, attrs, text, children, tail⟩ := e
    rw [Element.tag_mk] at he
    have hnot : ¬ (name = "title" ∧ children.isEmpty = true) := fun hc => htag (he ▸ hc.1)
    intro v hv
    simp only [Option.map_some, escapeTexts, Element.text_mk, if_neg hnot]
    rw [infix_escapeLeading_iff (hvs v hv), String.toList_ofList]
    exact not_infix_escapeText (hvs v hv) _

variable (slots) in
theorem clear_sectionPieces_iff (hvs : ∀ v ∈ vs, IsIdentifier v) (xhtml : Bool) (root : Element) (tag : String) :
    (∀ p ∈ sectionPieces xhtml slots (escapeTexts root) tag, IsClear vs p.2) ↔
      ∀ x ∈ sectionElements root tag, ∀ v ∈ vs, HoldsNone xhtml slots v x := by
  unfold sectionPieces sectionElements
  rw [childTagged?_escapeTexts]
  cases root.childTagged? tag with
  | none => simp
  | some e =>
    obtain ⟨n, name, attrs, text, children, tail⟩ := e
    exact clear_elementsPieces_iff hvs xhtml children

theorem clear_stylePieces_iff (hvs : ∀ v ∈ vs, IsIdentifier v) (styles : List String) :
    (∀ p ∈ stylePieces styles, IsClear vs p.2) ↔ ∀ v ∈ vs, ¬ quoted v <:+: ("\n".intercalate styles).toList := by
  unfold stylePieces
  cases styles with
  | nil =>
    have hempty : ("\n".intercalate []).toList = [] := by decide
    rw [hempty]
    exact iff_of_true (by simp) isClear_nil
  | cons s styles =>
    have htag : IsClear vs (.plain ['s', 't', 'y', 'l', 'e']) := isClear_of_forall (by decide)
    have hopen : IsClear vs (.plain ['\x7b']) := isClear_of_forall (by decide)
    have hclose : IsClear vs (.plain ['\x7d']) := isClear_of_forall (by decide)
    have hnil : IsClear vs (.plain []) := isClear_nil
    have hcss : IsClear vs (.plain (Jsx.templateText ("\n".intercalate (s :: styles)).toList)) ↔
        ∀ v ∈ vs, ¬ quoted v <:+: ("\n".intercalate (s :: styles)).toList :=
      forall₂_congr fun v hv => not_congr (infix_templateText_iff (hvs v hv) _ [])
    simp only [List.isEmpty_cons, Bool.false_eq_true, if_false, List.forall_mem_cons, htag, hopen, hclose, hnil, hcss]
    simp

theorem isSound_pagePieces (hslots : ∀ s ∈ slots, ∃ v ∈ vs, s.2 = Resolution.placeholder v) (xhtml : Bool)
    (root : Element) (styles : List String) : ∀ p ∈ pagePieces xhtml slots root styles, IsSound vs p := by
  have hsection : ∀ tag, ∀ p ∈ sectionPieces xhtml slots root tag, IsSound vs p := by
    intro tag
    unfold sectionPieces
    split
    · exact isSound_elementsPieces hslots xhtml _
    · simp
  have hopen : ∀ t, IsSound vs ('<', .plain t) := isSound_plain (by decide)
  have hslash : ∀ t, IsSound vs ('/', .plain t) := isSound_plain (by decide)
  have hclose : ∀ t, IsSound vs ('>', .plain t) := isSound_plain (by decide)
  have htemplate : ∀ t, IsSound vs ('\x60', .plain t) := isSound_plain (by decide)
  have hstyle : ∀ p ∈ stylePieces styles, IsSound vs p := by
    unfold stylePieces
    split
    · simp
    · simp [hopen, hslash, hclose, htemplate]
  unfold pagePieces
  rw [List.forall_mem_append]
  refine ⟨?_, hsection "body"⟩
  split
  · simp
  · rw [List.forall_mem_append, List.forall_mem_append, List.forall_mem_cons, List.forall_mem_cons]
    refine ⟨⟨⟨hopen _, hclose _, hsection "head"⟩, hstyle⟩, ?_⟩
    simp [hopen, hslash, hclose]

theorem clear_pagePieces_iff (hvs : ∀ v ∈ vs, IsIdentifier v) (xhtml : Bool) (root : Element) (styles : List String) :
    (∀ p ∈ pagePieces xhtml slots (escapeTexts root) styles, IsClear vs p.2) ↔
      (∀ x ∈ sectionElements root "head" ++ sectionElements root "body", ∀ v ∈ vs, HoldsNone xhtml slots v x) ∧
        ∀ v ∈ vs, ¬ quoted v <:+: ("\n".intercalate styles).toList := by
  have hhead := clear_sectionPieces_iff slots hvs xhtml root "head"
  have hbody := clear_sectionPieces_iff slots hvs xhtml root "body"
  have hstyle := clear_stylePieces_iff hvs styles
  have hleads := isClear_sectionLead hvs root (show "head" ≠ "title" by decide)
  have hbodyLead := isClear_sectionLead hvs root (show "body" ≠ "title" by decide)
  have htag : IsClear vs (.plain headTag.toList) := isClear_of_forall (by decide)
  have hnil : IsClear vs (.plain []) := isClear_nil
  unfold pagePieces
  rw [List.forall_mem_append, List.forall_mem_append, ← hhead, ← hbody, ← hstyle]
  by_cases h : headSection xhtml (escapeTexts root) styles = ""
  · rcases headSection_cases xhtml (escapeTexts root) styles with ⟨-, rfl, hchildren⟩ | he
    · have hnone : sectionPieces xhtml slots (escapeTexts root) "head" = [] := by
        unfold sectionPieces
        split
        · rename_i e he
          rw [hchildren e he]
          rfl
        · rfl
      rw [if_pos h, hnone]
      simp [stylePieces]
    · have hne : headSection xhtml (escapeTexts root) styles ≠ "" := by
        rw [he, Ne, ← String.toList_inj]
        simp
      exact absurd h hne
  · rw [if_neg h, List.forall_mem_append, List.forall_mem_append, List.forall_mem_cons, List.forall_mem_cons]
    simp only [List.forall_mem_cons, htag, hleads, hbodyLead, hnil, true_and]
    simp [and_assoc, and_comm]

end

/-! ## The module -/

/-- The import statements of a page's module; `head` is the text of the head component. -/
def importsOf (document : Document) (outcome : Outcome) (head : String) : List String :=
  (if (scriptsOf document.root).isEmpty then reactImport else effectImport) ::
    (if head = "" then [] else [helmetImport]) ++ outcome.imports

/-- The module of a document around its content; `head` is the text of the head component. -/
def moduleAround (document : Document) (outcome : Outcome) (name head content : String) : String :=
  render (importsOf document outcome head) name content
    (if (scriptsOf document.root).isEmpty then "" else effectBlock (scriptsOf document.root))

theorem moduleText_eq {document : Document} {tags : List Tag} {outcome : Outcome} {file : Option String} {draft : Draft}
    (h : carryOut file document.root tags outcome.results = .ok draft)
    (hs : (escapeTexts draft.root).textsStorable = true) (name : String) :
    moduleText document tags outcome name file =
      .ok (moduleAround document outcome name
        (headSection document.xhtml (escapeTexts draft.root) (stylesOf document.root))
        (outcome.identifiers.foldl unquote
          (headSection document.xhtml (escapeTexts draft.root) (stylesOf document.root) ++
            bodySection document.xhtml (escapeTexts draft.root)))) := by
  unfold moduleText
  simp only [h, bind, Except.bind, hs]
  rfl

theorem textsStorable_of_moduleText {document : Document} {tags : List Tag} {outcome : Outcome} {file : Option String}
    {draft : Draft} {name text : String} (hd : carryOut file document.root tags outcome.results = .ok draft)
    (h : moduleText document tags outcome name file = .ok text) : (escapeTexts draft.root).textsStorable = true := by
  by_contra hn
  rw [Bool.not_eq_true] at hn
  unfold moduleText at h
  simp only [hd, bind, Except.bind, hn] at h
  cases h

/-- **A module that comes out is that of the tree the results were carried out on.** -/
theorem exists_of_moduleText {document : Document} {tags : List Tag} {outcome : Outcome} {file : Option String}
    {name text : String} (h : moduleText document tags outcome name file = .ok text) :
    ∃ draft, carryOut file document.root tags outcome.results = .ok draft ∧
      text = moduleAround document outcome name
        (headSection document.xhtml (escapeTexts draft.root) (stylesOf document.root))
        (outcome.identifiers.foldl unquote
          (headSection document.xhtml (escapeTexts draft.root) (stylesOf document.root) ++
            bodySection document.xhtml (escapeTexts draft.root))) := by
  cases hd : carryOut file document.root tags outcome.results with
  | error f =>
    unfold moduleText at h
    simp only [hd, bind, Except.bind] at h
    cases h
  | ok draft =>
    have htext := moduleText_eq hd (textsStorable_of_moduleText hd h) name
    rw [h, Except.ok.injEq] at htext
    exact ⟨draft, rfl, htext⟩

instance (xhtml : Bool) (slots : Slots) (v : String) (e : Element) : Decidable (HoldsNone xhtml slots v e) :=
  decidable_of_iff _ holdsNone_iff.symm

/-- **A page comes out with the quotes off its slots, and otherwise as it was written, just when nothing else in it holds
a placeholder in quotes**: no name, no other value and no title of an element in the head or the body, and no style
sheet.  What running text says does not matter. -/
theorem moduleText_bare_iff (root : Element) (xhtml : Bool) (site : Surroundings) (table : RenameTable)
    (tags : List Tag) (name : String) (file : Option String) (htags : tagsOf root.numbered = .ok tags)
    (hs : root.numbered.textsStorable = true) :
    ∃ draft content, carryOut file root.numbered tags (Mapping.ofPage site table tags).results = .ok draft ∧
      moduleText ⟨root.numbered, xhtml⟩ tags (Mapping.ofPage site table tags) name file =
        .ok (moduleAround ⟨root.numbered, xhtml⟩ (Mapping.ofPage site table tags) name
          (headSection xhtml (escapeTexts draft.root) (stylesOf root.numbered)) content) ∧
      content = (Mapping.ofPage site table tags).identifiers.foldl unquote
        (headSection xhtml (escapeTexts draft.root) (stylesOf root.numbered) ++
          bodySection xhtml (escapeTexts draft.root)) ∧
      (headSection xhtml (escapeTexts draft.root) (stylesOf root.numbered) ++
          bodySection xhtml (escapeTexts draft.root)).toList =
        pageText Piece.quoted xhtml (Mapping.slots site table tags (Mapping.ofPage site table tags).results)
          (escapeTexts draft.root) (stylesOf root.numbered) ∧
      (content.toList =
          pageText Piece.bare xhtml (Mapping.slots site table tags (Mapping.ofPage site table tags).results)
            (escapeTexts draft.root) (stylesOf root.numbered) ↔
        (∀ e ∈ sectionElements draft.root "head" ++ sectionElements draft.root "body",
          ∀ v ∈ (Mapping.ofPage site table tags).identifiers,
            HoldsNone xhtml (Mapping.slots site table tags (Mapping.ofPage site table tags).results) v e) ∧
        ∀ v ∈ (Mapping.ofPage site table tags).identifiers,
          ¬ quoted v <:+: ("\n".intercalate (stylesOf root.numbered)).toList) := by
  obtain ⟨draft, hd, hstorable⟩ := carryOut_eq_ok file htags hs site table
  have hvs : ∀ v ∈ (Mapping.ofPage site table tags).identifiers, IsIdentifier v := Mapping.isIdentifier_of_mem
  have hslots : ∀ s ∈ Mapping.slots site table tags (Mapping.ofPage site table tags).results,
      ∃ v ∈ (Mapping.ofPage site table tags).identifiers, s.2 = Resolution.placeholder v :=
    fun s h => Mapping.placeholder_of_mem_slots h
  have hescaped : ∀ s ∈ Mapping.slots site table tags (Mapping.ofPage site table tags).results,
      Xml.escapeValue s.2 = s.2 := by
    intro s h
    obtain ⟨v, hv, e⟩ := hslots s h
    rw [e]
    exact escapeValue_placeholder (hvs v hv)
  have hquoted := pageText_quoted hescaped xhtml (escapeTexts draft.root) (stylesOf root.numbered)
  have hmodule : moduleText ⟨root.numbered, xhtml⟩ tags (Mapping.ofPage site table tags) name file = _ :=
    moduleText_eq hd (textsStorable_escapeTexts _ hstorable) name
  refine ⟨draft, _, hd, hmodule, rfl, hquoted.symm, ?_⟩
  rw [toList_foldl_unquote, ← hquoted, ← clear_pagePieces_iff hvs xhtml draft.root (stylesOf root.numbered)]
  have hlead : ∀ v ∈ (Mapping.ofPage site table tags).identifiers,
      ¬ quoted v <:+: pageLead xhtml (escapeTexts draft.root) (stylesOf root.numbered) := by
    have hbody := isClear_sectionLead hvs draft.root (show "body" ≠ "title" by decide)
    unfold pageLead
    split
    · exact hbody
    · exact isClear_nil
  have hiff := unquoteAll_written_iff hvs (isSound_pagePieces hslots xhtml (escapeTexts draft.root)
    (stylesOf root.numbered)) (pageLead xhtml (escapeTexts draft.root) (stylesOf root.numbered))
  exact hiff.trans (and_iff_right hlead)

def logoSite : Surroundings :=
  ⟨⟨[(["site"], .directory), (["site", "logo.png"], .file [])], [], []⟩, ⟨1, ["site"]⟩, ""⟩

/-- A page that talks about the placeholder of its image. -/
def quotingPage : Element :=
  .mk 0 "html" [] "" [
    .mk 0 "head" [] "" [.mk 0 "title" [] "\"\x7blogo_png\x7d\"!" [] ""] "",
    .mk 0 "body" [] "\"\x7blogo_png\x7d\"" [
      .mk 0 "img" [("src", "logo.png"), ("alt", "\x7blogo_png\x7d logo")] "" [] "\"\x7blogo_png\x7d\""] ""] ""

theorem moduleText_bare_iff_quotingPage : ∃ tags draft, tagsOf quotingPage.numbered = .ok tags ∧
    quotingPage.numbered.textsStorable = true ∧
    carryOut none quotingPage.numbered tags (Mapping.ofPage logoSite [] tags).results = .ok draft ∧
    ((Mapping.ofPage logoSite [] tags).identifiers.foldl unquote
      (headSection false (escapeTexts draft.root) (stylesOf quotingPage.numbered) ++
        bodySection false (escapeTexts draft.root))).toList =
      pageText Piece.bare false (Mapping.slots logoSite [] tags (Mapping.ofPage logoSite [] tags).results)
        (escapeTexts draft.root) (stylesOf quotingPage.numbered) := by
  obtain ⟨draft, content, hd, -, rfl, -, hiff⟩ :=
    moduleText_bare_iff quotingPage false logoSite [] _ "Page" none rfl (by decide)
  refine ⟨_, draft, rfl, by decide, hd, hiff.2 ?_⟩
  cases hd
  decide

/-- A page whose image is described by its placeholder. -/
def captionedPage : Element :=
  .mk 0 "html" [] "" [.mk 0 "body" [] "" [
    .mk 0 "img" [("src", "logo.png"), ("alt", "\x7blogo_png\x7d")] "" [] ""] ""] ""

/-- **An attribute that says what a slot holds becomes an expression as well.** -/
theorem unquoted_outside_slots : ∃ tags draft, tagsOf captionedPage.numbered = .ok tags ∧
    carryOut none captionedPage.numbered tags (Mapping.ofPage logoSite [] tags).results = .ok draft ∧
    ((Mapping.ofPage logoSite [] tags).identifiers.foldl unquote
      (headSection false (escapeTexts draft.root) (stylesOf captionedPage.numbered) ++
        bodySection false (escapeTexts draft.root))).toList ≠
      pageText Piece.bare false (Mapping.slots logoSite [] tags (Mapping.ofPage logoSite [] tags).results)
        (escapeTexts draft.root) (stylesOf captionedPage.numbered) :=
  ⟨_, _, rfl, rfl, by decide⟩

end Page
end ReactSite
