import ReactSite.Proofs.Numbering
import ReactSite.Proofs.Quoting
/-!
# Slots — which pieces of a written page lose their quotes

Taking the quotes off placeholders goes on piece by piece.  No piece gets longer, so the page comes out as meant just
when every piece does: a slot always loses its quotes, and a text stays as it is when no placeholder stands in quotes in
it (`unquoteAll_written_iff`).  For the pieces of an element that is said of its names, its other values and, when it is a
title, of its text (`clear_elementPieces_iff`).
-/
namespace ReactSite
namespace Page

open Naming (IsIdentifier)
open Xml (Piece Slots written elementPieces elementsPieces contentPieces attributePieces isSlot writtenAttributes)

section

variable {vs : List String}

/-! ## Pieces -/

/-- **Nothing in the piece changes that should not.** -/
def IsClear (vs : List String) : Piece → Prop
  | .plain text => ∀ v ∈ vs, ¬ quoted v <:+: text
  | .slot _     => True

/-- A piece after a mark; a slot holds a placeholder. -/
structure IsSound (vs : List String) (p : Char × Piece) : Prop where
  isMark : isMark p.1 = true
  slot : ∀ value, p.2 = .slot value → ∃ v ∈ vs, value = braced v

theorem unquoteAll_written (hvs : ∀ v ∈ vs, IsIdentifier v) (f : Piece → List Char) :
    ∀ (ps : List (Char × Piece)) (a : List Char), (∀ p ∈ ps, IsSound vs p) →
      unquoteAll vs (a ++ written f ps) = unquoteAll vs a ++ written (fun q => unquoteAll vs (f q)) ps
  | [], a, _ => by simp
  | p :: ps, a, h => by
    have hmark := (h p List.mem_cons_self).isMark
    have hrest := unquoteAll_written hvs f ps (f p.2) fun q hq => h q (List.mem_cons_of_mem _ hq)
    rw [Xml.written_cons, unquoteAll_append_cons hvs hmark, hrest]
    rfl

theorem length_written_le {f g : Piece → List Char} : ∀ {ps : List (Char × Piece)},
    (∀ p ∈ ps, (f p.2).length ≤ (g p.2).length) → (written f ps).length ≤ (written g ps).length
  | [], _ => Nat.le_refl _
  | p :: ps, h => by
    have hp := h p List.mem_cons_self
    have hrest := length_written_le fun q hq => h q (List.mem_cons_of_mem _ hq)
    simp only [Xml.written_cons, List.length_cons, List.length_append]
    omega

/-- Texts cut alike whose pieces are no longer are the same just when the pieces are. -/
theorem append_written_eq_iff {f g : Piece → List Char} : ∀ {ps : List (Char × Piece)} {a b : List Char},
    a.length ≤ b.length → (∀ p ∈ ps, (f p.2).length ≤ (g p.2).length) →
      (a ++ written f ps = b ++ written g ps ↔ a = b ∧ ∀ p ∈ ps, f p.2 = g p.2)
  | [], a, b, _, _ => by simp
  | p :: ps, a, b, hab, h => by
    have hp := h p List.mem_cons_self
    have hps : ∀ q ∈ ps, (f q.2).length ≤ (g q.2).length := fun q hq => h q (List.mem_cons_of_mem _ hq)
    have hrest := append_written_eq_iff hp hps
    rw [List.forall_mem_cons, Xml.written_cons, Xml.written_cons, ← hrest]
    constructor
    · intro e
      have hlen := congrArg List.length e
      have hle := length_written_le hps
      simp only [List.length_append, List.length_cons] at hlen
      obtain ⟨rfl, e'⟩ := List.append_inj e (by omega)
      exact ⟨rfl, (List.cons.inj e').2⟩
    · rintro ⟨rfl, e⟩
      rw [e]

theorem unquoteAll_piece (hvs : ∀ v ∈ vs, IsIdentifier v) {p : Char × Piece} (h : IsSound vs p) :
    (unquoteAll vs p.2.quoted).length ≤ p.2.bare.length ∧ (unquoteAll vs p.2.quoted = p.2.bare ↔ IsClear vs p.2) := by
  obtain ⟨c, q⟩ := p
  cases q with
  | plain text => exact ⟨length_unquoteAll_le text, unquoteAll_eq_self_iff⟩
  | slot value =>
    obtain ⟨v, hv, rfl⟩ := h.slot value rfl
    have hbare : unquoteAll vs (Piece.slot (braced v)).quoted = (Piece.slot (braced v)).bare := unquoteAll_quoted hvs hv
    exact ⟨Nat.le_of_eq (congrArg List.length hbare), fun _ => trivial, fun _ => hbare⟩

/-- **The quotes come off as meant just when every piece is clear.** -/
theorem unquoteAll_written_iff (hvs : ∀ v ∈ vs, IsIdentifier v) {ps : List (Char × Piece)} (h : ∀ p ∈ ps, IsSound vs p)
    (a : List Char) : unquoteAll vs (a ++ written Piece.quoted ps) = a ++ written Piece.bare ps ↔
      (∀ v ∈ vs, ¬ quoted v <:+: a) ∧ ∀ p ∈ ps, IsClear vs p.2 := by
  rw [unquoteAll_written hvs _ ps a h, append_written_eq_iff (length_unquoteAll_le a) fun p hp =>
    (unquoteAll_piece hvs (h p hp)).1, unquoteAll_eq_self_iff]
  exact and_congr_right fun _ => forall₂_congr fun p hp => (unquoteAll_piece hvs (h p hp)).2

/-! ## Elements -/

variable {slots : Slots}

theorem isSound_plain {c : Char} (hc : isMark c = true) (text : List Char) : IsSound vs (c, .plain text) :=
  ⟨hc, fun _ e => by cases e⟩

theorem isSound_attributePieces (hslots : ∀ s ∈ slots, ∃ v ∈ vs, s.2 = Resolution.placeholder v) (n : Nat)
    (a : String × String) : ∀ p ∈ attributePieces slots n a, IsSound vs p := by
  unfold attributePieces
  rw [List.forall_mem_cons, List.forall_mem_singleton]
  have hspace : isMark ' ' = true := by decide
  have hequals : isMark '=' = true := by decide
  refine ⟨isSound_plain hspace _, hequals, fun value e => ?_⟩
  by_cases h : isSlot slots n a = true
  · rw [if_pos h, Piece.slot.injEq] at e
    obtain ⟨v, hv, hp⟩ := hslots _ (Xml.mem_of_isSlot h)
    exact ⟨v, hv, by rw [← e, hp]; rfl⟩
  · rw [if_neg h] at e
    cases e

theorem isSound_contentPieces (xhtml : Bool) (tag text tail : String) (isLeaf : Bool) {inner : List (Char × Piece)}
    (h : ∀ p ∈ inner, IsSound vs p) : ∀ p ∈ contentPieces xhtml tag text tail isLeaf inner, IsSound vs p := by
  have hopen : ∀ t, IsSound vs ('<', .plain t) := isSound_plain (by decide)
  have hslash : ∀ t, IsSound vs ('/', .plain t) := isSound_plain (by decide)
  have hclose : ∀ t, IsSound vs ('>', .plain t) := isSound_plain (by decide)
  have hspace : ∀ t, IsSound vs (' ', .plain t) := isSound_plain (by decide)
  unfold contentPieces
  split
  · split
    · simp [hslash, hclose]
    · split
      · simp [hspace, hslash, hclose]
      · simp [hopen, hslash, hclose]
  · rw [List.forall_mem_append, List.forall_mem_cons]
    refine ⟨⟨hclose _, h⟩, ?_⟩
    simp [hopen, hslash, hclose]

mutual

theorem isSound_elementPieces (hslots : ∀ s ∈ slots, ∃ v ∈ vs, s.2 = Resolution.placeholder v) (xhtml : Bool) :
    ∀ e : Element, ∀ p ∈ elementPieces xhtml slots e, IsSound vs p
  | .mk n tag attrs text children tail => by
    have hattrs : ∀ p ∈ (writtenAttributes xhtml tag attrs).flatMap (attributePieces slots n), IsSound vs p := by
      intro p hp
      obtain ⟨a, -, hpa⟩ := List.mem_flatMap.1 hp
      exact isSound_attributePieces hslots n a p hpa
    rw [elementPieces, List.forall_mem_append, List.forall_mem_cons]
    exact ⟨⟨isSound_plain (by decide) _, hattrs⟩,
      isSound_contentPieces xhtml tag text tail _ (isSound_elementsPieces hslots xhtml children)⟩

theorem isSound_elementsPieces (hslots : ∀ s ∈ slots, ∃ v ∈ vs, s.2 = Resolution.placeholder v) (xhtml : Bool) :
    ∀ es : List Element, ∀ p ∈ elementsPieces xhtml slots es, IsSound vs p
  | [], p, hp => by
    unfold elementsPieces at hp
    cases hp
  | e :: es, p, hp => by
    rw [elementsPieces, List.mem_append] at hp
    rcases hp with hp | hp
    · exact isSound_elementPieces hslots xhtml e p hp
    · exact isSound_elementsPieces hslots xhtml es p hp

end

/-- **An element that holds no placeholder in quotes**, its slots apart: not in its names, as no other value, and not in
the text of a title, which is written as a string. -/
structure HoldsNone (xhtml : Bool) (slots : Slots) (v : String) (e : Element) : Prop where
  tag : ¬ quoted v <:+: e.tag.toList
  name : ∀ a ∈ writtenAttributes xhtml e.tag e.attributes, ¬ quoted v <:+: a.1.toList
  value : ∀ a ∈ writtenAttributes xhtml e.tag e.attributes, a.2 = Resolution.placeholder v → isSlot slots e.id a = true
  title : e.tag = "title" → e.children = [] → ¬ quoted v <:+: Jsx.textChild e.text.toList

theorem isClear_nil : IsClear vs (.plain []) := by
  intro v _ h
  exact absurd (quote_mem_of_quoted h) List.not_mem_nil

theorem isClear_escaped (hvs : ∀ v ∈ vs, IsIdentifier v) (s : List Char) :
    IsClear vs (.plain (Xml.escapeText (String.ofList (Jsx.escapeText s))).toList) := by
  intro v hv
  rw [infix_escapeText_iff (hvs v hv), String.toList_ofList]
  exact not_infix_escapeText (hvs v hv) s

theorem clear_attributePieces_iff (hvs : ∀ v ∈ vs, IsIdentifier v) (n : Nat) (a : String × String) :
    (∀ p ∈ attributePieces slots n a, IsClear vs p.2) ↔ ∀ v ∈ vs, ¬ quoted v <:+: a.1.toList ∧
      (a.2 = Resolution.placeholder v → isSlot slots n a = true) := by
  unfold attributePieces
  rw [List.forall_mem_cons, List.forall_mem_singleton]
  by_cases h : isSlot slots n a = true
  · simp [h, IsClear]
  · have hvalue : IsClear vs (.plain ('"' :: (Xml.escapeValue a.2).toList ++ ['"'])) ↔
        ∀ v ∈ vs, a.2 ≠ Resolution.placeholder v :=
      forall₂_congr fun v hv => not_congr (infix_value_iff (hvs v hv) a.2)
    have hname : IsClear vs (.plain a.1.toList) ↔ ∀ v ∈ vs, ¬ quoted v <:+: a.1.toList := Iff.rfl
    rw [if_neg h, hvalue, hname, ← forall₂_and]
    simp [h]

/-- The text of an element as it is written is clear unless it is that of a title. -/
theorem isClear_text_iff (hvs : ∀ v ∈ vs, IsIdentifier v) (tag text : String) (children : List Element) :
    IsClear vs (.plain (Xml.escapeText (if tag = "title" ∧ children.isEmpty then String.ofList (Jsx.textChild text.toList)
      else String.ofList (Jsx.escapeText text.toList))).toList) ↔
      ∀ v ∈ vs, tag = "title" → children = [] → ¬ quoted v <:+: Jsx.textChild text.toList := by
  by_cases h : tag = "title" ∧ children.isEmpty = true
  · rw [if_pos h]
    obtain ⟨ht, hc⟩ := h
    rw [List.isEmpty_iff] at hc
    refine forall₂_congr fun v hv => ?_
    rw [infix_escapeText_iff (hvs v hv), String.toList_ofList]
    simp [ht, hc]
  · rw [if_neg h]
    refine iff_of_true (isClear_escaped hvs _) fun v _ ht hc => ?_
    rw [hc] at h
    exact absurd ⟨ht, rfl⟩ h

theorem holdsNone_iff {xhtml : Bool} {v : String} {e : Element} : HoldsNone xhtml slots v e ↔
    ¬ quoted v <:+: e.tag.toList ∧
      (∀ a ∈ writtenAttributes xhtml e.tag e.attributes, ¬ quoted v <:+: a.1.toList ∧
        (a.2 = Resolution.placeholder v → isSlot slots e.id a = true)) ∧
      (e.tag = "title" → e.children = [] → ¬ quoted v <:+: Jsx.textChild e.text.toList) := by
  constructor
  · intro h
    exact ⟨h.tag, fun a ha => ⟨h.name a ha, h.value a ha⟩, h.title⟩
  · rintro ⟨htag, hattrs, htitle⟩
    exact ⟨htag, fun a ha => (hattrs a ha).1, fun a ha => (hattrs a ha).2, htitle⟩

variable (slots) in
theorem clear_attributesPieces_iff (hvs : ∀ v ∈ vs, IsIdentifier v) (n : Nat) (attrs : Attributes) :
    (∀ p ∈ attrs.flatMap (attributePieces slots n), IsClear vs p.2) ↔ ∀ v ∈ vs, ∀ a ∈ attrs,
      ¬ quoted v <:+: a.1.toList ∧ (a.2 = Resolution.placeholder v → isSlot slots n a = true) := by
  constructor
  · intro h v hv a ha
    exact (clear_attributePieces_iff hvs n a).1 (fun p hp => h p (List.mem_flatMap.2 ⟨a, ha, hp⟩)) v hv
  · intro h p hp
    obtain ⟨a, ha, hp⟩ := List.mem_flatMap.1 hp
    exact (clear_attributePieces_iff hvs n a).2 (fun v hv => h v hv a ha) p hp

theorem clear_contentPieces_iff (xhtml : Bool) {tag tail : String} (htag : IsClear vs (.plain tag.toList))
    (htail : IsClear vs (.plain (Xml.escapeText tail).toList)) (text : String) {isLeaf : Bool}
    {inner : List (Char × Piece)} (hinner : isLeaf = true → inner = []) :
    (∀ p ∈ contentPieces xhtml tag text tail isLeaf inner, IsClear vs p.2) ↔
      IsClear vs (.plain (Xml.escapeText text).toList) ∧ ∀ p ∈ inner, IsClear vs p.2 := by
  have hnil : IsClear vs (.plain []) := isClear_nil
  unfold contentPieces
  by_cases h : text = "" ∧ isLeaf = true
  · obtain ⟨rfl, hleaf⟩ := h
    have hempty : (Xml.escapeText "").toList = [] := by decide
    rw [if_pos ⟨rfl, hleaf⟩, hinner hleaf, hempty]
    split
    · simp [hnil, htail]
    · split
      · simp [hnil, htail]
      · simp [hnil, htag, htail]
  · rw [if_neg h, List.forall_mem_append, List.forall_mem_cons]
    simp [hnil, htag, htail]

mutual

/-- **The pieces of an element are clear just when it and all it holds have no placeholder in quotes.** -/
theorem clear_elementPieces_iff (hvs : ∀ v ∈ vs, IsIdentifier v) (xhtml : Bool) : ∀ e : Element,
    (∀ p ∈ elementPieces xhtml slots (escapeTexts e), IsClear vs p.2) ↔
      ∀ x ∈ e.preorder, ∀ v ∈ vs, HoldsNone xhtml slots v x
  | .mk n tag attrs text children tail => by
    have hattrs := clear_attributesPieces_iff slots hvs n (writtenAttributes xhtml tag attrs)
    have htext := isClear_text_iff hvs tag text children
    have hchildren := clear_elementsPieces_iff hvs xhtml children
    have hinner : (escapeTextsAll children).isEmpty = true → elementsPieces xhtml slots (escapeTextsAll children) = [] := by
      cases children <;> simp [escapeTextsAll, elementsPieces]
    rw [escapeTexts, elementPieces, Element.preorder, List.forall_mem_cons, ← hchildren, List.forall_mem_append,
      List.forall_mem_cons, hattrs]
    simp only [holdsNone_iff, Element.tag_mk, Element.attributes_mk, Element.id_mk, Element.children_mk, Element.text_mk]
    rw [forall₂_and, forall₂_and, ← htext]
    constructor
    · rintro ⟨⟨htag, ha⟩, hcontent⟩
      rw [clear_contentPieces_iff xhtml htag (isClear_escaped hvs _) _ hinner] at hcontent
      exact ⟨⟨htag, ha, hcontent.1⟩, hcontent.2⟩
    · rintro ⟨⟨htag, ha, ht⟩, hc⟩
      refine ⟨⟨htag, ha⟩, ?_⟩
      rw [clear_contentPieces_iff xhtml htag (isClear_escaped hvs _) _ hinner]
      exact ⟨ht, hc⟩

theorem clear_elementsPieces_iff (hvs : ∀ v ∈ vs, IsIdentifier v) (xhtml : Bool) : ∀ es : List Element,
    (∀ p ∈ elementsPieces xhtml slots (escapeTextsAll es), IsClear vs p.2) ↔
      ∀ x ∈ Element.preorderAll es, ∀ v ∈ vs, HoldsNone xhtml slots v x
  | [] => by
    rw [escapeTextsAll, elementsPieces, Element.preorderAll]
    simp
  | e :: es => by
    rw [escapeTextsAll, elementsPieces, Element.preorderAll, List.forall_mem_append, List.forall_mem_append,
      clear_elementPieces_iff hvs xhtml e, clear_elementsPieces_iff hvs xhtml es]

end

end

end Page
end ReactSite
