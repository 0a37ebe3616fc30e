import ReactSite.Page.Content
import ReactSite.Proofs.Extraction
/-!
# Storing — editing a tree of storable texts never fails

A tree stores no control characters.  An edit stores text again only where the tail of an element that goes joins the
text before it, and two storable texts joined can be stored (`isStorable_append`).  So the results of a document's own
mapping can always be carried out on a tree whose texts are storable (`carryOut_eq_ok`), and the texts of what is left
can be stored again as JSX (`textsStorable_escapeTexts`).
-/
namespace ReactSite
namespace Element

theorem isStorable_append (s t : String) : isStorable (s ++ t) = (isStorable s && isStorable t) := by
  rw [isStorable, String.toList_append, List.all_append]; rfl

theorem all_preorderAll (p : Element → Bool) (es : List Element) :
    (preorderAll es).all p = es.all fun e => e.preorder.all p := by
  induction es with
  | nil => rfl
  | cons e es ih => rw [preorderAll, List.all_append, ih, List.all_cons]

@[simp] theorem textsStorable_mk (n : Nat) (tag : String) (attrs : Attributes) (text : String) (es : List Element)
    (tail : String) : (mk n tag attrs text es tail).textsStorable =
      (isStorable text && isStorable tail && es.all textsStorable) := by
  rw [textsStorable, preorder, List.all_cons, all_preorderAll]; rfl

theorem textsStorable_tail {e : Element} (h : e.textsStorable = true) : isStorable e.tail = true := by
  cases e
  rw [textsStorable_mk, Bool.and_eq_true, Bool.and_eq_true] at h
  exact h.1.2

theorem textsStorable_withTail {e : Element} {tail : String} (h : e.textsStorable = true)
    (ht : isStorable tail = true) : (e.withTail tail).textsStorable = true := by
  cases e
  rw [textsStorable_mk, Bool.and_eq_true, Bool.and_eq_true] at h
  simp only [withTail_mk, textsStorable_mk, h.1.1, h.2, ht, Bool.and_self]

mutual

theorem textsStorable_modify (n : Nat) {f : Element → Element}
    (hf : ∀ e, e.textsStorable = true → (f e).textsStorable = true) : ∀ e : Element, e.textsStorable = true →
      (e.modify n f).textsStorable = true
  | mk m tag attrs text es tail, h => by
    unfold modify
    split
    · exact hf _ h
    · rw [textsStorable_mk, Bool.and_eq_true] at h ⊢
      exact ⟨h.1, textsStorable_modifyAll n hf es h.2⟩

theorem textsStorable_modifyAll (n : Nat) {f : Element → Element}
    (hf : ∀ e, e.textsStorable = true → (f e).textsStorable = true) : ∀ es : List Element,
      es.all textsStorable = true → (modifyAll n f es).all textsStorable = true
  | [], _      => rfl
  | e :: es, h => by
    rw [List.all_cons, Bool.and_eq_true] at h
    rw [modifyAll, List.all_cons, textsStorable_modify n hf e h.1, textsStorable_modifyAll n hf es h.2]; rfl

end

mutual

theorem textsStorable_detach (n : Nat) : ∀ (e : Element) (d : Detached Element), e.textsStorable = true →
    e.detach n = some d →
      d.rest.textsStorable = true ∧ d.element.textsStorable = true ∧ isStorable d.joined = true
  | mk m tag attrs text es tail, d, h, hd => by
    rw [textsStorable_mk, Bool.and_eq_true, Bool.and_eq_true] at h
    rw [detach] at hd
    obtain ⟨d', hd', rfl⟩ := Option.map_eq_some_iff.1 hd
    obtain ⟨h1, h2, h3⟩ := textsStorable_detachAmong n es text d' h.1.1 h.2 hd'
    refine ⟨?_, h3⟩
    simp only [textsStorable_mk, h1, h.1.2, h2, Bool.and_self]

theorem textsStorable_detachAmong (n : Nat) : ∀ (es : List Element) (text : String)
    (d : Detached (String × List Element)), isStorable text = true → es.all textsStorable = true →
      detachAmong n text es = some d →
        isStorable d.rest.1 = true ∧ d.rest.2.all textsStorable = true ∧ d.element.textsStorable = true ∧
          isStorable d.joined = true
  | [], _, _, _, _, hd       => by cases hd
  | e :: es, text, d, ht, h, hd => by
    rw [List.all_cons, Bool.and_eq_true] at h
    have htail := textsStorable_tail h.1
    unfold detachAmong at hd
    split at hd
    · cases hd
      have hj : isStorable (text ++ e.tail) = true := by rw [isStorable_append, ht, htail]; rfl
      exact ⟨hj, h.2, h.1, hj⟩
    · split at hd
      · rename_i d' hd'
        cases hd
        obtain ⟨h1, h2⟩ := textsStorable_detach n e d' h.1 hd'
        exact ⟨ht, by rw [List.all_cons, h1, h.2]; rfl, h2⟩
      · obtain ⟨d', hd', rfl⟩ := Option.map_eq_some_iff.1 hd
        obtain ⟨h1, h2, h3⟩ := textsStorable_detachAmong n es e.tail d' htail h.2 hd'
        exact ⟨ht, by rw [List.all_cons, textsStorable_withTail h.1 h1, h2]; rfl, h3⟩

end

end Element

namespace Page

open Element (isStorable textsStorable)

/-- Every text of a draft, in the tree and out of it, can be stored. -/
def Draft.textsStorable (w : Draft) : Bool :=
  w.root.textsStorable && w.detached.all Element.textsStorable

namespace Draft

theorem checkJoined_eq_ok {α : Type} {d : Element.Detached α} (h : isStorable d.joined = true) :
    checkJoined d = .ok () := by
  rw [checkJoined, h]; simp

theorem dropDetached_eq_ok (n : Nat) : ∀ out : List Element, out.all Element.textsStorable = true →
    ∃ out', dropDetached n out = .ok out' ∧ out'.all Element.textsStorable = true
  | [], _       => ⟨[], rfl, rfl⟩
  | e :: out, h => by
    rw [List.all_cons, Bool.and_eq_true] at h
    unfold dropDetached
    split
    · rename_i d hd
      obtain ⟨h1, h2, h3⟩ := Element.textsStorable_detach n e d h.1 hd
      rw [checkJoined_eq_ok h3]
      exact ⟨_, rfl, by rw [List.all_cons, List.all_cons, h1, h2, h.2]; rfl⟩
    · obtain ⟨out', ho, hs⟩ := dropDetached_eq_ok n out h.2
      rw [ho]
      exact ⟨_, rfl, by rw [List.all_cons, h.1, hs]; rfl⟩

theorem drop_eq_ok {w : Draft} (n : Nat) (h : w.textsStorable = true) :
    ∃ v, w.drop n = .ok v ∧ v.textsStorable = true := by
  rw [Draft.textsStorable, Bool.and_eq_true] at h
  unfold drop
  split
  · rename_i d hd
    obtain ⟨h1, h2, h3⟩ := Element.textsStorable_detach n w.root d h.1 hd
    rw [checkJoined_eq_ok h3]
    exact ⟨_, rfl, by rw [Draft.textsStorable, List.all_cons, h1, h2, h.2]; rfl⟩
  · obtain ⟨out, ho, hs⟩ := dropDetached_eq_ok n w.detached h.2
    rw [ho]
    exact ⟨_, rfl, by rw [Draft.textsStorable, h.1, hs]; rfl⟩

theorem textsStorable_withResult (tag : String) (attrs : Attributes) (e : Element) (h : e.textsStorable = true) :
    (withResult tag attrs e).textsStorable = true := by
  cases e
  rw [Element.textsStorable_mk] at h
  unfold withResult
  split <;> simpa only [Element.withAttributes, Element.withTag, Element.textsStorable_mk] using h

theorem textsStorable_modify {w : Draft} (n : Nat) (tag : String) (attrs : Attributes) (h : w.textsStorable = true) :
    (w.modify n (withResult tag attrs)).textsStorable = true := by
  have hf := textsStorable_withResult tag attrs
  rw [Draft.textsStorable, Bool.and_eq_true] at h ⊢
  refine ⟨Element.textsStorable_modify n hf _ h.1, List.all_eq_true.2 fun e he => ?_⟩
  obtain ⟨x, hx, rfl⟩ := List.mem_map.1 he
  exact Element.textsStorable_modify n hf x (List.all_eq_true.1 h.2 x hx)

/-- **An edit of storable texts succeeds** and leaves storable texts. -/
theorem editAt_eq_ok {w : Draft} (n : Nat) (m : MappedTag) (h : w.textsStorable = true) :
    ∃ v, w.editAt n m = .ok v ∧ v.textsStorable = true := by
  unfold editAt
  split
  · exact drop_eq_ok n h
  · exact ⟨_, rfl, textsStorable_modify n _ _ h⟩

theorem edit_eq_ok {w : Draft} (r : Tag) (m : MappedTag) (h : w.textsStorable = true) :
    ∃ v, w.edit r m = .ok v ∧ v.textsStorable = true := by
  unfold edit
  split
  · exact ⟨w, rfl, h⟩
  · exact drop_eq_ok _ h
  · exact ⟨_, rfl, textsStorable_modify _ _ _ h⟩

end Draft

theorem editAll_eq_ok : ∀ (ns : List Nat) (ms : List MappedTag) (w : Draft), w.textsStorable = true →
    ∃ v, editAll ns ms w = .ok v ∧ v.textsStorable = true
  | [], _, w, h             => ⟨w, by rw [editAll]; rintro _ _ _ _ ⟨⟩, h⟩
  | _ :: _, [], w, h        => ⟨w, by rw [editAll]; rintro _ _ _ _ _ ⟨⟩, h⟩
  | n :: ns, m :: ms, w, h => by
    obtain ⟨v, hv, hs⟩ := Draft.editAt_eq_ok n m h
    obtain ⟨w', hw, hs'⟩ := editAll_eq_ok ns ms v hs
    exact ⟨w', editAll_cons_eq_ok.2 ⟨v, hv, hw⟩, hs'⟩

theorem textsStorable_start {root : Element} (hs : root.textsStorable = true) : Draft.textsStorable { root } = true := by
  rw [Draft.textsStorable, hs]
  rfl

theorem carryOut_eq_ok (file : Option String) {root : Element} {tags : List Tag} (h : tagsOf root = .ok tags)
    (hs : root.textsStorable = true) (site : Surroundings) (table : RenameTable) :
    ∃ draft, carryOut file root tags (Mapping.ofPage site table tags).results = .ok draft ∧
      draft.root.textsStorable = true := by
  rw [carryOut_eq_editAll file h]
  obtain ⟨draft, hd, hs'⟩ := editAll_eq_ok root.ids (Mapping.ofPage site table tags).results { root } (textsStorable_start hs)
  rw [Draft.textsStorable, Bool.and_eq_true] at hs'
  exact ⟨draft, hd, hs'.1⟩

/-! ## As JSX -/

theorem all_jsonChar {c : Char} (h : Element.isForbidden c = false) :
    (Jsx.jsonChar c).all (fun d => !Element.isForbidden d) = true := by
  unfold Jsx.jsonChar
  split
  · decide
  split
  · decide
  split
  · decide
  split
  · decide
  split
  · decide
  split
  · decide
  split
  · decide
  split
  · -- the control characters that can be stored have an escape of their own
    rename_i hn hr ht _ _ hlow
    have hn' : c.val ≠ 0x0a := fun e => hn (Char.ext e)
    have hr' : c.val ≠ 0x0d := fun e => hr (Char.ext e)
    have ht' : c.val ≠ 0x09 := fun e => ht (Char.ext e)
    simp [Element.isForbidden, hlow, hn', hr', ht'] at h
  · simp [h]

theorem all_flatMap {p : Char → Bool} {f : Char → List Char} (hf : ∀ c, p c = true → (f c).all p = true) :
    ∀ {s : List Char}, s.all p = true → (s.flatMap f).all p = true
  | [], _ => rfl
  | c :: s, h => by
    rw [List.all_cons, Bool.and_eq_true] at h
    rw [List.flatMap_cons, List.all_append, hf c h.1, all_flatMap hf h.2]
    rfl

theorem isStorable_escapeText {s : String} (h : isStorable s = true) :
    isStorable (String.ofList (Jsx.escapeText s.toList)) = true := by
  rw [isStorable, String.toList_ofList]
  refine all_flatMap (fun c hc => ?_) h
  split
  · rename_i hb
    have hbrace : c = '\x7b' ∨ c = '\x7d' := by simpa [Jsx.isBrace] using hb
    rcases hbrace with rfl | rfl <;> decide
  · simpa using hc

theorem isStorable_textChild {s : String} (h : isStorable s = true) :
    isStorable (String.ofList (Jsx.textChild s.toList)) = true := by
  rw [isStorable, String.toList_ofList, Jsx.textChild]
  split
  · have hjson : (s.toList.flatMap Jsx.jsonChar).all (fun d => !Element.isForbidden d) = true :=
      all_flatMap (fun c hc => all_jsonChar (by simpa using hc)) h
    have hquote : Element.isForbidden '"' = false := by decide
    have hopen : Element.isForbidden '\x7b' = false := by decide
    have hclose : Element.isForbidden '\x7d' = false := by decide
    simp only [Jsx.jsonString, List.cons_append, List.all_cons, List.all_append, hjson, hquote, hopen, hclose]
    rfl
  · exact h

mutual

/-- **The texts of a tree can be stored again as JSX.** -/
theorem textsStorable_escapeTexts : ∀ e : Element, e.textsStorable = true → (escapeTexts e).textsStorable = true
  | .mk n tag attrs text children tail, h => by
    rw [Element.textsStorable_mk, Bool.and_eq_true, Bool.and_eq_true] at h
    obtain ⟨⟨ht, htail⟩, hc⟩ := h
    rw [escapeTexts, Element.textsStorable_mk, isStorable_escapeText htail, textsStorable_escapeTextsAll children hc]
    split
    · rw [isStorable_textChild ht]
      rfl
    · rw [isStorable_escapeText ht]
      rfl

theorem textsStorable_escapeTextsAll : ∀ es : List Element, es.all Element.textsStorable = true →
    (escapeTextsAll es).all Element.textsStorable = true
  | [], _ => rfl
  | e :: es, h => by
    rw [List.all_cons, Bool.and_eq_true] at h
    rw [escapeTextsAll, List.all_cons, textsStorable_escapeTexts e h.1, textsStorable_escapeTextsAll es h.2]
    rfl

end

end Page
end ReactSite
