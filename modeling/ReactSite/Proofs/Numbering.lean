import ReactSite.Markup.Element
/-!
# Numbering — the identities of a tree

Numbering a tree gives its elements the numbers from 0 on, in document order, so that every number stands once
(`nodup_ids_numbered`).  An edit addressed to a number that a tree does not have leaves that tree as it is.
-/
namespace ReactSite
namespace Element

variable (n : Nat) (tag : String) (attrs : Attributes) (text : String) (es : List Element) (tail : String)

@[simp] theorem id_mk : (mk n tag attrs text es tail).id = n := rfl

@[simp] theorem tag_mk : (mk n tag attrs text es tail).tag = tag := rfl

@[simp] theorem attributes_mk : (mk n tag attrs text es tail).attributes = attrs := rfl

@[simp] theorem text_mk : (mk n tag attrs text es tail).text = text := rfl

@[simp] theorem children_mk : (mk n tag attrs text es tail).children = es := rfl

@[simp] theorem tail_mk : (mk n tag attrs text es tail).tail = tail := rfl

@[simp] theorem withTail_mk (tail' : String) :
    (mk n tag attrs text es tail).withTail tail' = mk n tag attrs text es tail' := rfl

def ids (e : Element) : List Nat := e.preorder.map id

def idsAll (es : List Element) : List Nat := (preorderAll es).map id

@[simp] theorem ids_mk : (mk n tag attrs text es tail).ids = n :: idsAll es := by
  simp [ids, idsAll, preorder]

@[simp] theorem idsAll_nil : idsAll [] = [] := rfl

@[simp] theorem idsAll_cons (e : Element) (es : List Element) : idsAll (e :: es) = e.ids ++ idsAll es := by
  simp [ids, idsAll, preorderAll]

theorem ids_eq (e : Element) : e.ids = e.id :: idsAll e.children := by
  cases e; simp

theorem length_ids (e : Element) : e.ids.length = e.preorder.length := List.length_map ..

theorem length_idsAll (es : List Element) : (idsAll es).length = (preorderAll es).length := List.length_map ..

@[simp] theorem ids_withTail (e : Element) (tail : String) : (e.withTail tail).ids = e.ids := by
  cases e; simp

@[simp] theorem id_withTail (e : Element) (tail : String) : (e.withTail tail).id = e.id := by
  cases e; rfl

/-! ## Numbers from `n` on -/

mutual

theorem ids_numberFrom (n : Nat) : ∀ e : Element,
    (numberFrom n e).1.ids = List.range' n e.preorder.length ∧ (numberFrom n e).2 = n + e.preorder.length
  | mk m tag attrs text es tail => by
    obtain ⟨h1, h2⟩ := idsAll_numberAllFrom (n + 1) es
    simp only [numberFrom, preorder, List.length_cons, ids_mk, h1, h2]
    exact ⟨by rw [List.range'_succ], by omega⟩

theorem idsAll_numberAllFrom (n : Nat) : ∀ es : List Element,
    idsAll (numberAllFrom n es).1 = List.range' n (preorderAll es).length ∧
      (numberAllFrom n es).2 = n + (preorderAll es).length
  | []      => by simp [numberAllFrom, preorderAll]
  | e :: es => by
    obtain ⟨h1, h2⟩ := ids_numberFrom n e
    obtain ⟨h3, h4⟩ := idsAll_numberAllFrom (n + e.preorder.length) es
    simp only [numberAllFrom, preorderAll, List.length_append, idsAll_cons, h1, h2, h3, h4]
    exact ⟨by rw [List.range'_append_1], by omega⟩

end

/-- **The identities of a numbered tree are the numbers from 0 on.** -/
theorem ids_numbered (e : Element) : e.numbered.ids = List.range e.preorder.length := by
  rw [numbered, (ids_numberFrom 0 e).1, List.range_eq_range']

theorem nodup_ids_numbered (e : Element) : e.numbered.ids.Nodup := by
  rw [ids_numbered]; exact List.nodup_range

/-! ## Elements within elements -/

mutual

theorem preorder_sublist : ∀ {e x : Element}, x ∈ e.preorder → x.preorder.Sublist e.preorder
  | mk n tag attrs text es tail, x, h => by
    rw [preorder, List.mem_cons] at h
    rcases h with rfl | h
    · exact List.Sublist.refl _
    · rw [preorder]
      exact (preorder_sublist_all h).cons _

theorem preorder_sublist_all : ∀ {es : List Element} {x : Element}, x ∈ preorderAll es →
    x.preorder.Sublist (preorderAll es)
  | e :: es, x, h => by
    rw [preorderAll, List.mem_append] at h
    rw [preorderAll]
    rcases h with h | h
    · exact (preorder_sublist h).trans (List.sublist_append_left _ _)
    · exact (preorder_sublist_all h).trans (List.sublist_append_right _ _)

end

theorem ids_sublist {e x : Element} (h : x ∈ e.preorder) : x.ids.Sublist e.ids := (preorder_sublist h).map id

theorem ids_sublist_all {es : List Element} {x : Element} (h : x ∈ preorderAll es) : x.ids.Sublist (idsAll es) :=
  (preorder_sublist_all h).map id

/-! ## Edits that change nothing -/

mutual

/-- **An edit leaves a tree as it is** if it does so with every element of its number. -/
theorem modify_eq_self {n : Nat} {f : Element → Element} : ∀ {e : Element},
    (∀ x ∈ e.preorder, x.id = n → f x = x) → e.modify n f = e
  | mk m tag attrs text es tail, h => by
    rw [preorder, List.forall_mem_cons] at h
    rw [modify]
    split
    · rename_i hm
      exact h.1 hm
    · rw [modifyAll_eq_self h.2]

theorem modifyAll_eq_self {n : Nat} {f : Element → Element} : ∀ {es : List Element},
    (∀ x ∈ preorderAll es, x.id = n → f x = x) → modifyAll n f es = es
  | [], _      => rfl
  | e :: es, h => by
    rw [preorderAll, List.forall_mem_append] at h
    rw [modifyAll, modify_eq_self h.1, modifyAll_eq_self h.2]

end

theorem modify_of_notMem (n : Nat) (f : Element → Element) (e : Element) (h : n ∉ e.ids) : e.modify n f = e :=
  modify_eq_self fun _ hx hn => absurd (List.mem_map.2 ⟨_, hx, hn⟩) h

theorem modifyAll_of_notMem (n : Nat) (f : Element → Element) (es : List Element) (h : n ∉ idsAll es) :
    modifyAll n f es = es :=
  modifyAll_eq_self fun _ hx hn => absurd (List.mem_map.2 ⟨_, hx, hn⟩) h

mutual

theorem detach_of_notMem (n : Nat) : ∀ e : Element, n ∉ idsAll e.children → e.detach n = none
  | mk m tag attrs text es tail, h => by
    rw [detach, detachAmong_of_notMem n es text h]; rfl

theorem detachAmong_of_notMem (n : Nat) : ∀ (es : List Element) (text : String), n ∉ idsAll es →
    detachAmong n text es = none
  | [], _, _         => rfl
  | e :: es, text, h => by
    rw [idsAll_cons, List.mem_append, not_or, ids_eq, List.mem_cons, not_or] at h
    rw [detachAmong, if_neg (Ne.symm h.1.1), detach_of_notMem n e h.1.2, detachAmong_of_notMem n es e.tail h.2]
    rfl

end

/-! ## Places

A place in a tree is where a text and the siblings after it stand.  An edit of an element among these siblings goes to
the place, whatever stands around it. -/

/-- **A place that holds all that a tree has of a number**: what is done to the number is done there. -/
structure IsPlace (place : String → List Element → Element) (n : Nat) : Prop where
  modify : ∀ f text es, (place text es).modify n f = place text (modifyAll n f es)
  detach : ∀ text es, (place text es).detach n =
    (detachAmong n text es).map fun d => ⟨place d.rest.1 d.rest.2, d.element, d.joined⟩

namespace IsPlace

theorem content {n m : Nat} (tag : String) (attrs : Attributes) (tail : String) (h : n ≠ m) :
    IsPlace (fun text es => Element.mk m tag attrs text es tail) n where
  modify f text es := by rw [Element.modify, if_neg (Ne.symm h)]
  detach text es := by rw [Element.detach]

/-- The content of the first sibling in a place. -/
theorem inside {place : String → List Element → Element} {n m : Nat} (hp : IsPlace place n) (before tag : String)
    (attrs : Attributes) (tail : String) (after : List Element) (h : n ≠ m) (ha : n ∉ idsAll after) :
    IsPlace (fun text es => place before (Element.mk m tag attrs text es tail :: after)) n where
  modify f text es := by
    rw [hp.modify, modifyAll, Element.modify, if_neg (Ne.symm h), modifyAll_of_notMem n f after ha]
  detach text es := by
    rw [hp.detach, detachAmong, id_mk, if_neg (Ne.symm h), Element.detach, detachAmong_of_notMem n after _ ha]
    cases detachAmong n text es <;> rfl

/-- What follows the first sibling in a place: its tail and the siblings after it. -/
theorem following {place : String → List Element → Element} {n : Nat} (hp : IsPlace place n) (before : String)
    (e : Element) (h : n ∉ e.ids) : IsPlace (fun tail es => place before (e.withTail tail :: es)) n where
  modify f tail es := by
    rw [hp.modify, modifyAll, modify_of_notMem n f _ (by rwa [ids_withTail])]
  detach tail es := by
    have hn : n ≠ e.id ∧ n ∉ idsAll (e.withTail tail).children := by
      cases e; simpa using h
    rw [hp.detach, detachAmong, if_neg (by rw [id_withTail]; exact Ne.symm hn.1), detach_of_notMem n _ hn.2]
    cases e
    simp only [withTail_mk, tail_mk]
    cases detachAmong n tail es <;> rfl

theorem absent {place : String → List Element → Element} {n : Nat} (hp : IsPlace place n) (text : String)
    {es : List Element} (h : n ∉ idsAll es) :
    (∀ f, (place text es).modify n f = place text es) ∧ (place text es).detach n = none :=
  ⟨fun f => by rw [hp.modify, modifyAll_of_notMem n f es h], by rw [hp.detach, detachAmong_of_notMem n es text h]; rfl⟩

end IsPlace
end Element
end ReactSite
