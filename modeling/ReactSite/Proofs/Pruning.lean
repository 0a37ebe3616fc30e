import ReactSite.Proofs.Names
import ReactSite.Proofs.Numbering
import ReactSite.Proofs.Running
/-!
# Pruning — the tree that the results of a mapping leave

The edits of a document go tag by tag and address elements by their numbers, wherever these stand by then.  What they
leave can be said by one recursion on the tree (`pruneAmong`) that takes the results in document order: an element that
goes takes its subtree's results with it and leaves its tail to the text before it, an element that stays is renewed.
Both are the same tree (`root_of_editAll`).
-/
namespace ReactSite

namespace Page

open Element (preorderAll idsAll IsPlace)

/-- A link that was given a route becomes a navigation link. -/
def renewedTag (m : MappedTag) (tag : String) : String :=
  if m.attributes.any (becomesNavigation m.name) then Mapping.navigationTag else tag

/-- The attributes of an element that stays are those of its result. -/
def renewedAttributes (m : MappedTag) (attrs : Attributes) : Attributes :=
  match m.attributes with
  | some given => storedAttributes given
  | none       => attrs

mutual

/-- **What the results leave of an element that stays**, the first result being its own; also the results left over. -/
def prune (m : MappedTag) : Element → List MappedTag → Element × List MappedTag
  | .mk n tag attrs text es tail, ms =>
    let content := pruneAmong text es ms
    (.mk n (renewedTag m tag) (renewedAttributes m attrs) content.1.1 content.1.2 tail, content.2)

/-- **What the results leave of siblings that follow `text`.**  The tail of an element that goes joins the tail or the
text before it. -/
def pruneAmong : String → List Element → List MappedTag → (String × List Element) × List MappedTag
  | text, [], ms           => ((text, []), ms)
  | text, e :: es, []      => ((text, e :: es), [])
  | text, e :: es, m :: ms =>
    match m.attributes with
    | none   => pruneAmong (text ++ e.tail) es (ms.drop (preorderAll e.children).length)
    | some _ =>
      let here := prune m e ms
      let after := pruneAmong e.tail es here.2
      ((text, here.1.withTail after.1.1 :: after.1.2), after.2)

end

/-- **What the results leave of a document's tree.**  The root stays in any case. -/
def pruned (root : Element) : List MappedTag → Element
  | []      => root
  | m :: ms => (prune m root ms).1

theorem pruneAmong_gone {m : MappedTag} (text : String) (e : Element) (es : List Element) (ms : List MappedTag)
    (h : m.attributes = none) :
    pruneAmong text (e :: es) (m :: ms) =
      pruneAmong (text ++ e.tail) es (ms.drop (preorderAll e.children).length) := by
  rw [pruneAmong, h]

theorem pruneAmong_kept {m : MappedTag} {attrs : Attributes} (text : String) (e : Element) (es : List Element)
    (ms : List MappedTag) (h : m.attributes = some attrs) :
    pruneAmong text (e :: es) (m :: ms) =
      ((text, (prune m e ms).1.withTail (pruneAmong e.tail es (prune m e ms).2).1.1 ::
        (pruneAmong e.tail es (prune m e ms).2).1.2), (pruneAmong e.tail es (prune m e ms).2).2) := by
  rw [pruneAmong, h]

theorem length_preorderAll_cons (e : Element) (es : List Element) :
    (preorderAll (e :: es)).length = (preorderAll e.children).length + (preorderAll es).length + 1 := by
  cases e
  simp only [preorderAll, Element.preorder, List.length_append, List.length_cons, Element.children_mk]
  omega

mutual

theorem prune_snd (m : MappedTag) : ∀ (e : Element) (ms : List MappedTag),
    (prune m e ms).2 = ms.drop (preorderAll e.children).length
  | .mk _ _ _ text es _, ms => pruneAmong_snd es text ms

theorem pruneAmong_snd : ∀ (es : List Element) (text : String) (ms : List MappedTag),
    (pruneAmong text es ms).2 = ms.drop (preorderAll es).length
  | [], _, _            => rfl
  | _ :: _, _, []       => by rw [List.drop_nil]; rfl
  | e :: es, text, m :: ms => by
    rw [length_preorderAll_cons, List.drop_succ_cons, ← List.drop_drop]
    cases h : m.attributes with
    | none => rw [pruneAmong_gone text e es ms h, pruneAmong_snd es]
    | some attrs => rw [pruneAmong_kept text e es ms h, pruneAmong_snd es, prune_snd m e]

end

@[simp] theorem id_prune (m : MappedTag) (e : Element) (ms : List MappedTag) : (prune m e ms).1.id = e.id := by
  cases e; rfl

mutual

theorem ids_prune_sublist (m : MappedTag) : ∀ (e : Element) (ms : List MappedTag),
    (prune m e ms).1.ids.Sublist e.ids
  | .mk n tag attrs text es tail, ms => by
    rw [prune, Element.ids_mk, Element.ids_mk]
    exact (idsAll_pruneAmong_sublist es text ms).cons_cons n

/-- **Nothing new appears, and the order stays**: what is left of siblings is a part of them in document order. -/
theorem idsAll_pruneAmong_sublist : ∀ (es : List Element) (text : String) (ms : List MappedTag),
    (idsAll (pruneAmong text es ms).1.2).Sublist (idsAll es)
  | [], _, _      => List.Sublist.refl _
  | _ :: _, _, [] => List.Sublist.refl _
  | e :: es, text, m :: ms => by
    cases h : m.attributes with
    | none =>
      rw [pruneAmong_gone text e es ms h, Element.idsAll_cons]
      exact (idsAll_pruneAmong_sublist es _ _).trans (List.sublist_append_right _ _)
    | some attrs =>
      rw [pruneAmong_kept text e es ms h, Element.idsAll_cons, Element.idsAll_cons, Element.ids_withTail]
      exact (ids_prune_sublist m e ms).append (idsAll_pruneAmong_sublist es _ _)

end

@[simp] theorem id_pruned (root : Element) (ms : List MappedTag) : (pruned root ms).id = root.id := by
  cases ms with
  | nil => rfl
  | cons m ms => exact id_prune m root ms

theorem nodup_ids_pruned {root : Element} (hnd : root.ids.Nodup) (ms : List MappedTag) : (pruned root ms).ids.Nodup := by
  cases ms with
  | nil => exact hnd
  | cons m ms => exact (ids_prune_sublist m root ms).nodup hnd

/-! ## Editing by number -/

/-- Carries out one result at the element with a number. -/
def Draft.editAt (w : Draft) (n : Nat) (m : MappedTag) : Except Failure Draft :=
  match m.attributes with
  | none       => w.drop n
  | some attrs => .ok (w.modify n (withResult m.name attrs))

/-- Carries out results at the elements with the numbers, one after the other. -/
def editAll : List Nat → List MappedTag → Draft → Except Failure Draft
  | n :: ns, m :: ms, w => do editAll ns ms (← w.editAt n m)
  | _, _, w             => .ok w

theorem editAll_cons_eq_ok {n : Nat} {ns : List Nat} {m : MappedTag} {ms : List MappedTag} {w w' : Draft} :
    editAll (n :: ns) (m :: ms) w = .ok w' ↔ ∃ v, w.editAt n m = .ok v ∧ editAll ns ms v = .ok w' := by
  rw [editAll]
  exact bind_eq_ok

@[simp] theorem editAll_nil (ns : List Nat) (w : Draft) : editAll ns [] w = .ok w := by
  cases ns <;> rfl

theorem withResult_mk {m : MappedTag} {given : Attributes} (h : m.attributes = some given) (n : Nat) (tag : String)
    (attrs : Attributes) (text : String) (es : List Element) (tail : String) :
    withResult m.name given (.mk n tag attrs text es tail) =
      .mk n (renewedTag m tag) (renewedAttributes m attrs) text es tail := by
  rw [withResult, renewedTag, renewedAttributes, h]
  simp only [Option.any_some]
  split <;> rfl

theorem drop_at_place {place : String → List Element → Element} {e : Element} (hp : IsPlace place e.id) {text : String}
    {es out : List Element} {v : Draft} (h : Draft.drop ⟨place text (e :: es), out⟩ e.id = .ok v) :
    v = ⟨place (text ++ e.tail) es, e :: out⟩ := by
  rw [Draft.drop, hp.detach, Element.detachAmong, if_pos rfl] at h
  simp only [Option.map_some, bind, Except.bind] at h
  split at h
  · cases h
  · cases h; rfl

/-- **What is outside the tree is edited outside the tree.** -/
theorem editAll_outside (root : Element) (rest : List Nat) (w' : Draft) :
    ∀ (ns : List Nat) (ms : List MappedTag) (out : List Element),
      (∀ n ∈ ns, (∀ f, root.modify n f = root) ∧ root.detach n = none) →
      editAll (ns ++ rest) ms ⟨root, out⟩ = .ok w' →
      ∃ out', editAll rest (ms.drop ns.length) ⟨root, out'⟩ = .ok w'
  | [], _, out, _, h => ⟨out, h⟩
  | n :: ns, [], out, _, h => ⟨out, by rwa [List.drop_nil, editAll_nil, ← editAll_nil (n :: ns ++ rest)]⟩
  | n :: ns, m :: ms, out, hn, h => by
    obtain ⟨v, hv, hrest⟩ := editAll_cons_eq_ok.1 h
    have hroot : v.root = root := by
      obtain ⟨hmod, hdet⟩ := hn n List.mem_cons_self
      unfold Draft.editAt at hv
      split at hv
      · rw [Draft.drop, hdet] at hv
        simp only [bind, Except.bind] at hv
        split at hv
        · cases hv
        · cases hv; rfl
      · cases hv; exact hmod _
    obtain ⟨_, vout⟩ := v
    subst hroot
    rw [List.length_cons, List.drop_succ_cons]
    exact editAll_outside _ rest w' ns ms vout (fun k hk => hn k (List.mem_cons_of_mem _ hk)) hrest

/-- **The edits of siblings in a place leave there what pruning leaves**, and then the rest goes on. -/
theorem editAll_pruneAmong (w' : Draft) :
    ∀ (es : List Element) (rest : List Nat) (place : String → List Element → Element) (text : String)
      (ms : List MappedTag) (out : List Element),
      (∀ n ∈ idsAll es, IsPlace place n) → (idsAll es).Nodup →
      editAll (idsAll es ++ rest) ms ⟨place text es, out⟩ = .ok w' →
      ∃ out', editAll rest (pruneAmong text es ms).2
        ⟨place (pruneAmong text es ms).1.1 (pruneAmong text es ms).1.2, out'⟩ = .ok w'
  | [], _, _, _, _, out, _, _, h => ⟨out, h⟩
  | e :: es, rest, _, _, [], out, _, _, h => by
    rw [editAll_nil] at h
    exact ⟨out, (editAll_nil rest _).trans h⟩
  | .mk n tag attrs inner cs tail :: es, rest, place, text, m :: ms, out, hp, hnd, h => by
    rw [Element.idsAll_cons, Element.ids_mk] at hp hnd h
    rw [List.cons_append, List.forall_mem_cons, List.forall_mem_append] at hp
    rw [List.cons_append, List.nodup_cons, List.mem_append, not_or, List.nodup_append] at hnd
    obtain ⟨hpn, hpin, hpes⟩ := hp
    obtain ⟨⟨hncs, hnes⟩, hndcs, hndes, hdisj⟩ := hnd
    have hin : ∀ k ∈ idsAll cs, k ≠ n ∧ k ∉ idsAll es := by
      intro k hk
      exact ⟨fun e => hncs (e ▸ hk), fun hke => hdisj k hk k hke rfl⟩
    rw [List.cons_append, List.cons_append, List.append_assoc] at h
    obtain ⟨v, hv, h⟩ := editAll_cons_eq_ok.1 h
    unfold Draft.editAt at hv
    cases ha : m.attributes with
    | none =>
      rw [ha] at hv
      rw [pruneAmong_gone text _ es ms ha]
      -- what the element held is edited among what is out of the tree
      obtain rfl := drop_at_place (e := .mk n tag attrs inner cs tail) hpn hv
      obtain ⟨out', h⟩ := editAll_outside _ _ w' (idsAll cs) ms _
        (fun k hk => (hpin k hk).absent _ (hin k hk).2) h
      rw [Element.length_idsAll] at h
      exact editAll_pruneAmong w' es rest place _ _ out' hpes hndes h
    | some given =>
      rw [ha] at hv
      cases hv
      rw [Draft.modify, hpn.modify, Element.modifyAll, Element.modify, if_pos rfl, withResult_mk ha,
        Element.modifyAll_of_notMem n _ es hnes] at h
      obtain ⟨out₁, h⟩ := editAll_pruneAmong w' cs (idsAll es ++ rest)
        (fun text cs => place _ (.mk n (renewedTag m tag) (renewedAttributes m attrs) text cs tail :: es)) inner ms _
        (fun k hk => (hpin k hk).inside _ _ _ _ es (hin k hk).1 (hin k hk).2) hndcs h
      have hkept : ∀ k ∈ idsAll es, k ∉ (prune m (.mk n tag attrs inner cs tail) ms).1.ids := by
        intro k hk hkp
        have hmem := (ids_prune_sublist m (.mk n tag attrs inner cs tail) ms).subset hkp
        rw [Element.ids_mk] at hmem
        rcases List.mem_cons.1 hmem with e | hmem
        · exact hnes (e ▸ hk)
        · exact (hin k hmem).2 hk
      rw [pruneAmong_kept text _ es ms ha]
      exact editAll_pruneAmong w' es rest
        (fun tail es => place text ((prune m (.mk n tag attrs inner cs _) ms).1.withTail tail :: es)) tail _ out₁
        (fun k hk => (hpes k hk).following _ _ (hkept k hk)) hndes h

/-- The root is renewed, and never taken out. -/
theorem editAt_root {n : Nat} {es : List Element} (tag : String) (attrs : Attributes) (text tail : String) (hn : n ∉ idsAll es)
    (m : MappedTag) : Draft.editAt { root := .mk n tag attrs text es tail } n m =
      .ok { root := .mk n (renewedTag m tag) (renewedAttributes m attrs) text es tail } := by
  unfold Draft.editAt
  cases ha : m.attributes with
  | none =>
    simp only [Draft.drop, Element.detach_of_notMem n (.mk n tag attrs text es tail) hn, Draft.dropDetached, bind, Except.bind,
      pure, Except.pure, renewedTag, renewedAttributes, ha, Option.any_none, Bool.false_eq_true, if_false]
  | some given =>
    simp only [Draft.modify, Element.modify, if_pos, withResult_mk ha, List.map_nil]

/-- **The edits of a whole tree leave the pruned tree**, also when the results end before the elements do. -/
theorem root_of_editAll {root : Element} {ms : List MappedTag} {w' : Draft} (hnd : root.ids.Nodup)
    (h : editAll root.ids ms { root } = .ok w') : w'.root = pruned root ms := by
  cases root with | mk n tag attrs text es tail =>
  rw [Element.ids_mk] at hnd h
  cases ms with
  | nil =>
    cases h
    rfl
  | cons m ms =>
    have hne : ∀ k ∈ idsAll es, k ≠ n := fun k hk e => (List.nodup_cons.1 hnd).1 (e ▸ hk)
    obtain ⟨v, hv, hrest⟩ := editAll_cons_eq_ok.1 h
    rw [editAt_root _ _ _ _ (List.nodup_cons.1 hnd).1] at hv
    cases hv
    obtain ⟨out', h⟩ := editAll_pruneAmong w' es [] (fun text es => .mk n _ _ text es tail) text ms []
      (fun k hk => IsPlace.content _ _ _ (hne k hk)) (List.nodup_cons.1 hnd).2 (by rwa [List.append_nil])
    cases h
    rfl

end Page
end ReactSite
