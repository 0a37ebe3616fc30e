import ReactSite.Proofs.Storing
/-!
# Survival — what stays of a document when the results of its mapping are carried out

A reader of a tree comes across the start and the end of each element and the characters between them.  Pruning takes
from what is read exactly the marks inside the elements that go (`marks_pruned`): the text outside them stays in order,
and what stays is nested as before.  With that, the edits of a document's own mapping leave the pruned tree
(`carryOut_root`).
-/
namespace ReactSite
namespace Element

/-- **What a reader of a tree comes across**, with the number of the element that it belongs to. -/
inductive Mark where
  | opening (n : Nat)
  | letter (n : Nat) (c : Char)
  | closing (n : Nat)
deriving DecidableEq, Repr

def Mark.owner : Mark → Nat
  | opening n  => n
  | letter n _ => n
  | closing n  => n

def Mark.isOutside (ns : List Nat) (k : Mark) : Bool := k.owner ∉ ns

def letters (n : Nat) (text : String) : List Mark := text.toList.map (Mark.letter n)

mutual

/-- **What is read in an element**, from its start to its end; its tail is not part of it. -/
def marks : Element → List Mark
  | mk n _ _ text es _ => .opening n :: marksAmong n text es ++ [.closing n]

/-- The content of element `n`: a text and the siblings after it, with their tails. -/
def marksAmong (n : Nat) (text : String) : List Element → List Mark
  | []      => letters n text
  | e :: es => letters n text ++ marks e ++ marksAmong n e.tail es

end

theorem letters_append (n : Nat) (s t : String) : letters n (s ++ t) = letters n s ++ letters n t := by
  rw [letters, String.toList_append, List.map_append]; rfl

theorem marksAmong_append (n : Nat) (s t : String) (es : List Element) :
    marksAmong n (s ++ t) es = letters n s ++ marksAmong n t es := by
  cases es with
  | nil => exact letters_append n s t
  | cons e es => rw [marksAmong, marksAmong, letters_append, List.append_assoc, List.append_assoc, List.append_assoc]

@[simp] theorem marks_withTail (e : Element) (tail : String) : (e.withTail tail).marks = e.marks := by
  cases e; rfl

theorem owner_of_mem_letters {n : Nat} {text : String} {k : Mark} (h : k ∈ letters n text) : k.owner = n := by
  obtain ⟨c, -, rfl⟩ := List.mem_map.1 h
  rfl

mutual

theorem owner_mem_ids : ∀ {e : Element} {k : Mark}, k ∈ e.marks → k.owner ∈ e.ids
  | mk n tag attrs text es tail, k, h => by
    rw [marks, List.cons_append, List.mem_cons, List.mem_append, List.mem_singleton] at h
    rw [ids_mk, List.mem_cons]
    rcases h with rfl | h | rfl
    · exact .inl rfl
    · exact owner_mem_idsAll h
    · exact .inl rfl

theorem owner_mem_idsAll {n : Nat} : ∀ {es : List Element} {text : String} {k : Mark}, k ∈ marksAmong n text es →
    k.owner = n ∨ k.owner ∈ idsAll es
  | [], _, _, h      => .inl (owner_of_mem_letters h)
  | e :: es, _, k, h => by
    rw [marksAmong, List.mem_append, List.mem_append] at h
    rw [idsAll_cons, List.mem_append]
    rcases h with (h | h) | h
    · exact .inl (owner_of_mem_letters h)
    · exact .inr (.inl (owner_mem_ids h))
    · exact (owner_mem_idsAll h).imp_right .inr

end

end Element

namespace Page

open Element (preorderAll idsAll Mark letters marks marksAmong)

/-- **The numbers of what goes**: of elements whose result says so, and of all they hold. -/
def goneAmong (es : List Element) (ms : List MappedTag) : List Nat :=
  ((preorderAll es).zip ms).flatMap fun p => if p.2.attributes.isNone then p.1.ids else []

/-- The numbers of what goes from a document's tree; the root stays. -/
def gone (root : Element) (ms : List MappedTag) : List Nat := goneAmong root.children ms.tail

theorem goneAmong_subset (es : List Element) (ms : List MappedTag) : goneAmong es ms ⊆ idsAll es := by
  intro n h
  obtain ⟨p, hp, hn⟩ := List.mem_flatMap.1 h
  split at hn
  · exact (Element.ids_sublist_all (List.of_mem_zip hp).1).subset hn
  · cases hn

theorem zip_append_left {α β : Type} : ∀ (a b : List α) (ms : List β),
    (a ++ b).zip ms = a.zip ms ++ b.zip (ms.drop a.length)
  | [], _, _             => rfl
  | _ :: _, _, []        => by simp
  | x :: a, b, m :: ms => by
    rw [List.cons_append, List.zip_cons_cons, zip_append_left a b ms]; rfl

theorem goneAmong_cons (e : Element) (es : List Element) (m : MappedTag) (ms : List MappedTag) :
    goneAmong (e :: es) (m :: ms) = (if m.attributes.isNone then e.ids else []) ++ goneAmong e.children ms ++
      goneAmong es (ms.drop (preorderAll e.children).length) := by
  cases e
  rw [goneAmong, preorderAll, Element.preorder, List.cons_append, List.zip_cons_cons, List.flatMap_cons,
    zip_append_left, List.flatMap_append, ← List.append_assoc]
  rfl

/-- **What goes from siblings** is what `g` has of them. -/
def HasGone (g : List Nat) (es : List Element) (ms : List MappedTag) : Prop :=
  ∀ k ∈ idsAll es, k ∈ g ↔ k ∈ goneAmong es ms

namespace HasGone

variable {g : List Nat} {e : Element} {es : List Element} {m : MappedTag} {ms : List MappedTag}

theorem following (h : HasGone g (e :: es) (m :: ms)) (hnd : (idsAll (e :: es)).Nodup) :
    HasGone g es (ms.drop (preorderAll e.children).length) := by
  intro k hk
  rw [h k (by rw [Element.idsAll_cons]; exact List.mem_append_right _ hk)]
  rw [Element.idsAll_cons, List.nodup_append] at hnd
  have hnot : k ∉ e.ids := fun h => hnd.2.2 k h k hk rfl
  have hchild : k ∉ goneAmong e.children ms := by
    intro h
    rw [Element.ids_eq] at hnot
    exact hnot (List.mem_cons_of_mem _ (goneAmong_subset _ _ h))
  rw [goneAmong_cons, List.mem_append, List.mem_append]
  cases m.attributes <;> simp [hnot, hchild]

theorem gone (h : HasGone g (e :: es) (m :: ms)) (ha : m.attributes = none) : e.ids ⊆ g := by
  intro k hk
  rw [h k (by rw [Element.idsAll_cons]; exact List.mem_append_left _ hk), goneAmong_cons, ha, List.mem_append,
    List.mem_append]
  exact .inl (.inl hk)

/-- Of an element that stays, goes what goes among its children. -/
theorem kept (h : HasGone g (e :: es) (m :: ms)) (hnd : (idsAll (e :: es)).Nodup) {attrs : Attributes}
    (ha : m.attributes = some attrs) : e.id ∉ g ∧ HasGone g e.children ms := by
  have hparts := hnd
  rw [Element.idsAll_cons, List.nodup_append] at hparts
  obtain ⟨hnde, -, hdisj⟩ := hparts
  have hinside : ∀ k ∈ e.ids, k ∈ g ↔ k ∈ goneAmong e.children ms := by
    intro k hk
    have hnot : k ∉ goneAmong es (ms.drop (preorderAll e.children).length) := by
      intro hgone
      exact hdisj k hk k (goneAmong_subset _ _ hgone) rfl
    rw [h k (by rw [Element.idsAll_cons]; exact List.mem_append_left _ hk), goneAmong_cons, ha, List.mem_append,
      List.mem_append]
    simp [hnot]
  rw [Element.ids_eq] at hnde hinside
  refine ⟨fun hg => ?_, fun k hk => hinside k (List.mem_cons_of_mem _ hk)⟩
  exact (List.nodup_cons.1 hnde).1 (goneAmong_subset _ _ ((hinside _ List.mem_cons_self).1 hg))

end HasGone

theorem filter_letters {g : List Nat} {n : Nat} (hn : n ∉ g) (text : String) :
    (letters n text).filter (Mark.isOutside g) = letters n text :=
  List.filter_eq_self.2 fun k hk => decide_eq_true (by rwa [Element.owner_of_mem_letters hk])

mutual

theorem marks_prune {g : List Nat} {m : MappedTag} : ∀ (e : Element) (ms : List MappedTag), e.ids.Nodup → e.id ∉ g →
    HasGone g e.children ms → (preorderAll e.children).length ≤ ms.length →
      (prune m e ms).1.marks = e.marks.filter (Mark.isOutside g)
  | .mk n tag attrs text es tail, ms, hnd, hn, hg, hlen => by
    rw [Element.ids_mk, List.nodup_cons] at hnd
    rw [Element.id_mk] at hn
    have hkeep : ∀ k : Mark, k.owner = n → k.isOutside g = true := fun k hk => decide_eq_true (hk ▸ hn)
    rw [prune, marks, marks, marksAmong_prune es text ms hn hnd.2 hg hlen, List.filter_append,
      List.filter_cons_of_pos (hkeep _ rfl), List.filter_cons_of_pos (hkeep _ rfl), List.filter_nil]

/-- **What is read after the results are carried out** is what was read before, without the marks of what goes. -/
theorem marksAmong_prune {g : List Nat} {n : Nat} : ∀ (es : List Element) (text : String) (ms : List MappedTag),
    n ∉ g → (idsAll es).Nodup → HasGone g es ms → (preorderAll es).length ≤ ms.length →
      marksAmong n (pruneAmong text es ms).1.1 (pruneAmong text es ms).1.2 =
        (marksAmong n text es).filter (Mark.isOutside g)
  | [], text, _, hn, _, _, _        => (filter_letters hn text).symm
  | _ :: _, _, [], _, _, _, hlen   => by
    rw [length_preorderAll_cons] at hlen
    exact absurd hlen (Nat.not_succ_le_zero _)
  | e :: es, text, m :: ms, hn, hnd, hg, hlen => by
    rw [length_preorderAll_cons, List.length_cons] at hlen
    have hparts := hnd
    rw [Element.idsAll_cons, List.nodup_append] at hparts
    obtain ⟨hnde, hndes, -⟩ := hparts
    have hges := hg.following hnd
    cases ha : m.attributes with
    | none =>
      have hnone : e.marks.filter (Mark.isOutside g) = [] := by
        rw [List.filter_eq_nil_iff]
        intro k hk hkg
        have hmem := Element.owner_mem_ids hk
        exact of_decide_eq_true hkg (hg.gone ha hmem)
      rw [pruneAmong_gone text e es ms ha,
        marksAmong_prune es _ _ hn hndes hges (by rw [List.length_drop]; omega), Element.marksAmong_append, marksAmong,
        List.filter_append, List.filter_append, List.filter_append, filter_letters hn, hnone, List.append_nil]
    | some attrs =>
      obtain ⟨heg, hgchildren⟩ := hg.kept hnd ha
      have htail : ((prune m e ms).1.withTail (pruneAmong e.tail es (prune m e ms).2).1.1).tail =
          (pruneAmong e.tail es (prune m e ms).2).1.1 := by
        cases e; rfl
      rw [pruneAmong_kept text e es ms ha, marksAmong, marksAmong, htail, Element.marks_withTail,
        marks_prune e ms hnde heg hgchildren (by omega),
        marksAmong_prune es e.tail _ hn hndes (by rwa [prune_snd]) (by rw [prune_snd, List.length_drop]; omega),
        List.filter_append, List.filter_append, filter_letters hn]

end

/-- **What is read of a pruned tree** is what was read before, without the marks of what goes. -/
theorem marks_pruned {root : Element} {ms : List MappedTag} (hnd : root.ids.Nodup)
    (hlen : root.preorder.length = ms.length) :
    (pruned root ms).marks = root.marks.filter (Mark.isOutside (gone root ms)) := by
  cases ms with
  | nil => cases root; simp [Element.preorder] at hlen
  | cons m ms =>
    have hnd' := hnd
    rw [Element.ids_eq, List.nodup_cons] at hnd'
    refine marks_prune root ms hnd (fun h => hnd'.1 (goneAmong_subset _ _ h)) (fun _ _ => Iff.rfl) ?_
    cases root
    rw [Element.preorder, List.length_cons, List.length_cons] at hlen
    exact Nat.le_of_succ_le_succ (Nat.le_of_eq hlen)

/-- **What carrying out a document's own mapping leaves.**  It always comes to an end, the tree is the pruned one, what is
read of it is what was read before without the marks of what goes, and the attributes of an element that stays are its
result's own as soon as the tree accepts these. -/
theorem carryOut_root (root : Element) (file : Option String) (site : Surroundings) (table : RenameTable)
    (tags : List Tag) (htags : tagsOf root.numbered = .ok tags) (hs : root.numbered.textsStorable = true) :
    ∃ draft, carryOut file root.numbered tags (Mapping.ofPage site table tags).results = .ok draft ∧
      draft.root = pruned root.numbered (Mapping.ofPage site table tags).results ∧
      draft.root.marks = root.numbered.marks.filter
        (Mark.isOutside (gone root.numbered (Mapping.ofPage site table tags).results)) ∧
      ∀ m ∈ (Mapping.ofPage site table tags).results, ∀ attrs, m.attributes = some attrs →
        (∀ a ∈ attrs, isAccepted a = true) → storedAttributes attrs = attrs := by
  obtain ⟨draft, h, -⟩ := carryOut_eq_ok file htags hs site table
  have hnd := Element.nodup_ids_numbered root
  have hroot := root_of_carryOut hnd htags h
  refine ⟨draft, h, hroot, ?_, fun m hm attrs ha hacc => ?_⟩
  · rw [hroot]
    exact marks_pruned hnd (by rw [Mapping.length_results, length_tagsOf htags])
  · exact storedAttributes_eq_self (Mapping.nodup_names_results site table tags m hm attrs ha) hacc

/-- A body with a style sheet first, two scripts side by side, and a style sheet inside one that goes. -/
def crowdedBody : Element :=
  .mk 0 "html" [] "" [.mk 0 "body" [] "a"
    [.mk 0 "style" [] "x" [.mk 0 "style" [] "y" [] "z"] "b",
     .mk 0 "p" [("class", "k")] "c" [.mk 0 "script" [] "" [] "d"] "e",
     .mk 0 "script" [] "" [] "f", .mk 0 "script" [] "" [] "g"] ""] ""

theorem carryOut_root_crowdedBody : ∃ tags draft, tagsOf crowdedBody.numbered = .ok tags ∧
    carryOut none crowdedBody.numbered tags
      (Mapping.ofPage ⟨.empty, ⟨1, ["site"]⟩, ""⟩ [("class", "className")] tags).results = .ok draft ∧
    draft.root = .mk 0 "html" [] "" [.mk 1 "body" [] "ab" [.mk 4 "p" [("className", "k")] "cd" [] "efg"] ""] "" := by
  obtain ⟨draft, h, hroot, -, -⟩ :=
    carryOut_root crowdedBody none ⟨.empty, ⟨1, ["site"]⟩, ""⟩ [("class", "className")] _ rfl (by decide)
  exact ⟨_, draft, rfl, h, hroot.trans rfl⟩

end Page
end ReactSite
