import ReactSite.Proofs.Survival
/-!
# Labels — what a search sees of a tree that is being edited

A search goes by tags and attributes, in document order: a tree is the list of its labels to it.  The tree that some of
the results leave shows the elements these were for as they were renewed, the others as they were, and nothing of what
went (`labels_pruned`).  A result is carried out at one number; which label it changes, and which go, can be read off the
lists (`labels_modify`, `perm_detach`).
-/
namespace ReactSite
namespace Element

/-- **What a search sees of an element.** -/
structure Label where
  id : Nat
  tag : String
  attributes : Attributes
deriving DecidableEq, Repr

def label (e : Element) : Label := ⟨e.id, e.tag, e.attributes⟩

/-- **The labels of a tree**, in document order. -/
def labels (e : Element) : List Label := e.preorder.map label

def labelsAll (es : List Element) : List Label := (preorderAll es).map label

@[simp] theorem labels_mk (n : Nat) (tag : String) (attrs : Attributes) (text : String) (es : List Element)
    (tail : String) : (mk n tag attrs text es tail).labels = ⟨n, tag, attrs⟩ :: labelsAll es := by
  rw [labels, preorder, List.map_cons]
  rfl

@[simp] theorem labelsAll_cons (e : Element) (es : List Element) : labelsAll (e :: es) = e.labels ++ labelsAll es := by
  rw [labelsAll, preorderAll, List.map_append]
  rfl

@[simp] theorem labels_withTail (e : Element) (tail : String) : (e.withTail tail).labels = e.labels := by
  cases e
  rw [withTail_mk, labels_mk, labels_mk]

theorem ids_labels (e : Element) : e.labels.map (·.id) = e.ids := by
  rw [labels, List.map_map]
  rfl

theorem ids_labelsAll (es : List Element) : (labelsAll es).map (·.id) = idsAll es := by
  rw [labelsAll, List.map_map]
  rfl

theorem length_labels (e : Element) : e.labels.length = (preorderAll e.children).length + 1 := by
  cases e
  rw [labels, List.length_map, preorder, List.length_cons, children_mk]

/-! ## What is taken out -/

mutual

/-- **What is taken out of a tree stood below its root**, and the numbers of the tree are those of the rest and its own. -/
theorem perm_detach {n : Nat} : ∀ {e : Element} {d : Detached Element}, e.detach n = some d →
    d.element ∈ preorderAll e.children ∧ d.element.id = n ∧ e.ids.Perm (d.rest.ids ++ d.element.ids)
  | mk m tag attrs text es tail, d, h => by
    rw [detach] at h
    obtain ⟨d', hd, rfl⟩ := Option.map_eq_some_iff.1 h
    obtain ⟨hmem, hid, hperm⟩ := perm_detachAmong hd
    rw [ids_mk, ids_mk, List.cons_append]
    exact ⟨hmem, hid, hperm.cons m⟩

theorem perm_detachAmong {n : Nat} : ∀ {es : List Element} {text : String} {d : Detached (String × List Element)},
    detachAmong n text es = some d →
      d.element ∈ preorderAll es ∧ d.element.id = n ∧ (idsAll es).Perm (idsAll d.rest.2 ++ d.element.ids)
  | e :: es, text, d, h => by
    unfold detachAmong at h
    rw [idsAll_cons]
    split at h
    · rename_i he
      cases h
      exact ⟨by cases e; simp [preorderAll, preorder], he, List.perm_append_comm⟩
    · split at h
      · rename_i d' hd
        cases h
        obtain ⟨hmem, hid, hperm⟩ := perm_detach hd
        refine ⟨?_, hid, ?_⟩
        · obtain ⟨k, tag, attrs, inner, cs, tail⟩ := e
          rw [preorderAll, preorder]
          exact List.mem_append_left _ (List.mem_cons_of_mem _ hmem)
        · rw [idsAll_cons, List.append_assoc]
          refine (hperm.append_right _).trans ?_
          rw [List.append_assoc]
          exact List.perm_append_comm.append_left _
      · obtain ⟨d', hd, rfl⟩ := Option.map_eq_some_iff.1 h
        obtain ⟨hmem, hid, hperm⟩ := perm_detachAmong hd
        rw [idsAll_cons, ids_withTail, List.append_assoc, preorderAll]
        exact ⟨List.mem_append_right _ hmem, hid, hperm.append_left _⟩

end

mutual

/-- **An element below the root can be taken out.** -/
theorem exists_detach {n : Nat} : ∀ {e : Element}, n ∈ idsAll e.children → ∃ d, e.detach n = some d
  | mk m tag attrs text es tail, h => by
    rw [children_mk] at h
    obtain ⟨d, hd⟩ := exists_detachAmong text h
    exact ⟨_, by rw [detach, hd]; rfl⟩

theorem exists_detachAmong {n : Nat} : ∀ {es : List Element} (text : String), n ∈ idsAll es →
    ∃ d, detachAmong n text es = some d
  | e :: es, text, h => by
    rw [idsAll_cons, List.mem_append, ids_eq, List.mem_cons] at h
    rw [detachAmong]
    split
    · exact ⟨_, rfl⟩
    · rename_i he
      cases hd : e.detach n with
      | some d => exact ⟨_, rfl⟩
      | none =>
        rcases h with (h | h) | h
        · exact absurd h.symm he
        · obtain ⟨d, hsome⟩ := exists_detach h
          rw [hd] at hsome
          cases hsome
        · obtain ⟨d, hd⟩ := exists_detachAmong e.tail h
          rw [hd]
          exact ⟨_, rfl⟩

end

theorem detach_eq_none_iff {n : Nat} {e : Element} : e.detach n = none ↔ n ∉ idsAll e.children := by
  refine ⟨fun h hn => ?_, detach_of_notMem n e⟩
  obtain ⟨d, hd⟩ := exists_detach hn
  rw [h] at hd
  cases hd

end Element

namespace Page

open Element (Label preorderAll idsAll labelsAll)

/-! ## Under some of the results -/

/-- The label of an element that stays. -/
def renewedLabel (m : MappedTag) (l : Label) : Label := ⟨l.id, renewedTag m l.tag, renewedAttributes m l.attributes⟩

/-- **Labels under the first results**: as many are renewed as there are results. -/
def relabel : List Label → List MappedTag → List Label
  | l :: ls, m :: ms => renewedLabel m l :: relabel ls ms
  | ls, _            => ls

@[simp] theorem relabel_nil (ls : List Label) : relabel ls [] = ls := by
  cases ls <;> rfl

theorem relabel_append : ∀ (ls ls' : List Label) (ms : List MappedTag),
    relabel (ls ++ ls') ms = relabel ls ms ++ relabel ls' (ms.drop ls.length)
  | [], _, _             => rfl
  | l :: ls, ls', []     => by simp
  | l :: ls, ls', m :: ms => by
    rw [List.cons_append, relabel, relabel, relabel_append ls ls' ms]
    rfl

theorem ids_relabel : ∀ (ls : List Label) (ms : List MappedTag), (relabel ls ms).map (·.id) = ls.map (·.id)
  | [], _            => rfl
  | _ :: _, []       => rfl
  | l :: ls, m :: ms => by
    rw [relabel, List.map_cons, List.map_cons, ids_relabel ls ms]
    rfl

theorem relabel_gone {ls : List Label} {ms : List MappedTag} {g : List Nat} (h : ∀ n ∈ ls.map (·.id), n ∈ g) :
    (relabel ls ms).filter (·.id ∉ g) = [] := by
  rw [List.filter_eq_nil_iff]
  intro l hl
  have hin : l.id ∈ (relabel ls ms).map (·.id) := List.mem_map_of_mem hl
  rw [ids_relabel] at hin
  simpa using h _ hin

/-- **What a search comes across** in a tree once the results at hand are carried out. -/
def sought (root : Element) (ms : List MappedTag) : List Label :=
  (relabel root.labels ms).filter (·.id ∉ gone root ms)

mutual

theorem labels_prune {g : List Nat} {m : MappedTag} : ∀ (e : Element) (ms : List MappedTag), e.ids.Nodup → e.id ∉ g →
    HasGone g e.children ms →
      (prune m e ms).1.labels = (relabel e.labels (m :: ms)).filter (·.id ∉ g)
  | .mk n tag attrs text es tail, ms, hnd, hn, hg => by
    rw [Element.ids_mk, List.nodup_cons] at hnd
    have hkeep : decide ((renewedLabel m ⟨n, tag, attrs⟩).id ∉ g) = true := decide_eq_true hn
    rw [prune, Element.labels_mk, Element.labels_mk, relabel, List.filter_cons, if_pos hkeep,
      labelsAll_pruneAmong es text ms hnd.2 hg]
    rfl

/-- **The labels of what is left of siblings**: renewed as far as there are results, without those of what goes. -/
theorem labelsAll_pruneAmong {g : List Nat} : ∀ (es : List Element) (text : String) (ms : List MappedTag),
    (idsAll es).Nodup → HasGone g es ms →
      labelsAll (pruneAmong text es ms).1.2 = (relabel (labelsAll es) ms).filter (·.id ∉ g)
  | [], _, _, _, _               => rfl
  | e :: es, _, [], _, hg        => by
    have hnone : ∀ l ∈ labelsAll (e :: es), l.id ∉ g := by
      intro l hl hin
      have hk : l.id ∈ idsAll (e :: es) := by
        rw [← Element.ids_labelsAll]
        exact List.mem_map_of_mem hl
      have hgone := (hg _ hk).1 hin
      simp [goneAmong] at hgone
    rw [relabel_nil, List.filter_eq_self.2 fun l hl => decide_eq_true (hnone l hl)]
    rfl
  | e :: es, text, m :: ms, hnd, hg => by
    have hparts := hnd
    rw [Element.idsAll_cons, List.nodup_append] at hparts
    obtain ⟨hnde, hndes, -⟩ := hparts
    have hges := hg.following hnd
    cases ha : m.attributes with
    | none =>
      have hgone : ∀ k ∈ e.labels.map (·.id), k ∈ g := by
        rw [Element.ids_labels]
        exact hg.gone ha
      -- the results of what an element holds are passed over with it, and its labels with them
      rw [pruneAmong_gone text e es ms ha, labelsAll_pruneAmong es _ _ hndes hges, Element.labelsAll_cons, relabel_append,
        List.filter_append, relabel_gone hgone, List.nil_append, Element.length_labels, List.drop_succ_cons]
    | some attrs =>
      obtain ⟨heg, hgchildren⟩ := hg.kept hnd ha
      rw [pruneAmong_kept text e es ms ha, Element.labelsAll_cons, Element.labels_withTail,
        labels_prune e ms hnde heg hgchildren, labelsAll_pruneAmong es e.tail _ hndes (by rwa [prune_snd]), prune_snd,
        Element.labelsAll_cons, relabel_append, List.filter_append, Element.length_labels, List.drop_succ_cons]

end

/-- **The labels of a pruned tree** are what a search comes across. -/
theorem labels_pruned {root : Element} (hnd : root.ids.Nodup) (ms : List MappedTag) :
    (pruned root ms).labels = sought root ms := by
  have hid : root.id ∉ gone root ms := by
    rw [Element.ids_eq, List.nodup_cons] at hnd
    exact fun h => hnd.1 (goneAmong_subset _ _ h)
  cases ms with
  | nil =>
    have hnone : gone root [] = [] := by simp [gone, goneAmong]
    rw [sought, relabel_nil, hnone]
    exact (List.filter_eq_self.2 fun l _ => by simp).symm
  | cons m ms => exact labels_prune root ms hnd hid fun _ _ => Iff.rfl

/-! ## One result -/

/-- **The tree after one result**, carried out at the element with a number. -/
def changed (n : Nat) (m : MappedTag) (t : Element) : Element :=
  match m.attributes with
  | none       => ((t.detach n).map (·.rest)).getD t
  | some given => t.modify n (withResult m.name given)

theorem root_of_editAt {w w' : Draft} {n : Nat} {m : MappedTag} (h : w.editAt n m = .ok w') :
    w'.root = changed n m w.root := by
  unfold Draft.editAt at h
  unfold changed
  cases ha : m.attributes with
  | none =>
    rw [ha] at h
    simp only [Draft.drop] at h
    cases hd : w.root.detach n with
    | none =>
      rw [hd] at h
      obtain ⟨out, -, h⟩ := bind_eq_ok.1 h
      cases h
      rfl
    | some d =>
      rw [hd] at h
      obtain ⟨-, -, h⟩ := bind_eq_ok.1 h
      cases h
      rfl
  | some given =>
    rw [ha] at h
    cases h
    rfl

mutual

theorem labels_modify {n : Nat} {m : MappedTag} {given : Attributes} (ha : m.attributes = some given) : ∀ {e : Element},
    e.ids.Nodup → (e.modify n (withResult m.name given)).labels = e.labels.map fun l => if l.id = n then renewedLabel m l else l
  | .mk k tag attrs text es tail, hnd => by
    rw [Element.ids_mk, List.nodup_cons] at hnd
    have hall := labelsAll_modifyAll ha hnd.2 (n := n)
    rw [Element.modify]
    split
    · rename_i hk
      rw [hk] at hnd
      rw [Element.modifyAll_of_notMem n _ es hnd.1] at hall
      rw [withResult_mk ha, Element.labels_mk, Element.labels_mk, List.map_cons, if_pos hk, ← hall]
      rfl
    · rename_i hk
      rw [Element.labels_mk, Element.labels_mk, List.map_cons, if_neg hk, hall]

/-- **An element that is renewed changes its own label** and no other. -/
theorem labelsAll_modifyAll {n : Nat} {m : MappedTag} {given : Attributes} (ha : m.attributes = some given) :
    ∀ {es : List Element}, (idsAll es).Nodup → labelsAll (Element.modifyAll n (withResult m.name given) es) =
      (labelsAll es).map fun l => if l.id = n then renewedLabel m l else l
  | [], _        => rfl
  | e :: es, hnd => by
    rw [Element.idsAll_cons, List.nodup_append] at hnd
    rw [Element.modifyAll, Element.labelsAll_cons, Element.labelsAll_cons, List.map_append, labels_modify ha hnd.1,
      labelsAll_modifyAll ha hnd.2.1]

end

/-- **A result leaves a label as it is**: it takes away nothing but what cannot go, the root with number `top`, and it
renews nothing. -/
def Leaves (top : Nat) (m : MappedTag) (l : Label) : Prop :=
  (m.attributes.isSome = true ∨ l.id = top) ∧ renewedLabel m l = l

instance (top : Nat) (m : MappedTag) (l : Label) : Decidable (Leaves top m l) :=
  inferInstanceAs (Decidable (_ ∧ _))

theorem leaves_of_none {m : MappedTag} (ha : m.attributes = none) (top : Nat) (l : Label) :
    Leaves top m l ↔ l.id = top := by
  simp [Leaves, ha, renewedLabel, renewedTag, renewedAttributes]

theorem leaves_of_some {m : MappedTag} {given : Attributes} (ha : m.attributes = some given) (top : Nat) (l : Label) :
    Leaves top m l ↔ renewedLabel m l = l := by
  simp [Leaves, ha]

section

variable {t : Element} (hnd : t.ids.Nodup)

include hnd

theorem notMem_rest {n : Nat} {d : Element.Detached Element} (hd : t.detach n = some d) : n ∉ d.rest.ids := by
  obtain ⟨-, hid, hperm⟩ := Element.perm_detach hd
  have hn : n ∈ d.element.ids := by
    rw [Element.ids_eq, hid]
    exact List.mem_cons_self
  exact fun h => (List.nodup_append.1 (hperm.nodup_iff.1 hnd)).2.2 n h n hn rfl

theorem rest_eq_self_iff (n : Nat) : ((t.detach n).map (·.rest)).getD t = t ↔ n ∉ idsAll t.children := by
  rw [← Element.detach_eq_none_iff]
  constructor
  · intro h
    cases hd : t.detach n with
    | none => rfl
    | some d =>
      have hin : n ∈ t.ids := by
        rw [Element.ids_eq]
        refine List.mem_cons_of_mem _ (by_contra fun hn => ?_)
        rw [Element.detach_of_notMem n t hn] at hd
        cases hd
      rw [hd] at h
      rw [← h] at hin
      exact absurd hin (notMem_rest hnd hd)
  · intro h
    rw [h]
    rfl

theorem modify_eq_self_iff {n : Nat} {m : MappedTag} {given : Attributes} (ha : m.attributes = some given) :
    t.modify n (withResult m.name given) = t ↔ ∀ l ∈ t.labels, l.id = n → renewedLabel m l = l := by
  constructor
  · intro h l hl hn
    have hlabels := labels_modify ha hnd (n := n)
    rw [h] at hlabels
    have hl' := List.map_inj_left.1 (hlabels.symm.trans (List.map_id _).symm) l hl
    rwa [if_pos hn] at hl'
  · intro h
    refine Element.modify_eq_self fun x hx hn => ?_
    have hl := h x.label (List.mem_map_of_mem hx) hn
    obtain ⟨k, tag, attrs, text, es, tail⟩ := x
    obtain ⟨-, htag, hattrs⟩ := Label.mk.inj hl
    rw [withResult_mk ha, show renewedTag m tag = tag from htag, show renewedAttributes m attrs = attrs from hattrs]

/-- **A result changes nothing just when it leaves every label of its number.** -/
theorem changed_eq_self_iff (n : Nat) (m : MappedTag) :
    changed n m t = t ↔ ∀ l ∈ t.labels, l.id = n → Leaves t.id m l := by
  unfold changed
  cases ha : m.attributes with
  | none =>
    simp only [leaves_of_none ha]
    rw [rest_eq_self_iff hnd]
    have hparts := hnd
    rw [Element.ids_eq, List.nodup_cons] at hparts
    constructor
    · rintro hn l hl rfl
      have hin : l.id ∈ t.ids := by
        rw [← Element.ids_labels]
        exact List.mem_map_of_mem hl
      rw [Element.ids_eq, List.mem_cons] at hin
      exact hin.resolve_right hn
    · intro h hn
      have hin : n ∈ t.labels.map (·.id) := by
        rw [Element.ids_labels, Element.ids_eq]
        exact List.mem_cons_of_mem _ hn
      obtain ⟨l, hl, rfl⟩ := List.mem_map.1 hin
      rw [h l hl rfl] at hn
      exact hparts.1 hn
  | some given =>
    simp only [leaves_of_some ha]
    exact modify_eq_self_iff hnd ha

theorem eq_of_ids {x y : Element} (hx : x ∈ t.preorder) (hy : y ∈ t.preorder) (hxy : x.id ∈ y.ids) (hyx : y.id ∈ x.ids) :
    x = y := by
  obtain ⟨z, hz, hid⟩ := List.mem_map.1 hyx
  obtain rfl : z = y := List.inj_on_of_nodup_map hnd ((Element.preorder_sublist hx).subset hz) hy hid
  have hndx := (Element.ids_sublist hx).nodup hnd
  cases x with | mk n tag attrs text es tail =>
  rw [Element.preorder, List.mem_cons] at hz
  rcases hz with rfl | hz
  · rfl
  · rw [Element.ids_mk, List.nodup_cons] at hndx
    exact absurd ((Element.ids_sublist_all hz).subset hxy) hndx.1

theorem rest_ne_rest {n k : Nat} (hne : n ≠ k) {d d' : Element.Detached Element} (hd : t.detach n = some d)
    (hd' : t.detach k = some d') : d.rest ≠ d'.rest := by
  intro h
  obtain ⟨hx, hn, hperm⟩ := Element.perm_detach hd
  obtain ⟨hy, hk, hperm'⟩ := Element.perm_detach hd'
  have hbelow : ∀ {x : Element}, x ∈ preorderAll t.children → x ∈ t.preorder ∧ x.id ∈ t.ids := by
    intro x hx
    have hin : x ∈ t.preorder := by
      cases t
      exact List.mem_cons_of_mem _ hx
    exact ⟨hin, List.mem_map_of_mem hin⟩
  -- what one of them leaves, the other does not hold
  have hxy : d.element.id ∈ d'.element.ids := by
    refine (List.mem_append.1 (hperm'.mem_iff.1 (hbelow hx).2)).resolve_left ?_
    rw [hn, ← h]
    exact notMem_rest hnd hd
  have hyx : d'.element.id ∈ d.element.ids := by
    refine (List.mem_append.1 (hperm.mem_iff.1 (hbelow hy).2)).resolve_left ?_
    rw [hk, h]
    exact notMem_rest hnd hd'
  have he := eq_of_ids hnd (hbelow hx).1 (hbelow hy).1 hxy hyx
  exact hne (by rw [← hn, ← hk, he])

/-- **A result that changes a tree alike at two numbers changes it at neither.** -/
theorem changed_eq_self_of_eq {n k : Nat} {m : MappedTag} (hne : n ≠ k) (h : changed n m t = changed k m t) :
    changed n m t = t := by
  cases ha : m.attributes with
  | none =>
    unfold changed at h ⊢
    rw [ha] at h ⊢
    cases hd : t.detach n with
    | none => rfl
    | some d =>
      cases hd' : t.detach k with
      | none => simpa [hd, hd'] using h
      | some d' =>
        rw [hd, hd'] at h
        exact absurd h (rest_ne_rest hnd hne hd hd')
  | some given =>
    rw [changed_eq_self_iff hnd]
    intro l hl hn
    rw [leaves_of_some ha]
    unfold changed at h
    rw [ha] at h
    -- each of the trees has the labels of `t`, renewed at its own number only
    have hlabels := congrArg Element.labels h
    rw [labels_modify ha hnd, labels_modify ha hnd] at hlabels
    have hl' := List.map_inj_left.1 hlabels l hl
    rwa [if_pos hn, if_neg (hn ▸ hne)] at hl'

end

end Page
end ReactSite
