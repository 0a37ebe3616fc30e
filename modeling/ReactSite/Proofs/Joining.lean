import ReactSite.Proofs.Expressions
/-!
# Joining — the texts that an edit stores

Taking an element out stores one text again: the text before the element, joined with its tail, if it has one.  These are
the only texts an edit can stumble over, and which they are can be said by one recursion on the tree (`joinsAmong`), that
goes into the subtrees that have been taken out as well, for the results of their tags are carried out there.  A draft is
looked at as its parts, in any order, and the siblings that are edited stand in one of them (`meets_siblings`).  So the
results of a document's own mapping are carried out just when all joined texts can be stored (`meets_carryOut`).
-/
namespace ReactSite
namespace Page

open Element (preorderAll idsAll IsPlace isStorable)

mutual

/-- **The texts that are joined within an element**, the results being those of what is below it. -/
def joinsIn : Element → List MappedTag → List String
  | .mk _ _ _ text es _, ms => joinsAmong text es ms

/-- **The texts that are joined among siblings that follow `text`**, and below them. -/
def joinsAmong : String → List Element → List MappedTag → List String
  | _, [], _               => []
  | _, _ :: _, []          => []
  | text, e :: es, m :: ms =>
    match m.attributes with
    | none   => (if e.tail = "" then [] else [text ++ e.tail]) ++
      (joinsIn e ms ++ joinsAmong (text ++ e.tail) es (ms.drop (preorderAll e.children).length))
    | some _ => joinsIn e ms ++ joinsAmong e.tail es (ms.drop (preorderAll e.children).length)

end

/-- **The texts that are joined in a document's tree.**  The root stays in any case. -/
def joins (root : Element) : List MappedTag → List String
  | []      => []
  | _ :: ms => joinsIn root ms

theorem joinsAmong_gone {m : MappedTag} (text : String) (e : Element) (es : List Element) (ms : List MappedTag)
    (h : m.attributes = none) : joinsAmong text (e :: es) (m :: ms) = (if e.tail = "" then [] else [text ++ e.tail]) ++
      (joinsIn e ms ++ joinsAmong (text ++ e.tail) es (ms.drop (preorderAll e.children).length)) := by
  rw [joinsAmong, h]

theorem joinsAmong_kept {m : MappedTag} {attrs : Attributes} (text : String) (e : Element) (es : List Element)
    (ms : List MappedTag) (h : m.attributes = some attrs) : joinsAmong text (e :: es) (m :: ms) =
      joinsIn e ms ++ joinsAmong e.tail es (ms.drop (preorderAll e.children).length) := by
  rw [joinsAmong, h]

/-! ## Edits that stumble over texts -/

/-- **An edit that goes by texts**: it comes out well just when they all can be stored, and then `Q` holds of its draft. -/
def Meets (r : Except Failure Draft) (texts : List String) (Q : Draft → Prop) : Prop :=
  match r with
  | .ok v    => (∀ s ∈ texts, isStorable s = true) ∧ Q v
  | .error _ => ¬ ∀ s ∈ texts, isStorable s = true

namespace Meets

variable {r : Except Failure Draft} {texts texts' : List String} {Q Q' : Draft → Prop}

/-- One edit after the other. -/
theorem bind {f : Draft → Except Failure Draft} (h : Meets r texts Q) (hf : ∀ v, Q v → Meets (f v) texts' Q') :
    Meets (r >>= f) (texts ++ texts') Q' := by
  cases r with
  | error e => exact fun hall => h fun s hs => hall s (List.mem_append_left _ hs)
  | ok v =>
    have hv := hf v h.2
    show Meets (f v) (texts ++ texts') Q'
    cases hfv : f v with
    | error e =>
      rw [hfv] at hv
      exact fun hall => hv fun s hs => hall s (List.mem_append_right _ hs)
    | ok u =>
      rw [hfv] at hv
      refine ⟨fun s hs => ?_, hv.2⟩
      rcases List.mem_append.1 hs with hs | hs
      · exact h.1 s hs
      · exact hv.1 s hs

theorem imp (h : Meets r texts Q) (hQ : ∀ v, Q v → Q' v) : Meets r texts Q' := by
  cases r with
  | error e => exact h
  | ok v => exact ⟨h.1, hQ v h.2⟩

theorem of_ok {v : Draft} (h : Q v) : Meets (.ok v) [] Q := ⟨fun _ hs => absurd hs List.not_mem_nil, h⟩

theorem isOk_iff (h : Meets r texts Q) : (∃ v, r = .ok v) ↔ ∀ s ∈ texts, isStorable s = true := by
  cases r with
  | ok v => exact iff_of_true ⟨v, rfl⟩ h.1
  | error e => exact iff_of_false (by simp) h

end Meets

theorem editAll_append : ∀ (ns rest : List Nat) (ms : List MappedTag) (w : Draft),
    editAll (ns ++ rest) ms w = editAll ns ms w >>= editAll rest (ms.drop ns.length)
  | [], rest, ms, w          => by
    cases ms <;> rfl
  | n :: ns, rest, [], w      => by
    rw [editAll_nil, editAll_nil, List.drop_nil]
    exact (editAll_nil rest w).symm
  | n :: ns, rest, m :: ms, w => by
    rw [List.cons_append, editAll, editAll, List.length_cons, List.drop_succ_cons, bind_assoc]
    congr 1
    funext v
    exact editAll_append ns rest ms v

/-! ## The parts of a draft -/

/-- **The tree of a draft and what is out of it.** -/
def Draft.parts (w : Draft) : List Element := w.root :: w.detached

/-- An element that no edit of a number reaches. -/
def Lacks (n : Nat) (x : Element) : Prop := (∀ f, x.modify n f = x) ∧ x.detach n = none

theorem lacks_of_notMem {n : Nat} {x : Element} (h : n ∉ x.ids) : Lacks n x := by
  rw [Element.ids_eq, List.mem_cons, not_or] at h
  exact ⟨fun f => Element.modify_of_notMem n f x (by rwa [Element.ids_eq, List.mem_cons, not_or]),
    Element.detach_of_notMem n x h.2⟩

section

variable {n : Nat} {p : Element} {d : Element.Detached Element}

/-- One of the other parts may stand in front. -/
theorem perm_of_mem_others {x : Element} {ps others : List Element} (hp : (x :: ps).Perm (p :: others)) (hne : x ≠ p) :
    ∃ others', ps.Perm (p :: others') ∧ others.Perm (x :: others') := by
  have hx : x ∈ others := (List.mem_cons.1 (hp.mem_iff.1 List.mem_cons_self)).resolve_left hne
  obtain ⟨a, b, rfl⟩ := List.append_of_mem hx
  have hswap : (p :: (a ++ x :: b)).Perm (x :: p :: (a ++ b)) := (List.perm_middle.cons p).trans (List.Perm.swap x p _)
  exact ⟨a ++ b, (hp.trans hswap).cons_inv, List.perm_middle⟩

theorem perm_of_detach {x : Element} {d' : Element.Detached Element} {ps others : List Element} (hd : p.detach n = some d)
    (hp : (x :: ps).Perm (p :: others)) (hout : ∀ y ∈ others, y.detach n = none) (hx : x.detach n = some d') :
    d' = d ∧ ps.Perm others := by
  have hxp : x = p := by
    refine (List.mem_cons.1 (hp.mem_iff.1 List.mem_cons_self)).resolve_right fun h => ?_
    rw [hout x h] at hx
    cases hx
  subst hxp
  exact ⟨Option.some.inj (hx.symm.trans hd), hp.cons_inv⟩

theorem perm_third {x y z : Element} {qs others others' : List Element} (hqs : qs.Perm (y :: z :: others'))
    (hothers : others.Perm (x :: others')) : (x :: qs).Perm (y :: z :: others) :=
  calc (x :: qs).Perm (x :: y :: z :: others') := hqs.cons x
    List.Perm _ (y :: x :: z :: others') := List.Perm.swap y x _
    List.Perm _ (y :: z :: x :: others') := (List.Perm.swap z x _).cons y
    List.Perm _ (y :: z :: others) := (hothers.symm.cons z).cons y

/-- Where one part holds an element, it is taken out of that part. -/
theorem dropDetached_perm (hd : p.detach n = some d) : ∀ {ps others : List Element}, ps.Perm (p :: others) →
    (∀ x ∈ others, x.detach n = none) → ∃ qs, qs.Perm (d.element :: d.rest :: others) ∧
      Draft.dropDetached n ps = (Draft.checkJoined d).map fun _ => qs
  | [], _, hp, _           => absurd hp (List.not_perm_nil_cons _ _)
  | x :: ps, others, hp, hout => by
    cases hx : x.detach n with
    | some d' =>
      obtain ⟨rfl, hps⟩ := perm_of_detach hd hp hout hx
      refine ⟨d'.element :: d'.rest :: ps, (hps.cons _).cons _, ?_⟩
      rw [Draft.dropDetached, hx]
      simp only
      cases Draft.checkJoined d' <;> rfl
    | none =>
      have hne : x ≠ p := by
        rintro rfl
        rw [hd] at hx
        cases hx
      obtain ⟨others', hps, hothers⟩ := perm_of_mem_others hp hne
      obtain ⟨qs, hqs, hrun⟩ := dropDetached_perm hd hps fun y hy => hout y (hothers.mem_iff.2 (List.mem_cons_of_mem _ hy))
      refine ⟨x :: qs, ?_, ?_⟩
      · exact perm_third hqs hothers
      · rw [Draft.dropDetached, hx, hrun]
        cases Draft.checkJoined d <;> rfl

theorem drop_perm {w : Draft} {others : List Element} (hd : p.detach n = some d) (hp : w.parts.Perm (p :: others))
    (hout : ∀ x ∈ others, x.detach n = none) :
    ∃ v : Draft, v.parts.Perm (d.element :: d.rest :: others) ∧ w.drop n = (Draft.checkJoined d).map fun _ => v := by
  unfold Draft.drop
  cases hroot : w.root.detach n with
  | some d' =>
    obtain ⟨rfl, hdetached⟩ := perm_of_detach hd hp hout hroot
    refine ⟨⟨d'.rest, d'.element :: w.detached⟩, (List.Perm.swap _ _ _).trans ((hdetached.cons _).cons _), ?_⟩
    simp only
    cases Draft.checkJoined d' <;> rfl
  | none =>
    have hne : w.root ≠ p := by
      intro h
      rw [h, hd] at hroot
      cases hroot
    obtain ⟨others', hps, hothers⟩ := perm_of_mem_others hp hne
    obtain ⟨qs, hqs, hrun⟩ := dropDetached_perm hd hps fun y hy => hout y (hothers.mem_iff.2 (List.mem_cons_of_mem _ hy))
    refine ⟨⟨w.root, qs⟩, ?_, ?_⟩
    · exact perm_third hqs hothers
    · simp only
      rw [hrun]
      cases Draft.checkJoined d <;> rfl

end

/-! ## Siblings in one of the parts -/

section

variable {place : String → List Element → Element} {text : String} {es others : List Element} {w : Draft}

/-- **Taking out the first sibling** stores the text before it with its tail. -/
theorem meets_drop {e : Element} (hp : IsPlace place e.id) (hparts : w.parts.Perm (place text (e :: es) :: others))
    (hout : ∀ x ∈ others, Lacks e.id x) : Meets (w.drop e.id) (if e.tail = "" then [] else [text ++ e.tail])
      fun v => v.parts.Perm (e :: place (text ++ e.tail) es :: others) := by
  have hd : (place text (e :: es)).detach e.id = some ⟨place (text ++ e.tail) es, e, text ++ e.tail⟩ := by
    rw [hp.detach, Element.detachAmong, if_pos rfl]
    rfl
  obtain ⟨v, hv, hrun⟩ := drop_perm hd hparts fun x hx => (hout x hx).2
  rw [hrun, Draft.checkJoined]
  by_cases htail : e.tail = ""
  · rw [if_neg (by simp [htail]), if_pos htail]
    exact .of_ok hv
  · rw [if_neg htail]
    cases hs : isStorable (text ++ e.tail) with
    | true =>
      rw [if_neg (by simp)]
      exact ⟨by simpa using hs, hv⟩
    | false =>
      rw [if_pos ⟨htail, by simp⟩]
      intro hall
      simp [hs] at hall

/-- **Renewing the first sibling** stores no text. -/
theorem meets_modify {n : Nat} {tag : String} {attrs : Attributes} {inner tail : String} {cs : List Element} {m : MappedTag}
    {given : Attributes} (hm : m.attributes = some given) (hp : IsPlace place n) (hes : n ∉ idsAll es)
    (hparts : w.parts.Perm (place text (.mk n tag attrs inner cs tail :: es) :: others)) (hout : ∀ x ∈ others, Lacks n x) :
    Meets (.ok (w.modify n (withResult m.name given))) [] fun v =>
      v.parts.Perm (place text (.mk n (renewedTag m tag) (renewedAttributes m attrs) inner cs tail :: es) :: others) := by
  have hothers : others.map (Element.modify n (withResult m.name given)) = others := by
    conv_rhs => rw [← List.map_id others]
    exact List.map_congr_left fun x hx => (hout x hx).1 _
  have hmap := hparts.map (Element.modify n (withResult m.name given))
  rw [List.map_cons, hothers, hp.modify, Element.modifyAll, Element.modify, if_pos rfl, withResult_mk hm,
    Element.modifyAll_of_notMem n _ es hes] at hmap
  exact .of_ok hmap

end

/-- **What has become of siblings that were edited in a place**: siblings there, and elements that are out, all of them
made of what the siblings held. -/
def LeavesOf (place : String → List Element → Element) (es others : List Element) (v : Draft) : Prop :=
  ∃ text' es' removed, v.parts.Perm (place text' es' :: (removed ++ others)) ∧ idsAll es' ⊆ idsAll es ∧
    ∀ x ∈ removed, x.ids ⊆ idsAll es

namespace LeavesOf

variable {place : String → List Element → Element} {es cs cs' removed others : List Element} {v : Draft} {n : Nat}
  {tag text inner inner' tail tag' : String} {attrs attrs' : Attributes}

/-- The first sibling went, and then the others were edited. -/
theorem gone (h : LeavesOf place es (.mk n tag attrs inner' cs' tail :: (removed ++ others)) v) (hsub : idsAll cs' ⊆ idsAll cs)
    (hrem : ∀ x ∈ removed, x.ids ⊆ idsAll cs) : LeavesOf place (.mk n tag attrs inner cs tail :: es) others v := by
  obtain ⟨text', es', out, hperm, hes, hout⟩ := h
  refine ⟨text', es', out ++ .mk n tag attrs inner' cs' tail :: removed, ?_, ?_, ?_⟩
  · rwa [List.append_assoc, List.cons_append]
  · rw [Element.idsAll_cons]
    exact List.subset_append_of_subset_right _ hes
  · intro x hx
    rw [Element.idsAll_cons, Element.ids_mk]
    rcases List.mem_append.1 hx with hx | hx
    · exact List.subset_append_of_subset_right _ (hout x hx)
    rcases List.mem_cons.1 hx with rfl | hx
    · rw [Element.ids_mk]
      exact List.subset_append_of_subset_left _ (List.cons_subset_cons n hsub)
    · exact List.subset_append_of_subset_left _ (List.subset_cons_of_subset n (hrem x hx))

/-- The first sibling stayed, and then the others were edited. -/
theorem kept (h : LeavesOf (fun t l => place text ((Element.mk n tag' attrs' inner' cs' tail).withTail t :: l)) es
      (removed ++ others) v) (hsub : idsAll cs' ⊆ idsAll cs) (hrem : ∀ x ∈ removed, x.ids ⊆ idsAll cs) :
    LeavesOf place (.mk n tag attrs inner cs tail :: es) others v := by
  obtain ⟨text', es', out, hperm, hes, hout⟩ := h
  refine ⟨text, (Element.mk n tag' attrs' inner' cs' tail).withTail text' :: es', out ++ removed, ?_, ?_, ?_⟩
  · rwa [List.append_assoc]
  · rw [Element.idsAll_cons, Element.idsAll_cons, Element.ids_withTail, Element.ids_mk, Element.ids_mk]
    exact List.append_subset.2 ⟨List.subset_append_of_subset_left _ (List.cons_subset_cons n hsub),
      List.subset_append_of_subset_right _ hes⟩
  · intro x hx
    rw [Element.idsAll_cons, Element.ids_mk]
    rcases List.mem_append.1 hx with hx | hx
    · exact List.subset_append_of_subset_right _ (hout x hx)
    · exact List.subset_append_of_subset_left _ (List.subset_cons_of_subset n (hrem x hx))

end LeavesOf

/-- **Editing siblings, wherever they stand, goes by the texts that are joined among them.** -/
theorem meets_siblings : ∀ (es : List Element) (place : String → List Element → Element) {text : String}
    (ms : List MappedTag) {others : List Element} {w : Draft}, (∀ n ∈ idsAll es, IsPlace place n) →
    (∀ n ∈ idsAll es, ∀ x ∈ others, Lacks n x) → (idsAll es).Nodup → w.parts.Perm (place text es :: others) →
    Meets (editAll (idsAll es) ms w) (joinsAmong text es ms) (LeavesOf place es others)
  | [], place, text, ms, others, w, _, _, _, hparts => by
    rw [joinsAmong]
    exact .of_ok ⟨text, [], [], hparts, List.Subset.refl _, by simp⟩
  | e :: es, place, text, [], others, w, _, _, _, hparts => by
    rw [joinsAmong, editAll_nil]
    exact .of_ok ⟨text, e :: es, [], hparts, List.Subset.refl _, by simp⟩
  | .mk n tag attrs inner cs tail :: es, place, text, m :: ms, others, w, hp, hout, hnd, hparts => by
    rw [Element.idsAll_cons, Element.ids_mk, List.cons_append] at hp hout hnd ⊢
    rw [List.forall_mem_cons, List.forall_mem_append] at hp hout
    rw [List.nodup_cons, List.mem_append, not_or, List.nodup_append] at hnd
    obtain ⟨hpn, hpin, hpes⟩ := hp
    obtain ⟨hon, hoin, hoes⟩ := hout
    obtain ⟨⟨hncs, hnes⟩, hndcs, hndes, hdisj⟩ := hnd
    have hinner : ∀ k ∈ idsAll cs, k ≠ n := fun k hk e => hncs (e ▸ hk)
    have hapart : ∀ k ∈ idsAll cs, k ∉ idsAll es := fun k hk hke => hdisj k hk k hke rfl
    have hbeside : ∀ k ∈ idsAll es, ∀ l, l ⊆ idsAll cs → k ∉ l ∧ k ≠ n :=
      fun k hk l hl => ⟨fun h => hapart k (hl h) hk, fun e => hnes (e ▸ hk)⟩
    have hrun : editAll (n :: (idsAll cs ++ idsAll es)) (m :: ms) w = w.editAt n m >>= fun v =>
        editAll (idsAll cs) ms v >>= editAll (idsAll es) (ms.drop (preorderAll cs).length) := by
      rw [editAll]
      congr 1
      funext v
      rw [editAll_append, Element.length_idsAll]
    rw [hrun, Draft.editAt]
    cases hm : m.attributes with
    | none =>
      rw [joinsAmong_gone text _ es ms hm, joinsIn]
      -- the content of the element is edited out of the tree
      refine (meets_drop hpn hparts hon).bind fun v hv => ?_
      refine (meets_siblings cs (fun t c => .mk n tag attrs t c tail) ms
        (fun k hk => IsPlace.content _ _ _ (hinner k hk)) ?_ hndcs hv).bind fun u hleaves => ?_
      · intro k hk x hx
        rcases List.mem_cons.1 hx with rfl | hx
        · exact (hpin k hk).absent _ (hapart k hk)
        · exact hoin k hk x hx
      · obtain ⟨t', cs', removed, hu, hsub, hrem⟩ := hleaves
        have hfront : u.parts.Perm (place (text ++ tail) es :: .mk n tag attrs t' cs' tail :: (removed ++ others)) :=
          hu.trans ((List.perm_middle.cons _).trans (List.Perm.swap _ _ _))
        refine (meets_siblings es place _ hpes ?_ hndes hfront).imp fun v hv => hv.gone hsub hrem
        intro k hk x hx
        rcases List.mem_cons.1 hx with rfl | hx
        · refine lacks_of_notMem ?_
          rw [Element.ids_mk, List.mem_cons, not_or]
          exact ⟨(hbeside k hk _ hsub).2, (hbeside k hk _ hsub).1⟩
        rcases List.mem_append.1 hx with hx | hx
        · exact lacks_of_notMem (hbeside k hk _ (hrem x hx)).1
        · exact hoes k hk x hx
    | some given =>
      rw [joinsAmong_kept text _ es ms hm, joinsIn, ← List.nil_append (joinsAmong inner cs ms ++ _)]
      refine (meets_modify hm hpn hnes hparts hon).bind fun v hv => ?_
      refine (meets_siblings cs
        (fun t c => place text (.mk n (renewedTag m tag) (renewedAttributes m attrs) t c tail :: es)) ms
        (fun k hk => (hpin k hk).inside _ _ _ _ es (hinner k hk) (hapart k hk)) hoin hndcs hv).bind fun u hleaves => ?_
      obtain ⟨t', cs', removed, hu, hsub, hrem⟩ := hleaves
      refine (meets_siblings es
        (fun t l => place text
          ((Element.mk n (renewedTag m tag) (renewedAttributes m attrs) t' cs' tail).withTail t :: l)) _
        (fun k hk => (hpes k hk).following _ _ ?_) ?_ hndes hu).imp fun v hv => hv.kept hsub hrem
      · rw [Element.ids_mk, List.mem_cons, not_or]
        exact ⟨(hbeside k hk _ hsub).2, (hbeside k hk _ hsub).1⟩
      · intro k hk x hx
        rcases List.mem_append.1 hx with hx | hx
        · exact lacks_of_notMem (hbeside k hk _ (hrem x hx)).1
        · exact hoes k hk x hx

/-! ## Whole trees -/

theorem meets_editAll {root : Element} (hnd : root.ids.Nodup) (ms : List MappedTag) :
    Meets (editAll root.ids ms { root }) (joins root ms) fun v => v.root = pruned root ms := by
  have hgoes : Meets (editAll root.ids ms { root }) (joins root ms) fun _ => True := by
    cases root with | mk n tag attrs text es tail =>
    rw [Element.ids_mk, List.nodup_cons] at hnd
    cases ms with
    | nil =>
      rw [editAll_nil]
      exact .of_ok trivial
    | cons m ms =>
      rw [Element.ids_mk, editAll, editAt_root _ _ _ _ hnd.1, joins, joinsIn]
      refine (meets_siblings es (fun t es => .mk n (renewedTag m tag) (renewedAttributes m attrs) t es tail) ms
        (fun k hk => IsPlace.content _ _ _ fun e => hnd.1 (e ▸ hk)) ?_ hnd.2 (List.Perm.refl _)).imp fun _ _ => trivial
      exact fun _ _ x hx => absurd hx List.not_mem_nil
  cases hrun : editAll root.ids ms { root } with
  | error e =>
    rw [hrun] at hgoes
    exact hgoes
  | ok v =>
    rw [hrun] at hgoes
    exact ⟨hgoes.1, root_of_editAll hnd hrun⟩

/-- **The results of a document's own mapping are carried out** just when every text that is joined can be stored. -/
theorem meets_carryOut (file : Option String) {root : Element} {tags : List Tag} (hnd : root.ids.Nodup)
    (h : tagsOf root = .ok tags) (site : Surroundings) (table : RenameTable) :
    Meets (carryOut file root tags (Mapping.ofPage site table tags).results)
      (joins root (Mapping.ofPage site table tags).results)
      fun v => v.root = pruned root (Mapping.ofPage site table tags).results := by
  rw [carryOut_eq_editAll file h]
  exact meets_editAll hnd _

/-- **A document becomes a module** just when the texts that are joined can be stored, and with them, read as JSX, all texts
of the tree that is left. -/
theorem moduleText_isOk_iff (document : Document) {tags : List Tag} (hnd : document.root.ids.Nodup)
    (h : tagsOf document.root = .ok tags) (site : Surroundings) (table : RenameTable) (name : String) (file : Option String) :
    (∃ text, moduleText document tags (Mapping.ofPage site table tags) name file = .ok text) ↔
      (∀ s ∈ joins document.root (Mapping.ofPage site table tags).results, isStorable s = true) ∧
        (escapeTexts (pruned document.root (Mapping.ofPage site table tags).results)).textsStorable = true := by
  have hgoes := meets_carryOut file hnd h site table
  constructor
  · rintro ⟨text, htext⟩
    obtain ⟨draft, hdraft, -⟩ := exists_of_moduleText htext
    have hstorable := textsStorable_of_moduleText hdraft htext
    rw [hdraft] at hgoes
    rw [hgoes.2] at hstorable
    exact ⟨hgoes.1, hstorable⟩
  · rintro ⟨hjoins, hstorable⟩
    obtain ⟨draft, hdraft⟩ := hgoes.isOk_iff.2 hjoins
    rw [hdraft] at hgoes
    rw [← hgoes.2] at hstorable
    exact ⟨_, moduleText_eq hdraft hstorable name⟩

end Page
end ReactSite
