import ReactSite.Config.Packaged
import ReactSite.Html.Page
import ReactSite.Proofs.Expressions
import ReactSite.Proofs.Labels
/-!
# Searching — tags that do not say which element they were read from

Such a tag is looked up by its name and attributes, from the start of a tree that the results before it have changed.  It
does there what it would do at its own element just when it finds this one, or when its result would leave both as they are
(`foundChange_eq_iff`).  Where that holds of every tag, the page comes out as it does with the elements named, and the two
ways of carrying out the results never part (`moduleText_unhandled`).
-/
namespace ReactSite

/-- A tag that does not say which element it was read from. -/
def Tag.unhandled (r : Tag) : Tag := { r with element := none }

/-- A label that a tag describes. -/
def Tag.fits (r : Tag) (l : Element.Label) : Bool :=
  Text.lower l.tag = Text.lower r.name && l.attributes.folded.sameAs r.attributes.folded

theorem map_id_locate? (t : Element) (r : Tag) : (locate? t r).map (·.id) = (t.labels.find? r.fits).map (·.id) := by
  rw [locate?, Element.labels, List.find?_map, Option.map_map]
  rfl

namespace Mapping

theorem ofTags_unhandled (site : Surroundings) (table : RenameTable) : ∀ (tags : List Tag) (i : Imports),
    ofTags site table (tags.map Tag.unhandled) i = ofTags site table tags i
  | [], _      => rfl
  | r :: rs, i => by
    have hr : ofTag site table r.unhandled i = ofTag site table r i := rfl
    rw [List.map_cons, ofTags, ofTags, hr]
    simp only [ofTags_unhandled site table rs]

/-- **A mapping does not go by the elements.** -/
theorem ofPage_unhandled (site : Surroundings) (table : RenameTable) (tags : List Tag) :
    ofPage site table (tags.map Tag.unhandled) = ofPage site table tags := by
  rw [ofPage, ofPage, ofTags_unhandled]

end Mapping

namespace Page

open Element (Label idsAll)

/-! ## One search -/

/-- The tree after one result, carried out at what its tag finds. -/
def foundChange (r : Tag) (m : MappedTag) (t : Element) : Element :=
  match (locate? t r).map (·.id) with
  | some n => changed n m t
  | none   => t

/-- **A tag finds what it should** among the labels of a tree whose root has the number `top`: its own element, or its
result leaves as they are both what it finds and its own. -/
def Finds (top : Nat) (ls : List Label) (r : Tag) (m : MappedTag) : Prop :=
  (ls.find? r.fits).map (·.id) = r.element ∨
    ∀ l ∈ ls, some l.id = r.element ∨ (ls.find? r.fits).map (·.id) = some l.id → Leaves top m l

instance (top : Nat) (ls : List Label) (r : Tag) (m : MappedTag) : Decidable (Finds top ls r m) :=
  inferInstanceAs (Decidable (_ ∨ _))

/-- **A result is carried out as at its own element just when its tag finds what it should.** -/
theorem foundChange_eq_iff {t : Element} (hnd : t.ids.Nodup) {r : Tag} {n : Nat} (hr : r.element = some n) (m : MappedTag) :
    foundChange r m t = changed n m t ↔ Finds t.id t.labels r m := by
  unfold foundChange Finds
  rw [map_id_locate?, hr]
  cases (t.labels.find? r.fits).map (·.id) with
  | none =>
    rw [eq_comm, changed_eq_self_iff hnd]
    simp
  | some k =>
    by_cases hk : k = n
    · simp [hk]
    · -- the tag finds another element: both trees are the same only where neither is changed
      have hne : n ≠ k := fun e => hk e.symm
      have hboth : changed k m t = changed n m t ↔ changed n m t = t ∧ changed k m t = t := by
        constructor
        · intro h
          exact ⟨changed_eq_self_of_eq hnd hne h.symm, changed_eq_self_of_eq hnd hk h⟩
        · rintro ⟨hn, hk⟩
          rw [hn, hk]
      rw [hboth, changed_eq_self_iff hnd, changed_eq_self_iff hnd]
      simp [hne, or_imp, forall_and, eq_comm]

/-! ## Searches one after the other -/

/-- **The tree after results** that are carried out at what their tags find. -/
def foundAll : List Tag → List MappedTag → Element → Element
  | r :: rs, m :: ms, t => foundAll rs ms (foundChange r m t)
  | _, _, t             => t

/-- **Every tag finds what it should** where the results before it have been carried out; `done` are those of the tags
before the given ones. -/
def FindsAll (root : Element) : List MappedTag → List Tag → List MappedTag → Prop
  | done, r :: rs, m :: ms => Finds root.id (sought root done) r m ∧ FindsAll root (done ++ [m]) rs ms
  | _, _, _                => True

instance decidableFindsAll (root : Element) : ∀ (done : List MappedTag) (rs : List Tag) (ms : List MappedTag),
    Decidable (FindsAll root done rs ms)
  | done, _ :: rs, m :: ms =>
    have := decidableFindsAll root (done ++ [m]) rs ms
    inferInstanceAs (Decidable (_ ∧ _))
  | _, [], []              => .isTrue trivial
  | _, [], _ :: _          => .isTrue trivial
  | _, _ :: _, []          => .isTrue trivial

theorem edit_unhandled {v : Draft} {r : Tag} {m : MappedTag} (hname : m.name = r.name) :
    v.edit r.unhandled m = match (locate? v.root r).map (·.id) with
      | some n => v.editAt n m
      | none   => .ok v := by
  have hfound : v.elementOf? r.unhandled = (locate? v.root r).map (·.id) := rfl
  rw [Draft.edit, hfound]
  cases (locate? v.root r).map (·.id) with
  | none => rfl
  | some n =>
    have hsame : r.unhandled.name = m.name := hname.symm
    unfold Draft.editAt
    cases m.attributes with
    | none => rfl
    | some given => rw [hsame]

/-- Searching goes on in texts that can be stored, and never fails. -/
theorem carryOutFrom_unhandled (file : Option String) : ∀ (rs : List Tag) (ms : List MappedTag) (index : Nat) (v : Draft),
    ms.map (·.name) = rs.map (·.name) → v.textsStorable = true →
      ∃ v', carryOutFrom file index (rs.map Tag.unhandled) ms v = .ok v' ∧ v'.root = foundAll rs ms v.root
  | [], [], _, v, _, _             => ⟨v, rfl, rfl⟩
  | r :: rs, m :: ms, index, v, h, hv => by
    simp only [List.map_cons, List.cons.injEq] at h
    have hstep : ∃ u, v.edit r.unhandled m = .ok u ∧ u.textsStorable = true ∧ u.root = foundChange r m v.root := by
      rw [edit_unhandled h.1, foundChange]
      cases (locate? v.root r).map (·.id) with
      | none => exact ⟨v, rfl, hv, rfl⟩
      | some n =>
        obtain ⟨u, hu, hs⟩ := Draft.editAt_eq_ok n m hv
        exact ⟨u, hu, hs, root_of_editAt hu⟩
    obtain ⟨u, hu, hs, hroot⟩ := hstep
    obtain ⟨v', hv', hroot'⟩ := carryOutFrom_unhandled file rs ms (index + 1) u h.2 hs
    refine ⟨v', ?_, ?_⟩
    · have hname : Text.lower r.unhandled.name = Text.lower m.name := by
        rw [h.1]
        rfl
      rw [List.map_cons, carryOutFrom, if_neg fun hne => hne hname, hu]
      exact hv'
    · rw [hroot', foundAll, hroot]

/-! ## Against the elements named -/

theorem editAll_concat (n : Nat) (after : List Nat) (m : MappedTag) (w' : Draft) : ∀ {before : List Nat}
    {done : List MappedTag} {u : Draft}, before.length = done.length →
      editAll (before ++ n :: after) (done ++ [m]) u = .ok w' →
      ∃ w, editAll (before ++ n :: after) done u = .ok w ∧ w.editAt n m = .ok w'
  | [], [], u, _, h => by
    obtain ⟨v, hv, h⟩ := editAll_cons_eq_ok.1 h
    rw [editAll_nil] at h
    cases h
    exact ⟨u, rfl, hv⟩
  | k :: before, d :: done, u, hlen, h => by
    obtain ⟨v, hv, h⟩ := editAll_cons_eq_ok.1 h
    obtain ⟨w, hw, hw'⟩ := editAll_concat n after m w' (Nat.succ.inj hlen) h
    exact ⟨w, editAll_cons_eq_ok.2 ⟨v, hv, hw⟩, hw'⟩

section

variable {root : Element} (hnd : root.ids.Nodup) (hs : root.textsStorable = true)

include hnd hs

theorem pruned_concat {before after : List Nat} {n : Nat} (hids : root.ids = before ++ n :: after)
    {done : List MappedTag} (hlen : before.length = done.length) (m : MappedTag) :
    pruned root (done ++ [m]) = changed n m (pruned root done) := by
  obtain ⟨w', hw', -⟩ := editAll_eq_ok root.ids (done ++ [m]) { root } (textsStorable_start hs)
  have hroot := root_of_editAll hnd hw'
  rw [hids] at hw'
  obtain ⟨w, hw, hstep⟩ := editAll_concat n after m w' hlen hw'
  rw [← hids] at hw
  rw [← hroot, ← root_of_editAll hnd hw, root_of_editAt hstep]

/-- **Searching leads from tree to tree as naming the elements does just when every tag finds what it should.** -/
theorem foundAll_eq_pruned_iff : ∀ {rs : List Tag} {ms done : List MappedTag} {before ns : List Nat},
    root.ids = before ++ ns → before.length = done.length → rs.map (·.element) = ns.map some → ms.length = rs.length →
      ((∀ j, foundAll (rs.take j) (ms.take j) (pruned root done) = pruned root (done ++ ms.take j)) ↔
        FindsAll root done rs ms)
  | [], [], done, _, _, _, _, _, _ => by
    refine iff_of_true (fun j => ?_) trivial
    rw [List.take_nil, List.take_nil, List.append_nil]
    rfl
  | r :: rs, m :: ms, done, before, n :: ns, hids, hlen, hel, hms => by
    rw [List.map_cons, List.map_cons, List.cons.injEq] at hel
    have hstep : foundChange r m (pruned root done) = pruned root (done ++ [m]) ↔ Finds root.id (sought root done) r m := by
      rw [pruned_concat hnd hs hids hlen m, foundChange_eq_iff (nodup_ids_pruned hnd done) hel.1 m, id_pruned,
        labels_pruned hnd]
    have hids' : root.ids = (before ++ [n]) ++ ns := by rw [hids, List.append_cons]
    have hlen' : (before ++ [n]).length = (done ++ [m]).length := by
      rw [List.length_append, List.length_append, hlen]
      rfl
    have hrest := foundAll_eq_pruned_iff hids' hlen' hel.2 (Nat.succ.inj hms)
    rw [FindsAll, ← hstep, ← hrest]
    -- the trees agree before this tag; the next two agree just when it finds what it should, and the rest goes on from there
    constructor
    · intro h
      have hone : foundChange r m (pruned root done) = pruned root (done ++ [m]) := h 1
      refine ⟨hone, fun j => ?_⟩
      have hmore := h (j + 1)
      rwa [List.take_succ_cons, List.take_succ_cons, foundAll, hone, List.append_cons done m (ms.take j)] at hmore
    · rintro ⟨hone, hmore⟩ j
      cases j with
      | zero =>
        rw [List.take_zero, List.take_zero, List.append_nil]
        rfl
      | succ j =>
        rw [List.take_succ_cons, List.take_succ_cons, foundAll, hone, List.append_cons done m (ms.take j)]
        exact hmore j

end

theorem editAll_take : ∀ {k : Nat} {ns : List Nat} {ms : List MappedTag} {w : Draft}, ms.length ≤ k →
    editAll (ns.take k) ms w = editAll ns ms w
  | _, _, [], _, _               => by rw [editAll_nil, editAll_nil]
  | 0, _, _ :: _, _, h           => absurd h (Nat.not_succ_le_zero _)
  | _ + 1, [], _ :: _, _, _      => rfl
  | k + 1, n :: ns, m :: ms, w, h => by
    rw [List.take_succ_cons, editAll, editAll]
    simp only [editAll_take (Nat.le_of_succ_le_succ h)]

theorem carryOut_take {root : Element} {tags : List Tag} (htags : tagsOf root = .ok tags)
    (hs : root.textsStorable = true) (file : Option String) (site : Surroundings) (table : RenameTable)
    (hnd : root.ids.Nodup) (j : Nat) :
    ∃ w, carryOut file root (tags.take j) ((Mapping.ofPage site table tags).results.take j) = .ok w ∧
      w.root = pruned root ((Mapping.ofPage site table tags).results.take j) := by
  have hel := congrArg (List.take j) (elements_of_tagsOf htags)
  have hnames := congrArg (List.take j) (Mapping.names_ofTags site table tags {})
  rw [← List.map_take, ← List.map_take] at hel hnames
  have hrun := carryOutFrom_eq_editAll file (root.ids.take j) (tags.take j)
    ((Mapping.ofPage site table tags).results.take j) 0 { root } hel hnames
  rw [editAll_take (List.length_take_le _ _)] at hrun
  obtain ⟨w, hw, -⟩ := editAll_eq_ok root.ids ((Mapping.ofPage site table tags).results.take j) { root } (textsStorable_start hs)
  exact ⟨w, hrun.trans hw, root_of_editAll hnd hw⟩

theorem carryOut_take_unhandled {root : Element} (hs : root.textsStorable = true) (file : Option String)
    (site : Surroundings) (table : RenameTable) (tags : List Tag) (j : Nat) :
    ∃ v, carryOut file root ((tags.take j).map Tag.unhandled) ((Mapping.ofPage site table tags).results.take j) = .ok v ∧
      v.root = foundAll (tags.take j) ((Mapping.ofPage site table tags).results.take j) root := by
  have hnames := congrArg (List.take j) (Mapping.names_ofTags site table tags {})
  rw [← List.map_take, ← List.map_take] at hnames
  exact carryOutFrom_unhandled file _ _ 0 { root } hnames (textsStorable_start hs)

/-- **Tags that do not say which element they were read from.**  Looked up in the tree as it is by then, they lead from
tree to tree as they do with their elements named just when each of them finds what it should, and then the module of the
page is the same. -/
theorem moduleText_unhandled (root : Element) (xhtml : Bool) (site : Surroundings) (table : RenameTable)
    (tags : List Tag) (name : String) (file : Option String) (htags : tagsOf root.numbered = .ok tags)
    (hs : root.numbered.textsStorable = true) :
    ((∀ j, (carryOut file root.numbered ((tags.take j).map Tag.unhandled)
          ((Mapping.ofPage site table tags).results.take j)).map (·.root) =
        (carryOut file root.numbered (tags.take j) ((Mapping.ofPage site table tags).results.take j)).map (·.root)) ↔
      FindsAll root.numbered [] tags (Mapping.ofPage site table tags).results) ∧
    (FindsAll root.numbered [] tags (Mapping.ofPage site table tags).results →
      moduleText ⟨root.numbered, xhtml⟩ (tags.map Tag.unhandled)
          (Mapping.ofPage site table (tags.map Tag.unhandled)) name file =
        moduleText ⟨root.numbered, xhtml⟩ tags (Mapping.ofPage site table tags) name file) := by
  have hnd := Element.nodup_ids_numbered root
  have hel := elements_of_tagsOf htags
  have hlen := Mapping.length_results site table tags
  have hbefore : ([] : List Nat).length = ([] : List MappedTag).length := rfl
  have hiff := foundAll_eq_pruned_iff hnd hs (List.nil_append _).symm hbefore hel hlen
  have htrees : ∀ j, (carryOut file root.numbered ((tags.take j).map Tag.unhandled)
        ((Mapping.ofPage site table tags).results.take j)).map (·.root) =
      (carryOut file root.numbered (tags.take j) ((Mapping.ofPage site table tags).results.take j)).map (·.root) ↔
      foundAll (tags.take j) ((Mapping.ofPage site table tags).results.take j) root.numbered =
        pruned root.numbered ((Mapping.ofPage site table tags).results.take j) := by
    intro j
    obtain ⟨w, hw, hwroot⟩ := carryOut_take htags hs file site table hnd j
    obtain ⟨v, hv, hvroot⟩ := carryOut_take_unhandled hs file site table tags j
    rw [hw, hv, ← hwroot, ← hvroot]
    exact ⟨Except.ok.inj, congrArg Except.ok⟩
  refine ⟨(forall_congr' htrees).trans hiff, fun hfinds => ?_⟩
  obtain ⟨draft, hd, hstorable⟩ := carryOut_eq_ok file htags hs site table
  obtain ⟨v, hv, -⟩ := carryOut_take_unhandled hs file site table tags tags.length
  have hagree := (htrees tags.length).2 (hiff.2 hfinds _)
  rw [← hlen, List.take_length, hlen, List.take_length] at hagree hv
  rw [hv, hd] at hagree
  have hroot : v.root = draft.root := Except.ok.inj hagree
  have hnamed := @moduleText_eq ⟨root.numbered, xhtml⟩ _ _ _ _ hd (textsStorable_escapeTexts _ hstorable) name
  have hfound := @moduleText_eq ⟨root.numbered, xhtml⟩ _ _ _ _ hv
    (textsStorable_escapeTexts _ (by rw [hroot]; exact hstorable)) name
  rw [Mapping.ofPage_unhandled, hnamed, hfound, hroot]

/-- A page with a renamed attribute, two paragraphs alike that the mapping leaves as they are, and a style sheet. -/
def styledPage : Element :=
  .mk 0 "html" [] "" [.mk 0 "body" [] "" [
    .mk 0 "p" [("class", "c")] "x" [] "", .mk 0 "p" [] "y" [] "", .mk 0 "p" [] "z" [] "",
    .mk 0 "style" [] "a\x7b\x7d" [] ""] ""] ""

theorem moduleText_unhandled_styledPage : ∃ tags, tagsOf styledPage.numbered = .ok tags ∧
    styledPage.numbered.textsStorable = true ∧
    FindsAll styledPage.numbered [] tags (Mapping.ofPage logoSite Packaged.renameTable tags).results ∧
    moduleText ⟨styledPage.numbered, false⟩ (tags.map Tag.unhandled)
        (Mapping.ofPage logoSite Packaged.renameTable (tags.map Tag.unhandled)) "Page" =
      moduleText ⟨styledPage.numbered, false⟩ tags (Mapping.ofPage logoSite Packaged.renameTable tags) "Page" := by
  obtain ⟨-, hmodule⟩ := moduleText_unhandled styledPage false logoSite Packaged.renameTable _ "Page" none rfl (by decide)
  exact ⟨_, rfl, by decide, by decide +kernel, hmodule (by decide +kernel)⟩

def twinText : String := "<html><body><p tabindex=\"1\">a</p><p tabindex=\"1\">b</p></body></html>"

def twinModule (name : String) : String :=
  "import React from \"react\";\n\nfunction Page() \x7b\n  return (\n    <>\n<p tabIndex=\"1\">a</p><p " ++ name ++
    "=\"1\">b</p>\n    </>\n  );\n\x7d\n\nexport default Page;\n"

/-- **Of two paragraphs alike the second is not found**: the first has been renamed, but only in the case of a letter. -/
theorem moduleText_twins : ∃ document tags, PageReader.load Html.read twinText = .ok document ∧ tagsOf document.root = .ok tags ∧
    moduleText document tags (Mapping.ofPage logoSite Packaged.renameTable tags) "Page" = .ok (twinModule "tabIndex") ∧
    moduleText document (tags.map Tag.unhandled)
        (Mapping.ofPage logoSite Packaged.renameTable (tags.map Tag.unhandled)) "Page" = .ok (twinModule "tabindex") ∧
    twinModule "tabindex" ≠ twinModule "tabIndex" := by
  have hshown : ((PageReader.load Html.read twinText).toOption.bind fun document => (tagsOf document.root).toOption.map fun tags =>
      (moduleText document tags (Mapping.ofPage logoSite Packaged.renameTable tags) "Page",
        moduleText document (tags.map Tag.unhandled)
          (Mapping.ofPage logoSite Packaged.renameTable (tags.map Tag.unhandled)) "Page")) =
      some (.ok (twinModule "tabIndex"), .ok (twinModule "tabindex")) := by decide +kernel
  obtain ⟨document, hdocument, h⟩ := Option.bind_eq_some_iff.1 hshown
  obtain ⟨tags, htags, h⟩ := Option.map_eq_some_iff.1 h
  obtain ⟨hnamed, hfound⟩ := Prod.mk.inj h
  refine ⟨document, tags, toOption_eq_some.1 hdocument, ?_, hnamed, hfound, by decide⟩
  cases ht : tagsOf document.root with
  | error f =>
    rw [ht] at htags
    cases htags
  | ok tags' =>
    rw [ht] at htags
    cases htags
    rfl

end Page
end ReactSite
