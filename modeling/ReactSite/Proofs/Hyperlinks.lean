import ReactSite.Proofs.Navigation
import ReactSite.Proofs.Scripts
/-!
# Hyperlinks — mapping and tree agree on the links of a page

The mapping gives a hyperlink a route when its target is internal; the tree makes a navigation link of whatever was given an
attribute `to`; the import is decided by the mapping.  The three coincide exactly when no hyperlink has a `to` of its own that
counts for more than its route (`linksAgree_iff`).  An anchor that merely has such an attribute becomes a navigation link without
a route and without an import (`not_linksAgree_signpost`).
-/
namespace ReactSite

namespace Mapping

variable {site : Surroundings} {table : RenameTable} {r : Tag}

theorem lower_of_hyperlink (h : handler? r = some .hyperlink) : Text.lower r.name = "a" := by
  unfold handler? at h
  split at h
  · split at h <;> cases h
  · assumption
  · cases h
  · cases h
  · cases h
  · cases h

theorem ofTag_of_external (htag : handler? r = some .hyperlink) (hhref : internalLink? site table "href" r = none)
    (i : Imports) : (ofTag site table r i).1 = ⟨r.name, some (Attributes.passed table r.attributes)⟩ := by
  unfold internalLink? at hhref
  unfold ofTag
  rw [htag]
  simp only [ofHyperlink]
  cases hget : (Attributes.passed table r.attributes).get? "href" with
  | none => rfl
  | some href =>
    rw [hget, Option.filter_eq_none_iff] at hhref
    have hexternal : ¬ (decide (href ≠ "") && site.linkExists href) = true := hhref href rfl
    simp only [if_neg hexternal]

/-! ## The attributes of a navigation link -/

theorem mem_names_navigationAttributes {attrs : Attributes} (hhref : "href" ∈ attrs.names) (route : String) :
    navigationAttribute ∈ (navigationAttributes route attrs).names := by
  obtain ⟨a, ha, hname⟩ := List.mem_map.1 hhref
  rw [navigationAttributes, Attributes.mem_names_ofList]
  exact List.mem_map.2 ⟨(navigationAttribute, route), List.mem_map.2 ⟨a, ha, if_pos hname⟩, rfl⟩

theorem map_navigation_split {before after : Attributes} {address : String}
    (hn : Attributes.names (before ++ ("href", address) :: after) |>.Nodup) (route : String) :
    (before ++ ("href", address) :: after).map (fun a => if a.1 = "href" then (navigationAttribute, route) else a) =
      before ++ (navigationAttribute, route) :: after := by
  have hsame : ∀ attrs : Attributes, "href" ∉ attrs.names →
      attrs.map (fun a => if a.1 = "href" then (navigationAttribute, route) else a) = attrs := by
    intro attrs hnot
    conv => rhs; rw [← List.map_id attrs]
    exact List.map_congr_left fun a ha => if_neg fun hname => hnot (List.mem_map.2 ⟨a, ha, hname⟩)
  rw [Attributes.names, List.map_append, List.map_cons, List.nodup_middle, List.nodup_cons, List.mem_append, not_or] at hn
  rw [List.map_append, List.map_cons, if_pos rfl, hsame before hn.1.1, hsame after hn.1.2]

/-- **A navigation link leads to its route**, unless the tag has another `to` behind its address. -/
theorem get?_navigationAttributes_iff {attrs : Attributes} (hn : attrs.names.Nodup) (hhref : "href" ∈ attrs.names)
    (route : String) : (navigationAttributes route attrs).get? navigationAttribute = some route ↔
      ∀ v, attrs.get? navigationAttribute = some v → v = route ∨
        navigationAttribute ∉ attrs.names.dropWhile (· ≠ "href") := by
  obtain ⟨⟨name, address⟩, hmem, hname⟩ := List.mem_map.1 hhref
  obtain rfl : name = "href" := hname
  obtain ⟨before, after, rfl⟩ := List.append_of_mem hmem
  have hmap := map_navigation_split hn route
  have hnames : Attributes.names (before ++ ("href", address) :: after) =
      Attributes.names before ++ "href" :: Attributes.names after := by
    rw [Attributes.names, List.map_append]
    rfl
  rw [hnames] at hn
  obtain ⟨-, hafter, hapart⟩ := List.nodup_append.1 hn
  have hbehind : (Attributes.names before ++ "href" :: Attributes.names after).dropWhile (· ≠ "href") =
      "href" :: Attributes.names after := by
    have hall : ∀ name ∈ Attributes.names before, (fun name => decide (name ≠ "href")) name = true :=
      fun name hname => decide_eq_true (hapart name hname "href" List.mem_cons_self)
    rw [List.dropWhile_append_of_pos hall]
    rfl
  have hlast : (navigationAttributes route (before ++ ("href", address) :: after)).get? navigationAttribute =
      (Attributes.get? after navigationAttribute).or (some route) := by
    have hreverse : Attributes.get? after.reverse navigationAttribute = Attributes.get? after navigationAttribute := by
      rw [← Attributes.get?_ofList, Attributes.ofList_eq_self (List.nodup_cons.1 hafter).2]
    have hwritten : Attributes.get? ((navigationAttribute, route) :: before.reverse) navigationAttribute = some route := by
      rw [Attributes.get?_cons, if_pos rfl]
    rw [navigationAttributes, hmap, Attributes.get?_ofList, List.reverse_append, List.reverse_cons, List.append_assoc,
      List.singleton_append, Attributes.get?_append, hreverse, hwritten]
  have hfound : Attributes.get? (before ++ ("href", address) :: after) navigationAttribute =
      (Attributes.get? before navigationAttribute).or (Attributes.get? after navigationAttribute) := by
    have hother : navigationAttribute ≠ "href" := by decide
    rw [Attributes.get?_append, Attributes.get?_cons, if_neg hother]
  rw [hlast, hnames, hbehind, hfound]
  cases hget : Attributes.get? after navigationAttribute with
  | none =>
    have hnot : navigationAttribute ∉ "href" :: Attributes.names after := by
      rw [List.mem_cons, not_or]
      exact ⟨by decide, Attributes.isNone_get?_iff.1 (by rw [hget]; rfl)⟩
    exact ⟨fun _ v _ => .inr hnot, fun _ => rfl⟩
  | some u =>
    have hin : navigationAttribute ∈ Attributes.names after := List.mem_map.2 ⟨_, Attributes.mem_of_get? hget, rfl⟩
    have hnone : Attributes.get? before navigationAttribute = none :=
      Attributes.get?_eq_none_of_notMem fun hb => hapart _ hb _ (List.mem_cons_of_mem _ hin) rfl
    rw [hnone, Option.none_or, Option.some_or]
    simp [hin, eq_comm]

/-! ## The result of a hyperlink -/

/-- **What a hyperlink is given**: its attributes after the pass, with the route in the place of an internal address. -/
def linkAttributes (site : Surroundings) (table : RenameTable) (r : Tag) : Attributes :=
  match internalLink? site table "href" r with
  | some href => navigationAttributes (linkRoute site href) (Attributes.passed table r.attributes)
  | none      => Attributes.passed table r.attributes

theorem attributes_ofTag_of_hyperlink (htag : handler? r = some .hyperlink) (i : Imports) :
    (ofTag site table r i).1.attributes = some (linkAttributes site table r) := by
  unfold linkAttributes
  cases hhref : internalLink? site table "href" r with
  | none => rw [ofTag_of_external htag hhref]
  | some href => rw [ofTag_of_internal htag hhref]

/-- **A hyperlink whose `to` can only be its route**: one of its own stands only beside an internal address, and says the route
or is overwritten by it. -/
structure IsUnmistakable (site : Surroundings) (table : RenameTable) (r : Tag) : Prop where
  internal : navigationAttribute ∈ (Attributes.passed table r.attributes).names →
    (internalLink? site table "href" r).isSome
  storable : ∀ href, internalLink? site table "href" r = some href → Element.isStorable (linkRoute site href) = true
  overwritten : ∀ href, internalLink? site table "href" r = some href → ∀ v,
    (Attributes.passed table r.attributes).get? navigationAttribute = some v → v = linkRoute site href ∨
      navigationAttribute ∉ (Attributes.passed table r.attributes).names.dropWhile (· ≠ "href")

instance (site : Surroundings) (table : RenameTable) (r : Tag) : Decidable (IsUnmistakable site table r) :=
  decidable_of_iff
    ((navigationAttribute ∈ (Attributes.passed table r.attributes).names → (internalLink? site table "href" r).isSome) ∧
      (∀ href ∈ internalLink? site table "href" r, Element.isStorable (linkRoute site href) = true) ∧
      ∀ href ∈ internalLink? site table "href" r, ∀ v ∈ (Attributes.passed table r.attributes).get? navigationAttribute,
        v = linkRoute site href ∨
          navigationAttribute ∉ (Attributes.passed table r.attributes).names.dropWhile (· ≠ "href"))
    ⟨fun ⟨hinternal, hstorable, hover⟩ => ⟨hinternal, hstorable, hover⟩,
      fun ⟨hinternal, hstorable, hover⟩ => ⟨hinternal, hstorable, hover⟩⟩

theorem names_of_internalLink? {href : String} (h : internalLink? site table "href" r = some href) :
    "href" ∈ (Attributes.passed table r.attributes).names :=
  List.mem_map.2 ⟨_, Attributes.mem_of_get? (Option.filter_eq_some_iff.1 h).1, rfl⟩

/-- **A hyperlink is given a `to` just when it is internal, and then its route**, exactly when it is unmistakable. -/
theorem isUnmistakable_iff (hbare : ∀ a ∈ Attributes.passed table r.attributes,
      Page.storedName? a.1 = some navigationAttribute → a.1 = navigationAttribute) :
    IsUnmistakable site table r ↔
      (navigationAttribute ∈ (linkAttributes site table r).names ↔ (internalLink? site table "href" r).isSome) ∧
      (navigationAttribute ∈ (linkAttributes site table r).names → ∃ href, internalLink? site table "href" r = some href ∧
        (Page.storedAttributes (linkAttributes site table r)).get? navigationAttribute = some (linkRoute site href)) := by
  have hpassed : (Attributes.passed table r.attributes).names.Nodup := Attributes.nodup_names_ofList _
  cases hhref : internalLink? site table "href" r with
  | none =>
    have hsame : linkAttributes site table r = Attributes.passed table r.attributes := by rw [linkAttributes, hhref]
    rw [hsame]
    refine ⟨fun h => ?_, fun h => ⟨fun hto => by rw [hhref]; exact h.1.1 hto, fun _ he => ?_, fun _ he => ?_⟩⟩
    · have hnot : navigationAttribute ∉ (Attributes.passed table r.attributes).names := by
        intro hto
        have hsome := h.internal hto
        rw [hhref] at hsome
        cases hsome
      exact ⟨⟨fun hto => absurd hto hnot, fun hsome => by cases hsome⟩, fun hto => absurd hto hnot⟩
    · rw [hhref] at he
      cases he
    · rw [hhref] at he
      cases he
  | some href =>
    have hgiven : linkAttributes site table r =
        navigationAttributes (linkRoute site href) (Attributes.passed table r.attributes) := by rw [linkAttributes, hhref]
    have hin := names_of_internalLink? hhref
    have hto := mem_names_navigationAttributes hin (linkRoute site href)
    have honly : ∀ a ∈ navigationAttributes (linkRoute site href) (Attributes.passed table r.attributes),
        Page.storedName? a.1 = some navigationAttribute → a.1 = navigationAttribute := by
      intro a ha
      obtain ⟨b, hb, rfl⟩ := List.mem_map.1 (Attributes.mem_of_mem_ofList ha)
      split
      · exact fun _ => rfl
      · exact hbare b hb
    have hroute := Page.get?_storedAttributes (v := linkRoute site href) (Attributes.nodup_names_ofList _)
      (show Page.storedName? navigationAttribute = some navigationAttribute by decide) honly
    rw [← navigationAttributes, get?_navigationAttributes_iff hpassed hin] at hroute
    rw [hgiven]
    constructor
    · intro h
      exact ⟨⟨fun _ => rfl, fun _ => hto⟩,
        fun _ => ⟨href, rfl, hroute.2 ⟨h.overwritten href hhref, h.storable href hhref⟩⟩⟩
    · rintro ⟨-, hleads⟩
      obtain ⟨_, heq, hget⟩ := hleads hto
      cases heq
      obtain ⟨hover, hstorable⟩ := hroute.1 hget
      exact ⟨fun _ => by rw [hhref]; rfl, fun _ he => by rw [hhref] at he; cases he; exact hstorable,
        fun _ he => by rw [hhref] at he; cases he; exact hover⟩

end Mapping

namespace Page

theorem renewedTag_eq_navigation_iff {m : MappedTag} {given : Attributes} {tag : String} (hname : Text.lower m.name = "a")
    (hgiven : m.attributes = some given) (htag : tag ≠ Mapping.navigationTag) :
    renewedTag m tag = Mapping.navigationTag ↔ Mapping.navigationAttribute ∈ given.names := by
  rw [renewedTag, hgiven, Option.any_some, becomesNavigation, hname, decide_eq_true rfl, Bool.true_and,
    Attributes.any_name_eq]
  split
  · rename_i hto
    exact iff_of_true rfl (of_decide_eq_true hto)
  · rename_i hto
    exact iff_of_false htag fun h => hto (decide_eq_true h)

/-- The element `x` of an edited tree was read as the hyperlink `r`. -/
structure IsHyperlink (tags : List Tag) (r : Tag) (x : Element) : Prop where
  mem : r ∈ tags
  element : r.element = some x.id
  handler : Mapping.handler? r = some .hyperlink

/-- **Mapping, tree and imports of a page agree on its links.** -/
structure LinksAgree (site : Surroundings) (table : RenameTable) (tags : List Tag) (imports : List String) (root : Element) :
    Prop where
  /-- A hyperlink has become a navigation link just when its target is internal; -/
  tag_iff : ∀ x ∈ root.preorder, ∀ r, IsHyperlink tags r x →
    (x.tag = Mapping.navigationTag ↔ (Mapping.internalLink? site table "href" r).isSome)
  /-- it then leads to the route of its target, -/
  route : ∀ x ∈ root.preorder, ∀ r, IsHyperlink tags r x → x.tag = Mapping.navigationTag →
    ∃ href, Mapping.internalLink? site table "href" r = some href ∧
      x.attributes.get? Mapping.navigationAttribute = some (Mapping.linkRoute site href)
  /-- and the page imports the navigation component. -/
  imported : ∀ x ∈ root.preorder, ∀ r, IsHyperlink tags r x → x.tag = Mapping.navigationTag →
    Mapping.navigationImport ∈ imports

section

variable {root : Element} {site : Surroundings} {table : RenameTable} {tags : List Tag} {file : Option String} {draft : Draft}

/-- **A hyperlink that stays** is tagged and stored as its result says. -/
theorem tag_and_attributes_of_hyperlink (htags : tagsOf root.numbered = .ok tags)
    (hd : carryOut file root.numbered tags (Mapping.ofPage site table tags).results = .ok draft) {x : Element}
    (hx : x ∈ draft.root.preorder) {r : Tag} (hr : IsHyperlink tags r x) :
    (x.tag = Mapping.navigationTag ↔ Mapping.navigationAttribute ∈ (Mapping.linkAttributes site table r).names) ∧
      x.attributes = storedAttributes (Mapping.linkAttributes site table r) := by
  obtain ⟨e, q, m, -, hq, hzip, hrenewed, -⟩ := exists_of_mem_carryOut htags hd hx
  -- an element has one tag, so the tag is the one it was read as
  obtain rfl : q = r := by
    have hnodup : (tags.map (·.element)).Nodup := by
      rw [elements_of_tagsOf htags]
      exact (Element.nodup_ids_numbered root).map (Option.some_injective _)
    refine List.inj_on_of_nodup_map hnodup (List.of_mem_zip hzip).1 hr.mem ?_
    rw [(tagOf_eq_ok hq).2, hr.element, hrenewed.id_eq]
  obtain ⟨i, rfl⟩ := Mapping.exists_ofTag_of_mem_zip hzip
  have hgiven : (Mapping.ofTag site table q i).1.attributes = some (Mapping.linkAttributes site table q) :=
    Mapping.attributes_ofTag_of_hyperlink hr.handler i
  have hlower := Mapping.lower_of_hyperlink hr.handler
  have htag : e.tag ≠ Mapping.navigationTag := by
    intro heq
    rw [(tagOf_eq_ok hq).1, heq] at hlower
    exact absurd hlower (by decide)
  rw [hrenewed.tag_eq, hrenewed.attributes_eq, renewedAttributes, hgiven]
  exact ⟨renewedTag_eq_navigation_iff (by rw [Mapping.name_ofTag, hlower]) hgiven htag, rfl⟩

/-- **What is mapped internal is imported.** -/
theorem navigationImport_mem {r : Tag} (hr : r ∈ tags) (htag : Mapping.handler? r = some .hyperlink)
    (hhref : (Mapping.internalLink? site table "href" r).isSome) (document : Document) (head : String) :
    Mapping.navigationImport ∈ importsOf document (Mapping.ofPage site table tags) head := by
  have hcount := (Mapping.ofPage_importsDemanded site table tags).count_navigation
  rw [if_pos ⟨r, hr, htag, hhref⟩] at hcount
  exact List.mem_append_right _ (List.count_pos_iff.1 (by rw [hcount]; exact Nat.one_pos))

/-- **Mapping, tree and imports agree on the links of a page exactly when all that stay are unmistakable.** -/
theorem linksAgree_iff (root : Element) (xhtml : Bool) (site : Surroundings) (table : RenameTable) (tags : List Tag)
    (name : String) (file : Option String) (htags : tagsOf root.numbered = .ok tags)
    (hbare : ∀ r ∈ tags, Mapping.handler? r = some .hyperlink → ∀ a ∈ Attributes.passed table r.attributes,
      storedName? a.1 = some Mapping.navigationAttribute → a.1 = Mapping.navigationAttribute) :
    (root.numbered.textsStorable = true → ∃ text,
      moduleText ⟨root.numbered, xhtml⟩ tags (Mapping.ofPage site table tags) name file = .ok text) ∧
    ∀ text, moduleText ⟨root.numbered, xhtml⟩ tags (Mapping.ofPage site table tags) name file = .ok text →
      ∃ draft head, carryOut file root.numbered tags (Mapping.ofPage site table tags).results = .ok draft ∧
        head = headSection xhtml (escapeTexts draft.root) (stylesOf root.numbered) ∧
        text = render (importsOf ⟨root.numbered, xhtml⟩ (Mapping.ofPage site table tags) head) name
          ((Mapping.ofPage site table tags).identifiers.foldl unquote (head ++ bodySection xhtml (escapeTexts draft.root)))
          (if (scriptsOf root.numbered).isEmpty then "" else effectBlock (scriptsOf root.numbered)) ∧
        (LinksAgree site table tags (importsOf ⟨root.numbered, xhtml⟩ (Mapping.ofPage site table tags) head) draft.root ↔
          ∀ x ∈ draft.root.preorder, ∀ r, IsHyperlink tags r x → Mapping.IsUnmistakable site table r) := by
  constructor
  · intro hs
    obtain ⟨draft, hd, hstorable⟩ := carryOut_eq_ok file htags hs site table
    have hmodule : moduleText ⟨root.numbered, xhtml⟩ tags (Mapping.ofPage site table tags) name file = _ :=
      moduleText_eq hd (textsStorable_escapeTexts _ hstorable) name
    exact ⟨_, hmodule⟩
  intro text htext
  obtain ⟨draft, hd, htext⟩ := exists_of_moduleText htext
  refine ⟨draft, _, hd, rfl, htext, ?_⟩
  constructor
  · intro h x hx r hr
    obtain ⟨htag, hattributes⟩ := tag_and_attributes_of_hyperlink htags hd hx hr
    refine (Mapping.isUnmistakable_iff (hbare r hr.mem hr.handler)).2 ⟨?_, fun hto => ?_⟩
    · rw [← htag]
      exact h.tag_iff x hx r hr
    · rw [← hattributes]
      exact h.route x hx r hr (htag.2 hto)
  · intro h
    have hlink : ∀ x ∈ draft.root.preorder, ∀ r, IsHyperlink tags r x →
        (x.tag = Mapping.navigationTag ↔ (Mapping.internalLink? site table "href" r).isSome) ∧
        (x.tag = Mapping.navigationTag → ∃ href, Mapping.internalLink? site table "href" r = some href ∧
          x.attributes.get? Mapping.navigationAttribute = some (Mapping.linkRoute site href)) := by
      intro x hx r hr
      obtain ⟨htag, hattributes⟩ := tag_and_attributes_of_hyperlink htags hd hx hr
      rw [htag, hattributes]
      exact (Mapping.isUnmistakable_iff (hbare r hr.mem hr.handler)).1 (h x hx r hr)
    exact {
      tag_iff := fun x hx r hr => (hlink x hx r hr).1
      route := fun x hx r hr => (hlink x hx r hr).2
      imported := fun x hx r hr htag =>
        navigationImport_mem hr.mem hr.handler ((hlink x hx r hr).1.1 htag) ⟨root.numbered, xhtml⟩ _ }

end

/-- A site with a blog, seen from its root. -/
def signpostSite : Surroundings :=
  ⟨⟨[(["site"], .directory), (["site", "blog"], .directory), (["site", "blog", "index.html"], .file [])], [], []⟩,
    ⟨1, ["site"]⟩, ""⟩

/-- A page with a link to the blog that has a `to` before its address, one that says its route behind it, and one that leads
out of the site. -/
def guidedPage : Element :=
  .mk 0 "html" [] "" [.mk 0 "body" [] "" [
    .mk 0 "a" [("to", "nowhere"), ("href", "blog/")] "posts" [] "",
    .mk 0 "A" [("href", "blog"), ("to", "blog")] "again" [] "",
    .mk 0 "a" [("href", "https://example.com")] "out" [] ""] ""] ""

def guidedTags : List Tag := [⟨"html", [], some 0⟩, ⟨"body", [], some 1⟩,
  ⟨"a", [("to", "nowhere"), ("href", "blog/")], some 2⟩, ⟨"a", [("href", "blog"), ("to", "blog")], some 3⟩,
  ⟨"a", [("href", "https://example.com")], some 4⟩]

theorem linksAgree_guidedPage : ∃ draft head text, tagsOf guidedPage.numbered = .ok guidedTags ∧
    carryOut none guidedPage.numbered guidedTags (Mapping.ofPage signpostSite [] guidedTags).results = .ok draft ∧
    moduleText ⟨guidedPage.numbered, false⟩ guidedTags (Mapping.ofPage signpostSite [] guidedTags) "Page" none = .ok text ∧
    draft.root.preorder.map (·.tag) = ["html", "body", "Link", "Link", "a"] ∧
    LinksAgree signpostSite [] guidedTags
      (importsOf ⟨guidedPage.numbered, false⟩ (Mapping.ofPage signpostSite [] guidedTags) head) draft.root := by
  obtain ⟨hok, hall⟩ := linksAgree_iff guidedPage false signpostSite [] guidedTags "Page" none rfl (by decide +kernel)
  obtain ⟨text, htext⟩ := hok (by decide)
  obtain ⟨draft, head, hd, -, -, hiff⟩ := hall text htext
  have hshown : (carryOut none guidedPage.numbered guidedTags
      (Mapping.ofPage signpostSite [] guidedTags).results).toOption.map (fun draft => draft.root.preorder.map (·.tag)) =
        some ["html", "body", "Link", "Link", "a"] := by decide +kernel
  rw [hd] at hshown
  have hplain : ∀ r ∈ guidedTags, Mapping.handler? r = some .hyperlink → Mapping.IsUnmistakable signpostSite [] r := by
    decide +kernel
  exact ⟨draft, head, text, rfl, hd, htext, Option.some.inj hshown, hiff.2 fun x _ r hr => hplain r hr.mem hr.handler⟩

/-- An anchor without an address that has a `to`. -/
def signpost : Element :=
  .mk 0 "html" [] "" [.mk 0 "body" [] "" [.mk 0 "a" [("to", "x")] "y" [] ""] ""] ""

/-- **An anchor with a `to` of its own becomes a navigation link** without an address, and nothing is imported for it. -/
theorem not_linksAgree_signpost : ∃ tags draft, tagsOf signpost.numbered = .ok tags ∧
    carryOut none signpost.numbered tags (Mapping.ofPage signpostSite [] tags).results = .ok draft ∧
    moduleText ⟨signpost.numbered, false⟩ tags (Mapping.ofPage signpostSite [] tags) "Page" none =
      .ok (render [reactImport] "Page" "<Link to=\"x\">y</Link>" "") ∧
    (∃ x ∈ draft.root.preorder, ∃ r, IsHyperlink tags r x ∧ x.tag = Mapping.navigationTag ∧
      Mapping.internalLink? signpostSite [] "href" r = none) ∧
    ¬ LinksAgree signpostSite [] tags [reactImport] draft.root := by
  have hlink : IsHyperlink [⟨"html", [], some 0⟩, ⟨"body", [], some 1⟩, ⟨"a", [("to", "x")], some 2⟩]
      ⟨"a", [("to", "x")], some 2⟩ (.mk 2 "Link" [("to", "x")] "y" [] "") :=
    ⟨by simp, rfl, by decide⟩
  refine ⟨_, _, rfl, rfl, by decide +kernel, ⟨_, .tail _ (.tail _ (.head _)), _, hlink, rfl, rfl⟩, fun h => ?_⟩
  have hsome := (h.tag_iff _ (.tail _ (.tail _ (.head _))) _ hlink).1 rfl
  exact absurd hsome (by decide)

end Page
end ReactSite
