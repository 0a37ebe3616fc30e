import ReactSite.Proofs.Pruning
/-!
# Extraction — tags, elements and results side by side

The tags of a tree are its elements in document order, each tag naming its element (`elements_of_tagsOf`), and a mapping
has one result for each tag, under the tag's name (`names_ofTags`).  So carrying out the results of a document's own
mapping is editing its elements one by one, and no position ever disagrees (`carryOut_eq_editAll`).
-/
namespace ReactSite

theorem forall₂_of_mapM_eq_ok {ε α β : Type} {f : α → Except ε β} : ∀ {l : List α} {r : List β},
    l.mapM f = .ok r → List.Forall₂ (fun a b => f a = .ok b) l r
  | [], r, h     => by cases h; exact .nil
  | a :: l, r, h => by
    rw [List.mapM_cons] at h
    obtain ⟨b, hb, h⟩ := bind_eq_ok.1 h
    obtain ⟨bs, hbs, h⟩ := bind_eq_ok.1 h
    cases h
    exact .cons hb (forall₂_of_mapM_eq_ok hbs)

theorem tagOf_eq_ok {e : Element} {r : Tag} (h : tagOf e = .ok r) :
    r.name = Text.lower e.tag ∧ r.element = some e.id := by
  obtain ⟨attrs, -, h⟩ := bind_eq_ok.1 h
  cases h
  exact ⟨rfl, rfl⟩

theorem elements_of_tagsOf {root : Element} {tags : List Tag} (h : tagsOf root = .ok tags) :
    tags.map (·.element) = root.ids.map some := by
  rw [tagsOf] at h
  rw [Element.ids, List.map_map]
  have hf := forall₂_of_mapM_eq_ok h
  clear h
  generalize root.preorder = es at hf
  induction hf with
  | nil => rfl
  | cons hb _ ih => rw [List.map_cons, List.map_cons, ih, (tagOf_eq_ok hb).2]; rfl

namespace Mapping

theorem name_ofSource (site : Surroundings) (tag : String) (attrs : Attributes) (i : Imports) :
    (ofSource site tag attrs i).1.name = tag := by
  rw [ofSource]; split <;> rfl

/-- **A result has its tag's name**, whichever handler made it. -/
theorem name_ofTag (site : Surroundings) (table : RenameTable) (r : Tag) (i : Imports) :
    (ofTag site table r i).1.name = r.name := by
  rw [ofTag]
  split
  · rfl
  · unfold ofHyperlink
    split
    · split <;> rfl
    · rfl
  · exact name_ofSource ..
  · unfold ofScript
    split
    · rfl
    · exact name_ofSource ..
  · rfl
  · rfl

theorem names_ofTags (site : Surroundings) (table : RenameTable) : ∀ (tags : List Tag) (i : Imports),
    (ofTags site table tags i).1.map (·.name) = tags.map (·.name)
  | [], _      => rfl
  | r :: rs, i => by
    rw [ofTags, List.map_cons, List.map_cons, name_ofTag, names_ofTags site table rs]

theorem length_results (site : Surroundings) (table : RenameTable) (tags : List Tag) :
    (ofPage site table tags).results.length = tags.length := by
  have h := congrArg List.length (names_ofTags site table tags {})
  rwa [List.length_map, List.length_map] at h

theorem nodup_names_ofSource {site : Surroundings} {tag : String} {attrs : Attributes} {i : Imports}
    (hn : attrs.names.Nodup) : ∀ given, (ofSource site tag attrs i).1.attributes = some given → given.names.Nodup := by
  intro given h
  unfold ofSource at h
  split at h <;> cases h
  · exact Attributes.nodup_names_put _ _ hn
  · exact hn

theorem nodup_names_ofTag (site : Surroundings) (table : RenameTable) (r : Tag) (i : Imports) :
    ∀ given, (ofTag site table r i).1.attributes = some given → given.names.Nodup := by
  have hn : (Attributes.passed table r.attributes).names.Nodup := Attributes.nodup_names_ofList _
  intro given h
  rw [ofTag] at h
  split at h
  · cases h; exact hn
  · unfold ofHyperlink at h
    split at h
    · split at h <;> cases h
      · exact Attributes.nodup_names_ofList _
      · exact hn
    · cases h; exact hn
  · exact nodup_names_ofSource hn given h
  · unfold ofScript at h
    split at h
    · cases h
    · exact nodup_names_ofSource hn given h
  · cases h
  · cases h

theorem mem_ofTags {site : Surroundings} {table : RenameTable} {m : MappedTag} : ∀ {tags : List Tag} {i : Imports},
    m ∈ (ofTags site table tags i).1 → ∃ r ∈ tags, ∃ j, m = (ofTag site table r j).1
  | r :: rs, i, h => by
    rw [ofTags, List.mem_cons] at h
    rcases h with rfl | h
    · exact ⟨r, List.mem_cons_self, i, rfl⟩
    · obtain ⟨r', hr, j, e⟩ := mem_ofTags h
      exact ⟨r', List.mem_cons_of_mem _ hr, j, e⟩

theorem nodup_names_results (site : Surroundings) (table : RenameTable) (tags : List Tag) :
    ∀ m ∈ (ofPage site table tags).results, ∀ given, m.attributes = some given → given.names.Nodup := by
  intro m hm
  obtain ⟨r, -, j, rfl⟩ := mem_ofTags hm
  exact nodup_names_ofTag site table r j

end Mapping

namespace Page

theorem edit_eq_editAt {w : Draft} {r : Tag} {m : MappedTag} {n : Nat} (hr : r.element = some n)
    (hname : m.name = r.name) : w.edit r m = w.editAt n m := by
  rw [Draft.edit, Draft.elementOf?, hr, Draft.editAt, hname]
  cases m.attributes <;> rfl

theorem carryOutFrom_eq_editAll (file : Option String) : ∀ (ns : List Nat) (rs : List Tag) (ms : List MappedTag)
    (index : Nat) (w : Draft), rs.map (·.element) = ns.map some → ms.map (·.name) = rs.map (·.name) →
      carryOutFrom file index rs ms w = editAll ns ms w
  | [], [], [], _, _, _, _                         => rfl
  | n :: ns, r :: rs, m :: ms, index, w, hel, hnames => by
    simp only [List.map_cons, List.cons.injEq] at hel hnames
    rw [carryOutFrom, if_neg (by rw [hnames.1]; exact fun h => h rfl), editAll, edit_eq_editAt hel.1 hnames.1]
    congr 1
    funext v
    exact carryOutFrom_eq_editAll file ns rs ms (index + 1) v hel.2 hnames.2

theorem carryOut_eq_editAll (file : Option String) {root : Element} {tags : List Tag} (h : tagsOf root = .ok tags)
    (site : Surroundings) (table : RenameTable) :
    carryOut file root tags (Mapping.ofPage site table tags).results =
      editAll root.ids (Mapping.ofPage site table tags).results { root } :=
  carryOutFrom_eq_editAll file _ _ _ 0 _ (elements_of_tagsOf h) (Mapping.names_ofTags site table tags {})

theorem length_tagsOf {root : Element} {tags : List Tag} (h : tagsOf root = .ok tags) :
    tags.length = root.preorder.length := by
  have hl := congrArg List.length (elements_of_tagsOf h)
  rwa [List.length_map, List.length_map, Element.length_ids] at hl

/-- **The tree of an applied mapping is the pruned tree.** -/
theorem root_of_carryOut {file : Option String} {root : Element} {tags : List Tag} {site : Surroundings}
    {table : RenameTable} {draft : Draft} (hnd : root.ids.Nodup) (htags : tagsOf root = .ok tags)
    (h : carryOut file root tags (Mapping.ofPage site table tags).results = .ok draft) :
    draft.root = pruned root (Mapping.ofPage site table tags).results := by
  rw [carryOut_eq_editAll file htags] at h
  exact root_of_editAll hnd h

end Page
end ReactSite
