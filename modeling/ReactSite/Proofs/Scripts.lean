import ReactSite.Proofs.Expressions
import ReactSite.Proofs.Survival
/-!
# Scripts — what is read off a document and what is taken out of its tree agree

The style sheets and the scripts of a document are read off its tree before the edits, by tag and attributes.  What
goes is decided tag by tag, from attributes that were renamed.  As long as no attribute is renamed to `src` or away from
it, both decide alike: every element that stays is one of the document with the attributes of its own result
(`exists_of_mem_pruned`), a script without a source never stays, and the scripts that run are the ones that are no
longer there (`moduleText_runs_removed`).
-/
namespace ReactSite
namespace Attributes

theorem mem_names_put {attrs : Attributes} {name value k : String} :
    k ∈ (attrs.put name value).names ↔ k ∈ attrs.names ∨ k = name := by
  rw [names_put]
  split
  · rename_i h
    exact ⟨.inl, fun hk => hk.elim id fun e => e ▸ h⟩
  · rw [List.mem_append, List.mem_singleton]

theorem mem_names_ofList {k : String} (l : List (String × String)) : k ∈ (ofList l).names ↔ k ∈ names l := by
  rw [names_ofList, List.mem_eraseDups]

theorem mem_put {attrs : Attributes} {name value : String} {a : String × String} (h : a ∈ attrs.put name value) :
    a ∈ attrs ∨ a = (name, value) := by
  unfold put at h
  split at h
  · obtain ⟨b, hb, rfl⟩ := List.mem_map.1 h
    split
    · exact .inr rfl
    · exact .inl hb
  · simpa using h

theorem mem_of_mem_ofList {l : List (String × String)} {a : String × String} (h : a ∈ ofList l) : a ∈ l := by
  have hfold : ∀ (l : List (String × String)) (attrs : Attributes),
      a ∈ l.foldl (fun attrs a => attrs.put a.1 a.2) attrs → a ∈ attrs ∨ a ∈ l := by
    intro l
    induction l with
    | nil => exact fun _ h => .inl h
    | cons b l ih =>
      intro attrs h
      rcases ih _ h with h | h
      · refine (mem_put h).imp_right ?_
        rintro rfl
        exact List.mem_cons_self
      · exact .inr (List.mem_cons_of_mem _ h)
  exact (hfold l [] h).resolve_left List.not_mem_nil

theorem isNone_get?_iff {attrs : Attributes} {k : String} : (attrs.get? k).isNone ↔ k ∉ attrs.names := by
  refine ⟨fun h hk => ?_, fun h => by rw [get?_eq_none_of_notMem h]; rfl⟩
  obtain ⟨a, ha, rfl⟩ := List.mem_map.1 hk
  rw [Option.isNone_iff_eq_none, get?, List.lookup_eq_none_iff] at h
  simpa using h a ha

/-- **Renaming leaves an attribute alone** that has no name in the table and is no name in it. -/
theorem mem_names_passed {table : RenameTable} {name : String} (hdrop : isDropped name = false)
    (hlower : Text.lower name = name) (hkey : table.lookup name = none) (hto : ∀ k, table.lookup k ≠ some name)
    (attrs : Attributes) :
    name ∈ (passed table attrs).names ↔ name ∈ attrs.names := by
  rw [passed, mem_names_ofList, names, List.mem_map, names, List.mem_map]
  constructor
  · rintro ⟨b, hb, hname⟩
    obtain ⟨a, ha, rfl⟩ := List.mem_map.1 hb
    refine ⟨a, (List.mem_filter.1 ha).1, ?_⟩
    simp only [renamed] at hname
    cases hl : table.lookup (Text.lower a.1) with
    | none => rwa [hl] at hname
    | some v =>
      rw [hl, Option.getD_some] at hname
      exact absurd (hname ▸ hl) (hto _)
  · rintro ⟨a, ha, rfl⟩
    refine ⟨(a.1, a.2), List.mem_map.2 ⟨a, List.mem_filter.2 ⟨ha, by simp [hdrop]⟩, ?_⟩, rfl⟩
    rw [renamed, hlower, hkey]
    rfl

theorem exists_mem_of_mem_passed {table : RenameTable} {attrs : Attributes} {a : String × String}
    (h : a ∈ passed table attrs) : ∃ b ∈ attrs, b.2 = a.2 := by
  obtain ⟨b, hb, rfl⟩ := List.mem_map.1 (mem_of_mem_ofList h)
  exact ⟨b, (List.mem_filter.1 hb).1, rfl⟩

end Attributes

/-! ## Tags and elements -/

open Element (isStorable)

section

variable {e : Element} {r : Tag}

theorem forall₂_of_tagOf (h : tagOf e = .ok r) :
    List.Forall₂ (fun a b : String × String => b.1 = a.1 ∧ valueUnder e.attributes a.1 = .ok b.2)
      e.attributes r.attributes := by
  obtain ⟨attrs, hattrs, h⟩ := bind_eq_ok.1 h
  cases h
  refine (forall₂_of_mapM_eq_ok hattrs).imp fun a b hab => ?_
  obtain ⟨v, hv, hb⟩ := bind_eq_ok.1 hab
  cases hb
  exact ⟨rfl, hv⟩

theorem names_of_tagOf (h : tagOf e = .ok r) : Attributes.names r.attributes = Attributes.names e.attributes := by
  have hnames : List.Forall₂ (· = ·) (Attributes.names e.attributes) (Attributes.names r.attributes) := by
    rw [Attributes.names, Attributes.names, List.forall₂_map_left_iff, List.forall₂_map_right_iff]
    exact (forall₂_of_tagOf h).imp fun _ _ hab => hab.1.symm
  rw [List.forall₂_eq_eq_eq] at hnames
  exact hnames.symm

theorem exists_mem_of_valueUnder {attrs : Attributes} {name v : String} (h : valueUnder attrs name = .ok v) :
    ∃ a ∈ attrs, a.2 = v := by
  unfold valueUnder at h
  dsimp only at h
  split at h
  · cases h
  · split at h
    -- the attribute is looked up under its own name, or under what is left of it
    iterate 2
      split at h
      · rename_i value hv
        cases h
        exact ⟨_, Attributes.mem_of_get? hv, rfl⟩
      · cases h
    · cases h
    · cases h
    · cases h

theorem exists_of_mem_forall₂ {α β : Type} {R : α → β → Prop} {b : β} : ∀ {l : List α} {l' : List β},
    List.Forall₂ R l l' → b ∈ l' → ∃ a ∈ l, R a b
  | _, _, .nil, hb               => absurd hb List.not_mem_nil
  | _ :: _, _ :: _, .cons hab h, hb => by
    rcases List.mem_cons.1 hb with rfl | hb
    · exact ⟨_, List.mem_cons_self, hab⟩
    · obtain ⟨a, ha, hr⟩ := exists_of_mem_forall₂ h hb
      exact ⟨a, List.mem_cons_of_mem _ ha, hr⟩

theorem exists_mem_of_mem_tagOf (h : tagOf e = .ok r) {b : String × String} (hb : b ∈ r.attributes) :
    ∃ a ∈ e.attributes, a.2 = b.2 := by
  obtain ⟨a, -, -, hv⟩ := exists_of_mem_forall₂ (forall₂_of_tagOf h) hb
  exact exists_mem_of_valueUnder hv

end

namespace Page

open Element (preorderAll idsAll)

/-! ## Where the elements of a pruned tree come from -/

/-- **An element of the tree after the edits** that was `e`, with its result `m`. -/
structure IsRenewed (e : Element) (m : MappedTag) (x : Element) : Prop where
  id_eq : x.id = e.id
  tag_eq : x.tag = renewedTag m e.tag
  attributes_eq : x.attributes = renewedAttributes m e.attributes

theorem preorder_eq (e : Element) : e.preorder = e :: preorderAll e.children := by
  cases e; rw [Element.preorder, Element.children_mk]

theorem mem_preorder_withTail {e x : Element} {tail : String} (h : x ∈ (e.withTail tail).preorder) :
    x = e.withTail tail ∨ x ∈ preorderAll e.children := by
  rw [preorder_eq, List.mem_cons] at h
  refine h.imp_right fun h => ?_
  cases e
  exact h

theorem isRenewed_prune (m : MappedTag) (e : Element) (ms : List MappedTag) (tail : String) :
    IsRenewed e m ((prune m e ms).1.withTail tail) := by
  cases e
  exact ⟨rfl, rfl, rfl⟩

mutual

theorem exists_of_mem_prune (m : MappedTag) {x : Element} : ∀ (e : Element) (ms : List MappedTag),
    (preorderAll e.children).length ≤ ms.length → x ∈ preorderAll (prune m e ms).1.children →
      ∃ p ∈ (preorderAll e.children).zip ms, p.2.attributes.isSome ∧ IsRenewed p.1 p.2 x
  | .mk _ _ _ text es _, ms, hlen, hx => exists_of_mem_pruneAmong es text ms hlen hx

/-- **What stays among siblings has a result that lets it stay**, and looks as that says. -/
theorem exists_of_mem_pruneAmong {x : Element} : ∀ (es : List Element) (text : String) (ms : List MappedTag),
    (preorderAll es).length ≤ ms.length → x ∈ preorderAll (pruneAmong text es ms).1.2 →
      ∃ p ∈ (preorderAll es).zip ms, p.2.attributes.isSome ∧ IsRenewed p.1 p.2 x
  | [], _, _, _, hx          => absurd hx List.not_mem_nil
  | _ :: _, _, [], hlen, _   => by
    rw [length_preorderAll_cons] at hlen
    exact absurd hlen (Nat.not_succ_le_zero _)
  | e :: es, text, m :: ms, hlen, hx => by
    rw [length_preorderAll_cons, List.length_cons] at hlen
    have hzip : (preorderAll (e :: es)).zip (m :: ms) = (e, m) ::
        ((preorderAll e.children).zip ms ++ (preorderAll es).zip (ms.drop (preorderAll e.children).length)) := by
      rw [preorderAll, preorder_eq, List.cons_append, List.zip_cons_cons, zip_append_left]
    have hrest : (preorderAll es).length ≤ (ms.drop (preorderAll e.children).length).length := by
      rw [List.length_drop]; omega
    rw [hzip]
    cases ha : m.attributes with
    | none =>
      rw [pruneAmong_gone text e es ms ha] at hx
      obtain ⟨p, hp, h⟩ := exists_of_mem_pruneAmong es _ _ hrest hx
      exact ⟨p, List.mem_cons_of_mem _ (List.mem_append_right _ hp), h⟩
    | some attrs =>
      rw [pruneAmong_kept text e es ms ha, preorderAll, List.mem_append] at hx
      rcases hx with hx | hx
      · rcases mem_preorder_withTail hx with rfl | hx
        · exact ⟨(e, m), List.mem_cons_self, by rw [ha]; rfl, isRenewed_prune m e ms _⟩
        · obtain ⟨p, hp, h⟩ := exists_of_mem_prune m e ms (by omega) hx
          exact ⟨p, List.mem_cons_of_mem _ (List.mem_append_left _ hp), h⟩
      · rw [prune_snd] at hx
        obtain ⟨p, hp, h⟩ := exists_of_mem_pruneAmong es _ _ hrest hx
        exact ⟨p, List.mem_cons_of_mem _ (List.mem_append_right _ hp), h⟩

end

/-- **Every element of a pruned tree is one of the tree with its result**, and all but the root were let stay. -/
theorem exists_of_mem_pruned {root x : Element} {ms : List MappedTag} (hlen : root.preorder.length = ms.length)
    (hx : x ∈ (pruned root ms).preorder) :
    ∃ p ∈ root.preorder.zip ms, IsRenewed p.1 p.2 x ∧ (p.1 = root ∨ p.2.attributes.isSome) := by
  cases ms with
  | nil => rw [preorder_eq] at hlen; cases hlen
  | cons m ms =>
    rw [preorder_eq root, List.length_cons, List.length_cons] at hlen
    rw [pruned, preorder_eq, List.mem_cons] at hx
    rw [preorder_eq root, List.zip_cons_cons]
    rcases hx with rfl | hx
    · exact ⟨(root, m), List.mem_cons_self, by cases root; exact ⟨rfl, rfl, rfl⟩, .inl rfl⟩
    · obtain ⟨p, hp, hsome, h⟩ := exists_of_mem_prune m root ms (Nat.le_of_succ_le_succ (Nat.le_of_eq hlen)) hx
      exact ⟨p, List.mem_cons_of_mem _ hp, h, .inr hsome⟩

end Page

/-! ## The result of a script or a style sheet -/

theorem exists_mem_zip_of_forall₂ {α β γ : Type} {R : α → β → Prop} {a : α} {c : γ} :
    ∀ {l : List α} {l' : List β} {l'' : List γ}, List.Forall₂ R l l' → (a, c) ∈ l.zip l'' →
      ∃ b, R a b ∧ (b, c) ∈ l'.zip l''
  | _ :: _, _ :: _, _ :: _, .cons hab h, hp => by
    rw [List.zip_cons_cons, List.mem_cons] at hp
    rcases hp with hp | hp
    · obtain ⟨rfl, rfl⟩ := Prod.mk.inj hp
      exact ⟨_, hab, List.mem_cons_self⟩
    · obtain ⟨b, hb, hm⟩ := exists_mem_zip_of_forall₂ h hp
      exact ⟨b, hb, List.mem_cons_of_mem _ hm⟩

namespace Mapping

theorem exists_ofTag_of_mem_zip {site : Surroundings} {table : RenameTable} {r : Tag} {m : MappedTag} :
    ∀ {tags : List Tag} {i : Imports}, (r, m) ∈ tags.zip (ofTags site table tags i).1 →
      ∃ j, m = (ofTag site table r j).1
  | q :: qs, i, h => by
    rw [ofTags, List.zip_cons_cons, List.mem_cons] at h
    rcases h with h | h
    · obtain ⟨rfl, rfl⟩ := Prod.mk.inj h
      exact ⟨i, rfl⟩
    · exact exists_ofTag_of_mem_zip h

variable {site : Surroundings} {table : RenameTable} {e : Element} {r : Tag}

theorem handler?_of_style (h : tagOf e = .ok r) (he : e.tag = "style") : handler? r = some .style := by
  rw [handler?, (tagOf_eq_ok h).1, he]
  rfl

theorem handler?_of_script (h : tagOf e = .ok r) (he : e.tag = "script") : handler? r = some .script := by
  rw [handler?, (tagOf_eq_ok h).1, he]
  rfl

/-- **A style sheet goes.** -/
theorem attributes_ofTag_of_style (h : tagOf e = .ok r) (he : e.tag = "style") (i : Imports) :
    (ofTag site table r i).1.attributes = none := by
  rw [ofTag, handler?_of_style h he]

/-- **A script goes just when it has no source** after the pass. -/
theorem attributes_ofTag_of_script (h : tagOf e = .ok r) (he : e.tag = "script") (i : Imports) :
    (ofTag site table r i).1.attributes = none ↔ "src" ∉ (Attributes.passed table r.attributes).names := by
  rw [ofTag, handler?_of_script h he, ← Attributes.isNone_get?_iff]
  simp only [ofScript]
  split
  · rename_i hn
    exact ⟨fun _ => hn, fun _ => rfl⟩
  · rename_i hn
    refine ⟨fun hnone => ?_, fun hn' => absurd hn' hn⟩
    unfold ofSource at hnone
    split at hnone <;> cases hnone

/-- What a script that stays is given: its attributes after the pass, with an identifier of the page for an internal
source. -/
theorem attributes_of_script_kept {tags : List Tag} {m : MappedTag} {given : Attributes}
    (hp : (r, m) ∈ tags.zip (ofPage site table tags).results) (h : tagOf e = .ok r) (he : e.tag = "script")
    (hm : m.attributes = some given) :
    given = Attributes.passed table r.attributes ∨ ∃ v ∈ (ofPage site table tags).identifiers,
      given = (Attributes.passed table r.attributes).put "src" (Resolution.placeholder v) := by
  have hr := handler?_of_script h he
  cases hl : internalLink? site table "src" r with
  | some link =>
    obtain ⟨v, hv, ha⟩ := results_ofTags (by simp [hasSource, hr]) hl hp
    rw [hm] at ha
    exact .inr ⟨v, (serves_ofTags site table tags).mem_identifiers hv, Option.some.inj ha⟩
  | none =>
    obtain ⟨j, rfl⟩ := exists_ofTag_of_mem_zip hp
    rw [ofTag, hr] at hm
    simp only [ofScript] at hm
    split at hm
    · cases hm
    · unfold ofSource at hm
      split at hm
      · rename_i v k hres
        exact absurd (congrArg Prod.fst hres) ((resolveLink_of_none hl false j).2 v)
      · exact .inl (Option.some.inj hm).symm

end Mapping

namespace Page

theorem isForbidden_of_isWordChar {c : Char} (h : Naming.isWordChar c = true) : Element.isForbidden c = false := by
  have hval : 48 ≤ c.val.toNat ∧ c.val.toNat ≤ 122 := by
    unfold Naming.isWordChar Char.isAlpha Char.isUpper Char.isLower Char.isDigit at h
    simp only [Bool.or_eq_true, decide_eq_true_eq, Bool.and_eq_true, ge_iff_le, UInt32.le_iff_toNat_le] at h
    rcases h with (⟨hl, hu⟩ | ⟨hl, hu⟩) | ⟨hl, hu⟩ <;>
      exact ⟨Nat.le_trans (by decide) hl, Nat.le_trans hu (by decide)⟩
  have hlow : ¬ c.val < 0x20 := by
    rw [UInt32.lt_iff_toNat_lt]
    exact Nat.not_lt.2 (Nat.le_trans (by decide) hval.1)
  have hne : ∀ n : UInt32, 122 < n.toNat → c.val ≠ n := fun n hn e => by rw [e] at hval; omega
  simp [Element.isForbidden, hlow, hne 0xfffe (by decide), hne 0xffff (by decide)]

theorem isStorable_placeholder {v : String} (h : Naming.IsIdentifier v) :
    isStorable (Resolution.placeholder v) = true := by
  rw [isStorable, List.all_eq_true]
  intro c hc
  rw [Resolution.placeholder, String.toList_append, String.toList_append, List.mem_append, List.mem_append] at hc
  rcases hc with (hc | hc) | hc
  · obtain rfl := List.mem_singleton.1 hc
    decide
  · rcases h.mem c hc with hw | rfl
    · rw [isForbidden_of_isWordChar hw]; rfl
    · decide
  · obtain rfl := List.mem_singleton.1 hc
    decide

theorem mem_names_storedAttributes {attrs : Attributes} {name : String} (hname : storedName? name = some name)
    (h : name ∈ attrs.names) (hs : ∀ a ∈ attrs, isStorable a.2 = true) : name ∈ (storedAttributes attrs).names := by
  obtain ⟨a, ha, rfl⟩ := List.mem_map.1 h
  rw [storedAttributes, Attributes.mem_names_ofList]
  refine List.mem_map.2 ⟨(a.1, a.2), List.mem_filterMap.2 ⟨a, ha, ?_⟩, rfl⟩
  rw [hname]
  simp only [hs a ha, if_true]

theorem tag_of_renewedTag {m : MappedTag} {tag tag' : String} (h : renewedTag m tag = tag')
    (hne : tag' ≠ Mapping.navigationTag) : tag = tag' := by
  unfold renewedTag at h
  split at h
  · exact absurd h.symm hne
  · exact h

/-! ## The page -/

theorem tag_numbered (root : Element) : root.numbered.tag = root.tag := by
  cases root; rfl

section

variable {root : Element} {site : Surroundings} {table : RenameTable} {tags : List Tag}
variable (htags : tagsOf root.numbered = .ok tags)
include htags

/-- **An element that stays**, with the element of the document it was, its tag and its result. -/
theorem exists_of_mem_carryOut {file : Option String} {draft : Draft}
    (hd : carryOut file root.numbered tags (Mapping.ofPage site table tags).results = .ok draft) {x : Element}
    (hx : x ∈ draft.root.preorder) :
    ∃ e r m, e ∈ root.numbered.preorder ∧ tagOf e = .ok r ∧ (r, m) ∈ tags.zip (Mapping.ofPage site table tags).results ∧
      IsRenewed e m x ∧ (e = root.numbered ∨ m.attributes.isSome) := by
  rw [root_of_carryOut (Element.nodup_ids_numbered root) htags hd] at hx
  obtain ⟨⟨e, m⟩, hp, hx, hstays⟩ :=
    exists_of_mem_pruned (by rw [Mapping.length_results, length_tagsOf htags]) hx
  obtain ⟨r, hr, hrm⟩ := exists_mem_zip_of_forall₂ (forall₂_of_mapM_eq_ok htags) hp
  exact ⟨e, r, m, (List.of_mem_zip hp).1, hr, hrm, hx, hstays⟩

variable (hscript : root.tag ≠ "script") (hstyle : root.tag ≠ "style") (hkey : table.lookup "src" = none)
  (hto : ∀ k, table.lookup k ≠ some "src")

include hscript hkey hto in
/-- **A script without a source does not stay.** -/
theorem id_notMem_of_isInlineScript {file : Option String} {draft : Draft}
    (hd : carryOut file root.numbered tags (Mapping.ofPage site table tags).results = .ok draft) {e : Element}
    (he : e ∈ root.numbered.preorder) (hinline : isInlineScript e = true) : e.id ∉ draft.root.ids := by
  intro hid
  obtain ⟨x, hx, hxid⟩ := List.mem_map.1 hid
  obtain ⟨e', r, m, he', hr, hrm, hrenewed, hstays⟩ := exists_of_mem_carryOut htags hd hx
  -- identities stand once, so it is the element itself that stayed
  obtain rfl : e' = e := List.inj_on_of_nodup_map (Element.nodup_ids_numbered root) he' he
    (hrenewed.id_eq.symm.trans hxid)
  simp only [isInlineScript, Bool.and_eq_true, decide_eq_true_eq] at hinline
  obtain ⟨⟨htag, hsource⟩, -⟩ := hinline
  rw [Attributes.isNone_get?_iff, ← names_of_tagOf hr, ← Attributes.mem_names_passed rfl rfl hkey hto] at hsource
  obtain ⟨j, rfl⟩ := Mapping.exists_ofTag_of_mem_zip hrm
  rcases hstays with rfl | hstays
  · exact hscript (tag_numbered root ▸ htag)
  · rw [(Mapping.attributes_ofTag_of_script hr htag j).2 hsource] at hstays
    cases hstays

include hstyle in
/-- **A style sheet does not stay.** -/
theorem tag_ne_style {file : Option String} {draft : Draft}
    (hd : carryOut file root.numbered tags (Mapping.ofPage site table tags).results = .ok draft) {x : Element}
    (hx : x ∈ draft.root.preorder) : x.tag ≠ "style" := by
  intro htag
  obtain ⟨e, r, m, -, hr, hrm, hrenewed, hstays⟩ := exists_of_mem_carryOut htags hd hx
  have he : e.tag = "style" := tag_of_renewedTag (hrenewed.tag_eq.symm.trans htag) (by decide)
  obtain ⟨j, rfl⟩ := Mapping.exists_ofTag_of_mem_zip hrm
  rcases hstays with rfl | hstays
  · exact hstyle (tag_numbered root ▸ he)
  · rw [Mapping.attributes_ofTag_of_style hr he j] at hstays
    cases hstays

include hscript in
/-- **A script that stays has its source still**, when the tree accepts the values of the document. -/
theorem isSome_source {file : Option String} {draft : Draft}
    (hd : carryOut file root.numbered tags (Mapping.ofPage site table tags).results = .ok draft)
    (hvalues : ∀ e ∈ root.numbered.preorder, ∀ a ∈ e.attributes, isStorable a.2 = true) {x : Element}
    (hx : x ∈ draft.root.preorder) (htag : x.tag = "script") : (x.attributes.get? "src").isSome := by
  obtain ⟨e, r, m, he, hr, hrm, hrenewed, hstays⟩ := exists_of_mem_carryOut htags hd hx
  have hetag : e.tag = "script" := tag_of_renewedTag (hrenewed.tag_eq.symm.trans htag) (by decide)
  have hsome : m.attributes.isSome := hstays.resolve_left fun h => hscript (tag_numbered root ▸ h ▸ hetag)
  obtain ⟨given, hgiven⟩ := Option.isSome_iff_exists.1 hsome
  have hsource : "src" ∈ (Attributes.passed table r.attributes).names := by
    obtain ⟨j, rfl⟩ := Mapping.exists_ofTag_of_mem_zip hrm
    by_contra hn
    rw [(Mapping.attributes_ofTag_of_script hr hetag j).2 hn] at hgiven
    cases hgiven
  have hpassed : ∀ a ∈ Attributes.passed table r.attributes, isStorable a.2 = true := by
    intro a ha
    obtain ⟨b, hb, hba⟩ := Attributes.exists_mem_of_mem_passed ha
    obtain ⟨c, hc, hcb⟩ := exists_mem_of_mem_tagOf hr hb
    rw [← hba, ← hcb]
    exact hvalues e he c hc
  have hstored : "src" ∈ (storedAttributes given).names := by
    rcases Mapping.attributes_of_script_kept hrm hr hetag hgiven with rfl | ⟨v, hv, rfl⟩
    · exact mem_names_storedAttributes rfl hsource hpassed
    · refine mem_names_storedAttributes rfl (Attributes.mem_names_put.2 (.inr rfl)) fun a ha => ?_
      rcases Attributes.mem_put ha with ha | rfl
      · exact hpassed a ha
      · exact isStorable_placeholder (Mapping.isIdentifier_of_mem v hv)
  rw [hrenewed.attributes_eq, renewedAttributes, hgiven]
  refine Option.isSome_iff_ne_none.2 fun hnone => ?_
  exact Attributes.isNone_get?_iff.1 (Option.isNone_iff_eq_none.2 hnone) hstored

end

/-- A script of the document that is no longer in what is left of its tree, that has no source, and whose type is a
script type. -/
def isRemovedScript (left : Element) (e : Element) : Bool :=
  e.tag = "script" && e.id ∉ left.ids && (e.attributes.get? "src").isNone &&
    scriptTypes.contains (Text.lower (Text.trim ((e.attributes.get? "type").getD "")))

/-- **What is read off a document and what is taken out of it agree.**  No style sheet and no script without a source
stays; the scripts that the page runs, line breaks around them aside, are in document order the ones that were removed,
had no source, have a script type and are not blank; a script that stays is not run; and the head component gets the
texts of all style sheets that are not blank, in document order. -/
theorem moduleText_runs_removed (root : Element) (xhtml : Bool) (site : Surroundings) (table : RenameTable)
    (tags : List Tag) (name : String) (file : Option String) (htags : tagsOf root.numbered = .ok tags)
    (hscript : root.tag ≠ "script") (hstyle : root.tag ≠ "style") (hkey : table.lookup "src" = none)
    (hto : ∀ k, table.lookup k ≠ some "src")
    (hvalues : ∀ e ∈ root.numbered.preorder, ∀ a ∈ e.attributes, isStorable a.2 = true) :
    (root.numbered.textsStorable = true → ∃ text,
      moduleText ⟨root.numbered, xhtml⟩ tags (Mapping.ofPage site table tags) name file = .ok text) ∧
    ∀ draft, carryOut file root.numbered tags (Mapping.ofPage site table tags).results = .ok draft →
      (∀ x ∈ draft.root.preorder, x.tag ≠ "style" ∧ (x.tag = "script" → (x.attributes.get? "src").isSome)) ∧
      (∀ e ∈ root.numbered.preorder, isInlineScript e = true → e.id ∉ draft.root.ids) ∧
      ∀ text, moduleText ⟨root.numbered, xhtml⟩ tags (Mapping.ofPage site table tags) name file = .ok text →
        ∃ scripts styles head, scripts = ((root.numbered.preorder.filter (isRemovedScript draft.root)).map
            (·.text)).filter (!Text.isBlankText ·) ∧
          styles = ((root.numbered.preorder.filter (·.tag = "style")).map (·.text)).filter (!Text.isBlankText ·) ∧
          head = headSection xhtml (escapeTexts draft.root) styles ∧
          text = render ((if scripts.isEmpty then reactImport else effectImport) ::
              (if head = "" then [] else [helmetImport]) ++ (Mapping.ofPage site table tags).imports) name
            ((Mapping.ofPage site table tags).identifiers.foldl unquote
              (head ++ bodySection xhtml (escapeTexts draft.root)))
            (if scripts.isEmpty then "" else effectBlock scripts) := by
  constructor
  · intro hs
    obtain ⟨draft, hd, hstorable⟩ := carryOut_eq_ok file htags hs site table
    have hmodule : moduleText ⟨root.numbered, xhtml⟩ tags (Mapping.ofPage site table tags) name file = _ :=
      moduleText_eq hd (textsStorable_escapeTexts _ hstorable) name
    exact ⟨_, hmodule⟩
  intro draft hd
  refine ⟨fun x hx => ⟨tag_ne_style htags hstyle hd hx, isSome_source htags hscript hd hvalues hx⟩,
    fun e he hinline => id_notMem_of_isInlineScript htags hscript hkey hto hd he hinline, fun text htext => ?_⟩
  have hremoved : root.numbered.preorder.filter (isRemovedScript draft.root) =
      root.numbered.preorder.filter isInlineScript := by
    refine List.filter_congr fun e he => ?_
    have hgone : isInlineScript e = true → e.id ∉ draft.root.ids :=
      id_notMem_of_isInlineScript htags hscript hkey hto hd he
    rw [Bool.eq_iff_iff]
    simp only [isRemovedScript, isInlineScript, Bool.and_eq_true, decide_eq_true_eq] at hgone ⊢
    exact ⟨fun h => ⟨⟨h.1.1.1, h.1.2⟩, h.2⟩, fun h => ⟨⟨⟨h.1.1, hgone h⟩, h.1.2⟩, h.2⟩⟩
  have hmodule : moduleText ⟨root.numbered, xhtml⟩ tags (Mapping.ofPage site table tags) name file = _ :=
    moduleText_eq hd (textsStorable_of_moduleText hd htext) name
  refine ⟨_, _, _, rfl, rfl, rfl, ?_⟩
  rw [hremoved]
  exact Except.ok.inj (htext.symm.trans hmodule)

/-- A page with a style sheet, a script, data, a script of the site, and a script inside a style sheet. -/
def scriptedPage : Element :=
  .mk 0 "html" [] "" [
    .mk 0 "head" [] "" [.mk 0 "style" [] "p" [] ""] "",
    .mk 0 "body" [("class", "k")] "" [
      .mk 0 "script" [("type", " Text/JavaScript ")] "\ngo()\n" [] "a",
      .mk 0 "script" [("type", "text/plain")] "data" [] "b",
      .mk 0 "script" [("src", "app.js")] "far()" [] "c",
      .mk 0 "style" [] " " [.mk 0 "script" [] "on()" [] ""] ""] ""] ""

theorem moduleText_runs_removed_scriptedPage : ∃ tags text, tagsOf scriptedPage.numbered = .ok tags ∧
    moduleText ⟨scriptedPage.numbered, false⟩ tags
      (Mapping.ofPage ⟨.empty, ⟨1, ["site"]⟩, ""⟩ [("class", "className")] tags) "Page" none = .ok text ∧
    text = render [effectImport, helmetImport] "Page"
      ("<Helmet>" ++ styleBlock ["p"] ++ "</Helmet>ab<script src=\"app.js\">far()</script>c")
      (effectBlock ["\ngo()\n", "on()"]) := by
  obtain ⟨hok, hall⟩ := moduleText_runs_removed scriptedPage false ⟨.empty, ⟨1, ["site"]⟩, ""⟩ [("class", "className")] _
    "Page" none rfl (by decide) (by decide) rfl
    (fun k h => by rw [List.lookup_cons] at h; split at h <;> simp at h) (by decide)
  obtain ⟨text, htext⟩ := hok (by decide)
  obtain ⟨-, -, hmodule⟩ := hall _ rfl
  obtain ⟨scripts, styles, head, rfl, rfl, rfl, h⟩ := hmodule text htext
  exact ⟨_, text, rfl, htext, h⟩

/-- A script of the site inside a style sheet. -/
def shelteredScript : Element :=
  .mk 0 "html" [] "" [.mk 0 "body" [] "" [
    .mk 0 "style" [] "" [.mk 0 "script" [("src", "x.js")] "go()" [] ""] ""] ""] ""

/-- **A script with a source may be removed and not run**: it goes with what it stands in. -/
theorem removed_not_run : ∃ tags draft text, tagsOf shelteredScript.numbered = .ok tags ∧
    carryOut none shelteredScript.numbered tags (Mapping.ofPage ⟨.empty, ⟨1, ["site"]⟩, ""⟩ [] tags).results = .ok draft ∧
    moduleText ⟨shelteredScript.numbered, false⟩ tags (Mapping.ofPage ⟨.empty, ⟨1, ["site"]⟩, ""⟩ [] tags) "Page" none =
      .ok text ∧
    (∃ e ∈ shelteredScript.numbered.preorder, e.tag = "script" ∧ e.id ∉ draft.root.ids ∧ e.attributes.get? "type" = none ∧
      e.text = "go()" ∧ Text.isBlankText e.text = false) ∧
    ¬ "go()".toList <:+: text.toList :=
  ⟨_, _, _, rfl, rfl, rfl,
    ⟨_, .tail _ (.tail _ (.tail _ (.head _))), by decide, by decide, by decide, by decide, by decide⟩,
    by decide +kernel⟩

end Page
end ReactSite
