import ReactSite.Proofs.Demands
import ReactSite.Proofs.Statements
/-!
# Importing — a document imports what its tags demand, each once

While demands are met, the statements of a page are those that its bindings, the demand for the navigation component and
the demands for effects call for (`Imports.Serves`): each demand keeps that up (`Serves.meet`), so it holds at the end of
a mapping.  Since the three kinds of statements cannot be mistaken for each other, the imports of a mapped document can
be read off its tags (`Mapping.ofPage_importsDemanded`).
-/
namespace ReactSite

open Naming (IsIdentifier)

/-- The name an asset is demanded under can be used as an identifier. -/
def Demand.IsProper : Demand → Prop
  | .asset _ name => IsIdentifier name
  | _             => True

/-- **The statements that demands call for**, assets being bound as they are. -/
def Statement.IsDue (bindings : List (String × String)) (ds : List Demand) : Statement → Prop
  | .navigation => .navigation ∈ ds
  | .value v s  => (s, v) ∈ bindings
  | .effect s   => .effect s ∈ ds

namespace Imports

/-- **The imports of a page that meet demands**, and hold nothing else. -/
structure Serves (i : Imports) (ds : List Demand) : Prop where
  nodup_statements : i.statements.Nodup
  nodup_identifiers : i.identifiers.Nodup
  identifiers_eq : i.identifiers = i.bindings.map (·.2)
  nodup_specifiers : (Attributes.names i.bindings).Nodup
  isIdentifier : ∀ v ∈ i.identifiers, IsIdentifier v
  bound_iff : ∀ s, s ∈ Attributes.names i.bindings ↔ ∃ name, .asset s name ∈ ds
  navigation_iff : i.navigation = true ↔ .navigation ∈ ds
  mem_iff : ∀ t, t ∈ i.statements ↔ ∃ u : Statement, u.IsDue i.bindings ds ∧ u.text = t

theorem Serves.empty : Serves {} [] where
  nodup_statements := List.nodup_nil
  nodup_identifiers := List.nodup_nil
  identifiers_eq := rfl
  nodup_specifiers := List.nodup_nil
  isIdentifier v h := absurd h List.not_mem_nil
  bound_iff s := by simp [Attributes.names]
  navigation_iff := by simp
  mem_iff t := by
    refine ⟨fun h => absurd h List.not_mem_nil, ?_⟩
    rintro ⟨u | ⟨v, s⟩ | s, h, -⟩ <;> exact absurd h List.not_mem_nil

theorem mem_iff_add {i j : Imports} {ds ds' : List Demand} {u : Statement}
    (h : ∀ t, t ∈ i.statements ↔ ∃ w : Statement, w.IsDue i.bindings ds ∧ w.text = t) (hst : j.statements = i.statements)
    (hdue : ∀ w : Statement, w.IsDue j.bindings ds' ↔ w.IsDue i.bindings ds ∨ w = u) (t : String) :
    t ∈ (j.add u.text).statements ↔ ∃ w : Statement, w.IsDue (j.add u.text).bindings ds' ∧ w.text = t := by
  rw [mem_statements_add, bindings_add, hst, h]
  constructor
  · rintro (⟨w, hw, rfl⟩ | rfl)
    · exact ⟨w, (hdue w).2 (.inl hw), rfl⟩
    · exact ⟨u, (hdue u).2 (.inr rfl), rfl⟩
  · rintro ⟨w, hw, rfl⟩
    rcases (hdue w).1 hw with hw | rfl
    · exact .inl ⟨w, hw, rfl⟩
    · exact .inr rfl

theorem Serves.meet_navigation {i : Imports} {ds : List Demand} (h : i.Serves ds) :
    (i.meet .navigation).Serves (ds ++ [.navigation]) := by
  have hdue : ∀ w : Statement, w.IsDue i.bindings (ds ++ [.navigation]) ↔ w.IsDue i.bindings ds ∨ w = .navigation := by
    rintro (_ | ⟨v, s⟩ | s) <;> simp [Statement.IsDue]
  have hbound : ∀ s, s ∈ Attributes.names i.bindings ↔ ∃ name, .asset s name ∈ ds ++ [.navigation] := by
    intro s
    rw [h.bound_iff s]; simp
  rw [meet, Mapping.importNavigation]
  split
  · rename_i hflag
    have hin := h.navigation_iff.1 hflag
    refine { h with bound_iff := hbound, navigation_iff := by simp [hflag], mem_iff := fun t => ?_ }
    rw [h.mem_iff]
    refine exists_congr fun w => and_congr_left fun _ => ?_
    rw [hdue w]
    refine ⟨.inl, fun hw => hw.elim id ?_⟩
    rintro rfl
    exact hin
  · exact {
      nodup_statements := nodup_statements_add _ h.nodup_statements
      nodup_identifiers := by simpa using h.nodup_identifiers
      identifiers_eq := by simpa using h.identifiers_eq
      nodup_specifiers := by simpa using h.nodup_specifiers
      isIdentifier := by simpa using h.isIdentifier
      bound_iff := by simpa using hbound
      navigation_iff := by simp
      mem_iff := mem_iff_add (u := .navigation) h.mem_iff rfl hdue }

theorem Serves.meet_effect {i : Imports} {ds : List Demand} (h : i.Serves ds) (s : String) :
    (i.meet (.effect s)).Serves (ds ++ [.effect s]) where
  nodup_statements := nodup_statements_add _ h.nodup_statements
  nodup_identifiers := by rw [meet, identifiers_add]; exact h.nodup_identifiers
  identifiers_eq := by rw [meet, identifiers_add, bindings_add]; exact h.identifiers_eq
  nodup_specifiers := by rw [meet, bindings_add]; exact h.nodup_specifiers
  isIdentifier := by rw [meet, identifiers_add]; exact h.isIdentifier
  bound_iff s' := by rw [meet, bindings_add, h.bound_iff]; simp
  navigation_iff := by rw [meet, navigation_add, h.navigation_iff]; simp
  mem_iff := mem_iff_add (u := .effect s) h.mem_iff rfl (by rintro (_ | ⟨v, s'⟩ | s') <;> simp [Statement.IsDue])

theorem Serves.meet_asset {i : Imports} {ds : List Demand} (h : i.Serves ds) (s name : String) (hname : IsIdentifier name) :
    (i.meet (.asset s name)).Serves (ds ++ [.asset s name]) := by
  have hbound : ∀ s', (∃ name', Demand.asset s' name' ∈ ds ++ [.asset s name]) ↔
      s' ∈ Attributes.names i.bindings ∨ s' = s := by
    intro s'
    rw [h.bound_iff]
    constructor
    · rintro ⟨name', hm⟩
      rcases List.mem_append.1 hm with hm | hm
      · exact .inl ⟨name', hm⟩
      · cases List.mem_singleton.1 hm; exact .inr rfl
    · rintro (⟨name', hm⟩ | rfl)
      · exact ⟨name', List.mem_append_left _ hm⟩
      · exact ⟨name, List.mem_append_right _ (List.mem_singleton_self _)⟩
  rw [meet]
  rcases identify_cases i s name with ⟨v, hv, e⟩ | ⟨hs, e⟩
  · rw [e]
    have hmem : s ∈ Attributes.names i.bindings := List.mem_map_of_mem hv
    exact {
      nodup_statements := nodup_statements_add _ h.nodup_statements
      nodup_identifiers := by rw [identifiers_add]; exact h.nodup_identifiers
      identifiers_eq := by rw [identifiers_add, bindings_add]; exact h.identifiers_eq
      nodup_specifiers := by rw [bindings_add]; exact h.nodup_specifiers
      isIdentifier := by rw [identifiers_add]; exact h.isIdentifier
      bound_iff := fun s' => by
        rw [bindings_add, hbound]
        exact ⟨.inl, fun hs' => hs'.elim id fun e => e ▸ hmem⟩
      navigation_iff := by rw [navigation_add, h.navigation_iff]; simp
      mem_iff := mem_iff_add (u := .value v s) h.mem_iff rfl (by
        rintro (_ | ⟨v', s'⟩ | s')
        · simp [Statement.IsDue]
        · refine ⟨.inl, fun hw => hw.elim id fun e => ?_⟩
          cases e; exact hv
        · simp [Statement.IsDue]) }
  · rw [e]
    exact {
      nodup_statements := nodup_statements_add _ h.nodup_statements
      nodup_identifiers := by
        rw [identifiers_add, ← List.concat_eq_append]
        exact h.nodup_identifiers.concat (freshName_notMem _ _)
      identifiers_eq := by rw [identifiers_add, bindings_add]; simp [h.identifiers_eq]
      nodup_specifiers := by
        rw [bindings_add, Attributes.names, List.map_append, List.map_singleton, ← List.concat_eq_append]
        exact h.nodup_specifiers.concat hs
      isIdentifier := fun v hv => by
        rw [identifiers_add] at hv
        rcases List.mem_append.1 hv with hv | hv
        · exact h.isIdentifier v hv
        · rw [List.mem_singleton.1 hv]; exact isIdentifier_freshName hname _
      bound_iff := fun s' => by
        rw [bindings_add, hbound, Attributes.names, List.map_append, List.mem_append]
        exact or_congr_right List.mem_singleton
      navigation_iff := by rw [navigation_add]; simp [h.navigation_iff]
      mem_iff := mem_iff_add (u := .value (freshName i.identifiers name) s) h.mem_iff rfl (by
        rintro (_ | ⟨v', s'⟩ | s')
        · simp [Statement.IsDue]
        · simp [Statement.IsDue, and_comm]
        · simp [Statement.IsDue]) }

/-- **Meeting a demand meets it**, and keeps up the others. -/
theorem Serves.meet {i : Imports} {ds : List Demand} (h : i.Serves ds) {d : Demand} (hd : d.IsProper) :
    (i.meet d).Serves (ds ++ [d]) := by
  cases d with
  | navigation => exact h.meet_navigation
  | asset s name => exact h.meet_asset s name hd
  | effect s => exact h.meet_effect s

theorem Serves.foldl_meet : ∀ {es ds : List Demand} {i : Imports}, i.Serves ds → (∀ d ∈ es, d.IsProper) →
    (es.foldl Imports.meet i).Serves (ds ++ es)
  | [], ds, _, h, _       => by rwa [List.append_nil]
  | d :: es, ds, i, h, he => by
    have hrest := (h.meet (he d List.mem_cons_self)).foldl_meet fun e hm => he e (List.mem_cons_of_mem _ hm)
    rwa [List.append_assoc, List.singleton_append] at hrest

theorem Serves.mem_identifiers {i : Imports} {ds : List Demand} (h : i.Serves ds) {s v : String}
    (hb : (s, v) ∈ i.bindings) : v ∈ i.identifiers := by
  rw [h.identifiers_eq]
  exact List.mem_map_of_mem hb

theorem Serves.isProper {i : Imports} {ds : List Demand} (h : i.Serves ds) {u : Statement} (hu : u.IsDue i.bindings ds) :
    u.IsProper := by
  cases u with
  | navigation => trivial
  | effect s => trivial
  | value v s => exact h.isIdentifier v (h.mem_identifiers hu)

theorem Serves.text_mem_iff {i : Imports} {ds : List Demand} (h : i.Serves ds) {u : Statement} (hu : u.IsProper) :
    u.text ∈ i.statements ↔ u.IsDue i.bindings ds := by
  rw [h.mem_iff]
  refine ⟨?_, fun hdue => ⟨u, hdue, rfl⟩⟩
  rintro ⟨w, hw, e⟩
  rwa [← Statement.text_injective (h.isProper hw) hu e]

theorem Serves.exists_specifier {i : Imports} {ds : List Demand} (h : i.Serves ds) {v : String}
    (hv : v ∈ i.identifiers) : ∃ s, (s, v) ∈ i.bindings := by
  rw [h.identifiers_eq] at hv
  obtain ⟨⟨s, _⟩, hb, rfl⟩ := List.mem_map.1 hv
  exact ⟨s, hb⟩

theorem Serves.valueImport_mem_iff {i : Imports} {ds : List Demand} (h : i.Serves ds) {v : String}
    (hv : v ∈ i.identifiers) (s : String) : valueImport v s ∈ i.statements ↔ (s, v) ∈ i.bindings :=
  h.text_mem_iff (u := .value v s) (h.isIdentifier v hv)

theorem Serves.eq_specifier {i : Imports} {ds : List Demand} (h : i.Serves ds) {s s' v : String}
    (hs : (s, v) ∈ i.bindings) (hs' : (s', v) ∈ i.bindings) : s = s' := by
  have hn := h.nodup_identifiers
  rw [h.identifiers_eq] at hn
  exact congrArg Prod.fst (List.inj_on_of_nodup_map hn hs hs' rfl)

theorem Serves.eq_identifier {i : Imports} {ds : List Demand} (h : i.Serves ds) {s v v' : String}
    (hv : (s, v) ∈ i.bindings) (hv' : (s, v') ∈ i.bindings) : v = v' :=
  congrArg Prod.snd (List.inj_on_of_nodup_map h.nodup_specifiers hv hv' rfl)

end Imports

/-! ## A mapped document -/

namespace Mapping

/-- **The imports of a mapped document are what its tags demand**, each once. -/
structure ImportsDemanded (site : Surroundings) (table : RenameTable) (tags : List Tag) (o : Outcome) : Prop where
  names_results : o.results.map (·.name) = tags.map (·.name)
  nodup_imports : o.imports.Nodup
  nodup_identifiers : o.identifiers.Nodup
  /-- The navigation component is imported once when a hyperlink is internal, and otherwise not at all. -/
  count_navigation : o.imports.count navigationImport =
    if ∃ r ∈ tags, handler? r = some .hyperlink ∧ (internalLink? site table "href" r).isSome then 1 else 0
  /-- An identifier is imported by one statement, -/
  unique_specifier : ∀ v ∈ o.identifiers, ∃! s, valueImport v s ∈ o.imports
  /-- and a file under one identifier. -/
  unique_identifier : ∀ v ∈ o.identifiers, ∀ w ∈ o.identifiers, ∀ s,
    valueImport v s ∈ o.imports → valueImport w s ∈ o.imports → v = w
  /-- An image or script with an internal source has the identifier of its asset in the place of the source. -/
  source : ∀ p ∈ tags.zip o.results, hasSource p.1 → ∀ link, internalLink? site table "src" p.1 = some link →
    ∃ v ∈ o.identifiers, valueImport v (Naming.specifier link site.directory) ∈ o.imports ∧
      p.2.attributes = some ((Attributes.passed table p.1.attributes).put "src" (Resolution.placeholder v))
  /-- There is such an image or script for every identifier. -/
  used : ∀ v ∈ o.identifiers, ∃ p ∈ tags.zip o.results, hasSource p.1 ∧
    ∃ link, internalLink? site table "src" p.1 = some link ∧
      valueImport v (Naming.specifier link site.directory) ∈ o.imports ∧
      p.2.attributes = some ((Attributes.passed table p.1.attributes).put "src" (Resolution.placeholder v))
  stylesheet : ∀ r ∈ tags, handler? r = some .stylesheet → ∀ link, internalLink? site table "href" r = some link →
    effectImport (Naming.specifier link site.directory) ∈ o.imports
  /-- Nothing else is imported. -/
  only : ∀ t ∈ o.imports, t = navigationImport ∨ (∃ v ∈ o.identifiers, ∃ s, t = valueImport v s) ∨
    ∃ r ∈ tags, handler? r = some .stylesheet ∧ ∃ link, internalLink? site table "href" r = some link ∧
      t = effectImport (Naming.specifier link site.directory)

theorem isProper_of_demand? {site : Surroundings} {table : RenameTable} {r : Tag} {d : Demand}
    (h : demand? site table r = some d) : d.IsProper := by
  cases d with
  | navigation => trivial
  | effect s => trivial
  | asset s name =>
    obtain ⟨-, link, -, -, rfl⟩ := demand?_eq_asset.1 h
    exact Naming.isIdentifier_identifier link

theorem serves_ofTags (site : Surroundings) (table : RenameTable) (tags : List Tag) :
    (ofTags site table tags {}).2.Serves (tags.filterMap (demand? site table)) := by
  rw [imports_ofTags]
  refine Imports.Serves.empty.foldl_meet fun d hd => ?_
  obtain ⟨r, -, hr⟩ := List.mem_filterMap.1 hd
  exact isProper_of_demand? hr

theorem exists_mem_zip {α β : Type} {a : α} : ∀ {l : List α} {l' : List β}, l.length = l'.length → a ∈ l →
    ∃ b, (a, b) ∈ l.zip l'
  | x :: l, y :: l', hlen, h => by
    rcases List.mem_cons.1 h with rfl | h
    · exact ⟨y, List.mem_cons_self⟩
    · obtain ⟨b, hb⟩ := exists_mem_zip (Nat.succ.inj hlen) h
      exact ⟨b, List.mem_cons_of_mem _ hb⟩

theorem ofPage_eq (site : Surroundings) (table : RenameTable) (tags : List Tag) :
    ofPage site table tags = ⟨(ofTags site table tags {}).1, (ofTags site table tags {}).2.statements,
      (ofTags site table tags {}).2.identifiers⟩ := rfl

theorem ofPage_importsDemanded (site : Surroundings) (table : RenameTable) (tags : List Tag) :
    ImportsDemanded site table tags (ofPage site table tags) := by
  have hs := serves_ofTags site table tags
  have hdemand : ∀ d, d ∈ tags.filterMap (demand? site table) ↔ ∃ r ∈ tags, demand? site table r = some d :=
    fun d => List.mem_filterMap
  -- a tag with an internal source, its result, and the identifier between them
  have hsource : ∀ p ∈ tags.zip (ofTags site table tags {}).1, hasSource p.1 → ∀ link,
      internalLink? site table "src" p.1 = some link →
      ∃ v, (Naming.specifier link site.directory, v) ∈ (ofTags site table tags {}).2.bindings ∧
        p.2.attributes = some ((Attributes.passed table p.1.attributes).put "src" (Resolution.placeholder v)) :=
    fun p hp hr link hl => results_ofTags hr hl hp
  rw [ofPage_eq]
  exact {
    names_results := names_ofTags site table tags {}
    nodup_imports := hs.nodup_statements
    nodup_identifiers := hs.nodup_identifiers
    count_navigation := by
      have hiff : navigationImport ∈ (ofTags site table tags {}).2.statements ↔
          ∃ r ∈ tags, handler? r = some .hyperlink ∧ (internalLink? site table "href" r).isSome := by
        rw [show navigationImport = Statement.navigation.text from rfl, hs.text_mem_iff (u := .navigation) trivial,
          Statement.IsDue, hdemand]
        exact exists_congr fun r => and_congr_right fun _ => demand?_eq_navigation
      split
      · rename_i h
        exact List.count_eq_one_of_mem hs.nodup_statements (hiff.2 h)
      · rename_i h
        exact List.count_eq_zero.2 fun hm => h (hiff.1 hm)
    unique_specifier := fun v hv => by
      obtain ⟨s, hb⟩ := hs.exists_specifier hv
      exact ⟨s, (hs.valueImport_mem_iff hv s).2 hb,
        fun s' hs' => hs.eq_specifier ((hs.valueImport_mem_iff hv s').1 hs') hb⟩
    unique_identifier := fun v hv w hw s hvs hws =>
      hs.eq_identifier ((hs.valueImport_mem_iff hv s).1 hvs) ((hs.valueImport_mem_iff hw s).1 hws)
    source := fun p hp hr link hl => by
      obtain ⟨v, hb, ha⟩ := hsource p hp hr link hl
      exact ⟨v, hs.mem_identifiers hb, (hs.valueImport_mem_iff (hs.mem_identifiers hb) _).2 hb, ha⟩
    used := fun v hv => by
      obtain ⟨s, hb⟩ := hs.exists_specifier hv
      obtain ⟨name, hname⟩ := (hs.bound_iff s).1 (List.mem_map_of_mem hb)
      obtain ⟨r, hr, hd⟩ := (hdemand _).1 hname
      obtain ⟨hsrc, link, hl, rfl, -⟩ := demand?_eq_asset.1 hd
      obtain ⟨m, hm⟩ := exists_mem_zip (length_results site table tags).symm hr
      obtain ⟨w, hw, ha⟩ := hsource (r, m) hm hsrc link hl
      rw [hs.eq_identifier hw hb] at ha
      exact ⟨(r, m), hm, hsrc, link, hl, (hs.valueImport_mem_iff hv _).2 hb, ha⟩
    stylesheet := fun r hr hk link hl =>
      (hs.text_mem_iff (u := .effect _) trivial).2 ((hdemand _).2 ⟨r, hr, demand?_eq_effect.2 ⟨hk, link, hl, rfl⟩⟩)
    only := fun t ht => by
      obtain ⟨u, hu, rfl⟩ := (hs.mem_iff t).1 ht
      cases u with
      | navigation => exact .inl rfl
      | value v s => exact .inr (.inl ⟨v, hs.mem_identifiers hu, s, rfl⟩)
      | effect s =>
        obtain ⟨r, hr, hd⟩ := (hdemand _).1 hu
        obtain ⟨hk, link, hl, rfl⟩ := demand?_eq_effect.1 hd
        exact .inr (.inr ⟨r, hr, hk, link, hl, rfl⟩) }

/-- **That a hyperlink's target exists is not enough**: the empty link leads to the page's own directory, which is there,
and nothing is imported for it. -/
theorem not_imported_for_empty_link : ¬ ∀ (site : Surroundings) (table : RenameTable) (tags : List Tag),
    (∃ r ∈ tags, handler? r = some .hyperlink ∧
      ∃ href, (Attributes.passed table r.attributes).get? "href" = some href ∧ site.linkExists href = true) →
    (ofPage site table tags).imports.count navigationImport = 1 := by
  intro h
  have hone := h ⟨⟨[(["site"], .directory)], [], []⟩, ⟨1, ["site"]⟩, ""⟩ [] [⟨"a", [("href", "")], none⟩]
    ⟨_, List.mem_singleton_self _, by decide, "", by decide, by decide⟩
  exact absurd hone (by decide)

end Mapping
end ReactSite
