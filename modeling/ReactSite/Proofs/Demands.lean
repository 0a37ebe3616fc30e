import ReactSite.Proofs.Extraction
/-!
# Demands — what the tags of a document have it import

Whatever the handler of a tag does with the page's imports comes down to one of three demands, or none: the navigation
component, an asset under an identifier, or a file for its effect.  A mapping meets the demands of its tags in order
(`imports_ofTags`), and an asset's tag gets the identifier its demand was met with (`results_ofTags`).
-/
namespace ReactSite

/-- **What a tag has its page import.** -/
inductive Demand where
  | navigation
  /-- An asset, under an identifier that is made from `name`. -/
  | asset (specifier name : String)
  /-- A file, for its effect. -/
  | effect (specifier : String)
deriving DecidableEq, Repr

namespace Imports

/-- **Imports what is demanded**, unless it is imported already. -/
def meet (i : Imports) : Demand → Imports
  | .navigation           => Mapping.importNavigation i
  | .asset specifier name => (i.identify specifier name).2.add (valueImport (i.identify specifier name).1 specifier)
  | .effect specifier     => i.add (effectImport specifier)

@[simp] theorem bindings_add (i : Imports) (t : String) : (i.add t).bindings = i.bindings := by
  rw [add]; split <;> rfl

@[simp] theorem identifiers_add (i : Imports) (t : String) : (i.add t).identifiers = i.identifiers := by
  rw [add]; split <;> rfl

@[simp] theorem navigation_add (i : Imports) (t : String) : (i.add t).navigation = i.navigation := by
  rw [add]; split <;> rfl

theorem mem_statements_add {i : Imports} {t u : String} : u ∈ (i.add t).statements ↔ u ∈ i.statements ∨ u = t := by
  unfold add
  split
  · rename_i h
    refine ⟨.inl, ?_⟩
    rintro (hu | rfl)
    · exact hu
    · simpa using h
  · simp

theorem nodup_statements_add {i : Imports} (t : String) (h : i.statements.Nodup) : (i.add t).statements.Nodup := by
  unfold add
  split
  · exact h
  · rename_i ht
    rw [← List.concat_eq_append]
    exact h.concat (by simpa using ht)

/-- **A specifier that is bound keeps its identifier; another one is bound to a free one.** -/
theorem identify_cases (i : Imports) (s name : String) :
    (∃ v, (s, v) ∈ i.bindings ∧ i.identify s name = (v, i)) ∨
      (s ∉ Attributes.names i.bindings ∧ i.identify s name = (freshName i.identifiers name,
        { i with bindings := i.bindings ++ [(s, freshName i.identifiers name)],
                 identifiers := i.identifiers ++ [freshName i.identifiers name] })) := by
  cases h : i.bindings.lookup s with
  | none =>
    refine .inr ⟨fun hs => ?_, by rw [identify, h]⟩
    obtain ⟨b, hb, rfl⟩ := List.mem_map.1 hs
    simpa using List.lookup_eq_none_iff.1 h b hb
  | some v => exact .inl ⟨v, Attributes.mem_of_get? h, by rw [identify, h]⟩

theorem bindings_importNavigation (i : Imports) : (Mapping.importNavigation i).bindings = i.bindings := by
  unfold Mapping.importNavigation
  split
  · rfl
  · exact bindings_add i _

theorem bindings_prefix_meet (i : Imports) (d : Demand) : i.bindings <+: (i.meet d).bindings := by
  cases d with
  | navigation =>
    have h : (i.meet .navigation).bindings = i.bindings := by rw [meet, bindings_importNavigation]
    exact h.symm ▸ List.prefix_refl i.bindings
  | effect s =>
    have h : (i.meet (.effect s)).bindings = i.bindings := by rw [meet, bindings_add]
    exact h.symm ▸ List.prefix_refl i.bindings
  | asset s name =>
    have h : (i.meet (.asset s name)).bindings = (i.identify s name).2.bindings := by rw [meet, bindings_add]
    rcases identify_cases i s name with ⟨v, -, e⟩ | ⟨-, e⟩
    · rw [e] at h
      exact h.symm ▸ List.prefix_refl i.bindings
    · rw [e] at h
      exact h.symm ▸ List.prefix_append _ _

theorem bindings_prefix_foldl_meet : ∀ (ds : List Demand) (i : Imports), i.bindings <+: (ds.foldl meet i).bindings
  | [], _      => List.prefix_refl _
  | d :: ds, i => (bindings_prefix_meet i d).trans (bindings_prefix_foldl_meet ds _)

theorem mem_bindings_meet_asset (i : Imports) (s name : String) :
    (s, (i.identify s name).1) ∈ (i.meet (.asset s name)).bindings := by
  rw [meet, bindings_add]
  rcases identify_cases i s name with ⟨v, hv, e⟩ | ⟨-, e⟩
  · rw [e]; exact hv
  · rw [e]; exact List.mem_append_right _ (List.mem_singleton_self _)

end Imports

/-! ## The links of a tag -/

/-- **A link that is not empty and leads to a file of the site.** -/
def Surroundings.isInternal (site : Surroundings) (link : String) : Bool := link ≠ "" && site.linkExists link

theorem resolveLink_of_none {site : Surroundings} {link : Option String} (h : link.filter site.isInternal = none)
    (effectOnly : Bool) (i : Imports) :
    (resolveLink site link effectOnly i).2 = i ∧ ∀ v, (resolveLink site link effectOnly i).1 ≠ .internal v := by
  cases link with
  | none => exact ⟨rfl, fun _ => by simp [resolveLink]⟩
  | some link =>
    rw [Option.filter_some, Surroundings.isInternal] at h
    rw [resolveLink]
    by_cases he : link = ""
    · rw [if_pos he]; exact ⟨rfl, fun _ => by simp⟩
    · rw [if_neg he, if_pos (by simpa [he] using h)]; exact ⟨rfl, fun _ => by simp⟩

theorem resolveLink_of_some {site : Surroundings} {link : Option String} {l : String}
    (h : link.filter site.isInternal = some l) (effectOnly : Bool) (i : Imports) :
    resolveLink site link effectOnly i =
      if effectOnly then (.importOnly, i.meet (.effect (Naming.specifier l site.directory)))
      else (.internal (i.identify (Naming.specifier l site.directory) (Naming.identifier l)).1,
        i.meet (.asset (Naming.specifier l site.directory) (Naming.identifier l))) := by
  obtain ⟨rfl, hl⟩ := Option.filter_eq_some_iff.1 h
  rw [Surroundings.isInternal, Bool.and_eq_true] at hl
  rw [resolveLink, if_neg (by simpa using hl.1), if_neg (by simp [hl.2])]
  rfl

namespace Mapping

/-- **The link in an attribute of a tag**, when it is internal. -/
def internalLink? (site : Surroundings) (table : RenameTable) (name : String) (r : Tag) : Option String :=
  ((Attributes.passed table r.attributes).get? name).filter site.isInternal

def hasSource (r : Tag) : Bool := handler? r = some .image || handler? r = some .script

def demand? (site : Surroundings) (table : RenameTable) (r : Tag) : Option Demand :=
  match handler? r with
  | some .hyperlink             => (internalLink? site table "href" r).map fun _ => .navigation
  | some .image | some .script  => (internalLink? site table "src" r).map fun link =>
      .asset (Naming.specifier link site.directory) (Naming.identifier link)
  | some .stylesheet            => (internalLink? site table "href" r).map fun link =>
      .effect (Naming.specifier link site.directory)
  | some .style | none          => none

theorem imports_ofHyperlink (site : Surroundings) (tag : String) (attrs : Attributes) (i : Imports) :
    (ofHyperlink site tag attrs i).2 =
      if ((attrs.get? "href").filter site.isInternal).isSome then importNavigation i else i := by
  unfold ofHyperlink
  cases attrs.get? "href" with
  | none => rfl
  | some href =>
    rw [Option.filter_some, Surroundings.isInternal]
    simp only
    split <;> rfl

theorem imports_ofSource (site : Surroundings) (tag : String) (attrs : Attributes) (i : Imports) :
    (ofSource site tag attrs i).2 = (resolveLink site (attrs.get? "src") false i).2 := by
  unfold ofSource
  split <;> (rename_i h; rw [h])

theorem imports_ofScript (site : Surroundings) (tag : String) (attrs : Attributes) (i : Imports) :
    (ofScript site tag attrs i).2 = (resolveLink site (attrs.get? "src") false i).2 := by
  unfold ofScript
  cases h : attrs.get? "src" with
  | none => rfl
  | some link => rw [Option.isNone_some, if_neg Bool.false_ne_true, imports_ofSource, h]

theorem imports_resolveLink (site : Surroundings) (link : Option String) (effectOnly : Bool) (i : Imports) :
    (resolveLink site link effectOnly i).2 = ((link.filter site.isInternal).map fun l =>
      if effectOnly then Demand.effect (Naming.specifier l site.directory)
      else .asset (Naming.specifier l site.directory) (Naming.identifier l)).elim i i.meet := by
  cases h : link.filter site.isInternal with
  | none => exact (resolveLink_of_none h effectOnly i).1
  | some l => rw [resolveLink_of_some h]; cases effectOnly <;> rfl

theorem imports_ofTag (site : Surroundings) (table : RenameTable) (r : Tag) (i : Imports) :
    (ofTag site table r i).2 = (demand? site table r).elim i i.meet := by
  rw [ofTag, demand?]
  cases handler? r with
  | none => rfl
  | some k =>
    cases k with
    | hyperlink =>
      simp only [imports_ofHyperlink, internalLink?]
      cases ((Attributes.passed table r.attributes).get? "href").filter site.isInternal <;> rfl
    | image => exact (imports_ofSource site _ _ i).trans (imports_resolveLink site _ false i)
    | script => exact (imports_ofScript site _ _ i).trans (imports_resolveLink site _ false i)
    | style => rfl
    | stylesheet => exact imports_resolveLink site _ true i

/-- **A mapping meets the demands of its tags in order.** -/
theorem imports_ofTags (site : Surroundings) (table : RenameTable) : ∀ (tags : List Tag) (i : Imports),
    (ofTags site table tags i).2 = (tags.filterMap (demand? site table)).foldl Imports.meet i
  | [], _      => rfl
  | r :: rs, i => by
    rw [ofTags, imports_ofTags site table rs, imports_ofTag, List.filterMap_cons]
    cases demand? site table r <;> rfl

theorem demand?_eq_navigation {site : Surroundings} {table : RenameTable} {r : Tag} :
    demand? site table r = some .navigation ↔
      handler? r = some .hyperlink ∧ (internalLink? site table "href" r).isSome = true := by
  unfold demand?
  cases handler? r with
  | none => simp
  | some k => cases k <;> simp [Option.isSome_iff_exists]

theorem demand?_eq_asset {site : Surroundings} {table : RenameTable} {r : Tag} {s name : String} :
    demand? site table r = some (.asset s name) ↔ hasSource r = true ∧ ∃ link,
      internalLink? site table "src" r = some link ∧ Naming.specifier link site.directory = s ∧
        Naming.identifier link = name := by
  rw [demand?, hasSource]
  cases handler? r with
  | none => simp
  | some k => cases k <;> simp

theorem demand?_eq_effect {site : Surroundings} {table : RenameTable} {r : Tag} {s : String} :
    demand? site table r = some (.effect s) ↔ handler? r = some .stylesheet ∧ ∃ link,
      internalLink? site table "href" r = some link ∧ Naming.specifier link site.directory = s := by
  unfold demand?
  cases handler? r with
  | none => simp
  | some k => cases k <;> simp

theorem attributes_ofTag_of_hasSource {site : Surroundings} {table : RenameTable} {r : Tag} {link : String}
    (hr : hasSource r = true) (hl : internalLink? site table "src" r = some link) (i : Imports) :
    (ofTag site table r i).1.attributes = some ((Attributes.passed table r.attributes).put "src"
      (Resolution.placeholder (i.identify (Naming.specifier link site.directory) (Naming.identifier link)).1)) := by
  have hsource : (ofSource site r.name (Attributes.passed table r.attributes) i).1.attributes =
      some ((Attributes.passed table r.attributes).put "src" (Resolution.placeholder
        (i.identify (Naming.specifier link site.directory) (Naming.identifier link)).1)) := by
    rw [ofSource, resolveLink_of_some hl]
    rfl
  rw [hasSource, Bool.or_eq_true, decide_eq_true_eq, decide_eq_true_eq] at hr
  rcases hr with h | h
  · rw [ofTag, h]; exact hsource
  · have hsome : ((Attributes.passed table r.attributes).get? "src").isNone = false := by
      rw [(Option.filter_eq_some_iff.1 hl).1]; rfl
    rw [ofTag, h]
    simp only [ofScript, hsome]
    exact hsource

/-- **Every tag with an internal source gets the identifier that is bound to its asset.** -/
theorem results_ofTags {site : Surroundings} {table : RenameTable} {r : Tag} {m : MappedTag} {link : String}
    (hr : hasSource r = true) (hl : internalLink? site table "src" r = some link) :
    ∀ {tags : List Tag} {i : Imports}, (r, m) ∈ tags.zip (ofTags site table tags i).1 →
      ∃ v, (Naming.specifier link site.directory, v) ∈ (ofTags site table tags i).2.bindings ∧
        m.attributes = some ((Attributes.passed table r.attributes).put "src" (Resolution.placeholder v))
  | q :: qs, i, h => by
    rw [ofTags, List.zip_cons_cons, List.mem_cons] at h
    unfold ofTags
    rcases h with h | h
    · obtain ⟨rfl, rfl⟩ := Prod.mk.inj h
      refine ⟨_, ?_, attributes_ofTag_of_hasSource hr hl i⟩
      rw [imports_ofTags, imports_ofTag, demand?_eq_asset.2 ⟨hr, link, hl, rfl, rfl⟩]
      exact (Imports.bindings_prefix_foldl_meet _ _).subset (Imports.mem_bindings_meet_asset i _ _)
    · exact results_ofTags hr hl h

end Mapping
end ReactSite
