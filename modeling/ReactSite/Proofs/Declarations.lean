import ReactSite.Proofs.Accounting
import ReactSite.Proofs.Expressions
import ReactSite.Proofs.Locality
/-!
# Declarations — the names that a page's module declares

The names are read off the text of the import statements (`importedNames`), and the function adds its own.  A module declares
the names of the fixed imports, the identifiers of its assets and the name of its component (`perm_declared`).  The identifiers
are told apart from each other, but from nothing else: the module declares no name twice exactly when no image or script asks
for the name of a fixed import before its file has another, and the component has a name of its own (`nodup_declared_iff`).  An
image called `React` already breaks it (`not_nodup_declared_stageShelf`).
-/
namespace ReactSite

open Naming (IsIdentifier)

/-! ## Names of statements -/

/-- A letter, digit or underscore. -/
def isNameChar (c : Char) : Bool := Naming.isWordChar c || c = '_'

/-- The words of a text: its runs of letters, digits and underscores. -/
def wordsOf (s : List Char) : List (List Char) := (s.splitOnP (!isNameChar ·)).filter (· ≠ [])

/-- **The names that an import statement declares**: the words after `import`, up to the `from` before the module. -/
def importedNames (statement : String) : List String :=
  ((wordsOf ((statement.toList.drop "import ".length).takeWhile (· ≠ '"'))).dropLast).map String.ofList

/-- **The names that a module declares**: those of its imports, and the function's own. -/
def declared (imports : List String) (name : String) : List String := imports.flatMap importedNames ++ [name]

theorem wordsOf_append {v : String} (hv : IsIdentifier v) (rest : List Char) :
    wordsOf (v.toList ++ ' ' :: rest) = v.toList :: wordsOf rest := by
  have hword : ∀ c ∈ v.toList, (!isNameChar c) = false := by
    intro c hc
    rcases hv.mem c hc with h | h <;> simp [isNameChar, h]
  unfold wordsOf
  rw [List.splitOnP_append_cons _ _ (by decide), List.splitOnP_eq_singleton hword, List.filter_append]
  simp [hv.ne_nil]

namespace Statement

theorem importedNames_text (t : Statement) :
    importedNames t.text = ((wordsOf (t.body.takeWhile (· ≠ '"'))).dropLast).map String.ofList := by
  unfold importedNames
  rw [toList_text, List.drop_left' (by decide)]

theorem importedNames_value {v : String} (hv : IsIdentifier v) (s : String) : importedNames (valueImport v s) = [v] := by
  have hquote : ∀ c ∈ v.toList, (fun c => decide (c ≠ '"')) c = true := by
    intro c hc
    have : c ≠ '"' := fun e => hv.notMem (by decide) (by decide) (e ▸ hc)
    simpa using this
  have hfrom : (' ' :: (fromMark ++ (s.toList ++ endMark))).takeWhile (fun c => decide (c ≠ '"')) =
      ' ' :: ['f', 'r', 'o', 'm', ' '] := by
    simp [fromMark]
  have hwords : wordsOf ['f', 'r', 'o', 'm', ' '] = [['f', 'r', 'o', 'm']] := by decide
  have htext := importedNames_text (value v s)
  rw [body, List.takeWhile_append_of_pos hquote, hfrom, wordsOf_append hv, hwords] at htext
  exact htext.trans (by simp)

theorem importedNames_effect (s : String) : importedNames (effectImport s) = [] :=
  (importedNames_text (effect s)).trans (by simp [body, wordsOf])

theorem importedNames_navigation : importedNames Mapping.navigationImport = ["Link"] := by decide

end Statement

/-! ## The names that assets ask for -/

/-- The asset that a demand asks for: its specifier and a name. -/
def Demand.asset? : Demand → Option (String × String)
  | .asset specifier name => some (specifier, name)
  | _                     => none

namespace Imports

theorem underscore_mem_suffixed (name : String) (k : Nat) : '_' ∈ (suffixed name k).toList := by
  rw [toList_suffixed]
  exact List.mem_append_right _ List.mem_cons_self

/-- A name without an underscore is taken as it is, or was taken before. -/
theorem mem_concat_freshName {name : String} (hplain : '_' ∉ name.toList) (taken : List String) (asked : String) :
    name ∈ taken ++ [freshName taken asked] ↔ name ∈ taken ∨ asked = name := by
  rw [List.mem_append, List.mem_singleton]
  rcases freshName_cases taken asked with ⟨-, hfresh⟩ | ⟨htaken, -, k, hfresh⟩
  · rw [hfresh, eq_comm]
  · constructor
    · rintro (h | rfl)
      · exact .inl h
      · exact absurd (hfresh ▸ underscore_mem_suffixed asked k) hplain
    · rintro (h | rfl)
      · exact .inl h
      · exact .inl htaken

/-- **A name without an underscore is an identifier** when it was one, or the first demand for some unbound asset asks for it. -/
theorem mem_identifiers_foldl_meet {name : String} (hplain : '_' ∉ name.toList) : ∀ (ds : List Demand) (i : Imports),
    name ∈ (ds.foldl meet i).identifiers ↔ name ∈ i.identifiers ∨
      ∃ s, s ∉ Attributes.names i.bindings ∧ (ds.filterMap Demand.asset?).lookup s = some name
  | [], i => by simp
  | .navigation :: ds, i => by
    rw [List.foldl_cons, mem_identifiers_foldl_meet hplain ds, meet, bindings_importNavigation, List.filterMap_cons]
    have hids : (Mapping.importNavigation i).identifiers = i.identifiers := by
      unfold Mapping.importNavigation
      split
      · rfl
      · exact identifiers_add i _
    rw [hids]
    rfl
  | .effect _ :: ds, i => by
    rw [List.foldl_cons, mem_identifiers_foldl_meet hplain ds, meet, bindings_add, identifiers_add, List.filterMap_cons]
    rfl
  | .asset s asked :: ds, i => by
    have hlookup : ∀ s', ((s, asked) :: ds.filterMap Demand.asset?).lookup s' =
        if s' = s then some asked else (ds.filterMap Demand.asset?).lookup s' := by
      intro s'
      rw [List.lookup_cons]
      by_cases h : s' = s
      · simp [h]
      · have hbeq : (s' == s) = false := by simpa using h
        rw [hbeq, if_neg h]
    have hcons : (Demand.asset s asked :: ds).filterMap Demand.asset? = (s, asked) :: ds.filterMap Demand.asset? := rfl
    rw [List.foldl_cons, mem_identifiers_foldl_meet hplain ds, meet, bindings_add, identifiers_add, hcons]
    rcases identify_cases i s asked with ⟨v, hv, hid⟩ | ⟨hs, hid⟩
    · -- the asset is bound: the demand changes nothing
      have hbound : s ∈ Attributes.names i.bindings := List.mem_map_of_mem hv
      rw [hid]
      refine or_congr_right (exists_congr fun s' => and_congr_right fun hfree => ?_)
      have hne : s' ≠ s := fun heq => hfree (heq ▸ hbound)
      rw [hlookup, if_neg hne]
    · rw [hid, mem_concat_freshName hplain, or_assoc]
      refine or_congr_right ?_
      have hnames : Attributes.names (i.bindings ++ [(s, freshName i.identifiers asked)]) = Attributes.names i.bindings ++ [s] := by
        simp [Attributes.names]
      rw [hnames]
      constructor
      · rintro (rfl | ⟨s', hfree, hlook⟩)
        · exact ⟨s, hs, by rw [hlookup, if_pos rfl]⟩
        · rw [List.mem_append, List.mem_singleton, not_or] at hfree
          exact ⟨s', hfree.1, by rw [hlookup, if_neg hfree.2, hlook]⟩
      · rintro ⟨s', hfree, hlook⟩
        rw [hlookup] at hlook
        split at hlook
        · exact .inl (Option.some.inj hlook)
        · rename_i hne
          exact .inr ⟨s', by simp [hfree, hne], hlook⟩

section

variable {i : Imports} {ds : List Demand} (h : i.Serves ds)
include h

theorem Serves.importedNames_valueImport {b : String × String} (hb : b ∈ i.bindings) :
    importedNames (valueImport b.2 b.1) = [b.2] :=
  Statement.importedNames_value (h.isIdentifier b.2 (h.mem_identifiers hb)) b.1

theorem Serves.nodup_values : (i.bindings.map fun b => valueImport b.2 b.1).Nodup := by
  refine List.Nodup.map_on (fun b hb b' hb' heq => ?_) (List.Nodup.of_map _ (h.identifiers_eq ▸ h.nodup_identifiers))
  obtain ⟨hv, hs⟩ := Statement.value_injective (h.isIdentifier b.2 (h.mem_identifiers hb))
    (h.isIdentifier b'.2 (h.mem_identifiers hb')) heq
  exact Prod.ext hs hv

/-- **The statements of a page, sorted by what they import**: the navigation component, the assets, and what has no name. -/
theorem Serves.perm_statements : i.statements.Perm
    ((if Mapping.navigationImport ∈ i.statements then [Mapping.navigationImport] else []) ++
      (i.bindings.map (fun b => valueImport b.2 b.1) ++ i.statements.filter fun t => importedNames t = [])) := by
  refine (List.perm_ext_iff_of_nodup h.nodup_statements ?_).2 fun t => ⟨fun ht => ?_, fun ht => ?_⟩
  · refine List.nodup_append.2 ⟨by split <;> simp, List.nodup_append.2 ⟨h.nodup_values, h.nodup_statements.filter _, ?_⟩, ?_⟩
    · rintro t ht u hu rfl
      obtain ⟨b, hb, rfl⟩ := List.mem_map.1 ht
      have hnone := (List.mem_filter.1 hu).2
      rw [h.importedNames_valueImport hb] at hnone
      simp at hnone
    · rintro t ht u hu rfl
      obtain rfl : t = Mapping.navigationImport := by
        split at ht
        · exact List.mem_singleton.1 ht
        · cases ht
      rcases List.mem_append.1 hu with hu | hu
      · obtain ⟨b, hb, heq⟩ := List.mem_map.1 hu
        exact Statement.value_ne_navigation (s := b.1) (h.isIdentifier b.2 (h.mem_identifiers hb)) heq
      · have hnone := (List.mem_filter.1 hu).2
        rw [Statement.importedNames_navigation] at hnone
        simp at hnone
  · obtain ⟨u, hu, rfl⟩ := (h.mem_iff t).1 ht
    cases u with
    | navigation =>
      have hnav : Mapping.navigationImport ∈ i.statements := ht
      rw [if_pos hnav]
      exact List.mem_append_left _ List.mem_cons_self
    | value v s =>
      exact List.mem_append_right _ (List.mem_append_left _ (List.mem_map.2 ⟨(s, v), hu, rfl⟩))
    | effect s =>
      refine List.mem_append_right _ (List.mem_append_right _ (List.mem_filter.2 ⟨ht, ?_⟩))
      exact decide_eq_true (Statement.importedNames_effect s)
  · rcases List.mem_append.1 ht with ht | ht
    · split at ht
      · rename_i hnav
        rwa [List.mem_singleton.1 ht]
      · cases ht
    · rcases List.mem_append.1 ht with ht | ht
      · obtain ⟨b, hb, rfl⟩ := List.mem_map.1 ht
        exact (h.mem_iff _).2 ⟨.value b.2 b.1, hb, rfl⟩
      · exact (List.mem_filter.1 ht).1

/-- **The statements of a page declare** the navigation component, if it is imported, and the identifiers of the assets. -/
theorem Serves.perm_importedNames : (i.statements.flatMap importedNames).Perm
    ((if Mapping.navigationImport ∈ i.statements then ["Link"] else []) ++ i.identifiers) := by
  refine (h.perm_statements.flatMap_right importedNames).trans (.of_eq ?_)
  have hvalues : (i.bindings.map fun b => valueImport b.2 b.1).flatMap importedNames = i.identifiers := by
    rw [h.identifiers_eq, List.flatMap_map, List.map_eq_flatMap]
    exact List.flatMap_congr fun b hb => h.importedNames_valueImport hb
  have hothers : (i.statements.filter fun t => importedNames t = []).flatMap importedNames = [] :=
    List.flatMap_eq_nil_iff.2 fun t ht => of_decide_eq_true (List.mem_filter.1 ht).2
  rw [List.flatMap_append, List.flatMap_append, hvalues, hothers, List.append_nil]
  split
  · rw [List.flatMap_singleton, Statement.importedNames_navigation]
  · rfl

end

end Imports

/-! ## A page's module -/

namespace Page

/-- **The names of the fixed imports**: those that a page needs for its scripts, its head and its links. -/
def fixedNames (document : Document) (outcome : Outcome) (head : String) : List String :=
  "React" :: (if (scriptsOf document.root).isEmpty then [] else ["useEffect"]) ++ (if head = "" then [] else ["Helmet"]) ++
    (if Mapping.navigationImport ∈ outcome.imports then ["Link"] else [])

/-- **The assets that the images and scripts of a page ask for**, in order: each by its specifier, and the name that the link
makes. -/
def askedAssets (site : Surroundings) (table : RenameTable) (tags : List Tag) : List (String × String) :=
  (tags.filterMap (Mapping.demand? site table)).filterMap Demand.asset?

theorem fixedNames_subset (document : Document) (outcome : Outcome) (head : String) :
    ∀ name ∈ fixedNames document outcome head, name ∈ ["React", "useEffect", "Helmet", "Link"] := by
  unfold fixedNames
  split <;> split <;> split <;> decide

theorem nodup_fixedNames (document : Document) (outcome : Outcome) (head : String) :
    (fixedNames document outcome head).Nodup := by
  unfold fixedNames
  split <;> split <;> split <;> decide

section

variable (document : Document) (site : Surroundings) (table : RenameTable) (tags : List Tag) (head name : String)

/-- **What a page's module declares**: the fixed imports, the identifiers of its assets, and its component. -/
theorem perm_declared : (declared (importsOf document (Mapping.ofPage site table tags) head) name).Perm
    (fixedNames document (Mapping.ofPage site table tags) head ++ (Mapping.ofPage site table tags).identifiers ++ [name]) := by
  have hfirst : importedNames (if (scriptsOf document.root).isEmpty then reactImport else effectImport) =
      "React" :: if (scriptsOf document.root).isEmpty then [] else ["useEffect"] := by
    split <;> decide
  have hhelmet : (if head = "" then [] else [helmetImport]).flatMap importedNames = if head = "" then [] else ["Helmet"] := by
    split
    · rfl
    · rw [List.flatMap_singleton]
      decide
  have hserved := (Mapping.serves_ofTags site table tags).perm_importedNames
  have hdeclared : declared (importsOf document (Mapping.ofPage site table tags) head) name =
      ("React" :: (if (scriptsOf document.root).isEmpty then [] else ["useEffect"]) ++ (if head = "" then [] else ["Helmet"])) ++
        (Mapping.ofTags site table tags {}).2.statements.flatMap importedNames ++ [name] := by
    unfold declared importsOf
    rw [Mapping.ofPage_eq, List.cons_append, List.flatMap_cons, List.flatMap_append, hfirst, hhelmet]
    simp
  have hnames : fixedNames document (Mapping.ofPage site table tags) head ++ (Mapping.ofPage site table tags).identifiers =
      ("React" :: (if (scriptsOf document.root).isEmpty then [] else ["useEffect"]) ++ (if head = "" then [] else ["Helmet"])) ++
        ((if Mapping.navigationImport ∈ (Mapping.ofTags site table tags {}).2.statements then ["Link"] else []) ++
          (Mapping.ofTags site table tags {}).2.identifiers) :=
    List.append_assoc ..
  rw [hdeclared, hnames]
  exact (hserved.append_left _).append_right _

/-- **A page's module declares no name twice** exactly when no fixed import has the name of the component or one that an asset
is the first to be asked for under, and no asset has the name of the component. -/
theorem nodup_declared_page : (declared (importsOf document (Mapping.ofPage site table tags) head) name).Nodup ↔
    (∀ fixed ∈ fixedNames document (Mapping.ofPage site table tags) head,
      fixed ≠ name ∧ ∀ s, (askedAssets site table tags).lookup s ≠ some fixed) ∧
    name ∉ (Mapping.ofPage site table tags).identifiers := by
  have hasked : ∀ fixed ∈ fixedNames document (Mapping.ofPage site table tags) head,
      fixed ∈ (Mapping.ofPage site table tags).identifiers ↔ ∃ s, (askedAssets site table tags).lookup s = some fixed := by
    intro fixed hfixed
    have hplain : '_' ∉ fixed.toList := by
      have hall : ∀ fixed ∈ ["React", "useEffect", "Helmet", "Link"], '_' ∉ fixed.toList := by decide
      exact hall fixed (fixedNames_subset _ _ _ _ hfixed)
    have hmet := Imports.mem_identifiers_foldl_meet hplain (tags.filterMap (Mapping.demand? site table)) {}
    rw [← Mapping.imports_ofTags] at hmet
    rw [Mapping.ofPage_eq, hmet]
    simp [Attributes.names, askedAssets]
  have hidentifiers := (Mapping.ofPage_importsDemanded site table tags).nodup_identifiers
  rw [(perm_declared document site table tags head name).nodup_iff]
  constructor
  · intro hnodup
    obtain ⟨hboth, -, hcomponent⟩ := List.nodup_append.1 hnodup
    obtain ⟨-, -, hapart⟩ := List.nodup_append.1 hboth
    refine ⟨fun fixed hfixed => ⟨?_, fun s hs => ?_⟩, fun hname => ?_⟩
    · exact hcomponent fixed (List.mem_append_left _ hfixed) name (List.mem_singleton_self _)
    · exact hapart fixed hfixed fixed ((hasked fixed hfixed).2 ⟨s, hs⟩) rfl
    · exact hcomponent name (List.mem_append_right _ hname) name (List.mem_singleton_self _) rfl
  · rintro ⟨hfixed, hname⟩
    refine List.nodup_append.2 ⟨List.nodup_append.2 ⟨nodup_fixedNames _ _ _, hidentifiers, ?_⟩, List.nodup_singleton _, ?_⟩
    · rintro fixed hmem v hv rfl
      obtain ⟨s, hs⟩ := (hasked fixed hmem).1 hv
      exact (hfixed fixed hmem).2 s hs
    · rintro v hv u hu rfl
      obtain rfl := List.mem_singleton.1 hu
      rcases List.mem_append.1 hv with hv | hv
      · exact (hfixed v hv).1 rfl
      · exact hname hv

end

end Page

namespace Project

open Page

variable {p : Project} {files : FileTree} {rel : Path} {text : String} {w w' : Workspace} {path target : Path}

/-- What the tags of a document have its module import, and what becomes of them. -/
def outcomeOf (p : Project) (files : FileTree) (rel : Path) (tags : List Tag) : Outcome :=
  Mapping.ofPage (p.siteOf files rel) p.renames tags

/-- **What the module of a document is made of**: the document that is read from its file, its tags, and the text of its head
component, from which the imports follow. -/
structure HasPage (p : Project) (files : FileTree) (rel : Path) (text : String) (document : Document) (tags : List Tag)
    (head : String) : Prop where
  read : ∃ bytes, files.node? (p.source.join rel) = some (.file bytes) ∧
    p.documentIn bytes = .ok document
  tagged : tagsOf document.root = .ok tags
  headed : ∃ draft, carryOut rel.toString document.root tags (p.outcomeOf files rel tags).results = .ok draft ∧
    head = headSection document.xhtml (escapeTexts draft.root) (stylesOf document.root)
  rendered : ∃ content effect, text = render (importsOf document (p.outcomeOf files rel tags) head) (p.componentOf rel) content effect

theorem exists_page (h : p.moduleOf files rel = .ok text) : ∃ document tags head, p.HasPage files rel text document tags head := by
  obtain ⟨bytes, hnode, hconvert⟩ := (moduleOf_eq_ok p).1 h
  obtain ⟨document, tags, hdocument, htags, -, hmodule, -⟩ := (convert_eq_ok p).1 hconvert
  obtain ⟨draft, hd, htext⟩ := exists_of_moduleText hmodule
  exact ⟨document, tags, _, ⟨bytes, hnode, hdocument⟩, htags, ⟨draft, hd, rfl⟩, _, _, htext⟩

/-- **A generated module declares no name twice**, exactly when the component has a name of its own and no asset is first asked
for under the name of a fixed import. -/
theorem nodup_declared_iff {register : Bool} (h : (p.convertPage register path).run.run w = (.ok target, w')) :
    ∃ rel text document tags head, p.relative w.files.current path = .ok rel ∧
      (FileTree.writeText target (Text.encode text)).run.run w.files = (.ok (), w'.files) ∧
      p.HasPage w.files rel text document tags head ∧
      (declared (importsOf document (p.outcomeOf w.files rel tags) head) (p.componentOf rel)).Perm
        (fixedNames document (p.outcomeOf w.files rel tags) head ++ (p.outcomeOf w.files rel tags).identifiers ++
          [p.componentOf rel]) ∧
      ((declared (importsOf document (p.outcomeOf w.files rel tags) head) (p.componentOf rel)).Nodup ↔
        (∀ fixed ∈ fixedNames document (p.outcomeOf w.files rel tags) head, fixed ≠ p.componentOf rel ∧
          ∀ s, (askedAssets (p.siteOf w.files rel) p.renames tags).lookup s ≠ some fixed) ∧
        p.componentOf rel ∉ (p.outcomeOf w.files rel tags).identifiers) := by
  obtain ⟨rel, text, hrel, hmodule, -, hwrite, -⟩ := convertPage_eq_ok p h
  obtain ⟨document, tags, head, hpage⟩ := exists_page hmodule
  exact ⟨rel, text, document, tags, head, hrel, hwrite, hpage, perm_declared .., nodup_declared_page ..⟩

/-- A site whose entry document needs every fixed import, and an asset. -/
def stageShelf (asset : String) : Workspace where
  files := ⟨[(["site"], .directory), (["site", "index.html"], .file (Text.encode
      ("<title>t</title><body><a href=" ++ asset ++ "><img src=" ++ asset ++ "><script>go()</script>"))),
    (["site", asset], .file []), (["app"], .directory), (["app", "src"], .directory)], [], []⟩

theorem nodup_declared_stageShelf : ∃ rel text document tags head,
    shelfProject.HasPage (stageShelf "x.svg").files rel text document tags head ∧
      (declared (importsOf document (shelfProject.outcomeOf (stageShelf "x.svg").files rel tags) head)
        (shelfProject.componentOf rel)).Nodup := by
  obtain ⟨target, htarget⟩ : ∃ target,
      ((shelfProject.convertPage false ⟨0, ["index.html"]⟩).run.run (stageShelf "x.svg")).1 = .ok target :=
    ⟨⟨1, ["app", "src", "App.js"]⟩, by decide +kernel⟩
  obtain ⟨rel, text, document, tags, head, hrel, -, hpage, -, hiff⟩ := nodup_declared_iff (Prod.ext htarget rfl)
  have hentry : shelfProject.relative (stageShelf "x.svg").files.current ⟨0, ["index.html"]⟩ = .ok ⟨0, ["index.html"]⟩ := by
    decide
  rw [hentry, Except.ok.injEq] at hrel
  subst hrel
  obtain ⟨bytes, hnode, hread⟩ := hpage.read
  have hdistinct : ∀ bytes, (stageShelf "x.svg").files.node? (shelfProject.source.join ⟨0, ["index.html"]⟩) = some (.file bytes) →
      (shelfProject.documentIn bytes).toOption.all (fun document =>
        (tagsOf document.root).toOption.all fun tags => (∀ fixed ∈ ["React", "useEffect", "Helmet", "Link"],
          fixed ≠ "App" ∧ ∀ asset ∈ askedAssets (shelfProject.siteOf (stageShelf "x.svg").files ⟨0, ["index.html"]⟩) [] tags,
            asset.2 ≠ fixed) ∧
          "App" ∉ (shelfProject.outcomeOf (stageShelf "x.svg").files ⟨0, ["index.html"]⟩ tags).identifiers) = true := by
    have hfile : (stageShelf "x.svg").files.node? (shelfProject.source.join ⟨0, ["index.html"]⟩) = some (.file (Text.encode
        "<title>t</title><body><a href=x.svg><img src=x.svg><script>go()</script>")) := by decide +kernel
    intro bytes hnode
    rw [hfile, Option.some.injEq, FileNode.file.injEq] at hnode
    subst hnode
    decide +kernel
  have hdistinct := hdistinct bytes hnode
  rw [hread, Except.toOption, Option.all_some, hpage.tagged] at hdistinct
  obtain ⟨hfixed, hcomponent⟩ := of_decide_eq_true hdistinct
  refine ⟨_, text, document, tags, head, hpage, hiff.2 ⟨fun fixed hmem => ?_, hcomponent⟩⟩
  obtain ⟨hne, hasset⟩ := hfixed fixed (fixedNames_subset _ _ _ _ hmem)
  exact ⟨hne, fun s hs => hasset _ (Attributes.mem_of_get? hs) rfl⟩

/-- **A generated module may declare a name twice**: an image called `React` is imported as `React`. -/
theorem not_nodup_declared_stageShelf : ∃ imports content effect,
    shelfProject.moduleOf (stageShelf "React").files ⟨0, ["index.html"]⟩ = .ok (render imports "App" content effect) ∧
    declared imports "App" = ["React", "useEffect", "Helmet", "Link", "React", "App"] ∧ ¬ (declared imports "App").Nodup :=
  ⟨[Page.effectImport, helmetImport, Mapping.navigationImport, valueImport "React" "./React"],
    "<Helmet><title>t</title></Helmet><Link to=\"React\"><img src=\x7bReact\x7d/></Link>", effectBlock ["go()"],
    by decide +kernel, by decide +kernel, by decide +kernel⟩

end Project

end ReactSite
