import ReactSite.Proofs.Demands
import ReactSite.Proofs.Documents
import ReactSite.Proofs.Locality
/-!
# Navigation — where the links of generated pages lead

A link counts as internal when its target exists, whatever it is; a route exists for every document that was converted.  So
a link to a document, or to the directory that an index document stands for, leads to a route of the pass
(`exists_route`).  A link to anything else may lead nowhere (`links_without_routes`).
-/
namespace ReactSite

open FileTree

namespace Mapping

theorem ofTag_of_internal {site : Surroundings} {table : RenameTable} {tag : Tag} {href : String}
    (htag : handler? tag = some .hyperlink) (hhref : internalLink? site table "href" tag = some href) (i : Imports) :
    (ofTag site table tag i).1 =
      ⟨tag.name, some (navigationAttributes (linkRoute site href) (Attributes.passed table tag.attributes))⟩ := by
  unfold internalLink? at hhref
  obtain ⟨hget, hinternal⟩ := Option.filter_eq_some_iff.1 hhref
  unfold Surroundings.isInternal at hinternal
  unfold ofTag
  rw [htag]
  simp only [ofHyperlink, hget]
  rw [if_pos hinternal]

end Mapping

namespace Project

variable {p : Project} {copyStatic : Bool} {w w' : Workspace} {r : Report}

theorem getLast?_of_isPage (hstd : p.rules.IsStandard) {path : Path} (h : p.isPage path = true) :
    path.name.toList.getLast? ≠ some '.' := by
  intro hend
  obtain ⟨init, hinit⟩ := List.getLast?_eq_some_iff.1 hend
  have hempty : ¬ [".html", ".htm"].contains (Text.lower (String.ofList [])) = true := by decide
  unfold isPage Path.suffix at h
  rw [hinit, Path.stemAndSuffix_append (b := []) (by simp), if_pos (by simp), hstd.markupExtensions] at h
  exact hempty h

theorem eq_of_isEntryPath (hstd : p.rules.IsStandard) {path : Path} (hpath : path.IsProper)
    (h : p.isEntryPath path = true) : path = ⟨0, ["index.html"]⟩ := by
  unfold isEntryPath at h
  rw [hstd.entryDocument] at h
  rw [← Path.ofString_toString hpath, of_decide_eq_true h]
  decide

/-- What a page sees of its site on a visit. -/
def seenFrom (p : Project) (v : Visit) (rel : Path) : Surroundings := p.siteOf v.before.files rel

section

variable (h : p.Clean copyStatic w r w')
include h

theorem isFile_before {v : Visit} (hv : v ∈ p.trail copyStatic w) {names : List String}
    (hpath : p.source.descend names ∈ p.sourceFiles w.files) (hpage : p.isPage (p.source.descend names) = true) :
    v.before.files.isFile (p.source.join ⟨0, names⟩) = true := by
  obtain ⟨base, hbase, -⟩ := h.exists_base
  have hbefore := (h.grows hbase).extends_before hv
  obtain ⟨init, name, content, heq, -, hget⟩ := (mem_sourceFiles h.isTree hbase).1 hpath
  obtain rfl := Path.descend_injective heq
  obtain ⟨u, -, -, -, -, text, hmodule, -⟩ := h.exists_conversion hpath hpage
  obtain ⟨bytes, hnode, -⟩ := (moduleOf_eq_ok p).1 hmodule
  obtain ⟨loc, hloc, -⟩ := node?_eq_some.1 hnode
  have hfile : v.before.files.get? (base ++ (init ++ [name])) = some (.file content) := by
    refine (hbefore.file_iff (fun hno => ?_) content).2 hget
    rw [NoPage, isPage_congr (b := p.source.descend (init ++ [name])) (by simp [Path.name, Path.descend]), hpage] at hno
    cases hno
  rw [isFile_iff]
  exact ⟨content, node?_eq_some.2 ⟨_, locate_of_get? (hbefore.isTree h.isTree) (hbefore.locate hbase)
    (locate_eq_ok.1 hloc).1 hfile, hfile⟩⟩

/-- Every document but the entry document has its entry at the end of the pass. -/
theorem entry_of_document {names : List String} (hpath : p.source.descend names ∈ p.sourceFiles w.files)
    (hpage : p.isPage (p.source.descend names) = true) (hentry : p.isEntryPath ⟨0, names⟩ = false) :
    Router.entryFor (directoryOf ⟨0, names⟩) (⟨0, names⟩ : Path).stem ∈ w'.routes.entries := by
  obtain ⟨u, hu, -, hconverts, hrel, -⟩ := h.exists_conversion hpath hpage
  rw [h.passes.routes, walkedThrough, routes_afterAll]
  refine List.mem_append_right _ (List.mem_filterMap.2 ⟨u, hu, ?_⟩)
  unfold registered?
  rw [hconverts, hrel]
  simp [hentry]

/-- **A link to a document leads to a route of the pass.**  Whatever hyperlink is mapped on a visit: when its target is a
document, or the directory that an index document stands for, then it becomes a navigation link to `/` or to a route that
is registered when the entry module is written. -/
theorem exists_route {v : Visit} (hv : v ∈ p.trail copyStatic w) {rel : Path}
    {tag : Tag} (htag : Mapping.handler? tag = some .hyperlink) {href : String}
    (hhref : Mapping.internalLink? (p.seenFrom v rel) p.renames "href" tag = some href) {names : List String}
    (hpath : p.source.descend names ∈ p.sourceFiles w.files) (hpage : p.isPage (p.source.descend names) = true)
    (hback : '\\' ∉ (⟨0, names⟩ : Path).toString.toList) (hdots : ∃ c ∈ (⟨0, names⟩ : Path).stem.toList, c ≠ '.')
    (hlink : (p.seenFrom v rel).sitePath href = (⟨0, names⟩ : Path).toString ∨ ((⟨0, names⟩ : Path).name = indexDocument ∧
      (p.seenFrom v rel).sitePath href = (⟨0, names⟩ : Path).parent.toString)) :
    ∃ route, (∀ i, (Mapping.ofTag (p.seenFrom v rel) p.renames tag i).1 =
        ⟨tag.name, some (Mapping.navigationAttributes route (Attributes.passed p.renames tag.attributes))⟩) ∧
      (route = "/" ∨ ∃ e ∈ w'.routes.entries, e.route = route) := by
  refine ⟨_, Mapping.ofTag_of_internal htag hhref, ?_⟩
  obtain ⟨base, hbase, -⟩ := h.exists_base
  obtain ⟨dir, name, content, heq, -, hget⟩ := (mem_sourceFiles h.isTree hbase).1 hpath
  obtain rfl := Path.descend_injective heq
  have hnames : ∀ s ∈ dir ++ [name], IsPlain s := fun s hs =>
    (h.isTree.isName_of_get? hget s (List.mem_append_right _ hs)).toIsPlain
  have hproper : (⟨0, dir ++ [name]⟩ : Path).IsProper :=
    ⟨by simp, fun s hs => (hnames s hs).kept, fun s hs => (hnames s hs).slash_notMem⟩
  have hfile := isFile_before h hv hpath hpage
  have hend : name.toList.getLast? ≠ some '.' := by
    have := getLast?_of_isPage h.standard hpage
    rwa [Path.name_descend] at this
  have hroute : Mapping.linkRoute (p.seenFrom v rel) href =
      (Router.entryFor (directoryOf ⟨0, dir ++ [name]⟩) (⟨0, dir ++ [name]⟩ : Path).stem).route := by
    rcases hlink with hlink | ⟨hindex, hlink⟩
    · rw [stem_eq, String.toList_ofList] at hdots
      exact Mapping.linkRoute_of_document h.source hproper hfile hback hend hdots hlink
    · rw [Path.name_document] at hindex
      rw [Path.parent_document] at hlink
      subst hindex
      exact Mapping.linkRoute_of_directory h.source hproper hfile hback hlink
  rw [hroute]
  cases hentry : p.isEntryPath ⟨0, dir ++ [name]⟩ with
  | false => exact .inr ⟨_, entry_of_document h hpath hpage hentry, rfl⟩
  | true =>
    rw [eq_of_isEntryPath h.standard hproper hentry]
    exact .inl (by decide)

end

/-- A site with a blog that its entry document links to. -/
def blogShelf : Workspace where
  files := ⟨[(["site"], .directory), (["site", "index.html"], .file (Text.encode "<a href=blog/>")),
    (["site", "blog"], .directory), (["site", "blog", "index.html"], .file (Text.encode "<p>")),
    (["app"], .directory), (["app", "src"], .directory)], [], []⟩

theorem exists_route_blogShelf : ∃ v ∈ shelfProject.trail true blogShelf, ∃ route,
    (∀ i, (Mapping.ofTag (shelfProject.seenFrom v ⟨0, ["index.html"]⟩) [] ⟨"a", [("href", "blog/")], none⟩ i).1 =
      ⟨"a", some [("to", route)]⟩) ∧
    (route = "/" ∨ ∃ e ∈ ((shelfProject.build true).run.run blogShelf).2.routes.entries, e.route = route) := by
  obtain ⟨r, hclean⟩ : ∃ r, shelfProject.Clean true blogShelf r ((shelfProject.build true).run.run blogShelf).2 :=
    clean_of_isOk ⟨rfl, rfl, rfl, rfl, rfl, rfl, rfl⟩ (Path.isProper_ofString _) (Path.isProper_ofString _) (by decide)
      (by decide +kernel)
  have hpaths : shelfProject.trailPaths true blogShelf =
      [⟨1, ["site", "index.html"]⟩, ⟨1, ["site", "blog", "index.html"]⟩] := by decide +kernel
  have hv : (⟨⟨1, ["site", "index.html"]⟩, fresh blogShelf⟩ : Visit) ∈ shelfProject.trail true blogShelf := by
    rw [trail, hpaths]
    exact List.mem_cons_self
  have hhref : Mapping.internalLink? (shelfProject.seenFrom ⟨⟨1, ["site", "index.html"]⟩, fresh blogShelf⟩ ⟨0, ["index.html"]⟩)
      [] "href" ⟨"a", [("href", "blog/")], none⟩ = some "blog/" := by decide +kernel
  have hpath : shelfProject.source.descend ["blog", "index.html"] ∈ shelfProject.sourceFiles blogShelf.files := by
    decide +kernel
  obtain ⟨route, hmapped, hroute⟩ := exists_route hclean hv (by decide) hhref hpath (by decide) (by decide)
    ⟨'i', by decide, by decide⟩ (.inr (by decide +kernel))
  exact ⟨_, hv, route, hmapped, hroute⟩

/-- Links to an asset and to two documents with odd names. -/
def crossroadsPage : List UInt8 := Text.encode "<a href=x.pdf><a href=..html><a href=\\../c.html>"

def crossroads : Workspace where
  files := ⟨[(["site"], .directory), (["site", "index.html"], .file crossroadsPage), (["site", "x.pdf"], .file []),
    (["site", "..html"], .file (Text.encode "<p>")),
    (["site", "\\.."], .directory), (["site", "\\..", "c.html"], .file (Text.encode "<p>")),
    (["app"], .directory), (["app", "src"], .directory)], [], []⟩

/-- **A link to anything that exists becomes a navigation link, with or without a route.** -/
theorem links_without_routes : ∃ r w', shelfProject.Clean true crossroads r w' ∧
    ∃ v ∈ shelfProject.trail true crossroads, v.path = ⟨1, ["site", "index.html"]⟩ ∧ shelfProject.converts v = true ∧
      ∀ href ∈ ["x.pdf", "..html", "\\../c.html"], ∃ tag ∈ shelfProject.tagsIn crossroadsPage,
        Mapping.handler? tag = some .hyperlink ∧
        Mapping.internalLink? (shelfProject.seenFrom v ⟨0, ["index.html"]⟩) [] "href" tag = some href ∧
        ∃ route, (∀ i, (Mapping.ofTag (shelfProject.seenFrom v ⟨0, ["index.html"]⟩) [] tag i).1 =
            ⟨tag.name, some (Mapping.navigationAttributes route (Attributes.passed [] tag.attributes))⟩) ∧
          route ≠ "/" ∧ ∀ e ∈ w'.routes.entries, e.route ≠ route := by
  obtain ⟨r, hclean⟩ : ∃ r, shelfProject.Clean true crossroads r ((shelfProject.build true).run.run crossroads).2 :=
    clean_of_isOk ⟨rfl, rfl, rfl, rfl, rfl, rfl, rfl⟩ (Path.isProper_ofString _) (Path.isProper_ofString _) (by decide)
      (by decide +kernel)
  have hpaths : shelfProject.trailPaths true crossroads = [⟨1, ["site", "..html"]⟩, ⟨1, ["site", "index.html"]⟩,
      ⟨1, ["site", "x.pdf"]⟩, ⟨1, ["site", "\\..", "c.html"]⟩] := by decide +kernel
  have hroutes : ((shelfProject.build true).run.run crossroads).2.routes.entries = [⟨"/", "./_"⟩, ⟨"../c", "./../C"⟩] := by
    decide +kernel
  let v : Visit := ⟨⟨1, ["site", "index.html"]⟩, shelfProject.after true ⟨1, ["site", "..html"]⟩ (fresh crossroads)⟩
  have hv : v ∈ shelfProject.trail true crossroads := by
    rw [trail, hpaths]
    exact List.mem_cons_of_mem _ List.mem_cons_self
  have hlinks : ∀ href ∈ ["x.pdf", "..html", "\\../c.html"], ∃ tag ∈ shelfProject.tagsIn crossroadsPage,
      Mapping.handler? tag = some .hyperlink ∧
      Mapping.internalLink? (shelfProject.seenFrom v ⟨0, ["index.html"]⟩) [] "href" tag = some href ∧
      Mapping.linkRoute (shelfProject.seenFrom v ⟨0, ["index.html"]⟩) href ∉ ["/", "../c"] := by decide +kernel
  refine ⟨r, _, hclean, v, hv, rfl, hclean.converts hv (by decide), fun href hhref => ?_⟩
  obtain ⟨tag, htag, hhandler, hinternal, hroute⟩ := hlinks href hhref
  refine ⟨tag, htag, hhandler, hinternal, _, Mapping.ofTag_of_internal hhandler hinternal, ?_⟩
  rw [hroutes]
  simpa [eq_comm] using hroute

end Project
end ReactSite
