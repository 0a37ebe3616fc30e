import ReactSite.Html.Page
import ReactSite.Mapping
import ReactSite.Proofs.Lookup
import ReactSite.Proofs.Spelling
import ReactSite.Proofs.Stems
import ReactSite.Proofs.Steps
/-!
# Agreement — a link leads to the route of the document it names

The route of a link comes from the text of its target, the route of a document from the components of its path.  A link
whose target is a document, or the directory that an index document stands for, leads to the very route that the
document is registered under (`linkRoute_eq`).
-/
namespace ReactSite

namespace Path

theorem toString_of_relative {parts : List String} (h : parts ≠ []) :
    (⟨0, parts⟩ : Path).toString = "/".intercalate parts := by
  unfold toString
  rw [if_neg (by simp [h])]
  simp

@[simp] theorem name_document (dir : List String) (name : String) : (⟨0, dir ++ [name]⟩ : Path).name = name := by
  simp [Path.name]

@[simp] theorem parent_document (dir : List String) (name : String) : (⟨0, dir ++ [name]⟩ : Path).parent = ⟨0, dir⟩ := by
  simp [parent]

theorem exists_document {p : Path} (hrel : p.slashes = 0) (hstem : ∃ c ∈ p.stem.toList, c ≠ '.') :
    ∃ dir name, p = ⟨0, dir ++ [name]⟩ := by
  obtain ⟨slashes, parts⟩ := p
  obtain rfl : slashes = 0 := hrel
  rcases List.eq_nil_or_concat parts with rfl | ⟨dir, name, rfl⟩
  · have hnone : (⟨0, []⟩ : Path).stem.toList = [] := by decide
    obtain ⟨c, hc, -⟩ := hstem
    rw [hnone] at hc
    cases hc
  · exact ⟨dir, name, by rw [List.concat_eq_append]⟩

section

variable {parts : List String}

theorem getLast?_intercalate (hne : parts ≠ []) (h : (⟨0, parts⟩ : Path).IsProper) :
    ("/".intercalate parts).toList.getLast? ≠ some '/' := by
  obtain ⟨init, last, rfl⟩ := List.eq_nil_or_concat parts |>.resolve_left hne
  rw [List.concat_eq_append] at h ⊢
  have hmem : last ∈ init ++ [last] := by simp
  have hlast := ne_nil_of_kept (h.kept last hmem)
  have hslash := h.slash_notMem last hmem
  have hend : last.toList.getLast? ≠ some '/' := fun e => hslash (List.mem_of_getLast? e)
  cases init with
  | nil => simpa using hend
  | cons s init =>
    have hsome := List.getLast?_eq_some_getLast hlast
    rw [hsome] at hend
    rw [String.intercalate_append_of_ne_nil (List.cons_ne_nil s init) (List.cons_ne_nil last []),
      String.intercalate_singleton, String.toList_append, List.getLast?_append, hsome]
    exact hend

theorem intercalate_ne_nil (hne : parts ≠ []) (h : (⟨0, parts⟩ : Path).IsProper) : ("/".intercalate parts).toList ≠ [] := by
  obtain ⟨s, rest, rfl⟩ := List.exists_cons_of_ne_nil hne
  have hs := ne_nil_of_kept (h.kept s List.mem_cons_self)
  cases rest with
  | nil => simpa using hs
  | cons t rest =>
    rw [String.intercalate_cons_cons]
    simp [hs]

end

end Path

namespace Surroundings

/-- **A link whose target is written as a proper path leads there.** -/
theorem target_eq {site : Surroundings} (hroot : site.sourceRoot.IsProper) {parts : List String}
    (hp : (⟨0, parts⟩ : Path).IsProper) {link : String} (h : site.sitePath link = (⟨0, parts⟩ : Path).toString) :
    site.target link = site.sourceRoot.join ⟨0, parts⟩ := by
  have hjoin : site.sourceRoot.join ⟨0, parts⟩ = ⟨site.sourceRoot.slashes, site.sourceRoot.parts ++ parts⟩ := rfl
  unfold target fullPath
  rw [h, hjoin]
  cases parts with
  | nil =>
    have hdot : Lexical.components (⟨0, []⟩ : Path).toString = ["."] := by decide
    have hnone : [("." : String)].filter Path.isKept = [] := by decide
    rw [hdot, Path.ofString_foldl_join _ (by decide), Path.ofString_toString hroot, hnone]
  | cons s rest =>
    have hcomponents := Path.components_intercalate (List.cons_ne_nil s rest) hp.slash_notMem
    rw [Path.toString_of_relative (List.cons_ne_nil s rest), hcomponents, Path.ofString_foldl_join _ hp.slash_notMem,
      Path.ofString_toString hroot, Path.filter_kept hp.kept]

end Surroundings

namespace Route

theorem slashed_eq_self {s : List Char} (h : '\\' ∉ s) : slashed s = s := by
  unfold slashed
  have hmap : s.map (fun c => if c = '\\' then '/' else c) = s.map id := by
    apply List.map_congr_left
    intro c hc
    have hne : c ≠ '\\' := fun e => h (e ▸ hc)
    rw [if_neg hne]
    rfl
  rw [hmap, List.map_id]

theorem dropWhile_slash_eq_self {s : List Char} (h : s.head? ≠ some '/') : s.dropWhile (· = '/') = s := by
  cases s with
  | nil => rfl
  | cons c s =>
    have hc : c ≠ '/' := by simpa using h
    simp [hc]

theorem unslashed_eq_self {s : List Char} (hhead : s.head? ≠ some '/') (hlast : s.getLast? ≠ some '/') :
    unslashed s = s := by
  unfold unslashed
  rw [dropWhile_slash_eq_self hhead, dropWhile_slash_eq_self (by rwa [List.head?_reverse]), List.reverse_reverse]

end Route

/-! ## A document in its directory -/

section

variable {dir : List String} {name : String}

theorem directoryOf_eq (dir : List String) (name : String) :
    Project.directoryOf ⟨0, dir ++ [name]⟩ = "/".intercalate dir := by
  unfold Project.directoryOf
  rw [Path.parent_document]
  by_cases h : dir = []
  · rw [if_pos h, h]
    decide
  · rw [if_neg h, Path.toString_of_relative h]

theorem isProper_directory (h : (⟨0, dir ++ [name]⟩ : Path).IsProper) : (⟨0, dir⟩ : Path).IsProper where
  slashes_le := h.slashes_le
  kept := fun s hs => h.kept s (List.mem_append_left _ hs)
  slash_notMem := fun s hs => h.slash_notMem s (List.mem_append_left _ hs)

theorem toList_document (dir : List String) (name : String) : (⟨0, dir ++ [name]⟩ : Path).toString.toList =
    if dir = [] then name.toList else ("/".intercalate dir).toList ++ '/' :: name.toList := by
  have hslash : "/".toList = ['/'] := by decide
  rw [Path.toString_of_relative (by simp)]
  by_cases h : dir = []
  · rw [if_pos h, h, List.nil_append, String.intercalate_singleton]
  · rw [if_neg h, String.intercalate_append_of_ne_nil h (List.cons_ne_nil name []), String.intercalate_singleton,
      String.toList_append, String.toList_append, hslash, List.append_assoc, List.singleton_append]

theorem cleanDirectory_eq_self (hdir : (⟨0, dir⟩ : Path).IsProper) (hback : '\\' ∉ ("/".intercalate dir).toList) :
    Router.cleanDirectory ("/".intercalate dir) = "/".intercalate dir := by
  unfold Router.cleanDirectory
  by_cases h : dir = []
  · rw [h]
    decide
  · have hhead : ("/".intercalate dir).toList.head? ≠ some '/' := by
      rw [Path.toList_intercalate_parts]
      exact Path.head?_intercalate hdir.kept hdir.slash_notMem
    rw [Route.slashed_eq_self hback, Route.unslashed_eq_self hhead (Path.getLast?_intercalate h hdir), String.ofList_toList]

/-- The text of a document's path falls apart into its directory and its stem. -/
theorem splitLast_dropExtension (hp : (⟨0, dir ++ [name]⟩ : Path).IsProper) (hend : name.toList.getLast? ≠ some '.')
    (hstem : ∃ c ∈ (Path.stemAndSuffix name.toList).1, c ≠ '.') :
    Lexical.splitLast (Lexical.dropExtension (⟨0, dir ++ [name]⟩ : Path).toString.toList) =
      (("/".intercalate dir).toList, (Path.stemAndSuffix name.toList).1) := by
  have hslash : '/' ∉ name.toList := hp.slash_notMem name (by simp)
  have hstemSlash : '/' ∉ (Path.stemAndSuffix name.toList).1 := fun h => hslash (Path.mem_of_mem_stem h)
  have hdrop := Path.dropExtension_eq_stem hslash hend hstem
  rw [toList_document]
  by_cases h : dir = []
  · rw [if_pos h, hdrop, Lexical.splitLast_of_notMem hstemSlash, h]
    rfl
  · have hdir := isProper_directory hp
    rw [if_neg h, Lexical.dropExtension_append _ hslash, hdrop,
      Lexical.splitLast_append (Path.intercalate_ne_nil h hdir) (Path.getLast?_intercalate h hdir) hstemSlash]

theorem stem_eq (dir : List String) (name : String) :
    (⟨0, dir ++ [name]⟩ : Path).stem = String.ofList (Path.stemAndSuffix name.toList).1 := by
  rw [Path.stem, Path.name_document]

theorem route_entryFor (hp : (⟨0, dir ++ [name]⟩ : Path).IsProper)
    (hback : '\\' ∉ (⟨0, dir ++ [name]⟩ : Path).toString.toList) :
    (Router.entryFor (Project.directoryOf ⟨0, dir ++ [name]⟩) (⟨0, dir ++ [name]⟩ : Path).stem).route =
      Route.ofDocument ("/".intercalate dir) (⟨0, dir ++ [name]⟩ : Path).stem := by
  have hnot : '\\' ∉ ("/".intercalate dir).toList := by
    rw [toList_document] at hback
    split at hback
    · rename_i h
      simp [h]
    · exact fun hm => hback (List.mem_append_left _ hm)
  unfold Router.entryFor
  rw [directoryOf_eq, cleanDirectory_eq_self (isProper_directory hp) hnot]

end

namespace Mapping

variable {site : Surroundings} {dir : List String} {link : String}

theorem linkRoute_of_document (hroot : site.sourceRoot.IsProper) {name : String}
    (hp : (⟨0, dir ++ [name]⟩ : Path).IsProper) (hfile : site.files.isFile (site.sourceRoot.join ⟨0, dir ++ [name]⟩) = true)
    (hback : '\\' ∉ (⟨0, dir ++ [name]⟩ : Path).toString.toList) (hend : name.toList.getLast? ≠ some '.')
    (hstem : ∃ c ∈ (Path.stemAndSuffix name.toList).1, c ≠ '.')
    (hlink : site.sitePath link = (⟨0, dir ++ [name]⟩ : Path).toString) :
    linkRoute site link =
      (Router.entryFor (Project.directoryOf ⟨0, dir ++ [name]⟩) (⟨0, dir ++ [name]⟩ : Path).stem).route := by
  have htarget := Surroundings.target_eq hroot hp hlink
  have hindex : site.servesIndex link = false := by
    unfold Surroundings.servesIndex
    rw [htarget, FileTree.isDirectory_of_isFile hfile]
    rfl
  rw [route_entryFor hp hback, stem_eq]
  unfold linkRoute
  simp only [hindex, hlink, splitLast_dropExtension hp hend hstem, Bool.false_eq_true, if_false, String.ofList_toList]

theorem linkRoute_of_directory (hroot : site.sourceRoot.IsProper) (hp : (⟨0, dir ++ [indexDocument]⟩ : Path).IsProper)
    (hfile : site.files.isFile (site.sourceRoot.join ⟨0, dir ++ [indexDocument]⟩) = true)
    (hback : '\\' ∉ (⟨0, dir ++ [indexDocument]⟩ : Path).toString.toList)
    (hlink : site.sitePath link = (⟨0, dir⟩ : Path).toString) :
    linkRoute site link =
      (Router.entryFor (Project.directoryOf ⟨0, dir ++ [indexDocument]⟩) (⟨0, dir ++ [indexDocument]⟩ : Path).stem).route := by
  have htarget := Surroundings.target_eq hroot (isProper_directory hp) hlink
  have hchild : site.sourceRoot.join ⟨0, dir ++ [indexDocument]⟩ = (site.sourceRoot.join ⟨0, dir⟩).child indexDocument := by
    simp [Path.join, Path.child, Path.isAbsolute]
  rw [hchild] at hfile
  have hindex : site.servesIndex link = true := by
    unfold Surroundings.servesIndex
    rw [htarget, FileTree.isDirectory_of_isFile_child hfile, FileTree.pathExists_of_isFile hfile]
    rfl
  have hstem : String.ofList (Path.stemAndSuffix indexDocument.toList).1 = "index" := by decide
  rw [route_entryFor hp hback, stem_eq, hstem]
  unfold linkRoute Route.ofDocument
  simp only [hindex, hlink, if_true]
  by_cases h : dir = []
  · rw [h]
    decide
  · rw [Path.toString_of_relative h]

/-- **Links and routes agree.**  A link to a document, or to the directory that an index document stands for, leads to
the route that a conversion of the document registers. -/
theorem linkRoute_eq (site : Surroundings) (P : Path) (link : String) (hroot : site.sourceRoot.IsProper)
    (hP : P.IsProper) (hrel : P.slashes = 0) (hfile : site.files.isFile (site.sourceRoot.join P) = true)
    (hback : '\\' ∉ P.toString.toList) (hdots : ∃ c ∈ P.stem.toList, c ≠ '.') (hend : P.name.toList.getLast? ≠ some '.')
    (hlink : site.sitePath link = P.toString ∨ (P.name = indexDocument ∧ site.sitePath link = P.parent.toString)) :
    (∀ (p : Project) (path target : Path) (w w' : Workspace), p.relative w.files.current path = .ok P →
      p.isEntryPath P = false → (p.convertPage true path).run.run w = (.ok target, w') →
        ∃ e, w'.routes.entries = w.routes.entries ++ [e] ∧ e.route = linkRoute site link) ∧
      (P = ⟨0, ["index.html"]⟩ → linkRoute site link = "/") := by
  have hroute : linkRoute site link = (Router.entryFor (Project.directoryOf P) P.stem).route := by
    obtain ⟨dir, name, rfl⟩ := Path.exists_document hrel hdots
    rw [Path.name_document] at hend
    rw [stem_eq, String.toList_ofList] at hdots
    rcases hlink with hlink | ⟨hindex, hlink⟩
    · exact linkRoute_of_document hroot hP hfile hback hend hdots hlink
    · rw [Path.name_document] at hindex
      rw [Path.parent_document] at hlink
      subst hindex
      exact linkRoute_of_directory hroot hP hfile hback hlink
  refine ⟨?_, ?_⟩
  · intro p path target w w' hrelative hentry hrun
    have hroutes := Project.routes_of_convertPage hrelative hrun
    rw [hentry, if_neg Bool.false_ne_true] at hroutes
    exact ⟨_, by rw [hroutes]; rfl, hroute.symm⟩
  · rintro rfl
    rw [hroute]
    decide

/-- A site with a page and an index document in its blog, seen from a page in its documentation. -/
def blogSite : Surroundings where
  files := ⟨[(["site"], .directory), (["site", "docs"], .directory), (["site", "blog"], .directory),
    (["site", "blog", "team.v2.html"], .file (Text.encode "<p>Hello</p>")),
    (["site", "blog", "index.html"], .file (Text.encode "<p>All</p>")),
    (["app"], .directory), (["app", "src"], .directory)], [], []⟩
  sourceRoot := Path.ofString "/site"
  directory := "docs"

def blogProject : Project := ⟨Path.ofString "/site", Path.ofString "/app", {}, [], [], Html.read⟩

theorem linkRoute_eq_blogSite :
    (∃ target w' e, (blogProject.convertPage true (Path.ofString "blog/team.v2.html")).run.run ⟨blogSite.files, {}⟩ =
        (.ok target, w') ∧ w'.routes.entries = [e] ∧ e.route = linkRoute blogSite "..//blog/./x/../team.v2.html") ∧
      ∃ target w' e, (blogProject.convertPage true (Path.ofString "blog/index.html")).run.run ⟨blogSite.files, {}⟩ =
        (.ok target, w') ∧ w'.routes.entries = [e] ∧ e.route = linkRoute blogSite "/blog/" := by
  constructor
  · obtain ⟨hroute, -⟩ := linkRoute_eq blogSite ⟨0, ["blog", "team.v2.html"]⟩ "..//blog/./x/../team.v2.html"
      (Path.isProper_ofString _) (Path.isProper_ofString "blog/team.v2.html") rfl (by decide) (by decide)
      ⟨'t', by decide, by decide⟩ (by decide) (.inl (by decide))
    have hrun : ((blogProject.convertPage true (Path.ofString "blog/team.v2.html")).run.run ⟨blogSite.files, {}⟩).1 =
      .ok (Path.ofString "/app/src/blog/Team_v2.js") := by decide +kernel
    obtain ⟨e, he, hlink⟩ := hroute blogProject _ _ _ _ rfl (by decide) (Prod.ext hrun rfl)
    exact ⟨_, _, e, Prod.ext hrun rfl, he, hlink⟩
  · obtain ⟨hroute, -⟩ := linkRoute_eq blogSite ⟨0, ["blog", "index.html"]⟩ "/blog/"
      (Path.isProper_ofString _) (Path.isProper_ofString "blog/index.html") rfl (by decide) (by decide)
      ⟨'i', by decide, by decide⟩ (by decide) (.inr (by decide))
    have hrun : ((blogProject.convertPage true (Path.ofString "blog/index.html")).run.run ⟨blogSite.files, {}⟩).1 =
      .ok (Path.ofString "/app/src/blog/Index.js") := by decide +kernel
    obtain ⟨e, he, hlink⟩ := hroute blogProject _ _ _ _ rfl (by decide) (Prod.ext hrun rfl)
    exact ⟨_, _, e, Prod.ext hrun rfl, he, hlink⟩

/-- A document whose name ends in a dot. -/
def dottedSite : Surroundings where
  files := ⟨[(["site"], .directory), (["site", "e."], .file (Text.encode "<p>e</p>")),
    (["app"], .directory), (["app", "src"], .directory)], [], []⟩
  sourceRoot := Path.ofString "/site"

def plainProject : Project := ⟨Path.ofString "/site", Path.ofString "/app", { markupExtensions := ["", ".html"] }, [], [], Html.read⟩

/-- **A dot at the end is cut off a link, but not off a document's name**, which then are two routes. -/
theorem linkRoute_ne_of_final_dot :
    plainProject.isPage ⟨0, ["e."]⟩ = true ∧ dottedSite.files.isFile (dottedSite.sourceRoot.join ⟨0, ["e."]⟩) = true ∧
      '\\' ∉ (⟨0, ["e."]⟩ : Path).toString.toList ∧ (∃ c ∈ (⟨0, ["e."]⟩ : Path).stem.toList, c ≠ '.') ∧
      dottedSite.sitePath "e." = (⟨0, ["e."]⟩ : Path).toString ∧
      ∃ target w' e, (plainProject.convertPage true (Path.ofString "e.")).run.run ⟨dottedSite.files, {}⟩ =
        (.ok target, w') ∧ w'.routes.entries = [e] ∧ e.route ≠ linkRoute dottedSite "e." := by
  have hrun : ((plainProject.convertPage true (Path.ofString "e.")).run.run ⟨dottedSite.files, {}⟩).1 =
    .ok (Path.ofString "/app/src/E_.js") := by decide +kernel
  have hentries : ((plainProject.convertPage true (Path.ofString "e.")).run.run ⟨dottedSite.files, {}⟩).2.routes.entries =
    [⟨"e.", "./E_"⟩] := by decide +kernel
  exact ⟨by decide, by decide, by decide, ⟨'e', by decide, by decide⟩, by decide, _, _, _, Prod.ext hrun rfl, hentries,
    by decide⟩

end Mapping
end ReactSite
