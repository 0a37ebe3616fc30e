import ReactSite.Html.Page
import ReactSite.Proofs.Effects
/-!
# Accounting — what a pass reports and which routes it registers

A pass goes through the source files in the order of a walk (`trail_sourceFiles`).  What it reports and registers is read
off its visits: the counts, the failures, and one route for every document that was converted, whose module path leads to
the very file that the document's module was written to (`build_accounts`).
-/
namespace ReactSite

open FileTree (IsPlain IsName)

namespace Path

theorem ofString_dotted {parts : List String} (h : ∀ s ∈ parts, IsPlain s) :
    ofString ("/".intercalate ("." :: parts)) = ⟨0, parts⟩ := by
  have hslash : ∀ s ∈ "." :: parts, '/' ∉ s.toList := by
    rw [List.forall_mem_cons]
    exact ⟨by decide, fun s hs => (h s hs).slash_notMem⟩
  have hroot : Lexical.rootSlashes ("/".intercalate ("." :: parts)).toList = 0 := by
    rw [toList_intercalate_parts]
    cases parts <;> rfl
  rw [ofString_eq, hroot, components_intercalate (List.cons_ne_nil _ _) hslash, List.filter_cons_of_neg (by decide),
    filter_kept fun s hs => (h s hs).kept]

end Path

theorem notMem_intercalate {c : Char} (hc : c ≠ '/') {parts : List (List Char)} (h : ∀ s ∈ parts, c ∉ s) :
    c ∉ ['/'].intercalate parts := by
  induction parts with
  | nil => simp
  | cons s parts ih =>
    rw [List.forall_mem_cons] at h
    cases parts with
    | nil => simpa using h.1
    | cons s' parts => simpa [List.intercalate, hc, h.1] using ih h.2

theorem join_intercalate {dir : List String} (hdir : (⟨0, dir⟩ : Path).IsProper) {name : String} (hname : '/' ∉ name.toList) :
    Lexical.join ("/".intercalate dir) name = "/".intercalate (dir ++ [name]) := by
  have hhead := Lexical.head?_ne_of_notMem hname
  unfold Lexical.join Lexical.joinList
  by_cases h : dir = []
  · have hempty : ("/".intercalate ([] : List String)).toList = [] := by decide
    rw [if_neg hhead, h, hempty, if_pos (.inl rfl), List.nil_append, List.nil_append, String.ofList_toList,
      String.intercalate_singleton]
  · rw [if_neg hhead, if_neg (not_or.2 ⟨Path.intercalate_ne_nil h hdir, Path.getLast?_intercalate h hdir⟩),
      String.intercalate_append_of_ne_nil h (List.cons_ne_nil name []), String.intercalate_singleton]
    apply String.toList_injective
    simp

/-- **The module path of a route leads from the output directory to the document's module.** -/
theorem ofString_modulePath {dir : List String} {name : String} (hplain : ∀ s ∈ dir, IsPlain s)
    (hback : ∀ s ∈ dir, '\\' ∉ s.toList) (stem : String) :
    Path.ofString ((Router.entryFor (Project.directoryOf ⟨0, dir ++ [name]⟩) stem).modulePath ++ ".js") =
      ⟨0, dir ++ [Naming.component stem ++ ".js"]⟩ := by
  have hcomponent := Naming.isIdentifier_component stem
  have hparts : ∀ s ∈ dir ++ [Naming.component stem ++ ".js"], IsPlain s :=
    List.forall_mem_append.2 ⟨hplain, List.forall_mem_singleton.2 (Project.isPlain_moduleName stem)⟩
  have htext : (Router.entryFor (Project.directoryOf ⟨0, dir ++ [name]⟩) stem).modulePath ++ ".js" =
      "/".intercalate ("." :: (dir ++ [Naming.component stem ++ ".js"])) := by
    have hnot : '\\' ∉ ("/".intercalate dir).toList := by
      rw [Path.toList_intercalate_parts]
      exact notMem_intercalate (by decide) (by simpa using hback)
    have hdir : (⟨0, dir⟩ : Path).IsProper :=
      ⟨by simp, fun s hs => (hplain s hs).kept, fun s hs => (hplain s hs).slash_notMem⟩
    have hdot : "./" = "." ++ "/" := by decide
    unfold Router.entryFor
    rw [directoryOf_eq, cleanDirectory_eq_self hdir hnot]
    by_cases h : dir = []
    · have hempty : "/".intercalate ([] : List String) = "" := by decide
      simp only [h, hempty, if_true, List.nil_append, String.intercalate_cons_cons, String.intercalate_singleton, hdot,
        String.append_assoc]
    · have hne : "/".intercalate dir ≠ "" := fun e => Path.intercalate_ne_nil h hdir (by rw [e]; rfl)
      have hjoin := join_intercalate hdir (hcomponent.notMem (c := '/') (by decide) (by decide))
      simp only [hne, if_false, hjoin, hdot]
      rw [String.intercalate_cons_of_ne_nil (by simp), String.intercalate_append_of_ne_nil h (by simp),
        String.intercalate_append_of_ne_nil h (by simp), String.intercalate_singleton, String.intercalate_singleton]
      simp only [String.append_assoc]
  rw [htext, Path.ofString_dotted hparts]

namespace Project

open FileTree

variable {p : Project} {copyStatic : Bool} {w w' : Workspace} {r : Report}

theorem entryPath_eq (hstd : p.rules.IsStandard) : p.entryPath = p.source.descend ["index.html"] := by
  have hindex : Path.ofString "index.html" = ⟨0, ["index.html"]⟩ := by decide
  unfold entryPath
  rw [hstd.entryDocument, hindex, Path.join_relative]

/-- The source of a pass that comes to its end is a directory. -/
theorem exists_base (hstd : p.rules.IsStandard) (h : w.files.isFile p.entryPath = true) :
    ∃ base, w.files.locate p.source = .ok base ∧ w.files.get? base = some .directory := by
  rw [entryPath_eq hstd, ← Path.child_eq] at h
  have hdir := isDirectory_of_isFile_child h
  unfold FileTree.isDirectory at hdir
  exact node?_eq_some.1 (by simpa using hdir)

theorem namesEntry_outputPath (hstd : p.rules.IsStandard) (hdest : p.dest.IsProper) {names : List String}
    (h : ∀ s ∈ names, IsPlain s) : Path.NamesEntry (p.outputPath ⟨0, names⟩) := by
  rw [outputPath_eq hstd]
  exact namesEntry_output hstd hdest (isPlain_outputNames h)

/-- **What the conversion of a document on a visit has done**: its module is where it was to be written, and its route, if
it has one, leads there. -/
structure Converted (p : Project) (copyStatic : Bool) (v : Visit) (rel : Path) (text : String) : Prop where
  relative : p.relative v.before.files.current v.path = .ok rel
  result : p.result v = .ok (p.outputPath rel)
  module : p.moduleOf v.before.files rel = .ok text
  written : (p.after copyStatic v.path v.before).files.node? (p.outputPath rel) = some (.file (Text.encode text))
  registered : p.registered? v = if p.isEntryPath rel then none else some (Router.entryFor (directoryOf rel) rel.stem)
  modulePath : p.isEntryPath rel = false → p.output.join
    (Path.ofString ((Router.entryFor (directoryOf rel) rel.stem).modulePath ++ p.rules.moduleExtension)) = p.outputPath rel

theorem after_of_isPage {path : Path} (h : p.isPage path = true) :
    p.after copyStatic path w = ((p.convertPage true path).run.run w).2 := by
  unfold after
  rw [run_visit, if_pos h]
  rcases (p.convertPage true path).run.run w with ⟨f | target, w'⟩ <;> rfl

theorem exists_result {v : Visit} (h : p.converts v = true) :
    p.isPage v.path = true ∧ ∃ target, p.result v = .ok target := by
  unfold converts at h
  rw [Bool.and_eq_true] at h
  refine ⟨h.1, ?_⟩
  cases hresult : p.result v with
  | ok target => exact ⟨target, rfl⟩
  | error f =>
    rw [hresult] at h
    exact absurd h.2 (by simp [Except.isOk, Except.toBool])

@[simp] theorem visitedPath_descend (names : List String) : p.visitedPath (p.source.descend names) = ⟨0, names⟩ := by
  simp [visitedPath, Path.descend]

/-- **No directory on the way to a source file has a backslash in its name.** -/
def NoBackslash (p : Project) (t : FileTree) : Prop :=
  ∀ path ∈ p.sourceFiles t, ∀ s ∈ (p.visitedPath path).parent.parts, '\\' ∉ s.toList

instance (p : Project) (t : FileTree) : Decidable (p.NoBackslash t) :=
  inferInstanceAs (Decidable (∀ path ∈ p.sourceFiles t, ∀ s ∈ (p.visitedPath path).parent.parts, '\\' ∉ s.toList))

/-- The document that is read for a visited path is a source file, and was one at the start of the pass. -/
theorem exists_sourceFile (hsource : p.source.IsProper) {base : Location} (ht : w.files.IsTree)
    (hbase : w.files.locate p.source = .ok base)
    (hdir : w.files.get? base = some .directory) {v : Visit} (hbefore : Extends p.NoPage (fun _ => True) w.files v.before.files)
    (hpath : p.IsBelow v.path) (hpage : p.isPage v.path = true) {rel : Path} {text : String}
    (hrel : p.relative v.before.files.current v.path = .ok rel) (hmodule : p.moduleOf v.before.files rel = .ok text) :
    ∃ dir name, rel.parts = dir ++ [name] ∧ p.isPage ⟨0, dir ++ [name]⟩ = true ∧
      p.source.descend (dir ++ [name]) ∈ p.sourceFiles w.files := by
  obtain ⟨bytes, hnode, -⟩ := (moduleOf_eq_ok p).1 hmodule
  obtain ⟨hform, hplain⟩ := relative_below hsource (hbefore.isTree ht) hpath hrel
  obtain ⟨loc, hloc, hget⟩ := node?_eq_some.1 hnode
  rw [hform, Path.join_relative] at hloc
  obtain ⟨rfl, -⟩ := locate_names (hbefore.locate hbase) (parent_notMem hplain) hloc
  rcases List.eq_nil_or_concat rel.parts with hnil | ⟨dir, name, hparts⟩
  · -- the source itself is no document
    rw [hnil, List.append_nil, hbefore.directory hdir] at hget
    cases hget
  · rw [List.concat_eq_append] at hparts
    have hpage' : p.isPage ⟨0, rel.parts⟩ = true := by
      rw [isPage_relative hpath hform (by simp [hparts]) hrel, hpage]
    have hfile := (hbefore.file_iff (l := base ++ rel.parts) (fun hno => ?_) bytes).1 hget
    · rw [hparts] at hpage' hfile hloc
      refine ⟨dir, name, hparts, hpage', (mem_sourceFiles ht hbase).2 ⟨dir, name, bytes, rfl, ?_, hfile⟩⟩
      have hfault := (locate_eq_ok.1 hloc).1
      rw [← Path.descend_descend] at hfault
      exact pathFault?_of_descend hfault
    · rw [NoPage, isPage_congr (b := ⟨0, rel.parts⟩) (by simp [Path.name, hparts]), hpage'] at hno
      cases hno

section

variable (hstd : p.rules.IsStandard) (hsource : p.source.IsProper) (hdest : p.dest.IsProper)
include hstd hsource hdest

/-- **A document that was converted on a visit** has its module and its route. -/
theorem exists_converted {base : Location} (ht : w.files.IsTree) (hbase : w.files.locate p.source = .ok base)
    (hdir : w.files.get? base = some .directory) (hback : p.NoBackslash w.files) {v : Visit}
    (hv : v ∈ p.trail copyStatic w) (hconverts : p.converts v = true) : ∃ rel text, p.Converted copyStatic v rel text := by
  have hgrows := grows_standard (w := fresh w) hstd hsource hdest ht hbase copyStatic
  have hbefore := hgrows.extends_before hv
  have hpath : p.IsBelow v.path := by
    obtain ⟨done, rest, hpaths, -⟩ := exists_of_mem_visits hv
    exact hgrows.isBelow_trailPaths (by rw [hpaths]; simp)
  obtain ⟨hpage, target, hresult⟩ := exists_result hconverts
  have hrun : (p.convertPage true v.path).run.run v.before = (.ok target, p.after copyStatic v.path v.before) := by
    rw [after_of_isPage hpage]
    exact Prod.ext hresult rfl
  obtain ⟨rel, text, hrel, hmodule, htarget, hwrite, -⟩ := convertPage_eq_ok p hrun
  obtain ⟨hform, hplain⟩ := relative_below hsource (hbefore.isTree ht) hpath hrel
  refine ⟨rel, text, hrel, by rw [hresult, htarget], hmodule, ?_, ?_, ?_⟩
  · rw [htarget] at hwrite
    refine node?_writeText ?_ hwrite
    rw [hform]
    exact namesEntry_outputPath hstd hdest hplain
  · unfold registered?
    rw [hconverts, hrel]
  · intro hentry
    obtain ⟨dir, name, hparts, hpage', hsource'⟩ :=
      exists_sourceFile hsource ht hbase hdir hbefore hpath hpage hrel hmodule
    rw [hform, hparts] at hentry ⊢
    rw [hstd.moduleExtension, ofString_modulePath (fun s hs => hplain s (by simp [hparts, hs])) (by simpa using hback _ hsource'),
      outputPath_eq hstd]
    unfold outputNames
    simp [hpage', hentry, Path.join_relative]

/-- **What a pass accounts for**, told by its visits. -/
structure Accounts (p : Project) (copyStatic : Bool) (w : Workspace) (r : Report) (w' : Workspace) : Prop where
  /-- The visited documents are those of the source, in the order of a walk. -/
  documents : ((p.trail copyStatic w).map (·.path)).filter p.isPage = (p.sourceFiles w.files).filter p.isPage
  /-- Where source and output stand apart, so are the visited files. -/
  files : ∀ base out, w.files.locate p.source = .ok base → w.files.locate p.output = .ok out → ¬ base <+: out →
    ¬ out <+: base → (p.trail copyStatic w).map (·.path) = p.sourceFiles w.files
  once : ((p.trail copyStatic w).map (·.path)).Nodup
  pages : r.pages = (p.trail copyStatic w).countP p.converts
  failures : r.failures = (p.trail copyStatic w).filterMap p.failure?
  assets : r.assets = if copyStatic then (p.trail copyStatic w).countP (fun v => !p.isPage v.path) else 0
  routes : w'.routes.entries = (p.trail copyStatic w).filterMap p.registered?
  unregistered : ∀ v ∈ p.trail copyStatic w, p.converts v = false → p.registered? v = none
  converted : ∀ v ∈ p.trail copyStatic w, p.converts v = true → ∃ rel text, p.Converted copyStatic v rel text

/-- **Every pass that comes to its end keeps account** of what it visited, in whatever state the destination and the
routes were. -/
theorem build_accounts (ht : w.files.IsTree) (hback : p.NoBackslash w.files)
    (h : (p.build copyStatic).run.run w = (.ok r, w')) : p.Accounts copyStatic w r w' := by
  have hpasses := build_eq_ok.1 h
  obtain ⟨base, hbase, hdir⟩ := exists_base hstd hpasses.entry
  have hgrows := grows_standard (w := fresh w) hstd hsource hdest ht hbase copyStatic
  have hpaths : (p.trail copyStatic w).map (·.path) = p.trailPaths copyStatic w := map_path_visits _ _
  refine ⟨?_, ?_, ?_, ?_, ?_, ?_, ?_, ?_, ?_⟩
  · rw [hpaths]
    refine hgrows.filter_trailPaths fun names name hpage hno => ?_
    rw [NoPage, isPage_congr (b := p.source.descend (names ++ [name])) (by simp [Path.name, Path.descend]), hpage] at hno
    cases hno
  · intro base' out hbase' hout hbelow hout'
    have hapart := grows_apart (w := fresh w) hstd hsource hdest ht hbase' hout copyStatic
    have hall := hapart.filter_trailPaths (q := fun _ => true) fun names name _ => not_prefix_append hbelow hout' _
    simpa [hpaths] using hall
  · rw [hpaths]
    exact hgrows.nodup_trailPaths
  · rw [hpasses.report]
    rfl
  · rw [hpasses.report]
    rfl
  · rw [hpasses.report]
    rfl
  · rw [hpasses.routes, walkedThrough, routes_afterAll]
    rfl
  · intro v hv hno
    unfold registered?
    rw [hno]
  · exact fun v hv hconverts => exists_converted hstd hsource hdest ht hbase hdir hback hv hconverts

end

/-- A site with two documents, one that fails and an asset, and routes that an earlier pass has left. -/
def shelf : Workspace where
  files := ⟨[(["site"], .directory), (["site", "index.html"], .file (Text.encode "<p>Home</p>")),
    (["site", "team.html"], .file (Text.encode "<p>Team</p>")), (["site", "void.htm"], .file (Text.encode "<!-- -->")),
    (["site", "art"], .directory), (["site", "art", "logo.svg"], .file (Text.encode "<svg/>")),
    (["app"], .directory), (["app", "src"], .directory)], [], []⟩
  routes := { entries := [⟨"old", "./Old"⟩] }

def shelfProject : Project := ⟨Path.ofString "/site", Path.ofString "/app", {}, [], [], Html.read⟩

theorem build_accounts_shelf : ∃ r w', (shelfProject.build true).run.run shelf = (.ok r, w') ∧
    shelfProject.Accounts true shelf r w' ∧ r.pages = 2 ∧ r.failures.map (·.1) = ["void.htm"] ∧ r.assets = 1 ∧
      w'.routes.entries = [⟨"team", "./Team"⟩] := by
  have hreport : ((shelfProject.build true).run.run shelf).1.toOption.map
      (fun r => (r.pages, r.failures.map (·.1), r.assets)) = some (2, ["void.htm"], 1) := by decide +kernel
  have hroutes : ((shelfProject.build true).run.run shelf).2.routes.entries = [⟨"team", "./Team"⟩] := by decide +kernel
  rcases hrun : (shelfProject.build true).run.run shelf with ⟨f | r, w'⟩
  · rw [hrun] at hreport
    cases hreport
  · rw [hrun] at hreport hroutes
    have haccounts := build_accounts ⟨rfl, rfl, rfl, rfl, rfl, rfl, rfl⟩ (Path.isProper_ofString _) (Path.isProper_ofString _)
      (by decide) (by decide +kernel) hrun
    simp only [Except.toOption, Option.map_some, Option.some.injEq, Prod.mk.injEq] at hreport
    exact ⟨r, w', rfl, haccounts, hreport.1, hreport.2.1, hreport.2.2, hroutes⟩

end Project
end ReactSite
