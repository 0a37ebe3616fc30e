import ReactSite.Proofs.Documents
import ReactSite.Proofs.Placing
/-!
# Keeping — whether the outputs of a pass survive it

Every visit leaves its output, and nothing keeps two outputs apart: a pass keeps its outputs exactly when those that share
a place have the same bytes and no directory stood in the place of an asset (`keeps_iff`).  Two documents whose names differ
in the suffix alone already break it (`not_keeps_twinShelf`).
-/
namespace ReactSite
namespace Project

open FileTree

variable {p : Project} {out : Location}

/-- What lies on the way to an output lies on the way to its source file. -/
theorem take_outputNames {names : List String} {j : Nat} (hpos : 0 < j) (hlt : j < (p.outputNames names).length) :
    (p.outputNames names).take j <+: names ∧ (p.outputNames names).take j ≠ names := by
  have hshort : ∀ {l : List String}, l <+: names → l.length = j → j < names.length → l <+: names ∧ l ≠ names :=
    fun hpre hlen hj => ⟨hpre, fun heq => by rw [heq] at hlen; omega⟩
  unfold outputNames at *
  split at hlt
  · rename_i hpage
    rw [if_pos hpage]
    exact hshort (List.take_prefix _ _) (by rw [List.length_take]; omega) hlt
  · rename_i hpage
    rw [if_neg hpage]
    split at hlt
    · simp at hlt
      omega
    · rename_i hentry
      rw [List.length_append, List.length_dropLast, List.length_singleton] at hlt
      rw [if_neg hentry, List.take_append_of_le_length (by rw [List.length_dropLast]; omega)]
      refine hshort ((List.take_prefix _ _).trans (List.dropLast_prefix _)) ?_ (by omega)
      rw [List.length_take, List.length_dropLast]
      omega

theorem pathFault?_of_slot {t : FileTree} {q : Path} {loc : Location} (h : t.slot q = .ok loc) : pathFault? q = none := by
  unfold slot at h
  split at h
  · exact (locate_eq_ok.1 h).1
  · split at h
    · cases h
    · assumption

theorem pathFault?_of_goesOn {v : Visit} (hkind : p.isPage v.path = false) (hgoes : p.GoesOn true v)
    (hrel : p.relative v.before.files.current v.path = .ok (p.visitedPath v.path)) :
    pathFault? (p.outputPath (p.visitedPath v.path)) = none := by
  obtain ⟨target, htarget⟩ := hgoes hkind rfl
  obtain ⟨rel, files, hrel', -, hcopy⟩ :=
    placeAsset_eq_ok p (Prod.ext htarget rfl : (p.placeAsset v.path).run.run v.before = (.ok target, _))
  rw [hrel, Except.ok.injEq] at hrel'
  subst hrel'
  obtain ⟨bytes, loc, -, hslot, -⟩ := copy_eq_ok hcopy
  have hfault := pathFault?_of_slot hslot
  unfold copyTarget at hfault
  split at hfault
  · rw [Path.child_eq] at hfault
    exact pathFault?_of_descend hfault
  · exact hfault

/-- **Every output of a pass holds what its visit had to leave**, and the entry module is in its place. -/
structure Keeps (p : Project) (w w' : Workspace) : Prop where
  outputs : ∀ v ∈ p.trail true w, ∃ bytes, p.payload v = some bytes ∧
    w'.files.node? (p.outputPath (p.visitedPath v.path)) = some (.file bytes)
  entryModule : w'.files.node? p.routePath = some (.file (Text.encode w'.routes.entryModule))

/-- **Outputs do not get in each other's way**: those that share a place are the same, the entry module included, and no
directory stands in the place of an asset. -/
structure Disjoint (p : Project) (w w' : Workspace) : Prop where
  outputs : ∀ u ∈ p.trail true w, ∀ v ∈ p.trail true w,
    p.outputPath (p.visitedPath u.path) = p.outputPath (p.visitedPath v.path) → p.payload u = p.payload v
  entryModule : ∀ v ∈ p.trail true w, p.outputPath (p.visitedPath v.path) = p.routePath →
    p.payload v = some (Text.encode w'.routes.entryModule)
  directories : ∀ v ∈ p.trail true w, p.isPage v.path = false →
    w.files.isDirectory (p.outputPath (p.visitedPath v.path)) = false

namespace Clean

variable {copyStatic : Bool} {w w' : Workspace} {r : Report} {base : Location}

section

variable (h : p.Clean copyStatic w r w') (hbase : w.files.locate p.source = .ok base)
include h

theorem outNames_descend (names : List String) : p.outNames (p.source.descend names) = p.outputNames names :=
  outNames_eq (by rw [visitedPath_descend, outputPath_eq h.standard])

include hbase

/-- No output of a document or an asset has another file's place on its way. -/
theorem not_onTheWay {path asset : Path} (hpath : path ∈ p.sourceFiles w.files) (hasset : asset ∈ p.sourceFiles w.files)
    (hkind : p.isPage asset = false) : ¬ OnTheWay out (p.outNames path) (out ++ p.outNames asset) := by
  obtain ⟨dir, name, content, rfl, -, hget⟩ := (mem_sourceFiles h.isTree hbase).1 hpath
  obtain ⟨dir', name', content', rfl, -, hget'⟩ := (mem_sourceFiles h.isTree hbase).1 hasset
  rw [h.outNames_descend, h.outNames_descend]
  rintro ⟨j, hpos, hlt, heq⟩
  rw [isPage_congr (b := ⟨0, dir' ++ [name']⟩) (by simp [Path.name, Path.descend])] at hkind
  have hplace : p.outputNames (dir' ++ [name']) = dir' ++ [name'] := by
    unfold outputNames
    rw [if_pos (by simp [hkind])]
  rw [hplace] at heq
  obtain ⟨hpre, hne⟩ := take_outputNames hpos hlt
  rw [← List.append_cancel_left heq] at hpre hne
  -- the asset would be a directory of the source
  have hdir := h.isTree.directory_of_prefix ((List.prefix_append_right_inj base).2 hpre)
    (fun h => hne (List.append_cancel_left h)) hget
  rw [hdir] at hget'
  cases hget'

section

variable (hout : w.files.locate p.output = .ok out) (hbelow : ¬ base <+: out) (habove : ¬ out <+: base)
include hout hbelow habove

/-- **A visit of a pass leaves its output**, if the pass treats the file and no directory stood in the place of an asset. -/
theorem exists_leaves {v : Visit} (htreats : p.treats copyStatic v.path = true)
    (hbefore : Extends (out <+: ·) (out <+: ·) w.files v.before.files)
    (hpath : v.path ∈ p.sourceFiles w.files) (hpage : p.isPage v.path = true → p.converts v = true)
    (hasset : p.isPage v.path = false → p.GoesOn true v ∧
      v.before.files.get? (out ++ p.outNames v.path) ≠ some .directory) : ∃ bytes, p.Leaves copyStatic out v bytes := by
  obtain ⟨dir, name, content, heq, -, hget⟩ := (mem_sourceFiles h.isTree hbase).1 hpath
  have hnames : ∀ s ∈ dir ++ [name], IsName s := fun s hs => h.isTree.isName_of_get? hget s (List.mem_append_right _ hs)
  have hplain : ∀ s ∈ p.outputNames (dir ++ [name]), IsPlain s := isPlain_outputNames fun s hs => (hnames s hs).toIsPlain
  rw [heq, h.outNames_descend] at hasset
  have hrel : p.relative v.before.files.current v.path = .ok (p.visitedPath v.path) := by
    rw [heq, hbefore.current, visitedPath_descend]
    exact h.relative_eq hnames
  have houtput : p.outputPath (p.visitedPath v.path) = p.output.descend (p.outputNames (dir ++ [name])) := by
    rw [heq, visitedPath_descend, outputPath_eq h.standard]
  refine Project.exists_leaves (hbefore.isTree h.isTree) (hbefore.locate hout) hrel houtput
    (namesEntry_output h.standard h.dest hplain) hplain (outputNames_ne_nil (by simp)) hpage (fun hkind => ?_) htreats
  obtain ⟨hgoes, hdir⟩ := hasset (heq ▸ hkind)
  refine ⟨hgoes, ⟨content, ?_⟩, hdir⟩
  -- the asset was found when it was copied, so its path is none that is refused
  obtain ⟨target, htarget⟩ := hgoes hkind rfl
  obtain ⟨rel, files, -, -, hcopy⟩ :=
    placeAsset_eq_ok p (Prod.ext htarget rfl : (p.placeAsset v.path).run.run v.before = (.ok target, _))
  obtain ⟨bytes, -, hnode, -⟩ := copy_eq_ok hcopy
  obtain ⟨loc, hloc, -⟩ := node?_eq_some.1 hnode
  have hfault := (locate_eq_ok.1 hloc).1
  rw [heq] at hfault ⊢
  have hfile : v.before.files.get? (base ++ (dir ++ [name])) = some (.file content) :=
    (hbefore.file_iff (not_prefix_append hbelow habove _) content).2 hget
  exact node?_eq_some.2 ⟨_, locate_of_get? (hbefore.isTree h.isTree) (hbefore.locate hbase) hfault hfile, hfile⟩

/-- **All visits leave their outputs**, if no directory stood in the place of an asset. -/
theorem forall_leaves : ∀ {paths : List Path} {w₀ : Workspace}, Extends (out <+: ·) (out <+: ·) w.files w₀.files →
    (∀ path ∈ paths, path ∈ p.sourceFiles w.files) →
    (∀ v ∈ p.visits copyStatic paths w₀, p.GoesOn copyStatic v ∧ (p.isPage v.path = true → p.converts v = true)) →
    (∀ path ∈ paths, p.isPage path = false → p.treats copyStatic path = true →
      w₀.files.get? (out ++ p.outNames path) ≠ some .directory) →
    ∀ v ∈ p.visits copyStatic paths w₀, p.treats copyStatic v.path = true → ∃ bytes, p.Leaves copyStatic out v bytes
  | [], _, _, _, _, _ => fun _ hv => (List.not_mem_nil hv).elim
  | path :: paths, w₀, hbefore, hpaths, hgood, hfree => by
    rw [visits, List.forall_mem_cons] at hgood ⊢
    rw [List.forall_mem_cons] at hpaths hfree
    cases htreats : p.treats copyStatic path with
    | false =>
      refine ⟨fun hno => by simp at hno, forall_leaves ?_ hpaths.2 hgood.2 ?_⟩
      · rwa [after_of_not_treats htreats]
      · rw [after_of_not_treats htreats]
        exact hfree.2
    | true =>
      have hkindly : p.isPage path = false → copyStatic = true := fun hkind => by simpa [treats, hkind] using htreats
      obtain ⟨bytes, hleaves⟩ := h.exists_leaves hbase hout hbelow habove (v := ⟨path, w₀⟩) htreats hbefore hpaths.1
        hgood.1.2 fun hkind => ⟨hkindly hkind ▸ hgood.1.1, hfree.1 hkind htreats⟩
      have hgrown := hleaves.grown
      refine ⟨fun _ => ⟨bytes, hleaves⟩, forall_leaves (hbefore.trans (hgrown.mono ?_ ?_)) hpaths.2 hgood.2
        fun asset hmem hkind htreats' => ?_⟩
      · rintro l rfl
        exact List.prefix_append _ _
      · rintro l ⟨j, -, -, rfl⟩
        exact List.prefix_append _ _
      · rcases hgrown.change (out ++ p.outNames asset) with heq | ⟨-, -, hway⟩ | ⟨-, ⟨content, hfile⟩, -⟩
        · rw [heq]
          exact hfree.2 asset hmem hkind htreats'
        · exact absurd hway (h.not_onTheWay hbase hpaths.1 (hpaths.2 asset hmem) hkind)
        · rw [hfile]
          simp

/-- **Where source and output stand apart, a pass visits the source files.** -/
theorem map_path_trail : (p.trail copyStatic w).map (·.path) = p.sourceFiles w.files := by
  have hapart := grows_apart (w := fresh w) h.standard h.source h.dest h.isTree hbase hout copyStatic
  have hall := hapart.filter_trailPaths (q := fun _ => true) fun names name _ => not_prefix_append hbelow habove _
  rw [trail, map_path_visits]
  simpa using hall

theorem outputPath_of_mem {v : Visit} (hv : v ∈ p.trail copyStatic w) :
    p.outputPath (p.visitedPath v.path) = p.output.descend (p.outNames v.path) := by
  have hmem := List.mem_map_of_mem (f := (·.path)) hv
  rw [h.map_path_trail hbase hout hbelow habove] at hmem
  obtain ⟨dir, name, content, heq, -, -⟩ := (mem_sourceFiles h.isTree hbase).1 hmem
  rw [heq, h.outNames_descend, visitedPath_descend, outputPath_eq h.standard]

omit hbelow habove in
theorem entryModule_places : Extends (· = out ++ ["index.js"]) Nowhere (p.walkedThrough copyStatic w).files w'.files ∧
    w'.files.get? (out ++ ["index.js"]) = some (.file (Text.encode w'.routes.entryModule)) ∧
    w'.files.locate p.routePath = .ok (out ++ ["index.js"]) := by
  have hwalked := (grows_apart (w := fresh w) h.standard h.source h.dest h.isTree hbase hout copyStatic).extends_walkedThrough
  have hroute : p.routePath = p.output.descend ["index.js"] := routePath_eq h.standard
  have hindex : ∀ s ∈ ["index.js"], IsPlain s := by decide
  have hwrite := h.passes.files
  rw [← h.passes.routes, hroute] at hwrite
  obtain ⟨hgrown, hplaced, hlocated⟩ := writeText_places (hwalked.isTree h.isTree) (hwalked.locate hout)
    (namesEntry_output h.standard h.dest hindex) hindex hwrite
  refine ⟨hgrown.mono (fun _ => id) ?_, hplaced, by rwa [hroute]⟩
  rintro l ⟨j, hpos, hlt, -⟩
  rw [List.length_singleton] at hlt
  omega

end

end

section

variable (h : p.Clean true w r w') (hbase : w.files.locate p.source = .ok base) (hout : w.files.locate p.output = .ok out)
  (hbelow : ¬ base <+: out) (habove : ¬ out <+: base)
include h hbase hout hbelow habove

theorem leaves_of_directories (hfree : ∀ v ∈ p.trail true w, p.isPage v.path = false →
    w.files.isDirectory (p.outputPath (p.visitedPath v.path)) = false) :
    ∀ v ∈ p.trail true w, ∃ bytes, p.Leaves true out v bytes := by
  have hpaths := h.map_path_trail hbase hout hbelow habove
  refine fun v hv => h.forall_leaves hbase hout hbelow habove (.refl _ _ (fresh w).files) (fun path hpath => ?_)
    (fun v hv => ⟨h.passes.goesOn v hv, h.converts hv⟩) (fun path hpath hkind _ hdir => ?_) v hv (by simp [treats])
  · rwa [← hpaths, trail, map_path_visits]
  · have hmap : (p.trail true w).map (·.path) = p.trailPaths true w := map_path_visits _ _
    rw [← hmap] at hpath
    obtain ⟨v, hv, rfl⟩ := List.mem_map.1 hpath
    have hmem := List.mem_map_of_mem (f := (·.path)) hv
    rw [hpaths] at hmem
    obtain ⟨dir, name, content, heq, -, hget⟩ := (mem_sourceFiles h.isTree hbase).1 hmem
    have hfault := pathFault?_of_goesOn hkind (h.passes.goesOn v hv) (by
      rw [heq, (h.grows hbase).extends_before hv |>.current, visitedPath_descend]
      exact h.relative_eq fun s hs => h.isTree.isName_of_get? hget s (List.mem_append_right _ hs))
    have hisdir := hfree v hv hkind
    rw [h.outputPath_of_mem hbase hout hbelow habove hv] at hfault hisdir
    rw [isDirectory_of_get? (locate_of_get? h.isTree hout hfault hdir) hdir] at hisdir
    cases hisdir

theorem keeps_of_disjoint (hdisjoint : p.Disjoint w w') : p.Keeps w w' := by
  have hwalked := (grows_apart (w := fresh w) h.standard h.source h.dest h.isTree hbase hout true).extends_walkedThrough
  have houtput : ∀ v ∈ p.trail true w, _ := fun v hv => h.outputPath_of_mem hbase hout hbelow habove hv
  have hleaves := h.leaves_of_directories hbase hout hbelow habove hdisjoint.directories
  obtain ⟨hgrown, hplaced, hlocated⟩ := h.entryModule_places hbase hout
  obtain ⟨hkept, -⟩ := kept_of_leaves (fun v hv _ => hleaves v hv) fun u hu v hv _ _ hsame =>
    hdisjoint.outputs u hu v hv (by rw [houtput u hu, houtput v hv, hsame])
  refine ⟨fun v hv => ?_, node?_eq_some.2 ⟨_, hlocated, hplaced⟩⟩
  obtain ⟨bytes, hbytes⟩ := hleaves v hv
  have hget : w'.files.get? (out ++ p.outNames v.path) = some (.file bytes) := by
    rcases hgrown.change (out ++ p.outNames v.path) with heq | ⟨-, -, hno⟩ | ⟨-, -, heq⟩
    · rw [heq]
      exact hkept v hv (by simp [treats]) bytes hbytes.payload
    · exact hno.elim
    · -- the entry module was written in the same place
      have hsame := hdisjoint.entryModule v hv (by
        rw [houtput v hv, List.append_cancel_left heq]
        exact (routePath_eq h.standard).symm)
      rw [hbytes.payload, Option.some.injEq] at hsame
      rw [heq, hplaced, hsame]
  have hfault := (locate_eq_ok.1 hbytes.located).1
  rw [houtput v hv] at hfault ⊢
  exact ⟨bytes, hbytes.payload, node?_eq_some.2 ⟨_, locate_of_get? (hgrown.isTree (hwalked.isTree h.isTree))
    (hgrown.locate (hwalked.locate hout)) hfault hget, hget⟩⟩

omit hbelow habove in
theorem disjoint_of_keeps (hkeeps : p.Keeps w w') : p.Disjoint w w' := by
  have hwalked := (grows_apart (w := fresh w) h.standard h.source h.dest h.isTree hbase hout true).extends_walkedThrough
  obtain ⟨hgrown, -, -⟩ := h.entryModule_places hbase hout
  refine ⟨fun u hu v hv hsame => ?_, fun v hv hsame => ?_, fun v hv hkind => ?_⟩
  · obtain ⟨bytes, hpayload, hnode⟩ := hkeeps.outputs u hu
    obtain ⟨bytes', hpayload', hnode'⟩ := hkeeps.outputs v hv
    rw [hsame, hnode', Option.some.injEq, FileNode.file.injEq] at hnode
    rw [hpayload, hpayload', hnode]
  · obtain ⟨bytes, hpayload, hnode⟩ := hkeeps.outputs v hv
    rw [hsame, hkeeps.entryModule, Option.some.injEq, FileNode.file.injEq] at hnode
    rw [hpayload, hnode]
  · -- a directory would still be there at the end
    obtain ⟨bytes, -, hnode⟩ := hkeeps.outputs v hv
    refine Bool.eq_false_iff.2 fun hdir => ?_
    have hdir' := hgrown.isDirectory (hwalked.isDirectory hdir)
    unfold isDirectory at hdir'
    rw [hnode] at hdir'
    simp at hdir'

/-- A source file is, when it is visited, what it was at the start. -/
theorem node?_before {v : Visit} (hv : v ∈ p.trail true w) : v.before.files.node? v.path = w.files.node? v.path := by
  have hbefore := (grows_apart (w := fresh w) h.standard h.source h.dest h.isTree hbase hout true).extends_before hv
  have hmem := List.mem_map_of_mem (f := (·.path)) hv
  rw [h.map_path_trail hbase hout hbelow habove] at hmem
  obtain ⟨dir, name, content, heq, -, hget⟩ := (mem_sourceFiles h.isTree hbase).1 hmem
  have hget' : v.before.files.get? (base ++ (dir ++ [name])) = some (.file content) :=
    (hbefore.file_iff (not_prefix_append hbelow habove _) content).2 hget
  rw [heq]
  by_cases hfault : pathFault? (p.source.descend (dir ++ [name])) = none
  · rw [node?_eq_some.2 ⟨_, locate_of_get? h.isTree hbase hfault hget, hget⟩]
    exact node?_eq_some.2 ⟨_, locate_of_get? (hbefore.isTree h.isTree) (hbefore.locate hbase) hfault hget', hget'⟩
  · have hnone : ∀ t : FileTree, t.node? (p.source.descend (dir ++ [name])) = none := by
      intro t
      unfold node? locate
      split
      · split at *
        · cases ‹_›
        · contradiction
      · rfl
    rw [hnone, hnone]

/-- **A pass keeps its outputs exactly when they do not get in each other's way.**  It visits the source files, each as it
was at the start. -/
theorem keeps_iff : (p.trail true w).map (·.path) = p.sourceFiles w.files ∧
    (∀ v ∈ p.trail true w, v.before.files.node? v.path = w.files.node? v.path) ∧ (p.Keeps w w' ↔ p.Disjoint w w') :=
  ⟨h.map_path_trail hbase hout hbelow habove, fun _ hv => h.node?_before hbase hout hbelow habove hv,
    h.disjoint_of_keeps hbase hout, h.keeps_of_disjoint hbase hout hbelow habove⟩

end

end Clean

/-- A site with a page and a picture. -/
def pictureShelf : Workspace where
  files := ⟨[(["site"], .directory), (["site", "index.html"], .file (Text.encode "<img src=art/logo.svg>")),
    (["site", "art"], .directory), (["site", "art", "logo.svg"], .file (Text.encode "<svg/>")),
    (["app"], .directory), (["app", "src"], .directory)], [], []⟩

theorem keeps_pictureShelf : shelfProject.Keeps pictureShelf ((shelfProject.build true).run.run pictureShelf).2 := by
  obtain ⟨r, hclean⟩ : ∃ r, shelfProject.Clean true pictureShelf r ((shelfProject.build true).run.run pictureShelf).2 :=
    clean_of_isOk ⟨rfl, rfl, rfl, rfl, rfl, rfl, rfl⟩ (Path.isProper_ofString _) (Path.isProper_ofString _) (by decide)
      (by decide +kernel)
  have hbase : pictureShelf.files.locate shelfProject.source = .ok ["site"] := by decide
  have hout : pictureShelf.files.locate shelfProject.output = .ok ["app", "src"] := by decide
  obtain ⟨-, -, hiff⟩ := hclean.keeps_iff hbase hout (by decide) (by decide)
  exact hiff.2 ⟨by decide +kernel, by decide +kernel, by decide +kernel⟩

/-- A site with two documents that differ in the suffix alone. -/
def twinShelf : Workspace where
  files := ⟨[(["site"], .directory), (["site", "index.html"], .file (Text.encode "<p>")),
    (["site", "a.htm"], .file (Text.encode "<b>")), (["site", "a.html"], .file (Text.encode "<i>")),
    (["app"], .directory), (["app", "src"], .directory)], [], []⟩

/-- **A pass without failures may lose an output**: of two documents that share a place, the first one's module is gone. -/
theorem not_keeps_twinShelf : ∃ r w', shelfProject.Clean true twinShelf r w' ∧
    w'.files.node? ⟨1, ["app", "src", "A.js"]⟩ = (shelfProject.moduleOf twinShelf.files ⟨0, ["a.html"]⟩).toOption.map
      (fun text => .file (Text.encode text)) ∧ ¬ shelfProject.Keeps twinShelf w' := by
  obtain ⟨r, hclean⟩ : ∃ r, shelfProject.Clean true twinShelf r ((shelfProject.build true).run.run twinShelf).2 :=
    clean_of_isOk ⟨rfl, rfl, rfl, rfl, rfl, rfl, rfl⟩ (Path.isProper_ofString _) (Path.isProper_ofString _) (by decide)
      (by decide +kernel)
  refine ⟨r, _, hclean, by decide +kernel, fun hkeeps => ?_⟩
  have hbase : twinShelf.files.locate shelfProject.source = .ok ["site"] := by decide
  have hout : twinShelf.files.locate shelfProject.output = .ok ["app", "src"] := by decide
  have hdisjoint := hclean.disjoint_of_keeps hbase hout hkeeps
  have hpaths : shelfProject.trailPaths true twinShelf =
      [⟨1, ["site", "a.htm"]⟩, ⟨1, ["site", "a.html"]⟩, ⟨1, ["site", "index.html"]⟩] := by decide +kernel
  have hfirst : (⟨⟨1, ["site", "a.htm"]⟩, fresh twinShelf⟩ : Visit) ∈ shelfProject.trail true twinShelf := by
    rw [trail, hpaths]
    exact List.mem_cons_self
  have hsecond : (⟨⟨1, ["site", "a.html"]⟩, shelfProject.after true ⟨1, ["site", "a.htm"]⟩ (fresh twinShelf)⟩ : Visit) ∈
      shelfProject.trail true twinShelf := by
    rw [trail, hpaths]
    exact List.mem_cons_of_mem _ List.mem_cons_self
  have hsame := hdisjoint.outputs _ hfirst _ hsecond (by decide)
  revert hsame
  decide +kernel

end Project
end ReactSite
