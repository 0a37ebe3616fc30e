import ReactSite.Proofs.Boundary
import ReactSite.Proofs.Keeping
import ReactSite.Proofs.Upkeep
/-!
# Removal — whether the outputs that are still needed survive a deletion

When a source file is deleted, a pass first brings every document up to date, and then the output of the file is taken away
with all that is below it, whatever has come to stand there.  The documents that are left keep their modules exactly when those
that share a place are the same and none of them, nor the entry module, stands at or below the place that is cleared
(`live_iff`).  The deletion of one of two documents whose names differ in the suffix alone already takes the module of the other
(`not_live_afterDeletion_halfShelf`).
-/
namespace ReactSite
namespace Project

open FileTree

variable {p : Project} {out : Location} {a : List String}

/-- **Every document that a pass has visited has its module in place**, and so has the site its entry module. -/
structure Live (p : Project) (out : Location) (w : Workspace) (routes : Router) (t : FileTree) : Prop where
  documents : ∀ v ∈ p.trail false w, p.isPage v.path = true → ∃ bytes, p.payload v = some bytes ∧
    t.get? (out ++ p.outNames v.path) = some (.file bytes)
  entryModule : t.get? (out ++ p.routeNames) = some (.file (Text.encode routes.entryModule))

/-- **Modules that do not get in each other's way**: those that share a place are the same, the entry module included. -/
structure Agreeing (p : Project) (w : Workspace) (routes : Router) : Prop where
  documents : ∀ u ∈ p.trail false w, ∀ v ∈ p.trail false w, p.isPage u.path = true → p.isPage v.path = true →
    p.outNames u.path = p.outNames v.path → p.payload u = p.payload v
  entryModule : ∀ v ∈ p.trail false w, p.isPage v.path = true → p.outNames v.path = p.routeNames →
    p.payload v = some (Text.encode routes.entryModule)

/-- **A deletion that spares the modules of the other documents**: none is at or below the output of the deleted file. -/
structure Spares (p : Project) (a : List String) (w : Workspace) : Prop where
  documents : ∀ v ∈ p.trail false w, p.isPage v.path = true →
    ¬ p.outNames (p.source.descend a) <+: p.outNames v.path
  entryModule : ¬ p.outNames (p.source.descend a) <+: p.routeNames

theorem routeNames_eq (hstd : p.rules.IsStandard) : p.routeNames = ["index.js"] := by
  have hroute : p.routePath = p.output.descend ["index.js"] := routePath_eq hstd
  unfold routeNames namesBelow
  rw [hroute, Path.parts_descend, List.drop_left]

/-! ## What clearing an output leaves -/

/-- **Clearing an output** changes nothing, or takes away what is at its place and below. -/
theorem clearOutput_cases {path target : Path} {w : Workspace} (hdest : p.destination w.files.current path = .ok target) :
    ((p.clearOutput path).run.run w).2.files = w.files ∨
      ((p.clearOutput path).run.run w).2.files = w.files.erase (target.resolveFrom w.files.current) := by
  rw [run_clearOutput, hdest]
  simp only
  cases w.files.look target with
  | error e => exact .inl rfl
  | ok node =>
    cases node with
    | none => exact .inl rfl
    | some node =>
      simp only [run_remove]
      cases hloc : w.files.locate target with
      | error fault => exact .inl rfl
      | ok loc =>
        rw [← place_of_locate hloc]
        exact .inr rfl

section

variable {path target : Path} {w : Workspace} {l : Location} {node : FileNode} {content : List UInt8}
  (hdest : p.destination w.files.current path = .ok target)
include hdest

theorem get?_clearOutput_of_not_prefix (hl : ¬ target.resolveFrom w.files.current <+: l) :
    ((p.clearOutput path).run.run w).2.files.get? l = w.files.get? l := by
  rcases clearOutput_cases hdest with hfiles | hfiles
  · rw [hfiles]
  · rw [hfiles]
    by_cases hnil : l = []
    · simp [hnil]
    · rw [get?_erase hnil, if_neg hl]

theorem file_of_clearOutput (h : ((p.clearOutput path).run.run w).2.files.get? l = some (.file content)) :
    w.files.get? l = some (.file content) := by
  rcases clearOutput_cases hdest with hfiles | hfiles
  · rwa [hfiles] at h
  · rw [hfiles] at h
    by_cases hnil : l = []
    · simp [hnil] at h
    · rw [get?_erase hnil] at h
      split at h
      · cases h
      · exact h

theorem not_file_of_clearOutput {loc : Location} (hloc : w.files.locate target = .ok loc) (hnode : w.files.get? loc = some node)
    (hpre : loc <+: l) : ((p.clearOutput path).run.run w).2.files.get? l ≠ some (.file content) := by
  rw [run_clearOutput_of_locate p hdest hloc hnode]
  by_cases hnil : l = []
  · simp [hnil]
  · rw [get?_erase hnil, if_pos hpre]
    simp

end

/-! ## What a pass without assets leaves -/

namespace Clean

variable {w w' : Workspace} {r : Report} {base : Location} (h : p.Clean false w r w')
  (hbase : w.files.locate p.source = .ok base) (hout : w.files.locate p.output = .ok out)
include h hbase hout

/-- A pass makes the tree grow below the output directory. -/
theorem extends_end : Extends (out <+: ·) (out <+: ·) w.files w'.files := by
  have hwalked := (grows_apart (w := fresh w) h.standard h.source h.dest h.isTree hbase hout false).extends_walkedThrough
  obtain ⟨hgrown, -, -⟩ := h.entryModule_places hbase hout
  refine hwalked.trans (hgrown.mono ?_ fun _ => False.elim)
  rintro l rfl
  exact List.prefix_append _ _

variable (hbelow : ¬ base <+: out) (habove : ¬ out <+: base)
include hbelow habove

theorem leaves_documents : ∀ v ∈ p.trail false w, p.treats false v.path = true → ∃ bytes, p.Leaves false out v bytes := by
  refine h.forall_leaves hbase hout hbelow habove (.refl _ _ (fresh w).files) (fun path hpath => ?_)
    (fun v hv => ⟨h.passes.goesOn v hv, h.converts hv⟩) fun path _ hkind htreats => by simp [treats, hkind] at htreats
  rwa [← h.map_path_trail hbase hout hbelow habove, trail, map_path_visits]

/-- **A pass leaves every module in place** exactly when those that share a place are the same. -/
theorem live_iff_agreeing : p.Live out w w'.routes w'.files ↔ p.Agreeing w w'.routes := by
  have hleaves := h.leaves_documents hbase hout hbelow habove
  obtain ⟨hgrown, hplaced, -⟩ := h.entryModule_places hbase hout
  rw [← routeNames_eq h.standard] at hgrown hplaced
  constructor
  · intro hlive
    refine ⟨fun u hu v hv hpage hpage' hsame => ?_, fun v hv hpage hsame => ?_⟩
    · obtain ⟨bytes, hpayload, hget⟩ := hlive.documents u hu hpage
      obtain ⟨bytes', hpayload', hget'⟩ := hlive.documents v hv hpage'
      rw [hsame, hget', Option.some.injEq, FileNode.file.injEq] at hget
      rw [hpayload, hpayload', hget]
    · obtain ⟨bytes, hpayload, hget⟩ := hlive.documents v hv hpage
      rw [hsame, hplaced, Option.some.injEq, FileNode.file.injEq] at hget
      rw [hpayload, hget]
  · intro hagree
    have hpage_of_treats : ∀ v : Visit, p.treats false v.path = true → p.isPage v.path = true := fun v htreats => by
      simpa [treats] using htreats
    obtain ⟨hkept, -⟩ := kept_of_leaves hleaves fun u hu v hv htreats htreats' =>
      hagree.documents u hu v hv (hpage_of_treats u htreats) (hpage_of_treats v htreats')
    refine ⟨fun v hv hpage => ?_, hplaced⟩
    have htreats : p.treats false v.path = true := by simp [treats, hpage]
    obtain ⟨bytes, hbytes⟩ := hleaves v hv htreats
    refine ⟨bytes, hbytes.payload, ?_⟩
    rcases hgrown.change (out ++ p.outNames v.path) with heq | ⟨-, -, hno⟩ | ⟨-, -, heq⟩
    · rw [heq]
      exact hkept v hv htreats bytes hbytes.payload
    · exact hno.elim
    · -- the entry module was written in the same place
      have hsame := hagree.entryModule v hv hpage (List.append_cancel_left heq)
      rw [hbytes.payload, Option.some.injEq] at hsame
      rw [heq, hplaced, hsame]

theorem pathFault?_of_leaves {v : Visit} {bytes : List UInt8} (hv : v ∈ p.trail false w) (hleaves : p.Leaves false out v bytes) :
    pathFault? (p.output.descend (p.outNames v.path)) = none := by
  rw [← h.outputPath_of_mem hbase hout hbelow habove hv]
  exact (locate_eq_ok.1 hleaves.located).1

end Clean

/-! ## Deletions -/

theorem pathFault?_of_above {q : Path} {names more : List String} (hpre : names <+: more)
    (h : pathFault? (q.descend more) = none) : pathFault? (q.descend names) = none := by
  obtain ⟨rest, rfl⟩ := hpre
  rw [← Path.descend_descend] at h
  exact pathFault?_of_descend h

section

variable {w w₁ w₂ : Workspace} {r : Report} {base : Location} (h : p.Clean false (p.alone w) r w₁)
  (hbase : w.files.locate p.source = .ok base) (hout : w.files.locate p.output = .ok out) (hnames : ∀ s ∈ a, IsName s)
include h hbase hout hnames

/-- The output of a deleted file is still looked for in the same place after the pass. -/
theorem destination_of_deleted :
    p.destination w₁.files.current (p.source.descend a) = .ok (p.output.descend (p.outNames (p.source.descend a))) := by
  have hrel : p.relative w₁.files.current (p.source.descend a) = .ok ⟨0, a⟩ := by
    rw [(h.extends_end hbase hout).current, h.relative_eq hnames]
  refine (destination_eq_ok p).2 ⟨_, hrel, checkName_of_typed p h.standard.typed _, ?_⟩
  rw [h.outNames_descend, ← outputPath_eq h.standard]

theorem place_of_deleted : (p.output.descend (p.outNames (p.source.descend a))).resolveFrom w₁.files.current =
    out ++ p.outNames (p.source.descend a) := by
  have hplain : ∀ s ∈ p.outNames (p.source.descend a), IsPlain s := by
    rw [h.outNames_descend]
    exact isPlain_outputNames fun s hs => (hnames s hs).toIsPlain
  rw [Path.resolveFrom_descend _ (parent_notMem hplain), ← place_of_locate ((h.extends_end hbase hout).locate hout)]

variable (hrun : (Watch.afterDeletion p (p.source.descend a)).run.run w = (.ok (), w₂))
include hrun

omit hbase hout hnames in
/-- A deletion is a pass, and then clears the output. -/
theorem files_of_afterDeletion :
    w₂.files = ((p.clearOutput (p.source.descend a)).run.run { w₁ with routes := w.routes }).2.files := by
  rw [run_afterDeletion, run_buildAlone] at hrun
  have hbuild : (p.build false).run.run (p.alone w) = (.ok r, w₁) := h.run
  unfold alone at hbuild
  rw [hbuild] at hrun
  exact congrArg (·.2.files) hrun.symm

theorem get?_afterDeletion {names : List String} (hno : ¬ p.outNames (p.source.descend a) <+: names) :
    w₂.files.get? (out ++ names) = w₁.files.get? (out ++ names) := by
  have hdest := destination_of_deleted h hbase hout hnames
  rw [files_of_afterDeletion h hrun]
  refine get?_clearOutput_of_not_prefix (w := { w₁ with routes := w.routes }) hdest ?_
  rw [place_of_deleted h hbase hout hnames]
  rwa [List.prefix_append_right_inj]

theorem file_before_clearing {l : Location} {content : List UInt8} (hget : w₂.files.get? l = some (.file content)) :
    w₁.files.get? l = some (.file content) := by
  rw [files_of_afterDeletion h hrun] at hget
  have hdest := destination_of_deleted h hbase hout hnames
  exact file_of_clearOutput (w := { w₁ with routes := w.routes }) hdest hget

/-- **Whatever can be reached and is left stood apart** from the output that was cleared. -/
theorem not_prefix_of_file {names : List String} {content : List UInt8} (hfault : pathFault? (p.output.descend names) = none)
    (hget : w₂.files.get? (out ++ names) = some (.file content)) : ¬ p.outNames (p.source.descend a) <+: names := by
  intro hpre
  have hgrown := h.extends_end hbase hout
  have ht := hgrown.isTree h.isTree
  have hfile := file_before_clearing h hbase hout hnames hrun hget
  have hpre' : out ++ p.outNames (p.source.descend a) <+: out ++ names := (List.prefix_append_right_inj out).2 hpre
  obtain ⟨node, hnode⟩ : ∃ node, w₁.files.get? (out ++ p.outNames (p.source.descend a)) = some node := by
    by_cases heq : out ++ p.outNames (p.source.descend a) = out ++ names
    · exact ⟨_, heq ▸ hfile⟩
    · exact ⟨_, ht.directory_of_prefix hpre' heq hfile⟩
  have hloc := locate_of_get? ht (hgrown.locate hout) (pathFault?_of_above hpre hfault) hnode
  have hdest := destination_of_deleted h hbase hout hnames
  rw [files_of_afterDeletion h hrun] at hget
  exact not_file_of_clearOutput (w := { w₁ with routes := w.routes }) hdest hloc hnode hpre' hget

variable (hbelow : ¬ base <+: out) (habove : ¬ out <+: base)
include hbelow habove

/-- **A deletion that leaves every module in place** spared them all. -/
theorem spares_of_live (hlive : p.Live out (p.alone w) w₁.routes w₂.files) : p.Spares a (p.alone w) := by
  refine ⟨fun v hv hpage => ?_, ?_⟩
  · obtain ⟨bytes, -, hget⟩ := hlive.documents v hv hpage
    obtain ⟨bytes', hleaves⟩ := h.leaves_documents hbase hout hbelow habove v hv (by simp [treats, hpage])
    exact not_prefix_of_file h hbase hout hnames hrun (h.pathFault?_of_leaves hbase hout hbelow habove hv hleaves) hget
  · obtain ⟨-, -, hlocated⟩ := h.entryModule_places hbase hout
    refine not_prefix_of_file h hbase hout hnames hrun ?_ hlive.entryModule
    have hroute : p.routePath = p.output.descend ["index.js"] := routePath_eq h.standard
    rw [routeNames_eq h.standard, ← hroute]
    exact (locate_eq_ok.1 hlocated).1

/-- **A deletion leaves every module in place exactly when they do not get in each other's way and it spares them.**  The pass
visits the files that are left. -/
theorem live_iff : (p.trail false (p.alone w)).map (·.path) = p.sourceFiles w.files ∧
    (p.Live out (p.alone w) w₁.routes w₂.files ↔ p.Agreeing (p.alone w) w₁.routes ∧ p.Spares a (p.alone w)) := by
  refine ⟨h.map_path_trail hbase hout hbelow habove, ?_⟩
  constructor
  · intro hlive
    have hlive₁ : p.Live out (p.alone w) w₁.routes w₁.files := by
      refine ⟨fun v hv hpage => ?_, file_before_clearing h hbase hout hnames hrun hlive.entryModule⟩
      obtain ⟨bytes, hpayload, hget⟩ := hlive.documents v hv hpage
      exact ⟨bytes, hpayload, file_before_clearing h hbase hout hnames hrun hget⟩
    exact ⟨(h.live_iff_agreeing hbase hout hbelow habove).1 hlive₁,
      spares_of_live h hbase hout hnames hrun hbelow habove hlive⟩
  · rintro ⟨hagree, hspares⟩
    have hlive₁ := (h.live_iff_agreeing hbase hout hbelow habove).2 hagree
    refine ⟨fun v hv hpage => ?_, ?_⟩
    · obtain ⟨bytes, hpayload, hget⟩ := hlive₁.documents v hv hpage
      exact ⟨bytes, hpayload, by rw [get?_afterDeletion h hbase hout hnames hrun (hspares.documents v hv hpage), hget]⟩
    · rw [get?_afterDeletion h hbase hout hnames hrun hspares.entryModule, hlive₁.entryModule]

end

/-- A site that has lost a document. -/
def halfShelf : Workspace where
  files := ⟨[(["site"], .directory), (["site", "index.html"], .file (Text.encode "<p>")),
    (["site", "a.html"], .file (Text.encode "<i>")), (["app"], .directory), (["app", "src"], .directory)], [], []⟩

theorem exists_clean_halfShelf : ∃ r, shelfProject.Clean false (shelfProject.alone halfShelf) r
    ((shelfProject.build false).run.run (shelfProject.alone halfShelf)).2 :=
  clean_of_isOk ⟨rfl, rfl, rfl, rfl, rfl, rfl, rfl⟩ (Path.isProper_ofString _) (Path.isProper_ofString _) (by decide)
    (by decide +kernel)

theorem live_afterDeletion_halfShelf : shelfProject.Live ["app", "src"] (shelfProject.alone halfShelf)
    ((shelfProject.build false).run.run (shelfProject.alone halfShelf)).2.routes
    ((Watch.afterDeletion shelfProject (shelfProject.source.descend ["b.htm"])).run.run halfShelf).2.files := by
  obtain ⟨r, hclean⟩ := exists_clean_halfShelf
  have hbase : halfShelf.files.locate shelfProject.source = .ok ["site"] := by decide
  have hout : halfShelf.files.locate shelfProject.output = .ok ["app", "src"] := by decide
  have hnames : ∀ s ∈ ["b.htm"], IsName s := by decide
  have hrun : (Watch.afterDeletion shelfProject (shelfProject.source.descend ["b.htm"])).run.run halfShelf =
      (.ok (), ((Watch.afterDeletion shelfProject (shelfProject.source.descend ["b.htm"])).run.run halfShelf).2) := by
    rw [run_afterDeletion]
  obtain ⟨-, hiff⟩ := live_iff hclean hbase hout hnames hrun (by decide) (by decide)
  exact hiff.2 ⟨⟨by decide +kernel, by decide +kernel⟩, ⟨by decide +kernel, by decide +kernel⟩⟩

/-- **A deletion may take the module of another document away**: that of a document which differs from the deleted one in the
suffix alone. -/
theorem not_live_afterDeletion_halfShelf : ∃ r w₁, shelfProject.Clean false (shelfProject.alone halfShelf) r w₁ ∧
    (w₁.files.get? ["app", "src", "A.js"]).isSome ∧
    ((Watch.afterDeletion shelfProject (shelfProject.source.descend ["a.htm"])).run.run halfShelf).2.files.get?
      ["app", "src", "A.js"] = none ∧
    ¬ shelfProject.Live ["app", "src"] (shelfProject.alone halfShelf) w₁.routes
      ((Watch.afterDeletion shelfProject (shelfProject.source.descend ["a.htm"])).run.run halfShelf).2.files := by
  obtain ⟨r, hclean⟩ := exists_clean_halfShelf
  have hgone : ((Watch.afterDeletion shelfProject (shelfProject.source.descend ["a.htm"])).run.run halfShelf).2.files.get?
      ["app", "src", "A.js"] = none := by decide +kernel
  refine ⟨r, _, hclean, by decide +kernel, hgone, fun hlive => ?_⟩
  have hpaths : shelfProject.trailPaths false (shelfProject.alone halfShelf) =
      [⟨1, ["site", "a.html"]⟩, ⟨1, ["site", "index.html"]⟩] := by decide +kernel
  have hfirst : (⟨⟨1, ["site", "a.html"]⟩, fresh (shelfProject.alone halfShelf)⟩ : Visit) ∈
      shelfProject.trail false (shelfProject.alone halfShelf) := by
    rw [trail, hpaths]
    exact List.mem_cons_self
  obtain ⟨bytes, -, hget⟩ := hlive.documents _ hfirst (by decide)
  have hplace : shelfProject.outNames ⟨1, ["site", "a.html"]⟩ = ["A.js"] := by decide
  rw [hplace] at hget
  cases hgone.symm.trans hget

end Project
end ReactSite
