import ReactSite.Proofs.Accounting
/-!
# Documents — a pass without failures has converted every document

Every document of the source is visited (`exists_visit`).  If none failed, paths relative to the source are read from the
source itself (`isSettled_of_noFailures`): a relative source that was read twice over would have to hold a document below
itself, and below that another one, without end.  So each document has been converted under its own path
(`exists_conversion`).
-/
namespace ReactSite
namespace Project

open FileTree

variable {p : Project} {copyStatic : Bool} {w w' : Workspace} {r : Report}

/-- **A pass that comes to its end without failures**, under the standard rules. -/
structure Clean (p : Project) (copyStatic : Bool) (w : Workspace) (r : Report) (w' : Workspace) : Prop where
  standard : p.rules.IsStandard
  source : p.source.IsProper
  dest : p.dest.IsProper
  isTree : w.files.IsTree
  run : (p.build copyStatic).run.run w = (.ok r, w')
  noFailures : r.failures = []

namespace Clean

variable (h : p.Clean copyStatic w r w')
include h

theorem passes : p.Passes copyStatic w r w' := build_eq_ok.1 h.run

theorem exists_base : ∃ base, w.files.locate p.source = .ok base ∧ w.files.get? base = some .directory :=
  Project.exists_base h.standard h.passes.entry

theorem grows {base : Location} (hbase : w.files.locate p.source = .ok base) :
    p.Grows copyStatic p.NoPage (fun _ => True) base (fresh w) :=
  grows_standard (w := fresh w) h.standard h.source h.dest h.isTree hbase copyStatic

theorem converts {v : Visit} (hv : v ∈ p.trail copyStatic w) (hpage : p.isPage v.path = true) : p.converts v = true := by
  have hnone : (p.trail copyStatic w).filterMap p.failure? = [] := by
    have hfailures := h.noFailures
    rwa [h.passes.report] at hfailures
  have hv' := List.filterMap_eq_nil_iff.1 hnone v hv
  unfold failure? at hv'
  rw [if_pos hpage] at hv'
  unfold Project.converts
  cases hresult : p.result v with
  | ok target => simp [hpage, Except.isOk, Except.toBool]
  | error f => simp [hresult] at hv'

theorem exists_visit {path : Path} (hpath : path ∈ p.sourceFiles w.files) (hpage : p.isPage path = true) :
    ∃ v ∈ p.trail copyStatic w, v.path = path ∧ p.converts v = true := by
  obtain ⟨base, hbase, -⟩ := h.exists_base
  have hdocuments := (h.grows hbase).filter_trailPaths (q := p.isPage) fun names name hname hno => by
    rw [NoPage, isPage_congr (b := p.source.descend (names ++ [name])) (by simp [Path.name, Path.descend]), hname] at hno
    cases hno
  have hmem : path ∈ (p.trailPaths copyStatic w).filter p.isPage := by
    rw [hdocuments]
    exact List.mem_filter.2 ⟨hpath, hpage⟩
  rw [← map_path_visits (p := p) (p.trailPaths copyStatic w) (fresh w)] at hmem
  obtain ⟨v, hv, rfl⟩ := List.mem_map.1 (List.mem_filter.1 hmem).1
  exact ⟨v, hv, rfl, h.converts hv hpage⟩

/-- **The document that is read for a document of the source**, by the names that lead to it. -/
theorem exists_read {names : List String} (hpath : p.source.descend names ∈ p.sourceFiles w.files)
    (hpage : p.isPage (p.source.descend names) = true) :
    ∃ names', p.source.descend names' ∈ p.sourceFiles w.files ∧ p.isPage (p.source.descend names') = true ∧
      (p.source.join p.source).resolveFrom w.files.current ++ names = p.source.resolveFrom w.files.current ++ names' := by
  obtain ⟨base, hbase, hdir⟩ := h.exists_base
  obtain ⟨v, hv, hpath', hconverts⟩ := h.exists_visit hpath hpage
  have hbefore := (h.grows hbase).extends_before hv
  have hbelow : p.IsBelow v.path := by
    obtain ⟨done, rest, hpaths, -⟩ := exists_of_mem_visits hv
    exact (h.grows hbase).isBelow_trailPaths (by rw [hpaths]; simp)
  obtain ⟨-, target, hresult⟩ := exists_result hconverts
  have hrun : (p.convertPage true v.path).run.run v.before = (.ok target, ((p.convertPage true v.path).run.run v.before).2) :=
    Prod.ext hresult rfl
  obtain ⟨rel, text, hrel, hmodule, -, -⟩ := convertPage_eq_ok p hrun
  obtain ⟨dir, name, hparts, hpage', hmem⟩ :=
    exists_sourceFile h.source h.isTree hbase hdir hbefore hbelow (hpath' ▸ hpage) hrel hmodule
  obtain ⟨-, -, hresolve⟩ := relative_eq_ok.1 hrel
  have hup : ".." ∉ names := by
    obtain ⟨names', -, hnames, heq⟩ := hbelow
    rw [hpath'] at heq
    rw [Path.descend_injective heq]
    exact parent_notMem fun s hs => (hnames s hs).toIsPlain
  rw [hpath', Path.join_descend, Path.resolveFrom_descend _ hup, hbefore.current, hparts] at hresolve
  refine ⟨dir ++ [name], hmem, ?_, hresolve⟩
  rwa [isPage_congr (b := ⟨0, dir ++ [name]⟩) (by simp [Path.name, Path.descend])]

theorem entry_mem : p.source.descend ["index.html"] ∈ p.sourceFiles w.files := by
  obtain ⟨base, hbase, -⟩ := h.exists_base
  have hentry := h.passes.entry
  rw [entryPath_eq h.standard, isFile_iff] at hentry
  obtain ⟨content, hnode⟩ := hentry
  obtain ⟨loc, hloc, hget⟩ := node?_eq_some.1 hnode
  obtain ⟨rfl, -⟩ := locate_names hbase (by decide) hloc
  exact (mem_sourceFiles h.isTree hbase).2
    ⟨[], "index.html", content, rfl, by rw [Path.descend_nil]; exact (locate_eq_ok.1 hbase).1, hget⟩

theorem isPage_entry : p.isPage (p.source.descend ["index.html"]) = true := by
  rw [isPage_congr (b := ⟨0, ["index.html"]⟩) (by simp [Path.name, Path.descend])]
  unfold isPage
  rw [h.standard.markupExtensions]
  decide

theorem isSettled : p.IsSettled w.files.current := by
  obtain ⟨base, hbase, -⟩ := h.exists_base
  have hne : ∀ names, p.source.descend names ∈ p.sourceFiles w.files →
      names ≠ [] ∧ names.length < w.files.depth := by
    intro names hmem
    obtain ⟨init, name, content, hpath, -, hget⟩ := (mem_sourceFiles h.isTree hbase).1 hmem
    have hlt := length_lt_depth (by simp) hget
    rw [Path.descend_injective hpath]
    rw [List.length_append] at hlt
    exact ⟨by simp, by omega⟩
  obtain ⟨names, hmem, -, heq⟩ := h.exists_read h.entry_mem h.isPage_entry
  -- the place the source is read from lies `more` names below the source
  obtain ⟨more, hmore⟩ : p.source.resolveFrom w.files.current <+: (p.source.join p.source).resolveFrom w.files.current := by
    refine List.prefix_of_prefix_length_le ⟨names, heq.symm⟩ (List.prefix_append _ _) ?_
    have hlen := congrArg List.length heq
    have hpos := List.length_pos_iff.2 (hne names hmem).1
    simp only [List.length_append, List.length_singleton] at hlen
    omega
  have hstep : ∀ names, p.source.descend names ∈ p.sourceFiles w.files → p.isPage (p.source.descend names) = true →
      p.source.descend (more ++ names) ∈ p.sourceFiles w.files ∧ p.isPage (p.source.descend (more ++ names)) = true := by
    intro names hmem hpage
    obtain ⟨names', hmem', hpage', heq'⟩ := h.exists_read hmem hpage
    rw [← hmore, List.append_assoc, List.append_cancel_left_eq] at heq'
    rw [heq']
    exact ⟨hmem', hpage'⟩
  by_cases hnil : more = []
  · rw [hnil, List.append_nil] at hmore
    exact hmore.symm
  · exfalso
    have hdeep : ∀ k, ∃ names, p.source.descend names ∈ p.sourceFiles w.files ∧
        p.isPage (p.source.descend names) = true ∧ k ≤ names.length := by
      intro k
      induction k with
      | zero => exact ⟨_, h.entry_mem, h.isPage_entry, Nat.zero_le _⟩
      | succ k ih =>
        obtain ⟨names, hmem, hpage, hlen⟩ := ih
        obtain ⟨hmem', hpage'⟩ := hstep names hmem hpage
        have hpos := List.length_pos_iff.2 hnil
        exact ⟨_, hmem', hpage', by rw [List.length_append]; omega⟩
    obtain ⟨names, hmem, -, hlen⟩ := hdeep w.files.depth
    have := (hne names hmem).2
    omega

theorem relative_eq {names : List String} (hnames : ∀ s ∈ names, IsName s) :
    p.relative w.files.current (p.source.descend names) = .ok ⟨0, names⟩ := by
  obtain ⟨base, hbase, -⟩ := h.exists_base
  exact relative_descend h.isSettled (hasNul_of_pathFault? (locate_eq_ok.1 hbase).1) hnames

/-- **Every document has been converted under its own path.** -/
theorem exists_conversion {names : List String} (hpath : p.source.descend names ∈ p.sourceFiles w.files)
    (hpage : p.isPage (p.source.descend names) = true) :
    ∃ v ∈ p.trail copyStatic w, v.path = p.source.descend names ∧ p.converts v = true ∧
      p.relative v.before.files.current v.path = .ok ⟨0, names⟩ ∧ ∃ text, p.moduleOf v.before.files ⟨0, names⟩ = .ok text ∧
        p.result v = .ok (p.outputPath ⟨0, names⟩) := by
  obtain ⟨base, hbase, -⟩ := h.exists_base
  obtain ⟨v, hv, hpath', hconverts⟩ := h.exists_visit hpath hpage
  have hbefore := (h.grows hbase).extends_before hv
  have hnames : ∀ s ∈ names, IsName s := by
    obtain ⟨init, name, content, heq, -, hget⟩ := (mem_sourceFiles h.isTree hbase).1 hpath
    rw [Path.descend_injective heq]
    exact fun s hs => h.isTree.isName_of_get? hget s (List.mem_append_right _ hs)
  have hrel : p.relative v.before.files.current v.path = .ok ⟨0, names⟩ := by
    rw [hpath', hbefore.current]
    exact h.relative_eq hnames
  obtain ⟨-, target, hresult⟩ := exists_result hconverts
  obtain ⟨rel, text, hrel', hmodule, htarget, -⟩ :=
    convertPage_eq_ok p (Prod.ext hresult rfl : (p.convertPage true v.path).run.run v.before = (.ok target, _))
  rw [hrel, Except.ok.injEq] at hrel'
  rw [← hrel'] at hmodule htarget
  exact ⟨v, hv, hpath', hconverts, hrel, text, hmodule, by rw [hresult, htarget]⟩

end Clean

theorem clean_of_isOk (hstd : p.rules.IsStandard) (hsource : p.source.IsProper) (hdest : p.dest.IsProper)
    (ht : w.files.IsTree) (hok : ((p.build copyStatic).run.run w).1.toOption.map (·.failures.isEmpty) = some true) :
    ∃ r, p.Clean copyStatic w r ((p.build copyStatic).run.run w).2 := by
  rcases hrun : (p.build copyStatic).run.run w with ⟨f | r, w'⟩
  · rw [hrun] at hok
    cases hok
  · rw [hrun] at hok
    simp only [Except.toOption, Option.map_some, Option.some.injEq] at hok
    exact ⟨r, hstd, hsource, hdest, ht, hrun, by simpa using hok⟩

end Project
end ReactSite
