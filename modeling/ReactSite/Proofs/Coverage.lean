import ReactSite.Proofs.Trail
/-!
# Coverage — a walk visits every source file once

The visits of a walk may make files and directories, and the walk may come upon them.  As long as the tree only grows
(`Grows`), nothing is visited twice (`nodup_trailPaths`), and what the visits cannot write is visited in the order in
which the files below the source are listed at the start (`filter_trailPaths`).
-/
namespace ReactSite
namespace Project

open FileTree

/-- **The source files**, in the order of a walk. -/
def sourceFiles (p : Project) (t : FileTree) : List Path := t.filesUnder (walkDepth t) p.source

/-- A path of a source file. -/
def IsBelow (p : Project) (path : Path) : Prop := ∃ names, names ≠ [] ∧ (∀ s ∈ names, IsName s) ∧ path = p.source.descend names

/-- **Visits that only make the tree grow**: they write at places that `W` holds of and make directories where `D` does. -/
structure Grows (p : Project) (copyStatic : Bool) (W D : Location → Prop) (base : Location) (w : Workspace) : Prop where
  isTree : w.files.IsTree
  base : w.files.locate p.source = .ok base
  step : ∀ path w', p.IsBelow path → Extends W D w.files w'.files → Extends W D w'.files (p.after copyStatic path w').files

variable {p : Project} {copyStatic : Bool} {W D : Location → Prop} {base : Location} {w : Workspace}

theorem mem_walkedEach {I : Workspace → Prop} {go : String → Workspace → List Path} {path : Path} :
    ∀ {names : List String} {w : Workspace}, (∀ name ∈ names, ∀ w, I w → I (p.afterAll copyStatic (go name w) w)) → I w →
      path ∈ p.walkedEach copyStatic go names w → ∃ name ∈ names, ∃ w', I w' ∧ path ∈ go name w'
  | [], _, _, _, h => by cases h
  | name :: names, w, hI, hw, h => by
    rw [walkedEach] at h
    rcases List.mem_append.1 h with h | h
    · exact ⟨name, List.mem_cons_self, w, hw, h⟩
    · obtain ⟨name', hname', hrest⟩ :=
        mem_walkedEach (fun n hn => hI n (List.mem_cons_of_mem _ hn)) (hI name List.mem_cons_self w hw) h
      exact ⟨name', List.mem_cons_of_mem _ hname', hrest⟩

/-! ## Listing a tree that has grown -/

section

variable {t t' : FileTree} {loc : Location} (ht : t.IsTree) (hgrown : Extends W D t t')
include ht hgrown

/-- **What was not written is listed in the order in which it was.** -/
theorem filter_fileNames {f : String → Path} {q : Path → Bool} (hq : ∀ name, q (f name) = true → ¬ W (loc ++ [name])) :
    ((t'.fileNames loc).map f).filter q = ((t.fileNames loc).map f).filter q := by
  rw [List.filter_map, List.filter_map, fileNames, fileNames, namesIn_congr (hgrown.isTree ht) ht]
  intro name hname
  change name ∈ t'.fileNames _ ↔ name ∈ t.fileNames _
  rw [mem_fileNames (hgrown.isTree ht), mem_fileNames ht]
  simp only [hgrown.file_iff (hq name hname)]

/-- A directory that was not there has nothing to add. -/
theorem flatMap_directoryNames {f : String → List Path}
    (hf : ∀ name ∈ t'.directoryNames loc, t.get? (loc ++ [name]) ≠ some .directory → f name = []) :
    (t'.directoryNames loc).flatMap f = (t.directoryNames loc).flatMap f := by
  have hold : (t'.directoryNames loc).filter (fun name => t.get? (loc ++ [name]) = some .directory) = t.directoryNames loc := by
    have hall : (t.directoryNames loc).filter (fun name => t.get? (loc ++ [name]) = some .directory) = t.directoryNames loc :=
      List.filter_eq_self.2 fun name hname => by simpa using (mem_directoryNames ht).1 hname
    rw [← hall]
    refine namesIn_congr (hgrown.isTree ht) ht _ fun name hname => ?_
    change name ∈ t'.directoryNames _ ↔ name ∈ t.directoryNames _
    have hdir : t.get? (loc ++ [name]) = some .directory := by simpa using hname
    rw [mem_directoryNames (hgrown.isTree ht), mem_directoryNames ht]
    exact iff_of_true (hgrown.directory hdir) hdir
  rw [← hold]
  exact (flatMap_filter_of_nil fun name hname hnot => hf name hname (by simpa using hnot)).symm

/-- **What was not written is listed as it was**, below a whole directory. -/
theorem filter_filesUnder (hbase : t.locate p.source = .ok base) {q : Path → Bool}
    (hq : ∀ names name, q (p.source.descend (names ++ [name])) = true → ¬ W (base ++ (names ++ [name]))) :
    ∀ (depth : Nat) {names : List String}, (∀ s ∈ names, IsName s) →
      (t'.filesUnder depth (p.source.descend names)).filter q = (t.filesUnder depth (p.source.descend names)).filter q
  | 0, _, _ => rfl
  | depth + 1, names, hnames => by
    have ht' := hgrown.isTree ht
    have hplain : ∀ s ∈ names, IsPlain s := fun s hs => (hnames s hs).toIsPlain
    have hnext : ∀ name ∈ t'.directoryNames (base ++ names), ∀ s ∈ names ++ [name], IsName s := by
      intro name hname
      have hlast := ht'.isName_of_get? ((mem_directoryNames ht').1 hname) name (by simp)
      exact List.forall_mem_append.2 ⟨hnames, List.forall_mem_singleton.2 hlast⟩
    rw [filesUnder_succ ht' (hgrown.locate hbase) hplain, filesUnder_succ ht hbase hplain]
    split
    · rw [List.filter_append, List.filter_append, List.filter_flatMap, List.filter_flatMap]
      congr 1
      · exact filter_fileNames ht hgrown fun name hname => by simpa using hq names name hname
      · rw [← flatMap_directoryNames ht hgrown]
        · exact List.flatMap_congr fun name hname => filter_filesUnder hbase hq depth (hnext name hname)
        · intro name hname hnot
          rw [filesUnder_of_ne ht hbase (fun s hs => (hnext name hname s hs).toIsPlain) (by simpa using hnot), List.filter_nil]
    · rfl

end

namespace Grows

theorem afterAll (h : p.Grows copyStatic W D base w) : ∀ {paths : List Path} {w' : Workspace},
    (∀ path ∈ paths, p.IsBelow path) → Extends W D w.files w'.files →
      Extends W D w'.files (p.afterAll copyStatic paths w').files
  | [], _, _, _ => .refl W D _
  | path :: paths, w', hpaths, hw' => by
    have hfirst := h.step path w' (hpaths path List.mem_cons_self) hw'
    exact hfirst.trans (h.afterAll (fun path hp => hpaths path (List.mem_cons_of_mem _ hp)) (hw'.trans hfirst))

theorem isName_of_mem (h : p.Grows copyStatic W D base w) {w' : Workspace} (hw' : Extends W D w.files w'.files)
    {loc : Location} {q : FileNode → Bool} {name : String} (hname : name ∈ w'.files.namesIn loc q) : IsName name := by
  obtain ⟨node, hget, -⟩ := (mem_namesIn (hw'.isTree h.isTree)).1 hname
  exact (hw'.isTree h.isTree).isName_of_get? hget name (by simp)

/-- **The files a walk visits**, by the names that lead to the directory. -/
theorem walked_succ (h : p.Grows copyStatic W D base w) {w' : Workspace} (hw' : Extends W D w.files w'.files)
    {names : List String} (hnames : ∀ s ∈ names, IsName s) (depth : Nat) :
    p.walked copyStatic (depth + 1) (p.source.descend names) w' = if pathFault? (p.source.descend names) = none then
      (w'.files.fileNames (base ++ names)).map (fun name => p.source.descend (names ++ [name])) ++
        p.walkedEach copyStatic (fun name => p.walked copyStatic depth (p.source.descend (names ++ [name])))
          (w'.files.directoryNames (base ++ names)) (p.afterAll copyStatic
            ((w'.files.fileNames (base ++ names)).map fun name => p.source.descend (names ++ [name])) w')
    else [] := by
  have ht' := hw'.isTree h.isTree
  have hchild : (p.source.descend names).child = fun name => p.source.descend (names ++ [name]) :=
    funext fun name => Path.child_descend p.source names name
  rw [walked]
  rcases locate_cases ht' (hw'.locate h.base) (fun s hs => (hnames s hs).toIsPlain) with
    ⟨hloc, hfault⟩ | ⟨⟨fault, hloc⟩, hno⟩
  · rw [hloc, if_pos hfault, hchild]
  · rw [hloc]
    rcases hno with hno | hno
    · rw [if_neg hno]
    · rw [fileNames_of_ne ht' (by simp [hno]), directoryNames_of_ne ht' (by simp [hno])]
      simp [walkedEach]

theorem isName_next (h : p.Grows copyStatic W D base w) {w' : Workspace} (hw' : Extends W D w.files w'.files)
    {names : List String} (hnames : ∀ s ∈ names, IsName s) {loc : Location} {q : FileNode → Bool} {name : String}
    (hname : name ∈ w'.files.namesIn loc q) : ∀ s ∈ names ++ [name], IsName s :=
  List.forall_mem_append.2 ⟨hnames, List.forall_mem_singleton.2 (h.isName_of_mem hw' hname)⟩

theorem extends_here (h : p.Grows copyStatic W D base w) {w' : Workspace} (hw' : Extends W D w.files w'.files)
    {names : List String} (hnames : ∀ s ∈ names, IsName s) (loc : Location) : Extends W D w.files (p.afterAll copyStatic
      ((w'.files.fileNames loc).map fun name => p.source.descend (names ++ [name])) w').files := by
  refine hw'.trans (h.afterAll ?_ hw')
  intro path hpath
  obtain ⟨name, hname, rfl⟩ := List.mem_map.1 hpath
  exact ⟨names ++ [name], by simp, h.isName_next hw' hnames hname, rfl⟩

/-- **What a walk visits lies below the directory it walks.** -/
theorem below_walked (h : p.Grows copyStatic W D base w) : ∀ (depth : Nat) {names : List String} {w' : Workspace} {path : Path},
    (∀ s ∈ names, IsName s) → Extends W D w.files w'.files →
      path ∈ p.walked copyStatic depth (p.source.descend names) w' →
        ∃ more, more ≠ [] ∧ (∀ s ∈ more, IsName s) ∧ path = p.source.descend (names ++ more)
  | 0, _, _, _, _, _, hpath => by cases hpath
  | depth + 1, names, w', path, hnames, hw', hpath => by
    rw [h.walked_succ hw' hnames] at hpath
    split at hpath
    · rcases List.mem_append.1 hpath with hpath | hpath
      · obtain ⟨name, hname, rfl⟩ := List.mem_map.1 hpath
        exact ⟨[name], by simp, by simpa using h.isName_of_mem hw' hname, rfl⟩
      · -- every subdirectory is walked in a tree that has only grown
        obtain ⟨name, hname, w₁, hw₁, hin⟩ := mem_walkedEach (I := fun w₁ => Extends W D w.files w₁.files) (by
          intro name hname w₁ hw₁
          refine hw₁.trans (h.afterAll (fun path hin => ?_) hw₁)
          obtain ⟨more, hne, hmore, rfl⟩ := h.below_walked depth (h.isName_next hw' hnames hname) hw₁ hin
          exact ⟨_, by simp, fun s hs => (List.mem_append.1 hs).elim (h.isName_next hw' hnames hname s) (hmore s), rfl⟩)
          (h.extends_here hw' hnames (base ++ names)) hpath
        obtain ⟨more, hne, hmore, rfl⟩ := h.below_walked depth (h.isName_next hw' hnames hname) hw₁ hin
        exact ⟨name :: more, by simp, List.forall_mem_cons.2 ⟨h.isName_of_mem hw' hname, hmore⟩, by simp⟩
    · cases hpath

theorem isBelow_walked (h : p.Grows copyStatic W D base w) {depth : Nat} {names : List String} {w' : Workspace}
    (hnames : ∀ s ∈ names, IsName s) (hw' : Extends W D w.files w'.files) {path : Path}
    (hpath : path ∈ p.walked copyStatic depth (p.source.descend names) w') : p.IsBelow path := by
  obtain ⟨more, hne, hmore, rfl⟩ := h.below_walked depth hnames hw' hpath
  exact ⟨names ++ more, by simp [hne], fun s hs => (List.mem_append.1 hs).elim (hnames s) (hmore s), rfl⟩

theorem extends_walked (h : p.Grows copyStatic W D base w) {depth : Nat} {names : List String} {w' : Workspace}
    (hnames : ∀ s ∈ names, IsName s) (hw' : Extends W D w.files w'.files) :
    Extends W D w.files (p.afterAll copyStatic (p.walked copyStatic depth (p.source.descend names) w') w').files :=
  hw'.trans (h.afterAll (fun _ hpath => h.isBelow_walked hnames hw' hpath) hw')

/-- **A walk visits nothing twice.** -/
theorem nodup_walked (h : p.Grows copyStatic W D base w) : ∀ (depth : Nat) {names : List String} {w' : Workspace},
    (∀ s ∈ names, IsName s) → Extends W D w.files w'.files → (p.walked copyStatic depth (p.source.descend names) w').Nodup
  | 0, _, _, _, _ => List.nodup_nil
  | depth + 1, names, w', hnames, hw' => by
    have heach : ∀ (dirs : List String) (w₁ : Workspace), dirs.Nodup → (∀ name ∈ dirs, IsName name) →
        Extends W D w.files w₁.files → (p.walkedEach copyStatic
          (fun name => p.walked copyStatic depth (p.source.descend (names ++ [name]))) dirs w₁).Nodup ∧
        ∀ path ∈ p.walkedEach copyStatic
          (fun name => p.walked copyStatic depth (p.source.descend (names ++ [name]))) dirs w₁,
          ∃ name ∈ dirs, ∃ more, more ≠ [] ∧ path = p.source.descend (names ++ name :: more) := by
      intro dirs
      induction dirs with
      | nil => exact fun _ _ _ _ => ⟨List.nodup_nil, fun _ hpath => by cases hpath⟩
      | cons name dirs ih =>
        intro w₁ hnodup hdirs hw₁
        rw [List.nodup_cons] at hnodup
        rw [List.forall_mem_cons] at hdirs
        have hnext : ∀ s ∈ names ++ [name], IsName s := by
          simpa using fun s => Or.rec (hnames s) (fun e => e ▸ hdirs.1)
        obtain ⟨hrest, hbelow⟩ := ih (p.afterAll copyStatic (p.walked copyStatic depth (p.source.descend (names ++ [name])) w₁) w₁)
          hnodup.2 hdirs.2 (h.extends_walked hnext hw₁)
        have hfirst : ∀ path ∈ p.walked copyStatic depth (p.source.descend (names ++ [name])) w₁,
            ∃ more, more ≠ [] ∧ path = p.source.descend (names ++ name :: more) := by
          intro path hpath
          obtain ⟨more, hne, -, rfl⟩ := h.below_walked depth hnext hw₁ hpath
          exact ⟨more, hne, by simp⟩
        rw [walkedEach]
        refine ⟨List.nodup_append.2 ⟨h.nodup_walked depth hnext hw₁, hrest, ?_⟩, ?_⟩
        · rintro path hpath path' hpath' rfl
          obtain ⟨more, -, hmore⟩ := hfirst path hpath
          obtain ⟨name', hname', more', -, hmore'⟩ := hbelow path hpath'
          have heq := Path.descend_injective (hmore.symm.trans hmore')
          simp only [List.append_cancel_left_eq, List.cons.injEq] at heq
          exact hnodup.1 (heq.1 ▸ hname')
        · intro path hpath
          rcases List.mem_append.1 hpath with hpath | hpath
          · obtain ⟨more, hne, rfl⟩ := hfirst path hpath
            exact ⟨name, List.mem_cons_self, more, hne, rfl⟩
          · obtain ⟨name', hname', hmore⟩ := hbelow path hpath
            exact ⟨name', List.mem_cons_of_mem _ hname', hmore⟩
    rw [h.walked_succ hw' hnames]
    split
    · have ht' := hw'.isTree h.isTree
      obtain ⟨hdirs, hbelow⟩ := heach (w'.files.directoryNames (base ++ names)) _ (nodup_namesIn ht')
        (fun name hname => h.isName_of_mem hw' hname) (h.extends_here hw' hnames (base ++ names))
      refine List.nodup_append.2 ⟨?_, hdirs, ?_⟩
      · refine (nodup_namesIn ht').map fun a b hab => ?_
        simpa using Path.descend_injective hab
      · rintro path hpath path' hpath' rfl
        obtain ⟨name, -, rfl⟩ := List.mem_map.1 hpath
        obtain ⟨name', -, more, hne, hmore⟩ := hbelow _ hpath'
        have heq := Path.descend_injective hmore
        simp only [List.append_cancel_left_eq, List.cons.injEq] at heq
        exact hne heq.2.symm
    · exact List.nodup_nil

/-- **What the visits cannot write is visited in the order in which it is listed at the start.** -/
theorem filter_walked (h : p.Grows copyStatic W D base w) {q : Path → Bool}
    (hq : ∀ names name, q (p.source.descend (names ++ [name])) = true → ¬ W (base ++ (names ++ [name]))) :
    ∀ (depth : Nat) {names : List String} {w' : Workspace}, (∀ s ∈ names, IsName s) → Extends W D w.files w'.files →
      (p.walked copyStatic depth (p.source.descend names) w').filter q =
        (w.files.filesUnder depth (p.source.descend names)).filter q
  | 0, _, _, _, _ => rfl
  | depth + 1, names, w', hnames, hw' => by
    have ht' := hw'.isTree h.isTree
    have hplain : ∀ s ∈ names, IsPlain s := fun s hs => (hnames s hs).toIsPlain
    have heach : ∀ (dirs : List String) (w₁ : Workspace), (∀ name ∈ dirs, IsName name) → Extends W D w.files w₁.files →
        (p.walkedEach copyStatic (fun name => p.walked copyStatic depth (p.source.descend (names ++ [name]))) dirs w₁).filter q =
          dirs.flatMap fun name => (w.files.filesUnder depth (p.source.descend (names ++ [name]))).filter q := by
      intro dirs
      induction dirs with
      | nil => exact fun _ _ _ => rfl
      | cons name dirs ih =>
        intro w₁ hdirs hw₁
        rw [List.forall_mem_cons] at hdirs
        have hnext : ∀ s ∈ names ++ [name], IsName s := by
          simpa using fun s => Or.rec (hnames s) (fun e => e ▸ hdirs.1)
        rw [walkedEach, List.filter_append, List.flatMap_cons, h.filter_walked hq depth hnext hw₁,
          ih _ hdirs.2 (h.extends_walked hnext hw₁)]
    rw [h.walked_succ hw' hnames, filesUnder_succ h.isTree h.base hplain]
    split
    · rw [List.filter_append, List.filter_append, heach (w'.files.directoryNames (base ++ names)) _
        (fun name hname => h.isName_of_mem hw' hname) (h.extends_here hw' hnames (base ++ names)), List.filter_flatMap]
      congr 1
      · exact filter_fileNames h.isTree hw' fun name hname => by simpa using hq names name hname
      · refine flatMap_directoryNames h.isTree hw' fun name hname hnot => ?_
        have hnext : ∀ s ∈ names ++ [name], IsPlain s := fun s hs => (h.isName_next hw' hnames hname s hs).toIsPlain
        rw [filesUnder_of_ne h.isTree h.base hnext (by simpa using hnot), List.filter_nil]
    · rfl

/-! ## The whole source -/

theorem trailPaths_eq (w : Workspace) :
    p.trailPaths copyStatic w = p.walked copyStatic (walkDepth w.files) (p.source.descend []) (fresh w) := by
  rw [Path.descend_nil, trailPaths]

theorem isBelow_trailPaths (h : p.Grows copyStatic W D base (fresh w)) {path : Path}
    (hpath : path ∈ p.trailPaths copyStatic w) : p.IsBelow path := by
  rw [trailPaths_eq] at hpath
  exact h.isBelow_walked (by simp) (.refl W D _) hpath

theorem nodup_trailPaths (h : p.Grows copyStatic W D base (fresh w)) : (p.trailPaths copyStatic w).Nodup := by
  rw [trailPaths_eq]
  exact h.nodup_walked _ (by simp) (.refl W D _)

/-- **The visits of a pass cover the source files**, as far as the visits themselves cannot write them. -/
theorem filter_trailPaths (h : p.Grows copyStatic W D base (fresh w)) {q : Path → Bool}
    (hq : ∀ names name, q (p.source.descend (names ++ [name])) = true → ¬ W (base ++ (names ++ [name]))) :
    (p.trailPaths copyStatic w).filter q = (p.sourceFiles w.files).filter q := by
  rw [trailPaths_eq, h.filter_walked hq _ (by simp) (.refl W D _), Path.descend_nil]
  rfl

theorem extends_walkedThrough (h : p.Grows copyStatic W D base (fresh w)) :
    Extends W D w.files (p.walkedThrough copyStatic w).files :=
  h.afterAll (fun _ hpath => h.isBelow_trailPaths hpath) (.refl W D _)

/-- A visit is made in a tree that has grown since the pass started. -/
theorem extends_before (h : p.Grows copyStatic W D base (fresh w)) {v : Visit} (hv : v ∈ p.trail copyStatic w) :
    Extends W D w.files v.before.files := by
  obtain ⟨done, rest, hpaths, hbefore⟩ := exists_of_mem_visits hv
  rw [hbefore]
  exact h.afterAll (fun path hpath => h.isBelow_trailPaths (by rw [hpaths]; exact List.mem_append_left _ hpath)) (.refl W D _)

end Grows

/-- **A source file** stands below the source, in a directory whose path is not too long. -/
theorem mem_sourceFiles {t : FileTree} (ht : t.IsTree) (hbase : t.locate p.source = .ok base) {path : Path} :
    path ∈ p.sourceFiles t ↔ ∃ names name content, path = p.source.descend (names ++ [name]) ∧
      pathFault? (p.source.descend names) = none ∧ t.get? (base ++ (names ++ [name])) = some (.file content) := by
  unfold sourceFiles
  rw [← Path.descend_nil p.source, mem_filesUnder ht hbase (by simp), Path.descend_nil]
  simp only [List.nil_append]
  constructor
  · rintro ⟨names, name, content, hpath, -, hrest⟩
    exact ⟨names, name, content, hpath, hrest⟩
  · rintro ⟨names, name, content, hpath, hfault, hget⟩
    refine ⟨names, name, content, hpath, ?_, hfault, hget⟩
    have hlt := length_lt_depth (by simp) hget
    simp only [List.length_append, List.length_cons, List.length_nil] at hlt
    unfold walkDepth
    omega

end Project
end ReactSite
