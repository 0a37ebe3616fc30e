import ReactSite.Proofs.Reaching
import ReactSite.Proofs.Rebuilding
import ReactSite.Proofs.Replaying
/-!
# Repeating — a pass over its own outputs does what the pass before it did

The second of two passes finds the source as it was and the destination as the first has left it.  Every one of its visits
comes to what it came to before (`Repeats`): a document converts to the same module or fails in the same words, an asset is
copied to where it is.  So the whole pass reports the same and leaves every file as it was (`build_twice`), however
often outputs stood in each other's way.
-/
namespace ReactSite

namespace Project

open FileTree

variable {p : Project} {copyStatic : Bool} {w v : Workspace} {path : Path}

/-- **Where source and destination stand apart**, a pass leaves the source alone. -/
theorem grows_off {base loc : Location} {top : Path} {sub : List String} (hstd : p.rules.IsStandard)
    (hsource : p.source.IsProper) (hdest : p.dest.IsProper) (ht : w.files.IsTree) (hbase : w.files.locate p.source = .ok base)
    (hreach : p.Reaches w.files top sub loc) (hbelow : ¬ base <+: loc ++ sub) (habove : ¬ loc ++ sub <+: base)
    (copyStatic : Bool) : p.Grows copyStatic (Off base) (Off base) base w :=
  grows_of_inside hstd hsource ht hbase (fun _ _ hplain hw' =>
    inside_off hbelow habove (hw'.isTree ht) (hreach.grown hw') (namesEntry_output hstd hdest hplain) hplain) copyStatic

/-! ## Visits again -/

/-- **A visit that is made again**: it ends, is reported and registered as before, and leaves what it left. -/
structure Repeats (p : Project) (copyStatic : Bool) (path : Path) (x y : Workspace) : Prop where
  goesOn : p.GoesOn copyStatic ⟨path, y⟩
  report : p.reportOf copyStatic [⟨path, y⟩] = p.reportOf copyStatic [⟨path, x⟩]
  registered : p.registered? ⟨path, y⟩ = p.registered? ⟨path, x⟩
  files : Replays x.files (p.after copyStatic path x).files y.files (p.after copyStatic path y).files

/-- A document whose conversion comes to the same is reported and registered alike. -/
theorem repeats_of_result {x y : Workspace} (hpage : p.isPage path = true) (hcurrent : y.files.current = x.files.current)
    (hresult : p.result ⟨path, y⟩ = p.result ⟨path, x⟩)
    (hfiles : Replays x.files (p.after copyStatic path x).files y.files (p.after copyStatic path y).files) :
    p.Repeats copyStatic path x y where
  goesOn := fun h => by simp [hpage] at h
  report := by
    unfold reportOf
    simp only [List.countP_singleton, List.filterMap_cons, List.filterMap_nil, converts_congr hresult, failure?_congr hresult]
  registered := registered?_congr hresult hcurrent
  files := hfiles

/-- What is no document is reported without being looked at. -/
theorem repeats_of_files {x y : Workspace} (hpage : p.isPage path = false) (hgo : p.GoesOn copyStatic ⟨path, y⟩)
    (hfiles : Replays x.files (p.after copyStatic path x).files y.files (p.after copyStatic path y).files) :
    p.Repeats copyStatic path x y where
  goesOn := hgo
  report := by
    unfold reportOf
    simp [converts, failure?, hpage]
  registered := by
    unfold registered? converts
    simp [hpage]
  files := hfiles

/-- **What a second pass finds**: the source as the first found it in `w`, where the visit was made in `x`, and the
destination as the visit, and those after it, have left it. -/
structure Later (p : Project) (copyStatic : Bool) (base : Location) (w : Workspace) (path : Path) (x y : Workspace) :
    Prop where
  before : Extends (Off base) (Off base) w.files x.files
  visit : Extends (Off base) (Off base) x.files (p.after copyStatic path x).files
  since : Extends (Off base) (Off base) (p.after copyStatic path x).files y.files
  lockedBefore : x.files.locked = w.files.locked
  lockedSince : y.files.locked = w.files.locked

/-- **The files that a pass copies** are not read-only. -/
def CopiesWritable (p : Project) (copyStatic : Bool) (base : Location) (t : FileTree) : Prop :=
  copyStatic = true → ∀ names bytes, t.get? (base ++ names) = some (.file bytes) → p.isPage ⟨0, names⟩ = false →
    base ++ names ∉ t.locked

section

variable {base loc : Location} {top : Path} {sub : List String} {x y : Workspace} (hstd : p.rules.IsStandard)
  (hsource : p.source.IsProper) (hdest : p.dest.IsProper) (ht : w.files.IsTree) (hbase : w.files.locate p.source = .ok base)
  (hdir : w.files.get? base = some .directory)
  (hreach : p.Reaches w.files top sub loc) (hsub : ∀ s ∈ sub, IsName s)
  (hinside : ∀ names bytes, w.files.get? (base ++ names) = some (.file bytes) → p.isPage ⟨0, names⟩ = true →
    p.StaysInside ⟨0, names⟩ bytes)
  (hpath : p.IsBelow path) (hlater : p.Later copyStatic base w path x y)

theorem Later.locks (h : p.Later copyStatic base w path x y) : y.files.locked ⊆ x.files.locked := by
  rw [h.lockedBefore, h.lockedSince]
  exact List.Subset.refl _

theorem Later.get?_eq (h : p.Later copyStatic base w path x y) (names : List String) :
    x.files.get? (base ++ names) = w.files.get? (base ++ names) ∧
      y.files.get? (base ++ names) = w.files.get? (base ++ names) := by
  exact ⟨get?_off h.before names, get?_off (h.before.trans (h.visit.trans h.since)) names⟩

include hsource ht hbase hdir hpath

theorem isName_of_moduleOf {rel : Path} {text : String} (hbefore : Extends (Off base) (Off base) w.files x.files)
    (hrel : p.relative x.files.current path = .ok rel) (hmodule : p.moduleOf x.files rel = .ok text) :
    rel = ⟨0, rel.parts⟩ ∧ rel.parts ≠ [] ∧ ∀ s ∈ rel.parts, IsName s := by
  obtain ⟨hform, hplain⟩ := relative_below hsource (hbefore.isTree ht) hpath hrel
  rw [hform] at hmodule
  obtain ⟨bytes, hget⟩ := get?_of_moduleOf p (hbefore.locate hbase) (parent_notMem hplain) hmodule
  exact ⟨hform, (hbefore.isTree ht).names_of_file (hbefore.directory hdir) hget⟩

include hinside hlater

theorem moduleOf_again (hpage : p.isPage path = true) {rel : Path} (hrel : p.relative x.files.current path = .ok rel) :
    p.moduleOf y.files rel = p.moduleOf x.files rel := by
  obtain ⟨hform, hplain⟩ := relative_below hsource (hlater.before.isTree ht) hpath hrel
  have hlocx := hlater.before.locate hbase
  have hlocy := (hlater.visit.trans hlater.since).locate hlocx
  rw [hform]
  have hsame : ∀ names, y.files.get? (base ++ names) = x.files.get? (base ++ names) := fun names =>
    (hlater.get?_eq names).2.trans (hlater.get?_eq names).1.symm
  refine moduleOf_congr hsource (.of_get? hsame) hlocy hlocx (parent_notMem hplain) (hsame rel.parts) fun bytes hget => ?_
  rw [(hlater.get?_eq rel.parts).2] at hget
  have hne := (ht.names_of_file hdir hget).1
  exact hinside _ bytes hget (by rw [isPage_relative hpath hform hne hrel, hpage])

include hstd hdest hreach hsub

/-- **A document that is visited again** comes to the same, and its module, if there is one, is written where it was. -/
theorem repeats_page (hpage : p.isPage path = true) : p.Repeats copyStatic path x y := by
  have hcurrent : y.files.current = x.files.current := (hlater.visit.trans hlater.since).current
  have hsince := hlater.since
  have hreach' := hreach.grown hlater.before
  have htop := hreach.isProper hdest
  have hruns : p.result ⟨path, y⟩ = p.result ⟨path, x⟩ ∧
      Replays x.files (p.after copyStatic path x).files y.files (p.after copyStatic path y).files := by
    unfold result
    rw [after_of_isPage hpage] at hsince
    rw [after_of_isPage hpage, after_of_isPage hpage]
    rw [run_convertPage] at hsince
    rw [run_convertPage, run_convertPage, hcurrent]
    cases hrel : p.relative x.files.current path with
    | error f => exact ⟨rfl, .refl _ _⟩
    | ok rel =>
      simp only [hrel] at hsince ⊢
      rw [moduleOf_again hsource ht hbase hdir hinside hpath hlater hpage hrel]
      cases hmodule : p.moduleOf x.files rel with
      | error f => exact ⟨rfl, .refl _ _⟩
      | ok text =>
        obtain ⟨hform, hne, hnames⟩ := isName_of_moduleOf hsource ht hbase hdir hpath hlater.before hrel hmodule
        obtain ⟨init, last, hout, hinit, hlast⟩ := exists_outputNames (p := p) hnames hne
        have hplace : p.outputPath rel = top.descend ((sub ++ init) ++ [last]) := by
          rw [hform, outputPath_eq hstd, hout, hreach.output, Path.descend_descend, List.append_assoc]
        simp only [hmodule, hplace] at hsince ⊢
        rcases hwrite : (writeText (top.descend ((sub ++ init) ++ [last])) (Text.encode text)).run.run x.files with ⟨r, files⟩
        have hgrown : Extends Anywhere Anywhere files y.files := by
          rw [hwrite] at hsince
          cases r <;> exact hsince.anywhere
        obtain ⟨files', hagain, hreplays⟩ := writeText_again (hlater.before.isTree ht) htop hreach'.located
          hreach'.directory (List.forall_mem_append.2 ⟨hsub, hinit⟩) hlast hwrite hgrown hlater.locks
        rw [hagain]
        cases r <;> exact ⟨rfl, hreplays⟩
  exact repeats_of_result hpage hcurrent hruns.1 hruns.2

omit ht hinside hlater hdir hreach hsub hbase in
/-- An asset goes to a path that names an entry, in its own directory or in one of its name. -/
theorem namesEntry_of_relative (hx : x.files.IsTree) {rel : Path} (hrel : p.relative x.files.current path = .ok rel) :
    Path.NamesEntry (p.outputPath rel) ∧ Path.NamesEntry ((p.outputPath rel).child path.name) := by
  obtain ⟨hform, hplain⟩ := relative_below hsource hx hpath hrel
  rw [hform]
  refine ⟨namesEntry_outputPath hstd hdest hplain, ?_⟩
  rw [outputPath_eq hstd, Path.child_descend]
  exact namesEntry_output hstd hdest (List.forall_mem_append.2
    ⟨isPlain_outputNames hplain, List.forall_mem_singleton.2 (name_below hpath).toIsPlain⟩)

omit hinside hlater hdir hreach hsub in
/-- **A visit makes nothing read-only**, if no file that the pass copies is. -/
theorem locked_visit (hassets : p.CopiesWritable copyStatic base w.files)
    (hbefore : Extends (Off base) (Off base) w.files x.files) (hlocked : x.files.locked = w.files.locked) :
    (p.after copyStatic path x).files.locked = w.files.locked := by
  refine (locked_after (fun _ rel hrel => namesEntry_of_relative hstd hsource hdest hpath (hbefore.isTree ht) hrel)
    fun hkind hcopies t' l hgrown hloc hmem => ?_).trans hlocked
  obtain ⟨names, hne, hnames, rfl⟩ := hpath
  obtain ⟨rfl, -⟩ := locate_names ((hbefore.anywhere.trans hgrown).locate hbase)
    (parent_notMem fun s hs => (hnames s hs).toIsPlain) hloc
  rw [hlocked] at hmem
  obtain ⟨bytes, hfile⟩ := ht.locked _ hmem
  exact hassets hcopies names bytes hfile (by rw [isPage_document hne, hkind]) hmem

omit hdir hinside hlater hreach hsub in
/-- A file that has been copied is copied again, to where its copy is. -/
theorem placeAsset_again (hpage : p.isPage path = false) {target : Path} {x' : Workspace}
    (hrun : (p.placeAsset path).run.run x = (.ok target, x')) (hlater : p.Later true base w path x y) :
    ∃ files, (p.placeAsset path).run.run y = (.ok target, { y with files }) ∧
      Replays x.files x'.files y.files files := by
  have hcurrent : y.files.current = x.files.current := (hlater.visit.trans hlater.since).current
  have hsince := hlater.since
  rw [after_of_asset hpage, hrun] at hsince
  obtain ⟨rel, made, hrel, hmade, hcopy⟩ := placeAsset_eq_ok p hrun
  obtain ⟨hentry, hinto⟩ := namesEntry_of_relative hstd hsource hdest hpath (hlater.before.isTree ht) hrel
  have htarget : Path.NamesEntry (copyTarget made path (p.outputPath rel)) := by
    unfold copyTarget
    split
    · exact hinto
    · exact hentry
  have hgrown : Extends Nowhere Anywhere x.files made := by
    have hmake := extends_makeDirectories (W := Nowhere) (D := Anywhere) (t := x.files) (isProper_parent hentry.proper)
      fun _ _ _ _ _ _ => trivial
    rwa [hmade] at hmake
  have hcopied : Extends Anywhere Anywhere made x'.files := by
    have hcopies := extends_copy (W := Anywhere) (D := Anywhere) htarget fun _ _ => trivial
    rwa [hcopy] at hcopies
  have hthere : y.files.isDirectory (p.outputPath rel).parent = true :=
    (hcopied.trans hsince.anywhere).isDirectory (isDirectory_of_makeDirectories (isProper_parent hentry.proper) hmade)
  have hlocks : y.files.locked ⊆ made.locked := by
    have hlocked := locked_makeDirectories (p.outputPath rel).parent x.files
    rw [hmade] at hlocked
    rw [show made.locked = x.files.locked from hlocked]
    exact hlater.locks
  -- the file that is copied is as it was
  obtain ⟨files, hagain, hreplays⟩ := copy_again htarget hcopy hsince.anywhere hlocks fun a bytes ha hget => by
    obtain ⟨names, hne, hnames, rfl⟩ := hpath
    obtain ⟨rfl, -⟩ := locate_names ((hlater.before.anywhere.trans hgrown.anywhere).locate hbase)
      (parent_notMem fun s hs => (hnames s hs).toIsPlain) ha
    rw [hgrown.file_iff id, (hlater.get?_eq names).1] at hget
    rw [(hlater.get?_eq names).2, hget]
  have hdestination : p.destination x.files.current path = .ok (p.outputPath rel) :=
    (destination_eq_ok p).2 ⟨rel, hrel, checkName_of_typed p hstd.typed rel, rfl⟩
  rw [run_placeAsset, hdestination] at hrun
  simp only [hmade, hcopy] at hrun
  obtain rfl : target = p.outputPath rel := (Except.ok.inj (congrArg Prod.fst hrun)).symm
  refine ⟨files, ?_, (Replays.of_made hgrown (hcopied.trans hsince.anywhere)).trans hreplays⟩
  rw [run_placeAsset, hcurrent, hdestination]
  simp only [run_makeDirectories_of_isDirectory hthere, hagain]

omit hdir hinside hlater hreach hsub in
/-- **A file that is copied on a visit** is copied again when it is visited again. -/
theorem repeats_asset (hpage : p.isPage path = false) (hlater : p.Later true base w path x y)
    (hgo : p.GoesOn true ⟨path, x⟩) : p.Repeats true path x y := by
  obtain ⟨target, htarget⟩ := hgo hpage rfl
  rcases hrun : (p.placeAsset path).run.run x with ⟨r, x'⟩
  rw [hrun] at htarget
  obtain rfl : r = .ok target := htarget
  obtain ⟨files, hagain, hreplays⟩ := placeAsset_again hstd hsource hdest ht hbase hpath hpage hrun hlater
  refine repeats_of_files hpage (fun _ _ => ⟨target, by rw [hagain]⟩) ?_
  rw [after_of_asset hpage, after_of_asset hpage, hrun, hagain]
  exact hreplays

/-- **Every visit that is made again repeats.** -/
theorem repeats_after (hgo : p.GoesOn copyStatic ⟨path, x⟩) : p.Repeats copyStatic path x y := by
  cases hpage : p.isPage path with
  | true => exact repeats_page hstd hsource hdest ht hbase hdir hreach hsub hinside hpath hlater hpage
  | false =>
    cases copyStatic with
    | true => exact repeats_asset hstd hsource hdest ht hbase hpath hpage hlater hgo
    | false =>
      have hnot : p.treats false path = false := by simp [treats, hpage]
      refine repeats_of_files hpage (fun _ h => (Bool.false_ne_true h).elim) ?_
      rw [after_of_not_treats hnot, after_of_not_treats hnot]
      exact .refl _ _

end

/-! ## Passes again -/

section

variable {base loc : Location} {top : Path} {sub : List String} (hstd : p.rules.IsStandard)
  (hsource : p.source.IsProper) (hdest : p.dest.IsProper) (ht : w.files.IsTree) (hbase : w.files.locate p.source = .ok base)
  (hreach : p.Reaches w.files top sub loc) (hbelow : ¬ base <+: loc ++ sub) (habove : ¬ loc ++ sub <+: base)
include hstd hsource hdest ht hbase hreach hbelow habove

section

variable (hdir : w.files.get? base = some .directory) (hsub : ∀ s ∈ sub, IsName s)
  (hinside : ∀ names bytes, w.files.get? (base ++ names) = some (.file bytes) → p.isPage ⟨0, names⟩ = true →
    p.StaysInside ⟨0, names⟩ bytes)
  (hassets : p.CopiesWritable copyStatic base w.files)
include hdir hsub hassets

omit hdir hsub in
/-- **Visits make nothing read-only**, if no file that the pass copies is. -/
theorem locked_afterAll : ∀ {paths : List Path} {x : Workspace}, (∀ path ∈ paths, p.IsBelow path) →
    Extends (Off base) (Off base) w.files x.files → x.files.locked = w.files.locked →
      (p.afterAll copyStatic paths x).files.locked = w.files.locked
  | [], _, _, _, hlocked => hlocked
  | path :: paths, x, hpaths, hx, hlocked => by
    rw [List.forall_mem_cons] at hpaths
    have hgrows := grows_off hstd hsource hdest ht hbase hreach hbelow habove copyStatic
    rw [afterAll_cons]
    exact locked_afterAll hpaths.2 (hx.trans (hgrows.step path x hpaths.1 hx))
      (locked_visit hstd hsource hdest ht hbase hpaths.1 hassets hx hlocked)

include hinside

/-- **Visits that are made again** in the tree that the first of them, and what came after, have left. -/
theorem visits_again : ∀ {paths : List Path} {x y : Workspace}, (∀ path ∈ paths, p.IsBelow path) →
    (∀ v ∈ p.visits copyStatic paths x, p.GoesOn copyStatic v) → Extends (Off base) (Off base) w.files x.files →
      Extends (Off base) (Off base) (p.afterAll copyStatic paths x).files y.files →
        x.files.locked = w.files.locked → y.files.locked = w.files.locked →
          (∀ v ∈ p.visits copyStatic paths y, p.GoesOn copyStatic v) ∧
          p.reportOf copyStatic (p.visits copyStatic paths y) = p.reportOf copyStatic (p.visits copyStatic paths x) ∧
          (p.visits copyStatic paths y).filterMap p.registered? = (p.visits copyStatic paths x).filterMap p.registered? ∧
          Extends (Off base) (Off base) y.files (p.afterAll copyStatic paths y).files ∧
          Replays x.files (p.afterAll copyStatic paths x).files y.files (p.afterAll copyStatic paths y).files
  | [], x, y, _, _, _, _, _, _ => ⟨fun _ hv => (List.not_mem_nil hv).elim, rfl, rfl, .refl _ _ _, .refl _ _⟩
  | path :: paths, x, y, hpaths, hgo, hx, hy, hlockedx, hlockedy => by
    rw [List.forall_mem_cons] at hpaths
    rw [visits, List.forall_mem_cons] at hgo
    rw [afterAll_cons] at hy
    have hgrows := grows_off hstd hsource hdest ht hbase hreach hbelow habove copyStatic
    have hvisit := hgrows.step path x hpaths.1 hx
    have hrest := hgrows.afterAll hpaths.2 (hx.trans hvisit)
    have hfirst := repeats_after hstd hsource hdest ht hbase hdir hreach hsub hinside hpaths.1
      ⟨hx, hvisit, hrest.trans hy, hlockedx, hlockedy⟩ hgo.1
    have hvisit' := hgrows.step path y hpaths.1 (hx.trans (hvisit.trans (hrest.trans hy)))
    obtain ⟨hgo', hreport, hroutes, hgrown, hreplays⟩ := visits_again hpaths.2 hgo.2 (hx.trans hvisit) (hy.trans hvisit')
      (locked_visit hstd hsource hdest ht hbase hpaths.1 hassets hx hlockedx)
      (locked_visit hstd hsource hdest ht hbase hpaths.1 hassets (hx.trans (hvisit.trans (hrest.trans hy))) hlockedy)
    refine ⟨?_, ?_, ?_, hvisit'.trans hgrown, hfirst.files.trans hreplays⟩
    · rw [visits, List.forall_mem_cons]
      exact ⟨hfirst.goesOn, hgo'⟩
    · rw [visits, visits, reportOf_cons, hreport, hfirst.report, ← reportOf_cons]
    · rw [visits, visits, List.filterMap_cons, List.filterMap_cons, hfirst.registered, hroutes]

end

/-- **A pass leaves the source alone**; its destination is reached by names that directories hold. -/
theorem Passes.extends_off {r : Report} {w' : Workspace} (h : p.Passes copyStatic w r w') : (∀ s ∈ sub, IsName s) ∧
    Extends (Off base) (Off base) w.files (p.walkedThrough copyStatic w).files ∧
      Extends (Off base) (Off base) (p.walkedThrough copyStatic w).files w'.files := by
  have hindex : ∀ s ∈ ["index.js"], IsPlain s := by decide
  have hroutePath : p.routePath = p.output.descend ["index.js"] := routePath_eq hstd
  have hwrite := h.files
  rw [hroutePath] at hwrite
  have hgrown : Extends (Off base) (Off base) w.files (p.walkedThrough copyStatic w).files :=
    (grows_off (w := fresh w) hstd hsource hdest ht hbase hreach hbelow habove copyStatic).extends_walkedThrough
  refine ⟨(hreach.grown hgrown).isName hdest (hgrown.isTree ht) (by simp) hindex hwrite, hgrown, ?_⟩
  have hinto := inside_off hbelow habove (hgrown.isTree ht) (hreach.grown hgrown) (namesEntry_output hstd hdest hindex) hindex
  have hwritten : Extends (Off base) (Off base) (p.walkedThrough copyStatic w).files
      ((writeText (p.output.descend ["index.js"]) (Text.encode (p.walkedThrough copyStatic w).routes.entryModule)).run.run
        (p.walkedThrough copyStatic w).files).2 := extends_writeText hinto
  rwa [hwrite] at hwritten

/-- The tree that a pass has left is as read-only as the tree it was given, if no file that it copies is read-only. -/
theorem Passes.locked (hassets : p.CopiesWritable copyStatic base w.files) {r : Report} {w' : Workspace}
    (h : p.Passes copyStatic w r w') :
    (p.walkedThrough copyStatic w).files.locked = w.files.locked ∧ w'.files.locked = w.files.locked := by
  have hgrows := grows_off (w := fresh w) hstd hsource hdest ht hbase hreach hbelow habove copyStatic
  have hwalked : (p.walkedThrough copyStatic w).files.locked = w.files.locked :=
    locked_afterAll (x := fresh w) hstd hsource hdest ht hbase hreach hbelow habove hassets
      (fun _ hpath => hgrows.isBelow_trailPaths hpath) (.refl _ _ _) rfl
  have hwritten := locked_writeText p.routePath (Text.encode (p.walkedThrough copyStatic w).routes.entryModule)
    (p.walkedThrough copyStatic w).files
  rw [h.files, hwalked] at hwritten
  exact ⟨hwalked, hwritten⟩

section

variable {w₂ : Workspace} (hsince : Extends (Off base) (Off base) w.files w₂.files)
include hsince

/-- A pass visits the same files as long as the source is as it was. -/
theorem trailPaths_again : p.trailPaths copyStatic w₂ = p.trailPaths copyStatic w := by
  have hgrows := grows_off (w := fresh w) hstd hsource hdest ht hbase hreach hbelow habove copyStatic
  have hgrows₂ := grows_off (w := fresh w₂) hstd hsource hdest (hsince.isTree ht) (hsince.locate hbase)
    (hreach.grown hsince) hbelow habove copyStatic
  rw [hgrows.trailPaths_off, hgrows₂.trailPaths_off]
  exact sourceFiles_eq (.of_get? (get?_off hsince)) (hsince.isTree ht) ht (hsince.locate hbase) hbase

omit hsource hdest ht hreach hbelow habove in
/-- The entry document stays where it is. -/
theorem isFile_entry_again (hentry : w.files.isFile p.entryPath = true) : w₂.files.isFile p.entryPath = true := by
  obtain ⟨content, hnode⟩ := isFile_iff.1 hentry
  obtain ⟨place, hplace, hget⟩ := node?_eq_some.1 hnode
  rw [entryPath_eq hstd] at hplace
  obtain ⟨rfl, -⟩ := locate_names hbase (by decide) hplace
  refine isFile_iff.2 ⟨content, node?_eq_some.2 ⟨base ++ ["index.html"], ?_, by rw [get?_off hsince, hget]⟩⟩
  rw [entryPath_eq hstd]
  exact hsince.locate hplace

end

/-- **The walk of a second pass**: its visits repeat those of the first, and make nothing read-only. -/
theorem walk_again (hinside : ∀ names bytes, w.files.get? (base ++ names) = some (.file bytes) →
      p.isPage ⟨0, names⟩ = true → p.StaysInside ⟨0, names⟩ bytes)
    (hassets : p.CopiesWritable copyStatic base w.files) {r : Report} {w' w₂ : Workspace}
    (h : p.Passes copyStatic w r w') (hfiles : w₂.files = w'.files) :
    (∀ v ∈ p.trail copyStatic w₂, p.GoesOn copyStatic v) ∧
      p.reportOf copyStatic (p.trail copyStatic w₂) = p.reportOf copyStatic (p.trail copyStatic w) ∧
      (p.walkedThrough copyStatic w₂).routes.entries = (p.walkedThrough copyStatic w).routes.entries ∧
      Extends (Off base) (Off base) w'.files (p.walkedThrough copyStatic w₂).files ∧
      Replays w.files (p.walkedThrough copyStatic w).files w'.files (p.walkedThrough copyStatic w₂).files ∧
      (p.walkedThrough copyStatic w₂).files.locked = w.files.locked := by
  have hgrows := grows_off (w := fresh w) hstd hsource hdest ht hbase hreach hbelow habove copyStatic
  obtain ⟨hsub, hgrown, hlast⟩ := h.extends_off hstd hsource hdest ht hbase hreach hbelow habove
  obtain ⟨-, hlocked⟩ := h.locked hstd hsource hdest ht hbase hreach hbelow habove hassets
  have hall := hgrown.trans hlast
  rw [← hfiles] at hlast hall hlocked ⊢
  have hdir : w.files.get? base = some .directory := by
    obtain ⟨base', hbase', hdir⟩ := exists_base hstd h.entry
    rw [hbase, Except.ok.injEq] at hbase'
    rwa [hbase']
  have hpaths : p.trailPaths copyStatic w₂ = p.trailPaths copyStatic w :=
    trailPaths_again hstd hsource hdest ht hbase hreach hbelow habove hall
  have hbelowPaths : ∀ path ∈ p.trailPaths copyStatic w, p.IsBelow path := fun _ hpath => hgrows.isBelow_trailPaths hpath
  obtain ⟨hgo, hreport, hregistered, hgrown₂, hreplays⟩ := visits_again (y := fresh w₂) hstd hsource hdest ht hbase hreach
    hbelow habove hdir hsub hinside hassets hbelowPaths h.goesOn (.refl _ _ _) hlast rfl hlocked
  unfold walkedThrough trail
  rw [hpaths]
  refine ⟨hgo, hreport, ?_, hgrown₂, hreplays, ?_⟩
  · rw [routes_afterAll, routes_afterAll, hregistered]
    rfl
  · exact locked_afterAll (x := fresh w₂) hstd hsource hdest ht hbase hreach hbelow habove hassets hbelowPaths hall hlocked

/-- **What a second pass makes of the tree that the first has left.** -/
theorem run_build_again (hinside : ∀ names bytes, w.files.get? (base ++ names) = some (.file bytes) →
      p.isPage ⟨0, names⟩ = true → p.StaysInside ⟨0, names⟩ bytes)
    (hassets : p.CopiesWritable copyStatic base w.files) {r : Report} {w' w₂ : Workspace}
    (h : (p.build copyStatic).run.run w = (.ok r, w')) (hfiles : w₂.files = w'.files)
    (hroutes : w₂.routes.entryComponent = w.routes.entryComponent) :
    ∃ w₃, (p.build copyStatic).run.run w₂ = (.ok r, w₃) ∧ (∀ l, w₃.files.get? l = w'.files.get? l) ∧
      w₃.files.locked = w'.files.locked := by
  have hpasses := build_eq_ok.1 h
  obtain ⟨hsub, hgrown, hlast⟩ := hpasses.extends_off hstd hsource hdest ht hbase hreach hbelow habove
  obtain ⟨hlocked, hlocked'⟩ := hpasses.locked hstd hsource hdest ht hbase hreach hbelow habove hassets
  obtain ⟨hgo, hreport, hentries, hgrown₂, hreplays, hlocked₂⟩ :=
    walk_again hstd hsource hdest ht hbase hreach hbelow habove hinside hassets hpasses hfiles
  have hrouter : (p.walkedThrough copyStatic w₂).routes = (p.walkedThrough copyStatic w).routes := by
    rw [walkedThrough, walkedThrough, routes_afterAll, routes_afterAll] at hentries ⊢
    exact congrArg₂ Router.mk hroutes hentries
  -- the same entry module is written where it was
  have hwrite := hpasses.files
  have hroutePath : p.routePath = top.descend (sub ++ ["index.js"]) := by
    rw [show p.routePath = p.output.descend ["index.js"] from routePath_eq hstd, hreach.output, Path.descend_descend]
  rw [hroutePath] at hwrite
  have hlocks : (p.walkedThrough copyStatic w₂).files.locked ⊆ (p.walkedThrough copyStatic w).files.locked := by
    rw [hlocked, hlocked₂]
    exact List.Subset.refl _
  obtain ⟨t₃, hwrite₃, hreplays₃⟩ := writeText_again (hgrown.isTree ht) (hreach.isProper hdest)
    (hreach.grown hgrown).located (hreach.grown hgrown).directory hsub (by decide) hwrite hgrown₂.anywhere hlocks
  have hlocked₃ := locked_writeText (top.descend (sub ++ ["index.js"]))
    (Text.encode (p.walkedThrough copyStatic w).routes.entryModule) (p.walkedThrough copyStatic w₂).files
  rw [hwrite₃, hlocked₂, ← hlocked'] at hlocked₃
  refine ⟨⟨t₃, (p.walkedThrough copyStatic w₂).routes⟩, build_eq_ok.2 ⟨hpasses.document, hpasses.module, ?_, hgo, ?_, rfl, ?_⟩,
    (hreplays.trans hreplays₃).get?_eq, hlocked₃⟩
  · exact isFile_entry_again hstd hbase (hfiles ▸ hgrown.trans hlast) hpasses.entry
  · rw [hpasses.report, hreport]
  · rw [hrouter, hroutePath]
    exact hwrite₃

/-- **A pass is taken again at once, and nothing changes**: from whatever state the destination was in, a pass that came to
its end comes to the same end on the tree that it left, with the same report, and leaves every entry as it was, and as
read-only as it was.  So it is with the routes that the pass was given and with routes of its own. -/
theorem build_twice (hinside : ∀ names bytes, w.files.get? (base ++ names) = some (.file bytes) →
      p.isPage ⟨0, names⟩ = true → p.StaysInside ⟨0, names⟩ bytes) (hassets : p.CopiesWritable copyStatic base w.files) :
    (∀ r w', (p.build copyStatic).run.run w = (.ok r, w') → ∀ w₂ : Workspace, w₂.files = w'.files →
      w₂.routes.entryComponent = w.routes.entryComponent →
        ∃ w₃, (p.build copyStatic).run.run w₂ = (.ok r, w₃) ∧ (∀ l, w₃.files.get? l = w'.files.get? l) ∧
          w₃.files.locked = w'.files.locked) ∧
    (∀ r w', (p.buildAlone copyStatic).run.run w = (.ok r, w') →
      ∃ w₃, (p.buildAlone copyStatic).run.run w' = (.ok r, w₃) ∧ (∀ l, w₃.files.get? l = w'.files.get? l) ∧
        w₃.files.locked = w'.files.locked) := by
  refine ⟨fun r w' h w₂ hfiles hroutes => run_build_again hstd hsource hdest ht hbase hreach hbelow habove hinside hassets h
    hfiles hroutes, fun r w' h => ?_⟩
  rw [run_buildAlone, Prod.mk.injEq] at h
  obtain ⟨hok, rfl⟩ := h
  rcases hrun : (p.build copyStatic).run.run { w with routes := { entryComponent := p.rules.entryComponent } } with ⟨s, w₁⟩
  rw [hrun] at hok
  obtain rfl : s = .ok r := hok
  have hfiles : ({ w₁ with routes := { entryComponent := p.rules.entryComponent } } : Workspace).files = w₁.files := rfl
  obtain ⟨w₃, hagain, hsame⟩ := run_build_again (w := { w with routes := { entryComponent := p.rules.entryComponent } })
    hstd hsource hdest ht hbase hreach hbelow habove hinside hassets hrun hfiles rfl
  refine ⟨{ w₃ with routes := w.routes }, ?_, hsame⟩
  rw [run_buildAlone]
  simp only [hagain]

end

/-- A site whose outputs find no room: a file stands where a directory is wanted, and a directory where a file is. -/
def crowded : Workspace where
  files := ⟨[(["site"], .directory), (["site", "index.html"], .file (Text.encode "<p>Home</p>")),
    (["site", "logo.svg"], .file (Text.encode "<svg/>")), (["site", "art"], .directory),
    (["site", "art", "index.html"], .file (Text.encode "<p>Art</p>")),
    (["app"], .directory), (["app", "src"], .directory), (["app", "src", "art"], .file []),
    (["app", "src", "logo.svg"], .directory)], [], []⟩

theorem build_twice_crowded : ∃ r w', (shelfProject.build true).run.run crowded = (.ok r, w') ∧
    r.failures = [("art/index.html", "[Errno 17] File exists: '/app/src/art'")] ∧ r.assets = 1 ∧
      ∃ w₃, (shelfProject.build true).run.run w' = (.ok r, w₃) ∧ (∀ l, w₃.files.get? l = w'.files.get? l) ∧
        w₃.files.locked = w'.files.locked := by
  have hreport : ((shelfProject.build true).run.run crowded).1.toOption.map (fun r => (r.failures, r.assets)) =
      some ([("art/index.html", "[Errno 17] File exists: '/app/src/art'")], 1) := by decide +kernel
  rcases hrun : (shelfProject.build true).run.run crowded with ⟨f | r, w'⟩
  · rw [hrun] at hreport
    cases hreport
  · have hcomponent : w'.routes.entryComponent = crowded.routes.entryComponent := by
      rw [← show ((shelfProject.build true).run.run crowded).2 = w' by rw [hrun]]
      decide +kernel
    have hinside : ∀ f ∈ filesFrom ["site"] crowded.files, shelfProject.isPage ⟨0, f.1⟩ = true →
        shelfProject.StaysInside ⟨0, f.1⟩ f.2 := by decide +kernel
    have hassets : shelfProject.CopiesWritable true ["site"] crowded.files := fun _ _ _ _ _ => List.not_mem_nil
    have hreach : shelfProject.Reaches crowded.files (Path.ofString "/app") ["src"] ["app"] :=
      ⟨by decide +kernel, by decide, by decide +kernel, by decide +kernel⟩
    obtain ⟨hbuild, -⟩ := build_twice ⟨rfl, rfl, rfl, rfl, rfl, rfl, rfl⟩ (Path.isProper_ofString _) (Path.isProper_ofString _)
      (show crowded.files.IsTree by decide +kernel) (show crowded.files.locate shelfProject.source = .ok ["site"] by decide +kernel)
      hreach (by decide) (by decide) (fun names bytes hget => hinside (names, bytes) (mem_filesFrom.2 hget)) hassets
    rw [hrun] at hreport
    simp only [Except.toOption, Option.map_some, Option.some.injEq, Prod.mk.injEq] at hreport
    obtain ⟨w₃, hagain, hsame⟩ := hbuild r w' hrun w' rfl hcomponent
    exact ⟨r, w', rfl, hreport.1, hreport.2, w₃, hagain, hsame⟩

/-- The site of `crowded` with a read-only picture, and nothing in its output directory. -/
def sealedSite : Workspace where
  files := ⟨[(["site"], .directory), (["site", "index.html"], .file (Text.encode "<p>Home</p>")),
    (["site", "logo.svg"], .file (Text.encode "<svg/>")), (["app"], .directory), (["app", "src"], .directory)], [],
    [["site", "logo.svg"]]⟩

/-- A project whose outputs lie in its source. -/
def nestedProject : Project := { shelfProject with rules := { outputSubdir := "../site/out" } }

/-- The site of that project. -/
def nestedSite : Workspace where
  files := ⟨[(["site"], .directory), (["site", "index.html"], .file (Text.encode "<p>Home</p>")),
    (["site", "out"], .directory), (["app"], .directory)], [], []⟩

/-- **A pass may not be taken again**: the copy of a read-only picture is read-only too, and is not written over.  And a pass
whose outputs lie in the source takes them for assets when it is taken again. -/
theorem build_twice_ne_sealed :
    (((shelfProject.build true).run.run sealedSite).1.toOption.map fun r => (r.pages, r.assets, r.failures)) = some (1, 1, []) ∧
    ((shelfProject.build true).run.run ((shelfProject.build true).run.run sealedSite).2).1.toOption.isNone = true ∧
    (((nestedProject.build true).run.run nestedSite).1.toOption.map fun r => (r.pages, r.assets, r.failures)) = some (1, 1, []) ∧
    (((nestedProject.build true).run.run ((nestedProject.build true).run.run nestedSite).2).1.toOption.map
      fun r => (r.pages, r.assets, r.failures)) = some (1, 4, []) :=
  ⟨by decide +kernel, by decide +kernel, by decide +kernel, by decide +kernel⟩

end Project
end ReactSite
