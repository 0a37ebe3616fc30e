import ReactSite.Proofs.Layout
/-!
# Rebuilding — what a pass makes of a tidy output directory

In a site that is laid out well every visit comes out well (`visits_ok`), so a pass does: it writes the output of every source
file that it treats, and the entry module (`buildAlone_ok`).  What each output holds is told by the source at the start of
the pass.
-/
namespace ReactSite
namespace Project

open FileTree

/-- The route of a source file, if it is a document other than the entry document. -/
def entryOf? (p : Project) (path : Path) : Option PageRoute :=
  if p.isPage path && !p.isEntryPath (p.visitedPath path) then
    some (Router.entryFor (directoryOf (p.visitedPath path)) (p.visitedPath path).stem)
  else none

/-- **The entry module of a source**: it routes to every document but the entry document. -/
def entryModuleOf (p : Project) (t : FileTree) : String :=
  Router.entryModule { entryComponent := p.rules.entryComponent, entries := (p.sourceFiles t).filterMap p.entryOf? }

/-- **The outputs that a pass writes**, by the names that lead to them. -/
def Writes (p : Project) (copyStatic : Bool) (t : FileTree) (names : List String) : Prop :=
  names = p.routeNames ∨ ∃ path ∈ p.sourceFiles t, p.treats copyStatic path = true ∧ names = p.outNames path

/-- **What a pass makes of a tree.** -/
structure Rebuilt (p : Project) (copyStatic : Bool) (out : Location) (t t' : FileTree) : Prop where
  grown : Extends (fun l => ∃ m, p.Writes copyStatic t m ∧ l = out ++ m)
    (fun l => ∃ m, p.Writes copyStatic t m ∧ OnTheWay out m l) t t'
  outputs : ∀ path ∈ p.sourceFiles t, p.treats copyStatic path = true → ∀ bytes, p.outputBytes t path = some bytes →
    t'.get? (out ++ p.outNames path) = some (.file bytes)
  entryModule : t'.get? (out ++ p.routeNames) = some (.file (Text.encode (p.entryModuleOf t)))

variable {p : Project} {copyStatic : Bool} {F : List String → Prop} {base out : Location} {w : Workspace}
  (hlayout : p.Layout F base out)
include hlayout

/-! ## Visits -/

section

variable {a : List String} {bytes : List UInt8} (h : p.Stands F base out w.files)
  (hfile : w.files.get? (base ++ a) = some (.file bytes))
include h hfile

/-- **A conversion changes its own output only**, also when it fails. -/
theorem extends_convertPage_source (register : Bool) :
    Extends (· = out ++ p.outNames (p.source.descend a)) (OnTheWay out (p.outNames (p.source.descend a))) w.files
      ((p.convertPage register (p.source.descend a)).run.run w).2.files := by
  have hF := h.known a bytes hfile
  have hfits := hlayout.fits a hF
  refine extends_convertPage register fun rel hrel => ?_
  rw [h.relative_eq (h.names_of_file hfile).2, Except.ok.injEq] at hrel
  rw [← hrel, hlayout.leads a hF]
  exact inside_descend h.isTree h.output (hfits.namesEntry hlayout.output) hfits.isPlain
    (fun j hpos hlt => ⟨j, hpos, hlt, rfl⟩) rfl

/-- The path of an output, and the one that a directory in its place gives the copy, name an entry. -/
theorem namesEntry_output_source {rel : Path} (hrel : p.relative w.files.current (p.source.descend a) = .ok rel) :
    Path.NamesEntry (p.outputPath rel) ∧ Path.NamesEntry ((p.outputPath rel).child (p.source.descend a).name) := by
  have hF := h.known a bytes hfile
  have hfits := hlayout.fits a hF
  obtain ⟨hnil, hnames⟩ := h.names_of_file hfile
  rw [h.relative_eq hnames, Except.ok.injEq] at hrel
  rw [← hrel, hlayout.leads a hF, Path.child_descend]
  refine ⟨hfits.namesEntry hlayout.output, namesEntry_descend hlayout.output (by simp) (List.forall_mem_append.2
    ⟨hfits.isPlain, List.forall_mem_singleton.2 (name_below (p := p) ⟨a, hnil, hnames, rfl⟩).toIsPlain⟩)⟩

/-- **A visit works at its output**, below it and on the way to it, however it ends. -/
theorem extends_after_source (copyStatic : Bool) :
    Extends (out ++ p.outNames (p.source.descend a) <+: ·) (OnTheWay out (p.outNames (p.source.descend a))) w.files
      (p.after copyStatic (p.source.descend a) w).files := by
  have hF := h.known a bytes hfile
  have hfits := hlayout.fits a hF
  obtain ⟨hnil, hnames⟩ := h.names_of_file hfile
  refine extends_after (fun rel hrel => ?_) fun _ rel hrel => ⟨(namesEntry_output_source hlayout h hfile hrel).2,
    fun t' l ht' hslot => ?_⟩
  · rw [h.relative_eq hnames, Except.ok.injEq] at hrel
    rw [← hrel, hlayout.leads a hF]
    exact inside_descend h.isTree h.output (hfits.namesEntry hlayout.output) hfits.isPlain
      (fun j hpos hlt => ⟨j, hpos, hlt, rfl⟩) List.prefix_rfl
  · rw [h.relative_eq hnames, Except.ok.injEq] at hrel
    rw [← hrel, hlayout.leads a hF, Path.child_descend] at hslot
    have hplain : ∀ s ∈ p.outNames (p.source.descend a) ++ [(p.source.descend a).name], IsPlain s :=
      List.forall_mem_append.2 ⟨hfits.isPlain, List.forall_mem_singleton.2 (name_below ⟨a, hnil, hnames, rfl⟩).toIsPlain⟩
    rw [(slot_descend (ht'.locate h.output) hplain hslot).1]
    exact (List.prefix_append_right_inj out).2 (List.prefix_append _ _)

end

section

variable {a : List String} {bytes : List UInt8} (h : p.Convertible F base out w.files) (htidy : p.Tidy F out w.files)
  (hfile : w.files.get? (base ++ a) = some (.file bytes))
include h hfile

/-- A visit of a file copies nothing that is read-only. -/
theorem locked_after_source (copyStatic : Bool) :
    (p.after copyStatic (p.source.descend a) w).files.locked = w.files.locked := by
  refine locked_after (fun _ _ hrel => namesEntry_output_source hlayout h.stands hfile hrel) fun hkind _ t' l hgrown hloc => ?_
  obtain ⟨rfl, -⟩ := locate_names (hgrown.locate h.source)
    (parent_notMem fun s hs => ((h.stands.names_of_file hfile).2 s hs).toIsPlain) hloc
  exact h.unlocked a bytes hfile hkind

include htidy

/-- **An asset is copied** where there is room for its copy. -/
theorem placeAsset_source_ok (hkind : p.isPage (p.source.descend a) = false) :
    ∃ target w', (p.placeAsset (p.source.descend a)).run.run w = (.ok target, w') ∧
      Extends (· = out ++ p.outNames (p.source.descend a)) (OnTheWay out (p.outNames (p.source.descend a))) w.files w'.files ∧
      w'.files.get? (out ++ p.outNames (p.source.descend a)) = some (.file bytes) ∧ w'.files.locked = w.files.locked := by
  have hF := h.known a bytes hfile
  have hfits := hlayout.fits a hF
  have hroom := htidy.hasRoom hlayout (.inr ⟨a, hF, rfl⟩)
  obtain ⟨-, hnames⟩ := h.stands.names_of_file hfile
  have hrel := h.stands.relative_eq hnames
  obtain ⟨loc, hloc, hget⟩ := node?_eq_some.1 (h.stands.node?_of_file hlayout hfile)
  obtain ⟨rfl, -⟩ := locate_names h.source (parent_notMem fun s hs => (hnames s hs).toIsPlain) hloc
  have hne : out ++ p.outNames (p.source.descend a) ≠ base ++ a := fun heq =>
    not_prefix_append hlayout.below hlayout.above a (heq ▸ List.prefix_append _ _)
  obtain ⟨target, w', hrun⟩ := placeAsset_ok h.isTree hlayout.output h.output h.outputDir hrel (hlayout.leads a hF) hfits
    hroom (checkName_of_typed p hlayout.typed _) hloc hget hne
  obtain ⟨hgrown, hplaced, -⟩ := placeAsset_places h.isTree h.output hrel (hlayout.leads a hF)
    (hfits.namesEntry hlayout.output) hfits.isPlain hfits.ne_nil hloc hget hroom.place.notDirectory hrun
  have hlocked := locked_after_source hlayout h hfile true
  rw [after_of_asset hkind, hrun] at hlocked
  exact ⟨target, w', hrun, hgrown, hplaced, hlocked⟩

theorem goesOn_ok (copyStatic : Bool) : p.GoesOn copyStatic ⟨p.source.descend a, w⟩ := by
  intro hkind _
  obtain ⟨target, w', hrun, -⟩ := placeAsset_source_ok hlayout h htidy hfile hkind
  exact ⟨target, congrArg Prod.fst hrun⟩

/-- **A visit changes the output of its file only.** -/
theorem putsOut_after (copyStatic : Bool) : p.PutsOut F out w.files (p.after copyStatic (p.source.descend a) w).files := by
  have hplace : p.IsPlace F (p.outNames (p.source.descend a)) := .inr ⟨a, h.known a bytes hfile, rfl⟩
  have hlocked := locked_after_source hlayout h hfile copyStatic
  refine .of_place hplace ?_ hlocked
  cases hkind : p.isPage (p.source.descend a) with
  | true =>
    rw [after_of_isPage hkind]
    exact extends_convertPage_source hlayout h.stands hfile true
  | false =>
    cases copyStatic with
    | false =>
      rw [after_of_not_treats (by simp [treats, hkind])]
      exact .refl _ _ _
    | true =>
      obtain ⟨target, w', hrun, hgrown, -⟩ := placeAsset_source_ok hlayout h htidy hfile hkind
      rw [after_of_asset hkind, hrun]
      exact hgrown

theorem convertPage_source_ok (register : Bool) (hkind : p.isPage (p.source.descend a) = true) :
    ∃ target w', (p.convertPage register (p.source.descend a)).run.run w = (.ok target, w') := by
  have hF := h.known a bytes hfile
  obtain ⟨text, htext⟩ := h.converts a bytes hfile hkind
  have hmodule : p.moduleOf w.files ⟨0, a⟩ = .ok text :=
    (moduleOf_eq_ok p).2 ⟨bytes, h.stands.node?_of_file hlayout hfile, htext⟩
  exact convertPage_ok h.isTree hlayout.output h.output h.outputDir (h.stands.relative_eq (h.stands.names_of_file hfile).2)
    (hlayout.leads a hF) (hlayout.fits a hF) (htidy.hasRoom hlayout (.inr ⟨a, hF, rfl⟩)) register hmodule

theorem converts_ok (hkind : p.isPage (p.source.descend a) = true) : p.converts ⟨p.source.descend a, w⟩ = true := by
  obtain ⟨target, w', hrun⟩ := convertPage_source_ok hlayout h htidy hfile true hkind
  have hresult : p.result ⟨p.source.descend a, w⟩ = .ok target := congrArg Prod.fst hrun
  unfold converts
  rw [hkind, hresult]
  simp [Except.isOk, Except.toBool]

/-- **A visit of a source file leaves the output of the file.** -/
theorem leaves_ok (htreats : p.treats copyStatic (p.source.descend a) = true) :
    ∃ content, p.Leaves copyStatic out ⟨p.source.descend a, w⟩ content := by
  have hF := h.known a bytes hfile
  have hfits := hlayout.fits a hF
  have hrel : p.relative w.files.current (p.source.descend a) = .ok (p.visitedPath (p.source.descend a)) := by
    rw [visitedPath_descend]
    exact h.stands.relative_eq (h.stands.names_of_file hfile).2
  have hpath : p.outputPath (p.visitedPath (p.source.descend a)) = p.output.descend (p.outNames (p.source.descend a)) := by
    rw [visitedPath_descend]
    exact hlayout.leads a hF
  exact exists_leaves h.isTree h.output hrel hpath (hfits.namesEntry hlayout.output) hfits.isPlain hfits.ne_nil
    (converts_ok hlayout h htidy hfile) (fun _ => ⟨goesOn_ok hlayout h htidy hfile true,
      ⟨bytes, h.stands.node?_of_file hlayout hfile⟩, (htidy.hasRoom hlayout (.inr ⟨a, hF, rfl⟩)).place.notDirectory⟩) htreats

end

/-- **A visit that comes out well**, and finds the source as it was. -/
structure Succeeds (p : Project) (copyStatic : Bool) (out : Location) (t : FileTree) (v : Visit) : Prop where
  grown : Extends (out <+: ·) (out <+: ·) t v.before.files
  goesOn : p.GoesOn copyStatic v
  converts : p.isPage v.path = true → p.converts v = true
  leaves : p.treats copyStatic v.path = true → ∃ content, p.Leaves copyStatic out v content

omit hlayout in
theorem Succeeds.since {v : Visit} (hgrown : Extends (out <+: ·) (out <+: ·) t t') (h : p.Succeeds copyStatic out t' v) :
    p.Succeeds copyStatic out t v :=
  ⟨hgrown.trans h.grown, h.goesOn, h.converts, h.leaves⟩

/-- **All visits of source files come out well**, and keep the output directory tidy. -/
theorem visits_ok : ∀ {paths : List Path} {w : Workspace}, p.Convertible F base out w.files → p.Tidy F out w.files →
    (∀ path ∈ paths, ∃ a bytes, path = p.source.descend a ∧ w.files.get? (base ++ a) = some (.file bytes)) →
      (∀ v ∈ p.visits copyStatic paths w, p.Succeeds copyStatic out w.files v) ∧
        p.PutsOut F out w.files (p.afterAll copyStatic paths w).files
  | [], _, _, _, _ => ⟨fun _ hv => (List.not_mem_nil hv).elim, .refl ..⟩
  | path :: paths, w, h, htidy, hpaths => by
    rw [List.forall_mem_cons] at hpaths
    obtain ⟨⟨a, bytes, rfl, hfile⟩, hpaths⟩ := hpaths
    have hputs := putsOut_after hlayout h htidy hfile copyStatic
    obtain ⟨hrest, hlast⟩ := visits_ok (h.grown hlayout hputs.below) (htidy.putsOut hputs) fun path hpath => by
      obtain ⟨b, bytes', hb, hfile'⟩ := hpaths path hpath
      exact ⟨b, bytes', hb, by rw [hlayout.get?_source hputs.below, hfile']⟩
    refine ⟨?_, hputs.trans hlast⟩
    rw [visits, List.forall_mem_cons]
    exact ⟨⟨.refl _ _ _, goesOn_ok hlayout h htidy hfile copyStatic, converts_ok hlayout h htidy hfile,
      leaves_ok hlayout h htidy hfile⟩, fun v hv => (hrest v hv).since hputs.below⟩

/-! ## Passes -/

/-- **A pass works below the output directory only.** -/
theorem grows_layout (h : p.Stands F base out w.files) : p.Grows copyStatic (out <+: ·) (out <+: ·) base w where
  isTree := h.isTree
  base := h.source
  step := by
    rintro path w' ⟨names, hne, hnames, rfl⟩ hw'
    have h' := h.grown hlayout hw'
    have hrel := h'.relative_eq hnames
    have hinside : ∀ names : List String, names ≠ [] → (∀ s ∈ names, IsPlain s) →
        Inside (out <+: ·) (out <+: ·) w'.files (p.output.descend names) := fun names hne hplain =>
      inside_descend h'.isTree h'.output (namesEntry_descend hlayout.output hne hplain) hplain
        (fun _ _ _ => List.prefix_append _ _) (List.prefix_append _ _)
    cases hkind : p.isPage (p.source.descend names) with
    | true =>
      rw [after_of_isPage hkind]
      cases hmodule : p.moduleOf w'.files ⟨0, names⟩ with
      | error f =>
        -- a document that is not there or does not convert writes nothing
        rw [run_convertPage, hrel]
        simp only [hmodule]
        exact .refl _ _ _
      | ok text =>
        obtain ⟨bytes, hfile⟩ := get?_of_moduleOf p h'.source (parent_notMem fun s hs => (hnames s hs).toIsPlain) hmodule
        exact (extends_convertPage_source hlayout h' hfile true).mono (fun _ hl => hl ▸ List.prefix_append _ _)
          fun _ ⟨_, _, _, hl⟩ => hl ▸ List.prefix_append _ _
    | false =>
      have hplain : ∀ s ∈ names ++ [(p.source.descend names).name], IsPlain s :=
        List.forall_mem_append.2 ⟨fun s hs => (hnames s hs).toIsPlain,
          List.forall_mem_singleton.2 (name_below ⟨names, hne, hnames, rfl⟩).toIsPlain⟩
      have hout := outputPath_of_not_isPage hne hkind
      cases copyStatic with
      | false =>
        rw [after_of_not_treats (by simp [treats, hkind])]
        exact .refl _ _ _
      | true =>
        rw [after_of_asset hkind]
        refine extends_placeAsset (fun rel hrel' => ?_) fun rel hrel' => ?_
        · rw [hrel, Except.ok.injEq] at hrel'
          rw [← hrel', hout]
          exact hinside names hne fun s hs => (hnames s hs).toIsPlain
        · rw [hrel, Except.ok.injEq] at hrel'
          rw [← hrel', hout, Path.child_descend]
          refine ⟨namesEntry_descend hlayout.output (by simp) hplain, fun t' loc ht' hslot => ?_⟩
          rw [(slot_descend (ht'.locate h'.output) hplain hslot).1]
          exact List.prefix_append _ _

/-- **A pass visits the source files.** -/
theorem trailPaths_eq (h : p.Stands F base out w.files) : p.trailPaths copyStatic w = p.sourceFiles w.files := by
  have hgrows : p.Grows copyStatic (out <+: ·) (out <+: ·) base (fresh w) := grows_layout hlayout h
  have hall := hgrows.filter_trailPaths (q := fun _ => true) fun names name _ => not_prefix_append hlayout.below hlayout.above _
  simpa using hall

theorem trail_eq (h : p.Stands F base out w.files) :
    p.trail copyStatic w = p.visits copyStatic (p.sourceFiles w.files) (fresh w) := by
  rw [trail, trailPaths_eq hlayout h]

theorem map_path_trail (h : p.Stands F base out w.files) (copyStatic : Bool) :
    (p.trail copyStatic w).map (·.path) = p.sourceFiles w.files := by
  rw [trail, map_path_visits, trailPaths_eq hlayout h]

theorem exists_file_of_mem_trail (h : p.Stands F base out w.files) {v : Visit} (hv : v ∈ p.trail copyStatic w) :
    ∃ a bytes, v.path = p.source.descend a ∧ w.files.get? (base ++ a) = some (.file bytes) := by
  have hmem : v.path ∈ (p.trail copyStatic w).map (·.path) := List.mem_map_of_mem hv
  rw [map_path_trail hlayout h copyStatic] at hmem
  exact (h.mem_sourceFiles hlayout).1 hmem

/-- **A visit registers the route of a document that converts.** -/
theorem registered?_of_mem_trail (h : p.Stands F base out w.files) {v : Visit} (hv : v ∈ p.trail copyStatic w) :
    p.registered? v = if p.converts v = true then p.entryOf? v.path else none := by
  obtain ⟨a, bytes, hpath, hfile⟩ := exists_file_of_mem_trail hlayout h hv
  have hgrows : p.Grows copyStatic (out <+: ·) (out <+: ·) base (fresh w) := grows_layout hlayout h
  have hrel : p.relative v.before.files.current v.path = .ok ⟨0, a⟩ := by
    rw [hpath]
    exact (h.grown hlayout (hgrows.extends_before hv)).relative_eq (h.names_of_file hfile).2
  unfold registered? entryOf?
  rw [hrel, hpath, visitedPath_descend, ← hpath]
  cases hconverts : p.converts v with
  | false => simp
  | true =>
    obtain ⟨hkind, -⟩ := exists_result hconverts
    cases hentry : p.isEntryPath ⟨0, a⟩ <;> simp [hkind, hentry]

/-! ## Passes without failures -/

theorem payload_eq {v : Visit} {t : FileTree} (h : p.Convertible F base out t) (hv : p.Succeeds copyStatic out t v)
    {a : List String} {bytes : List UInt8} (hpath : v.path = p.source.descend a)
    (hfile : t.get? (base ++ a) = some (.file bytes)) : p.payload v = p.outputBytes t v.path := by
  have hsame := hlayout.get?_source hv.grown
  unfold payload
  rw [hpath]
  exact (h.outputBytes_congr hlayout (.of_get? fun names => (hsame names).symm) (hv.grown.isTree h.isTree)
    (hv.grown.locate h.source) hfile (by rw [hsame, hfile])).symm

section

variable (h : p.Convertible F base out w.files) (htidy : p.Tidy F out w.files) (copyStatic : Bool)
include h htidy

theorem succeeds_of_mem_trail : (∀ v ∈ p.trail copyStatic w, p.Succeeds copyStatic out w.files v) ∧
    p.PutsOut F out w.files (p.walkedThrough copyStatic w).files := by
  rw [trail_eq hlayout h.stands, walkedThrough, trailPaths_eq hlayout h.stands]
  exact visits_ok (w := fresh w) hlayout h htidy fun path hpath => (h.stands.mem_sourceFiles hlayout).1 hpath

theorem failures_reportOf : (p.reportOf copyStatic (p.trail copyStatic w)).failures = [] := by
  refine List.filterMap_eq_nil_iff.2 fun v hv => ?_
  unfold failure?
  split
  · rename_i hkind
    obtain ⟨-, target, hresult⟩ := exists_result (((succeeds_of_mem_trail hlayout h htidy copyStatic).1 v hv).converts hkind)
    rw [hresult]
  · rfl

theorem routes_walkedThrough : (p.walkedThrough copyStatic w).routes =
    { w.routes with entries := (p.sourceFiles w.files).filterMap p.entryOf? } := by
  have hall := (succeeds_of_mem_trail hlayout h htidy copyStatic).1
  have hentries : (p.trail copyStatic w).filterMap p.registered? = (p.sourceFiles w.files).filterMap p.entryOf? := by
    rw [← map_path_trail hlayout h.stands copyStatic, List.filterMap_map]
    refine List.filterMap_congr fun v hv => ?_
    rw [registered?_of_mem_trail hlayout h.stands hv, Function.comp_apply]
    cases hkind : p.isPage v.path with
    | true => rw [if_pos ((hall v hv).converts hkind)]
    | false => simp [entryOf?, hkind]
  rw [walkedThrough, routes_afterAll, ← trail, hentries]
  rfl

/-- **The visits of a pass leave all outputs.** -/
theorem kept_walkedThrough : (∀ path ∈ p.sourceFiles w.files, p.treats copyStatic path = true →
      ∀ bytes, p.outputBytes w.files path = some bytes →
        (p.walkedThrough copyStatic w).files.get? (out ++ p.outNames path) = some (.file bytes)) ∧
    Extends (fun l => ∃ m, p.Writes copyStatic w.files m ∧ l = out ++ m)
      (fun l => ∃ m, p.Writes copyStatic w.files m ∧ OnTheWay out m l) w.files (p.walkedThrough copyStatic w).files := by
  have hall := (succeeds_of_mem_trail hlayout h htidy copyStatic).1
  have hfiles := fun v (hv : v ∈ p.trail copyStatic w) => exists_file_of_mem_trail hlayout h.stands hv
  have hpayload : ∀ v ∈ p.trail copyStatic w, p.payload v = p.outputBytes w.files v.path := by
    intro v hv
    obtain ⟨a, bytes, hpath, hfile⟩ := hfiles v hv
    exact payload_eq hlayout h (hall v hv) hpath hfile
  obtain ⟨hkept, hgrown⟩ := kept_of_leaves (w := fresh w) (fun v hv => (hall v hv).leaves) fun u hu v hv _ _ hsame => by
    obtain ⟨a, bytes, hpath, hfile⟩ := hfiles u hu
    obtain ⟨b, bytes', hpath', hfile'⟩ := hfiles v hv
    have hab : a = b :=
      hlayout.eq_of_outNames_eq (h.known a bytes hfile) (h.known b bytes' hfile') (by rw [← hpath, ← hpath', hsame])
    rw [hpayload u hu, hpayload v hv, hpath, hpath', hab]
  refine ⟨fun path hpath htreats bytes hbytes => ?_, hgrown.mono ?_ ?_⟩
  · rw [← map_path_trail hlayout h.stands copyStatic] at hpath
    obtain ⟨v, hv, rfl⟩ := List.mem_map.1 hpath
    exact hkept v hv htreats bytes (by rw [hpayload v hv, hbytes])
  · rintro l ⟨path, hpath, htreats, rfl⟩
    exact ⟨_, .inr ⟨path, trailPaths_eq hlayout h.stands ▸ hpath, htreats, rfl⟩, rfl⟩
  · rintro l ⟨path, hpath, htreats, hway⟩
    exact ⟨_, .inr ⟨path, trailPaths_eq hlayout h.stands ▸ hpath, htreats, rfl⟩, hway⟩

end

/-- **A pass over a tidy output directory comes out well**: no document fails, every output is written, and the entry module
routes to all documents. -/
theorem build_ok (h : p.Convertible F base out w.files) (htidy : p.Tidy F out w.files)
    (hroutes : w.routes.entryComponent = p.rules.entryComponent) (copyStatic : Bool) :
    ∃ r w', (p.build copyStatic).run.run w = (.ok r, w') ∧ r.failures = [] ∧ p.Rebuilt copyStatic out w.files w'.files ∧
      p.Tidy F out w'.files := by
  obtain ⟨hall, hputs⟩ := succeeds_of_mem_trail hlayout h htidy copyStatic
  obtain ⟨hkept, hgrown⟩ := kept_walkedThrough hlayout h htidy copyStatic
  have h₁ := h.stands.grown hlayout hputs.below
  have htidy₁ := htidy.putsOut hputs
  obtain ⟨t', hwrite⟩ := writeText_ok h₁.isTree hlayout.output h₁.output h₁.outputDir hlayout.routeFits
    (htidy₁.hasRoom hlayout (.inl rfl)) (Text.encode (p.walkedThrough copyStatic w).routes.entryModule)
  obtain ⟨hroute, hplaced, -⟩ := writeText_places h₁.isTree h₁.output (hlayout.routeFits.namesEntry hlayout.output)
    hlayout.routeFits.isPlain hwrite
  have hlocked : t'.locked = (p.walkedThrough copyStatic w).files.locked := by
    rw [← locked_writeText _ _ (p.walkedThrough copyStatic w).files, hwrite]
  have hrun : (p.build copyStatic).run.run w = (.ok { p.reportOf copyStatic (p.trail copyStatic w) with
      entryModule := some p.routePath }, ⟨t', (p.walkedThrough copyStatic w).routes⟩) := by
    refine build_eq_ok.2
      ⟨hlayout.asked _, hlayout.asked _, h.stands.isFile_entry hlayout, fun v hv => (hall v hv).goesOn, rfl, rfl, ?_⟩
    rw [hlayout.routeLeads]
    exact hwrite
  have hmodule : (p.walkedThrough copyStatic w).routes.entryModule = p.entryModuleOf w.files := by
    rw [routes_walkedThrough hlayout h htidy copyStatic]
    unfold entryModuleOf
    simp only [hroutes]
  refine ⟨_, _, hrun, failures_reportOf hlayout h htidy copyStatic, ⟨hgrown.trans (hroute.mono ?_ ?_), ?_, ?_⟩,
    htidy₁.putsOut (.of_place (.inl rfl) hroute hlocked)⟩
  · exact fun l hl => ⟨_, .inl rfl, hl⟩
  · exact fun l hl => ⟨_, .inl rfl, hl⟩
  · intro path hpath htreats bytes hbytes
    obtain ⟨a, content, rfl, hfile⟩ := (h.stands.mem_sourceFiles hlayout).1 hpath
    -- the entry module is written elsewhere
    refine (hroute.file_iff (fun heq => ?_) bytes).2 (hkept _ hpath htreats bytes hbytes)
    exact hlayout.routeNames_ne (h.known a content hfile) (List.append_cancel_left heq).symm
  · rw [hplaced, hmodule]

theorem buildAlone_ok (h : p.Convertible F base out w.files) (htidy : p.Tidy F out w.files) (copyStatic : Bool) :
    ∃ r w', (p.buildAlone copyStatic).run.run w = (.ok r, w') ∧ r.failures = [] ∧
      p.Rebuilt copyStatic out w.files w'.files ∧ p.Tidy F out w'.files := by
  obtain ⟨r, w', hrun, hrest⟩ :=
    build_ok (w := { w with routes := { entryComponent := p.rules.entryComponent } }) hlayout h htidy rfl copyStatic
  refine ⟨r, { w' with routes := w.routes }, ?_, hrest⟩
  rw [run_buildAlone, hrun]

end Project
end ReactSite
