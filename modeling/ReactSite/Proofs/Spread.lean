import ReactSite.Proofs.Layout
import ReactSite.Proofs.Reaching
/-!
# Spread — sites whose outputs lie in places of their own

No output of such a site is written in the place of another or above it, the entry module included (`Spread`), whatever
else the destination holds.  A visit then works on the way to its own place and there (`extends_visit`), so the site stays
spread (`Spread.grown`), a pass visits the source files (`trailPaths_spread`), and a module that was written is kept
(`kept_of_visits`).
-/
namespace ReactSite

/-- There is a file at a place. -/
def FileTree.HasFile (t : FileTree) (l : Location) : Prop := ∃ bytes, t.get? l = some (.file bytes)

namespace Project

open FileTree

/-- **A path that leads below the output directory** by names that directories hold, up to the last one. -/
def LeadsBelow (p : Project) (path : Path) : Prop :=
  ∃ init last, (∀ s ∈ init, IsName s) ∧ IsPlain last ∧ path = p.output.descend (init ++ [last])

/-- **A site whose outputs are spread.**  The source is at `base`; the output directory is or will be where the names `sub`
lead from `loc`. -/
structure Spread (p : Project) (base loc : Location) (top : Path) (sub : List String) (t : FileTree) : Prop where
  properSource : p.source.IsProper
  properDest : p.dest.IsProper
  isTree : t.IsTree
  /-- A path to a source file is read from the source itself, as it is when the source is an absolute path. -/
  settled : p.IsSettled t.current
  source : t.locate p.source = .ok base
  sourceDir : t.get? base = some .directory
  reaches : p.Reaches t top sub loc
  below : ¬ base <+: loc ++ sub
  above : ¬ loc ++ sub <+: base
  inside : ∀ a bytes, t.get? (base ++ a) = some (.file bytes) → p.isPage (p.source.descend a) = true →
    p.StaysInside ⟨0, a⟩ bytes
  leads : ∀ a, t.HasFile (base ++ a) → p.LeadsBelow (p.outputPath ⟨0, a⟩)
  routeLeads : p.LeadsBelow p.routePath
  /-- The outputs of different files are different, and none is a directory above another. -/
  apart : ∀ a b, t.HasFile (base ++ a) → t.HasFile (base ++ b) →
    p.outNames (p.source.descend a) <+: p.outNames (p.source.descend b) → a = b
  /-- So it is with the entry module. -/
  routeApart : ∀ a, t.HasFile (base ++ a) →
    ¬ p.routeNames <+: p.outNames (p.source.descend a) ∧ ¬ p.outNames (p.source.descend a) <+: p.routeNames

variable {p : Project} {copyStatic : Bool} {base loc : Location} {top : Path} {sub a b names : List String}
  {t t' : FileTree} {w : Workspace}

theorem LeadsBelow.namesEntry (h : p.LeadsBelow (p.output.descend names)) (hdest : p.dest.IsProper) :
    Path.NamesEntry (p.output.descend names) ∧ ∀ s ∈ names, IsPlain s := by
  obtain ⟨init, last, hinit, hlast, heq⟩ := h
  obtain rfl := Path.descend_injective heq
  have hplain : ∀ s ∈ init ++ [last], IsPlain s :=
    List.forall_mem_append.2 ⟨fun s hs => (hinit s hs).toIsPlain, List.forall_mem_singleton.2 hlast⟩
  exact ⟨namesEntry_descend (isProper_join hdest (Path.isProper_ofString _)) (by simp) hplain, hplain⟩

theorem LeadsBelow.outputPath_eq (h : p.LeadsBelow (p.outputPath ⟨0, a⟩)) :
    p.outputPath ⟨0, a⟩ = p.output.descend (p.outNames (p.source.descend a)) := by
  obtain ⟨init, last, -, -, heq⟩ := h
  rw [outNames_eq (by rw [visitedPath_descend, heq]), heq]

theorem LeadsBelow.routePath_eq (h : p.LeadsBelow p.routePath) : p.routePath = p.output.descend p.routeNames := by
  obtain ⟨init, last, -, -, heq⟩ := h
  unfold routeNames namesBelow
  rw [heq]
  simp

/-- Under the standard rules every output leads below the output directory. -/
theorem leadsBelow_standard (hstd : p.rules.IsStandard) (hnames : ∀ s ∈ names, IsName s) (hne : names ≠ []) :
    p.LeadsBelow (p.outputPath ⟨0, names⟩) := by
  obtain ⟨init, last, hout, hinit, hlast⟩ := exists_outputNames (p := p) hnames hne
  exact ⟨init, last, hinit, hlast, by rw [Project.outputPath_eq hstd, hout]⟩

/-- **A site under the standard rules** is spread if the outputs of its files lie apart. -/
theorem spread_standard (hstd : p.rules.IsStandard) (hsource : p.source.IsProper) (hdest : p.dest.IsProper) (ht : t.IsTree)
    (hsettled : p.IsSettled t.current) (hbase : t.locate p.source = .ok base) (hdir : t.get? base = some .directory)
    (hreach : p.Reaches t top sub loc) (hbelow : ¬ base <+: loc ++ sub) (habove : ¬ loc ++ sub <+: base)
    (hinside : ∀ f ∈ filesFrom base t, p.isPage (p.source.descend f.1) = true → p.StaysInside ⟨0, f.1⟩ f.2)
    (hapart : ∀ f ∈ filesFrom base t, ∀ g ∈ filesFrom base t,
      p.outNames (p.source.descend f.1) <+: p.outNames (p.source.descend g.1) → f.1 = g.1)
    (hroute : ∀ f ∈ filesFrom base t, ¬ p.routeNames <+: p.outNames (p.source.descend f.1) ∧
      ¬ p.outNames (p.source.descend f.1) <+: p.routeNames) : p.Spread base loc top sub t where
  properSource := hsource
  properDest := hdest
  isTree := ht
  settled := hsettled
  source := hbase
  sourceDir := hdir
  reaches := hreach
  below := hbelow
  above := habove
  inside := fun a bytes hget => hinside (a, bytes) (mem_filesFrom.2 hget)
  leads := by
    rintro a ⟨bytes, hget⟩
    obtain ⟨hnil, hnames⟩ := ht.names_of_file hdir hget
    exact leadsBelow_standard hstd hnames hnil
  routeLeads := ⟨[], "index.js", by simp, by decide, routePath_eq hstd⟩
  apart := fun a b ⟨bytes, ha⟩ ⟨bytes', hb⟩ => hapart (a, bytes) (mem_filesFrom.2 ha) (b, bytes') (mem_filesFrom.2 hb)
  routeApart := fun a ⟨bytes, ha⟩ => hroute (a, bytes) (mem_filesFrom.2 ha)

namespace Spread

variable (h : p.Spread base loc top sub t)
include h

theorem isName (ha : t.HasFile (base ++ a)) : a ≠ [] ∧ ∀ s ∈ a, IsName s :=
  ha.elim fun _ hget => h.isTree.names_of_file h.sourceDir hget

theorem isBelow (ha : t.HasFile (base ++ a)) : p.IsBelow (p.source.descend a) := ⟨a, (h.isName ha).1, (h.isName ha).2, rfl⟩

theorem relative_eq (hnames : ∀ s ∈ names, IsName s) : p.relative t.current (p.source.descend names) = .ok ⟨0, names⟩ :=
  relative_descend h.settled (hasNul_of_pathFault? (locate_eq_ok.1 h.source).1) hnames

/-- What is no document leads below the output directory in any case. -/
theorem leadsBelow (hnames : ∀ s ∈ names, IsName s) (hne : names ≠ [])
    (hfile : p.isPage (p.source.descend names) = true → t.HasFile (base ++ names)) : p.LeadsBelow (p.outputPath ⟨0, names⟩) := by
  cases hpage : p.isPage (p.source.descend names) with
  | true => exact h.leads names (hfile hpage)
  | false =>
    have hout := outputPath_of_not_isPage hne hpage
    obtain ⟨init, last, rfl⟩ := List.eq_nil_or_concat names |>.resolve_left hne
    rw [List.concat_eq_append] at *
    exact ⟨init, last, fun s hs => hnames s (List.mem_append_left _ hs), (hnames last (by simp)).toIsPlain, hout⟩

/-- **Off the source a site stays spread.** -/
theorem grown (hgrown : Extends (Off base) (Off base) t t') : p.Spread base loc top sub t' := by
  have hsame := get?_off hgrown
  have hfile : ∀ {a}, t'.HasFile (base ++ a) → t.HasFile (base ++ a) := fun ⟨bytes, hget⟩ => ⟨bytes, hsame _ ▸ hget⟩
  exact {
    properSource := h.properSource
    properDest := h.properDest
    isTree := hgrown.isTree h.isTree
    settled := hgrown.current ▸ h.settled
    source := hgrown.locate h.source
    sourceDir := hgrown.directory h.sourceDir
    reaches := h.reaches.grown hgrown
    below := h.below
    above := h.above
    inside := fun a bytes hget => h.inside a bytes (hsame a ▸ hget)
    leads := fun a ha => h.leads a (hfile ha)
    routeLeads := h.routeLeads
    apart := fun a b ha hb => h.apart a b (hfile ha) (hfile hb)
    routeApart := fun a ha => h.routeApart a (hfile ha) }

/-- **A write at an output** works on the way to it and there. -/
theorem inside_output (hleads : p.LeadsBelow (p.output.descend names)) :
    Inside (loc ++ (sub ++ names) <+: ·) (OnTheWay loc (sub ++ names)) t (p.output.descend names) := by
  obtain ⟨hentry, hplain⟩ := hleads.namesEntry h.properDest
  rw [h.reaches.output, Path.descend_descend] at hentry ⊢
  exact inside_descend h.isTree h.reaches.located hentry (List.forall_mem_append.2 ⟨h.reaches.plain, hplain⟩)
    (fun j hpos hlt => ⟨j, hpos, hlt, rfl⟩) List.prefix_rfl

omit h in
/-- The places at and below an output, and on the way to it, are off the source. -/
theorem off_place (hbelow : ¬ base <+: loc ++ sub) (habove : ¬ loc ++ sub <+: base) {l : Location}
    (hl : loc ++ (sub ++ names) <+: l ∨ OnTheWay loc (sub ++ names) l) : Off base l := by
  rcases hl with hl | ⟨j, -, -, rfl⟩
  · intro hpre
    rw [← List.append_assoc] at hl
    exact (List.prefix_or_prefix_of_prefix hpre ((List.prefix_append _ _).trans hl)).elim hbelow habove
  · exact off_output hbelow habove names j

end Spread

/-- **What a visit can change.** -/
theorem extends_visit (h : p.Spread base loc top sub w.files) (hnames : ∀ s ∈ a, IsName s) (hne : a ≠ [])
    (hfile : p.isPage (p.source.descend a) = true → w.files.HasFile (base ++ a)) (copyStatic : Bool) :
    Extends (loc ++ (sub ++ p.outNames (p.source.descend a)) <+: ·) (OnTheWay loc (sub ++ p.outNames (p.source.descend a)))
      w.files (p.after copyStatic (p.source.descend a) w).files := by
  have hleads := h.leadsBelow hnames hne hfile
  have hpath := hleads.outputPath_eq
  rw [hpath] at hleads
  refine extends_after (fun rel hrel => ?_) fun hpage rel hrel => ?_
  · rw [h.relative_eq hnames, Except.ok.injEq] at hrel
    rw [← hrel, hpath]
    exact h.inside_output hleads
  · rw [h.relative_eq hnames, Except.ok.injEq] at hrel
    obtain ⟨-, hplain⟩ := hleads.namesEntry h.properDest
    have hplain' : ∀ s ∈ p.outNames (p.source.descend a) ++ [(p.source.descend a).name], IsPlain s :=
      List.forall_mem_append.2 ⟨hplain, List.forall_mem_singleton.2 (name_below ⟨a, hne, hnames, rfl⟩).toIsPlain⟩
    rw [← hrel, hpath, Path.child_descend]
    refine ⟨namesEntry_descend (isProper_join h.properDest (Path.isProper_ofString _)) (by simp) hplain', fun t' l ht' hslot => ?_⟩
    rw [h.reaches.output, Path.descend_descend, ← List.append_assoc] at hslot
    have hall : ∀ s ∈ sub ++ p.outNames (p.source.descend a) ++ [(p.source.descend a).name], IsPlain s := by
      rw [List.append_assoc]
      exact List.forall_mem_append.2 ⟨h.reaches.plain, hplain'⟩
    rw [(slot_descend (ht'.locate h.reaches.located) hall hslot).1]
    exact (List.prefix_append_right_inj loc).2 (List.prefix_append _ _)

theorem extends_visit_off (h : p.Spread base loc top sub w.files) (hnames : ∀ s ∈ a, IsName s) (hne : a ≠ [])
    (hfile : p.isPage (p.source.descend a) = true → w.files.HasFile (base ++ a)) (copyStatic : Bool) :
    Extends (Off base) (Off base) w.files (p.after copyStatic (p.source.descend a) w).files :=
  (extends_visit h hnames hne hfile copyStatic).mono (fun _ hl => Spread.off_place h.below h.above (.inl hl))
    fun _ hl => Spread.off_place h.below h.above (.inr hl)

/-- **A pass over a spread site leaves the source alone.** -/
theorem grows_spread (h : p.Spread base loc top sub w.files) : p.Grows copyStatic (Off base) (Off base) base w where
  isTree := h.isTree
  base := h.source
  step := by
    rintro path w' ⟨names, hne, hnames, rfl⟩ hw'
    have h' := h.grown hw'
    by_cases hread : p.isPage (p.source.descend names) = true → w'.files.HasFile (base ++ names)
    · exact extends_visit_off h' hnames hne hread copyStatic
    · -- a document that is not there is not converted
      obtain ⟨hpage, hno⟩ := Classical.not_imp.1 hread
      rw [after_of_isPage hpage, run_convertPage, h'.relative_eq hnames]
      simp only
      cases hmodule : p.moduleOf w'.files ⟨0, names⟩ with
      | error f => exact .refl _ _ _
      | ok text =>
        exact absurd (get?_of_moduleOf p h'.source (parent_notMem fun s hs => (hnames s hs).toIsPlain) hmodule) hno

/-- **A pass over a spread site visits the source files.** -/
theorem trailPaths_spread (h : p.Spread base loc top sub w.files) : p.trailPaths copyStatic w = p.sourceFiles w.files :=
  have hgrows : p.Grows copyStatic (Off base) (Off base) base (fresh w) := grows_spread h
  hgrows.trailPaths_off

theorem exists_of_mem_sourceFiles (h : p.Spread base loc top sub t) {path : Path} (hpath : path ∈ p.sourceFiles t) :
    ∃ a, path = p.source.descend a ∧ t.HasFile (base ++ a) := by
  obtain ⟨dir, name, content, heq, -, hget⟩ := (mem_sourceFiles h.isTree h.source).1 hpath
  exact ⟨dir ++ [name], heq, content, hget⟩

theorem split_sourceFiles (h : p.Spread base loc top sub t) (hmem : p.source.descend b ∈ p.sourceFiles t) :
    ∃ before later, p.sourceFiles t = before ++ p.source.descend b :: later ∧
      (∀ path ∈ before, ∃ a, path = p.source.descend a ∧ a ≠ b ∧ t.HasFile (base ++ a)) ∧
        ∀ path ∈ later, ∃ a, path = p.source.descend a ∧ a ≠ b ∧ t.HasFile (base ++ a) := by
  obtain ⟨before, later, hsplit⟩ := List.append_of_mem hmem
  have hnodup : (p.sourceFiles t).Nodup := by
    have hspread : p.Spread base loc top sub (fresh ⟨t, {}⟩).files := h
    have hgrows : p.Grows false (Off base) (Off base) base (fresh ⟨t, {}⟩) := grows_spread hspread
    have hpaths : p.trailPaths false ⟨t, {}⟩ = p.sourceFiles t := trailPaths_spread (w := ⟨t, {}⟩) h
    exact hpaths ▸ hgrows.nodup_trailPaths
  have hothers : ∀ path ∈ before ++ later, ∃ a, path = p.source.descend a ∧ a ≠ b ∧ t.HasFile (base ++ a) := by
    intro path hpath
    have hpath' : path ∈ p.sourceFiles t := by
      rw [hsplit]
      exact List.mem_append.2 ((List.mem_append.1 hpath).imp_right (List.mem_cons_of_mem _))
    obtain ⟨a, rfl, ha⟩ := exists_of_mem_sourceFiles h hpath'
    refine ⟨a, rfl, ?_, ha⟩
    rintro rfl
    rw [hsplit, List.nodup_middle, List.nodup_cons] at hnodup
    exact hnodup.1 hpath
  rw [List.forall_mem_append] at hothers
  exact ⟨before, later, hsplit, hothers.1, hothers.2⟩

/-! ## What is kept -/

theorem hasFile_grown (hgrown : Extends (Off base) (Off base) t t') : t'.HasFile (base ++ a) ↔ t.HasFile (base ++ a) := by
  unfold HasFile
  rw [get?_off hgrown]

/-- **A visit keeps the output of another file.** -/
theorem kept_of_visit (h : p.Spread base loc top sub w.files) (ha : w.files.HasFile (base ++ a))
    (hb : w.files.HasFile (base ++ b)) (hne : a ≠ b) {content : List UInt8}
    (hget : w.files.get? (loc ++ (sub ++ p.outNames (p.source.descend b))) = some (.file content)) :
    (p.after copyStatic (p.source.descend a) w).files.get? (loc ++ (sub ++ p.outNames (p.source.descend b))) =
      some (.file content) := by
  obtain ⟨hnil, hnames⟩ := h.isName ha
  refine ((extends_visit h hnames hnil (fun _ => ha) copyStatic).file_iff (fun hpre => ?_) content).2 hget
  rw [List.prefix_append_right_inj, List.prefix_append_right_inj] at hpre
  exact hne (h.apart a b ha hb hpre)

theorem kept_of_visits : ∀ {paths : List Path} {w : Workspace}, p.Spread base loc top sub w.files →
    (∀ path ∈ paths, ∃ a, path = p.source.descend a ∧ a ≠ b ∧ w.files.HasFile (base ++ a)) →
      w.files.HasFile (base ++ b) → ∀ {content : List UInt8},
        w.files.get? (loc ++ (sub ++ p.outNames (p.source.descend b))) = some (.file content) →
          (p.afterAll copyStatic paths w).files.get? (loc ++ (sub ++ p.outNames (p.source.descend b))) = some (.file content)
  | [], _, _, _, _, _, hget => hget
  | path :: paths, w, h, hpaths, hb, content, hget => by
    rw [List.forall_mem_cons] at hpaths
    obtain ⟨⟨a, rfl, hne, ha⟩, hpaths⟩ := hpaths
    obtain ⟨hnil, hnames⟩ := h.isName ha
    have hvisit := extends_visit_off h hnames hnil (fun _ => ha) copyStatic
    rw [afterAll_cons]
    refine kept_of_visits (h.grown hvisit) (fun path hpath => ?_) ((hasFile_grown hvisit).2 hb)
      (kept_of_visit h ha hb hne hget)
    obtain ⟨a', rfl, hne', ha'⟩ := hpaths path hpath
    exact ⟨a', rfl, hne', (hasFile_grown hvisit).2 ha'⟩

end Project
end ReactSite
