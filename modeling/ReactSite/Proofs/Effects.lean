import ReactSite.Proofs.Coverage
import ReactSite.Proofs.Destinations
/-!
# Effects — what a visit can change

Whether it comes out well or not, a visit makes directories on the way to the output of its file and writes there
(`extends_after`).  Under the standard rules no pass writes a document (`grows_standard`); where source and output stand
apart, it writes nothing below the source (`grows_apart`).
-/
namespace ReactSite
namespace Project

open FileTree

variable {p : Project} {copyStatic : Bool} {W D : Location → Prop} {w : Workspace} {path : Path}

theorem extends_convertPage (register : Bool)
    (hout : ∀ rel, p.relative w.files.current path = .ok rel → Inside W D w.files (p.outputPath rel)) :
    Extends W D w.files ((p.convertPage register path).run.run w).2.files := by
  rw [run_convertPage]
  cases hrel : p.relative w.files.current path with
  | error f => exact .refl W D _
  | ok rel =>
    simp only
    cases p.moduleOf w.files rel with
    | error f => exact .refl W D _
    | ok text =>
      have hwrite : Extends W D w.files ((writeText (p.outputPath rel) (Text.encode text)).run.run w.files).2 :=
        extends_writeText (hout rel hrel)
      simp only
      rcases hrun : (writeText (p.outputPath rel) (Text.encode text)).run.run w.files with ⟨e | u, files⟩ <;>
        rw [hrun] at hwrite <;> exact hwrite

/-- **What placing an asset can change**; a directory that stands in its place takes the copy. -/
theorem extends_placeAsset
    (hout : ∀ rel, p.relative w.files.current path = .ok rel → Inside W D w.files (p.outputPath rel))
    (hinto : ∀ rel, p.relative w.files.current path = .ok rel → Path.NamesEntry ((p.outputPath rel).child path.name) ∧
      ∀ t' loc, Extends W D w.files t' → t'.slot ((p.outputPath rel).child path.name) = .ok loc → W loc) :
    Extends W D w.files ((p.placeAsset path).run.run w).2.files := by
  rw [run_placeAsset]
  cases hdest : p.destination w.files.current path with
  | error f => exact .refl W D _
  | ok target =>
    obtain ⟨rel, hrel, -, rfl⟩ := (destination_eq_ok p).1 hdest
    have hmade : Extends W D w.files ((makeDirectories (p.outputPath rel).parent).run.run w.files).2 :=
      extends_makeDirectories (isProper_parent (hout rel hrel).entry.proper) (hout rel hrel).made
    simp only
    rcases hrun : (makeDirectories (p.outputPath rel).parent).run.run w.files with ⟨e | u, files⟩
    · rw [hrun] at hmade
      exact hmade
    · rw [hrun] at hmade
      simp only at hmade ⊢
      have hcopy : Extends W D files ((copy path (p.outputPath rel)).run.run files).2 := by
        refine extends_copy ?_ ?_
        · unfold copyTarget
          split
          · exact (hinto rel hrel).1
          · exact (hout rel hrel).entry
        · intro loc hslot
          unfold copyTarget at hslot
          split at hslot
          · exact (hinto rel hrel).2 files loc hmade hslot
          · exact (hout rel hrel).placed files loc hmade hslot
      rcases hrun' : (copy path (p.outputPath rel)).run.run files with ⟨e | u, files'⟩ <;>
        rw [hrun'] at hcopy <;> exact hmade.trans hcopy

/-- **What a visit can change.** -/
theorem extends_after
    (hout : ∀ rel, p.relative w.files.current path = .ok rel → Inside W D w.files (p.outputPath rel))
    (hinto : p.isPage path = false → ∀ rel, p.relative w.files.current path = .ok rel →
      Path.NamesEntry ((p.outputPath rel).child path.name) ∧
        ∀ t' loc, Extends W D w.files t' → t'.slot ((p.outputPath rel).child path.name) = .ok loc → W loc) :
    Extends W D w.files (p.after copyStatic path w).files := by
  unfold after
  rw [run_visit]
  by_cases hpage : p.isPage path = true
  · have hconvert := extends_convertPage true hout
    rw [if_pos hpage]
    rcases hrun : (p.convertPage true path).run.run w with ⟨f | target, w'⟩ <;> rw [hrun] at hconvert <;> exact hconvert
  · rw [if_neg hpage]
    split
    · have hplace := extends_placeAsset hout (hinto (Bool.eq_false_iff.2 hpage))
      rcases hrun : (p.placeAsset path).run.run w with ⟨f | target, w'⟩ <;> rw [hrun] at hplace <;> exact hplace
    · exact .refl W D _

/-! ## Permissions -/

/-- A conversion leaves every file as it can be written to. -/
theorem locked_convertPage (register : Bool) (path : Path) (w : Workspace) :
    ((p.convertPage register path).run.run w).2.files.locked = w.files.locked := by
  rw [run_convertPage]
  cases p.relative w.files.current path with
  | error f => rfl
  | ok rel =>
    simp only
    cases p.moduleOf w.files rel with
    | error f => rfl
    | ok text =>
      have hwrite := locked_writeText (p.outputPath rel) (Text.encode text) w.files
      simp only
      rcases hrun : (writeText (p.outputPath rel) (Text.encode text)).run.run w.files with ⟨e | u, files⟩ <;>
        rw [hrun] at hwrite <;> exact hwrite

/-- So does the placing of an asset that is not read-only. -/
theorem locked_placeAsset (hentry : ∀ rel, p.relative w.files.current path = .ok rel →
      Path.NamesEntry (p.outputPath rel) ∧ Path.NamesEntry ((p.outputPath rel).child path.name))
    (hfree : ∀ t' a, Extends Anywhere Anywhere w.files t' → t'.locate path = .ok a → a ∉ w.files.locked) :
    ((p.placeAsset path).run.run w).2.files.locked = w.files.locked := by
  rw [run_placeAsset]
  cases hdest : p.destination w.files.current path with
  | error f => rfl
  | ok target =>
    obtain ⟨rel, hrel, -, rfl⟩ := (destination_eq_ok p).1 hdest
    obtain ⟨houtput, hinto⟩ := hentry rel hrel
    have hmade := locked_makeDirectories (p.outputPath rel).parent w.files
    have hgrown : Extends Anywhere Anywhere w.files ((makeDirectories (p.outputPath rel).parent).run.run w.files).2 :=
      extends_makeDirectories (isProper_parent houtput.proper) fun _ _ _ _ _ _ => trivial
    simp only
    rcases hrun : (makeDirectories (p.outputPath rel).parent).run.run w.files with ⟨e | u, files⟩ <;> rw [hrun] at hmade hgrown
    · exact hmade
    · have htarget : Path.NamesEntry (copyTarget files path (p.outputPath rel)) := by
        unfold copyTarget
        split
        · exact hinto
        · exact houtput
      have hcopy := locked_copy htarget fun a ha => by rw [hmade]; exact hfree files a hgrown ha
      simp only
      rcases hrun' : (copy path (p.outputPath rel)).run.run files with ⟨e | u, files'⟩ <;>
        rw [hrun'] at hcopy <;> exact hcopy.trans hmade

/-- **A visit leaves every file as it can be written to**, if it copies nothing read-only. -/
theorem locked_after (hentry : p.isPage path = false → ∀ rel, p.relative w.files.current path = .ok rel →
      Path.NamesEntry (p.outputPath rel) ∧ Path.NamesEntry ((p.outputPath rel).child path.name))
    (hfree : p.isPage path = false → copyStatic = true → ∀ t' a, Extends Anywhere Anywhere w.files t' →
      t'.locate path = .ok a → a ∉ w.files.locked) : (p.after copyStatic path w).files.locked = w.files.locked := by
  unfold after
  rw [run_visit]
  cases hpage : p.isPage path with
  | true =>
    have hconvert := locked_convertPage (p := p) true path w
    rw [if_pos rfl]
    rcases hrun : (p.convertPage true path).run.run w with ⟨f | target, w'⟩ <;> rw [hrun] at hconvert <;> exact hconvert
  | false =>
    rw [if_neg (by simp)]
    split
    · rename_i hcopies
      have hplace := locked_placeAsset (hentry hpage) (hfree hpage hcopies)
      rcases hrun : (p.placeAsset path).run.run w with ⟨f | target, w'⟩ <;> rw [hrun] at hplace <;> exact hplace
    · rfl

/-- Whether a file is a document is told by the names that lead to it. -/
theorem isPage_document {names : List String} (hne : names ≠ []) : p.isPage ⟨0, names⟩ = p.isPage (p.source.descend names) := by
  obtain ⟨init, last, rfl⟩ := List.eq_nil_or_concat names |>.resolve_left hne
  rw [List.concat_eq_append]
  exact isPage_congr (by rw [Path.name_descend, Path.name_document])

theorem outputPath_of_not_isPage {names : List String} (hne : names ≠ []) (h : p.isPage (p.source.descend names) = false) :
    p.outputPath ⟨0, names⟩ = p.output.descend names := by
  unfold outputPath
  rw [isPage_document hne, h]
  rfl

/-! ## Under the standard rules -/

section

variable (hstd : p.rules.IsStandard)
include hstd

theorem namesEntry_output (hdest : p.dest.IsProper) {names : List String} (h : ∀ s ∈ names, IsPlain s) :
    Path.NamesEntry (p.output.descend names) := by
  rw [output_eq hstd, Path.descend_descend]
  exact namesEntry_descend hdest (by simp) (List.forall_mem_append.2 ⟨List.forall_mem_singleton.2 (by decide), h⟩)

/-- **No output path is that of a document.** -/
theorem isPage_outputPath (names : List String) : p.isPage (p.outputPath ⟨0, names⟩) = false := by
  have hout := isPage_outputNames hstd names
  rw [outputPath_eq hstd]
  rcases List.eq_nil_or_concat (p.outputNames names) with hnil | ⟨init, last, hsplit⟩
  · rw [hnil, Path.descend_nil, output_eq hstd, isPage_congr (b := ⟨0, ["src"]⟩) (by simp [Path.descend, Path.name])]
    unfold isPage
    rw [hstd.markupExtensions]
    decide
  · rw [hsplit, List.concat_eq_append] at hout ⊢
    rwa [isPage_congr (b := ⟨0, init ++ [last]⟩) (by simp [Path.descend, Path.name])]

end

/-- A place where no document stands, by its last name. -/
abbrev NoPage (p : Project) (l : Location) : Prop := p.isPage ⟨0, l⟩ = false

theorem noPage_of_slot {t : FileTree} {q : Path} {loc : Location} (hq : Path.NamesEntry q) (hpage : p.isPage q = false)
    (h : t.slot q = .ok loc) : p.NoPage loc := by
  obtain ⟨-, -, dir, -, -, rfl⟩ := (slot_eq_ok hq.ne_empty hq.ne_parent).1 h
  rwa [NoPage, isPage_congr (b := q) (by simp [Path.name])]

theorem relative_below {rel : Path} (hsource : p.source.IsProper) (ht : w.files.IsTree) (hpath : p.IsBelow path)
    (h : p.relative w.files.current path = .ok rel) : rel = ⟨0, rel.parts⟩ ∧ ∀ s ∈ rel.parts, IsPlain s := by
  obtain ⟨slashes, parts⟩ := rel
  obtain rfl : slashes = 0 := (relative_eq_ok.1 h).2.1
  obtain ⟨names, -, hnames, rfl⟩ := hpath
  have hcurrent : ∀ s ∈ w.files.current, IsPlain s := fun s hs => (ht.isName_of_get? ht.current s hs).toIsPlain
  have hproper := isProper_descend hsource fun s hs => (hnames s hs).toIsPlain
  exact ⟨rfl, isPlain_relative hsource hproper hcurrent h⟩

theorem name_below (hpath : p.IsBelow path) : IsName path.name := by
  obtain ⟨names, hne, hnames, rfl⟩ := hpath
  obtain ⟨init, last, rfl⟩ := List.eq_nil_or_concat names |>.resolve_left hne
  rw [List.concat_eq_append] at hnames ⊢
  rw [Path.name_descend]
  exact hnames last (by simp)

theorem isPage_relative (hpath : p.IsBelow path) {rel : Path} (hform : rel = ⟨0, rel.parts⟩) (hne : rel.parts ≠ [])
    (hrel : p.relative w.files.current path = .ok rel) : p.isPage ⟨0, rel.parts⟩ = p.isPage path := by
  obtain ⟨names, hnil, hnames, rfl⟩ := hpath
  obtain ⟨init, last, rfl⟩ := List.eq_nil_or_concat names |>.resolve_left hnil
  rw [List.concat_eq_append] at hnames hrel ⊢
  have hname := name_relative (hnames last (by simp)).ne_parent hrel hne
  rw [← hform, isPage_congr (hname.trans (Path.name_descend _ _ _).symm)]

section

variable {base : Location} (hstd : p.rules.IsStandard) (hsource : p.source.IsProper) (hdest : p.dest.IsProper)
  (ht : w.files.IsTree) (hbase : w.files.locate p.source = .ok base)
include hstd hsource hdest ht hbase

/-- **A pass makes its tree grow, and writes no document.** -/
theorem grows_standard (copyStatic : Bool) : p.Grows copyStatic p.NoPage (fun _ => True) base w where
  isTree := ht
  base := hbase
  step := by
    intro path w' hpath hw'
    refine extends_after ?_ ?_
    · intro rel hrel
      obtain ⟨hform, hplain⟩ := relative_below hsource (hw'.isTree ht) hpath hrel
      have hentry := namesEntry_output hstd hdest (isPlain_outputNames (p := p) hplain)
      have hpage := isPage_outputPath hstd rel.parts
      rw [hform]
      rw [outputPath_eq hstd] at hpage ⊢
      exact ⟨hentry, fun _ _ _ _ _ _ => trivial, fun _ _ _ hslot => noPage_of_slot hentry hpage hslot⟩
    · intro hpage rel hrel
      obtain ⟨hform, hplain⟩ := relative_below hsource (hw'.isTree ht) hpath hrel
      have hnames : ∀ s ∈ p.outputNames rel.parts ++ [path.name], IsPlain s :=
        List.forall_mem_append.2 ⟨isPlain_outputNames hplain, List.forall_mem_singleton.2 (name_below hpath).toIsPlain⟩
      have hentry := namesEntry_output hstd hdest hnames
      rw [hform, outputPath_eq hstd, Path.child_descend]
      refine ⟨hentry, fun _ _ _ hslot => noPage_of_slot hentry ?_ hslot⟩
      rwa [isPage_congr (b := path) (Path.name_descend _ _ _)]

omit hstd hsource hdest ht hbase in
theorem not_prefix_append {out : Location} (hbelow : ¬ base <+: out) (habove : ¬ out <+: base) (names : List String) :
    ¬ out <+: base ++ names := fun hpre =>
  (List.prefix_or_prefix_of_prefix hpre (List.prefix_append base names)).elim habove hbelow

omit hdest in
/-- **A pass whose outputs stay inside** makes its tree grow there. -/
theorem grows_of_inside (hinside : ∀ names (w' : Workspace), (∀ s ∈ names, IsPlain s) → Extends W D w.files w'.files →
    Inside W D w'.files (p.output.descend names)) (copyStatic : Bool) : p.Grows copyStatic W D base w where
  isTree := ht
  base := hbase
  step := by
    intro path w' hpath hw'
    refine extends_after ?_ ?_
    · intro rel hrel
      obtain ⟨hform, hplain⟩ := relative_below hsource (hw'.isTree ht) hpath hrel
      rw [hform, outputPath_eq hstd]
      exact hinside _ w' (isPlain_outputNames hplain) hw'
    · intro hpage rel hrel
      obtain ⟨hform, hplain⟩ := relative_below hsource (hw'.isTree ht) hpath hrel
      have hnames : ∀ s ∈ p.outputNames rel.parts ++ [path.name], IsPlain s :=
        List.forall_mem_append.2 ⟨isPlain_outputNames hplain, List.forall_mem_singleton.2 (name_below hpath).toIsPlain⟩
      have hinto := hinside _ w' hnames hw'
      rw [hform, outputPath_eq hstd, Path.child_descend]
      exact ⟨hinto.entry, hinto.placed⟩

/-- **Where source and output stand apart**, a pass works below the output only. -/
theorem grows_apart {out : Location} (hout : w.files.locate p.output = .ok out) (copyStatic : Bool) :
    p.Grows copyStatic (out <+: ·) (out <+: ·) base w :=
  grows_of_inside hstd hsource ht hbase (fun _ _ hplain hw' => inside_descend (hw'.isTree ht) (hw'.locate hout)
    (namesEntry_output hstd hdest hplain) hplain (fun _ _ _ => List.prefix_append _ _) (List.prefix_append _ _)) copyStatic

end

end Project
end ReactSite
