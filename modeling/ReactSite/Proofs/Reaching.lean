import ReactSite.Proofs.Placing
/-!
# Reaching — destinations that need not be there yet

The output directory of a site need not be there when a pass starts: the pass makes it, below a directory that is there
(`Reaches`).  Where source and destination stand apart, what is written below the output directory stays off the source
(`inside_off`).
-/
namespace ReactSite
namespace Project

open FileTree

variable {p : Project} {t t' : FileTree}

/-- **A destination that can be reached**: the path of the output directory goes on by plain names, none if it is there
already, from that of a directory that is there.  A path that goes up again out of a directory yet to be made is none. -/
structure Reaches (p : Project) (t : FileTree) (top : Path) (sub : List String) (loc : Location) : Prop where
  output : p.output = top.descend sub
  plain : ∀ s ∈ sub, IsPlain s
  located : t.locate top = .ok loc
  directory : t.get? loc = some .directory

/-- A place that is not below the source. -/
abbrev Off (base : Location) : Location → Prop := fun l => ¬ base <+: l

variable {base loc : Location} {top : Path} {sub names : List String}

/-- **What is written off the source leaves it as it was.** -/
theorem get?_off (h : Extends (Off base) (Off base) t t') (names : List String) :
    t'.get? (base ++ names) = t.get? (base ++ names) :=
  have hnot : ¬ Off base (base ++ names) := fun hoff => hoff (List.prefix_append _ _)
  h.get?_eq hnot hnot

/-- **A pass that works off the source** visits the source files. -/
theorem Grows.trailPaths_off {copyStatic : Bool} {w : Workspace} (h : p.Grows copyStatic (Off base) (Off base) base (fresh w)) :
    p.trailPaths copyStatic w = p.sourceFiles w.files := by
  have hall := h.filter_trailPaths (q := fun _ => true) fun names name _ hoff => hoff (List.prefix_append _ _)
  simpa using hall

theorem Reaches.grown {W D : Location → Prop} (h : p.Reaches t top sub loc) (hgrown : Extends W D t t') :
    p.Reaches t' top sub loc :=
  ⟨h.output, h.plain, hgrown.locate h.located, hgrown.directory h.directory⟩

theorem Reaches.isProper (h : p.Reaches t top sub loc) (hdest : p.dest.IsProper) : top.IsProper := by
  have hout : p.output.IsProper := isProper_join hdest (Path.isProper_ofString _)
  rw [h.output] at hout
  exact isProper_of_descend hout

/-- The way to an output of a destination that stands apart is off the source. -/
theorem off_output (hbelow : ¬ base <+: loc ++ sub) (habove : ¬ loc ++ sub <+: base) (names : List String) (j : Nat) :
    Off base (loc ++ (sub ++ names).take j) := by
  intro hpre
  have hall : base <+: loc ++ sub ++ names := by
    rw [List.append_assoc]
    exact hpre.trans ((List.prefix_append_right_inj loc).2 (List.take_prefix _ _))
  exact (List.prefix_or_prefix_of_prefix hall (List.prefix_append _ names)).elim hbelow habove

/-- **A write below the output directory stays off the source.** -/
theorem inside_off (hbelow : ¬ base <+: loc ++ sub) (habove : ¬ loc ++ sub <+: base) (ht : t.IsTree)
    (hreach : p.Reaches t top sub loc) (hentry : Path.NamesEntry (p.output.descend names)) (hplain : ∀ s ∈ names, IsPlain s) :
    Inside (Off base) (Off base) t (p.output.descend names) := by
  have hoff := off_output hbelow habove names (sub ++ names).length
  rw [List.take_length] at hoff
  rw [hreach.output, Path.descend_descend] at hentry ⊢
  exact inside_descend ht hreach.located hentry (List.forall_mem_append.2 ⟨hreach.plain, hplain⟩)
    (fun j _ _ => off_output hbelow habove names j) hoff

theorem Reaches.isName (hreach : p.Reaches t top sub loc) (hdest : p.dest.IsProper) (ht : t.IsTree) (hne : names ≠ [])
    (hplain : ∀ s ∈ names, IsPlain s) {content : List UInt8}
    (h : (writeText (p.output.descend names) content).run.run t = (.ok (), t')) : ∀ s ∈ sub, IsName s := by
  rw [hreach.output, Path.descend_descend] at h
  have hall : ∀ s ∈ sub ++ names, IsPlain s := List.forall_mem_append.2 ⟨hreach.plain, hplain⟩
  have hentry := namesEntry_descend (hreach.isProper hdest) (by simp [hne]) hall
  obtain ⟨hgrown, hplaced, -⟩ := writeText_places ht hreach.located hentry hall h
  exact fun s hs => (hgrown.isTree ht).isName_of_get? hplaced s (by simp [hs])

end Project
end ReactSite
