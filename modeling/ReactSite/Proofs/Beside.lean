import ReactSite.Proofs.Alongside
import ReactSite.Proofs.Spread
/-!
# Beside — visits of two sites that differ in one document

Two passes over sites that differ in the bytes of one document are taken side by side.  Whether the document converts in
one of them and fails in the other, what it may change are its own place and the directories on the way to it; every other
file finds the same source and the same room for its output (`Beside`), so its visit comes to the same in both
(`visit_beside`), and so do all visits before the changed document or after it (`visits_beside`).
-/
namespace ReactSite
namespace Project

open FileTree

variable {p : Project} {copyStatic : Bool} {base loc : Location} {top : Path} {sub f a b names : List String}
  {t t' u u' : FileTree} {x y : Workspace}

/-- What is at or below an output is not at another output, nor on the way to it, if it is not above it. -/
theorem not_onTheWay (loc : Location) (sub : List String) (hnot : ¬ a <+: b) (rest : List String) :
    loc ++ (sub ++ a) ++ rest ≠ loc ++ (sub ++ b) ∧ ¬ OnTheWay loc (sub ++ b) (loc ++ (sub ++ a) ++ rest) := by
  refine ⟨fun heq => ?_, ?_⟩
  · rw [List.append_assoc, List.append_cancel_left_eq, List.append_assoc, List.append_cancel_left_eq] at heq
    exact hnot (heq ▸ List.prefix_append _ _)
  · rintro ⟨j, -, -, heq⟩
    rw [List.append_assoc, List.append_cancel_left_eq] at heq
    have hpre : sub ++ a <+: sub ++ b := (List.prefix_append _ rest).trans (heq ▸ List.take_prefix _ _)
    rw [List.prefix_append_right_inj] at hpre
    exact hnot hpre

/-! ## Side by side -/

/-- **Where the two passes may differ**: the document `f` itself, its output and what lies below. -/
def Touched (p : Project) (base loc : Location) (sub f : List String) : Location → Prop := fun l =>
  l = base ++ f ∨ loc ++ (sub ++ p.outNames (p.source.descend f)) <+: l

/-- **Two moments of the two passes, side by side.** -/
structure Beside (p : Project) (base loc : Location) (top : Path) (sub f : List String) (t u : FileTree) : Prop where
  left : p.Spread base loc top sub t
  right : p.Spread base loc top sub u
  agree : Agree (p.Touched base loc sub f) (OnTheWay loc (sub ++ p.outNames (p.source.descend f))) t u
  own : t.HasFile (base ++ f)
  own' : u.HasFile (base ++ f)

namespace Beside

variable (h : p.Beside base loc top sub f t u)
include h

/-- They stay side by side when both leave the source alone and agree afterwards. -/
theorem grown (ht : Extends (Off base) (Off base) t t') (hu : Extends (Off base) (Off base) u u')
    (hagree : Agree (p.Touched base loc sub f) (OnTheWay loc (sub ++ p.outNames (p.source.descend f))) t' u') :
    p.Beside base loc top sub f t' u' :=
  ⟨h.left.grown ht, h.right.grown hu, hagree, (hasFile_grown ht).2 h.own, (hasFile_grown hu).2 h.own'⟩

/-- **Another file of the source is not touched.** -/
theorem not_touched_source (hne : a ≠ f) : ¬ p.Touched base loc sub f (base ++ a) ∧
    ¬ OnTheWay loc (sub ++ p.outNames (p.source.descend f)) (base ++ a) := by
  have hon : ∀ l, loc ++ (sub ++ p.outNames (p.source.descend f)) <+: l ∨
      OnTheWay loc (sub ++ p.outNames (p.source.descend f)) l → l ≠ base ++ a := by
    rintro l hl rfl
    exact Spread.off_place h.left.below h.left.above hl (List.prefix_append _ _)
  refine ⟨?_, fun hway => hon _ (.inr hway) rfl⟩
  rintro (heq | hpre)
  · exact hne (List.append_cancel_left heq)
  · exact hon _ (.inl hpre) rfl

theorem get?_source (hne : a ≠ f) : u.get? (base ++ a) = t.get? (base ++ a) :=
  h.agree.get?_eq (h.not_touched_source hne).1 (h.not_touched_source hne).2

theorem hasFile_iff : u.HasFile (base ++ a) ↔ t.HasFile (base ++ a) := by
  by_cases hne : a = f
  · rw [hne]
    exact iff_of_true h.own' h.own
  · unfold HasFile
    rw [h.get?_source hne]

theorem alike : Alike base t u := by
  intro names
  by_cases hne : names = f
  · obtain ⟨bytes, hget⟩ := h.own
    obtain ⟨bytes', hget'⟩ := h.own'
    rw [hne, hget, hget']
    rfl
  · rw [h.get?_source hne]

variable (ha : t.HasFile (base ++ a)) (hne : a ≠ f)
include ha hne

/-- Neither output is in the place of the other or above it. -/
theorem apart : ¬ p.outNames (p.source.descend f) <+: p.outNames (p.source.descend a) ∧
    ¬ p.outNames (p.source.descend a) <+: p.outNames (p.source.descend f) :=
  ⟨fun hpre => hne (h.left.apart f a h.own ha hpre).symm, fun hpre => hne (h.left.apart a f ha h.own hpre)⟩

/-- **The way to another output is not touched.** -/
theorem not_touched_way (k : Nat) :
    ¬ p.Touched base loc sub f (loc ++ (sub ++ p.outNames (p.source.descend a)).take k) := by
  rintro (heq | hpre)
  · refine off_output h.left.below h.left.above (p.outNames (p.source.descend a)) k ?_
    rw [heq]
    exact List.prefix_append _ _
  · rw [List.prefix_append_right_inj] at hpre
    have hall := hpre.trans (List.take_prefix _ _)
    rw [List.prefix_append_right_inj] at hall
    exact (h.apart ha hne).1 hall

/-- **Another output, and what lies below it, is not touched.** -/
theorem not_touched_place (rest : List String) :
    ¬ p.Touched base loc sub f (loc ++ (sub ++ p.outNames (p.source.descend a)) ++ rest) ∧
      ¬ OnTheWay loc (sub ++ p.outNames (p.source.descend f)) (loc ++ (sub ++ p.outNames (p.source.descend a)) ++ rest) := by
  obtain ⟨hnot, hnot'⟩ := h.apart ha hne
  refine ⟨?_, (not_onTheWay loc sub hnot' rest).2⟩
  · rintro (heq | hpre)
    · have hoff : Off base (loc ++ (sub ++ p.outNames (p.source.descend a)) ++ rest) :=
        Spread.off_place h.left.below h.left.above (.inl (List.prefix_append _ rest))
      exact hoff (heq ▸ List.prefix_append base f)
    · rcases List.prefix_or_prefix_of_prefix hpre (List.prefix_append _ rest) with hpre | hpre
      · rw [List.prefix_append_right_inj, List.prefix_append_right_inj] at hpre
        exact hnot hpre
      · rw [List.prefix_append_right_inj, List.prefix_append_right_inj] at hpre
        exact hnot' hpre

theorem get?_place (rest : List String) : u.get? (loc ++ (sub ++ p.outNames (p.source.descend a)) ++ rest) =
    t.get? (loc ++ (sub ++ p.outNames (p.source.descend a)) ++ rest) :=
  h.agree.get?_eq (h.not_touched_place ha hne rest).1 (h.not_touched_place ha hne rest).2

end Beside

/-! ## Visits side by side -/

/-- **The visit of the changed document** may end as it will. -/
theorem visit_own (h : p.Beside base loc top sub f x.files y.files) : p.Beside base loc top sub f
    (p.after copyStatic (p.source.descend f) x).files (p.after copyStatic (p.source.descend f) y).files := by
  obtain ⟨hnil, hnames⟩ := h.left.isName h.own
  refine h.grown (extends_visit_off h.left hnames hnil (fun _ => h.own) copyStatic)
    (extends_visit_off h.right hnames hnil (fun _ => h.own') copyStatic) (h.agree.grown ?_ ?_)
  · exact (extends_visit h.left hnames hnil (fun _ => h.own) copyStatic).mono (fun _ hl => .inr hl) fun _ hl => hl
  · exact (extends_visit h.right hnames hnil (fun _ => h.own') copyStatic).mono (fun _ hl => .inr hl) fun _ hl => hl

section

variable (h : p.Beside base loc top sub f x.files y.files) (hsub : ∀ s ∈ sub, IsName s) (ha : x.files.HasFile (base ++ a))
  (hne : a ≠ f)
include h hsub ha hne

/-- **Another document comes to the same.** -/
theorem visit_page (hpage : p.isPage (p.source.descend a) = true) (copyStatic : Bool) :
    p.result ⟨p.source.descend a, y⟩ = p.result ⟨p.source.descend a, x⟩ ∧ Agree (p.Touched base loc sub f)
      (OnTheWay loc (sub ++ p.outNames (p.source.descend f))) (p.after copyStatic (p.source.descend a) x).files
        (p.after copyStatic (p.source.descend a) y).files := by
  obtain ⟨hnil, hnames⟩ := h.left.isName ha
  have hup : ".." ∉ a := parent_notMem fun s hs => (hnames s hs).toIsPlain
  have hmodule : p.moduleOf y.files ⟨0, a⟩ = p.moduleOf x.files ⟨0, a⟩ :=
    (moduleOf_congr h.left.properSource h.alike h.left.source h.right.source hup (h.get?_source hne).symm
      fun bytes hget => h.left.inside a bytes hget hpage).symm
  unfold result
  rw [after_of_isPage hpage, after_of_isPage hpage, run_convertPage, run_convertPage, h.left.relative_eq hnames,
    h.right.relative_eq hnames]
  simp only [hmodule]
  cases p.moduleOf x.files ⟨0, a⟩ with
  | error e => exact ⟨rfl, h.agree⟩
  | ok text =>
    have hleads := h.left.leads a ha
    have hpath := hleads.outputPath_eq
    obtain ⟨init, last, hinit, hlast, hout⟩ := hleads
    have hnames' : p.outNames (p.source.descend a) = init ++ [last] := Path.descend_injective (hpath.symm.trans hout)
    have hplace : p.outputPath ⟨0, a⟩ = top.descend ((sub ++ init) ++ [last]) := by
      rw [hout, h.left.reaches.output, Path.descend_descend, List.append_assoc]
    obtain ⟨r, t', u', hrun, hrun', hagree⟩ := writeText_agree h.left.isTree h.right.isTree
      (h.left.reaches.isProper h.left.properDest) h.left.reaches.located h.right.reaches.located h.left.reaches.directory
      h.right.reaches.directory h.agree (List.forall_mem_append.2 ⟨hsub, hinit⟩) hlast
      (fun k => by
        rw [List.append_assoc, ← hnames']
        exact h.not_touched_way ha hne k)
      (by
        have hoff := (h.not_touched_place ha hne []).2
        rw [List.append_nil, hnames'] at hoff
        rwa [List.append_assoc])
      (Text.encode text)
    simp only [hplace, hrun, hrun']
    cases r <;> exact ⟨rfl, hagree⟩

/-- **The directories above another output** are made alike, and the passes stay side by side. -/
theorem beside_made {init : List String} {last : String} (hinit : ∀ s ∈ init, IsName s)
    (hout : p.outNames (p.source.descend a) = init ++ [last])
    (hmade : (makeDirectories (top.descend (sub ++ init))).run.run x.files = (.ok (), t))
    (hmade' : (makeDirectories (top.descend (sub ++ init))).run.run y.files = (.ok (), u)) :
    p.Beside base loc top sub f t u ∧ t.HasFile (base ++ a) := by
  have htop := h.left.reaches.isProper h.left.properDest
  have habove : ∀ s ∈ sub ++ init, IsName s := List.forall_mem_append.2 ⟨hsub, hinit⟩
  have hplain : ∀ s ∈ sub ++ init, IsPlain s := fun s hs => (habove s hs).toIsPlain
  obtain ⟨r, t', u', hdirs, hdirs', hagree, -⟩ := makeDirectories_agree h.left.isTree h.right.isTree htop
    h.left.reaches.located h.right.reaches.located h.left.reaches.directory h.right.reaches.directory h.agree habove
    fun k => by
      have hway := h.not_touched_way ha hne (min k (sub ++ init).length)
      rwa [hout, ← List.append_assoc, List.take_append_of_le_length (Nat.min_le_right _ _), ← List.take_take,
        List.take_length] at hway
  rw [hmade, Prod.mk.injEq] at hdirs
  rw [hmade', Prod.mk.injEq] at hdirs'
  obtain ⟨-, rfl⟩ := hdirs
  obtain ⟨-, rfl⟩ := hdirs'
  have hgrown := extends_makeDirectories_descend (W := Off base) h.left.isTree htop h.left.reaches.located hplain
  have hgrown' := extends_makeDirectories_descend (W := Off base) h.right.isTree htop h.right.reaches.located hplain
  rw [hmade] at hgrown
  rw [hmade'] at hgrown'
  have hoff : ∀ l, (∃ j, 0 < j ∧ j ≤ (sub ++ init).length ∧ l = loc ++ (sub ++ init).take j) → Off base l := by
    rintro l ⟨j, -, -, rfl⟩
    exact off_output h.left.below h.left.above init j
  have hleft := hgrown.mono (fun _ => id) hoff
  exact ⟨h.grown hleft (hgrown'.mono (fun _ => id) hoff) hagree, (hasFile_grown hleft).2 ha⟩

omit h hsub ha hne in
/-- A file that was copied stands where its names lead. -/
theorem locate_of_copied {target : Path} (hsource : t.locate p.source = .ok base) (hup : ".." ∉ a)
    (hcopy : (copy (p.source.descend a) target).run.run t = (.ok (), t')) : t.locate (p.source.descend a) = .ok (base ++ a) := by
  obtain ⟨content, -, hnode, -⟩ := copy_eq_ok hcopy
  obtain ⟨l, hl, -⟩ := node?_eq_some.1 hnode
  rw [hl, (locate_names hsource hup hl).1]

/-- **An asset is copied alike.** -/
theorem visit_asset (hpage : p.isPage (p.source.descend a) = false) (hgo : p.GoesOn true ⟨p.source.descend a, x⟩)
    (hgo' : p.GoesOn true ⟨p.source.descend a, y⟩) : Agree (p.Touched base loc sub f)
      (OnTheWay loc (sub ++ p.outNames (p.source.descend f))) (p.after true (p.source.descend a) x).files
        (p.after true (p.source.descend a) y).files := by
  obtain ⟨hnil, hnames⟩ := h.left.isName ha
  have hup : ".." ∉ a := parent_notMem fun s hs => (hnames s hs).toIsPlain
  obtain ⟨target, htarget⟩ := hgo hpage rfl
  obtain ⟨target', htarget'⟩ := hgo' hpage rfl
  rw [after_of_asset hpage, after_of_asset hpage]
  rcases hrun : (p.placeAsset (p.source.descend a)).run.run x with ⟨r, x'⟩
  rcases hrun' : (p.placeAsset (p.source.descend a)).run.run y with ⟨r', y'⟩
  obtain rfl : r = .ok target := (congrArg Prod.fst hrun).symm.trans htarget
  obtain rfl : r' = .ok target' := (congrArg Prod.fst hrun').symm.trans htarget'
  obtain ⟨rel, files, hrel, hmade, hcopy⟩ := placeAsset_eq_ok p hrun
  obtain ⟨rel', files', hrel', hmade', hcopy'⟩ := placeAsset_eq_ok p hrun'
  rw [h.left.relative_eq hnames, Except.ok.injEq] at hrel
  rw [h.right.relative_eq hnames, Except.ok.injEq] at hrel'
  subst hrel hrel'
  have hleads := h.left.leads a ha
  have hpath := hleads.outputPath_eq
  obtain ⟨init, last, hinit, hlast, hout⟩ := hleads
  have hnames' : p.outNames (p.source.descend a) = init ++ [last] := Path.descend_injective (hpath.symm.trans hout)
  have hplace : p.outputPath ⟨0, a⟩ = top.descend ((sub ++ init) ++ [last]) := by
    rw [hout, h.left.reaches.output, Path.descend_descend, List.append_assoc]
  have hplain : ∀ s ∈ (sub ++ init) ++ [last], IsPlain s := List.forall_mem_append.2
    ⟨fun s hs => ((List.mem_append.1 hs).elim (hsub s) (hinit s)).toIsPlain, List.forall_mem_singleton.2 hlast⟩
  rw [hplace, Path.parent_descend] at hmade hmade'
  obtain ⟨hside, ha'⟩ := beside_made h hsub ha hne hinit hnames' hmade hmade'
  have hend : loc ++ ((sub ++ init) ++ [last]) = loc ++ (sub ++ p.outNames (p.source.descend a)) ++ [] := by
    rw [hnames', List.append_nil, List.append_assoc sub]
  rw [hplace] at hcopy hcopy'
  obtain ⟨more, name, hmore, hcopied⟩ : ∃ more name, (∀ s ∈ more ++ [name], IsPlain s) ∧
      copyTarget files (p.source.descend a) (top.descend ((sub ++ init) ++ [last])) = top.descend (more ++ [name]) := by
    unfold copyTarget
    split
    · refine ⟨_, _, List.forall_mem_append.2 ⟨hplain, List.forall_mem_singleton.2
        (name_below (p := p) ⟨a, hnil, hnames, rfl⟩).toIsPlain⟩, Path.child_descend _ _ _⟩
    · exact ⟨_, _, hplain, rfl⟩
  refine copy_agree hside.agree (locate_of_copied hside.left.source hup hcopy) (locate_of_copied hside.right.source hup hcopy')
    (hside.not_touched_source hne).1 (hside.get?_source hne) ?_ ?_ (fun A B hA hB => ?_) hcopy hcopy'
  · unfold isDirectory
    rw [node?_descend hside.right.isTree hside.right.reaches.located (parent_notMem hplain),
      node?_descend hside.left.isTree hside.left.reaches.located (parent_notMem hplain), hend, hside.get?_place ha' hne]
  · rw [hcopied]
    exact namesEntry_descend (h.left.reaches.isProper h.left.properDest) (by simp) hmore
  · rw [hcopied] at hA hB
    rw [(slot_descend hside.left.reaches.located hmore hA).1, (slot_descend hside.right.reaches.located hmore hB).1]

end

/-- **A visit of another file** reports and registers the same, and the passes stay side by side. -/
theorem visit_beside (h : p.Beside base loc top sub f x.files y.files) (hsub : ∀ s ∈ sub, IsName s)
    (ha : x.files.HasFile (base ++ a)) (hne : a ≠ f) (hgo : p.GoesOn copyStatic ⟨p.source.descend a, x⟩)
    (hgo' : p.GoesOn copyStatic ⟨p.source.descend a, y⟩) :
    p.failure? ⟨p.source.descend a, y⟩ = p.failure? ⟨p.source.descend a, x⟩ ∧
      p.registered? ⟨p.source.descend a, y⟩ = p.registered? ⟨p.source.descend a, x⟩ ∧
        p.Beside base loc top sub f (p.after copyStatic (p.source.descend a) x).files
          (p.after copyStatic (p.source.descend a) y).files := by
  obtain ⟨hnil, hnames⟩ := h.left.isName ha
  have hgrown : Agree (p.Touched base loc sub f) (OnTheWay loc (sub ++ p.outNames (p.source.descend f)))
      (p.after copyStatic (p.source.descend a) x).files (p.after copyStatic (p.source.descend a) y).files →
        p.Beside base loc top sub f (p.after copyStatic (p.source.descend a) x).files
          (p.after copyStatic (p.source.descend a) y).files :=
    h.grown (extends_visit_off h.left hnames hnil (fun _ => ha) copyStatic)
      (extends_visit_off h.right hnames hnil (fun _ => h.hasFile_iff.2 ha) copyStatic)
  cases hpage : p.isPage (p.source.descend a) with
  | true =>
    obtain ⟨hresult, hagree⟩ := visit_page h hsub ha hne hpage copyStatic
    exact ⟨failure?_congr hresult, registered?_congr hresult h.agree.current, hgrown hagree⟩
  | false =>
    refine ⟨by simp [failure?, hpage], by simp [registered?, converts, hpage], hgrown ?_⟩
    cases copyStatic with
    | true => exact visit_asset h hsub ha hne hpage hgo hgo'
    | false =>
      have hnot : p.treats false (p.source.descend a) = false := by simp [treats, hpage]
      rw [after_of_not_treats hnot, after_of_not_treats hnot]
      exact h.agree

/-- **Visits of other files** report and register the same, and the passes stay side by side. -/
theorem visits_beside (hsub : ∀ s ∈ sub, IsName s) : ∀ {paths : List Path} {x y : Workspace},
    p.Beside base loc top sub f x.files y.files →
      (∀ path ∈ paths, ∃ a, path = p.source.descend a ∧ a ≠ f ∧ x.files.HasFile (base ++ a)) →
        (∀ v ∈ p.visits copyStatic paths x, p.GoesOn copyStatic v) →
          (∀ v ∈ p.visits copyStatic paths y, p.GoesOn copyStatic v) →
            (p.visits copyStatic paths y).filterMap p.failure? = (p.visits copyStatic paths x).filterMap p.failure? ∧
              (p.visits copyStatic paths y).filterMap p.registered? = (p.visits copyStatic paths x).filterMap p.registered? ∧
                p.Beside base loc top sub f (p.afterAll copyStatic paths x).files (p.afterAll copyStatic paths y).files
  | [], _, _, h, _, _, _ => ⟨rfl, rfl, h⟩
  | path :: paths, x, y, h, hpaths, hgo, hgo' => by
    rw [List.forall_mem_cons] at hpaths
    rw [visits, List.forall_mem_cons] at hgo hgo'
    obtain ⟨⟨a, rfl, hne, ha⟩, hpaths⟩ := hpaths
    obtain ⟨hnil, hnames⟩ := h.left.isName ha
    have hgrown := extends_visit_off h.left hnames hnil (fun _ => ha) copyStatic
    obtain ⟨hfailure, hregistered, hside⟩ := visit_beside h hsub ha hne hgo.1 hgo'.1
    obtain ⟨hfailures, hroutes, hend⟩ := visits_beside hsub hside
      (fun path hpath => (hpaths path hpath).imp fun a' h' => ⟨h'.1, h'.2.1, (hasFile_grown hgrown).2 h'.2.2⟩) hgo.2 hgo'.2
    refine ⟨?_, ?_, hend⟩
    · rw [visits, visits, List.filterMap_cons, List.filterMap_cons, hfailure, hfailures]
    · rw [visits, visits, List.filterMap_cons, List.filterMap_cons, hregistered, hroutes]

end Project
end ReactSite
