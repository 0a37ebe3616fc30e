import ReactSite.Proofs.Accounting
/-!
# Placing — what stands at its output after a visit that ended well

A visit that ended well has written one file: the module of a document (`convertPage_places`), or the bytes of an asset
(`placeAsset_places`).  It stands where the names of the output path lead from the output directory, and besides it only
directories on the way were made (`Leaves`).  A later visit takes it away only by writing there itself (`kept_of_leaves`).
-/
namespace ReactSite

open FileTree

namespace FileTree

variable {t t' : FileTree} {p : Path} {base : Location} {names : List String}

/-- The places that lead from `base` to a place below it, without the two ends. -/
def OnTheWay (base : Location) (names : List String) (l : Location) : Prop :=
  ∃ j, 0 < j ∧ j < names.length ∧ l = base ++ names.take j

theorem ne_of_onTheWay {l : Location} (h : OnTheWay base names l) : l ≠ base ++ names := by
  obtain ⟨j, -, hlt, rfl⟩ := h
  intro heq
  have hlen := congrArg List.length (List.append_cancel_left heq)
  rw [List.length_take] at hlen
  omega

/-- The places that names lead to, and those on the way to them, are below the base. -/
theorem extends_below {P : List String → Prop} (h : Extends (fun l => ∃ m, P m ∧ l = base ++ m)
    (fun l => ∃ m, P m ∧ OnTheWay base m l) t t') : Extends (base <+: ·) (base <+: ·) t t' := by
  refine h.mono ?_ ?_
  · rintro l ⟨m, -, rfl⟩
    exact List.prefix_append _ _
  · rintro l ⟨m, -, j, -, -, rfl⟩
    exact List.prefix_append _ _

/-- **A text that was written** below a path stands where the names lead. -/
theorem writeText_places (ht : t.IsTree) (hbase : t.locate p = .ok base) (hentry : Path.NamesEntry (p.descend names))
    (hnames : ∀ s ∈ names, IsPlain s) {content : List UInt8}
    (h : (writeText (p.descend names) content).run.run t = (.ok (), t')) :
    Extends (· = base ++ names) (OnTheWay base names) t t' ∧ t'.get? (base ++ names) = some (.file content) ∧
      t'.locate (p.descend names) = .ok (base ++ names) := by
  have hgrown : Extends (· = base ++ names) (OnTheWay base names) t ((writeText (p.descend names) content).run.run t).2 :=
    extends_writeText (inside_descend ht hbase hentry hnames (fun j hpos hlt => ⟨j, hpos, hlt, rfl⟩) rfl)
  rw [h] at hgrown
  obtain ⟨loc, hloc, hget⟩ := node?_eq_some.1 (node?_writeText hentry h)
  obtain ⟨rfl, -⟩ := locate_names (hgrown.locate hbase) (parent_notMem hnames) hloc
  exact ⟨hgrown, hget, hloc⟩

/-- **A file that was copied** below a path stands where the names lead, if no directory stood there. -/
theorem copy_places (ht : t.IsTree) (hbase : t.locate p = .ok base) (hentry : Path.NamesEntry (p.descend names))
    (hnames : ∀ s ∈ names, IsPlain s) (hne : names ≠ []) {source : Path} {a : Location} {bytes : List UInt8}
    (hsource : t.locate source = .ok a) (ha : t.get? a = some (.file bytes)) (hdir : t.get? (base ++ names) ≠ some .directory)
    {t₁ : FileTree} (hmade : (makeDirectories (p.descend names).parent).run.run t = (.ok (), t₁))
    (h : (copy source (p.descend names)).run.run t₁ = (.ok (), t')) :
    Extends (· = base ++ names) (OnTheWay base names) t t' ∧ t'.get? (base ++ names) = some (.file bytes) ∧
      t'.locate (p.descend names) = .ok (base ++ names) := by
  obtain ⟨init, last, rfl⟩ := List.eq_nil_or_concat names |>.resolve_left hne
  rw [List.concat_eq_append] at *
  rw [Path.parent_descend] at hmade
  have hgrown : Extends Nowhere (OnTheWay base (init ++ [last])) t t₁ := by
    have hmake := extends_makeDirectories_descend (W := Nowhere) ht (isProper_of_descend hentry.proper) hbase
      fun s hs => hnames s (List.mem_append_left _ hs)
    rw [hmade] at hmake
    refine hmake.mono (fun _ => id) ?_
    rintro l ⟨j, hpos, hle, rfl⟩
    refine ⟨j, hpos, ?_, ?_⟩
    · rw [List.length_append, List.length_singleton]
      omega
    · rw [List.take_append_of_le_length hle]
  have hdir₁ : t₁.get? (base ++ (init ++ [last])) ≠ some .directory := by
    rwa [hgrown.get?_eq id fun hway => ne_of_onTheWay hway rfl]
  have hplain : copyTarget t₁ source (p.descend (init ++ [last])) = p.descend (init ++ [last]) := by
    unfold copyTarget
    refine if_neg fun hisdir => ?_
    unfold isDirectory at hisdir
    obtain ⟨loc, hloc, hget⟩ := node?_eq_some.1 (of_decide_eq_true hisdir)
    obtain ⟨rfl, -⟩ := locate_names (hgrown.locate hbase) (parent_notMem hnames) hloc
    exact hdir₁ hget
  obtain ⟨content, loc, hnode, hslot, hplace, rfl⟩ := copy_eq_ok h
  obtain rfl : content = bytes := by
    have hsame : t₁.node? source = some (.file bytes) :=
      node?_eq_some.2 ⟨a, hgrown.locate hsource, (hgrown.file_iff id bytes).2 ha⟩
    rw [hsame] at hnode
    cases hnode
    rfl
  rw [hplain] at hslot ⊢
  obtain ⟨rfl, -⟩ := slot_descend (hgrown.locate hbase) hnames hslot
  have hput : (t₁.copied source (p.descend (init ++ [last])) (base ++ (init ++ [last])) content).get?
      (base ++ (init ++ [last])) = some (.file content) := by
    rw [get?_copied, get?_put_self (by simp)]
  have hgrown' : Extends (· = base ++ (init ++ [last])) (OnTheWay base (init ++ [last])) t
      (t₁.copied source (p.descend (init ++ [last])) (base ++ (init ++ [last])) content) :=
    (hgrown.mono (fun _ => False.elim) fun _ => id).trans (extends_copied hentry hslot hplace rfl)
  refine ⟨hgrown', hput, ?_⟩
  exact locate_of_get? (hgrown'.isTree ht) (hgrown'.locate hbase)
    ((slot_eq_ok hentry.ne_empty hentry.ne_parent).1 hslot).1 hput

end FileTree

namespace Project

variable {p : Project} {copyStatic : Bool} {w : Workspace} {path rel : Path} {out : Location} {names : List String}

section

variable (ht : w.files.IsTree) (hout : w.files.locate p.output = .ok out)
  (hrel : p.relative w.files.current path = .ok rel) (hpath : p.outputPath rel = p.output.descend names)
  (hentry : Path.NamesEntry (p.output.descend names)) (hnames : ∀ s ∈ names, IsPlain s)
include ht hout hrel hpath hentry hnames

/-- **A document that was converted** has its module at its output. -/
theorem convertPage_places {register : Bool} {target : Path} {w' : Workspace}
    (h : (p.convertPage register path).run.run w = (.ok target, w')) : ∃ text, p.moduleOf w.files rel = .ok text ∧
      Extends (· = out ++ names) (OnTheWay out names) w.files w'.files ∧
      w'.files.get? (out ++ names) = some (.file (Text.encode text)) ∧
      w'.files.locate (p.output.descend names) = .ok (out ++ names) := by
  obtain ⟨rel', text, hrel', hmodule, rfl, hwrite, -⟩ := convertPage_eq_ok p h
  rw [hrel, Except.ok.injEq] at hrel'
  subst hrel'
  rw [hpath] at hwrite
  exact ⟨text, hmodule, writeText_places ht hout hentry hnames hwrite⟩

/-- **An asset that was placed** has its bytes at its output, if no directory stood there. -/
theorem placeAsset_places (hne : names ≠ []) {target : Path} {w' : Workspace} {a : Location} {bytes : List UInt8}
    (hsource : w.files.locate path = .ok a) (ha : w.files.get? a = some (.file bytes))
    (hdir : w.files.get? (out ++ names) ≠ some .directory) (h : (p.placeAsset path).run.run w = (.ok target, w')) :
    Extends (· = out ++ names) (OnTheWay out names) w.files w'.files ∧
      w'.files.get? (out ++ names) = some (.file bytes) ∧ w'.files.locate (p.output.descend names) = .ok (out ++ names) := by
  obtain ⟨rel', t₁, hrel', hmade, hcopy⟩ := placeAsset_eq_ok p h
  rw [hrel, Except.ok.injEq] at hrel'
  subst hrel'
  rw [hpath] at hmade hcopy
  exact copy_places ht hout hentry hnames hne hsource ha hdir hmade hcopy

end

/-! ## Visits -/

/-- The names that lead from the output directory to a path below it. -/
def namesBelow (p : Project) (path : Path) : List String := path.parts.drop p.output.parts.length

/-- The names that lead from the output directory to the output of a visited file. -/
def outNames (p : Project) (path : Path) : List String := p.namesBelow (p.outputPath (p.visitedPath path))

/-- **What the output of a file is to hold**: the module of a document, or the bytes of any other file. -/
def outputBytes (p : Project) (files : FileTree) (path : Path) : Option (List UInt8) :=
  if p.isPage path then (p.moduleOf files (p.visitedPath path)).toOption.map Text.encode
  else match files.node? path with
  | some (.file bytes) => some bytes
  | _                  => none

/-- **What a visit has to leave at its output.** -/
def payload (p : Project) (v : Visit) : Option (List UInt8) := p.outputBytes v.before.files v.path

/-- A file that a pass does something with. -/
def treats (p : Project) (copyStatic : Bool) (path : Path) : Bool := p.isPage path || copyStatic

/-- **A visit that leaves its output** in place. -/
structure Leaves (p : Project) (copyStatic : Bool) (out : Location) (v : Visit) (bytes : List UInt8) : Prop where
  payload : p.payload v = some bytes
  grown : Extends (· = out ++ p.outNames v.path) (OnTheWay out (p.outNames v.path)) v.before.files
    (p.after copyStatic v.path v.before).files
  placed : (p.after copyStatic v.path v.before).files.get? (out ++ p.outNames v.path) = some (.file bytes)
  located : (p.after copyStatic v.path v.before).files.locate (p.outputPath (p.visitedPath v.path)) =
    .ok (out ++ p.outNames v.path)

theorem outNames_eq {path : Path} {names : List String} (h : p.outputPath (p.visitedPath path) = p.output.descend names) :
    p.outNames path = names := by
  simp [outNames, namesBelow, h]

theorem after_of_not_treats {path : Path} {w : Workspace} (h : p.treats copyStatic path = false) :
    p.after copyStatic path w = w := by
  unfold treats at h
  rw [Bool.or_eq_false_iff] at h
  unfold after
  rw [run_visit, if_neg (by simp [h.1]), if_neg (by simp [h.2])]

/-- **What visits leave is there after the last one**, if those that share a place leave the same. -/
theorem kept_of_leaves : ∀ {paths : List Path} {w : Workspace},
    (∀ v ∈ p.visits copyStatic paths w, p.treats copyStatic v.path = true → ∃ bytes, p.Leaves copyStatic out v bytes) →
    (∀ u ∈ p.visits copyStatic paths w, ∀ v ∈ p.visits copyStatic paths w, p.treats copyStatic u.path = true →
      p.treats copyStatic v.path = true → p.outNames u.path = p.outNames v.path → p.payload u = p.payload v) →
    (∀ v ∈ p.visits copyStatic paths w, p.treats copyStatic v.path = true → ∀ bytes, p.payload v = some bytes →
      (p.afterAll copyStatic paths w).files.get? (out ++ p.outNames v.path) = some (.file bytes)) ∧
    Extends (fun l => ∃ path ∈ paths, p.treats copyStatic path = true ∧ l = out ++ p.outNames path)
      (fun l => ∃ path ∈ paths, p.treats copyStatic path = true ∧ OnTheWay out (p.outNames path) l) w.files
      (p.afterAll copyStatic paths w).files
  | [], w, _, _ => ⟨fun _ hv => (List.not_mem_nil hv).elim, .refl _ _ _⟩
  | path :: paths, w, hleaves, hsame => by
    rw [visits, List.forall_mem_cons] at hleaves
    rw [visits] at hsame ⊢
    obtain ⟨hfirst, hrest⟩ := hleaves
    obtain ⟨hkept, hgrown⟩ := kept_of_leaves hrest
      fun u hu v hv => hsame u (List.mem_cons_of_mem _ hu) v (List.mem_cons_of_mem _ hv)
    have hgrown' : Extends (fun l => ∃ path' ∈ path :: paths, p.treats copyStatic path' = true ∧ l = out ++ p.outNames path')
        (fun l => ∃ path' ∈ path :: paths, p.treats copyStatic path' = true ∧ OnTheWay out (p.outNames path') l)
        (p.after copyStatic path w).files (p.afterAll copyStatic paths (p.after copyStatic path w)).files := by
      refine hgrown.mono ?_ ?_
      · rintro l ⟨path', hmem, hl⟩
        exact ⟨path', List.mem_cons_of_mem path hmem, hl⟩
      · rintro l ⟨path', hmem, hl⟩
        exact ⟨path', List.mem_cons_of_mem path hmem, hl⟩
    rw [afterAll_cons]
    cases htreats : p.treats copyStatic path with
    | false =>
      -- the visit changes nothing
      rw [after_of_not_treats htreats] at hkept hgrown' ⊢
      exact ⟨List.forall_mem_cons.2 ⟨fun h => by simp [htreats] at h, hkept⟩, hgrown'⟩
    | true =>
      obtain ⟨first, hfirst⟩ := hfirst htreats
      refine ⟨List.forall_mem_cons.2 ⟨fun _ bytes hbytes => ?_, hkept⟩, ?_⟩
      · rw [hfirst.payload, Option.some.injEq] at hbytes
        subst hbytes
        rcases hgrown.change (out ++ p.outNames path) with heq | ⟨hnone, -, -⟩ | ⟨-, -, path', hmem, htreats', hplace⟩
        · rw [heq, hfirst.placed]
        · rw [hfirst.placed] at hnone
          cases hnone
        · -- a later visit wrote at the same place
          rw [← map_path_visits paths (p.after copyStatic path w)] at hmem
          obtain ⟨v, hv, rfl⟩ := List.mem_map.1 hmem
          have hnames := List.append_cancel_left hplace
          rw [hplace]
          refine hkept v hv htreats' first ?_
          rw [← hsame ⟨path, w⟩ List.mem_cons_self v (List.mem_cons_of_mem _ hv) htreats htreats' hnames, hfirst.payload]
      · refine (hfirst.grown.mono ?_ ?_).trans hgrown'
        · exact fun l hl => ⟨_, List.mem_cons_self, htreats, hl⟩
        · exact fun l hl => ⟨_, List.mem_cons_self, htreats, hl⟩

theorem after_of_asset {path : Path} {w : Workspace} (h : p.isPage path = false) :
    p.after true path w = ((p.placeAsset path).run.run w).2 := by
  unfold after
  rw [run_visit, if_neg (by simp [h]), if_pos rfl]
  rcases (p.placeAsset path).run.run w with ⟨f | target, w'⟩ <;> rfl

/-- **A visit that ended well leaves its output**, if no directory stood in the place of an asset. -/
theorem exists_leaves {v : Visit} {names : List String} (ht : v.before.files.IsTree)
    (hout : v.before.files.locate p.output = .ok out)
    (hrel : p.relative v.before.files.current v.path = .ok (p.visitedPath v.path))
    (hpath : p.outputPath (p.visitedPath v.path) = p.output.descend names) (hentry : Path.NamesEntry (p.output.descend names))
    (hnames : ∀ s ∈ names, IsPlain s) (hne : names ≠ []) (hpage : p.isPage v.path = true → p.converts v = true)
    (hasset : p.isPage v.path = false → p.GoesOn true v ∧ (∃ bytes, v.before.files.node? v.path = some (.file bytes)) ∧
      v.before.files.get? (out ++ names) ≠ some .directory) (htreats : p.treats copyStatic v.path = true) :
    ∃ bytes, p.Leaves copyStatic out v bytes := by
  have hnames' := outNames_eq hpath
  cases hkind : p.isPage v.path with
  | true =>
    obtain ⟨-, target, hresult⟩ := exists_result (hpage hkind)
    have hrun : (p.convertPage true v.path).run.run v.before = (.ok target, p.after copyStatic v.path v.before) := by
      rw [after_of_isPage hkind]
      exact Prod.ext hresult rfl
    obtain ⟨text, hmodule, hgrown, hplaced, hlocated⟩ := convertPage_places ht hout hrel hpath hentry hnames hrun
    refine ⟨Text.encode text, ?_, ?_, ?_, ?_⟩
    · unfold payload outputBytes
      rw [if_pos hkind, hmodule]
      rfl
    · rwa [hnames']
    · rwa [hnames']
    · rwa [hnames', hpath]
  | false =>
    obtain rfl : copyStatic = true := by simpa [treats, hkind] using htreats
    obtain ⟨hgoes, ⟨bytes, hnode⟩, hdir⟩ := hasset hkind
    obtain ⟨target, htarget⟩ := hgoes hkind rfl
    obtain ⟨a, hsource, ha⟩ := node?_eq_some.1 hnode
    have hrun : (p.placeAsset v.path).run.run v.before = (.ok target, p.after true v.path v.before) := by
      rw [after_of_asset hkind]
      exact Prod.ext htarget rfl
    obtain ⟨hgrown, hplaced, hlocated⟩ :=
      placeAsset_places ht hout hrel hpath hentry hnames hne hsource ha hdir hrun
    refine ⟨bytes, ?_, ?_, ?_, ?_⟩
    · unfold payload outputBytes
      simp [hkind, hnode]
    · rwa [hnames']
    · rwa [hnames']
    · rwa [hnames', hpath]

end Project
end ReactSite
