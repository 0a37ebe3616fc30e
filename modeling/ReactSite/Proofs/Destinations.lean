import ReactSite.Proofs.Agreement
import ReactSite.Proofs.Binding
import ReactSite.Proofs.Ways
/-!
# Destinations — where the output of a source file goes

A path relative to the source has plain names (`isPlain_relative`).  Under the standard rules the output of a source file
stands below the output directory under plain names too (`outputPath_cases`), and no output is a document
(`isPage_outputPath`).
-/
namespace ReactSite

open FileTree (IsPlain IsName)

/-! ## Resolving -/

namespace Path

variable {p : Path} {names : List String}

theorem foldl_enter (h : ".." ∉ names) : ∀ reached : List String, names.foldl enter reached = reached ++ names := by
  induction names with
  | nil => simp
  | cons name names ih =>
    intro reached
    have hname : name ≠ ".." := fun e => h (by simp [e])
    rw [List.foldl_cons, enter, if_neg hname, ih fun hm => h (List.mem_cons_of_mem _ hm)]
    simp

theorem resolveFrom_descend (base : List String) (h : ".." ∉ names) :
    (p.descend names).resolveFrom base = p.resolveFrom base ++ names := by
  unfold resolveFrom
  rw [parts_descend, List.foldl_append, foldl_enter h]
  rfl

/-- **A resolved path has plain names.** -/
theorem isPlain_resolveFrom (hp : p.IsProper) {base : List String} (hbase : ∀ s ∈ base, IsPlain s) :
    ∀ s ∈ p.resolveFrom base, IsPlain s := by
  have hfold : ∀ (parts reached : List String), (∀ s ∈ parts, s ∈ p.parts) → (∀ s ∈ reached, IsPlain s) →
      ∀ s ∈ parts.foldl enter reached, IsPlain s := by
    intro parts
    induction parts with
    | nil => exact fun reached _ h => h
    | cons part parts ih =>
      intro reached hparts hreached
      rw [List.forall_mem_cons] at hparts
      refine ih _ hparts.2 ?_
      unfold enter
      split
      · exact fun s hs => hreached s (List.dropLast_subset _ hs)
      · rename_i hup
        exact List.forall_mem_append.2
          ⟨hreached, List.forall_mem_singleton.2 ⟨hp.kept _ hparts.1, hp.slash_notMem _ hparts.1, hup⟩⟩
  refine hfold p.parts _ (fun s hs => hs) ?_
  split
  · simp
  · exact hbase

end Path

namespace Project

variable {p : Project} {base : Location} {path rel : Path}

/-! ## Paths relative to the source -/

theorem below?_eq_some {place top parts : List String} : Path.below? place top = some parts ↔ place = top ++ parts := by
  unfold Path.below?
  by_cases hpre : top <+: place
  · obtain ⟨rest, rfl⟩ := hpre
    rw [if_pos (List.isPrefixOf_iff_prefix.2 ⟨rest, rfl⟩)]
    simp [eq_comm]
  · rw [if_neg (by rwa [List.isPrefixOf_iff_prefix])]
    constructor
    · intro h
      cases h
    · rintro rfl
      exact absurd ⟨parts, rfl⟩ hpre

theorem relative_eq_ok : p.relative base path = .ok rel ↔ (p.source.join path).hasNul = false ∧ rel.slashes = 0 ∧
    (p.source.join path).resolveFrom base = p.source.resolveFrom base ++ rel.parts := by
  unfold relative
  dsimp only
  rw [← below?_eq_some]
  cases (p.source.join path).hasNul with
  | true => simp
  | false =>
    rw [if_neg Bool.false_ne_true]
    cases Path.below? ((p.source.join path).resolveFrom base) (p.source.resolveFrom base) with
    | none => simp
    | some parts =>
      obtain ⟨slashes, parts'⟩ := rel
      simp [eq_comm]

theorem isProper_join {a b : Path} (ha : a.IsProper) (hb : b.IsProper) : (a.join b).IsProper := by
  unfold Path.join
  split
  · exact hb
  · exact ⟨ha.slashes_le, fun s hs => (List.mem_append.1 hs).elim (ha.kept s) (hb.kept s),
      fun s hs => (List.mem_append.1 hs).elim (ha.slash_notMem s) (hb.slash_notMem s)⟩

/-- **A path relative to the source has plain names.** -/
theorem isPlain_relative (hsource : p.source.IsProper) (hpath : path.IsProper) (hbase : ∀ s ∈ base, IsPlain s)
    (h : p.relative base path = .ok rel) : ∀ s ∈ rel.parts, IsPlain s := by
  obtain ⟨-, -, hresolve⟩ := relative_eq_ok.1 h
  intro s hs
  refine Path.isPlain_resolveFrom (isProper_join hsource hpath) hbase s ?_
  rw [hresolve]
  exact List.mem_append_right _ hs

theorem name_relative {names : List String} {name : String} (hname : name ≠ "..")
    (h : p.relative base (p.source.descend (names ++ [name])) = .ok rel) (hne : rel.parts ≠ []) : rel.name = name := by
  obtain ⟨-, -, hresolve⟩ := relative_eq_ok.1 h
  rw [← Path.descend_descend, Path.join_descend, Path.resolveFrom_descend base (by simpa using fun e => hname e.symm)]
    at hresolve
  have hlast := congrArg List.getLast? hresolve
  rw [List.getLast?_append_of_ne_nil _ hne] at hlast
  simp [Path.name, ← hlast]

/-- **Paths relative to the source are read from the source itself**, and not from the source below the source. -/
def IsSettled (p : Project) (base : Location) : Prop :=
  (p.source.join p.source).resolveFrom base = p.source.resolveFrom base

instance (p : Project) (base : Location) : Decidable (p.IsSettled base) :=
  inferInstanceAs (Decidable (_ = _))

theorem isSettled_of_isAbsolute (h : p.source.isAbsolute = true) : p.IsSettled base := by
  unfold IsSettled Path.join
  rw [if_pos h]

theorem relative_descend (hsettled : p.IsSettled base) {names : List String} (hnul : p.source.hasNul = false)
    (hnames : ∀ s ∈ names, IsName s) : p.relative base (p.source.descend names) = .ok ⟨0, names⟩ := by
  have hup := FileTree.parent_notMem fun s hs => (hnames s hs).toIsPlain
  have hnul' : names.any (fun part => part.toList.contains '\x00') = false := by
    rw [List.any_eq_false]
    intro s hs
    simpa using (hnames s hs).nul_notMem
  have hjoin : (p.source.join p.source).hasNul = false := by
    unfold Path.hasNul Path.join at *
    split
    · exact hnul
    · rw [List.any_append, hnul]
      rfl
  rw [relative_eq_ok, Path.join_descend, Path.resolveFrom_descend base hup, hsettled]
  refine ⟨?_, rfl, rfl⟩
  unfold Path.hasNul at hjoin ⊢
  rw [Path.parts_descend, List.any_append, hjoin, hnul']
  rfl

end Project

/-! ## The standard rules -/

namespace Naming

theorem isWordChar_toUpper {c : Char} (h : isWordChar c = true ∨ c = '_') :
    isWordChar c.toUpper = true ∨ c.toUpper = '_' := by
  unfold Char.toUpper
  split
  · rename_i hlow
    have h₁ : 97 ≤ c.val.toNat := hlow.1
    have h₂ : c.val.toNat ≤ 122 := hlow.2
    have hval : (c.val + ('A'.val - 'a'.val)).toNat = c.val.toNat - 32 := by
      have hdiff : ('A'.val - 'a'.val).toNat = 4294967264 := by decide
      rw [UInt32.toNat_add, hdiff]
      omega
    unfold isWordChar Char.isAlpha Char.isUpper
    simp only [ge_iff_le, UInt32.le_iff_toNat_le, hval, Bool.or_eq_true, decide_eq_true_eq]
    refine .inl (.inl (.inl ⟨?_, ?_⟩))
    · show 65 ≤ c.val.toNat - 32
      omega
    · show c.val.toNat - 32 ≤ 90
      omega
  · exact h

theorem isIdentifier_component (stem : String) : IsIdentifier (component stem) := by
  have hlist : (component stem).toList = capitalize (identifierList stem.toList) := String.toList_ofList
  obtain ⟨c, rest, hcons⟩ := List.exists_cons_of_ne_nil (identifierList_ne_nil stem.toList)
  have hmem : ∀ d ∈ c :: rest, isWordChar d = true ∨ d = '_' := fun d h => mem_identifierList (hcons ▸ h)
  rw [hcons] at hlist
  refine ⟨by simp [hlist, capitalize], fun d hd => ?_⟩
  rw [hlist, capitalize] at hd
  rcases List.mem_cons.1 hd with rfl | hd
  · exact isWordChar_toUpper (hmem c List.mem_cons_self)
  · exact hmem d (List.mem_cons_of_mem _ hd)

end Naming

/-- **The standard rules**, whatever they say about scaffolding. -/
structure Rules.IsStandard (r : Rules) : Prop where
  entryDocument : r.entryDocument = "index.html"
  entryComponent : r.entryComponent = "App"
  routeModule : r.routeModule = "index.js"
  moduleExtension : r.moduleExtension = ".js"
  markupExtensions : r.markupExtensions = [".html", ".htm"]
  outputSubdir : r.outputSubdir = "src"
  typed : r.misnamed = []

namespace Path

theorem toString_name (s : String) : (⟨0, [s]⟩ : Path).toString = s := by
  rw [toString_of_relative (by simp), String.intercalate_singleton]

theorem ofString_name {s : String} (h : IsPlain s) : ofString s = ⟨0, [s]⟩ := by
  have hproper : (⟨0, [s]⟩ : Path).IsProper :=
    ⟨by simp, by simpa using h.kept, by simpa using h.slash_notMem⟩
  rw [← ofString_toString hproper, toString_name]

end Path

namespace Project

variable {p : Project}

theorem isPage_congr {a b : Path} (h : a.name = b.name) : p.isPage a = p.isPage b := by
  unfold isPage Path.suffix
  rw [h]

theorem isPlain_moduleName (stem : String) : IsPlain (Naming.component stem ++ ".js") := by
  have hcomponent := Naming.isIdentifier_component stem
  have hjs : 'j' ∈ (Naming.component stem ++ ".js").toList := by
    rw [String.toList_append]
    exact List.mem_append_right _ (by decide)
  refine ⟨?_, ?_, ?_⟩
  · have hempty : Naming.component stem ++ ".js" ≠ "" := by
      intro e
      rw [e] at hjs
      exact absurd hjs (by decide)
    have hdot : Naming.component stem ++ ".js" ≠ "." := by
      intro e
      rw [e] at hjs
      exact absurd hjs (by decide)
    simp [Path.isKept, hempty, hdot]
  · rw [String.toList_append, List.mem_append, not_or]
    exact ⟨hcomponent.notMem (by decide) (by decide), by decide⟩
  · intro e
    rw [e] at hjs
    exact absurd hjs (by decide)

theorem isPage_moduleName (hstd : p.rules.IsStandard) (dir : Path) (stem : String) :
    p.isPage (dir.child (Naming.component stem ++ ".js")) = false := by
  have hname : (dir.child (Naming.component stem ++ ".js")).name = Naming.component stem ++ ".js" := by
    simp [Path.child, Path.name]
  have hdots : ".js".toList = '.' :: ['j', 's'] := by decide
  have hlower : ¬ [".html", ".htm"].contains (Text.lower (String.ofList ['.', 'j', 's'])) = true := by decide
  unfold isPage Path.suffix
  rw [hname, hstd.markupExtensions, String.toList_append, hdots, Path.stemAndSuffix_append (by decide),
    if_neg (by simp [(Naming.isIdentifier_component stem).ne_nil])]
  exact Bool.eq_false_iff.2 hlower

/-- The names that lead from the output directory to the output of a source file. -/
def outputNames (p : Project) (names : List String) : List String :=
  if !p.isPage ⟨0, names⟩ then names
  else if p.isEntryPath ⟨0, names⟩ then ["App.js"]
  else names.dropLast ++ [Naming.component (⟨0, names⟩ : Path).stem ++ ".js"]

theorem outputPath_eq (hstd : p.rules.IsStandard) (names : List String) :
    p.outputPath ⟨0, names⟩ = p.output.descend (p.outputNames names) := by
  have hentry : Path.ofString "App.js" = ⟨0, ["App.js"]⟩ := by decide
  unfold outputPath outputNames
  rw [hstd.entryComponent, hstd.moduleExtension, Path.ofString_name (isPlain_moduleName _)]
  split
  · rfl
  · split
    · rw [← Path.join_relative]
      exact congrArg p.output.join hentry
    · rw [Path.join_relative, ← Path.descend_descend]
      rfl

theorem isPlain_outputNames {names : List String} (h : ∀ s ∈ names, IsPlain s) : ∀ s ∈ p.outputNames names, IsPlain s := by
  unfold outputNames
  split
  · exact h
  · split
    · decide
    · exact List.forall_mem_append.2
        ⟨fun s hs => h s (List.dropLast_subset _ hs), List.forall_mem_singleton.2 (isPlain_moduleName _)⟩

theorem outputNames_ne_nil {names : List String} (h : names ≠ []) : p.outputNames names ≠ [] := by
  unfold outputNames
  split
  · exact h
  · split <;> simp

/-- The output of a file lies in a directory with a name for each of those the file lies in. -/
theorem exists_outputNames {names : List String} (hnames : ∀ s ∈ names, IsName s) (hne : names ≠ []) :
    ∃ init last, p.outputNames names = init ++ [last] ∧ (∀ s ∈ init, IsName s) ∧ IsPlain last := by
  obtain ⟨dir, name, rfl⟩ := List.eq_nil_or_concat names |>.resolve_left hne
  rw [List.concat_eq_append] at hnames ⊢
  have hdir : ∀ s ∈ dir, IsName s := fun s hs => hnames s (List.mem_append_left _ hs)
  unfold outputNames
  split
  · exact ⟨dir, name, rfl, hdir, (hnames name (by simp)).toIsPlain⟩
  · split
    · exact ⟨[], "App.js", rfl, by simp, by decide⟩
    · exact ⟨dir, _, by rw [List.dropLast_concat], hdir, isPlain_moduleName _⟩

/-- **No output is a document.** -/
theorem isPage_outputNames (hstd : p.rules.IsStandard) (names : List String) :
    p.isPage ⟨0, p.outputNames names⟩ = false := by
  unfold outputNames
  split
  · rename_i h
    simpa using h
  · split
    · unfold isPage
      rw [hstd.markupExtensions]
      decide
    · exact isPage_moduleName hstd ⟨0, names.dropLast⟩ _

theorem output_eq (hstd : p.rules.IsStandard) : p.output = p.dest.descend ["src"] := by
  have hsrc : Path.ofString "src" = ⟨0, ["src"]⟩ := by decide
  unfold output
  rw [hstd.outputSubdir, hsrc, Path.join_relative]

theorem routePath_eq (hstd : p.rules.IsStandard) :
    p.output.join (Path.ofString p.rules.routeModule) = p.output.descend ["index.js"] := by
  have hindex : Path.ofString "index.js" = ⟨0, ["index.js"]⟩ := by decide
  rw [hstd.routeModule, hindex, Path.join_relative]

end Project
end ReactSite
