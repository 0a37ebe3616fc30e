import ReactSite.Proofs.Locality
import ReactSite.Proofs.Room
/-!
# Layout — sites whose outputs keep out of each other's way

Over a longer time a source holds more files than at any one moment.  A layout says where the outputs of all of them go:
below the output directory, none in or above the place of another (`Layout`).  A tree whose output directory holds nothing
else (`Tidy`) has room for each of them (`Tidy.hasRoom`), and writing one of them keeps it so (`Tidy.putsOut`).  What an output is to
hold does not depend on what the output directory holds (`outputBytes_congr`).
-/
namespace ReactSite
namespace Project

open FileTree

/-- The names that lead from the output directory to the entry module. -/
def routeNames (p : Project) : List String := p.namesBelow p.routePath

/-- **Where the outputs of a site go.**  The files that the source ever holds are those that `F` tells, by the names that
lead to them from the source, which is at `base`; the output directory is at `out`. -/
structure Layout (p : Project) (F : List String → Prop) (base out : Location) : Prop where
  typed : p.rules.misnamed = []
  source : p.source.IsProper
  dest : p.dest.IsProper
  below : ¬ base <+: out
  above : ¬ out <+: base
  /-- The path of a source file is none that is refused. -/
  readable : ∀ a, F a → pathFault? (p.source.descend a) = none
  /-- Every output lies below the output directory, at a path that the file system takes. -/
  leads : ∀ a, F a → p.outputPath ⟨0, a⟩ = p.output.descend (p.outNames (p.source.descend a))
  fits : ∀ a, F a → Fits p.output (p.outNames (p.source.descend a))
  routeLeads : p.routePath = p.output.descend p.routeNames
  routeFits : Fits p.output p.routeNames
  /-- The outputs of different files are different, and none is a directory above another. -/
  apart : ∀ a b, F a → F b → p.outNames (p.source.descend a) <+: p.outNames (p.source.descend b) → a = b
  /-- So it is with the entry module. -/
  routeApart : ∀ a, F a →
    ¬ p.routeNames <+: p.outNames (p.source.descend a) ∧ ¬ p.outNames (p.source.descend a) <+: p.routeNames

/-- **A tree whose source stands**: source and output directory are in their places, the entry document is there, and there is
no file that the layout does not know. -/
structure Stands (p : Project) (F : List String → Prop) (base out : Location) (t : FileTree) : Prop where
  isTree : t.IsTree
  settled : p.IsSettled t.current
  source : t.locate p.source = .ok base
  sourceDir : t.get? base = some .directory
  output : t.locate p.output = .ok out
  outputDir : t.get? out = some .directory
  entry : ∃ a bytes, p.entryPath = p.source.descend a ∧ t.get? (base ++ a) = some (.file bytes)
  known : ∀ a bytes, t.get? (base ++ a) = some (.file bytes) → F a

/-- **A tree whose source can be converted**: the entry document is there, and every document converts without error and
has no link that leads out of the source. -/
structure Convertible (p : Project) (F : List String → Prop) (base out : Location) (t : FileTree) : Prop where
  isTree : t.IsTree
  /-- A path to a source file is read from the source itself, as it is when the source is an absolute path. -/
  settled : p.IsSettled t.current
  source : t.locate p.source = .ok base
  sourceDir : t.get? base = some .directory
  output : t.locate p.output = .ok out
  outputDir : t.get? out = some .directory
  entry : ∃ a bytes, p.entryPath = p.source.descend a ∧ t.get? (base ++ a) = some (.file bytes)
  known : ∀ a bytes, t.get? (base ++ a) = some (.file bytes) → F a
  converts : ∀ a bytes, t.get? (base ++ a) = some (.file bytes) → p.isPage (p.source.descend a) = true →
    ∃ text, p.convert t ⟨0, a⟩ bytes = .ok text
  inside : ∀ a bytes, t.get? (base ++ a) = some (.file bytes) → p.isPage (p.source.descend a) = true →
    p.StaysInside ⟨0, a⟩ bytes
  /-- No file that is copied is read-only. -/
  unlocked : ∀ a bytes, t.get? (base ++ a) = some (.file bytes) → p.isPage (p.source.descend a) = false → base ++ a ∉ t.locked

/-- The files below a place, by the names that lead to them, with their bytes. -/
def filesFrom (base : Location) (t : FileTree) : List (List String × List UInt8) :=
  t.entries.filterMap fun e => match t.get? e.1 with
    | some (.file bytes) => if base <+: e.1 then some (e.1.drop base.length, bytes) else none
    | _                  => none

theorem mem_filesFrom {base : Location} {t : FileTree} {f : List String × List UInt8} :
    f ∈ filesFrom base t ↔ t.get? (base ++ f.1) = some (.file f.2) := by
  unfold filesFrom
  rw [List.mem_filterMap]
  constructor
  · rintro ⟨e, -, he⟩
    split at he
    · next bytes hget =>
      obtain ⟨⟨names, hplace⟩, he⟩ := Option.ite_none_right_eq_some.1 he
      rw [← hplace, List.drop_left, Option.some.injEq] at he
      rw [← he, hplace, hget]
    · cases he
  · intro hget
    have hne : base ++ f.1 ≠ [] := by
      intro hnil
      rw [hnil, get?_root] at hget
      cases hget
    refine ⟨_, mem_entries_of_get? hne hget, ?_⟩
    rw [hget]
    simp

/-- Whether a source stands is decided by going through its files. -/
instance (p : Project) (F : List String → Prop) [DecidablePred F] (base out : Location) (t : FileTree) :
    Decidable (p.Stands F base out t) :=
  decidable_of_iff (t.IsTree ∧ p.IsSettled t.current ∧ t.locate p.source = .ok base ∧ t.get? base = some .directory ∧
      t.locate p.output = .ok out ∧ t.get? out = some .directory ∧
      (∃ f ∈ filesFrom base t, p.entryPath = p.source.descend f.1) ∧ ∀ f ∈ filesFrom base t, F f.1) (by
    simp only [mem_filesFrom, Prod.forall, Prod.exists]
    exact ⟨fun ⟨h₁, h₂, h₃, h₄, h₅, h₆, ⟨a, bytes, hfile, hentry⟩, h₈⟩ =>
        ⟨h₁, h₂, h₃, h₄, h₅, h₆, ⟨a, bytes, hentry, hfile⟩, h₈⟩,
      fun ⟨h₁, h₂, h₃, h₄, h₅, h₆, ⟨a, bytes, hentry, hfile⟩, h₈⟩ =>
        ⟨h₁, h₂, h₃, h₄, h₅, h₆, ⟨a, bytes, hfile, hentry⟩, h₈⟩⟩)

/-- Whether a source can be converted is decided by going through its files. -/
instance (p : Project) (F : List String → Prop) [DecidablePred F] (base out : Location) (t : FileTree) :
    Decidable (p.Convertible F base out t) :=
  decidable_of_iff (t.IsTree ∧ p.IsSettled t.current ∧ t.locate p.source = .ok base ∧ t.get? base = some .directory ∧
      t.locate p.output = .ok out ∧ t.get? out = some .directory ∧
      (∃ f ∈ filesFrom base t, p.entryPath = p.source.descend f.1) ∧ (∀ f ∈ filesFrom base t, F f.1) ∧
      (∀ f ∈ filesFrom base t, p.isPage (p.source.descend f.1) = true → (p.convert t ⟨0, f.1⟩ f.2).isOk) ∧
      (∀ f ∈ filesFrom base t, p.isPage (p.source.descend f.1) = true → p.StaysInside ⟨0, f.1⟩ f.2) ∧
      ∀ f ∈ filesFrom base t, p.isPage (p.source.descend f.1) = false → base ++ f.1 ∉ t.locked) (by
    simp only [mem_filesFrom, Prod.forall, Prod.exists, isOk_iff]
    exact ⟨fun ⟨h₁, h₂, h₃, h₄, h₅, h₆, ⟨a, bytes, hfile, hentry⟩, h₈, h₉, h₁₀, h₁₁⟩ =>
        ⟨h₁, h₂, h₃, h₄, h₅, h₆, ⟨a, bytes, hentry, hfile⟩, h₈, h₉, h₁₀, h₁₁⟩,
      fun ⟨h₁, h₂, h₃, h₄, h₅, h₆, ⟨a, bytes, hentry, hfile⟩, h₈, h₉, h₁₀, h₁₁⟩ =>
        ⟨h₁, h₂, h₃, h₄, h₅, h₆, ⟨a, bytes, hfile, hentry⟩, h₈, h₉, h₁₀, h₁₁⟩⟩)

/-- The place of an output, by the names that lead to it. -/
def IsPlace (p : Project) (F : List String → Prop) (names : List String) : Prop :=
  names = p.routeNames ∨ ∃ a, F a ∧ names = p.outNames (p.source.descend a)

/-- **Outputs are written**, and directories are made that lead to them; no file becomes read-only. -/
structure PutsOut (p : Project) (F : List String → Prop) (out : Location) (t t' : FileTree) : Prop where
  grown : Extends (fun l => ∃ m, p.IsPlace F m ∧ l = out ++ m) (fun l => ∃ m, p.IsPlace F m ∧ OnTheWay out m l) t t'
  locked : t'.locked = t.locked

/-- **A tree whose output directory holds outputs only**, and the directories that lead to them; none is read-only. -/
structure Tidy (p : Project) (F : List String → Prop) (out : Location) (t : FileTree) : Prop where
  unlocked : ∀ names, out ++ names ∉ t.locked
  files : ∀ names content, t.get? (out ++ names) = some (.file content) → p.IsPlace F names
  directories : ∀ names, t.get? (out ++ names) = some .directory → names = [] ∨ ∃ m, p.IsPlace F m ∧ names <+: m ∧ names ≠ m

variable {p : Project} {F : List String → Prop} {base out : Location} {t t' : FileTree} {a names : List String}
  {bytes : List UInt8}

namespace Layout

variable (h : p.Layout F base out)
include h

theorem eq_of_outNames_eq {a b : List String} (ha : F a) (hb : F b)
    (heq : p.outNames (p.source.descend a) = p.outNames (p.source.descend b)) : a = b :=
  h.apart a b ha hb ⟨[], by rw [List.append_nil, heq]⟩

theorem asked (use : NameUse) : p.rules.ask use = .ok () := ask_of_typed h.typed use

theorem routeNames_ne (ha : F a) : p.routeNames ≠ p.outNames (p.source.descend a) := fun heq =>
  (h.routeApart a ha).1 ⟨[], by rw [List.append_nil, heq]⟩

theorem output : p.output.IsProper := isProper_join h.dest (Path.isProper_ofString _)

theorem fits_of_isPlace (hplace : p.IsPlace F names) : Fits p.output names := by
  rcases hplace with rfl | ⟨a, ha, rfl⟩
  · exact h.routeFits
  · exact h.fits a ha

theorem eq_of_prefix {m n : List String} (hm : p.IsPlace F m) (hn : p.IsPlace F n) (hpre : m <+: n) : m = n := by
  rcases hm with rfl | ⟨a, ha, rfl⟩ <;> rcases hn with rfl | ⟨b, hb, rfl⟩
  · rfl
  · exact absurd hpre (h.routeApart b hb).1
  · exact absurd hpre (h.routeApart a ha).2
  · rw [h.apart a b ha hb hpre]

theorem not_isPlace_take (hplace : p.IsPlace F names) {k : Nat} (hk : k < names.length) : ¬ p.IsPlace F (names.take k) := by
  intro hway
  have hlen := congrArg List.length (h.eq_of_prefix hway hplace (List.take_prefix k names))
  rw [List.length_take] at hlen
  omega

theorem sameBelow_source (hgrown : Extends (out <+: ·) (out <+: ·) t t') : SameBelow base t t' :=
  hgrown.sameBelow (not_prefix_append h.below h.above) (not_prefix_append h.below h.above)

theorem get?_source (hgrown : Extends (out <+: ·) (out <+: ·) t t') (names : List String) :
    t'.get? (base ++ names) = t.get? (base ++ names) :=
  (h.sameBelow_source hgrown).get? names

end Layout

namespace PutsOut

theorem refl (p : Project) (F : List String → Prop) (out : Location) (t : FileTree) : p.PutsOut F out t t :=
  ⟨.refl _ _ _, rfl⟩

theorem trans {t'' : FileTree} (h : p.PutsOut F out t t') (h' : p.PutsOut F out t' t'') : p.PutsOut F out t t'' :=
  ⟨h.grown.trans h'.grown, h'.locked.trans h.locked⟩

theorem of_place (hplace : p.IsPlace F names) (hgrown : Extends (· = out ++ names) (OnTheWay out names) t t')
    (hlocked : t'.locked = t.locked) : p.PutsOut F out t t' :=
  ⟨hgrown.mono (fun _ hl => ⟨_, hplace, hl⟩) fun _ hl => ⟨_, hplace, hl⟩, hlocked⟩

theorem below (h : p.PutsOut F out t t') : Extends (out <+: ·) (out <+: ·) t t' := extends_below h.grown

end PutsOut

namespace Tidy

variable (hlayout : p.Layout F base out) (h : p.Tidy F out t)
include hlayout h

/-- **A tidy output directory has room for every output.** -/
theorem hasRoom (hplace : p.IsPlace F names) : HasRoom t out names := by
  refine ⟨fun k hk content hfile => ?_, fun hdir => ?_, h.unlocked names⟩
  · exact hlayout.not_isPlace_take hplace hk (h.files _ _ hfile)
  · rcases h.directories names hdir with hnil | ⟨m, hm, hpre, hne⟩
    · exact (hlayout.fits_of_isPlace hplace).ne_nil hnil
    · exact hne (hlayout.eq_of_prefix hplace hm hpre)

omit hlayout in
/-- **Writing outputs keeps an output directory tidy.** -/
theorem putsOut (hputs : p.PutsOut F out t t') : p.Tidy F out t' where
  unlocked := fun names => hputs.locked ▸ h.unlocked names
  files := by
    intro names content hfile
    rcases hputs.grown.change (out ++ names) with heq | ⟨-, hdir, -⟩ | ⟨-, -, m, hm, heq⟩
    · exact h.files names content (heq ▸ hfile)
    · rw [hdir] at hfile
      cases hfile
    · rwa [List.append_cancel_left heq]
  directories := by
    intro names hdir
    rcases hputs.grown.change (out ++ names) with heq | ⟨-, -, m, hm, j, hpos, hlt, heq⟩ | ⟨-, ⟨content, hfile⟩, -⟩
    · exact h.directories names (heq ▸ hdir)
    · refine .inr ⟨m, hm, ?_, ?_⟩
      · rw [List.append_cancel_left heq]
        exact List.take_prefix j m
      · rintro rfl
        exact ne_of_onTheWay ⟨j, hpos, hlt, heq⟩ rfl
    · rw [hfile] at hdir
      cases hdir

omit hlayout in
theorem congr (hout : SameBelow out t t') : p.Tidy F out t' :=
  ⟨fun names hl => h.unlocked names (hout.locked names hl),
    fun names content hget => h.files names content (hout.get? names ▸ hget),
    fun names hget => h.directories names (hout.get? names ▸ hget)⟩

omit hlayout in
theorem erase (ht : t.IsTree) {loc : Location} (hfile : t.get? loc = some (.file bytes)) : p.Tidy F out (t.erase loc) :=
  ⟨fun names hl => h.unlocked names (mem_locked_of_erase hl),
    fun names content hget => h.files names content (ht.get?_of_erase_file hfile hget),
    fun names hget => h.directories names (ht.get?_of_erase_file hfile hget)⟩

end Tidy

namespace Stands

variable (hlayout : p.Layout F base out) (h : p.Stands F base out t)
include hlayout h

omit hlayout in
theorem names_of_file (hfile : t.get? (base ++ a) = some (.file bytes)) : a ≠ [] ∧ ∀ s ∈ a, IsName s :=
  h.isTree.names_of_file h.sourceDir hfile

theorem node?_of_file (hfile : t.get? (base ++ a) = some (.file bytes)) :
    t.node? (p.source.descend a) = some (.file bytes) :=
  node?_eq_some.2 ⟨_, locate_of_get? h.isTree h.source (hlayout.readable a (h.known a bytes hfile)) hfile, hfile⟩

/-- **The source files are the files below the source.** -/
theorem mem_sourceFiles {path : Path} :
    path ∈ p.sourceFiles t ↔ ∃ a bytes, path = p.source.descend a ∧ t.get? (base ++ a) = some (.file bytes) := by
  rw [Project.mem_sourceFiles h.isTree h.source]
  constructor
  · rintro ⟨dir, name, content, rfl, -, hget⟩
    exact ⟨dir ++ [name], content, rfl, hget⟩
  · rintro ⟨a, bytes, rfl, hfile⟩
    obtain ⟨dir, name, rfl⟩ := List.eq_nil_or_concat a |>.resolve_left (h.names_of_file hfile).1
    rw [List.concat_eq_append] at *
    have hfault := hlayout.readable _ (h.known _ _ hfile)
    rw [← Path.descend_descend] at hfault
    exact ⟨dir, name, bytes, rfl, pathFault?_of_descend hfault, hfile⟩

omit hlayout in
theorem relative_eq (hnames : ∀ s ∈ names, IsName s) : p.relative t.current (p.source.descend names) = .ok ⟨0, names⟩ :=
  relative_descend h.settled (hasNul_of_pathFault? (locate_eq_ok.1 h.source).1) hnames

theorem destination_eq (ha : F a) (hnames : ∀ s ∈ a, IsName s) : p.destination t.current (p.source.descend a) =
    .ok (p.output.descend (p.outNames (p.source.descend a))) := by
  exact (destination_eq_ok p).2
    ⟨_, h.relative_eq hnames, checkName_of_typed p hlayout.typed _, (hlayout.leads a ha).symm⟩

theorem isFile_entry : t.isFile p.entryPath = true := by
  obtain ⟨a, bytes, hentry, hfile⟩ := h.entry
  rw [hentry, isFile_iff]
  exact ⟨bytes, h.node?_of_file hlayout hfile⟩

omit hlayout in
/-- **Whether a source stands does not depend on what stands elsewhere.** -/
theorem congr (ht' : t'.IsTree) (hcurrent : t'.current = t.current) (hsource' : t'.locate p.source = .ok base)
    (houtput' : t'.locate p.output = .ok out) (hdir' : t'.get? out = some .directory)
    (hsame : ∀ names, t'.get? (base ++ names) = t.get? (base ++ names)) : p.Stands F base out t' where
  isTree := ht'
  settled := hcurrent ▸ h.settled
  source := hsource'
  sourceDir := by
    have hbase := hsame []
    rw [List.append_nil] at hbase
    rw [hbase, h.sourceDir]
  output := houtput'
  outputDir := hdir'
  entry := by
    obtain ⟨a, bytes, hentry, hfile⟩ := h.entry
    exact ⟨a, bytes, hentry, by rw [hsame, hfile]⟩
  known := fun a bytes hfile => h.known a bytes (hsame a ▸ hfile)

theorem grown (hgrown : Extends (out <+: ·) (out <+: ·) t t') : p.Stands F base out t' :=
  h.congr (hgrown.isTree h.isTree) hgrown.current (hgrown.locate h.source) (hgrown.locate h.output)
    (hgrown.directory h.outputDir) (hlayout.get?_source hgrown)

end Stands

namespace Convertible

variable (hlayout : p.Layout F base out) (h : p.Convertible F base out t)
include hlayout h

omit hlayout in
theorem stands : p.Stands F base out t :=
  ⟨h.isTree, h.settled, h.source, h.sourceDir, h.output, h.outputDir, h.entry, h.known⟩

/-- **Every source file has something to put out.** -/
theorem exists_outputBytes (hfile : t.get? (base ++ a) = some (.file bytes)) :
    ∃ content, p.outputBytes t (p.source.descend a) = some content := by
  have hnode := h.stands.node?_of_file hlayout hfile
  unfold outputBytes
  cases hkind : p.isPage (p.source.descend a) with
  | true =>
    obtain ⟨text, htext⟩ := h.converts a bytes hfile hkind
    have hmodule : p.moduleOf t ⟨0, a⟩ = .ok text := (moduleOf_eq_ok p).2 ⟨bytes, hnode, htext⟩
    rw [if_pos rfl, visitedPath_descend, hmodule]
    exact ⟨_, rfl⟩
  | false =>
    rw [if_neg (by simp), hnode]
    exact ⟨_, rfl⟩

/-- **What the output of a file is to hold** depends on the bytes of the file and on where entries stand below the
source. -/
theorem outputBytes_congr (halike : Alike base t t') (ht' : t'.IsTree) (hsource' : t'.locate p.source = .ok base)
    (hfile : t.get? (base ++ a) = some (.file bytes)) (hfile' : t'.get? (base ++ a) = some (.file bytes)) :
    p.outputBytes t (p.source.descend a) = p.outputBytes t' (p.source.descend a) := by
  have hnode := h.stands.node?_of_file hlayout hfile
  have hnode' : t'.node? (p.source.descend a) = some (.file bytes) :=
    node?_eq_some.2 ⟨_, locate_of_get? ht' hsource' (hlayout.readable a (h.known a bytes hfile)) hfile', hfile'⟩
  unfold outputBytes
  cases hkind : p.isPage (p.source.descend a) with
  | false =>
    rw [hnode, hnode', if_neg (by simp), if_neg (by simp)]
  | true =>
    obtain ⟨text, htext⟩ := h.converts a bytes hfile hkind
    have htext' := htext
    rw [convert_congr hlayout.source halike h.source hsource' (h.inside a bytes hfile hkind)] at htext'
    have hmodule : p.moduleOf t ⟨0, a⟩ = .ok text := (moduleOf_eq_ok p).2 ⟨bytes, hnode, htext⟩
    have hmodule' : p.moduleOf t' ⟨0, a⟩ = .ok text := (moduleOf_eq_ok p).2 ⟨bytes, hnode', htext'⟩
    rw [visitedPath_descend, hmodule, hmodule', if_pos rfl, if_pos rfl]

/-- **Whether a source can be converted does not depend on what stands elsewhere.** -/
theorem congr (ht' : t'.IsTree) (hsource' : t'.locate p.source = .ok base) (houtput' : t'.locate p.output = .ok out)
    (hdir' : t'.get? out = some .directory) (hsame : SameBelow base t t') : p.Convertible F base out t' := by
  obtain ⟨hisTree, hsettled, hsource, hsourceDir, houtput, houtputDir, hentry, hknown⟩ :=
    h.stands.congr ht' hsame.current hsource' houtput' hdir' hsame.get?
  refine ⟨hisTree, hsettled, hsource, hsourceDir, houtput, houtputDir, hentry, hknown, fun a bytes hfile hkind => ?_,
    fun a bytes hfile => h.inside a bytes (hsame.get? a ▸ hfile),
    fun a bytes hfile hkind hl => h.unlocked a bytes (hsame.get? a ▸ hfile) hkind (hsame.locked a hl)⟩
  rw [hsame.get?] at hfile
  rw [← convert_congr hlayout.source (.of_get? fun names => (hsame.get? names).symm) h.source hsource'
    (h.inside a bytes hfile hkind)]
  exact h.converts a bytes hfile hkind

theorem grown (hgrown : Extends (out <+: ·) (out <+: ·) t t') : p.Convertible F base out t' :=
  h.congr hlayout (hgrown.isTree h.isTree) (hgrown.locate h.source) (hgrown.locate h.output)
    (hgrown.directory h.outputDir) (hlayout.sameBelow_source hgrown)

end Convertible

end Project
end ReactSite
