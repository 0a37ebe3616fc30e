import ReactSite.Proofs.Rebuilding
import ReactSite.Watch
/-!
# Upkeep — an output directory in step with its source

An output directory is in step with the source when it holds the output of every source file, the entry module, and no other
file (`InSync`): this tells its files by the source alone (`InSync.file_iff`).  A pass brings about this state from any in which
no file is left over (`kept_of_buildAlone`).  The conversion of one file keeps it when the bytes of that file have changed
(`kept_of_overwritten`), and a pass without assets, with the removal of one output, keeps it when that file is gone
(`kept_of_deleted`).
-/
namespace ReactSite
namespace Project

open FileTree

/-- **An output directory in step with the source.** -/
structure InSync (p : Project) (out : Location) (t : FileTree) : Prop where
  outputs : ∀ path ∈ p.sourceFiles t, ∃ bytes, p.outputBytes t path = some bytes ∧
    t.get? (out ++ p.outNames path) = some (.file bytes)
  entryModule : t.get? (out ++ p.routeNames) = some (.file (Text.encode (p.entryModuleOf t)))
  only : ∀ names content, t.get? (out ++ names) = some (.file content) → p.Writes true t names

/-- **A site that is kept**: its source can be converted, and its output directory is tidy and in step. -/
structure Kept (p : Project) (F : List String → Prop) (base out : Location) (t : FileTree) : Prop where
  convertible : p.Convertible F base out t
  tidy : p.Tidy F out t
  inSync : p.InSync out t

variable {p : Project} {copyStatic : Bool} {F : List String → Prop} {base out : Location} {t t' : FileTree} {w : Workspace}
  {a names : List String} {content : List UInt8} (hlayout : p.Layout F base out)
include hlayout

/-! ## What the source tells -/

section

variable (h : p.Convertible F base out t) (h' : p.Convertible F base out t')
  (hsame : ∀ names, t'.get? (base ++ names) = t.get? (base ++ names))
include h h' hsame

omit hlayout in
theorem sourceFiles_same : p.sourceFiles t' = p.sourceFiles t :=
  sourceFiles_eq (.of_get? hsame) h'.isTree h.isTree h'.source h.source

theorem outputBytes_same {path : Path} (hpath : path ∈ p.sourceFiles t) : p.outputBytes t' path = p.outputBytes t path := by
  obtain ⟨a, bytes, rfl, hfile⟩ := (h.stands.mem_sourceFiles hlayout).1 hpath
  exact (h.outputBytes_congr hlayout (.of_get? fun names => (hsame names).symm) h'.isTree h'.source hfile
    (by rw [hsame, hfile])).symm

omit hlayout in
theorem entryModuleOf_same : p.entryModuleOf t' = p.entryModuleOf t := by
  unfold entryModuleOf
  rw [sourceFiles_same h h' hsame]

theorem file_of_inSync (hsync : p.InSync out t) (hsync' : p.InSync out t')
    (hfile : t.get? (out ++ names) = some (.file content)) : t'.get? (out ++ names) = some (.file content) := by
  rcases hsync.only names content hfile with rfl | ⟨path, hpath, -, rfl⟩
  · rw [hsync'.entryModule, entryModuleOf_same h h' hsame, ← hsync.entryModule, hfile]
  · obtain ⟨bytes, hbytes, hplace⟩ := hsync.outputs path hpath
    obtain ⟨bytes', hbytes', hplace'⟩ := hsync'.outputs path (by rwa [sourceFiles_same h h' hsame])
    rw [outputBytes_same hlayout h h' hsame hpath, hbytes, Option.some.injEq] at hbytes'
    rw [hplace', ← hbytes', ← hplace, hfile]

/-- **The files below an output directory that is in step are told by the source.** -/
theorem InSync.file_iff (hsync : p.InSync out t) (hsync' : p.InSync out t') :
    t.get? (out ++ names) = some (.file content) ↔ t'.get? (out ++ names) = some (.file content) :=
  ⟨file_of_inSync hlayout h h' hsame hsync hsync',
    file_of_inSync hlayout h' h (fun names => (hsame names).symm) hsync' hsync⟩

end

/-! ## Passes -/

omit hlayout in
theorem Rebuilt.below (h : p.Rebuilt copyStatic out t t') : Extends (out <+: ·) (out <+: ·) t t' := extends_below h.grown

omit hlayout in
theorem Rebuilt.file_cases (h : p.Rebuilt copyStatic out t t') (hfile : t'.get? (out ++ names) = some (.file content)) :
    t.get? (out ++ names) = some (.file content) ∨ p.Writes copyStatic t names := by
  by_cases hwrites : p.Writes copyStatic t names
  · exact .inr hwrites
  · refine .inl ((h.grown.file_iff ?_ content).1 hfile)
    rintro ⟨m, hm, heq⟩
    exact hwrites (List.append_cancel_left heq ▸ hm)

/-- **A pass brings the output directory in step**, if no file was left over. -/
theorem kept_of_buildAlone (h : p.Convertible F base out w.files) (htidy : p.Tidy F out w.files)
    (honly : ∀ names content, w.files.get? (out ++ names) = some (.file content) → p.Writes true w.files names) :
    ∃ r w', (p.buildAlone true).run.run w = (.ok r, w') ∧ r.failures = [] ∧ p.Kept F base out w'.files ∧
      ∀ names, w'.files.get? (base ++ names) = w.files.get? (base ++ names) := by
  obtain ⟨r, w', hrun, hfailures, hbuilt, htidy'⟩ := buildAlone_ok hlayout h htidy true
  have h' := h.grown hlayout hbuilt.below
  have hsame := hlayout.get?_source hbuilt.below
  refine ⟨r, w', hrun, hfailures, ⟨h', htidy', ⟨?_, ?_, ?_⟩⟩, hsame⟩
  · rw [sourceFiles_same h h' hsame]
    intro path hpath
    obtain ⟨a, bytes, rfl, hfile⟩ := (h.stands.mem_sourceFiles hlayout).1 hpath
    obtain ⟨content, hcontent⟩ := h.exists_outputBytes hlayout hfile
    exact ⟨content, by rw [outputBytes_same hlayout h h' hsame hpath, hcontent],
      hbuilt.outputs _ hpath (by simp [treats]) content hcontent⟩
  · rw [entryModuleOf_same h h' hsame, hbuilt.entryModule]
  · unfold Writes
    rw [sourceFiles_same h h' hsame]
    intro names content hfile
    exact (hbuilt.file_cases hfile).elim (honly names content) id

/-! ## Taking an output away -/

theorem clearOutput_ok (h : p.Stands F base out w.files) (ha : F a) (hnames : ∀ s ∈ a, IsName s)
    (hthere : w.files.get? (out ++ p.outNames (p.source.descend a)) = some (.file content)) :
    ∃ r, (p.clearOutput (p.source.descend a)).run.run w =
      (.ok r, { w with files := w.files.erase (out ++ p.outNames (p.source.descend a)) }) := by
  have hloc := locate_of_get? h.isTree h.output (hlayout.fits a ha).fault hthere
  exact ⟨_, run_clearOutput_of_locate p (h.destination_eq hlayout ha hnames) hloc hthere⟩

theorem sameBelow_erase (ht : t.IsTree) (hfile : t.get? (out ++ names) = some (.file content)) :
    SameBelow base t (t.erase (out ++ names)) := by
  refine ⟨current_erase, fun more => ?_, fun more hl => mem_locked_of_erase hl⟩
  rw [ht.get?_erase_file hfile, if_neg]
  intro heq
  exact not_prefix_append hlayout.below hlayout.above more (heq ▸ List.prefix_append _ _)

/-- **A source stands without an output.** -/
theorem stands_erase (h : p.Stands F base out t) (hfile : t.get? (out ++ names) = some (.file content)) :
    p.Stands F base out (t.erase (out ++ names)) := by
  obtain ⟨hsource, -⟩ := locate_erase_file h.isTree hfile h.source h.sourceDir
  obtain ⟨hout, hdir⟩ := locate_erase_file h.isTree hfile h.output h.outputDir
  exact h.congr (h.isTree.erase_file hfile) current_erase hsource hout hdir (sameBelow_erase hlayout h.isTree hfile).get?

theorem convertible_erase (h : p.Convertible F base out t) (hfile : t.get? (out ++ names) = some (.file content)) :
    p.Convertible F base out (t.erase (out ++ names)) := by
  have herased := stands_erase hlayout h.stands hfile
  exact h.congr hlayout herased.isTree herased.source herased.output herased.outputDir
    (sameBelow_erase hlayout h.isTree hfile)

/-! ## Events -/

omit hlayout in
theorem run_quietly {α : Type} (action : Action α) (w : Workspace) :
    (Watch.quietly action).run.run w = (.ok (), (action.run.run w).2) := by
  unfold Watch.quietly
  rw [run_tryCatch, Action.run_discard]
  rcases action.run.run w with ⟨f | x, w'⟩ <;> rfl

omit hlayout in
theorem run_afterDeletion (path : Path) (w : Workspace) : (Watch.afterDeletion p path).run.run w =
    (.ok (), ((p.clearOutput path).run.run ((p.buildAlone false).run.run w).2).2) := by
  unfold Watch.afterDeletion
  rw [run_bind, run_quietly]
  exact run_quietly _ _

section

variable (h : p.Convertible F base out w.files) (htidy : p.Tidy F out w.files) (ha : F a) (hnames : ∀ s ∈ a, IsName s)
  (hthere : w.files.get? (out ++ p.outNames (p.source.descend a)) = some (.file content))
include h htidy ha hnames hthere

/-- **After a deletion the output of the file is gone**, and the rest is rebuilt without assets. -/
theorem exists_cleared : ∃ t₂ w₃ content', p.Rebuilt false out w.files t₂ ∧ p.Tidy F out t₂ ∧
    t₂.get? (out ++ p.outNames (p.source.descend a)) = some (.file content') ∧
    (Watch.afterDeletion p (p.source.descend a)).run.run w = (.ok (), w₃) ∧
    w₃.files = t₂.erase (out ++ p.outNames (p.source.descend a)) := by
  obtain ⟨r, w₂, hrun, -, hbuilt, htidy₂⟩ := buildAlone_ok hlayout h htidy false
  obtain ⟨content', hthere₂⟩ := hbuilt.grown.exists_file hthere
  obtain ⟨r', hclear⟩ := clearOutput_ok hlayout (h.grown hlayout hbuilt.below).stands ha hnames hthere₂
  refine ⟨w₂.files, { w₂ with files := w₂.files.erase (out ++ p.outNames (p.source.descend a)) }, content', hbuilt, htidy₂,
    hthere₂, ?_, rfl⟩
  rw [run_afterDeletion, hrun, hclear]

/-- **After a deletion nothing is left over**, if nothing but the output of the file was. -/
theorem afterDeletion_ok (honly : ∀ names content, w.files.get? (out ++ names) = some (.file content) →
      p.Writes true w.files names ∨ names = p.outNames (p.source.descend a)) :
    ∃ w₃, (Watch.afterDeletion p (p.source.descend a)).run.run w = (.ok (), w₃) ∧ p.Convertible F base out w₃.files ∧
      p.Tidy F out w₃.files ∧ (∀ names, w₃.files.get? (base ++ names) = w.files.get? (base ++ names)) ∧
      ∀ names content, w₃.files.get? (out ++ names) = some (.file content) → p.Writes true w₃.files names := by
  obtain ⟨t₂, w₃, content', hbuilt, htidy₂, hthere₂, hrun, hfiles⟩ := exists_cleared hlayout h htidy ha hnames hthere
  have h₂ := h.grown hlayout hbuilt.below
  have hsame₂ := hlayout.get?_source hbuilt.below
  have h₃ := convertible_erase hlayout h₂ hthere₂
  have hsame : ∀ names, w₃.files.get? (base ++ names) = w.files.get? (base ++ names) := fun names => by
    rw [hfiles, (sameBelow_erase hlayout h₂.isTree hthere₂).get?, hsame₂]
  rw [← hfiles] at h₃
  refine ⟨w₃, hrun, h₃, hfiles ▸ htidy₂.erase h₂.isTree hthere₂, hsame, fun names content hfile => ?_⟩
  rw [hfiles, h₂.isTree.get?_erase_file hthere₂] at hfile
  split at hfile
  · cases hfile
  · rename_i hne
    have hwrites : p.Writes true w.files names := by
      rcases hbuilt.file_cases hfile with hold | hroute | ⟨path, hpath, -, hplace⟩
      · exact (honly names content hold).resolve_right fun heq => hne (by rw [heq])
      · exact .inl hroute
      · exact .inr ⟨path, hpath, by simp [treats], hplace⟩
    unfold Writes at hwrites ⊢
    rwa [sourceFiles_same h h₃ hsame]

/-- **A deletion is followed up**: when the file is gone and the copies of the assets are right, the output directory is in
step again. -/
theorem kept_of_deleted (hgone : ∀ bytes, w.files.get? (base ++ a) ≠ some (.file bytes))
    (hassets : ∀ path ∈ p.sourceFiles w.files, p.isPage path = false → ∃ bytes, p.outputBytes w.files path = some bytes ∧
      w.files.get? (out ++ p.outNames path) = some (.file bytes))
    (honly : ∀ names content, w.files.get? (out ++ names) = some (.file content) →
      p.Writes true w.files names ∨ names = p.outNames (p.source.descend a)) :
    ∃ w₃, (Watch.afterDeletion p (p.source.descend a)).run.run w = (.ok (), w₃) ∧ p.Kept F base out w₃.files := by
  obtain ⟨w₃, hrun, h₃, htidy₃, hsame, honly₃⟩ := afterDeletion_ok hlayout h htidy ha hnames hthere honly
  obtain ⟨t₂, w₃', content', hbuilt, -, hthere₂, hrun', hfiles⟩ := exists_cleared hlayout h htidy ha hnames hthere
  obtain rfl : w₃ = w₃' := by
    rw [hrun] at hrun'
    exact congrArg Prod.snd hrun'
  have hleft : ∀ l, l ≠ out ++ p.outNames (p.source.descend a) → w₃.files.get? l = t₂.get? l := fun l hne => by
    rw [hfiles, (hbuilt.below.isTree h.isTree).get?_erase_file hthere₂, if_neg hne]
  refine ⟨w₃, hrun, h₃, htidy₃, ⟨?_, ?_, honly₃⟩⟩
  · rw [sourceFiles_same h h₃ hsame]
    intro path hpath
    rw [outputBytes_same hlayout h h₃ hsame hpath]
    obtain ⟨b, bytes, rfl, hfile⟩ := (h.stands.mem_sourceFiles hlayout).1 hpath
    have hb := h.known b bytes hfile
    have hne : out ++ p.outNames (p.source.descend b) ≠ out ++ p.outNames (p.source.descend a) := by
      intro heq
      have hab := hlayout.eq_of_outNames_eq hb ha (List.append_cancel_left heq)
      exact hgone bytes (hab ▸ hfile)
    rw [hleft _ hne]
    cases hkind : p.isPage (p.source.descend b) with
    | true =>
      obtain ⟨content, hcontent⟩ := h.exists_outputBytes hlayout hfile
      exact ⟨content, hcontent, hbuilt.outputs _ hpath (by simp [treats, hkind]) content hcontent⟩
    | false =>
      obtain ⟨content, hcontent, hplace⟩ := hassets _ hpath hkind
      refine ⟨content, hcontent, (hbuilt.grown.file_iff ?_ content).2 hplace⟩
      -- no document and no entry module has the place of the asset
      rintro ⟨m, hm, heq⟩
      have hplaces : p.outNames (p.source.descend b) = m := List.append_cancel_left heq
      rcases hm with rfl | ⟨path, hpath', htreats, rfl⟩
      · exact hlayout.routeNames_ne hb hplaces.symm
      · obtain ⟨c, bytes', rfl, hfile'⟩ := (h.stands.mem_sourceFiles hlayout).1 hpath'
        have hbc := hlayout.eq_of_outNames_eq hb (h.known c bytes' hfile') hplaces
        simp [treats, ← hbc, hkind] at htreats
  · have hne : out ++ p.routeNames ≠ out ++ p.outNames (p.source.descend a) := fun heq =>
      hlayout.routeNames_ne ha (List.append_cancel_left heq)
    rw [hleft _ hne, hbuilt.entryModule, entryModuleOf_same h h₃ hsame]

end

/-- **One output is brought up to date** by converting or copying its file. -/
theorem exists_updated (h : p.Convertible F base out w.files) (htidy : p.Tidy F out w.files) {bytes : List UInt8}
    (hfile : w.files.get? (base ++ a) = some (.file bytes)) :
    ∃ w' content, (Watch.afterChange p (p.source.descend a)).run.run w = (.ok (), w') ∧
      p.outputBytes w.files (p.source.descend a) = some content ∧
      Extends (· = out ++ p.outNames (p.source.descend a)) (OnTheWay out (p.outNames (p.source.descend a))) w.files w'.files ∧
      w'.files.locked = w.files.locked ∧ w'.files.get? (out ++ p.outNames (p.source.descend a)) = some (.file content) := by
  have hF := h.known a bytes hfile
  have hfits := hlayout.fits a hF
  have hnode := h.stands.node?_of_file hlayout hfile
  unfold Watch.afterChange outputBytes
  rw [run_quietly, visitedPath_descend]
  cases hkind : p.isPage (p.source.descend a) with
  | true =>
    obtain ⟨target, w', hrun⟩ := convertPage_source_ok hlayout h htidy hfile false hkind
    obtain ⟨text, hmodule, hgrown, hplaced, -⟩ := convertPage_places h.isTree h.output
      (h.stands.relative_eq (h.stands.names_of_file hfile).2) (hlayout.leads a hF) (hfits.namesEntry hlayout.output)
      hfits.isPlain hrun
    have hlocked := locked_convertPage (p := p) false (p.source.descend a) w
    rw [hrun] at hlocked
    refine ⟨w', Text.encode text, ?_, ?_, hgrown, hlocked, hplaced⟩
    · rw [if_pos rfl, hrun]
    · rw [if_pos rfl, hmodule]
      rfl
  | false =>
    obtain ⟨target, w', hrun, hgrown, hplaced, hlocked⟩ := placeAsset_source_ok hlayout h htidy hfile hkind
    refine ⟨w', bytes, ?_, ?_, hgrown, hlocked, hplaced⟩
    · rw [if_neg (by simp), hrun]
    · rw [if_neg (by simp), hnode]

omit hlayout in
theorem alike_of_overwritten {old bytes : List UInt8} (hold : t.get? (base ++ a) = some (.file old))
    (hfile : t'.get? (base ++ a) = some (.file bytes)) (hsame : ∀ l, l ≠ base ++ a → t'.get? l = t.get? l) : Alike base t t' := by
  intro names
  by_cases heq : names = a
  · rw [heq, hold, hfile]
    rfl
  · rw [hsame _ fun hcat => heq (List.append_cancel_left hcat)]

/-- **An overwriting is followed up**: when only the bytes of one file have changed, converting or copying that file brings the
output directory in step again. -/
theorem kept_of_overwritten (hkept : p.Kept F base out t) (h : p.Convertible F base out w.files) {old bytes : List UInt8}
    (hold : t.get? (base ++ a) = some (.file old)) (hfile : w.files.get? (base ++ a) = some (.file bytes))
    (hsame : ∀ l, l ≠ base ++ a → w.files.get? l = t.get? l) (hout : SameBelow out t w.files) :
    ∃ w', (Watch.afterChange p (p.source.descend a)).run.run w = (.ok (), w') ∧ p.Kept F base out w'.files := by
  have ha := h.known a bytes hfile
  have htidy : p.Tidy F out w.files := hkept.tidy.congr hout
  have halike := alike_of_overwritten hold hfile hsame
  obtain ⟨w', content, hrun, hcontent, hgrown, hlocked, hplaced⟩ := exists_updated hlayout h htidy hfile
  have hputs : p.PutsOut F out w.files w'.files := .of_place (.inr ⟨a, ha, rfl⟩) hgrown hlocked
  have hbelow := hputs.below
  have h' := h.grown hlayout hbelow
  have hsame' := hlayout.get?_source hbelow
  have hsources : p.sourceFiles w.files = p.sourceFiles t :=
    (sourceFiles_eq halike hkept.convertible.isTree h.isTree hkept.convertible.source h.source).symm
  -- every other file stays
  have hother : ∀ names content', names ≠ p.outNames (p.source.descend a) →
      (w'.files.get? (out ++ names) = some (.file content') ↔ t.get? (out ++ names) = some (.file content')) := by
    intro names content' hne
    rw [hgrown.file_iff (fun heq => hne (List.append_cancel_left heq)), hout.get?]
  refine ⟨w', hrun, h', htidy.putsOut hputs, ⟨?_, ?_, ?_⟩⟩
  · rw [sourceFiles_same h h' hsame']
    intro path hpath
    rw [outputBytes_same hlayout h h' hsame' hpath]
    obtain ⟨b, bytes', rfl, hfile'⟩ := (h.stands.mem_sourceFiles hlayout).1 hpath
    by_cases heq : b = a
    · rw [heq]
      exact ⟨content, hcontent, hplaced⟩
    · obtain ⟨content', hcontent', hget⟩ := hkept.inSync.outputs _ (hsources ▸ hpath)
      have hfile₀ : t.get? (base ++ b) = some (.file bytes') := by
        rw [← hsame _ fun hcat => heq (List.append_cancel_left hcat), hfile']
      refine ⟨content', ?_, (hother _ _ fun hnames => heq ?_).2 hget⟩
      · rw [← hkept.convertible.outputBytes_congr hlayout halike h.isTree h.source hfile₀ hfile', hcontent']
      · exact hlayout.eq_of_outNames_eq (h.known b bytes' hfile') ha hnames
  · rw [entryModuleOf_same h h' hsame']
    have hmodule : p.entryModuleOf w.files = p.entryModuleOf t := by
      unfold entryModuleOf
      rw [hsources]
    rw [hmodule]
    exact (hother _ _ (hlayout.routeNames_ne ha)).2 hkept.inSync.entryModule
  · unfold Writes
    rw [sourceFiles_same h h' hsame', hsources]
    intro names content' hget
    by_cases heq : names = p.outNames (p.source.descend a)
    · refine .inr ⟨p.source.descend a, ?_, by simp [treats], heq⟩
      rw [← hsources]
      exact (h.stands.mem_sourceFiles hlayout).2 ⟨a, bytes, rfl, hfile⟩
    · exact hkept.inSync.only names content' ((hother _ _ heq).1 hget)

end Project
end ReactSite
