import ReactSite.Proofs.Steps
/-!
# Committing — a conversion is all or nothing

A conversion changes its workspace at the very end: when the module is there it makes the directories that are missing
(`furnished_makeDirectories`), writes one file (`writesOne_writeText`), and registers the route.  Each of these may fail
only before it changes any file.  So a conversion that fails has left every file and every route as it was, and one that
comes out well has written the module at the document's destination, and nothing else (`convertPage_all_or_nothing`).
Nothing is asked of the tree, the paths or the rules.
-/
namespace ReactSite
namespace FileTree

variable {t t' t'' : FileTree} {p : Path} {loc l : Location} {content : List UInt8}

/-! ## Nothing but directories -/

/-- **At a place nothing has happened**, or a directory was made where nothing stood. -/
def Furnished (t t' : FileTree) (l : Location) : Prop :=
  t'.get? l = t.get? l ∨ (t.get? l = none ∧ t'.get? l = some .directory)

namespace Furnished

theorem trans (h : Furnished t t' l) (h' : Furnished t' t'' l) : Furnished t t'' l := by
  rcases h' with h' | ⟨hnone, hdir⟩
  · unfold Furnished
    rwa [h']
  · rcases h with h | ⟨-, h⟩
    · exact .inr ⟨by rw [← h, hnone], hdir⟩
    · rw [h] at hnone
      cases hnone

/-- **No file comes, goes or changes.** -/
theorem file_iff (h : Furnished t t' l) (content : List UInt8) :
    t'.get? l = some (.file content) ↔ t.get? l = some (.file content) := by
  rcases h with h | ⟨hnone, hdir⟩
  · rw [h]
  · simp [hnone, hdir]

end Furnished

theorem furnished_put_directory (hnone : t.get? loc = none) (l : Location) : Furnished t (t.put loc .directory) l := by
  by_cases hl : l = loc
  · subst hl
    have hne : l ≠ [] := ne_nil_of_not_directory (t := t) (by simp [hnone])
    exact .inr ⟨hnone, get?_put_self hne⟩
  · exact .inl (get?_put_of_ne hl)

/-- **Making directories** touches no file, wherever it stops. -/
theorem furnished_makeDirectories (p : Path) (t : FileTree) :
    ∀ l, Furnished t ((makeDirectories p).run.run t).2 l := by
  refine makeDirectories_induction (P := fun t' => ∀ l, Furnished t t' l) ?start ?make
  case start => exact fun l => .inl rfl
  case make =>
    intro _ t' loc h _ hnone l
    exact (h l).trans (furnished_put_directory hnone l)

/-! ## One file -/

/-- **One file was written**, at the place that a path leads to: no directory stood there, and elsewhere directories were
made at most. -/
def WritesOne (p : Path) (content : List UInt8) (t t' : FileTree) : Prop :=
  ∃ loc, t'.locate p = .ok loc ∧ t.get? loc ≠ some .directory ∧ t'.get? loc = some (.file content) ∧
    ∀ l, l ≠ loc → Furnished t t' l

/-- A file that is put where no directory stood is in nobody's way. -/
theorem keepsWays_put_file (hdir : t.get? loc ≠ some .directory) : KeepsWays t (t.put loc (.file content)) where
  current := current_put
  directory := by
    intro l hl
    have hne : l ≠ loc := by
      rintro rfl
      exact hdir hl
    rw [get?_put_of_ne hne, hl]
  isSome := by
    intro l hl
    by_cases heq : l = loc
    · subst heq
      simp [get?_put_self (ne_nil_of_not_directory hdir)]
    · rwa [get?_put_of_ne heq]

theorem writesOne_put (hslot : t.slot p = .ok loc) (hdir : t.get? loc ≠ some .directory) (content : List UInt8) :
    WritesOne p content t (t.put loc (.file content)) := by
  have hput : (t.put loc (.file content)).get? loc = some (.file content) :=
    get?_put_self (ne_nil_of_not_directory hdir)
  have hlocate : (t.put loc (.file content)).locate p = .ok loc :=
    locate_of_slot ((keepsWays_put_file hdir).slot hslot) (by simp [hput])
  exact ⟨loc, hlocate, hdir, hput, fun l hl => .inl (get?_put_of_ne hl)⟩

/-- Directories that were made before do not count. -/
theorem WritesOne.of_furnished (h : ∀ l, Furnished t t' l) (hw : WritesOne p content t' t'') : WritesOne p content t t'' := by
  obtain ⟨loc, hloc, hdir, hfile, helse⟩ := hw
  refine ⟨loc, hloc, fun hd => hdir ?_, hfile, fun l hl => (h l).trans (helse l hl)⟩
  rcases h loc with heq | ⟨hnone, -⟩
  · rw [heq, hd]
  · rw [hd] at hnone
    cases hnone

/-- **Writing a text** writes the one file, or none. -/
theorem writesOne_writeText (p : Path) (content : List UInt8) (t : FileTree) :
    match (writeText p content).run.run t with
    | (.error _, t') => ∀ l, Furnished t t' l
    | (.ok _, t')    => WritesOne p content t t' := by
  have hmade := furnished_makeDirectories p.parent t
  rw [run_writeText]
  rcases hrun : (makeDirectories p.parent).run.run t with ⟨e | u, t₁⟩ <;> rw [hrun] at hmade
  · exact hmade
  · simp only
    rcases write_cases p content t₁ with ⟨e, hwrite⟩ | ⟨loc, hslot, hplace, hwrite⟩
    · rw [hwrite]
      exact hmade
    · rw [hwrite]
      exact (writesOne_put hslot hplace.notDirectory content).of_furnished hmade

end FileTree

namespace Project

open FileTree (Furnished WritesOne)

/-- **A conversion is all or nothing.**  If it fails, for whatever reason, no file has come, gone or changed anywhere (at
most directories were made), and the routes are what they were.  If it comes out well, the module was written as one file
at the document's destination, which is the path it answers with; no other file has come, gone or changed; and the routes
have gained the document's entry at their end, if they are kept and it is not the entry document, and else nothing. -/
theorem convertPage_all_or_nothing (p : Project) (register : Bool) (path : Path) (w : Workspace) :
    match (p.convertPage register path).run.run w with
    | (.error _, w')   => (∀ l, Furnished w.files w'.files l) ∧ w'.routes = w.routes
    | (.ok target, w') => p.destination w.files.current path = .ok target ∧
      ∃ relative text, p.relative w.files.current path = .ok relative ∧ p.moduleOf w.files relative = .ok text ∧
        WritesOne target (Text.encode text) w.files w'.files ∧
        w'.routes.entryComponent = w.routes.entryComponent ∧
        w'.routes.entries = w.routes.entries ++
          if register && !p.isEntryPath relative then [Router.entryFor (directoryOf relative) relative.stem] else [] := by
  rw [run_convertPage]
  cases hrel : p.relative w.files.current path with
  | error f => exact ⟨fun l => .inl rfl, rfl⟩
  | ok relative =>
    cases hmod : p.moduleOf w.files relative with
    | error f =>
      simp only [hmod]
      exact ⟨fun l => .inl rfl, trivial⟩
    | ok text =>
      have hwrite := FileTree.writesOne_writeText (p.outputPath relative) (Text.encode text) w.files
      simp only [hmod]
      rcases hrun : (FileTree.writeText (p.outputPath relative) (Text.encode text)).run.run w.files with ⟨e | u, files⟩
      · rw [hrun] at hwrite
        exact ⟨hwrite, rfl⟩
      · rw [hrun] at hwrite
        refine ⟨(destination_eq_ok p).2 ⟨relative, hrel, checkName_of_moduleOf p hmod, rfl⟩, relative, text, rfl, hmod, hwrite, ?_⟩
        cases register && !p.isEntryPath relative with
        | false => exact ⟨rfl, (List.append_nil _).symm⟩
        | true => exact ⟨rfl, rfl⟩

end Project
end ReactSite
