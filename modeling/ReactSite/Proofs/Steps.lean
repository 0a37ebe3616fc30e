import ReactSite.Project.Pass
import ReactSite.Proofs.Filing
/-!
# Steps — how the steps of a conversion run

Converting a document, placing an asset and clearing an output work on one file each.  Every one of them is run once
here, with all the ways it can end; what a pass does with one file is put together from the first two (`run_visit`).
-/
namespace ReactSite

variable {α : Type} (p : Project) (w : Workspace)

namespace Action

theorem run_ofFiles (a : FileAction FileError α) : (ofFiles a).run.run w =
    ((a.run.run w.files).1.mapError Failure.file, { w with files := (a.run.run w.files).2 }) := rfl

theorem run_ofExcept (r : Except Failure α) : (ofExcept r).run.run w = (r, w) := rfl

theorem run_discard (a : Action α) : (discard a).run.run w = ((a.run.run w).1.map fun _ => (), (a.run.run w).2) := by
  show ((fun _ => ()) <$> a).run.run w = _
  rw [← bind_pure_comp, run_bind]
  rcases a.run.run w with ⟨e | x, w'⟩ <;> rfl

end Action

namespace Project

/-- **A name is there where the rules have texts.** -/
theorem ask_of_typed {r : Rules} (h : r.misnamed = []) (use : NameUse) : r.ask use = .ok () := by
  unfold Rules.ask
  rw [h]
  rfl

theorem checkName_of_typed (h : p.rules.misnamed = []) (relative : Path) : p.checkName relative = .ok () := by
  unfold checkName
  split
  · exact ask_of_typed h _
  · rfl

theorem destination_eq_ok {base : Location} {path target : Path} : p.destination base path = .ok target ↔
    ∃ relative, p.relative base path = .ok relative ∧ p.checkName relative = .ok () ∧ target = p.outputPath relative := by
  unfold destination
  simp only [bind_eq_ok, pure, Except.pure, Except.ok.injEq]
  constructor
  · rintro ⟨relative, hrel, ⟨⟩, hname, rfl⟩
    exact ⟨relative, hrel, hname, rfl⟩
  · rintro ⟨relative, hrel, hname, rfl⟩
    exact ⟨relative, hrel, (), hname, rfl⟩

/-- **What converts**: the document that is read, its tags, and the text of the module, whose name can be made. -/
theorem convert_eq_ok {files : FileTree} {relative : Path} {bytes : List UInt8} {text : String} :
    p.convert files relative bytes = .ok text ↔ ∃ document tags, p.documentIn bytes = .ok document ∧
      tagsOf document.root = .ok tags ∧
      p.checkRenames document.root tags (Mapping.ofPage ⟨files, p.source, directoryOf relative⟩ p.renames tags).results
        relative.toString = .ok () ∧
      Page.moduleText document tags (Mapping.ofPage ⟨files, p.source, directoryOf relative⟩ p.renames tags)
        (p.componentOf relative) relative.toString = .ok text ∧ p.checkName relative = .ok () := by
  unfold convert
  simp only [bind_eq_ok, pure, Except.pure, Except.ok.injEq]
  constructor
  · rintro ⟨document, hdocument, tags, htags, ⟨⟩, hrenames, text, htext, ⟨⟩, hname, rfl⟩
    exact ⟨document, tags, hdocument, htags, hrenames, htext, hname⟩
  · rintro ⟨document, tags, hdocument, htags, hrenames, htext, hname⟩
    exact ⟨document, hdocument, tags, htags, (), hrenames, text, htext, (), hname, rfl⟩

/-- **The module of a document in a file tree**: an unreadable document is the project's own error. -/
def moduleOf (files : FileTree) (relative : Path) : Except Failure String :=
  match ((FileTree.read (p.source.join relative)).run.run files).1 with
  | .error e  => .error (.of (.unreadable e) relative.toString)
  | .ok bytes => p.convert files relative bytes

theorem run_pageBytes (relative : Path) : (p.pageBytes relative).run.run w =
    (((FileTree.read (p.source.join relative)).run.run w.files).1.mapError
      fun e => .of (.unreadable e) relative.toString, w) := by
  have hstate : ((FileTree.read (p.source.join relative)).run.run w.files).2 = w.files := by
    rw [FileTree.run_read]
  unfold pageBytes
  rw [run_tryCatch, Action.run_ofFiles, hstate]
  cases ((FileTree.read (p.source.join relative)).run.run w.files).1 <;> rfl

/-- **How a conversion of one document runs.** -/
theorem run_convertPage (register : Bool) (path : Path) : (p.convertPage register path).run.run w =
    match p.relative w.files.current path with
    | .error f     => (.error f, w)
    | .ok relative => match p.moduleOf w.files relative with
      | .error f => (.error f, w)
      | .ok text => match (FileTree.writeText (p.outputPath relative) (Text.encode text)).run.run w.files with
        | (.error e, files) => (.error (.file e), { w with files })
        | (.ok _, files)    => (.ok (p.outputPath relative), {
            files
            routes := if register && !p.isEntryPath relative then w.routes.add (directoryOf relative) relative.stem
              else w.routes }) := by
  unfold convertPage moduleOf
  rw [run_bind, run_get]
  simp only [run_bind, Action.run_ofExcept]
  cases p.relative w.files.current path with
  | error f => rfl
  | ok relative =>
    simp only [run_pageBytes]
    cases ((FileTree.read (p.source.join relative)).run.run w.files).1 with
    | error e => rfl
    | ok bytes =>
      simp only [Except.mapError, run_get]
      cases p.convert w.files relative bytes with
      | error f => rfl
      | ok text =>
        simp only [Action.run_ofFiles]
        rcases (FileTree.writeText (p.outputPath relative) (Text.encode text)).run.run w.files with ⟨e | u, files⟩
        · rfl
        · simp only [Except.mapError]
          cases register && !p.isEntryPath relative <;> rfl

theorem moduleOf_eq_ok {files : FileTree} {relative : Path} {text : String} : p.moduleOf files relative = .ok text ↔
    ∃ bytes, files.node? (p.source.join relative) = some (.file bytes) ∧ p.convert files relative bytes = .ok text := by
  unfold moduleOf
  rcases hread : (FileTree.read (p.source.join relative)).run.run files with ⟨e | bytes, files'⟩
  · constructor
    · intro h
      cases h
    · rintro ⟨bytes, hnode, -⟩
      rw [FileTree.read_eq_ok.2 ⟨hnode, rfl⟩] at hread
      cases hread
  · obtain ⟨hnode, -⟩ := FileTree.read_eq_ok.1 hread
    simp [hnode]

/-- What has a module has a name for it. -/
theorem checkName_of_moduleOf {files : FileTree} {relative : Path} {text : String}
    (h : p.moduleOf files relative = .ok text) : p.checkName relative = .ok () := by
  obtain ⟨bytes, -, hconvert⟩ := (moduleOf_eq_ok p).1 h
  obtain ⟨document, tags, -, -, -, -, hname⟩ := (convert_eq_ok p).1 hconvert
  exact hname

theorem get?_of_moduleOf {files : FileTree} {base : Location} {names : List String} {text : String}
    (hbase : files.locate p.source = .ok base) (hup : ".." ∉ names) (h : p.moduleOf files ⟨0, names⟩ = .ok text) :
    ∃ bytes, files.get? (base ++ names) = some (.file bytes) := by
  obtain ⟨bytes, hnode, -⟩ := (moduleOf_eq_ok p).1 h
  obtain ⟨place, hplace, hget⟩ := FileTree.node?_eq_some.1 hnode
  rw [Path.join_relative] at hplace
  obtain ⟨rfl, -⟩ := FileTree.locate_names hbase hup hplace
  exact ⟨bytes, hget⟩

/-- **A conversion that comes out well** wrote the module of the document and registered its route. -/
theorem convertPage_eq_ok {register : Bool} {path target : Path} {w w' : Workspace}
    (h : (p.convertPage register path).run.run w = (.ok target, w')) : ∃ relative text,
      p.relative w.files.current path = .ok relative ∧ p.moduleOf w.files relative = .ok text ∧
        target = p.outputPath relative ∧
        (FileTree.writeText target (Text.encode text)).run.run w.files = (.ok (), w'.files) ∧
        w'.routes = if register && !p.isEntryPath relative then w.routes.add (directoryOf relative) relative.stem
          else w.routes := by
  rw [run_convertPage] at h
  cases hrel : p.relative w.files.current path with
  | error f => simp only [hrel] at h; cases h
  | ok relative =>
    cases hmod : p.moduleOf w.files relative with
    | error f => simp only [hrel, hmod] at h; cases h
    | ok text =>
      simp only [hrel, hmod] at h
      rcases hwrite : (FileTree.writeText (p.outputPath relative) (Text.encode text)).run.run w.files with ⟨e | u, files⟩
      · rw [hwrite] at h
        cases h
      · rw [hwrite] at h
        cases h
        exact ⟨relative, text, rfl, hmod, rfl, hwrite, rfl⟩

variable {p} {w} in
theorem routes_of_convertPage {path relative target : Path} {w' : Workspace}
    (hrel : p.relative w.files.current path = .ok relative)
    (h : (p.convertPage true path).run.run w = (.ok target, w')) :
    w'.routes = if p.isEntryPath relative then w.routes else w.routes.add (directoryOf relative) relative.stem := by
  obtain ⟨relative', text, hrel', -, -, -, hroutes⟩ := convertPage_eq_ok p h
  rw [hrel, Except.ok.injEq] at hrel'
  rw [hroutes, ← hrel']
  cases p.isEntryPath relative <;> rfl

/-- **How placing an asset runs.** -/
theorem run_placeAsset (path : Path) : (p.placeAsset path).run.run w =
    match p.destination w.files.current path with
    | .error f   => (.error f, w)
    | .ok target => match (FileTree.makeDirectories target.parent).run.run w.files with
      | (.error e, files) => (.error (.file e), { w with files })
      | (.ok _, files)    => match (FileTree.copy path target).run.run files with
        | (.error e, files) => (.error (.file e), { w with files })
        | (.ok _, files)    => (.ok target, { w with files }) := by
  unfold placeAsset
  rw [run_bind, run_get]
  simp only [run_bind, Action.run_ofExcept]
  cases p.destination w.files.current path with
  | error f => rfl
  | ok target =>
    simp only [Action.run_ofFiles, run_bind]
    rcases (FileTree.makeDirectories target.parent).run.run w.files with ⟨e | u, files⟩
    · rfl
    · simp only
      rcases (FileTree.copy path target).run.run files with ⟨e | u, files⟩ <;> rfl

theorem placeAsset_eq_ok {path target : Path} {w w' : Workspace}
    (h : (p.placeAsset path).run.run w = (.ok target, w')) : ∃ relative files,
      p.relative w.files.current path = .ok relative ∧
        (FileTree.makeDirectories (p.outputPath relative).parent).run.run w.files = (.ok (), files) ∧
        (FileTree.copy path (p.outputPath relative)).run.run files = (.ok (), w'.files) := by
  rw [run_placeAsset] at h
  cases hdest : p.destination w.files.current path with
  | error f => rw [hdest] at h; cases h
  | ok target' =>
    obtain ⟨relative, hrel, -, rfl⟩ := (destination_eq_ok p).1 hdest
    simp only [hdest] at h
    rcases hmade : (FileTree.makeDirectories (p.outputPath relative).parent).run.run w.files with ⟨e | u, files⟩
    · rw [hmade] at h
      cases h
    · simp only [hmade] at h
      rcases hcopy : (FileTree.copy path (p.outputPath relative)).run.run files with ⟨e | u', files'⟩
      · rw [hcopy] at h
        cases h
      · rw [hcopy] at h
        cases h
        exact ⟨relative, files, hrel, hmade, hcopy⟩

theorem run_look (path : Path) : (Action.look path).run.run w = ((w.files.look path).mapError .file, w) := rfl

/-- **How clearing an output runs.** -/
theorem run_clearOutput (path : Path) : (p.clearOutput path).run.run w =
    match p.destination w.files.current path with
    | .error f   => (.error f, w)
    | .ok target => match w.files.look target with
      | .error e       => (.error (.file e), w)
      | .ok none       => (.ok none, w)
      | .ok (some _)   => match (FileTree.remove target).run.run w.files with
        | (.error e, files) => (.error (.file e), { w with files })
        | (.ok _, files)    => (.ok (some target), { w with files }) := by
  unfold clearOutput
  rw [run_bind, run_get]
  simp only [run_bind, Action.run_ofExcept]
  cases p.destination w.files.current path with
  | error f => rfl
  | ok target =>
    simp only [run_look]
    cases w.files.look target with
    | error e => rfl
    | ok node =>
      cases node with
      | none => rfl
      | some node =>
        simp only [Except.mapError, run_bind, Action.run_ofFiles]
        rcases (FileTree.remove target).run.run w.files with ⟨e | u, files⟩ <;> rfl

/-- **An output that is there is taken away.** -/
theorem run_clearOutput_of_locate {path target : Path} {w : Workspace} {loc : Location} {node : FileNode}
    (hdest : p.destination w.files.current path = .ok target) (hloc : w.files.locate target = .ok loc)
    (hget : w.files.get? loc = some node) :
    (p.clearOutput path).run.run w = (.ok (some target), { w with files := w.files.erase loc }) := by
  have hlook : w.files.look target = .ok (some node) := FileTree.look_eq_some.2 (FileTree.node?_eq_some.2 ⟨loc, hloc, hget⟩)
  rw [run_clearOutput, hdest]
  simp only [hlook, FileTree.run_remove, hloc]

/-- **How a visit of a pass runs**: a document that fails is reported, an asset that fails ends the pass. -/
theorem run_visit (copyStatic : Bool) (report : Report) (path : Path) : (p.visit copyStatic report path).run.run w =
    if p.isPage path then match (p.convertPage true path).run.run w with
      | (.ok _, w')    => (.ok { report with pages := report.pages + 1 }, w')
      | (.error f, w') =>
        (.ok { report with failures := report.failures ++ [((p.visitedPath path).toString, f.message)] }, w')
    else if copyStatic then match (p.placeAsset path).run.run w with
      | (.ok _, w')    => (.ok { report with assets := report.assets + 1 }, w')
      | (.error f, w') => (.error f, w')
    else (.ok report, w) := by
  unfold visit
  split
  · rw [run_tryCatch, run_bind, Action.run_discard]
    rcases (p.convertPage true path).run.run w with ⟨f | target, w'⟩ <;> rfl
  · split
    · rw [run_bind, Action.run_discard]
      rcases (p.placeAsset path).run.run w with ⟨f | target, w'⟩ <;> rfl
    · rfl

end Project
end ReactSite
