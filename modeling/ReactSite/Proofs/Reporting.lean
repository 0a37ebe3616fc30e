import ReactSite.Command.Standard
import ReactSite.Proofs.Joining
import ReactSite.Proofs.Positions
import ReactSite.Proofs.Steps
/-!
# Reporting — which failures a conversion reports in its own words

A conversion reports a path outside the source and a document that cannot be read.  Whatever goes wrong after that, in the
parser, in the attributes, in the texts or in the output directory, comes out as the failure of what it works with
(`convert_error`, `run_convertPage`).  So all its failures are conversion errors just when nothing can go wrong there: the
reader finds a page, every attribute is found again under its own name and gets a new one that is a text, the texts that the
edit stores can be stored, and the module has a name and a place that can be written to (`Project.Reports`,
`convertPage_reported_iff`).  A run of the program for one document ends with an exit status just when logging can be set up
and its failures from there on are reported (`Command.ReportsRun`, `ends_run_iff`).
-/
namespace ReactSite

open Element (isStorable)

/-- **A failure that is reported in the program's own words.** -/
def Failure.IsReported (f : Failure) : Prop := ∃ e, f = .conversion e

/-! ## Attributes under their own names -/

/-- **An attribute is found again under its name**: the name can be stored, and it is no name in braces, or one of an
attribute in no namespace that is there. -/
def IsReadable (attrs : Attributes) (name : String) : Prop :=
  isStorable name = true ∧
    (nameForm name = .plain ∨ ∃ localName, nameForm name = .bare localName ∧ (attrs.get? localName).isSome = true)

theorem valueUnder_isOk_iff {attrs : Attributes} {a : String × String} (ha : a ∈ attrs) :
    (∃ v, valueUnder attrs a.1 = .ok v) ↔ IsReadable attrs a.1 := by
  have hget : (attrs.get? a.1).isSome = true := by
    cases h : attrs.get? a.1 with
    | some v => rfl
    | none => simpa using List.lookup_eq_none_iff.1 h a ha
  unfold valueUnder IsReadable
  cases hs : isStorable a.1 with
  | false => simp
  | true =>
    cases hform : nameForm a.1 with
    | plain =>
      obtain ⟨v, hv⟩ := Option.isSome_iff_exists.1 hget
      simp [hv]
    | bare localName => cases hv : attrs.get? localName <;> simp [hv]
    | namespaced => simp
    | empty => simp
    | unclosed => simp

theorem valueUnder_error {attrs : Attributes} {name : String} {f : Failure} (h : valueUnder attrs name = .error f) :
    ¬ f.IsReported := by
  rintro ⟨e, rfl⟩
  unfold valueUnder at h
  simp only at h
  split at h
  · cases h
  split at h
  · split at h <;> cases h
  · split at h <;> cases h
  all_goals cases h

theorem mapM_isOk_iff {ε α β : Type} {f : α → Except ε β} : ∀ {l : List α},
    (∃ r, l.mapM f = .ok r) ↔ ∀ a ∈ l, ∃ b, f a = .ok b
  | []     => by simp [pure, Except.pure]
  | a :: l => by
    rw [List.forall_mem_cons, ← mapM_isOk_iff, List.mapM_cons]
    constructor
    · rintro ⟨r, h⟩
      obtain ⟨b, hb, h⟩ := bind_eq_ok.1 h
      obtain ⟨bs, hbs, -⟩ := bind_eq_ok.1 h
      exact ⟨⟨b, hb⟩, bs, hbs⟩
    · rintro ⟨⟨b, hb⟩, bs, hbs⟩
      exact ⟨b :: bs, bind_eq_ok.2 ⟨b, hb, bind_eq_ok.2 ⟨bs, hbs, rfl⟩⟩⟩

theorem exists_of_mapM_eq_error {ε α β : Type} {f : α → Except ε β} {e : ε} : ∀ {l : List α}, l.mapM f = .error e →
    ∃ a ∈ l, f a = .error e
  | [], h     => by cases h
  | a :: l, h => by
    rw [List.mapM_cons] at h
    obtain h | ⟨b, -, h⟩ := bind_eq_error.1 h
    · exact ⟨a, List.mem_cons_self, h⟩
    obtain h | ⟨bs, -, h⟩ := bind_eq_error.1 h
    · obtain ⟨x, hx, he⟩ := exists_of_mapM_eq_error h
      exact ⟨x, List.mem_cons_of_mem a hx, he⟩
    · cases h

theorem tagOf_isOk_iff {e : Element} :
    (∃ r, tagOf e = .ok r) ↔ ∀ a ∈ e.attributes, IsReadable e.attributes a.1 := by
  have hmap : (∃ attrs, (e.attributes.mapM fun a => do return (a.1, ← valueUnder e.attributes a.1)) = .ok attrs) ↔
      ∀ a ∈ e.attributes, IsReadable e.attributes a.1 := by
    rw [mapM_isOk_iff]
    refine forall₂_congr fun a ha => ?_
    rw [← valueUnder_isOk_iff ha]
    cases valueUnder e.attributes a.1 <;> simp [bind, Except.bind, pure, Except.pure]
  rw [← hmap]
  constructor
  · rintro ⟨r, h⟩
    obtain ⟨attrs, hattrs, -⟩ := bind_eq_ok.1 h
    exact ⟨attrs, hattrs⟩
  · rintro ⟨attrs, hattrs⟩
    exact ⟨_, bind_eq_ok.2 ⟨attrs, hattrs, rfl⟩⟩

/-- **The tags of a tree can be read off** just when all attributes are found again. -/
theorem tagsOf_isOk_iff {root : Element} : (∃ tags, tagsOf root = .ok tags) ↔
    ∀ e ∈ root.preorder, ∀ a ∈ e.attributes, IsReadable e.attributes a.1 := by
  rw [tagsOf, mapM_isOk_iff]
  exact forall₂_congr fun e _ => tagOf_isOk_iff

theorem tagsOf_error {root : Element} {f : Failure} (h : tagsOf root = .error f) : ¬ f.IsReported := by
  obtain ⟨e, -, h⟩ := exists_of_mapM_eq_error h
  obtain h | ⟨attrs, -, h⟩ := bind_eq_error.1 h
  · obtain ⟨a, -, h⟩ := exists_of_mapM_eq_error h
    obtain h | ⟨v, -, h⟩ := bind_eq_error.1 h
    · exact valueUnder_error h
    · cases h
  · cases h

/-! ## Documents that convert -/

theorem not_isReported_forbiddenText : ¬ Failure.IsReported .forbiddenText := by
  rintro ⟨e, h⟩
  cases h

/-- A document that does not become a module holds a text that cannot be stored. -/
theorem Page.moduleText_error {document : Document} {tags : List Tag} {site : Surroundings} {table : RenameTable}
    {name : String} {file : Option String} {f : Failure}
    (h : moduleText document tags (Mapping.ofPage site table tags) name file = .error f) : ¬ f.IsReported := by
  obtain hcarry | ⟨draft, -, hrest⟩ := bind_eq_error.1 h
  · obtain rfl | ⟨i, hi, -⟩ := carryOutFrom_error hcarry
    · exact not_isReported_forbiddenText
    · exact absurd hi (not_partsAt_ofPage site table tags i)
  · simp only at hrest
    split at hrest
    · cases hrest
      exact not_isReported_forbiddenText
    · cases hrest

namespace Project

variable {p : Project} {files : FileTree} {relative : Path} {bytes : List UInt8}

/-- **The new names of attributes are texts**, as far as they are asked for: every one can be a key, and where attributes are
stored, they are stored under texts. -/
def NamesTexts (p : Project) (tags : List Tag) (results : List MappedTag) : Prop :=
  (∀ r ∈ tags, p.misname? true r = none) ∧
    ∀ rm ∈ tags.zip results, rm.2.attributes.isSome = true → p.misname? false rm.1 = none

theorem misstored?_eq_none_iff {tags : List Tag} {results : List MappedTag} : p.misstored? tags results = none ↔
    ∀ rm ∈ tags.zip results, rm.2.attributes.isSome = true → p.misname? false rm.1 = none := by
  unfold misstored?
  rw [List.findSome?_eq_none_iff]
  constructor
  · intro h rm hrm hstored
    obtain ⟨i, hi⟩ := List.getElem?_of_mem hrm
    simpa [hstored] using h _ (List.mk_mem_zipIdx_iff_getElem?.2 hi)
  · rintro h ⟨⟨r, m⟩, i⟩ hi
    have hrm : (r, m) ∈ tags.zip results := List.mem_of_getElem? (List.mk_mem_zipIdx_iff_getElem?.1 hi)
    simp only
    split
    · rename_i hstored
      rw [h _ hrm hstored]
      rfl
    · rfl

theorem checkRenames_eq_ok_iff {root : Element} {tags : List Tag} {results : List MappedTag} {file : String} :
    p.checkRenames root tags results file = .ok () ↔ p.NamesTexts tags results := by
  unfold checkRenames NamesTexts
  rw [← misstored?_eq_none_iff, ← List.findSome?_eq_none_iff]
  cases tags.findSome? (p.misname? true) with
  | some error => simp
  | none =>
    cases p.misstored? tags results with
    | none => simp
    | some found =>
      refine iff_of_false (fun h => ?_) (by simp)
      obtain ⟨-, -, h⟩ := bind_eq_ok.1 h
      cases h

theorem not_isReported_raised (e : Raised) : ¬ Failure.IsReported (.raised e) := by
  rintro ⟨_, h⟩
  cases h

theorem checkRenames_error {root : Element} {tags : List Tag} {file : String} {site : Surroundings} {f : Failure}
    (h : p.checkRenames root tags (Mapping.ofPage site p.renames tags).results file = .error f) : ¬ f.IsReported := by
  unfold checkRenames at h
  split at h
  · cases h
    exact not_isReported_raised _
  · cases h
  · -- what goes wrong in the edits before comes first
    rename_i error i _ _
    cases hcarry : Page.carryOut (some file) root (tags.take i) ((Mapping.ofPage site p.renames tags).results.take i) with
    | ok draft =>
      rw [hcarry] at h
      cases h
      exact not_isReported_raised _
    | error g =>
      rw [hcarry] at h
      cases h
      obtain rfl | ⟨j, hj, -⟩ := Page.carryOutFrom_error hcarry
      · exact not_isReported_forbiddenText
      · exact absurd hj.of_take (Page.not_partsAt_ofPage site p.renames tags j)

/-- **A document whose page can be converted**: its attributes are found again and get names that are texts, and the texts that
are stored for its module can be stored. -/
structure Accepts (p : Project) (files : FileTree) (relative : Path) (document : Document) : Prop where
  attributes : ∀ e ∈ document.root.preorder, ∀ a ∈ e.attributes, IsReadable e.attributes a.1
  renames : ∀ tags, tagsOf document.root = .ok tags →
    p.NamesTexts tags (Mapping.ofPage ⟨files, p.source, directoryOf relative⟩ p.renames tags).results
  /-- The texts that are joined where elements go. -/
  joins : ∀ tags, tagsOf document.root = .ok tags → ∀ s ∈ Page.joins document.root
    (Mapping.ofPage ⟨files, p.source, directoryOf relative⟩ p.renames tags).results, isStorable s = true
  /-- The texts of what stays, as JSX reads them. -/
  texts : ∀ tags, tagsOf document.root = .ok tags → (Page.escapeTexts (Page.pruned document.root
    (Mapping.ofPage ⟨files, p.source, directoryOf relative⟩ p.renames tags).results)).textsStorable = true

theorem nodup_ids_of_documentIn {document : Document} (h : p.documentIn bytes = .ok document) : document.root.ids.Nodup := by
  unfold documentIn PageReader.load at h
  split at h
  · cases h
    exact Element.nodup_ids_numbered _
  · cases h

theorem documentIn_error {f : Failure} (h : p.documentIn bytes = .error f) : ¬ f.IsReported := by
  unfold documentIn PageReader.load at h
  split at h
  · cases h
  · cases h
    exact not_isReported_raised _

/-- **When a document converts.** -/
theorem convert_isOk_iff : (∃ text, p.convert files relative bytes = .ok text) ↔
    (∃ document, p.documentIn bytes = .ok document ∧ p.Accepts files relative document) ∧ p.checkName relative = .ok () := by
  have hmodule := fun document (hdocument : p.documentIn bytes = .ok document) tags (htags : tagsOf document.root = .ok tags) =>
    Page.moduleText_isOk_iff document (nodup_ids_of_documentIn hdocument) htags ⟨files, p.source, directoryOf relative⟩
      p.renames (p.componentOf relative) relative.toString
  simp only [convert_eq_ok]
  constructor
  · rintro ⟨text, document, tags, hdocument, htags, hrenames, htext, hname⟩
    obtain ⟨hjoins, htexts⟩ := (hmodule document hdocument tags htags).1 ⟨text, htext⟩
    refine ⟨⟨document, hdocument, tagsOf_isOk_iff.1 ⟨tags, htags⟩, fun tags' htags' => ?_, fun tags' htags' => ?_,
      fun tags' htags' => ?_⟩, hname⟩ <;>
      rw [htags, Except.ok.injEq] at htags' <;> subst htags'
    · exact checkRenames_eq_ok_iff.1 hrenames
    · exact hjoins
    · exact htexts
  · rintro ⟨⟨document, hdocument, h⟩, hname⟩
    obtain ⟨tags, htags⟩ := tagsOf_isOk_iff.2 h.attributes
    obtain ⟨text, htext⟩ := (hmodule document hdocument tags htags).2 ⟨h.joins tags htags, h.texts tags htags⟩
    exact ⟨text, document, tags, hdocument, htags, checkRenames_eq_ok_iff.2 (h.renames tags htags), htext, hname⟩

theorem checkName_error {f : Failure} (h : p.checkName relative = .error f) : ¬ f.IsReported := by
  unfold checkName Rules.ask at h
  split at h
  · split at h
    · cases h
      exact not_isReported_raised _
    · cases h
  · cases h

/-- **A conversion that fails does not report it.** -/
theorem convert_error {f : Failure} (h : p.convert files relative bytes = .error f) : ¬ f.IsReported := by
  obtain h | ⟨document, -, h⟩ := bind_eq_error.1 h
  · exact documentIn_error h
  obtain h | ⟨tags, -, h⟩ := bind_eq_error.1 h
  · exact tagsOf_error h
  obtain h | ⟨-, -, h⟩ := bind_eq_error.1 h
  · exact checkRenames_error h
  obtain h | ⟨text, -, h⟩ := bind_eq_error.1 h
  · exact Page.moduleText_error h
  obtain h | ⟨-, -, h⟩ := bind_eq_error.1 h
  · exact checkName_error h
  · cases h

end Project

/-! ## Conversions and runs -/

/-- **A path that a text can be written to**: the directories above it can be made, and it leads to no directory and to
nothing read-only. -/
def FileTree.Takes (t : FileTree) (p : Path) : Prop :=
  ∃ t₁ loc, (makeDirectories p.parent).run.run t = (.ok (), t₁) ∧ t₁.slot p = .ok loc ∧ t₁.IsWritable loc

theorem FileTree.takes_iff {t : FileTree} {p : Path} (content : List UInt8) :
    t.Takes p ↔ ((writeText p content).run.run t).1 = .ok () := by
  constructor
  · rintro ⟨t₁, loc, h⟩
    rw [writeText_eq_ok.2 ⟨t₁, loc, h.1, h.2.1, h.2.2, rfl⟩]
  · intro h
    obtain ⟨t₁, loc, h₁, h₂, h₃, -⟩ := writeText_eq_ok.1 (Prod.ext h rfl)
    exact ⟨t₁, loc, h₁, h₂, h₃⟩

namespace Project

/-- **A conversion that reports all its failures**: where the path is that of a document that can be read, the reader finds a page
there, it can be converted, and its module has a name and can be written. -/
def Reports (p : Project) (w : Workspace) (path : Path) : Prop :=
  ∀ relative, p.relative w.files.current path = .ok relative →
    ∀ bytes, w.files.node? (p.source.join relative) = some (.file bytes) →
      ((∃ document, p.documentIn bytes = .ok document ∧ p.Accepts w.files relative document) ∧
        p.checkName relative = .ok ()) ∧ w.files.Takes (p.outputPath relative)

theorem relative_error {p : Project} {base : Location} {path : Path} {f : Failure} (h : p.relative base path = .error f) :
    f.IsReported := by
  unfold relative at h
  simp only at h
  split at h
  · cases h
    exact ⟨_, rfl⟩
  · split at h
    · cases h
    · cases h
      exact ⟨_, rfl⟩

/-- **When all failures of a conversion are reported.** -/
theorem convertPage_reported_iff (p : Project) (register : Bool) (path : Path) (w : Workspace) :
    (∀ f, ((p.convertPage register path).run.run w).1 = .error f → f.IsReported) ↔ p.Reports w path := by
  rw [run_convertPage]
  unfold Reports
  cases hrel : p.relative w.files.current path with
  | error f =>
    refine iff_of_true (fun g hg => ?_) (fun relative h => by cases h)
    cases hg
    exact relative_error hrel
  | ok relative =>
    simp only [Except.ok.injEq, forall_eq']
    rcases hread : (FileTree.read (p.source.join relative)).run.run w.files with ⟨e | bytes, t⟩
    · -- a document that cannot be read is reported, and nothing is asked of it
      have hmodule : p.moduleOf w.files relative = .error (.of (.unreadable e) relative.toString) := by
        rw [moduleOf, hread]
      simp only [hmodule]
      refine iff_of_true (fun g hg => ?_) (fun bytes hbytes => ?_)
      · cases hg
        exact ⟨_, rfl⟩
      · rw [FileTree.read_eq_ok.2 ⟨hbytes, rfl⟩] at hread
        cases hread
    · obtain ⟨hnode, -⟩ := FileTree.read_eq_ok.1 hread
      have hmodule : p.moduleOf w.files relative = p.convert w.files relative bytes := by rw [moduleOf, hread]
      simp only [hmodule, hnode, Option.some.injEq, FileNode.file.injEq, forall_eq', ← convert_isOk_iff]
      cases hconvert : p.convert w.files relative bytes with
      | error f =>
        refine iff_of_false (fun h => convert_error hconvert (h f rfl)) ?_
        rintro ⟨⟨text, h⟩, -⟩
        cases h
      | ok text =>
        rw [FileTree.takes_iff (Text.encode text)]
        simp only
        rcases (FileTree.writeText (p.outputPath relative) (Text.encode text)).run.run w.files with ⟨e | u, files⟩
        · refine iff_of_false (fun h => ?_) fun h => ?_
          · obtain ⟨g, hg⟩ := h (.file e) rfl
            cases hg
          · cases h.2
        · refine iff_of_true (fun g hg => ?_) ⟨⟨text, rfl⟩, rfl⟩
          cases hg

end Project

namespace Command

/-- **A run that ends with an exit status of its own**, that of a success or that of a failure. -/
def Ends (r : Except Failure Ending) : Prop := ∃ ending, r = .ok ending ∧ (ending.status = 0 ∨ ending.status = 1)

/-- The handler of a run ends it, or passes the failure on. -/
theorem ends_ofConversionError_iff (f : Failure) (w : Workspace) :
    Ends ((ofConversionError f).run.run w).1 ↔ f.IsReported := by
  cases f with
  | conversion e => exact iff_of_true ⟨_, rfl, .inr rfl⟩ ⟨e, rfl⟩
  | _ =>
    refine iff_of_false ?_ ?_
    · rintro ⟨ending, h, -⟩
      cases h
    · rintro ⟨e, h⟩
      cases h

/-- **A task under its handler ends just when it reports its failures.** -/
theorem ends_tryCatch_iff {task : Action Ending} {w : Workspace}
    (hstatus : ∀ ending, (task.run.run w).1 = .ok ending → ending.status = 0 ∨ ending.status = 1) :
    Ends ((tryCatch task ofConversionError).run.run w).1 ↔ ∀ f, (task.run.run w).1 = .error f → f.IsReported := by
  rw [run_tryCatch]
  rcases htask : task.run.run w with ⟨f | ending, w'⟩
  · simp [ends_ofConversionError_iff]
  · rw [htask] at hstatus
    exact iff_of_true ⟨ending, rfl, hstatus ending rfl⟩ (fun f h => by cases h)

theorem run_perform_single (p : Project) (path : String) (w : Workspace) : (perform p (.single path)).run.run w =
    match (p.convertPage false (Path.ofString path)).run.run w with
    | (.ok target, w') => (.ok { status := 0, output := "Wrote " ++ target.toString ++ "\n" }, w')
    | (.error f, w')   => (.error f, w') := by
  unfold perform
  rw [run_bind]
  rcases (p.convertPage false (Path.ofString path)).run.run w with ⟨f | target, w'⟩ <;> rfl

theorem status_of_single {p : Project} {path : String} {w : Workspace} {ending : Ending}
    (h : ((perform p (.single path)).run.run w).1 = .ok ending) : ending.status = 0 := by
  rw [run_perform_single] at h
  rcases hrun : (p.convertPage false (Path.ofString path)).run.run w with ⟨f | target, w'⟩ <;> rw [hrun] at h <;> cases h
  rfl

/-- What is printed before has no part in how a run ends. -/
theorem ends_bind_iff (task : Action Ending) (logged : String) (w : Workspace) :
    Ends ((do let ending ← task; return { ending with output := logged ++ ending.output } : Action Ending).run.run w).1 ↔
      Ends (task.run.run w).1 := by
  rw [run_bind]
  rcases task.run.run w with ⟨f | ending, w'⟩
  · rfl
  · constructor
    · rintro ⟨_, h, hstatus⟩
      cases h
      exact ⟨ending, rfl, hstatus⟩
    · rintro ⟨_, h, hstatus⟩
      cases h
      exact ⟨_, rfl, hstatus⟩

/-- **How a task is carried out**: the project file is read, and the project opened that it names. -/
theorem run_carryOut (env : Environment) (config : String) (task : Task) (config? : Option Config) (w : Workspace) :
    (carryOut env config task config?).run.run w = match Settings.read env.yaml w.files (Path.ofString config) with
      | .error f     => (.error f, w)
      | .ok settings => match (openProject env settings config?).run.run w with
        | (.error f, w') => (.error f, w')
        | (.ok p, w')    => (perform p task).run.run w' := by
  unfold carryOut
  rw [run_bind, run_get]
  simp only [run_bind, Action.run_ofExcept]
  cases Settings.read env.yaml w.files (Path.ofString config) with
  | error f => rfl
  | ok settings =>
    simp only
    rcases (openProject env settings config?).run.run w with ⟨f | p, w'⟩ <;> rfl

/-- **A run for one document reports its failures**: what goes wrong with the project file, with the opening of the project, or
with the conversion. -/
def ReportsRun (env : Environment) (config path : String) (config? : Option Config) (w : Workspace) : Prop :=
  match Settings.read env.yaml w.files (Path.ofString config) with
  | .error f     => f.IsReported
  | .ok settings => match (openProject env settings config?).run.run w with
    | (.error f, _) => f.IsReported
    | (.ok p, w')   => p.Reports w' (Path.ofString path)

theorem status_of_carryOut {env : Environment} {config path : String} {config? : Option Config} {w : Workspace} {ending : Ending}
    (h : ((carryOut env config (.single path) config?).run.run w).1 = .ok ending) : ending.status = 0 := by
  rw [run_carryOut] at h
  split at h
  · cases h
  · split at h
    · cases h
    · exact status_of_single h

/-- **A task under its handler ends just when it reports its failures**, the project file and the project among them. -/
theorem ends_carryOut_iff (env : Environment) (config path : String) (config? : Option Config) (w : Workspace) :
    Ends ((tryCatch (carryOut env config (.single path) config?) ofConversionError).run.run w).1 ↔
      ReportsRun env config path config? w := by
  rw [ends_tryCatch_iff fun _ h => .inl (status_of_carryOut h), run_carryOut]
  unfold ReportsRun
  cases Settings.read env.yaml w.files (Path.ofString config) with
  | error f => simp
  | ok settings =>
    simp only
    rcases (openProject env settings config?).run.run w with ⟨f | p, w'⟩
    · simp
    · simp only
      rw [← Project.convertPage_reported_iff p false, run_perform_single]
      rcases (p.convertPage false (Path.ofString path)).run.run w' with ⟨f | target, w''⟩ <;> simp

/-- **How a run for one document ends**, whatever it works with. -/
theorem ends_run_iff (env : Environment) {arguments : List String} {config path : String} (w : Workspace)
    (hrequest : Request.of arguments = .run config (.single path)) : Ends ((run env arguments).run.run w).1 ↔
      ∃ log w', (setUpLog env).run.run w = (.ok log, w') ∧ ReportsRun env config path log.config w' := by
  unfold run
  rw [hrequest]
  simp only
  rw [run_bind]
  rcases (setUpLog env).run.run w with ⟨f | log, w'⟩
  · refine iff_of_false ?_ ?_
    · rintro ⟨ending, h, -⟩
      cases h
    · rintro ⟨log, w', h, -⟩
      cases h
  · simp only
    rw [ends_bind_iff, ends_carryOut_iff]
    constructor
    · exact fun h => ⟨log, w', rfl, h⟩
    · rintro ⟨_, _, h, hreports⟩
      cases h
      exact hreports

end Command

/-- **Which failures are reported.**  All those of a conversion are conversion errors just when nothing can go wrong behind
the reading of the document.  And a run for one document, whatever it works with, ends with status 0 or 1 just when logging can
be set up and the failures from there on are reported: that of reading the project file, that of opening the project, or those
of the conversion. -/
theorem reported_iff (w : Workspace) :
    (∀ (p : Project) (register : Bool) (path : Path),
      (∀ f, ((p.convertPage register path).run.run w).1 = .error f → f.IsReported) ↔ p.Reports w path) ∧
    ∀ (env : Command.Environment) (arguments : List String) (config path : String),
      Command.Request.of arguments = .run config (.single path) →
      (Command.Ends ((Command.run env arguments).run.run w).1 ↔ ∃ log w',
        (Command.setUpLog env).run.run w = (.ok log, w') ∧ Command.ReportsRun env config path log.config w') :=
  ⟨fun p register path => p.convertPage_reported_iff register path w,
    fun env _ _ _ hrequest => Command.ends_run_iff env w hrequest⟩

/-- A site with one document, and its project file. -/
def onePage (text : String) : Workspace where
  files := ⟨[(["site"], .directory), (["site", "index.html"], .file (Text.encode text)), (["app"], .directory),
    (["app", "src"], .directory), (["site.yml"], .file (Text.encode "src_dir: site\ndest_dir: app\n"))], [], []⟩

def onePageProject : Project := ⟨Path.ofString "/site", Path.ofString "/app", {}, [], [], Html.read⟩

/-- An environment without a configuration of the user's: none can lie below the project file. -/
def onePageEnvironment : Command.Environment := .standard (Path.ofString "/site.yml") "/logs"

/-- How a run for that document ends, and what it leaves. -/
def onePageRun (text : String) : Except Failure Command.Ending × Workspace :=
  (Command.run onePageEnvironment ["--config", "/site.yml", "file", "/site/index.html"]).run.run (onePage text)

theorem reports_onePage : onePageProject.Reports (onePage "<p>") (Path.ofString "/site/index.html") ∧
    ∃ log w, (Command.setUpLog onePageEnvironment).run.run (onePage "<p>") = (.ok log, w) ∧
      Command.ReportsRun onePageEnvironment "/site.yml" "/site/index.html" log.config w := by
  have hconvert : ((onePageProject.convertPage false (Path.ofString "/site/index.html")).run.run
      (onePage "<p>")).1.isOk = true := by decide +kernel
  have hstatus : (onePageRun "<p>").1.toOption.map (·.status) = some 0 := by decide +kernel
  have hends : Command.Ends (onePageRun "<p>").1 := by
    cases hrun : (onePageRun "<p>").1 with
    | error f =>
      rw [hrun] at hstatus
      cases hstatus
    | ok ending =>
      rw [hrun] at hstatus
      exact ⟨ending, rfl, .inl (Option.some.inj hstatus)⟩
  refine ⟨((reported_iff _).1 _ false _).1 fun f hf => ?_, ?_⟩
  · rw [hf] at hconvert
    cases hconvert
  · exact ((reported_iff (onePage "<p>")).2 onePageEnvironment ["--config", "/site.yml", "file", "/site/index.html"]
      "/site.yml" "/site/index.html" (by decide +kernel)).1 hends

/-- **A page with no element is not reported**: a run for it ends with no status, although its project file can be read. -/
theorem not_ends_onePage :
    ((onePageProject.convertPage false (Path.ofString "/site/index.html")).run.run (onePage "<!-- -->")).1 =
        .error (.raised Html.emptyDocument) ∧ ¬ Failure.IsReported (.raised Html.emptyDocument) ∧
      Settings.read Yaml.read (onePage "<!-- -->").files (Path.ofString "/site.yml") =
        .ok ⟨Path.ofString "/site", Path.ofString "/app"⟩ ∧
      ¬ Command.Ends (onePageRun "<!-- -->").1 := by
  refine ⟨by decide +kernel, ?_, by decide +kernel, ?_⟩
  · rintro ⟨e, h⟩
    cases h
  · have hok : (onePageRun "<!-- -->").1.isOk = false := by decide +kernel
    rintro ⟨ending, h, -⟩
    rw [h] at hok
    cases hok

end ReactSite
