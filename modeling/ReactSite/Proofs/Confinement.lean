import ReactSite.Proofs.Boundary
import ReactSite.Proofs.Accounting
import ReactSite.Watch
/-!
# Confinement — a project works inside its output directory

Whatever path a project is asked about, it refuses what leads out of the source and answers with a path into the output
directory (`destination_of_leadsOut`, `destination_of_staysIn`).  So every step leaves everything outside that directory alone
(`Stays`), and with the steps every sequence of requests (`confined_serve`): on a project whose roots have been checked, no
request changes, adds or takes away an entry outside the output directory (`isConfined_serve`).
-/
namespace ReactSite

open FileTree

/-- **Names that lead nowhere else**: every configured name is a text, none holds a slash, and the module of the entry document is
not called `..`. -/
structure Rules.IsFlat (r : Rules) : Prop where
  typed : r.misnamed = []
  entryComponent : '/' ∉ r.entryComponent.toList
  moduleExtension : '/' ∉ r.moduleExtension.toList
  routeModule : '/' ∉ r.routeModule.toList
  entryModule : r.entryComponent ++ r.moduleExtension ≠ ".."

instance (r : Rules) : Decidable r.IsFlat :=
  decidable_of_iff (r.misnamed = [] ∧ '/' ∉ r.entryComponent.toList ∧ '/' ∉ r.moduleExtension.toList ∧
      '/' ∉ r.routeModule.toList ∧ r.entryComponent ++ r.moduleExtension ≠ "..")
    ⟨fun ⟨h₁, h₂, h₃, h₄, h₅⟩ => ⟨h₁, h₂, h₃, h₄, h₅⟩, fun ⟨h₁, h₂, h₃, h₄, h₅⟩ => ⟨h₁, h₂, h₃, h₄, h₅⟩⟩

namespace Path

theorem ofString_of_slash_notMem {s : String} (h : '/' ∉ s.toList) : ofString s = ⟨0, [s].filter isKept⟩ := by
  have hjoin : Lexical.join "" s = s := by
    simp [Lexical.join, Lexical.joinList]
  have hempty : ofString "" = ⟨0, []⟩ := by decide
  have hof := ofString_join "" h
  rwa [hjoin, hempty, List.nil_append] at hof

theorem parent_notMem_filter {s : String} (h : s ≠ "..") : ".." ∉ [s].filter isKept := fun hm =>
  h (List.mem_singleton.1 (List.mem_filter.1 hm).1).symm

end Path

namespace Project

variable {p : Project} {base : Location} {path rel : Path}

/-! ## Destinations -/

theorem parent_notMem_foldl_enter : ∀ (parts : List String) {reached : Location}, ".." ∉ reached →
    ".." ∉ parts.foldl Path.enter reached
  | [], _, h => h
  | part :: parts, reached, h => by
    rw [List.foldl_cons]
    refine parent_notMem_foldl_enter parts ?_
    unfold Path.enter
    split
    · exact fun hm => h (List.dropLast_subset _ hm)
    · rename_i hne
      rw [List.mem_append, not_or]
      exact ⟨h, by simpa using Ne.symm hne⟩

theorem parent_notMem_relative (hbase : ".." ∉ base) (h : p.relative base path = .ok rel) : ".." ∉ rel.parts := by
  have hresolve := (relative_eq_ok.1 h).2.2
  intro hm
  refine parent_notMem_foldl_enter (p.source.join path).parts ?_ (hresolve ▸ List.mem_append_right _ hm)
  split
  · simp
  · exact hbase

/-- **A path that leads out of the source**, or to nothing that a file system can hold. -/
def LeadsOut (p : Project) (base : Location) (path : Path) : Prop :=
  path.hasNul = true ∨ ¬ p.source.resolveFrom base <+: (p.source.join path).resolveFrom base

instance (p : Project) (base : Location) (path : Path) : Decidable (p.LeadsOut base path) :=
  inferInstanceAs (Decidable (_ ∨ _))

theorem hasNul_join (hnul : p.source.hasNul = false) (path : Path) : (p.source.join path).hasNul = path.hasNul := by
  unfold Path.hasNul Path.join at *
  split
  · rfl
  · rw [List.any_append, hnul, Bool.false_or]

theorem destination_of_leadsOut (hnul : p.source.hasNul = false) (h : p.LeadsOut base path) :
    p.destination base path = .error (.of .outsideSource (p.source.join path).toString) := by
  have hrel : p.relative base path = .error (.of .outsideSource (p.source.join path).toString) := by
    unfold relative
    simp only [hasNul_join hnul]
    rcases h with hnul' | hout
    · rw [if_pos hnul']
    · split
      · rfl
      · unfold Path.below?
        rw [if_neg (by rwa [List.isPrefixOf_iff_prefix])]
  unfold destination
  rw [hrel]
  rfl

theorem parent_ne_moduleName (stem extension : String) : Naming.component stem ++ extension ≠ ".." := by
  have hcomponent := Naming.isIdentifier_component stem
  obtain ⟨c, rest, hcons⟩ := List.exists_cons_of_ne_nil hcomponent.ne_nil
  intro h
  have hlist := congrArg String.toList h
  rw [String.toList_append, hcons, List.cons_append] at hlist
  have hc : c = '.' := (List.cons.inj hlist).1
  exact hcomponent.notMem (c := '.') (by decide) (by decide) (by rw [hcons, hc]; exact List.mem_cons_self)

section

variable (hflat : p.rules.IsFlat)
include hflat

/-- **The output of a path that does not climb** is reached from the output directory by going down. -/
theorem outputPath_descends (hslashes : rel.slashes = 0) (hup : ".." ∉ rel.parts) :
    ∃ names, ".." ∉ names ∧ p.outputPath rel = p.output.descend names := by
  obtain ⟨slashes, parts⟩ := rel
  obtain rfl : slashes = 0 := hslashes
  unfold outputPath
  split
  · exact ⟨parts, hup, Path.join_relative _ _⟩
  · split
    · have hslash : '/' ∉ (p.rules.entryComponent ++ p.rules.moduleExtension).toList := by
        rw [String.toList_append, List.mem_append, not_or]
        exact ⟨hflat.entryComponent, hflat.moduleExtension⟩
      exact ⟨_, Path.parent_notMem_filter hflat.entryModule,
        by rw [Path.ofString_of_slash_notMem hslash, Path.join_relative]⟩
    · have hcomponent := Naming.isIdentifier_component (⟨0, parts⟩ : Path).stem
      have hslash : '/' ∉ (Naming.component (⟨0, parts⟩ : Path).stem ++ p.rules.moduleExtension).toList := by
        rw [String.toList_append, List.mem_append, not_or]
        exact ⟨hcomponent.notMem (by decide) (by decide), hflat.moduleExtension⟩
      refine ⟨parts.dropLast ++ [Naming.component (⟨0, parts⟩ : Path).stem ++ p.rules.moduleExtension].filter Path.isKept,
        ?_, ?_⟩
      · rw [List.mem_append, not_or]
        exact ⟨fun hm => hup (List.dropLast_subset _ hm), Path.parent_notMem_filter (parent_ne_moduleName _ _)⟩
      · have hdir : p.output.join (⟨0, parts⟩ : Path).parent = p.output.descend parts.dropLast := Path.join_relative _ _
        rw [Path.ofString_of_slash_notMem hslash, hdir, Path.join_relative, Path.descend_descend]

/-- **The output of what is in the source** is in the output directory. -/
theorem destination_of_staysIn (hnul : p.source.hasNul = false) (hbase : ".." ∉ base) (h : ¬ p.LeadsOut base path) :
    ∃ names, ".." ∉ names ∧ p.destination base path = .ok (p.output.descend names) := by
  rw [LeadsOut, not_or, not_not, Bool.not_eq_true] at h
  obtain ⟨hpath, rest, hrest⟩ := h
  have hrel : p.relative base path = .ok ⟨0, rest⟩ :=
    relative_eq_ok.2 ⟨by rw [hasNul_join hnul, hpath], rfl, hrest.symm⟩
  obtain ⟨names, hup, hout⟩ := outputPath_descends hflat rfl (parent_notMem_relative hbase hrel)
  exact ⟨names, hup, (destination_eq_ok p).2 ⟨_, hrel, checkName_of_typed p hflat.typed _, hout.symm⟩⟩

/-- The route module is written into the output directory, or over a directory, which fails. -/
theorem inward_routePath : Inward p.output p.routePath := by
  unfold routePath
  rw [Path.ofString_of_slash_notMem hflat.routeModule, Path.join_relative]
  cases hkept : Path.isKept p.rules.routeModule with
  | true =>
    rw [List.filter_cons_of_pos hkept]
    have h : Inward p.output ((p.output.descend []).child p.rules.routeModule) := inward_child (by simp) p.rules.routeModule
    rwa [Path.descend_nil] at h
  | false =>
    rw [List.filter_cons_of_neg (by simp [hkept])]
    exact ⟨[], by simp, .inl rfl⟩

end

/-! ## Steps -/

/-- The place of the output directory. -/
abbrev outputPlace (p : Project) (base : Location) : Location := p.output.resolveFrom base

/-- **An action that leaves everything outside the output directory alone**, but for directories on the way to it. -/
def Stays (p : Project) (base : Location) {α : Type} (action : Action α) : Prop :=
  ∀ w : Workspace, w.files.current = base → Founded (p.outputPlace base) w.files →
    Confined (p.outputPlace base) (OnPath p.output base) w.files (action.run.run w).2.files

namespace Stays

variable {α β : Type} {action : Action α}

theorem of_files_eq (h : ∀ w : Workspace, (action.run.run w).2.files = w.files) : p.Stays base action := by
  intro w _ _
  rw [h w]
  exact .refl ..

theorem pure (x : α) : p.Stays base (Pure.pure x : Action α) := of_files_eq fun _ => rfl

theorem ofExcept (r : Except Failure α) : p.Stays base (Action.ofExcept r) := of_files_eq fun _ => rfl

theorem throw (f : Failure) : p.Stays base (MonadExcept.throw f : Action α) := of_files_eq fun _ => rfl

theorem bind {next : α → Action β} (h : p.Stays base action) (hnext : ∀ x, p.Stays base (next x)) :
    p.Stays base (action >>= next) := by
  intro w hcurrent hfounded
  have hfirst := h w hcurrent hfounded
  rw [run_bind]
  rcases hrun : action.run.run w with ⟨f | x, w'⟩ <;> rw [hrun] at hfirst
  · exact hfirst
  · exact hfirst.trans (hnext x w' (hfirst.current.trans hcurrent) (hfirst.founded hfounded))

theorem tryCatch {handler : Failure → Action α} (h : p.Stays base action) (hhandler : ∀ f, p.Stays base (handler f)) :
    p.Stays base (MonadExcept.tryCatch action handler) := by
  intro w hcurrent hfounded
  have hfirst := h w hcurrent hfounded
  rw [run_tryCatch]
  rcases hrun : action.run.run w with ⟨f | x, w'⟩ <;> rw [hrun] at hfirst
  · exact hfirst.trans (hhandler f w' (hfirst.current.trans hcurrent) (hfirst.founded hfounded))
  · exact hfirst

theorem discard (h : p.Stays base action) : p.Stays base (Functor.discard action) := by
  intro w hcurrent hfounded
  rw [Action.run_discard]
  exact h w hcurrent hfounded

theorem quietly (h : p.Stays base action) : p.Stays base (Watch.quietly action) :=
  (discard h).tryCatch fun _ => pure ()

theorem withRoutes (h : p.Stays base action) (routes : Router) : p.Stays base (Action.withRoutes routes action) :=
  fun w hcurrent hfounded => h { w with routes } hcurrent hfounded

theorem foldlM {step : β → α → Action β} (h : ∀ r x, p.Stays base (step r x)) : ∀ (xs : List α) (r : β),
    p.Stays base (xs.foldlM step r)
  | [], r => pure r
  | x :: xs, r => by
    rw [List.foldlM_cons]
    exact (h r x).bind (foldlM h xs)

theorem get : p.Stays base (MonadState.get : Action Workspace) := of_files_eq fun _ => rfl

end Stays

theorem stays_writeText {q : Path} (h : Inward p.output q) (content : List UInt8) :
    p.Stays base (Action.ofFiles (FileTree.writeText q content)) := by
  rintro w rfl hfounded
  exact confined_writeText hfounded h content

section

variable (hflat : p.rules.IsFlat) (hbase : ".." ∉ base)
include hflat hbase

theorem stays_convertPage (register : Bool) (path : Path) : p.Stays base (p.convertPage register path) := by
  rintro w rfl hfounded
  rw [run_convertPage]
  cases hrel : p.relative w.files.current path with
  | error f => exact .refl ..
  | ok rel =>
    simp only
    cases p.moduleOf w.files rel with
    | error f => exact .refl ..
    | ok text =>
      obtain ⟨names, hup, hout⟩ := outputPath_descends hflat (relative_eq_ok.1 hrel).2.1 (parent_notMem_relative hbase hrel)
      have hwrite := confined_writeText hfounded ⟨names, hup, .inl hout⟩ (Text.encode text)
      simp only
      rcases hrun : (writeText (p.outputPath rel) (Text.encode text)).run.run w.files with ⟨e | u, files⟩ <;>
        rw [hrun] at hwrite <;> exact hwrite

theorem stays_placeAsset (path : Path) : p.Stays base (p.placeAsset path) := by
  rintro w rfl hfounded
  rw [run_placeAsset]
  cases hdest : p.destination w.files.current path with
  | error f => exact .refl ..
  | ok target =>
    obtain ⟨rel, hrel, -, rfl⟩ := (destination_eq_ok p).1 hdest
    obtain ⟨names, hup, hout⟩ := outputPath_descends hflat (relative_eq_ok.1 hrel).2.1 (parent_notMem_relative hbase hrel)
    have hmade := confined_makeDirectories_parent (t := w.files) (q := p.output.descend names) ⟨names, hup, .inl rfl⟩
    simp only [hout]
    rcases hrun : (makeDirectories (p.output.descend names).parent).run.run w.files with ⟨e | u, files⟩ <;>
      rw [hrun] at hmade
    · exact hmade
    · have hcopy := confined_copy (D := OnPath p.output files.current) (t := files)
        (hmade.current ▸ hmade.founded hfounded) hup path
      rw [hmade.current] at hcopy
      simp only
      rcases hrun' : (copy path (p.output.descend names)).run.run files with ⟨e | u, files'⟩ <;>
        rw [hrun'] at hcopy <;> exact hmade.trans hcopy

theorem stays_clearOutput (path : Path) : p.Stays base (p.clearOutput path) := by
  rintro w rfl hfounded
  rw [run_clearOutput]
  cases hdest : p.destination w.files.current path with
  | error f => exact .refl ..
  | ok target =>
    obtain ⟨rel, hrel, -, rfl⟩ := (destination_eq_ok p).1 hdest
    obtain ⟨names, hup, hout⟩ := outputPath_descends hflat (relative_eq_ok.1 hrel).2.1 (parent_notMem_relative hbase hrel)
    have hremove := confined_remove (D := OnPath p.output w.files.current) (t := w.files) (o := p.output) hup
    simp only [hout]
    cases w.files.look (p.output.descend names) with
    | error e => exact .refl ..
    | ok node =>
      cases node with
      | none => exact .refl ..
      | some node =>
        simp only
        rcases hrun : (remove (p.output.descend names)).run.run w.files with ⟨e | u, files⟩ <;>
          rw [hrun] at hremove <;> exact hremove

theorem stays_visit (copyStatic : Bool) (report : Report) (path : Path) :
    p.Stays base (p.visit copyStatic report path) := by
  unfold visit
  split
  · exact ((stays_convertPage hflat hbase true path).discard.bind fun _ => .pure _).tryCatch fun _ => .pure _
  · split
    · exact (stays_placeAsset hflat hbase path).discard.bind fun _ => .pure _
    · exact .pure _

theorem stays_walk (copyStatic : Bool) : ∀ (depth : Nat) (report : Report) (dir : Path),
    p.Stays base (p.walk copyStatic depth report dir)
  | 0, report, _ => .pure report
  | depth + 1, report, dir => by
    rw [walk]
    refine Stays.get.bind fun w => ?_
    simp only
    split
    · exact .pure _
    · refine (Stays.foldlM (fun r name => stays_visit hflat hbase copyStatic r _) _ _).bind fun r => ?_
      exact Stays.foldlM (fun r name => stays_walk copyStatic depth r _) _ _

theorem stays_build (copyStatic : Bool) : p.Stays base (p.build copyStatic) := by
  unfold build
  refine Stays.bind (.ofExcept _) fun _ => Stays.bind (.of_files_eq fun _ => rfl) fun node => ?_
  have hrest : p.Stays base (do
      modify fun w => { w with routes := w.routes.cleared }
      let report ← p.walk copyStatic (walkDepth (← MonadState.get).files) {} p.source
      Action.ofExcept (p.rules.ask .routeModule)
      Action.ofFiles (FileTree.writeText p.routePath (Text.encode (← MonadState.get).routes.entryModule))
      return { report with entryModule := some p.routePath } : Action Report) := by
    refine Stays.bind (.of_files_eq fun _ => rfl) fun _ => Stays.get.bind fun w => ?_
    refine (stays_walk hflat hbase copyStatic _ _ _).bind fun report => Stays.bind (.ofExcept _) fun _ => ?_
    refine Stays.get.bind fun w' => ?_
    exact (stays_writeText (inward_routePath hflat) _).bind fun _ => .pure _
  match node with
  | some (.file _) => exact hrest
  | some .directory => exact .throw _
  | none => exact .throw _

end

/-! ## Requests -/

/-- **What can be asked of a project**, on any path. -/
inductive Request where
  | transpile (register : Bool) (path : Path)
  | transpileAll (alone copyStatic : Bool)
  | copyAsset (path : Path)
  | removeOutput (path : Path)
  | event (e : FileEvent)

def Request.action (p : Project) : Request → Action Unit
  | .transpile register path       => discard (p.convertPage register path)
  | .transpileAll alone copyStatic => discard (if alone then p.buildAlone copyStatic else p.build copyStatic)
  | .copyAsset path                => discard (p.placeAsset path)
  | .removeOutput path             => discard (p.clearOutput path)
  | .event e                       => Watch.handle p e

/-- **The workspace that requests leave**, each come out well or not. -/
def serve (p : Project) (requests : List Request) (w : Workspace) : Workspace :=
  requests.foldl (fun w request => ((request.action p).run.run w).2) w

section

variable (hflat : p.rules.IsFlat) (hbase : ".." ∉ base)
include hflat hbase

theorem stays_handle (e : FileEvent) : p.Stays base (Watch.handle p e) := by
  have hbuild : ∀ copyStatic, p.Stays base (Watch.quietly (p.buildAlone copyStatic)) := fun copyStatic =>
    ((stays_build hflat hbase copyStatic).withRoutes _).quietly
  have hdeletion : ∀ path, p.Stays base (Watch.afterDeletion p path) := fun path =>
    (hbuild false).bind fun _ => (stays_clearOutput hflat hbase path).quietly
  cases e with
  | created _ => exact hbuild true
  | modified path =>
    refine Stays.quietly ?_
    split
    · exact stays_convertPage hflat hbase false path
    · exact stays_placeAsset hflat hbase path
  | deleted path => exact hdeletion path
  | moved path _ => exact (hdeletion path).bind fun _ => hbuild true

/-- **No request reaches outside the output directory.** -/
theorem stays_action (request : Request) : p.Stays base (request.action p) := by
  cases request with
  | transpile register path => exact (stays_convertPage hflat hbase register path).discard
  | transpileAll alone copyStatic =>
    refine Stays.discard ?_
    split
    · exact (stays_build hflat hbase copyStatic).withRoutes _
    · exact stays_build hflat hbase copyStatic
  | copyAsset path => exact (stays_placeAsset hflat hbase path).discard
  | removeOutput path => exact (stays_clearOutput hflat hbase path).discard
  | event e => exact stays_handle hflat hbase e

/-- **Nor does a sequence of them.** -/
theorem confined_serve : ∀ (requests : List Request) {w : Workspace}, w.files.current = base →
    Founded (p.outputPlace base) w.files →
      Confined (p.outputPlace base) (OnPath p.output base) w.files (p.serve requests w).files
  | [], _, _, _ => .refl ..
  | request :: requests, w, hcurrent, hfounded => by
    have hfirst := stays_action hflat hbase request w hcurrent hfounded
    exact hfirst.trans (confined_serve requests (hfirst.current.trans hcurrent) (hfirst.founded hfounded))

end

/-! ## A project whose roots have been checked -/

theorem hasNul_of_isDirectory {t : FileTree} {q : Path} (h : t.isDirectory q = true) : q.hasNul = false := by
  unfold isDirectory node? at h
  cases hloc : t.locate q with
  | error fault => simp [hloc] at h
  | ok loc => exact hasNul_of_pathFault? (locate_eq_ok.1 hloc).1

theorem isDirectory_of_look {q : Path} {t t' : FileTree} (h : (ensureRoots.look q).run.run t = (.ok (some .directory), t')) :
    t' = t ∧ t.isDirectory q = true := by
  unfold ensureRoots.look at h
  rw [run_bind, run_get] at h
  simp only at h
  cases hlook : t.look q with
  | error e =>
    rw [hlook] at h
    cases h
  | ok node =>
    rw [hlook] at h
    obtain ⟨rfl, rfl⟩ : node = some .directory ∧ t = t' := ⟨Except.ok.inj (congrArg Prod.fst h), congrArg Prod.snd h⟩
    refine ⟨rfl, ?_⟩
    unfold isDirectory
    rw [look_eq_some.1 hlook]
    rfl

/-- **A project whose roots have been checked** has a source that a file system can hold, and its output directory. -/
theorem roots_of_ensureRoots {runner : Scaffold.Runner} {t t' : FileTree}
    (h : (p.ensureRoots runner).run.run t = (.ok (), t')) :
    p.source.hasNul = false ∧ t'.isDirectory p.output = true := by
  have hlast : ∀ t₁ f, (do
      if (← ensureRoots.look p.output) ≠ some .directory then throw f : FileAction Failure Unit).run.run t₁ = (.ok (), t') →
        t'.isDirectory p.output = true := by
    intro t₁ f hrun
    obtain ⟨node, t₂, hlook, hend⟩ := run_bind_eq_ok.1 hrun
    by_cases hdir : node = some .directory
    · subst hdir
      obtain ⟨rfl, hout⟩ := isDirectory_of_look hlook
      rw [if_neg (by simp)] at hend
      have hstate : t₂ = t' := congrArg Prod.snd hend
      rwa [← hstate]
    · rw [if_pos hdir] at hend
      cases hend
  unfold ensureRoots at h
  obtain ⟨node, t₁, hlook, hrest⟩ := run_bind_eq_ok.1 h
  by_cases hdir : node = some .directory
  · subst hdir
    obtain ⟨rfl, hsource⟩ := isDirectory_of_look hlook
    refine ⟨hasNul_of_isDirectory hsource, ?_⟩
    rw [if_neg (by simp)] at hrest
    obtain ⟨dest, t₂, -, hend⟩ := run_bind_eq_ok.1 hrest
    cases hmissing : dest.isNone with
    | false =>
      rw [hmissing, if_neg (by simp)] at hend
      exact hlast _ _ hend
    | true =>
      rw [hmissing, if_pos rfl] at hend
      cases henabled : p.rules.scaffoldEnabled with
      | true =>
        rw [henabled] at hend
        obtain ⟨u, t₃, -, hmade⟩ := run_bind_eq_ok.1 hend
        exact hlast _ _ hmade
      | false =>
        rw [henabled] at hend
        cases hend
  · rw [if_pos hdir] at hrest
    cases hrest

/-- **A project that works inside its output directory**, whatever it is asked: it refuses a path exactly when that leads out of
the source, and answers with a path into the output directory otherwise; after any requests everything outside the output
directory is as it was, and so is the source, if it stands apart. -/
structure IsConfined (p : Project) (w : Workspace) : Prop where
  refused : ∀ path, (∃ cause file, p.destination w.files.current path = .error (.of cause file) ∧
    cause.kind = .configuration) ↔ p.LeadsOut w.files.current path
  inside : ∀ path, ¬ p.LeadsOut w.files.current path →
    ∃ names, ".." ∉ names ∧ p.destination w.files.current path = .ok (p.output.descend names)
  outside : ∀ requests l, ¬ p.outputPlace w.files.current <+: l → (p.serve requests w).files.get? l = w.files.get? l
  source : ¬ p.source.resolveFrom w.files.current <+: p.outputPlace w.files.current →
    ¬ p.outputPlace w.files.current <+: p.source.resolveFrom w.files.current →
      ∀ requests names, (p.serve requests w).files.get? (p.source.resolveFrom w.files.current ++ names) =
        w.files.get? (p.source.resolveFrom w.files.current ++ names)

/-- **A project works inside its output directory** once its roots have been checked, if its names lead nowhere else. -/
theorem isConfined_serve {runner : Scaffold.Runner} {t : FileTree} {w : Workspace} (hflat : p.rules.IsFlat)
    (ht : w.files.IsTree) (hroots : (p.ensureRoots runner).run.run t = (.ok (), w.files)) : p.IsConfined w := by
  obtain ⟨hnul, hdir⟩ := roots_of_ensureRoots hroots
  have hbase : ".." ∉ w.files.current := parent_notMem fun s hs => (ht.isName_of_get? ht.current s hs).toIsPlain
  have hinside : ∀ path, ¬ p.LeadsOut w.files.current path →
      ∃ names, ".." ∉ names ∧ p.destination w.files.current path = .ok (p.output.descend names) := fun path h =>
    destination_of_staysIn hflat hnul hbase h
  have houtside : ∀ requests l, ¬ p.outputPlace w.files.current <+: l →
      (p.serve requests w).files.get? l = w.files.get? l := by
    intro requests l hl
    have hconfined := confined_serve hflat hbase requests rfl (ht.founded _)
    refine hconfined.get?_eq hl fun hpath => ?_
    obtain ⟨loc, hloc, -⟩ := node?_eq_some.1 (by simpa [isDirectory] using hdir)
    exact isSome_of_onPath ht hloc hpath
  refine ⟨fun path => ⟨?_, fun h => ⟨_, _, destination_of_leadsOut hnul h, rfl⟩⟩, hinside, houtside, ?_⟩
  · rintro ⟨cause, file, hrefused, -⟩
    by_contra hstays
    obtain ⟨names, -, hanswer⟩ := hinside path hstays
    rw [hanswer] at hrefused
    cases hrefused
  · intro hbelow habove requests names
    exact houtside requests _ (not_prefix_append hbelow habove names)

/-- A runner of commands that all succeed and do nothing. -/
def idleRunner : Scaffold.Runner := fun _ => pure (.exit 0)

theorem isConfined_shelf : shelfProject.IsConfined shelf := by
  have hroots : (shelfProject.ensureRoots idleRunner).run.run shelf.files = (.ok (), shelf.files) := rfl
  exact isConfined_serve (by decide) (by decide +kernel) hroots

/-- A project whose entry module is called `..`. -/
def dottedProject : Project :=
  ⟨Path.ofString "/site", Path.ofString "/app", { entryComponent := ".", moduleExtension := "." }, [], [], Html.read⟩

/-- A project whose output directory is its source. -/
def foldedProject : Project := ⟨Path.ofString "/site", Path.ofString "/app", { outputSubdir := "../site" }, [], [], Html.read⟩

/-- **Names without slashes, and roots that stand apart, are not enough**: a copy of the entry document leaves the output
directory of the one project, and the module of the entry document is written into the source of the other. -/
theorem outside_dottedProject_foldedProject :
    (∀ p ∈ [dottedProject, foldedProject], '/' ∉ p.rules.entryComponent.toList ∧ '/' ∉ p.rules.moduleExtension.toList ∧
      '/' ∉ p.rules.routeModule.toList ∧ ((p.ensureRoots idleRunner).run.run shelf.files).1 = .ok () ∧
      ¬ p.source.resolveFrom [] <+: p.dest.resolveFrom [] ∧ ¬ p.dest.resolveFrom [] <+: p.source.resolveFrom []) ∧
    ¬ dottedProject.outputPlace [] <+: ["app", "index.html"] ∧ shelf.files.get? ["app", "index.html"] = none ∧
    (dottedProject.serve [.copyAsset ⟨1, ["site", "index.html"]⟩] shelf).files.get? ["app", "index.html"] =
      shelf.files.get? ["site", "index.html"] ∧
    shelf.files.get? ["site", "App.js"] = none ∧
    ((foldedProject.serve [.transpile false ⟨0, ["index.html"]⟩] shelf).files.get? ["site", "App.js"]).isSome := by
  decide +kernel

end Project
end ReactSite
