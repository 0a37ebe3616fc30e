import ReactSite.Proofs.Listing
import ReactSite.Proofs.Steps
/-!
# Trail — the visits of a pass, one after another

A walk looks a directory up when it reaches it, so what it visits depends on what the visits before have made.  The files
it visits are listed here together with the workspace each of them is visited in (`walked`, `visits`).  A walk is a run
through this list (`walk_eq`); a pass that comes to its end reports what happened on each visit (`build_eq_ok`), and has
registered the routes of these visits (`routes_afterAll`).
-/
namespace ReactSite

def Report.append (r s : Report) : Report where
  pages := r.pages + s.pages
  assets := r.assets + s.assets
  failures := r.failures ++ s.failures
  entryModule := r.entryModule

/-- **A visit**: a file, and the workspace in which it is visited. -/
structure Visit where
  path : Path
  before : Workspace

namespace Project

variable (p : Project) (copyStatic : Bool)

/-! ## Visits in sequence -/

/-- The workspace that a visit leaves. -/
def after (path : Path) (w : Workspace) : Workspace := ((p.visit copyStatic {} path).run.run w).2

def afterAll (paths : List Path) (w : Workspace) : Workspace := paths.foldl (fun w path => p.after copyStatic path w) w

def visits : List Path → Workspace → List Visit
  | [], _ => []
  | path :: paths, w => ⟨path, w⟩ :: visits paths (p.after copyStatic path w)

/-- What the conversion of a visited document comes to. -/
def result (v : Visit) : Except Failure Path := ((p.convertPage true v.path).run.run v.before).1

def converts (v : Visit) : Bool := p.isPage v.path && (p.result v).isOk

/-- The entry of a document that failed in a report. -/
def failure? (v : Visit) : Option (String × String) :=
  if p.isPage v.path then match p.result v with
    | .ok _    => none
    | .error f => some ((p.visitedPath v.path).toString, f.message)
  else none

/-- A visit after which the pass goes on: what is no document is copied if it is to be. -/
def GoesOn (v : Visit) : Prop :=
  p.isPage v.path = false → copyStatic = true → ∃ target, ((p.placeAsset v.path).run.run v.before).1 = .ok target

/-- **The report of a sequence of visits.** -/
def reportOf (vs : List Visit) : Report where
  pages := vs.countP p.converts
  assets := if copyStatic then vs.countP fun v => !p.isPage v.path else 0
  failures := vs.filterMap p.failure?

/-- **The route that a visit registers.** -/
def registered? (v : Visit) : Option PageRoute :=
  match p.converts v, p.relative v.before.files.current v.path with
  | true, .ok relative => if p.isEntryPath relative then none else some (Router.entryFor (directoryOf relative) relative.stem)
  | _, _               => none

variable {p : Project} {copyStatic : Bool}

@[simp] theorem afterAll_nil (w : Workspace) : p.afterAll copyStatic [] w = w := rfl

@[simp] theorem afterAll_cons (path : Path) (paths : List Path) (w : Workspace) :
    p.afterAll copyStatic (path :: paths) w = p.afterAll copyStatic paths (p.after copyStatic path w) := rfl

theorem map_path_visits : ∀ (paths : List Path) (w : Workspace), (p.visits copyStatic paths w).map (·.path) = paths
  | [], _ => rfl
  | path :: paths, w => by rw [visits, List.map_cons, map_path_visits paths]

/-- A visit is made in the workspace that the visits before it leave. -/
theorem exists_of_mem_visits {v : Visit} : ∀ {paths : List Path} {w : Workspace}, v ∈ p.visits copyStatic paths w →
    ∃ done rest, paths = done ++ v.path :: rest ∧ v.before = p.afterAll copyStatic done w
  | [], _, h => by cases h
  | path :: paths, w, h => by
    rcases List.mem_cons.1 h with rfl | h
    · exact ⟨[], paths, rfl, rfl⟩
    · obtain ⟨done, rest, rfl, hbefore⟩ := exists_of_mem_visits h
      exact ⟨path :: done, rest, rfl, hbefore⟩

theorem afterAll_append (xs ys : List Path) (w : Workspace) :
    p.afterAll copyStatic (xs ++ ys) w = p.afterAll copyStatic ys (p.afterAll copyStatic xs w) :=
  List.foldl_append

theorem visits_append : ∀ (xs ys : List Path) (w : Workspace), p.visits copyStatic (xs ++ ys) w =
    p.visits copyStatic xs w ++ p.visits copyStatic ys (p.afterAll copyStatic xs w)
  | [], _, _ => rfl
  | path :: xs, ys, w => by rw [List.cons_append, visits, visits, visits_append xs ys, List.cons_append, afterAll_cons]

section

variable {path : Path} {x y : Workspace} (hresult : p.result ⟨path, y⟩ = p.result ⟨path, x⟩)
include hresult

/-- What a visit reports and registers is told by what the conversion comes to. -/
theorem failure?_congr : p.failure? ⟨path, y⟩ = p.failure? ⟨path, x⟩ := by
  unfold failure?
  rw [hresult]

theorem converts_congr : p.converts ⟨path, y⟩ = p.converts ⟨path, x⟩ := by
  unfold converts
  rw [hresult]

theorem registered?_congr (hcurrent : y.files.current = x.files.current) :
    p.registered? ⟨path, y⟩ = p.registered? ⟨path, x⟩ := by
  unfold registered?
  rw [converts_congr hresult, hcurrent]

end

/-! ## How a visit ends -/

/-- **How a visit ends**: well, unless an asset is to be copied and that fails. -/
theorem visit_cases (r : Report) (path : Path) (w : Workspace) :
    (p.GoesOn copyStatic ⟨path, w⟩ ∧ (p.visit copyStatic r path).run.run w =
      (.ok (r.append (p.reportOf copyStatic [⟨path, w⟩])), p.after copyStatic path w)) ∨
    (¬ p.GoesOn copyStatic ⟨path, w⟩ ∧ ∃ f, (p.visit copyStatic r path).run.run w = (.error f, p.after copyStatic path w)) := by
  unfold after GoesOn
  rw [run_visit, run_visit]
  by_cases hpage : p.isPage path = true
  · refine .inl ⟨fun h => by simp [hpage] at h, ?_⟩
    rcases hrun : (p.convertPage true path).run.run w with ⟨f | target, w'⟩ <;>
      simp [Report.append, reportOf, converts, result, failure?, hpage, hrun, Except.isOk, Except.toBool]
  · cases copyStatic with
    | true =>
      simp only [hpage, Bool.false_eq_true, if_false, if_true]
      rcases hrun : (p.placeAsset path).run.run w with ⟨f | target, w'⟩
      · exact .inr ⟨by simp, f, rfl⟩
      · left
        simp [Report.append, reportOf, converts, failure?, hpage]
    | false =>
      left
      simp [Report.append, reportOf, converts, failure?, hpage]

theorem reportOf_cons (v : Visit) (vs : List Visit) :
    p.reportOf copyStatic (v :: vs) = (p.reportOf copyStatic [v]).append (p.reportOf copyStatic vs) := by
  unfold reportOf Report.append
  congr 1
  · simp [List.countP_cons, Nat.add_comm]
  · split
    · simp [List.countP_cons, Nat.add_comm]
    · rfl
  · simp [List.filterMap_cons]
    cases p.failure? v <;> rfl

theorem append_assoc (r s u : Report) : (r.append s).append u = r.append (s.append u) := by
  simp [Report.append, Nat.add_assoc]

theorem append_reportOf_nil (r : Report) : r.append (p.reportOf copyStatic []) = r := by
  simp [Report.append, reportOf]

/-- **How a sequence of visits ends**: with the last of them, or with the first that ends the pass. -/
theorem visits_cases (p : Project) (copyStatic : Bool) : ∀ (paths : List Path) (r : Report) (w : Workspace),
    ((∀ v ∈ p.visits copyStatic paths w, p.GoesOn copyStatic v) ∧
      (paths.foldlM (p.visit copyStatic) r).run.run w =
        (.ok (r.append (p.reportOf copyStatic (p.visits copyStatic paths w))), p.afterAll copyStatic paths w)) ∨
    ((∃ v ∈ p.visits copyStatic paths w, ¬ p.GoesOn copyStatic v) ∧ ∃ f done, done <+: paths ∧
      (paths.foldlM (p.visit copyStatic) r).run.run w = (.error f, p.afterAll copyStatic done w))
  | [], r, w => by
    refine .inl ⟨by simp [visits], ?_⟩
    rw [visits, append_reportOf_nil]
    rfl
  | path :: paths, r, w => by
    rw [visits, List.foldlM_cons, run_bind, afterAll_cons, reportOf_cons, ← append_assoc]
    rcases visit_cases r path w with ⟨hgo, hrun⟩ | ⟨hstop, f, hrun⟩
    · rw [hrun]
      rcases visits_cases p copyStatic paths (r.append (p.reportOf copyStatic [⟨path, w⟩])) (p.after copyStatic path w) with
        ⟨hall, hrest⟩ | ⟨⟨v, hv, hstop⟩, f, done, hdone, hrest⟩
      · exact .inl ⟨List.forall_mem_cons.2 ⟨hgo, hall⟩, hrest⟩
      · exact .inr ⟨⟨v, List.mem_cons_of_mem _ hv, hstop⟩, f, path :: done, (List.prefix_cons_inj path).2 hdone, hrest⟩
    · rw [hrun]
      exact .inr ⟨⟨_, List.mem_cons_self, hstop⟩, f, [path], (List.prefix_cons_inj path).2 List.nil_prefix, rfl⟩

theorem state_of_visits {paths : List Path} {r r' : Report} {w w' : Workspace}
    (h : (paths.foldlM (p.visit copyStatic) r).run.run w = (.ok r', w')) : w' = p.afterAll copyStatic paths w := by
  rcases visits_cases p copyStatic paths r w with ⟨-, hrun⟩ | ⟨-, f, done, -, hrun⟩
  · rw [hrun] at h
    exact (congrArg Prod.snd h).symm
  · rw [hrun] at h
    cases h

/-! ## The files that a walk visits -/

variable (p copyStatic)

/-- The files visited in one directory after another; `go` says what is visited in each. -/
def walkedEach (go : String → Workspace → List Path) : List String → Workspace → List Path
  | [], _ => []
  | name :: names, w => go name w ++ walkedEach go names (p.afterAll copyStatic (go name w) w)

/-- **The files that a walk visits**, each directory as it stands when the walk reaches it. -/
def walked : Nat → Path → Workspace → List Path
  | 0, _, _ => []
  | depth + 1, dir, w => match w.files.locate dir with
    | .error _ => []
    | .ok loc  =>
      let here := (w.files.fileNames loc).map dir.child
      here ++ p.walkedEach copyStatic (fun name => walked depth (dir.child name)) (w.files.directoryNames loc)
        (p.afterAll copyStatic here w)

variable {p copyStatic}

theorem run_visits_append (xs ys : List Path) (r : Report) (w : Workspace) :
    ((xs ++ ys).foldlM (p.visit copyStatic) r).run.run w = match (xs.foldlM (p.visit copyStatic) r).run.run w with
      | (.ok r', _)    => (ys.foldlM (p.visit copyStatic) r').run.run (p.afterAll copyStatic xs w)
      | (.error f, w') => (.error f, w') := by
  rw [List.foldlM_append, run_bind]
  rcases hrun : (xs.foldlM (p.visit copyStatic) r).run.run w with ⟨f | r', w'⟩
  · rfl
  · rw [state_of_visits hrun]

/-- **A walk is a run through the files it visits.** -/
theorem walk_eq : ∀ (depth : Nat) (dir : Path) (r : Report) (w : Workspace), (p.walk copyStatic depth r dir).run.run w =
    ((p.walked copyStatic depth dir w).foldlM (p.visit copyStatic) r).run.run w
  | 0, _, _, _ => rfl
  | depth + 1, dir, r, w => by
    have heach : ∀ (names : List String) (r : Report) (w : Workspace),
        (names.foldlM (fun r name => p.walk copyStatic depth r (dir.child name)) r).run.run w =
          ((p.walkedEach copyStatic (fun name => p.walked copyStatic depth (dir.child name)) names w).foldlM
            (p.visit copyStatic) r).run.run w := by
      intro names
      induction names with
      | nil => exact fun _ _ => rfl
      | cons name names ih =>
        intro r w
        rw [walkedEach, List.foldlM_cons, run_bind, run_visits_append, walk_eq depth]
        rcases hrun : ((p.walked copyStatic depth (dir.child name) w).foldlM (p.visit copyStatic) r).run.run w with
          ⟨f | r', w'⟩
        · rfl
        · rw [state_of_visits hrun]
          exact ih r' _
    rw [walk, walked, run_bind, run_get]
    simp only
    cases w.files.locate dir with
    | error fault => rfl
    | ok loc =>
      simp only
      rw [run_bind, run_visits_append, List.foldlM_map]
      rcases hrun : ((w.files.fileNames loc).foldlM (fun r name => p.visit copyStatic r (dir.child name)) r).run.run w with
        ⟨f | r', w'⟩
      · rfl
      · have hrun' : (((w.files.fileNames loc).map dir.child).foldlM (p.visit copyStatic) r).run.run w = (.ok r', w') := by
          rwa [List.foldlM_map]
        rw [state_of_visits hrun']
        exact heach _ r' _

/-! ## The routes that visits register -/

theorem routes_after (path : Path) (w : Workspace) : (p.after copyStatic path w).routes =
    { w.routes with entries := w.routes.entries ++ (p.registered? ⟨path, w⟩).toList } := by
  unfold after registered? converts result
  rw [run_visit]
  by_cases hpage : p.isPage path = true
  · simp only [hpage, if_true, Bool.true_and, run_convertPage]
    cases p.relative w.files.current path with
    | error f => simp [Except.isOk, Except.toBool]
    | ok relative =>
      simp only
      cases p.moduleOf w.files relative with
      | error f => simp [Except.isOk, Except.toBool]
      | ok text =>
        simp only
        rcases (FileTree.writeText (p.outputPath relative) (Text.encode text)).run.run w.files with ⟨e | u, files⟩
        · simp [Except.isOk, Except.toBool]
        · cases hentry : p.isEntryPath relative <;> simp [Except.isOk, Except.toBool, hentry, Router.add]
  · simp only [hpage, Bool.false_eq_true, if_false, Bool.false_and, Option.toList_none, List.append_nil]
    split
    · rw [run_placeAsset]
      cases p.destination w.files.current path with
      | error f => rfl
      | ok target =>
        simp only
        rcases (FileTree.makeDirectories target.parent).run.run w.files with ⟨e | u, files⟩
        · rfl
        · simp only
          rcases (FileTree.copy path target).run.run files with ⟨e | u, files'⟩ <;> rfl
    · rfl

/-- **Visits register the routes of the documents that they convert, in order.** -/
theorem routes_afterAll : ∀ (paths : List Path) (w : Workspace), (p.afterAll copyStatic paths w).routes =
    { w.routes with entries := w.routes.entries ++ (p.visits copyStatic paths w).filterMap p.registered? }
  | [], w => by simp [visits]
  | path :: paths, w => by
    rw [afterAll_cons, routes_afterAll paths, routes_after, visits, List.filterMap_cons]
    cases p.registered? ⟨path, w⟩ <;> simp

/-! ## A whole pass -/

variable (p copyStatic)

/-- The workspace a pass starts to walk in: the routes of earlier passes are gone. -/
def fresh (w : Workspace) : Workspace := { w with routes := w.routes.cleared }

def trailPaths (w : Workspace) : List Path := p.walked copyStatic (walkDepth w.files) p.source (fresh w)

/-- **The visits of a pass.** -/
def trail (w : Workspace) : List Visit := p.visits copyStatic (p.trailPaths copyStatic w) (fresh w)

/-- The workspace after the visits of a pass, before the entry module is written. -/
def walkedThrough (w : Workspace) : Workspace := p.afterAll copyStatic (p.trailPaths copyStatic w) (fresh w)

def entryPath : Path := p.source.join (Path.ofString p.rules.entryDocument)

def routePath : Path := p.output.join (Path.ofString p.rules.routeModule)

/-- **A pass that comes to its end.** -/
structure Passes (w : Workspace) (r : Report) (w' : Workspace) : Prop where
  document : p.rules.ask .entryDocument = .ok ()
  module : p.rules.ask .routeModule = .ok ()
  entry : w.files.isFile p.entryPath = true
  goesOn : ∀ v ∈ p.trail copyStatic w, p.GoesOn copyStatic v
  report : r = { p.reportOf copyStatic (p.trail copyStatic w) with entryModule := some p.routePath }
  routes : w'.routes = (p.walkedThrough copyStatic w).routes
  files : (FileTree.writeText p.routePath (Text.encode (p.walkedThrough copyStatic w).routes.entryModule)).run.run
    (p.walkedThrough copyStatic w).files = (.ok (), w'.files)

variable {p copyStatic}

theorem isFile_of_build {w w' : Workspace} {r : Report} (h : (p.build copyStatic).run.run w = (.ok r, w')) :
    p.rules.ask .entryDocument = .ok () ∧ w.files.isFile p.entryPath = true := by
  unfold build at h
  obtain ⟨⟨⟩, w₀, hask, h⟩ := run_bind_eq_ok.1 h
  obtain ⟨hdocument, rfl⟩ := Prod.mk.inj ((Action.run_ofExcept w _).symm.trans hask)
  refine ⟨hdocument, ?_⟩
  obtain ⟨node, w₁, hlook, h⟩ := run_bind_eq_ok.1 h
  have hok : (w.files.look p.entryPath).mapError Failure.file = .ok node :=
    congrArg Prod.fst ((run_look w p.entryPath).symm.trans hlook)
  match node, h with
  | some (.file content), _ =>
    refine FileTree.isFile_iff.2 ⟨content, FileTree.look_eq_some.1 ?_⟩
    cases hlk : w.files.look p.entryPath with
    | ok node => simpa [hlk, Except.mapError] using hok
    | error e => simp [hlk, Except.mapError] at hok
  | some .directory, h => cases h
  | none, h => cases h

theorem run_build {w : Workspace} (hdocument : p.rules.ask .entryDocument = .ok ())
    (hentry : w.files.isFile p.entryPath = true) : (p.build copyStatic).run.run w =
    match ((p.trailPaths copyStatic w).foldlM (p.visit copyStatic) {}).run.run (fresh w) with
    | (.error f, w')   => (.error f, w')
    | (.ok report, w') => match p.rules.ask .routeModule with
      | .error f => (.error f, w')
      | .ok _    => match (FileTree.writeText p.routePath (Text.encode w'.routes.entryModule)).run.run w'.files with
        | (.error e, files) => (.error (.file e), { w' with files })
        | (.ok _, files)    => (.ok { report with entryModule := some p.routePath }, { w' with files }) := by
  obtain ⟨content, hnode⟩ := FileTree.isFile_iff.1 hentry
  have hlook := FileTree.look_eq_some.2 hnode
  unfold entryPath at hlook
  unfold build trailPaths fresh routePath
  rw [run_bind, Action.run_ofExcept, hdocument]
  simp only
  rw [run_bind, run_look, hlook]
  simp only [Except.mapError, run_bind, run_modify, run_get, walk_eq, Action.run_ofFiles, Action.run_ofExcept]
  split
  · rename_i report w' hwalk
    rw [hwalk]
    simp only
    cases p.rules.ask .routeModule with
    | error f => rfl
    | ok u =>
    simp only
    rcases (FileTree.writeText (p.output.join (Path.ofString p.rules.routeModule))
      (Text.encode w'.routes.entryModule)).run.run w'.files with ⟨e | u, files⟩ <;> rfl
  · rename_i f w' hwalk
    rw [hwalk]

/-- **A pass comes to its end** exactly when the entry document is there, no asset fails and the entry module can be
written. -/
theorem build_eq_ok {w w' : Workspace} {r : Report} :
    (p.build copyStatic).run.run w = (.ok r, w') ↔ p.Passes copyStatic w r w' := by
  constructor
  · intro h
    obtain ⟨hdocument, hentry⟩ := isFile_of_build h
    rw [run_build hdocument hentry] at h
    rcases visits_cases p copyStatic (p.trailPaths copyStatic w) {} (fresh w) with
      ⟨hall, hrun⟩ | ⟨-, f, done, -, hrun⟩
    · rw [hrun] at h
      simp only at h
      cases hmodule : p.rules.ask .routeModule with
      | error f =>
        rw [hmodule] at h
        cases h
      | ok u =>
        simp only [hmodule] at h
        split at h
        · cases h
        · rename_i files hwrite
          cases h
          exact ⟨hdocument, hmodule, hentry, hall, by simp [Report.append, trail], rfl, hwrite⟩
    · rw [hrun] at h
      cases h
  · rintro ⟨hdocument, hmodule, hentry, hall, hreport, hroutes, hfiles⟩
    rw [run_build hdocument hentry]
    rcases visits_cases p copyStatic (p.trailPaths copyStatic w) {} (fresh w) with
      ⟨-, hrun⟩ | ⟨⟨v, hv, hstop⟩, -⟩
    · unfold walkedThrough at hroutes hfiles
      rw [hrun]
      simp only [hmodule, hfiles]
      rw [hreport, ← hroutes]
      simp [Report.append, trail]
    · exact absurd (hall v hv) hstop

/-- The workspace in which a pass with routes of its own starts. -/
def alone (p : Project) (w : Workspace) : Workspace := { w with routes := { entryComponent := p.rules.entryComponent } }

theorem run_buildAlone (copyStatic : Bool) (w : Workspace) : (p.buildAlone copyStatic).run.run w =
    (((p.build copyStatic).run.run { w with routes := { entryComponent := p.rules.entryComponent } }).1,
      { ((p.build copyStatic).run.run { w with routes := { entryComponent := p.rules.entryComponent } }).2 with
        routes := w.routes }) := by
  unfold buildAlone Action.withRoutes
  rfl

end Project
end ReactSite
