import ReactSite.Proofs.Beside
/-!
# Isolation — a changed document changes its own output only

Two passes over sites that differ in the bytes of one document report the same for every other document and leave the same
at the output of every other file; their entry modules differ in the two lines of the changed document at most, which stand
there when it was converted (`build_isolates`).
-/
namespace ReactSite

/-! ## Entry modules -/

theorem intercalate_append_join (sep : String) : ∀ {xs : List String} (_ : xs ≠ []) (ys : List String),
    sep.intercalate (xs ++ ys) = sep.intercalate xs ++ String.join (ys.map (sep ++ ·))
  | xs, _, [] => by simp
  | xs, hne, y :: ys => by
    have hstep : xs ++ y :: ys = (xs ++ [y]) ++ ys := by simp
    rw [hstep, intercalate_append_join sep (by simp) ys, String.intercalate_append_of_ne_nil hne (by simp),
      String.intercalate_singleton, List.map_cons, String.join_cons]
    simp only [String.append_assoc]

theorem intercalate_join_append (sep last : String) : ∀ ys : List String,
    sep.intercalate (ys ++ [last]) = String.join (ys.map (· ++ sep)) ++ last
  | [] => by simp
  | y :: ys => by
    rw [List.cons_append, String.intercalate_cons_of_ne_nil (by simp), intercalate_join_append sep last ys, List.map_cons,
      String.join_cons]
    simp only [String.append_assoc]

namespace Router

/-- What a page adds to the imports of an entry module. -/
def importPart (e : PageRoute) : String := "\n" ++ importLine (e, pageIdentifier e.modulePath)

/-- What a page adds to the routes of an entry module. -/
def routePart (e : PageRoute) : String := routeLine e.route (pageIdentifier e.modulePath) ++ "\n"

/-- **An entry module is put together from the lines of its pages.** -/
theorem exists_parts (component : String) : ∃ head middle tail, ∀ entries : List PageRoute,
    entryModule ⟨component, entries⟩ = head ++ String.join (entries.map importPart) ++ middle ++
      String.join (entries.map routePart) ++ tail := by
  refine ⟨"\n".intercalate [Page.reactImport, "import ReactDOM from \"react-dom/client\";",
      "import \x7b BrowserRouter, Routes, Route \x7d from \"react-router-dom\";",
      "import " ++ component ++ " from \"" ++ ("./" ++ component) ++ "\";"],
    "\n\nconst root = ReactDOM.createRoot(document.getElementById(\"root\"));\nroot.render(\n  <BrowserRouter>\n" ++
      "    <Routes>\n",
    routeLine "*" component ++ "\n    </Routes>\n  </BrowserRouter>\n);\n", fun entries => ?_⟩
  unfold entryModule render
  dsimp only
  rw [intercalate_append_join _ (by simp), intercalate_join_append]
  simp only [List.map_map, String.append_assoc]
  rfl

/-- A text with the two lines of a page, or without them. -/
def around (head middle tail : String) (own : Option PageRoute) : String :=
  head ++ (own.map importPart).getD "" ++ middle ++ (own.map routePart).getD "" ++ tail

/-- **A page has two lines in an entry module**, and the rest of it does not depend on the page. -/
theorem exists_around (component : String) (es es' : List PageRoute) : ∃ head middle tail, ∀ own : Option PageRoute,
    entryModule ⟨component, es ++ own.toList ++ es'⟩ = around head middle tail own := by
  obtain ⟨head, middle, tail, hparts⟩ := exists_parts component
  refine ⟨head ++ String.join (es.map importPart), String.join (es'.map importPart) ++ middle ++ String.join (es.map routePart),
    String.join (es'.map routePart) ++ tail, fun own => ?_⟩
  rw [hparts]
  cases own <;> simp [around, String.join_append, String.append_assoc]

end Router

namespace Project

open FileTree

variable {p : Project} {copyStatic : Bool} {base loc : Location} {top : Path} {sub f a b : List String}
  {t : FileTree}

/-! ## Passes side by side -/

/-- The key of a source file in the report of a pass. -/
abbrev reportKey (names : List String) : String := (⟨0, names⟩ : Path).toString

theorem reportKey_ne (ha : ∀ s ∈ a, IsName s) (hb : ∀ s ∈ b, IsName s) (hne : a ≠ b) : reportKey a ≠ reportKey b := by
  have hproper : ∀ names : List String, (∀ s ∈ names, IsName s) → (⟨0, names⟩ : Path).IsProper := fun names hnames =>
    ⟨by simp, fun s hs => (hnames s hs).toIsPlain.kept, fun s hs => (hnames s hs).toIsPlain.slash_notMem⟩
  intro heq
  have hpath := congrArg Path.ofString heq
  rw [Path.ofString_toString (hproper a ha), Path.ofString_toString (hproper b hb), Path.mk.injEq] at hpath
  exact hne hpath.2

theorem fst_of_failure? {w : Workspace} {e : String × String} (h : p.failure? ⟨p.source.descend a, w⟩ = some e) :
    e.1 = reportKey a := by
  unfold failure? at h
  rw [visitedPath_descend] at h
  split at h
  · split at h
    · cases h
    · rw [← Option.some.inj h]
  · cases h

/-- An entry of its own stands for itself in a report, and for nothing else. -/
theorem lookup_own {fs fs' : List (String × String)} {own : Option (String × String)} {key : String}
    (hothers : ∀ e ∈ fs ++ fs', e.1 ≠ key) (hown : ∀ e, own = some e → e.1 = key) (other : String) :
    (fs ++ own.toList ++ fs').lookup other = if other = key then own.map (·.2) else (fs ++ fs').lookup other := by
  have hnone : ∀ es : List (String × String), es ⊆ fs ++ fs' → es.lookup key = none := by
    intro es hes
    rw [List.lookup_eq_none_iff]
    intro e he
    simpa using (hothers e (hes he)).symm
  rw [List.lookup_append, List.lookup_append, List.lookup_append]
  have hsingle : own.toList.lookup other = if other = key then own.map (·.2) else none := by
    rcases own with _ | ⟨k, message⟩
    · simp
    · obtain rfl : k = key := hown _ rfl
      by_cases hother : other = k
      · simp [hother]
      · have hbeq : (other == k) = false := by simpa using hother
        simp [List.lookup_cons, hbeq, hother]
  rw [hsingle]
  split
  · rename_i hother
    rw [hother, hnone fs (List.subset_append_left _ _), hnone fs' (List.subset_append_right _ _), Option.none_or, Option.or_none]
  · rw [Option.or_none]

/-- **Two sites that differ in the bytes of one document.** -/
structure Revised (p : Project) (base : Location) (f : List String) (t u : FileTree) : Prop where
  document : p.isPage (p.source.descend f) = true
  own : t.HasFile (base ++ f)
  own' : u.HasFile (base ++ f)
  current : u.current = t.current
  same : ∀ l, l ≠ base ++ f → u.get? l = t.get? l
  locked : ∀ l, l ≠ base ++ f → (l ∈ u.locked ↔ l ∈ t.locked)

/-- The entry module has the route of a document if the pass came to it, it did not fail and is not the entry document. -/
def ownRoute (p : Project) (f : List String) (t : FileTree) (failed : Bool) : Option PageRoute :=
  if p.source.descend f ∈ p.sourceFiles t ∧ failed = false ∧ p.isEntryPath ⟨0, f⟩ = false then
    some (Router.entryFor (directoryOf ⟨0, f⟩) (⟨0, f⟩ : Path).stem)
  else none

theorem registered?_own {x : Workspace} (h : p.Spread base loc top sub x.files) (hf : x.files.HasFile (base ++ f))
    (hpage : p.isPage (p.source.descend f) = true) (hvisited : p.source.descend f ∈ p.sourceFiles t) :
    p.registered? ⟨p.source.descend f, x⟩ = p.ownRoute f t (p.failure? ⟨p.source.descend f, x⟩).isSome := by
  unfold registered? converts failure? ownRoute
  simp only [hpage, h.relative_eq (h.isName hf).2, hvisited]
  cases p.result ⟨p.source.descend f, x⟩ <;> cases hentry : p.isEntryPath ⟨0, f⟩ <;>
    simp [Except.isOk, Except.toBool, hentry]

/-- **What the visits of a pass come to**: to the same as those of another one before the changed document and after it. -/
structure Splits (p : Project) (f : List String) (t : FileTree) (fs fs' : List (String × String))
    (es es' : List PageRoute) (vs : List Visit) (own : Option (String × String)) : Prop where
  key : ∀ e, own = some e → e.1 = reportKey f
  failures : vs.filterMap p.failure? = fs ++ own.toList ++ fs'
  routes : vs.filterMap p.registered? = es ++ (p.ownRoute f t own.isSome).toList ++ es'

theorem Splits.of_visited {x : Workspace} (vs vs' : List Visit) (h : p.Spread base loc top sub x.files)
    (hf : x.files.HasFile (base ++ f)) (hpage : p.isPage (p.source.descend f) = true)
    (hvisited : p.source.descend f ∈ p.sourceFiles t) : p.Splits f t (vs.filterMap p.failure?) (vs'.filterMap p.failure?)
      (vs.filterMap p.registered?) (vs'.filterMap p.registered?) (vs ++ ⟨p.source.descend f, x⟩ :: vs')
      (p.failure? ⟨p.source.descend f, x⟩) where
  key := fun e he => fst_of_failure? he
  failures := by
    rw [List.filterMap_append, List.filterMap_cons, List.append_assoc]
    cases p.failure? ⟨p.source.descend f, x⟩ <;> rfl
  routes := by
    rw [← registered?_own h hf hpage hvisited, List.filterMap_append, List.filterMap_cons, List.append_assoc]
    cases p.registered? ⟨p.source.descend f, x⟩ <;> rfl

theorem Splits.of_not_visited (vs : List Visit) (hvisited : p.source.descend f ∉ p.sourceFiles t) :
    p.Splits f t (vs.filterMap p.failure?) [] (vs.filterMap p.registered?) [] vs none where
  key := fun e he => by cases he
  failures := by simp
  routes := by
    have hnone : p.ownRoute f t false = none := if_neg fun h => hvisited h.1
    simp [hnone]

section

variable {w w₂ : Workspace} (h₁ : p.Spread base loc top sub w.files) (h₂ : p.Spread base loc top sub w₂.files)
  (hrev : p.Revised base f w.files w₂.files)
include h₁ h₂ hrev

theorem Revised.beside : p.Beside base loc top sub f w.files w₂.files :=
  ⟨h₁, h₂, ⟨hrev.current, fun l hl => hrev.locked l fun heq => hl (.inl heq),
    fun l => (em (l = base ++ f)).elim (fun heq => .inl (.inl heq)) fun hne => .inr (.inr (hrev.same l hne))⟩,
    hrev.own, hrev.own'⟩

omit h₁ h₂ hrev in
theorem ne_reportKey_of_mem {x : Workspace} {paths : List Path} (h : p.Spread base loc top sub x.files)
    (hf : ∀ s ∈ f, IsName s) (hpaths : ∀ path ∈ paths, ∃ a, path = p.source.descend a ∧ a ≠ f ∧ x.files.HasFile (base ++ a))
    {w : Workspace} {e : String × String} (he : e ∈ (p.visits copyStatic paths w).filterMap p.failure?) : e.1 ≠ reportKey f := by
  obtain ⟨⟨path, y⟩, hv, hfailure⟩ := List.mem_filterMap.1 he
  have hmem : path ∈ (p.visits copyStatic paths w).map (·.path) := List.mem_map.2 ⟨_, hv, rfl⟩
  rw [map_path_visits] at hmem
  obtain ⟨a, rfl, hne, ha⟩ := hpaths path hmem
  rw [fst_of_failure? hfailure]
  exact reportKey_ne (h.isName ha).2 hf hne

/-- **The two passes** report and register the same, but for the changed document. -/
theorem splits_beside (hsub : ∀ s ∈ sub, IsName s) (hgo : ∀ v ∈ p.trail copyStatic w, p.GoesOn copyStatic v)
    (hgo' : ∀ v ∈ p.trail copyStatic w₂, p.GoesOn copyStatic v) : ∃ fs fs' es es' own own',
      (∀ e ∈ fs ++ fs', e.1 ≠ reportKey f) ∧ p.Splits f w.files fs fs' es es' (p.trail copyStatic w) own ∧
        p.Splits f w.files fs fs' es es' (p.trail copyStatic w₂) own' ∧
          p.Beside base loc top sub f (p.walkedThrough copyStatic w).files (p.walkedThrough copyStatic w₂).files := by
  have hbeside := hrev.beside h₁ h₂
  have hf := (h₁.isName hrev.own).2
  have hfiles : p.sourceFiles w₂.files = p.sourceFiles w.files :=
    (sourceFiles_eq hbeside.alike h₁.isTree h₂.isTree h₁.source h₂.source).symm
  unfold trail at hgo hgo' ⊢
  unfold walkedThrough
  rw [trailPaths_spread h₁] at hgo ⊢
  rw [trailPaths_spread h₂, hfiles] at hgo' ⊢
  by_cases hvisited : p.source.descend f ∈ p.sourceFiles w.files
  · obtain ⟨before, later, hsplit, hbefore, hlater⟩ := split_sourceFiles h₁ hvisited
    rw [hsplit, visits_append, visits, List.forall_mem_append, List.forall_mem_cons] at hgo hgo'
    rw [hsplit, visits_append, visits_append, visits, visits, afterAll_append, afterAll_append, afterAll_cons, afterAll_cons]
    obtain ⟨hfailures, hroutes, hmid⟩ := visits_beside hsub (x := fresh w) (y := fresh w₂) hbeside hbefore hgo.1 hgo'.1
    have hgrows : p.Grows copyStatic (Off base) (Off base) base (fresh w) := grows_spread h₁
    have hbelow : ∀ path ∈ before ++ [p.source.descend f], p.IsBelow path := by
      rw [List.forall_mem_append, List.forall_mem_singleton]
      refine ⟨fun path hpath => ?_, h₁.isBelow hrev.own⟩
      obtain ⟨a, rfl, -, ha⟩ := hbefore path hpath
      exact h₁.isBelow ha
    have hgrown : Extends (Off base) (Off base) (fresh w).files
        (p.afterAll copyStatic (before ++ [p.source.descend f]) (fresh w)).files := hgrows.afterAll hbelow (.refl _ _ _)
    rw [afterAll_append, afterAll_cons, afterAll_nil] at hgrown
    obtain ⟨hfailures', hroutes', hend⟩ := visits_beside hsub (visit_own hmid)
      (fun path hpath => (hlater path hpath).imp fun a h => ⟨h.1, h.2.1, (hasFile_grown hgrown).2 h.2.2⟩) hgo.2.2 hgo'.2.2
    have hsplits := Splits.of_visited (p.visits copyStatic before (fresh w₂)) (p.visits copyStatic later
      (p.after copyStatic (p.source.descend f) (p.afterAll copyStatic before (fresh w₂)))) hmid.right hmid.own' hrev.document
        hvisited
    rw [hfailures, hfailures', hroutes, hroutes'] at hsplits
    refine ⟨_, _, _, _, _, _, fun e he => ?_, Splits.of_visited _ _ hmid.left hmid.own hrev.document hvisited, hsplits, hend⟩
    exact (List.mem_append.1 he).elim (ne_reportKey_of_mem h₁ hf hbefore) (ne_reportKey_of_mem h₁ hf hlater)
  · -- the walk does not come to the document, its directory lies too deep
    have hpaths : ∀ path ∈ p.sourceFiles w.files, ∃ a, path = p.source.descend a ∧ a ≠ f ∧ w.files.HasFile (base ++ a) := by
      intro path hpath
      obtain ⟨a, rfl, ha⟩ := exists_of_mem_sourceFiles h₁ hpath
      exact ⟨a, rfl, fun heq => hvisited (heq ▸ hpath), ha⟩
    obtain ⟨hfailures, hroutes, hend⟩ := visits_beside hsub (x := fresh w) (y := fresh w₂) hbeside hpaths hgo hgo'
    have hsplits := Splits.of_not_visited (p.visits copyStatic (p.sourceFiles w.files) (fresh w₂)) hvisited
    rw [hfailures, hroutes] at hsplits
    refine ⟨_, [], _, [], none, none, fun e he => ?_, Splits.of_not_visited _ hvisited, hsplits, hend⟩
    rw [List.append_nil] at he
    exact ne_reportKey_of_mem h₁ hf hpaths he

end

/-! ## The end of a pass -/

theorem Spread.node?_output (h : p.Spread base loc top sub t) (ha : t.HasFile (base ++ a)) {rest : List String}
    (hrest : ".." ∉ rest) : t.node? ((p.outputPath ⟨0, a⟩).descend rest) =
      if pathFault? ((p.outputPath ⟨0, a⟩).descend rest) = none then
        t.get? (loc ++ (sub ++ p.outNames (p.source.descend a)) ++ rest) else none := by
  have hleads := h.leads a ha
  have hpath := hleads.outputPath_eq
  rw [hpath] at hleads
  obtain ⟨-, hplain⟩ := hleads.namesEntry h.properDest
  have hup : ".." ∉ sub ++ (p.outNames (p.source.descend a) ++ rest) := by
    rw [List.mem_append, List.mem_append, not_or, not_or]
    exact ⟨parent_notMem h.reaches.plain, parent_notMem hplain, hrest⟩
  rw [hpath, h.reaches.output, Path.descend_descend, Path.descend_descend, node?_descend h.isTree h.reaches.located hup]
  simp only [List.append_assoc]

section

variable {w w' : Workspace} {r : Report} (h : p.Spread base loc top sub w.files)
include h

theorem Spread.walkedThrough (copyStatic : Bool) : p.Spread base loc top sub (p.walkedThrough copyStatic w).files :=
  have hgrows : p.Grows copyStatic (Off base) (Off base) base (fresh w) := grows_spread h
  h.grown hgrows.extends_walkedThrough

/-- **A visit of a document that does not fail** leaves its module at its output. -/
theorem module_of_visit (hb : w.files.HasFile (base ++ b)) (hpage : p.isPage (p.source.descend b) = true)
    (hok : p.failure? ⟨p.source.descend b, w⟩ = none) (copyStatic : Bool) : ∃ text,
      p.moduleOf w.files ⟨0, b⟩ = .ok text ∧ pathFault? (p.outputPath ⟨0, b⟩) = none ∧
        (p.after copyStatic (p.source.descend b) w).files.get? (loc ++ (sub ++ p.outNames (p.source.descend b))) =
          some (.file (Text.encode text)) := by
  obtain ⟨target, htarget⟩ : ∃ target, p.result ⟨p.source.descend b, w⟩ = .ok target := by
    unfold failure? at hok
    rw [if_pos hpage] at hok
    cases hresult : p.result ⟨p.source.descend b, w⟩ with
    | ok target => exact ⟨target, rfl⟩
    | error e =>
      rw [hresult] at hok
      cases hok
  rcases hrun : (p.convertPage true (p.source.descend b)).run.run w with ⟨s, w'⟩
  obtain rfl : s = .ok target := (congrArg Prod.fst hrun).symm.trans htarget
  obtain ⟨rel, text, hrel, hmodule, rfl, hwrite, -⟩ := convertPage_eq_ok p hrun
  rw [h.relative_eq (h.isName hb).2, Except.ok.injEq] at hrel
  subst hrel
  have hleads := h.leads b hb
  have hpath := hleads.outputPath_eq
  rw [hpath] at hleads hwrite
  obtain ⟨hentry, hplain⟩ := hleads.namesEntry h.properDest
  rw [h.reaches.output, Path.descend_descend] at hpath hentry hwrite
  obtain ⟨-, hget, hplaced⟩ := writeText_places h.isTree h.reaches.located hentry
    (List.forall_mem_append.2 ⟨h.reaches.plain, hplain⟩) hwrite
  refine ⟨text, hmodule, by rw [hpath, (locate_eq_ok.1 hplaced).1], ?_⟩
  rw [after_of_isPage hpage, hrun, hget]

/-- **A document that did not fail** has its module at its output before the entry module is written. -/
theorem exists_moduleText (hmem : p.source.descend b ∈ p.sourceFiles w.files) (hpage : p.isPage (p.source.descend b) = true)
    (hok : ∀ v ∈ p.trail copyStatic w, v.path = p.source.descend b → p.failure? v = none) : ∃ text,
      p.moduleOf w.files ⟨0, b⟩ = .ok text ∧ pathFault? (p.outputPath ⟨0, b⟩) = none ∧
        (p.walkedThrough copyStatic w).files.get? (loc ++ (sub ++ p.outNames (p.source.descend b))) =
          some (.file (Text.encode text)) := by
  have hgrows : p.Grows copyStatic (Off base) (Off base) base (fresh w) := grows_spread h
  obtain ⟨b', heq, hb⟩ := exists_of_mem_sourceFiles h hmem
  obtain rfl := Path.descend_injective heq
  obtain ⟨before, later, hsplit, hbefore, hlater⟩ := split_sourceFiles h hmem
  unfold trail at hok
  unfold Project.walkedThrough
  rw [trailPaths_spread h, hsplit, visits_append, visits] at hok
  rw [trailPaths_spread h, hsplit, afterAll_append, afterAll_cons]
  have hgrown : Extends (Off base) (Off base) (fresh w).files (p.afterAll copyStatic before (fresh w)).files := by
    refine hgrows.afterAll (fun path hpath => ?_) (.refl _ _ _)
    obtain ⟨a, rfl, -, ha⟩ := hbefore path hpath
    exact h.isBelow ha
  have hvisit := hgrows.step (p.source.descend b) _ (h.isBelow hb) hgrown
  have hfailure := hok ⟨p.source.descend b, p.afterAll copyStatic before (fresh w)⟩ (by simp) rfl
  generalize p.afterAll copyStatic before (fresh w) = x at hgrown hvisit hfailure ⊢
  have hx := h.grown hgrown
  have hb' := (hasFile_grown hgrown).2 hb
  obtain ⟨text, hmodule, hfault, hget⟩ := module_of_visit hx hb' hpage hfailure copyStatic
  refine ⟨text, ?_, hfault, kept_of_visits (hx.grown hvisit) (fun path hpath => ?_) ((hasFile_grown hvisit).2 hb') hget⟩
  · -- the visits before it left the source as it was
    rw [← hmodule]
    exact moduleOf_congr h.properSource (Alike.of_get? fun names => (get?_off hgrown names).symm) h.source hx.source
      (parent_notMem fun s hs => ((h.isName hb).2 s hs).toIsPlain) (get?_off hgrown b).symm
      fun bytes hget => h.inside b bytes hget hpage
  · obtain ⟨a, rfl, hne, ha⟩ := hlater path hpath
    exact ⟨a, rfl, hne, (hasFile_grown (hgrown.trans hvisit)).2 ha⟩

variable (hpass : p.Passes copyStatic w r w')
include hpass

/-- **The entry module** is written after the visits, in its own place. -/
theorem Passes.last : (∀ s ∈ sub, IsName s) ∧ Extends (· = loc ++ (sub ++ p.routeNames)) (OnTheWay loc (sub ++ p.routeNames))
      (p.walkedThrough copyStatic w).files w'.files ∧ w'.files.node? p.routePath =
        some (.file (Text.encode (Router.entryModule ⟨w.routes.entryComponent, (p.trail copyStatic w).filterMap p.registered?⟩))) := by
  have hwalked := h.walkedThrough copyStatic
  have hleads := h.routeLeads
  have hpath := hleads.routePath_eq
  have hne : p.routeNames ≠ [] := by
    obtain ⟨init, last, -, -, heq⟩ := hleads
    rw [hpath] at heq
    simp [Path.descend_injective heq]
  have hwrite := hpass.files
  rw [hpath] at hleads hwrite
  obtain ⟨hentry, hplain⟩ := hleads.namesEntry h.properDest
  have hroutes : (p.walkedThrough copyStatic w).routes =
      ⟨w.routes.entryComponent, (p.trail copyStatic w).filterMap p.registered?⟩ := by
    rw [Project.walkedThrough, routes_afterAll]
    rfl
  refine ⟨hwalked.reaches.isName h.properDest hwalked.isTree hne hplain hwrite, ?_, ?_⟩
  · rw [h.reaches.output, Path.descend_descend] at hentry hwrite
    exact (writeText_places hwalked.isTree hwalked.reaches.located hentry
      (List.forall_mem_append.2 ⟨h.reaches.plain, hplain⟩) hwrite).1
  · rw [hpath, node?_writeText hentry hwrite, hroutes]

/-- **What is read at an output in the end** is what the visits left there. -/
theorem Passes.node?_output (ha : w.files.HasFile (base ++ a)) {rest : List String} (hrest : ".." ∉ rest) :
    w'.files.node? ((p.outputPath ⟨0, a⟩).descend rest) = if pathFault? ((p.outputPath ⟨0, a⟩).descend rest) = none then
      (p.walkedThrough copyStatic w).files.get? (loc ++ (sub ++ p.outNames (p.source.descend a)) ++ rest) else none := by
  have hwalked := h.walkedThrough copyStatic
  have hgrows : p.Grows copyStatic (Off base) (Off base) base (fresh w) := grows_spread h
  obtain ⟨-, hlast, -⟩ := hpass.last h
  have hoff : ∀ l, l = loc ++ (sub ++ p.routeNames) ∨ OnTheWay loc (sub ++ p.routeNames) l → Off base l := fun l hl =>
    Spread.off_place h.below h.above (hl.imp_left fun heq => heq ▸ List.prefix_rfl)
  have hend : Extends (Off base) (Off base) (p.walkedThrough copyStatic w).files w'.files :=
    hlast.mono (fun l hl => hoff l (.inl hl)) fun l hl => hoff l (.inr hl)
  have ha' : w'.files.HasFile (base ++ a) := (hasFile_grown (hgrows.extends_walkedThrough.trans hend)).2 ha
  obtain ⟨hne, hway⟩ := not_onTheWay loc sub (h.routeApart a ha).2 rest
  rw [(hwalked.grown hend).node?_output ha' hrest, hlast.get?_eq hne hway]

omit h in
theorem Passes.failure?_eq_none (hlookup : r.failures.lookup (reportKey a) = none) :
    ∀ v ∈ p.trail copyStatic w, v.path = p.source.descend a → p.failure? v = none := by
  rintro ⟨path, x⟩ hv rfl
  cases hfailure : p.failure? ⟨p.source.descend a, x⟩ with
  | none => rfl
  | some e =>
    have hmem : e ∈ r.failures := by
      rw [hpass.report]
      exact List.mem_filterMap.2 ⟨_, hv, hfailure⟩
    have hne := List.lookup_eq_none_iff.1 hlookup e hmem
    rw [fst_of_failure? hfailure] at hne
    simp at hne

/-- **A document that did not fail was converted**: its module stands at its output in the end. -/
theorem Passes.exists_module (hmem : p.source.descend b ∈ p.sourceFiles w.files) (hpage : p.isPage (p.source.descend b) = true)
    (hlookup : r.failures.lookup (reportKey b) = none) : ∃ text, p.moduleOf w.files ⟨0, b⟩ = .ok text ∧
      w'.files.node? (p.outputPath ⟨0, b⟩) = some (.file (Text.encode text)) := by
  obtain ⟨text, hmodule, hfault, hget⟩ := exists_moduleText h hmem hpage (hpass.failure?_eq_none hlookup)
  obtain ⟨b', heq, hb⟩ := exists_of_mem_sourceFiles h hmem
  obtain rfl := Path.descend_injective heq
  have hread := hpass.node?_output h hb (List.not_mem_nil (a := ".."))
  rw [Path.descend_nil, List.append_nil, hget, if_pos hfault] at hread
  exact ⟨text, hmodule, hread⟩

end

/-! ## Isolation -/

/-- **What a changed document leaves as it was**, in two passes that came to an end. -/
structure Isolates (p : Project) (base : Location) (f : List String) (w : Workspace) (r : Report) (w' : Workspace)
    (w₂ : Workspace) (r₂ : Report) (w₂' : Workspace) : Prop where
  /-- Every other document fails with the same message, or its one module stands at its output. -/
  documents : ∀ g, p.source.descend g ∈ p.sourceFiles w.files → p.isPage (p.source.descend g) = true → g ≠ f →
    (∃ message, r.failures.lookup (reportKey g) = some message ∧ r₂.failures.lookup (reportKey g) = some message) ∨
      r.failures.lookup (reportKey g) = none ∧ r₂.failures.lookup (reportKey g) = none ∧
        ∃ text, p.moduleOf w.files ⟨0, g⟩ = .ok text ∧
          w'.files.node? (p.outputPath ⟨0, g⟩) = some (.file (Text.encode text)) ∧
          w₂'.files.node? (p.outputPath ⟨0, g⟩) = some (.file (Text.encode text))
  /-- The changed document itself was converted in either pass unless it failed there. -/
  own : p.source.descend f ∈ p.sourceFiles w.files →
    (r.failures.lookup (reportKey f) = none → ∃ text, p.moduleOf w.files ⟨0, f⟩ = .ok text ∧
      w'.files.node? (p.outputPath ⟨0, f⟩) = some (.file (Text.encode text))) ∧
    (r₂.failures.lookup (reportKey f) = none → ∃ text, p.moduleOf w₂.files ⟨0, f⟩ = .ok text ∧
      w₂'.files.node? (p.outputPath ⟨0, f⟩) = some (.file (Text.encode text)))
  /-- What is at the output of any other file is the same, and what is below it if a directory stands there. -/
  outputs : ∀ g, w.files.HasFile (base ++ g) → g ≠ f → ∀ rest, ".." ∉ rest →
    w₂'.files.node? ((p.outputPath ⟨0, g⟩).descend rest) = w'.files.node? ((p.outputPath ⟨0, g⟩).descend rest)
  /-- The entry modules differ in the lines of the changed document. -/
  entryModules : ∃ head middle tail,
    w'.files.node? p.routePath = some (.file (Text.encode (Router.around head middle tail
      (p.ownRoute f w.files (r.failures.lookup (reportKey f)).isSome)))) ∧
    w₂'.files.node? p.routePath = some (.file (Text.encode (Router.around head middle tail
      (p.ownRoute f w.files (r₂.failures.lookup (reportKey f)).isSome))))

theorem isolates_of_build {w w₂ w' w₂' : Workspace} {r r₂ : Report} (hrun : (p.build copyStatic).run.run w = (.ok r, w'))
    (hrun₂ : (p.build copyStatic).run.run w₂ = (.ok r₂, w₂')) (h₁ : p.Spread base loc top sub w.files)
    (h₂ : p.Spread base loc top sub w₂.files) (hrev : p.Revised base f w.files w₂.files)
    (hcomponent : w₂.routes.entryComponent = w.routes.entryComponent) : p.Isolates base f w r w' w₂ r₂ w₂' := by
  have hpass := build_eq_ok.1 hrun
  have hpass₂ := build_eq_ok.1 hrun₂
  obtain ⟨hsub, -, hroute⟩ := hpass.last h₁
  obtain ⟨-, -, hroute₂⟩ := hpass₂.last h₂
  obtain ⟨fs, fs', es, es', own, own', hothers, hsplits, hsplits₂, hbeside⟩ :=
    splits_beside h₁ h₂ hrev hsub hpass.goesOn hpass₂.goesOn
  have hfailures : r.failures = fs ++ own.toList ++ fs' := by rw [hpass.report, ← hsplits.failures]; rfl
  have hfailures₂ : r₂.failures = fs ++ own'.toList ++ fs' := by rw [hpass₂.report, ← hsplits₂.failures]; rfl
  have hown : (r.failures.lookup (reportKey f)).isSome = own.isSome := by
    rw [hfailures, lookup_own hothers hsplits.key, if_pos rfl, Option.isSome_map]
  have hown₂ : (r₂.failures.lookup (reportKey f)).isSome = own'.isSome := by
    rw [hfailures₂, lookup_own hothers hsplits₂.key, if_pos rfl, Option.isSome_map]
  have houtputs : ∀ g, w.files.HasFile (base ++ g) → g ≠ f → ∀ rest, ".." ∉ rest →
      w₂'.files.node? ((p.outputPath ⟨0, g⟩).descend rest) = w'.files.node? ((p.outputPath ⟨0, g⟩).descend rest) := by
    intro g hg hne rest hrest
    have hgrows : p.Grows copyStatic (Off base) (Off base) base (fresh w) := grows_spread h₁
    rw [hpass₂.node?_output h₂ ((hrev.beside h₁ h₂).hasFile_iff.2 hg) hrest, hpass.node?_output h₁ hg hrest,
      hbeside.get?_place ((hasFile_grown hgrows.extends_walkedThrough).2 hg) hne rest]
  have hfiles := sourceFiles_eq (hrev.beside h₁ h₂).alike h₁.isTree h₂.isTree h₁.source h₂.source
  refine ⟨fun g hmem hpage hne => ?_, fun hmem => ⟨hpass.exists_module h₁ hmem hrev.document,
    hpass₂.exists_module h₂ (hfiles ▸ hmem) hrev.document⟩, houtputs, ?_⟩
  · obtain ⟨g', heq, hg⟩ := exists_of_mem_sourceFiles h₁ hmem
    obtain rfl := Path.descend_injective heq
    have hkey := reportKey_ne (h₁.isName hg).2 (h₁.isName hrev.own).2 hne
    rw [hfailures, hfailures₂, lookup_own hothers hsplits.key, lookup_own hothers hsplits₂.key, if_neg hkey, if_neg hkey]
    cases hlookup : (fs ++ fs').lookup (reportKey g) with
    | some message => exact .inl ⟨message, rfl, rfl⟩
    | none =>
      have hnone : r.failures.lookup (reportKey g) = none := by
        rw [hfailures, lookup_own hothers hsplits.key, if_neg hkey, hlookup]
      obtain ⟨text, hmodule, hread⟩ := hpass.exists_module h₁ hmem hpage hnone
      have hsame := houtputs g hg hne [] (by simp)
      rw [Path.descend_nil, hread] at hsame
      exact .inr ⟨rfl, rfl, text, hmodule, hread, hsame⟩
  · obtain ⟨head, middle, tail, haround⟩ := Router.exists_around w.routes.entryComponent es es'
    refine ⟨head, middle, tail, ?_, ?_⟩
    · rw [hroute, hsplits.routes, haround, hown]
    · rw [hroute₂, hcomponent, hsplits₂.routes, haround, hown₂]

/-- **A changed document changes its own output only**: two passes over sites that differ in the bytes of one document, and
came to an end, report the same for every other document and leave the same at every other output; the entry modules differ
in its two lines.  So it is with routes that the passes were given and with routes of their own.

That the paths to source files are read from the source itself (`Spread.settled`) is so when the source is an absolute path,
as the settings of a project give it. -/
theorem build_isolates {w w₂ : Workspace} (h₁ : p.Spread base loc top sub w.files) (h₂ : p.Spread base loc top sub w₂.files)
    (hrev : p.Revised base f w.files w₂.files) (copyStatic : Bool) :
    (∀ r w' r₂ w₂', w₂.routes.entryComponent = w.routes.entryComponent → (p.build copyStatic).run.run w = (.ok r, w') →
      (p.build copyStatic).run.run w₂ = (.ok r₂, w₂') → p.Isolates base f w r w' w₂ r₂ w₂') ∧
    (∀ r w' r₂ w₂', (p.buildAlone copyStatic).run.run w = (.ok r, w') →
      (p.buildAlone copyStatic).run.run w₂ = (.ok r₂, w₂') → p.Isolates base f w r w' w₂ r₂ w₂') := by
  refine ⟨fun r w' r₂ w₂' hcomponent hrun hrun₂ => isolates_of_build hrun hrun₂ h₁ h₂ hrev hcomponent,
    fun r w' r₂ w₂' hrun hrun₂ => ?_⟩
  rw [run_buildAlone, Prod.mk.injEq] at hrun hrun₂
  obtain ⟨hok, rfl⟩ := hrun
  obtain ⟨hok₂, rfl⟩ := hrun₂
  have hsplit : ∀ {x : Workspace} {s : Report}, ((p.build copyStatic).run.run x).1 = .ok s →
      (p.build copyStatic).run.run x = (.ok s, ((p.build copyStatic).run.run x).2) := fun hx => Prod.ext hx rfl
  have hends := isolates_of_build (hsplit hok) (hsplit hok₂) h₁ h₂ hrev rfl
  exact ⟨hends.documents, hends.own, hends.outputs, hends.entryModules⟩

/-- The shelf after its empty document was written. -/
def revisedShelf : Workspace := { shelf with files := shelf.files.put ["site", "void.htm"] (.file (Text.encode "<p>Void</p>")) }

theorem build_isolates_shelf : ∃ r w' r₂ w₂', (shelfProject.build true).run.run shelf = (.ok r, w') ∧
    (shelfProject.build true).run.run revisedShelf = (.ok r₂, w₂') ∧ r.failures.map (·.1) = ["void.htm"] ∧
      r₂.failures = [] ∧ shelfProject.Isolates ["site"] ["void.htm"] shelf r w' revisedShelf r₂ w₂' := by
  have hreport : ((shelfProject.build true).run.run shelf).1.toOption.map (·.failures.map (·.1)) = some ["void.htm"] := by
    decide +kernel
  have hreport₂ : ((shelfProject.build true).run.run revisedShelf).1.toOption.map (·.failures) = some [] := by decide +kernel
  have hspread : shelfProject.Spread ["site"] ["app"] (Path.ofString "/app") ["src"] shelf.files :=
    spread_standard ⟨rfl, rfl, rfl, rfl, rfl, rfl, rfl⟩ (Path.isProper_ofString _) (Path.isProper_ofString _)
      (by decide +kernel) (isSettled_of_isAbsolute (by decide)) (by decide +kernel) (by decide +kernel)
      ⟨by decide +kernel, by decide, by decide +kernel, by decide +kernel⟩ (by decide) (by decide) (by decide +kernel)
      (by decide +kernel) (by decide +kernel)
  have hspread₂ : shelfProject.Spread ["site"] ["app"] (Path.ofString "/app") ["src"] revisedShelf.files :=
    spread_standard ⟨rfl, rfl, rfl, rfl, rfl, rfl, rfl⟩ (Path.isProper_ofString _) (Path.isProper_ofString _)
      (by decide +kernel) (isSettled_of_isAbsolute (by decide)) (by decide +kernel) (by decide +kernel)
      ⟨by decide +kernel, by decide, by decide +kernel, by decide +kernel⟩ (by decide) (by decide) (by decide +kernel)
      (by decide +kernel) (by decide +kernel)
  have hrev : shelfProject.Revised ["site"] ["void.htm"] shelf.files revisedShelf.files :=
    ⟨by decide +kernel, ⟨Text.encode "<!-- -->", by decide +kernel⟩, ⟨Text.encode "<p>Void</p>", by decide +kernel⟩, rfl,
      fun _ hne => get?_put_of_ne hne, fun _ _ => .rfl⟩
  rcases hrun : (shelfProject.build true).run.run shelf with ⟨e | r, w'⟩
  · rw [hrun] at hreport
    cases hreport
  · rcases hrun₂ : (shelfProject.build true).run.run revisedShelf with ⟨e | r₂, w₂'⟩
    · rw [hrun₂] at hreport₂
      cases hreport₂
    · rw [hrun] at hreport
      rw [hrun₂] at hreport₂
      exact ⟨r, w', r₂, w₂', rfl, rfl, Option.some.inj hreport, Option.some.inj hreport₂,
        (build_isolates hspread hspread₂ hrev true).1 r w' r₂ w₂' rfl hrun hrun₂⟩

end Project
end ReactSite
