import ReactSite.Proofs.Watching
/-!
# Attempts — the routes of an edited source

While a source is edited its documents may fail to convert, and be put right later.  A pass attempts to convert every document
and writes the entry module anew, with a route for each that converted; a document that has changed is converted alone, and the
entry module stays as it is.  It stays, too, when a pass is broken off, as by an asset that cannot be copied.  So at every
moment the entry module has a route for those documents that the last pass to come to its end has converted
(`Watch.entryModule_of_attended`): what became of a document since then does not show (`Watch.entryModule_ne_patched`).  No
document needs to convert for this, and nothing is asked of what the output directory holds.
-/
namespace ReactSite

open FileTree

/-- **A round of attempts to convert documents**: a pass, or the conversion of a changed document alone. -/
structure Round where
  /-- The documents that were attempted, in their order, and whether they converted. -/
  attempts : List (Path × Bool)
  /-- Whether it was a pass that came to its end. -/
  ended : Bool
deriving DecidableEq, Repr

namespace Round

/-- Whether the last attempt at a document succeeded, in whatever round. -/
def succeeded (history : List Round) (path : Path) : Bool :=
  ((history.flatMap (·.attempts)).filter (·.1 = path)).getLast?.any (·.2)

/-- **Whether the last pass that came to its end converted a document.** -/
def converted (history : List Round) (path : Path) : Bool :=
  (history.filter (·.ended)).getLast?.any fun round => (path, true) ∈ round.attempts

variable {history : List Round} {round : Round} {path : Path}

theorem converted_append_of_not (h : round.ended = false) : converted (history ++ [round]) = converted history := by
  funext path
  rw [converted, List.filter_append, List.filter_cons_of_neg (by simp [h]), List.filter_nil, List.append_nil]
  rfl

theorem converted_append (h : round.ended = true) :
    converted (history ++ [round]) path = true ↔ (path, true) ∈ round.attempts := by
  rw [converted, List.filter_append, List.filter_cons_of_pos h, List.getLast?_append, List.filter_nil, List.getLast?_singleton,
    Option.some_or, Option.any_some, decide_eq_true_eq]

end Round

namespace Project

/-- Whether a pass goes on after a visit. -/
def goesOn (p : Project) (copyStatic : Bool) (v : Visit) : Bool :=
  p.isPage v.path || !copyStatic || ((p.placeAsset v.path).run.run v.before).1.isOk

/-- **The round of a pass** with routes of its own: the documents that it visits before an asset ends it, if one does. -/
def passRound (p : Project) (copyStatic : Bool) (w : Workspace) : Round where
  attempts := (((p.trail copyStatic (p.alone w)).takeWhile (p.goesOn copyStatic)).filter (p.isPage ·.path)).map fun v =>
    (v.path, p.converts v)
  ended := ((p.buildAlone copyStatic).run.run w).1.isOk

/-- **The entry module with routes for some documents of a source.** -/
def entryModuleFor (p : Project) (routed : Path → Bool) (t : FileTree) : String :=
  Router.entryModule {
    entryComponent := p.rules.entryComponent
    entries := ((p.sourceFiles t).filter routed).filterMap p.entryOf? }

/-- **An entry module that is in step with the passes**: it has a route for each document that the last pass to come to its end
has converted. -/
structure Declares (p : Project) (F : List String → Prop) (base out : Location) (history : List Round) (t : FileTree) : Prop where
  stands : p.Stands F base out t
  /-- The current directory is none that the removal of an output can take away. -/
  current : ∀ a, F a → ¬ out ++ p.outNames (p.source.descend a) <+: t.current
  unlocked : out ++ p.routeNames ∉ t.locked
  present : ∀ path, Round.converted history path = true → path ∈ p.sourceFiles t
  entryModule : t.get? (out ++ p.routeNames) = some (.file (Text.encode (p.entryModuleFor (Round.converted history) t)))

/-- A place at or below an output. -/
def AtOutput (p : Project) (F : List String → Prop) (out : Location) : Location → Prop := fun l =>
  ∃ a, F a ∧ out ++ p.outNames (p.source.descend a) <+: l

/-- A place on the way to an output or to the entry module. -/
def OnWay (p : Project) (F : List String → Prop) (out : Location) : Location → Prop := fun l =>
  ∃ m, p.IsPlace F m ∧ OnTheWay out m l

variable {p : Project} {copyStatic : Bool} {F : List String → Prop} {base out : Location} {t t₁ : FileTree}
  {w w' : Workspace} {a names : List String} {history : List Round} {round : Round}

theorem goesOn_eq_true {v : Visit} : p.goesOn copyStatic v = true ↔ p.GoesOn copyStatic v := by
  unfold goesOn GoesOn
  rw [Bool.or_eq_true, Bool.or_eq_true, isOk_iff]
  cases p.isPage v.path <;> cases copyStatic <;> simp

theorem extends_out (h : Extends (p.AtOutput F out) (p.OnWay F out) t t₁) : Extends (out <+: ·) (out <+: ·) t t₁ := by
  refine h.mono ?_ ?_
  · rintro l ⟨a, -, hpre⟩
    exact (List.prefix_append _ _).trans hpre
  · rintro l ⟨m, -, j, -, -, rfl⟩
    exact List.prefix_append _ _

variable (hlayout : p.Layout F base out)
include hlayout

theorem Stands.written (h : p.Stands F base out t) (hgrown : Extends (p.AtOutput F out) (p.OnWay F out) t t₁) :
    p.Stands F base out t₁ :=
  h.grown hlayout (extends_out hgrown)

theorem Stands.sourceFiles_written (h : p.Stands F base out t) (hgrown : Extends (p.AtOutput F out) (p.OnWay F out) t t₁) :
    p.sourceFiles t₁ = p.sourceFiles t :=
  have h₁ := h.written hlayout hgrown
  sourceFiles_eq (.of_get? (hlayout.get?_source (extends_out hgrown))) h₁.isTree h.isTree h₁.source h.source

/-- **The entry module is at no output**, and on the way to none. -/
theorem off_routeNames : ¬ p.AtOutput F out (out ++ p.routeNames) ∧ ¬ p.OnWay F out (out ++ p.routeNames) := by
  refine ⟨?_, ?_⟩
  · rintro ⟨a, ha, hpre⟩
    exact (hlayout.routeApart a ha).2 ((List.prefix_append_right_inj out).1 hpre)
  · rintro ⟨m, rfl | ⟨a, ha, rfl⟩, hway⟩
    · exact ne_of_onTheWay hway rfl
    · obtain ⟨j, -, -, heq⟩ := hway
      exact (hlayout.routeApart a ha).1 (List.append_cancel_left heq ▸ List.take_prefix j _)

/-! ## What keeps the routes -/

namespace Declares

variable (h : p.Declares F base out history t)
include h

omit hlayout in
/-- A round that is no whole pass changes no route. -/
theorem append (hround : round.ended = false) : p.Declares F base out (history ++ [round]) t := by
  refine ⟨h.stands, h.current, h.unlocked, ?_, ?_⟩ <;> rw [Round.converted_append_of_not hround]
  · exact h.present
  · exact h.entryModule

omit hlayout in
/-- **The routes stay** as long as the documents that have them do, in their order. -/
theorem congr (hstands : p.Stands F base out t₁) (hcurrent : t₁.current = t.current)
    (hfiles : (p.sourceFiles t₁).filter (Round.converted history) = (p.sourceFiles t).filter (Round.converted history))
    (hlocked : out ++ p.routeNames ∈ t₁.locked → out ++ p.routeNames ∈ t.locked)
    (hroute : t₁.get? (out ++ p.routeNames) = t.get? (out ++ p.routeNames)) : p.Declares F base out history t₁ where
  stands := hstands
  current := hcurrent ▸ h.current
  unlocked := fun hl => h.unlocked (hlocked hl)
  present := fun path hpath => by
    have hmem := List.mem_filter.2 ⟨h.present path hpath, hpath⟩
    rw [← hfiles] at hmem
    exact (List.mem_filter.1 hmem).1
  entryModule := by
    rw [hroute, h.entryModule]
    unfold entryModuleFor
    rw [hfiles]

/-- **What is written at outputs changes no route.** -/
theorem written (hgrown : Extends (p.AtOutput F out) (p.OnWay F out) t t₁) : p.Declares F base out history t₁ :=
  h.congr (h.stands.written hlayout hgrown) hgrown.current (by rw [h.stands.sourceFiles_written hlayout hgrown])
    (hgrown.locked_iff (off_routeNames hlayout).1).1
    (hgrown.get?_eq (off_routeNames hlayout).1 (off_routeNames hlayout).2)

omit hlayout in
/-- **A new file changes no route.** -/
theorem created (hstands : p.Stands F base out t₁) (hgrown : Extends (· = base ++ names) (OnTheWay base names) t t₁)
    (hout : SameBelow out t t₁) (hnone : t.get? (base ++ names) = none) : p.Declares F base out history t₁ := by
  refine h.congr hstands hgrown.current (filter_sourceFiles h.stands.isTree h.stands.source hgrown ?_) (hout.locked _)
    (hout.get? _)
  rintro dir name hrouted heq
  -- the last pass cannot have converted what was not there
  obtain ⟨dir', name', content, hpath, -, hget⟩ :=
    (mem_sourceFiles h.stands.isTree h.stands.source).1 (h.present _ hrouted)
  rw [← Path.descend_injective hpath, heq, hnone] at hget
  cases hget

end Declares

/-! ## Passes -/

/-- **Visits write at outputs only**, however they end. -/
theorem extends_afterAll_source : ∀ {paths : List Path} {w : Workspace}, p.Stands F base out w.files →
    (∀ path ∈ paths, ∃ a bytes, path = p.source.descend a ∧ w.files.get? (base ++ a) = some (.file bytes)) →
      Extends (p.AtOutput F out) (p.OnWay F out) w.files (p.afterAll copyStatic paths w).files
  | [], _, _, _ => .refl _ _ _
  | path :: paths, w, h, hpaths => by
    rw [List.forall_mem_cons] at hpaths
    obtain ⟨⟨a, bytes, rfl, hfile⟩, hpaths⟩ := hpaths
    have ha := h.known a bytes hfile
    have hvisit : Extends (p.AtOutput F out) (p.OnWay F out) w.files (p.after copyStatic (p.source.descend a) w).files :=
      (extends_after_source hlayout h hfile copyStatic).mono (fun _ hl => ⟨a, ha, hl⟩) fun _ hl => ⟨_, .inr ⟨a, ha, rfl⟩, hl⟩
    rw [afterAll_cons]
    refine hvisit.trans (extends_afterAll_source (h.written hlayout hvisit) fun path hpath => ?_)
    obtain ⟨b, bytes', hb, hfile'⟩ := hpaths path hpath
    exact ⟨b, bytes', hb, by rw [hlayout.get?_source (extends_out hvisit), hfile']⟩

section

variable (h : p.Stands F base out w.files)
include h

/-- **The visits of a pass**, or of its beginning, write at outputs only. -/
theorem extends_visited {done : List Path} (hdone : done <+: p.trailPaths copyStatic w) :
    Extends (p.AtOutput F out) (p.OnWay F out) w.files (p.afterAll copyStatic done (fresh w)).files := by
  have hfresh : p.Stands F base out (fresh w).files := h
  refine extends_afterAll_source (w := fresh w) hlayout hfresh fun path hpath => ?_
  rw [trailPaths_eq hlayout h] at hdone
  exact (h.mem_sourceFiles hlayout).1 (hdone.subset hpath)

/-- **A pass that is broken off writes at outputs only.** -/
theorem extends_of_build_error {f : Failure} (hrun : (p.build copyStatic).run.run w = (.error f, w')) :
    Extends (p.AtOutput F out) (p.OnWay F out) w.files w'.files := by
  rw [run_build (hlayout.asked _) (h.isFile_entry hlayout)] at hrun
  rcases visits_cases p copyStatic (p.trailPaths copyStatic w) {} (fresh w) with ⟨-, hvisits⟩ | ⟨-, f', done, hdone, hvisits⟩
  · -- the entry module could not be written
    rw [hvisits, hlayout.asked] at hrun
    simp only at hrun
    have hvisited : Extends (p.AtOutput F out) (p.OnWay F out) w.files
        (p.afterAll copyStatic (p.trailPaths copyStatic w) (fresh w)).files := extends_visited hlayout h List.prefix_rfl
    have hwalked := h.written hlayout hvisited
    refine hvisited.trans ?_
    split at hrun
    · rename_i e files hwrite
      obtain rfl := congrArg Prod.snd hrun
      rw [hlayout.routeLeads] at hwrite
      refine (extends_of_writeText_error (W := (· = out ++ p.routeNames)) ?_ hwrite).mono (fun _ => False.elim) fun _ => id
      exact inside_descend hwalked.isTree hwalked.output (hlayout.routeFits.namesEntry hlayout.output) hlayout.routeFits.isPlain
        (fun j hpos hlt => ⟨_, .inl rfl, j, hpos, hlt, rfl⟩) rfl
    · cases hrun
  · -- a visit ended the pass
    rw [hvisits] at hrun
    obtain rfl : p.afterAll copyStatic done (fresh w) = w' := congrArg Prod.snd hrun
    exact extends_visited hlayout h hdone

end

omit hlayout in
theorem passes_of_buildAlone {r : Report} (hrun : (p.buildAlone copyStatic).run.run w = (.ok r, w')) : ∃ w₁,
    p.Passes copyStatic (p.alone w) r w₁ ∧ w' = { w₁ with routes := w.routes } := by
  rw [run_buildAlone, Prod.mk.injEq] at hrun
  obtain ⟨hok, rfl⟩ := hrun
  exact ⟨_, build_eq_ok.1 (Prod.ext hok rfl : (p.build copyStatic).run.run (p.alone w) = (.ok r, _)), rfl⟩

/-- **The round of a pass that comes to its end** tells which documents it converts. -/
theorem mem_passRound (h : p.Stands F base out w.files) {r : Report}
    (hrun : (p.buildAlone copyStatic).run.run w = (.ok r, w')) : (p.passRound copyStatic w).ended = true ∧
      ∀ v ∈ p.trail copyStatic (p.alone w), ((v.path, true) ∈ (p.passRound copyStatic w).attempts ↔ p.converts v = true) := by
  obtain ⟨w₁, hpass, -⟩ := passes_of_buildAlone hrun
  have hall : (p.trail copyStatic (p.alone w)).takeWhile (p.goesOn copyStatic) = p.trail copyStatic (p.alone w) :=
    List.takeWhile_eq_self_iff.2 fun v hv => goesOn_eq_true.2 (hpass.goesOn v hv)
  refine ⟨by simp [passRound, hrun, Except.isOk, Except.toBool], fun v hv => ?_⟩
  simp only [passRound, hall, List.mem_map, List.mem_filter, Prod.mk.injEq]
  constructor
  · rintro ⟨u, ⟨hu, -⟩, hpath, hconverts⟩
    -- a pass visits no file twice
    have hnodup : ((p.trail copyStatic (p.alone w)).map (·.path)).Nodup := by
      rw [trail, map_path_visits]
      exact (grows_layout (w := fresh (p.alone w)) hlayout h).nodup_trailPaths
    rwa [← List.inj_on_of_nodup_map hnodup hu hv hpath]
  · intro hconverts
    have hkind : p.isPage v.path = true := by
      unfold converts at hconverts
      exact (Bool.and_eq_true_iff.1 hconverts).1
    exact ⟨v, ⟨hv, hkind⟩, rfl, hconverts⟩

/-- **A pass that comes to its end brings the entry module in step.** -/
theorem declares_of_ended (h : p.Stands F base out w.files)
    (hcurrent : ∀ a, F a → ¬ out ++ p.outNames (p.source.descend a) <+: w.files.current) {r : Report}
    (hrun : (p.buildAlone copyStatic).run.run w = (.ok r, w')) (history : List Round) :
    p.Declares F base out (history ++ [p.passRound copyStatic w]) w'.files := by
  obtain ⟨hended, hround⟩ := mem_passRound hlayout h hrun
  obtain ⟨w₁, hpass, rfl⟩ := passes_of_buildAlone hrun
  have hvisited : Extends (p.AtOutput F out) (p.OnWay F out) w.files (p.walkedThrough copyStatic (p.alone w)).files :=
    extends_visited (w := p.alone w) hlayout h List.prefix_rfl
  have hwalked := h.written hlayout hvisited
  have hwrite := hpass.files
  rw [hlayout.routeLeads] at hwrite
  obtain ⟨hroute, hplaced, hlocated⟩ := writeText_places hwalked.isTree hwalked.output
    (hlayout.routeFits.namesEntry hlayout.output) hlayout.routeFits.isPlain hwrite
  have hall : Extends (out <+: ·) (out <+: ·) w.files w₁.files := (extends_out hvisited).trans
    (hroute.mono (fun _ hl => hl ▸ List.prefix_append _ _) fun _ ⟨_, _, _, hl⟩ => hl ▸ List.prefix_append _ _)
  have hstands := h.grown hlayout hall
  have hsources : p.sourceFiles w₁.files = (p.trail copyStatic (p.alone w)).map (·.path) := by
    rw [map_path_trail (w := p.alone w) hlayout h copyStatic]
    exact sourceFiles_eq (.of_get? (hlayout.get?_source hall)) hstands.isTree h.isTree hstands.source h.source
  refine ⟨hstands, hall.current ▸ hcurrent, ?_, fun path hpath => ?_, ?_⟩
  · exact unlocked_of_writeText (hlayout.routeFits.namesEntry hlayout.output) hwrite hlocated
  · rw [Round.converted_append hended] at hpath
    obtain ⟨v, hv, heq⟩ := List.mem_map.1 hpath
    rw [hsources, ← (Prod.mk.inj heq).1]
    exact List.mem_map_of_mem ((List.takeWhile_sublist _).subset (List.mem_filter.1 hv).1)
  · have hentries : ((p.sourceFiles w₁.files).filter (Round.converted (history ++ [p.passRound copyStatic w]))).filterMap
        p.entryOf? = (p.trail copyStatic (p.alone w)).filterMap p.registered? := by
      rw [hsources, List.filter_map, List.filterMap_map, List.filterMap_filter]
      refine List.filterMap_congr fun v hv => ?_
      rw [registered?_of_mem_trail (w := p.alone w) hlayout h hv]
      exact if_congr ((Round.converted_append hended).trans (hround v hv)) rfl rfl
    rw [hplaced, entryModuleFor, hentries, walkedThrough, routes_afterAll, ← trail]
    rfl

/-- **A pass keeps the entry module in step**, also one that is broken off. -/
theorem declares_of_buildAlone (h : p.Declares F base out history w.files) (copyStatic : Bool) :
    p.Declares F base out (history ++ [p.passRound copyStatic w]) ((p.buildAlone copyStatic).run.run w).2.files := by
  rcases hrun : (p.buildAlone copyStatic).run.run w with ⟨f | r, w'⟩
  · have hnot : (p.passRound copyStatic w).ended = false := by simp [passRound, hrun, Except.isOk, Except.toBool]
    rw [run_buildAlone, Prod.mk.injEq] at hrun
    obtain ⟨herror, rfl⟩ := hrun
    exact (h.written hlayout (extends_of_build_error (w := p.alone w) hlayout h.stands (Prod.ext herror rfl))).append hnot
  · exact declares_of_ended hlayout h.stands h.current hrun history

/-- **A pass without assets comes to its end** where the entry module can be written over. -/
theorem exists_ended (h : p.Stands F base out w.files) (hunlocked : out ++ p.routeNames ∉ w.files.locked)
    {bytes : List UInt8} (hfile : w.files.get? (out ++ p.routeNames) = some (.file bytes)) :
    ∃ r w', (p.buildAlone false).run.run w = (.ok r, w') := by
  have hvisited : Extends (p.AtOutput F out) (p.OnWay F out) w.files (p.walkedThrough false (p.alone w)).files :=
    extends_visited (w := p.alone w) hlayout h List.prefix_rfl
  have hwalked := h.written hlayout hvisited
  obtain ⟨hnotAt, hnotOn⟩ := off_routeNames hlayout
  have hplace : (p.walkedThrough false (p.alone w)).files.get? (out ++ p.routeNames) = some (.file bytes) := by
    rw [hvisited.get?_eq hnotAt hnotOn, hfile]
  have hroom : HasRoom (p.walkedThrough false (p.alone w)).files out p.routeNames := by
    refine ⟨fun k hk content hget => ?_, by simp [hplace], fun hl => hunlocked ((hvisited.locked_iff hnotAt).1 hl)⟩
    have hdir := hwalked.isTree.directory_of_prefix ((List.prefix_append_right_inj out).2 (List.take_prefix k p.routeNames))
      (fun heq => by
        have hlen := congrArg List.length (List.append_cancel_left heq)
        rw [List.length_take] at hlen
        omega) hplace
    rw [hget] at hdir
    cases hdir
  obtain ⟨t', hwrite⟩ := writeText_ok hwalked.isTree hlayout.output hwalked.output hwalked.outputDir hlayout.routeFits hroom
    (Text.encode (p.walkedThrough false (p.alone w)).routes.entryModule)
  have hrun : (p.build false).run.run (p.alone w) = (.ok { p.reportOf false (p.trail false (p.alone w)) with
      entryModule := some p.routePath }, ⟨t', (p.walkedThrough false (p.alone w)).routes⟩) := by
    refine build_eq_ok.2 ⟨hlayout.asked _, hlayout.asked _, h.isFile_entry hlayout,
      fun v _ _ hcopies => (Bool.false_ne_true hcopies).elim, rfl, rfl, ?_⟩
    rw [hlayout.routeLeads]
    exact hwrite
  unfold alone at hrun
  exact ⟨_, _, by rw [run_buildAlone, hrun]⟩

/-! ## Events -/

/-- **A source stands without an output**, whatever stood there. -/
theorem stands_erase_output (h : p.Stands F base out t) (hsource : ".." ∉ p.source.parts) (houtput : ".." ∉ p.output.parts)
    (hne : names ≠ []) (hcurrent : ¬ out ++ names <+: t.current) :
    p.Stands F base out (t.erase (out ++ names)) ∧
      ∀ more, (t.erase (out ++ names)).get? (base ++ more) = t.get? (base ++ more) := by
  have htree := h.isTree.erase hcurrent
  have hkept : ∀ l, ¬ out ++ names <+: l → (t.erase (out ++ names)).get? l = t.get? l := by
    intro l hl
    by_cases hnil : l = []
    · rw [hnil, get?_root, get?_root]
    · rw [get?_erase hnil, if_neg hl]
  have hbase : ∀ more, (t.erase (out ++ names)).get? (base ++ more) = t.get? (base ++ more) := fun more =>
    hkept _ fun hpre => not_prefix_append hlayout.below hlayout.above more ((List.prefix_append out names).trans hpre)
  have hout : (t.erase (out ++ names)).get? out = some .directory := by
    rw [hkept out fun hpre => hne (List.append_right_eq_self.1 (hpre.eq_of_length_le (by simp))), h.outputDir]
  have hdir : (t.erase (out ++ names)).get? base = some .directory := by
    have hsame := hbase []
    rw [List.append_nil] at hsame
    rw [hsame, h.sourceDir]
  exact ⟨h.congr htree current_erase (locate_of_there htree current_erase hsource h.source hdir)
    (locate_of_there htree current_erase houtput h.output hout) hout hbase, hbase⟩

section

variable (hsource : ".." ∉ p.source.parts) (houtput : ".." ∉ p.output.parts)
include hsource houtput

/-- **The removal of an output changes no route.** -/
theorem declares_of_clearOutput (h : p.Declares F base out history w.files) (ha : F a) (hnames : ∀ s ∈ a, IsName s) :
    p.Declares F base out history ((p.clearOutput (p.source.descend a)).run.run w).2.files := by
  have hdest := h.stands.destination_eq hlayout ha hnames
  have hfits := hlayout.fits a ha
  cases hlook : w.files.look (p.output.descend (p.outNames (p.source.descend a))) with
  | error e =>
    rw [run_clearOutput, hdest]
    simpa only [hlook] using h
  | ok node =>
    cases node with
    | none =>
      rw [run_clearOutput, hdest]
      simpa only [hlook] using h
    | some node =>
      obtain ⟨loc, hloc, hget⟩ := node?_eq_some.1 (look_eq_some.1 hlook)
      obtain ⟨rfl, -⟩ := locate_names h.stands.output (parent_notMem hfits.isPlain) hloc
      rw [run_clearOutput_of_locate p hdest hloc hget]
      obtain ⟨hstands, hsame⟩ := stands_erase_output hlayout h.stands hsource houtput hfits.ne_nil (h.current a ha)
      have hfiles := sourceFiles_eq (.of_get? hsame) hstands.isTree h.stands.isTree hstands.source h.stands.source
      refine h.congr hstands current_erase (by rw [hfiles]) mem_locked_of_erase ?_
      rw [get?_erase (by simp [hlayout.routeFits.ne_nil]), if_neg]
      exact fun hpre => (hlayout.routeApart a ha).2 ((List.prefix_append_right_inj out).1 hpre)

/-- **A deletion brings the entry module in step.** -/
theorem declares_of_afterDeletion (h : p.Declares F base out history t) (hstands : p.Stands F base out w.files)
    (hout : SameBelow out t w.files) (ha : F a) (hnames : ∀ s ∈ a, IsName s) :
    p.Declares F base out (history ++ [p.passRound false w])
      ((Watch.afterDeletion p (p.source.descend a)).run.run w).2.files := by
  obtain ⟨r, w', hrun⟩ := exists_ended hlayout hstands (fun hl => h.unlocked (hout.locked _ hl)) ((hout.get? _).trans h.entryModule)
  have hdeclares := declares_of_ended hlayout hstands (hout.current ▸ h.current) hrun history
  rw [run_afterDeletion, hrun]
  exact declares_of_clearOutput hlayout hsource houtput hdeclares ha hnames

end

/-- **The conversion of a changed document changes no route.** -/
theorem declares_of_afterChange {old bytes : List UInt8} (h : p.Declares F base out history t)
    (hstands : p.Stands F base out w.files) (hout : SameBelow out t w.files) (hold : t.get? (base ++ a) = some (.file old))
    (hfile : w.files.get? (base ++ a) = some (.file bytes)) (hsame : ∀ l, l ≠ base ++ a → w.files.get? l = t.get? l) :
    p.Declares F base out history ((Watch.afterChange p (p.source.descend a)).run.run w).2.files := by
  have ha := h.stands.known a old hold
  have hfiles := sourceFiles_eq (alike_of_overwritten hold hfile hsame) h.stands.isTree hstands.isTree h.stands.source
    hstands.source
  have hchanged := h.congr hstands hout.current (by rw [hfiles]) (hout.locked _) (hout.get? _)
  unfold Watch.afterChange
  rw [run_quietly]
  refine hchanged.written hlayout ?_
  cases hkind : p.isPage (p.source.descend a) with
  | true =>
    exact (extends_convertPage_source hlayout hstands hfile false).mono (fun _ hl => ⟨a, ha, hl ▸ List.prefix_rfl⟩)
      fun _ hl => ⟨_, .inr ⟨a, ha, rfl⟩, hl⟩
  | false =>
    have hvisit := extends_after_source hlayout hstands hfile true
    rw [after_of_asset hkind] at hvisit
    exact hvisit.mono (fun _ hl => ⟨a, ha, hl⟩) fun _ hl => ⟨_, .inr ⟨a, ha, rfl⟩, hl⟩

end Project

namespace Watch

open Project

/-- **The rounds that an event starts.** -/
def rounds (p : Project) (w : Workspace) : FileEvent → List Round
  | .created _     => [p.passRound true w]
  | .modified path => [⟨if p.isPage path then [(path, ((p.convertPage false path).run.run w).1.isOk)] else [], false⟩]
  | .deleted _     => [p.passRound false w]
  | .moved path _  => [p.passRound false w, p.passRound true ((afterDeletion p path).run.run w).2]

/-- **The rounds that a run of edits starts**, in their order. -/
def log (p : Project) : List Edit → Workspace → List Round
  | [], _ => []
  | e :: edits, w => rounds p (edited p w e) (e.event p) ++ log p edits (react p w e)

/-- **An attended run of edits**: each applies and comes out well, and leaves a source that stands.  Documents may fail. -/
def Attended (p : Project) (F : List String → Prop) (base out : Location) : List Edit → Workspace → Prop
  | [], _ => True
  | e :: edits, w => e.Applies base w.files ∧ ((e.action p).run.run w.files).1 = .ok () ∧
      p.Stands F base out (edited p w e).files ∧ Attended p F base out edits (react p w e)

instance decidableAttended (p : Project) (F : List String → Prop) [DecidablePred F] (base out : Location) :
    ∀ edits w, Decidable (Attended p F base out edits w)
  | [], _ => .isTrue trivial
  | e :: edits, w =>
    have := decidableAttended p F base out edits (react p w e)
    inferInstanceAs (Decidable (_ ∧ _ ∧ _ ∧ Attended p F base out edits (react p w e)))

section

variable {p : Project} {F : List String → Prop} {base out : Location} {w : Workspace} {history : List Round}
  (hlayout : p.Layout F base out) (hsource : ".." ∉ p.source.parts) (houtput : ".." ∉ p.output.parts)
include hlayout hsource houtput

/-- **Every event keeps the entry module in step with the passes.** -/
theorem declares_of_react {e : Edit} (h : p.Declares F base out history w.files) (happlies : e.Applies base w.files)
    (hdone : ((e.action p).run.run w.files).1 = .ok ()) (hstands : p.Stands F base out (edited p w e).files) :
    p.Declares F base out (history ++ rounds p (edited p w e) (e.event p)) (react p w e).files := by
  have hrun : (e.action p).run.run w.files = (.ok (), (edited p w e).files) := Prod.ext hdone rfl
  have hbefore := h.stands
  have hthere : p.HasSource base w.files := ⟨hbefore.isTree, hbefore.source, hbefore.sourceDir⟩
  unfold react
  cases e with
  | create names bytes =>
    obtain ⟨hne, hnames, hnone⟩ := happlies
    obtain ⟨hgrown, hout, -⟩ := places_of_written hlayout hbefore.isTree hbefore.source hne hnames hrun
    have hcreated := h.created hstands hgrown hout hnone
    unfold Edit.event handle rounds afterCreation
    rw [run_quietly]
    exact declares_of_buildAlone hlayout hcreated true
  | overwrite names bytes =>
    obtain ⟨old, hold⟩ := happlies
    obtain ⟨hnew, hsame, hout⟩ := places_of_overwritten hlayout hbefore hold hrun
    exact (declares_of_afterChange hlayout h hstands hout hold hnew hsame).append rfl
  | delete names =>
    obtain ⟨old, hold⟩ := happlies
    obtain ⟨-, hout, hleft⟩ := places_of_removed hlayout hthere (hbefore.names_of_file hold).2 hold hrun
    exact declares_of_afterDeletion hlayout hsource houtput h hstands hout (hbefore.known names old hold)
      (hbefore.names_of_file hold).2
  | rename names target =>
    obtain ⟨⟨old, hold⟩, hne, htarget⟩ := happlies
    obtain ⟨hout, -⟩ := places_of_renamed hlayout hthere hold hne htarget hrun
    have hdeleted := declares_of_afterDeletion hlayout hsource houtput h hstands hout (hbefore.known names old hold)
      (hbefore.names_of_file hold).2
    have hcreated := declares_of_buildAlone hlayout hdeleted true
    rw [List.append_assoc] at hcreated
    have hhandle : ((handle p ((Edit.rename names target).event p)).run.run (edited p w (.rename names target))).2 =
        ((p.buildAlone true).run.run ((afterDeletion p (p.source.descend names)).run.run (edited p w (.rename names target))).2).2 := by
      unfold Edit.event handle afterCreation
      rw [run_bind, run_afterDeletion]
      simp only [run_quietly]
    rw [hhandle]
    exact hcreated

/-- **An attended run of edits keeps the entry module in step at every step.** -/
theorem declares_of_attended : ∀ {edits done : List Edit} {history : List Round} {w : Workspace},
    p.Declares F base out history w.files → Attended p F base out edits w → done <+: edits →
      p.Declares F base out (history ++ log p done w) (done.foldl (react p) w).files
  | _, [], history, _, h, _, _ => by rwa [log, List.append_nil]
  | [], e :: done, _, _, _, _, hdone => absurd (List.prefix_nil.1 hdone) (List.cons_ne_nil e done)
  | e' :: edits, e :: done, history, w, h, hedits, hdone => by
    obtain ⟨rfl, hdone'⟩ := List.cons_prefix_cons.1 hdone
    obtain ⟨happlies, hedit, hstands, hrest⟩ := hedits
    rw [log, ← List.append_assoc, List.foldl_cons]
    exact declares_of_attended (declares_of_react hlayout hsource houtput h happlies hedit hstands) hrest hdone'

/-- **The routes follow the passes.**  Start with a pass that comes to its end and follow an attended run of edits: after each
one the entry module has a route for exactly those documents of the present source, but the entry document, that the last pass
to come to its end has converted. -/
theorem entryModule_of_attended (h : p.Stands F base out w.files)
    (hcurrent : ∀ a, F a → ¬ out ++ p.outNames (p.source.descend a) <+: w.files.current) {r : Report} {w₀ : Workspace}
    (hrun : (p.buildAlone true).run.run w = (.ok r, w₀)) {edits done : List Edit}
    (hedits : Attended p F base out edits w₀) (hdone : done <+: edits) :
    (done.foldl (react p) w₀).files.get? (out ++ p.routeNames) = some (.file (Text.encode (p.entryModuleFor
      (Round.converted (p.passRound true w :: log p done w₀)) (done.foldl (react p) w₀).files))) := by
  have hfirst := declares_of_ended hlayout h hcurrent hrun []
  exact (declares_of_attended hlayout hsource houtput hfirst hedits hdone).entryModule

end

/-! ## A document that is put right -/

/-- The site of `draftShelf` when the watcher starts. -/
def draftStart : Workspace := ((shelfProject.buildAlone true).run.run draftShelf).2

/-- A document is created that holds nothing, and is put right; a picture is moved; the document is spoilt again. -/
def patches : List Edit :=
  [.create ["blog", "a.html"] (Text.encode "<!-- -->"), .overwrite ["blog", "a.html"] (Text.encode "<p>"),
    .rename ["logo.svg"] ["art", "logo.svg"], .overwrite ["blog", "a.html"] (Text.encode "<!-- -->")]

theorem attended_patches : shelfProject.Stands (· ∈ draftNames) ["site"] ["app", "src"] draftShelf.files ∧
    Attended shelfProject (· ∈ draftNames) ["site"] ["app", "src"] patches draftStart := by
  decide +kernel

theorem entryModule_of_attended_patches : ∃ r, (shelfProject.buildAlone true).run.run draftShelf = (.ok r, draftStart) ∧
    (patches.foldl (react shelfProject) draftStart).files.get? (["app", "src"] ++ shelfProject.routeNames) =
      some (.file (Text.encode (shelfProject.entryModuleFor
        (Round.converted (shelfProject.passRound true draftShelf :: log shelfProject patches draftStart))
        (patches.foldl (react shelfProject) draftStart).files))) := by
  obtain ⟨hstands, hattended⟩ := attended_patches
  have hok : ((shelfProject.buildAlone true).run.run draftShelf).1.isOk = true := by decide +kernel
  obtain ⟨r, hr⟩ := isOk_iff.1 hok
  have hrun : (shelfProject.buildAlone true).run.run draftShelf = (.ok r, draftStart) := Prod.ext hr rfl
  have hcurrent : ∀ a ∈ draftNames, ¬ ["app", "src"] ++ shelfProject.outNames (shelfProject.source.descend a) <+:
      draftShelf.files.current := by decide +kernel
  exact ⟨r, hrun, entryModule_of_attended layout_draftNames (by decide) (by decide) hstands hcurrent hrun hattended
    (List.prefix_refl patches)⟩

/-- **A document that was put right has no route before the next pass**, and a document that is created has none when its pass
is broken off, as it is by the picture whose copy is read-only, too. -/
theorem entryModule_ne_patched :
    shelfProject.Layout (· ∈ draftNames) ["site"] ["app", "src"] ∧
    (shelfProject.Stands (· ∈ draftNames) ["site"] ["app", "src"] draftShelf.files ∧
      ((shelfProject.buildAlone true).run.run draftShelf).1.isOk = true ∧
      Attended shelfProject (· ∈ draftNames) ["site"] ["app", "src"] (patches.take 2) draftStart ∧
      ((patches.take 2).foldl (react shelfProject) draftStart).files.get? (["app", "src"] ++ shelfProject.routeNames) ≠
        some (.file (Text.encode (shelfProject.entryModuleFor
          (Round.succeeded (shelfProject.passRound true draftShelf :: log shelfProject (patches.take 2) draftStart))
          ((patches.take 2).foldl (react shelfProject) draftStart).files)))) ∧
    shelfProject.Stands (· ∈ draftNames) ["site"] ["app", "src"] sealedShelf.files ∧
      ((shelfProject.buildAlone true).run.run sealedShelf).1.isOk = true ∧
      Attended shelfProject (· ∈ draftNames) ["site"] ["app", "src"] [sealedEdit] sealedStart ∧
      (react shelfProject sealedStart sealedEdit).files.get? (["app", "src"] ++ shelfProject.routeNames) ≠
        some (.file (Text.encode (shelfProject.entryModuleFor
          (Round.succeeded (shelfProject.passRound true sealedShelf :: log shelfProject [sealedEdit] sealedStart))
          (react shelfProject sealedStart sealedEdit).files))) :=
  ⟨layout_draftNames, ⟨attended_patches.1, by decide +kernel, by decide +kernel, by decide +kernel⟩, by decide +kernel,
    by decide +kernel, by decide +kernel, by decide +kernel⟩

end Watch
end ReactSite
