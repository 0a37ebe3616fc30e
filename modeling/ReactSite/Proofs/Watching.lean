import ReactSite.Proofs.Upkeep
/-!
# Watching — the output stays in step with an edited source

A source file is created, overwritten, deleted or renamed, and the watcher is told (`react`).  Each kind of event starts work of
its own, and each restores the same state: an output directory in step with the source (`kept_of_react`).  So after any run
of such edits the output directory holds the very files that a pass over the present source would write to an empty one
(`files_of_orderly`).
-/
namespace ReactSite

open FileTree

/-- **An edit of the source**: of one file, by the names that lead to it. -/
inductive Edit where
  | create (names : List String) (bytes : List UInt8)
  | overwrite (names : List String) (bytes : List UInt8)
  | delete (names : List String)
  | rename (names target : List String)

namespace Edit

/-- Whether a path leads to a read-only file. -/
def isLocked (t : FileTree) (path : Path) : Bool :=
  match t.locate path with
  | .ok loc  => loc ∈ t.locked
  | .error _ => false

/-- Makes the file that a path leads to read-only, if it is to be. -/
def relock (path : Path) (locked : Bool) (t : FileTree) : FileTree :=
  match t.locate path with
  | .ok loc  => if locked then t.lock loc else t
  | .error _ => t

/-- Takes away the file that a path leads to, if there is one. -/
def makeWay (path : Path) : FileAction FileError Unit := do
  if (← get).isFile path then remove path

/-- **Moves a file** over the one that stands at the target, read-only as it is. -/
def move (source target : Path) : FileAction FileError Unit := do
  let locked := isLocked (← get) source
  let bytes ← read source
  remove source
  makeWay target
  writeText target bytes
  modify (relock target locked)

/-- What an edit does to the files; directories that are missing on the way to a new file are made. -/
def action (p : Project) : Edit → FileAction FileError Unit
  | create names bytes    => writeText (p.source.descend names) bytes
  | overwrite names bytes => write (p.source.descend names) bytes
  | delete names          => remove (p.source.descend names)
  | rename names target   => move (p.source.descend names) (p.source.descend target)

/-- The event that tells of an edit. -/
def event (p : Project) : Edit → FileEvent
  | create names _      => .created (p.source.descend names)
  | overwrite names _   => .modified (p.source.descend names)
  | delete names        => .deleted (p.source.descend names)
  | rename names target => .moved (p.source.descend names) (p.source.descend target)

/-- **An edit that applies**: it creates a file where nothing is, and does anything else to a file that is there. -/
def Applies (base : Location) (t : FileTree) : Edit → Prop
  | create names _      => names ≠ [] ∧ (∀ s ∈ names, IsName s) ∧ t.get? (base ++ names) = none
  | overwrite names _   => ∃ bytes, t.get? (base ++ names) = some (.file bytes)
  | delete names        => ∃ bytes, t.get? (base ++ names) = some (.file bytes)
  | rename names target => (∃ bytes, t.get? (base ++ names) = some (.file bytes)) ∧ target ≠ [] ∧ ∀ s ∈ target, IsName s

instance (base : Location) (t : FileTree) : (e : Edit) → Decidable (e.Applies base t)
  | create names _ => inferInstanceAs (Decidable (names ≠ [] ∧ _ ∧ t.get? (base ++ names) = none))
  | overwrite names _ => inferInstanceAs (Decidable (∃ bytes, t.get? (base ++ names) = some (FileNode.file bytes)))
  | delete names => inferInstanceAs (Decidable (∃ bytes, t.get? (base ++ names) = some (FileNode.file bytes)))
  | rename names target =>
    inferInstanceAs (Decidable ((∃ bytes, t.get? (base ++ names) = some (FileNode.file bytes)) ∧ target ≠ [] ∧ _))

end Edit

namespace Watch

/-- The workspace after an edit. -/
def edited (p : Project) (w : Workspace) (e : Edit) : Workspace := { w with files := ((e.action p).run.run w.files).2 }

/-- **An edit, followed at once by its event.** -/
def react (p : Project) (w : Workspace) (e : Edit) : Workspace := ((handle p (e.event p)).run.run (edited p w e)).2

/-- **An orderly run of edits**: each applies and comes out well, and leaves a source that can be converted. -/
def Orderly (p : Project) (F : List String → Prop) (base out : Location) : List Edit → Workspace → Prop
  | [], _ => True
  | e :: edits, w => e.Applies base w.files ∧ ((e.action p).run.run w.files).1 = .ok () ∧
      p.Convertible F base out (edited p w e).files ∧ Orderly p F base out edits (react p w e)

instance decidableOrderly (p : Project) (F : List String → Prop) [DecidablePred F] (base out : Location) :
    ∀ edits w, Decidable (Orderly p F base out edits w)
  | [], _ => .isTrue trivial
  | e :: edits, w =>
    have := decidableOrderly p F base out edits (react p w e)
    inferInstanceAs (Decidable (_ ∧ _ ∧ _ ∧ Orderly p F base out edits (react p w e)))

end Watch

namespace Project

variable {p : Project} {F : List String → Prop} {base out : Location} {t t₁ : FileTree} {w : Workspace} {a : List String}
  (hlayout : p.Layout F base out)
include hlayout

/-- What a pass writes after an edit: all that it wrote before, but for files that are gone. -/
theorem writes_edited (h : p.Convertible F base out t) (h₁ : p.Convertible F base out t₁) (Gone : List String → Prop)
    (hfiles : ∀ b bytes, t.get? (base ++ b) = some (.file bytes) →
      (∃ bytes', t₁.get? (base ++ b) = some (.file bytes')) ∨ Gone b) {names : List String} (hwrites : p.Writes true t names) :
    p.Writes true t₁ names ∨ ∃ b, Gone b ∧ names = p.outNames (p.source.descend b) := by
  rcases hwrites with hroute | ⟨path, hpath, htreats, rfl⟩
  · exact .inl (.inl hroute)
  · obtain ⟨b, bytes, rfl, hfile⟩ := (h.stands.mem_sourceFiles hlayout).1 hpath
    rcases hfiles b bytes hfile with ⟨bytes', hfile'⟩ | hgone
    · exact .inl (.inr ⟨_, (h₁.stands.mem_sourceFiles hlayout).2 ⟨b, bytes', rfl, hfile'⟩, htreats, rfl⟩)
    · exact .inr ⟨b, hgone, rfl⟩

omit hlayout in
theorem run_afterCreation {r : Report} {w w' : Workspace} (hrun : (p.buildAlone true).run.run w = (.ok r, w')) :
    (Watch.afterCreation p).run.run w = (.ok (), w') := by
  unfold Watch.afterCreation
  rw [run_quietly, hrun]

section

variable (hkept : p.Kept F base out t) (h : p.Convertible F base out w.files)
  (hout : SameBelow out t w.files)
include hkept h hout

/-- **A new file is followed up.** -/
theorem kept_of_created (hfiles : ∀ b bytes, t.get? (base ++ b) = some (.file bytes) →
    ∃ bytes', w.files.get? (base ++ b) = some (.file bytes')) :
    ∃ w', (Watch.afterCreation p).run.run w = (.ok (), w') ∧ p.Kept F base out w'.files := by
  obtain ⟨r, w', hrun, -, hkept', -⟩ := kept_of_buildAlone hlayout h (hkept.tidy.congr hout) fun names content hfile => by
    rw [hout.get?] at hfile
    refine (writes_edited hlayout hkept.convertible h (fun _ => False) (fun b bytes hget => .inl (hfiles b bytes hget))
      (hkept.inSync.only names content hfile)).resolve_right ?_
    rintro ⟨b, hno, -⟩
    exact hno
  exact ⟨w', run_afterCreation hrun, hkept'⟩

variable {old : List UInt8} (hold : t.get? (base ++ a) = some (.file old))
  (hfiles : ∀ b bytes, t.get? (base ++ b) = some (.file bytes) → b ≠ a → ∃ bytes', w.files.get? (base ++ b) = some (.file bytes'))
include hold hfiles

omit hfiles h in
theorem output_there : ∃ content, w.files.get? (out ++ p.outNames (p.source.descend a)) = some (.file content) := by
  obtain ⟨content, -, hplace⟩ := hkept.inSync.outputs _ ((hkept.convertible.stands.mem_sourceFiles hlayout).2 ⟨a, old, rfl, hold⟩)
  exact ⟨content, by rw [hout.get?, hplace]⟩

theorem only_edited (names : List String) (content : List UInt8) (hfile : w.files.get? (out ++ names) = some (.file content)) :
    p.Writes true w.files names ∨ names = p.outNames (p.source.descend a) := by
  rw [hout.get?] at hfile
  have hwrites := writes_edited hlayout hkept.convertible h (· = a) (fun b bytes hget => by
    by_cases hb : b = a
    · exact .inr hb
    · exact .inl (hfiles b bytes hget hb)) (hkept.inSync.only names content hfile)
  refine hwrites.imp id ?_
  rintro ⟨b, rfl, heq⟩
  exact heq

omit hfiles in
/-- **A deleted file is followed up.** -/
theorem kept_of_gone (hgone : w.files.get? (base ++ a) = none)
    (hsame : ∀ b, b ≠ a → w.files.get? (base ++ b) = t.get? (base ++ b)) :
    ∃ w', (Watch.afterDeletion p (p.source.descend a)).run.run w = (.ok (), w') ∧ p.Kept F base out w'.files := by
  obtain ⟨content, hthere⟩ := output_there hlayout hkept hout hold
  refine kept_of_deleted hlayout h (hkept.tidy.congr hout) (hkept.convertible.known a old hold)
    (hkept.convertible.stands.names_of_file hold).2 hthere (fun bytes hget => ?_) (fun path hpath hkind => ?_)
    (only_edited hlayout hkept h hout hold fun b bytes hget hb => ⟨bytes, by rw [hsame b hb, hget]⟩)
  · rw [hgone] at hget
    cases hget
  · obtain ⟨b, bytes, rfl, hfile⟩ := (h.stands.mem_sourceFiles hlayout).1 hpath
    have hb : b ≠ a := by
      rintro rfl
      rw [hgone] at hfile
      cases hfile
    have hfile₀ : t.get? (base ++ b) = some (.file bytes) := by rw [← hsame b hb, hfile]
    obtain ⟨content', hcontent', hplace⟩ :=
      hkept.inSync.outputs _ ((hkept.convertible.stands.mem_sourceFiles hlayout).2 ⟨b, bytes, rfl, hfile₀⟩)
    refine ⟨content', ?_, by rw [hout.get?, hplace]⟩
    rw [← hcontent']
    unfold outputBytes
    rw [hkind, if_neg (by simp), if_neg (by simp), h.stands.node?_of_file hlayout hfile,
      hkept.convertible.stands.node?_of_file hlayout hfile₀]

/-- **A renamed file is followed up.** -/
theorem kept_of_renamed : ∃ w', (do
      Watch.afterDeletion p (p.source.descend a)
      Watch.afterCreation p : Action Unit).run.run w = (.ok (), w') ∧ p.Kept F base out w'.files := by
  obtain ⟨content, hthere⟩ := output_there hlayout hkept hout hold
  obtain ⟨w₃, hdeletion, h₃, htidy₃, -, honly₃⟩ := afterDeletion_ok hlayout h (hkept.tidy.congr hout)
    (hkept.convertible.known a old hold) (hkept.convertible.stands.names_of_file hold).2 hthere
    (only_edited hlayout hkept h hout hold hfiles)
  obtain ⟨r, w', hrun, -, hkept', -⟩ := kept_of_buildAlone hlayout h₃ htidy₃ honly₃
  refine ⟨w', ?_, hkept'⟩
  rw [run_bind, hdeletion]
  exact run_afterCreation hrun

end

/-! ## Edits -/

theorem places_of_written {t t₁ : FileTree} {names : List String} (ht : t.IsTree) (hsource : t.locate p.source = .ok base)
    (hne : names ≠ []) (hnames : ∀ s ∈ names, IsName s) {bytes : List UInt8}
    (hrun : (writeText (p.source.descend names) bytes).run.run t = (.ok (), t₁)) :
    Extends (· = base ++ names) (OnTheWay base names) t t₁ ∧ SameBelow out t t₁ ∧
      t₁.get? (base ++ names) = some (.file bytes) ∧ t₁.locate (p.source.descend names) = .ok (base ++ names) := by
  have hplain : ∀ s ∈ names, IsPlain s := fun s hs => (hnames s hs).toIsPlain
  obtain ⟨hgrown, hplaced, hlocated⟩ := writeText_places ht hsource (namesEntry_descend hlayout.source hne hplain) hplain hrun
  have hapart : ∀ more less, out ++ more ≠ base ++ less := fun more less heq =>
    not_prefix_append hlayout.above hlayout.below more (heq ▸ List.prefix_append _ _)
  refine ⟨hgrown, hgrown.sameBelow (fun more => hapart more names) ?_, hplaced, hlocated⟩
  rintro more ⟨j, -, -, heq⟩
  exact hapart more _ heq

section

variable {t₁ : FileTree} {old : List UInt8} (h : p.Stands F base out t) (hold : t.get? (base ++ a) = some (.file old))
include h hold

theorem places_of_overwritten {bytes : List UInt8} (hrun : (write (p.source.descend a) bytes).run.run t = (.ok (), t₁)) :
    t₁.get? (base ++ a) = some (.file bytes) ∧ (∀ l, l ≠ base ++ a → t₁.get? l = t.get? l) ∧ SameBelow out t t₁ := by
  obtain ⟨hne, hnames⟩ := h.names_of_file hold
  obtain ⟨init, last, rfl⟩ := List.eq_nil_or_concat a |>.resolve_left hne
  rw [List.concat_eq_append] at *
  obtain ⟨loc, hslot, -, rfl⟩ := write_eq_ok.1 hrun
  obtain ⟨rfl, -⟩ := slot_descend h.source (fun s hs => (hnames s hs).toIsPlain) hslot
  refine ⟨get?_put_self (by simp), fun l hl => get?_put_of_ne hl, current_put, fun more => get?_put_of_ne fun heq => ?_,
    fun more hl => ?_⟩
  · exact not_prefix_append hlayout.above hlayout.below more (heq ▸ List.prefix_append _ _)
  · rwa [locked_put] at hl

end

/-- **A tree in which the source is a directory at its place.** -/
structure HasSource (p : Project) (base : Location) (t : FileTree) : Prop where
  isTree : t.IsTree
  located : t.locate p.source = .ok base
  directory : t.get? base = some .directory

section

variable {t₁ : FileTree} (h : p.HasSource base t) (hnames : ∀ s ∈ a, IsName s)
include h hnames

theorem places_of_removed {old : List UInt8} (hold : t.get? (base ++ a) = some (.file old))
    (hrun : (remove (p.source.descend a)).run.run t = (.ok (), t₁)) :
    p.HasSource base t₁ ∧ SameBelow out t t₁ ∧ ∀ l, t₁.get? l = if l = base ++ a then none else t.get? l := by
  rw [run_remove] at hrun
  cases hloc : t.locate (p.source.descend a) with
  | error fault =>
    rw [hloc] at hrun
    cases congrArg Prod.fst hrun
  | ok loc =>
    obtain ⟨rfl, -⟩ := locate_names h.located (parent_notMem fun s hs => (hnames s hs).toIsPlain) hloc
    rw [hloc] at hrun
    obtain rfl : t.erase (base ++ a) = t₁ := congrArg Prod.snd hrun
    have hleft := fun l => h.isTree.get?_erase_file (l := l) hold
    obtain ⟨hlocated, hdir⟩ := locate_erase_file h.isTree hold h.located h.directory
    refine ⟨⟨h.isTree.erase_file hold, hlocated, hdir⟩, ⟨current_erase, fun more => ?_, fun more hl => mem_locked_of_erase hl⟩,
      hleft⟩
    rw [hleft, if_neg]
    exact fun heq => not_prefix_append hlayout.above hlayout.below more (heq ▸ List.prefix_append _ _)

theorem places_of_makeWay (hrun : (Edit.makeWay (p.source.descend a)).run.run t = (.ok (), t₁)) :
    p.HasSource base t₁ ∧ SameBelow out t t₁ ∧ ∀ l, l ≠ base ++ a → t₁.get? l = t.get? l := by
  unfold Edit.makeWay at hrun
  simp only [run_bind, run_get] at hrun
  split at hrun
  · rename_i hfile
    obtain ⟨content, hnode⟩ := isFile_iff.1 hfile
    obtain ⟨loc, hloc, hold⟩ := node?_eq_some.1 hnode
    obtain ⟨rfl, -⟩ := locate_names h.located (parent_notMem fun s hs => (hnames s hs).toIsPlain) hloc
    obtain ⟨h₁, hout, hleft⟩ := places_of_removed hlayout h hnames hold hrun
    exact ⟨h₁, hout, fun l hl => by rw [hleft, if_neg hl]⟩
  · obtain rfl : t = t₁ := congrArg Prod.snd hrun
    exact ⟨h, ⟨rfl, fun _ => rfl, fun _ => id⟩, fun _ _ => rfl⟩

end

omit hlayout in
theorem sameBelow_relock (locked : Bool) {l : Location} {path : Path} (hloc : t.locate path = .ok l)
    (hout : ∀ more, out ++ more ≠ l) : SameBelow out t (Edit.relock path locked t) ∧
      ∀ l, (Edit.relock path locked t).get? l = t.get? l := by
  unfold Edit.relock
  rw [hloc]
  cases locked with
  | false => exact ⟨⟨rfl, fun _ => rfl, fun _ => id⟩, fun _ => rfl⟩
  | true =>
    refine ⟨⟨current_lock, fun _ => get?_lock, fun more hl => ?_⟩, fun _ => get?_lock⟩
    exact (List.mem_cons.1 hl).resolve_left (hout more)

theorem places_of_renamed {t₁ : FileTree} {old : List UInt8} {target : List String} (h : p.HasSource base t)
    (hold : t.get? (base ++ a) = some (.file old)) (hne : target ≠ []) (htarget : ∀ s ∈ target, IsName s)
    (hrun : ((Edit.rename a target).action p).run.run t = (.ok (), t₁)) :
    SameBelow out t t₁ ∧
      ∀ b bytes, t.get? (base ++ b) = some (.file bytes) → b ≠ a → ∃ bytes', t₁.get? (base ++ b) = some (.file bytes') := by
  obtain ⟨t', t'', hget, hrest⟩ := run_bind_eq_ok.1 hrun
  obtain rfl : t' = t := (Except.ok.inj (congrArg Prod.fst hget)).symm
  obtain rfl : t'' = t' := (congrArg Prod.snd hget).symm
  obtain ⟨bytes, t', hread, hrest⟩ := run_bind_eq_ok.1 hrest
  obtain ⟨-, rfl⟩ := read_eq_ok.1 hread
  obtain ⟨⟨⟩, t₂, hremove, hrest⟩ := run_bind_eq_ok.1 hrest
  obtain ⟨⟨⟩, t₃, hway, hrest⟩ := run_bind_eq_ok.1 hrest
  obtain ⟨⟨⟩, t₄, hwrite, hlock⟩ := run_bind_eq_ok.1 hrest
  obtain ⟨h₂, hout₂, hleft₂⟩ := places_of_removed hlayout h (h.isTree.names_of_file h.directory hold).2 hold hremove
  obtain ⟨h₃, hout₃, hleft₃⟩ := places_of_makeWay hlayout h₂ htarget hway
  obtain ⟨hgrown, hout₄, hplaced, hlocated⟩ := places_of_written hlayout h₃.isTree h₃.located hne htarget hwrite
  rw [run_modify] at hlock
  obtain rfl : Edit.relock (p.source.descend target) (Edit.isLocked t' (p.source.descend a)) t₄ = t₁ := congrArg Prod.snd hlock
  obtain ⟨hout₅, hget₅⟩ := sameBelow_relock (Edit.isLocked t' (p.source.descend a)) hlocated fun more heq =>
    not_prefix_append hlayout.above hlayout.below more (heq ▸ List.prefix_append _ _)
  refine ⟨((hout₂.trans hout₃).trans hout₄).trans hout₅, fun b bytes' hget hb => ?_⟩
  rw [hget₅]
  by_cases heq : b = target
  · exact ⟨bytes, heq ▸ hplaced⟩
  · have hleft : t₃.get? (base ++ b) = some (.file bytes') := by
      rw [hleft₃ _ fun hcat => heq (List.append_cancel_left hcat), hleft₂, if_neg fun hcat => hb (List.append_cancel_left hcat),
        hget]
    exact hgrown.exists_file hleft

variable {e : Edit}

/-- **Every event is followed up**: after an edit and its event the site is kept as before. -/
theorem kept_of_react (hkept : p.Kept F base out w.files) (happlies : e.Applies base w.files)
    (hdone : ((e.action p).run.run w.files).1 = .ok ()) (h : p.Convertible F base out (Watch.edited p w e).files) :
    p.Kept F base out (Watch.react p w e).files := by
  have hrun : (e.action p).run.run w.files = (.ok (), (Watch.edited p w e).files) := Prod.ext hdone rfl
  have hbefore := hkept.convertible.stands
  have hthere : p.HasSource base w.files := ⟨hbefore.isTree, hbefore.source, hbefore.sourceDir⟩
  suffices hhandled : ∃ w', (Watch.handle p (e.event p)).run.run (Watch.edited p w e) = (.ok (), w') ∧
      p.Kept F base out w'.files by
    obtain ⟨w', hhandle, hkept'⟩ := hhandled
    unfold Watch.react
    rwa [hhandle]
  cases e with
  | create names bytes =>
    obtain ⟨hne, hnames, -⟩ := happlies
    obtain ⟨hgrown, hout, -⟩ := places_of_written hlayout hbefore.isTree hbefore.source hne hnames hrun
    exact kept_of_created hlayout hkept h hout fun b bytes hget => hgrown.exists_file hget
  | overwrite names bytes =>
    obtain ⟨old, hold⟩ := happlies
    obtain ⟨hnew, hsame, hout⟩ := places_of_overwritten hlayout hbefore hold hrun
    exact kept_of_overwritten hlayout hkept h hold hnew hsame hout
  | delete names =>
    obtain ⟨old, hold⟩ := happlies
    obtain ⟨-, hout, hleft⟩ := places_of_removed hlayout hthere (hbefore.names_of_file hold).2 hold hrun
    refine kept_of_gone hlayout hkept h hout hold (by rw [hleft, if_pos rfl]) fun b hb => ?_
    rw [hleft, if_neg fun heq => hb (List.append_cancel_left heq)]
  | rename names target =>
    obtain ⟨⟨old, hold⟩, hne, htarget⟩ := happlies
    obtain ⟨hout, hfiles⟩ := places_of_renamed hlayout hthere hold hne htarget hrun
    exact kept_of_renamed hlayout hkept h hout hold hfiles

/-- **An orderly run of edits keeps a site at every step.** -/
theorem kept_of_orderly : ∀ {edits done : List Edit} {w : Workspace}, p.Kept F base out w.files →
    Watch.Orderly p F base out edits w → done <+: edits → p.Kept F base out (done.foldl (Watch.react p) w).files
  | _, [], _, hkept, _, _ => hkept
  | [], e :: done, _, _, _, hdone => absurd (List.prefix_nil.1 hdone) (List.cons_ne_nil e done)
  | e' :: edits, e :: done, w, hkept, hedits, hdone => by
    obtain ⟨rfl, hdone'⟩ := List.cons_prefix_cons.1 hdone
    obtain ⟨happlies, hedit, hconvertible, hrest⟩ := hedits
    rw [List.foldl_cons]
    exact kept_of_orderly (kept_of_react hlayout hkept happlies hedit hconvertible) hrest hdone'

/-! ## Fresh output directories -/

/-- **A tree with the same source and an empty output directory**, in which no file of the source is read-only that was not. -/
structure IsFresh (p : Project) (base out : Location) (t f : FileTree) : Prop where
  isTree : f.IsTree
  source : f.locate p.source = .ok base
  output : f.locate p.output = .ok out
  outputDir : f.get? out = some .directory
  same : SameBelow base t f
  empty : ∀ names, names ≠ [] → f.get? (out ++ names) = none

/-- A tree without what is below its output directory. -/
def emptied (out : Location) (t : FileTree) : FileTree := t.keep fun l => !out.isPrefixOf l || decide (l = out)

omit hlayout in
theorem get?_emptied (l : Location) (t : FileTree) :
    (emptied out t).get? l = if out <+: l ∧ l ≠ out then none else t.get? l := by
  by_cases hnil : l = []
  · rw [hnil, get?_root, get?_root, if_neg]
    rintro ⟨hpre, hne⟩
    exact hne (List.prefix_nil.1 hpre).symm
  · unfold emptied
    rw [get?_keep hnil]
    by_cases hpre : out <+: l
    · rw [List.isPrefixOf_iff_prefix.2 hpre]
      by_cases heq : l = out <;> simp [heq, hpre]
    · rw [isPrefixOf_eq_false hpre]
      simp [hpre]

/-- **A fresh tree is had by emptying the output directory**, if no way leads through it. -/
theorem isFresh_emptied (h : p.Convertible F base out t) (hsource : ".." ∉ p.source.parts) (houtput : ".." ∉ p.output.parts)
    (hcurrent : ¬ out <+: t.current) : p.IsFresh base out t (emptied out t) := by
  have hkeep : ∀ l, ¬ out <+: l ∨ l = out → (emptied out t).get? l = t.get? l := by
    intro l hl
    rw [get?_emptied, if_neg]
    rintro ⟨hpre, hne⟩
    exact hl.elim (fun hno => hno hpre) hne
  have htree : (emptied out t).IsTree := by
    refine h.isTree.keep (fun l hl => ?_) (by rw [isPrefixOf_eq_false hcurrent]; rfl)
    rw [Bool.or_eq_true, Bool.not_eq_true', decide_eq_true_eq] at hl ⊢
    by_cases hpre : out <+: l.dropLast
    · right
      rcases hl with hno | rfl
      · rw [List.isPrefixOf_iff_prefix.2 (hpre.trans (List.dropLast_prefix l))] at hno
        cases hno
      · exact (List.dropLast_prefix l).eq_of_length_le (hpre.length_le)
    · exact .inl (isPrefixOf_eq_false hpre)
  have hcurrent' : (emptied out t).current = t.current := rfl
  have hbase : (emptied out t).get? base = some .directory := by rw [hkeep base (.inl hlayout.above), h.sourceDir]
  have hout : (emptied out t).get? out = some .directory := by rw [hkeep out (.inr rfl), h.outputDir]
  refine ⟨htree, locate_of_there htree hcurrent' hsource h.source hbase,
    locate_of_there htree hcurrent' houtput h.output hout, hout,
    ⟨rfl, fun names => ?_, fun names hl => (List.mem_filter.1 hl).1⟩, fun names hne => ?_⟩
  · exact hkeep _ (.inl (not_prefix_append hlayout.below hlayout.above names))
  · rw [get?_emptied, if_pos]
    exact ⟨List.prefix_append _ _, fun heq => hne (List.append_right_eq_self.1 heq)⟩

section

variable (hdir : t.get? out = some .directory) (hempty : ∀ names, names ≠ [] → t.get? (out ++ names) = none)
include hdir hempty

omit hlayout in
theorem eq_nil_of_empty {node : FileNode} {names : List String} (hget : t.get? (out ++ names) = some node) :
    names = [] ∧ node = .directory := by
  by_cases hnil : names = []
  · rw [hnil, List.append_nil, hdir, Option.some.injEq] at hget
    exact ⟨hnil, hget.symm⟩
  · rw [hempty names hnil] at hget
    cases hget

omit hlayout in
/-- **An empty output directory is tidy.** -/
theorem tidy_of_empty (ht : t.IsTree) : p.Tidy F out t where
  unlocked := fun names hl => by
    obtain ⟨bytes, hfile⟩ := ht.locked _ hl
    cases (eq_nil_of_empty hdir hempty hfile).2
  files := fun _ _ hget => by cases (eq_nil_of_empty hdir hempty hget).2
  directories := fun _ hget => .inl (eq_nil_of_empty hdir hempty hget).1

end

/-- **A pass over an empty output directory brings it in step.** -/
theorem kept_of_empty (h : p.Convertible F base out w.files) (hempty : ∀ names, names ≠ [] → w.files.get? (out ++ names) = none) :
    ∃ r w', (p.buildAlone true).run.run w = (.ok r, w') ∧ r.failures = [] ∧ p.Kept F base out w'.files ∧
      ∀ names, w'.files.get? (base ++ names) = w.files.get? (base ++ names) :=
  kept_of_buildAlone hlayout h (tidy_of_empty h.outputDir hempty h.isTree) fun _ _ hget => by
    cases (eq_nil_of_empty h.outputDir hempty hget).2

end Project

namespace Watch

open Project

variable {p : Project} {F : List String → Prop} {base out : Location} {w : Workspace}

/-- **The watcher keeps the output in step with the source.**  Start with a pass over an empty output directory and follow an
orderly run of edits: after each one the output directory holds the very files that a pass over the present source writes to
an empty output directory.  The root of the source is absolute, as project settings give it, and no file that is copied is
read-only at any moment (`Convertible`). -/
theorem files_of_orderly (hlayout : p.Layout F base out) (h : p.Convertible F base out w.files)
    (hempty : ∀ names, names ≠ [] → w.files.get? (out ++ names) = none) {edits done : List Edit}
    (hedits : Orderly p F base out edits ((p.buildAlone true).run.run w).2) (hdone : done <+: edits) {f : Workspace}
    (hfresh : p.IsFresh base out (done.foldl (react p) ((p.buildAlone true).run.run w).2).files f.files) :
    ∃ r f', (p.buildAlone true).run.run f = (.ok r, f') ∧ r.failures = [] ∧ ∀ names content,
      (done.foldl (react p) ((p.buildAlone true).run.run w).2).files.get? (out ++ names) = some (.file content) ↔
        f'.files.get? (out ++ names) = some (.file content) := by
  obtain ⟨r₀, w₀, hrun₀, -, hkept₀, -⟩ := kept_of_empty hlayout h hempty
  rw [hrun₀] at hedits hfresh ⊢
  have hkept := kept_of_orderly hlayout hkept₀ hedits hdone
  have hconvertible := hkept.convertible.congr hlayout hfresh.isTree hfresh.source hfresh.output hfresh.outputDir
    hfresh.same
  obtain ⟨r, f', hrun, hfailures, hkept', hsame'⟩ := kept_of_empty hlayout hconvertible hfresh.empty
  refine ⟨r, f', hrun, hfailures, fun names content => ?_⟩
  exact hkept.inSync.file_iff hlayout hkept.convertible hkept'.convertible
    (fun names => by rw [hsame', hfresh.same.get?]) hkept'.inSync

/-! ## A site that is edited -/

/-- A site with a page that links to another, which is not yet there, and a picture. -/
def draftShelf : Workspace where
  files := ⟨[(["site"], .directory), (["site", "index.html"], .file (Text.encode "<a href=blog/a.html>")),
    (["site", "logo.svg"], .file (Text.encode "<svg/>")), (["app"], .directory), (["app", "src"], .directory)], [], []⟩

/-- The files that the site ever has. -/
def draftNames : List (List String) :=
  [["index.html"], ["logo.svg"], ["about.html"], ["blog", "a.html"], ["art", "logo.svg"]]

def draftEdits : List Edit :=
  [.create ["blog", "a.html"] (Text.encode "<p>"), .overwrite ["index.html"] (Text.encode "<b>"),
    .rename ["logo.svg"] ["art", "logo.svg"], .delete ["blog", "a.html"]]

theorem layout_draftNames : shelfProject.Layout (· ∈ draftNames) ["site"] ["app", "src"] where
  typed := rfl
  source := Path.isProper_ofString _
  dest := Path.isProper_ofString _
  below := by decide
  above := by decide
  readable := by decide
  leads := by decide +kernel
  fits := by decide +kernel
  routeLeads := by decide +kernel
  routeFits := by decide +kernel
  apart := by
    have hpairs : ∀ a ∈ draftNames, ∀ b ∈ draftNames, shelfProject.outNames (shelfProject.source.descend a) <+:
        shelfProject.outNames (shelfProject.source.descend b) → a = b := by decide +kernel
    exact fun a b ha hb => hpairs a ha b hb
  routeApart := by decide +kernel

/-- The workspace when all edits are done. -/
def draftNow : Workspace := draftEdits.foldl (react shelfProject) ((shelfProject.buildAlone true).run.run draftShelf).2

theorem orderly_draftEdits : Orderly shelfProject (· ∈ draftNames) ["site"] ["app", "src"] draftEdits
    ((shelfProject.buildAlone true).run.run draftShelf).2 ∧ ¬ ["app", "src"] <+: draftNow.files.current := by
  decide +kernel

theorem files_of_orderly_draftShelf : ∃ r f', (shelfProject.buildAlone true).run.run
      { draftNow with files := emptied ["app", "src"] draftNow.files } = (.ok r, f') ∧ r.failures = [] ∧
    ∀ names content, draftNow.files.get? (["app", "src"] ++ names) = some (.file content) ↔
      f'.files.get? (["app", "src"] ++ names) = some (.file content) := by
  have hconvertible : shelfProject.Convertible (· ∈ draftNames) ["site"] ["app", "src"] draftShelf.files := by decide +kernel
  have hempty : ∀ names, names ≠ [] → draftShelf.files.get? (["app", "src"] ++ names) = none := by
    intro names hne
    simp [draftShelf, get?_of_ne_nil, hne]
  obtain ⟨hedits, hcurrent⟩ := orderly_draftEdits
  have hfiles := fun f => files_of_orderly (f := f) layout_draftNames hconvertible hempty hedits (List.prefix_refl draftEdits)
  obtain ⟨r, w, hrun, -, hkept, -⟩ := kept_of_empty layout_draftNames hconvertible hempty
  unfold draftNow at hcurrent ⊢
  rw [hrun] at hedits hfiles hcurrent ⊢
  have hnow := kept_of_orderly layout_draftNames hkept hedits (List.prefix_refl draftEdits)
  exact hfiles _ (isFresh_emptied layout_draftNames hnow.convertible (by decide) (by decide) hcurrent)

/-- The site of `draftShelf` with a read-only picture. -/
def sealedShelf : Workspace := { draftShelf with files := draftShelf.files.lock ["site", "logo.svg"] }

/-- The site of `sealedShelf` when the watcher starts. -/
def sealedStart : Workspace := ((shelfProject.buildAlone true).run.run sealedShelf).2

/-- A document is created. -/
def sealedEdit : Edit := .create ["about.html"] (Text.encode "<p>")

/-- The workspace when the document is created and its event handled. -/
def sealedNow : Workspace := react shelfProject sealedStart sealedEdit

/-- What a pass over the source makes of an emptied output directory then. -/
def sealedFresh : Except Failure Report × Workspace :=
  (shelfProject.buildAlone true).run.run { sealedNow with files := emptied ["app", "src"] sealedNow.files }

/-- **The output falls out of step with the source**: the copy of a read-only picture is read-only too, so the next pass that copies
it is broken off, and a document that is created gets no route. -/
theorem files_ne_sealed : shelfProject.Layout (· ∈ draftNames) ["site"] ["app", "src"] ∧
    ((shelfProject.buildAlone true).run.run sealedShelf).1.toOption.map Report.failures = some [] ∧
    sealedEdit.Applies ["site"] sealedStart.files ∧ ((sealedEdit.action shelfProject).run.run sealedStart.files).1 = .ok () ∧
    ((shelfProject.buildAlone true).run.run (edited shelfProject sealedStart sealedEdit)).1.toOption.map Report.failures = none ∧
    sealedFresh.1.toOption.map Report.failures = some [] ∧
    sealedNow.files.get? (["app", "src"] ++ shelfProject.routeNames) ≠
      sealedFresh.2.files.get? (["app", "src"] ++ shelfProject.routeNames) :=
  ⟨layout_draftNames, by decide +kernel, by decide +kernel, by decide +kernel, by decide +kernel, by decide +kernel,
    by decide +kernel⟩

end Watch
end ReactSite
