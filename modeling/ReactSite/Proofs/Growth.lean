import ReactSite.Files.Action
import ReactSite.Proofs.Running
import ReactSite.Proofs.Ways
/-!
# Growth — what making directories and writing files leaves as it was

A step that lays out files never takes anything away: it makes directories where nothing stood and writes files where no
directory stood (`Extends`).  Each operation is run once here (`run_makeDirectories`, `run_write`, `run_copy`); what it
does to the tree, come out well or not, is one lemma for each, and so is when it comes out well.
-/
namespace ReactSite
namespace FileTree

/-! ## Ways -/

/-- **A tree in which every way goes on as it went**: directories stay directories, and what is there stays. -/
structure KeepsWays (t t' : FileTree) : Prop where
  current : t'.current = t.current
  directory : ∀ l, t.get? l = some .directory → t'.get? l = some .directory
  isSome : ∀ l, (t.get? l).isSome → (t'.get? l).isSome

namespace KeepsWays

variable {t t' : FileTree} {loc : Location} {p : Path}

theorem follow (h : KeepsWays t t') : ∀ {parts : List String} {start : Location},
    t.follow start parts = .ok loc → t'.follow start parts = .ok loc
  | [], _, hf => hf
  | part :: parts, start, hf => by
    rw [follow_cons] at hf ⊢
    split at hf
    · cases hf
    · rename_i hdir
      rw [if_neg (by simpa using h.directory _ (by simpa using hdir))]
      split at hf
      · rename_i hup
        rw [if_pos hup]
        exact h.follow hf
      · rename_i hup
        rw [if_neg hup]
        split at hf
        · cases hf
        · rename_i hsize
          rw [if_neg hsize]
          split at hf
          · cases hf
          · rename_i hsome
            have hsome' : (t'.get? (start ++ [part])).isSome := by
              apply h.isSome
              cases hget : t.get? (start ++ [part]) <;> simp_all
            rw [if_neg (by cases hget : t'.get? (start ++ [part]) <;> simp_all)]
            exact h.follow hf

theorem locate (h : KeepsWays t t') (hl : t.locate p = .ok loc) : t'.locate p = .ok loc := by
  rw [locate_eq_ok] at hl ⊢
  have horigin : t'.origin p = t.origin p := by
    unfold origin
    rw [h.current]
  rw [horigin]
  exact ⟨hl.1, h.follow hl.2⟩

theorem slot (h : KeepsWays t t') (hslot : t.slot p = .ok loc) : t'.slot p = .ok loc := by
  by_cases hspecial : p.name = "" ∨ p.name = ".."
  · unfold FileTree.slot at hslot ⊢
    rw [if_pos hspecial] at hslot ⊢
    exact h.locate hslot
  · rw [not_or] at hspecial
    obtain ⟨hfault, hsize, dir, hparent, hdir, rfl⟩ := (slot_eq_ok hspecial.1 hspecial.2).1 hslot
    exact (slot_eq_ok hspecial.1 hspecial.2).2 ⟨hfault, hsize, dir, h.locate hparent, h.directory dir hdir, rfl⟩

end KeepsWays

/-! ## Growing -/

/-- **A tree that grew**: files were written at places that `W` holds of, directories made at places that `D` holds of. -/
structure Extends (W D : Location → Prop) (t t' : FileTree) : Prop where
  current : t'.current = t.current
  isTree : t.IsTree → t'.IsTree
  change : ∀ l, t'.get? l = t.get? l ∨ (t.get? l = none ∧ t'.get? l = some .directory ∧ D l) ∨
    (t.get? l ≠ some .directory ∧ (∃ content, t'.get? l = some (.file content)) ∧ W l)
  /-- What is read-only stays so, and only what was written has become so. -/
  locked : ∀ l ∈ t.locked, l ∈ t'.locked
  newly : ∀ l ∈ t'.locked, l ∈ t.locked ∨ W l

/-- **The same entries below a place**, none of which has become read-only; relative paths start where they did. -/
structure SameBelow (top : Location) (t t' : FileTree) : Prop where
  current : t'.current = t.current
  get? : ∀ names, t'.get? (top ++ names) = t.get? (top ++ names)
  locked : ∀ names, top ++ names ∈ t'.locked → top ++ names ∈ t.locked

theorem SameBelow.trans {top : Location} {t t' t'' : FileTree} (h : SameBelow top t t') (h' : SameBelow top t' t'') :
    SameBelow top t t'' :=
  ⟨h'.current.trans h.current, fun names => (h'.get? names).trans (h.get? names),
    fun names hl => h.locked names (h'.locked names hl)⟩

/-- No place at all. -/
abbrev Nowhere : Location → Prop := fun _ => False

/-- Every place. -/
abbrev Anywhere : Location → Prop := fun _ => True

namespace Extends

variable {W D : Location → Prop} {t t' t'' : FileTree} {l loc : Location} {p : Path}

theorem refl (W D : Location → Prop) (t : FileTree) : Extends W D t t :=
  ⟨rfl, id, fun _ => .inl rfl, fun _ => id, fun _ => .inl⟩

theorem mono {W' D' : Location → Prop} (h : Extends W D t t') (hW : ∀ l, W l → W' l) (hD : ∀ l, D l → D' l) :
    Extends W' D' t t' where
  current := h.current
  isTree := h.isTree
  change := by
    intro l
    rcases h.change l with h | ⟨h₁, h₂, h₃⟩ | ⟨h₁, h₂, h₃⟩
    · exact .inl h
    · exact .inr (.inl ⟨h₁, h₂, hD l h₃⟩)
    · exact .inr (.inr ⟨h₁, h₂, hW l h₃⟩)
  locked := h.locked
  newly := fun l hl => (h.newly l hl).imp_right (hW l)

theorem anywhere (h : Extends W D t t') : Extends Anywhere Anywhere t t' :=
  h.mono (fun _ _ => trivial) fun _ _ => trivial

theorem directory (h : Extends W D t t') (hl : t.get? l = some .directory) : t'.get? l = some .directory := by
  rcases h.change l with h | ⟨hnone, -, -⟩ | ⟨hne, -, -⟩
  · rw [h, hl]
  · simp [hl] at hnone
  · exact absurd hl hne

theorem isSome (h : Extends W D t t') (hl : (t.get? l).isSome) : (t'.get? l).isSome := by
  rcases h.change l with h | ⟨-, hdir, -⟩ | ⟨-, ⟨content, hfile⟩, -⟩
  · rwa [h]
  · simp [hdir]
  · simp [hfile]

theorem get?_eq (h : Extends W D t t') (hW : ¬ W l) (hD : ¬ D l) : t'.get? l = t.get? l := by
  rcases h.change l with h | ⟨-, -, h⟩ | ⟨-, -, h⟩
  · exact h
  · exact absurd h hD
  · exact absurd h hW

theorem file_iff (h : Extends W D t t') (hW : ¬ W l) (content : List UInt8) :
    t'.get? l = some (.file content) ↔ t.get? l = some (.file content) := by
  rcases h.change l with h | ⟨hnone, hdir, -⟩ | ⟨-, -, h⟩
  · rw [h]
  · simp [hnone, hdir]
  · exact absurd h hW

theorem exists_file (h : Extends W D t t') {content : List UInt8} (hfile : t.get? l = some (.file content)) :
    ∃ content', t'.get? l = some (.file content') := by
  rcases h.change l with heq | ⟨hnone, -, -⟩ | ⟨-, hnew, -⟩
  · exact ⟨content, by rw [heq, hfile]⟩
  · rw [hfile] at hnone
    cases hnone
  · exact hnew

theorem trans (h : Extends W D t t') (h' : Extends W D t' t'') : Extends W D t t'' where
  current := h'.current.trans h.current
  isTree := fun ht => h'.isTree (h.isTree ht)
  change := by
    intro l
    rcases h'.change l with h₂ | ⟨h₂, hdir, hD⟩ | ⟨h₂, hfile, hW⟩
    · rw [h₂]
      exact h.change l
    · refine .inr (.inl ⟨?_, hdir, hD⟩)
      rcases h.change l with h₁ | ⟨h₁, -, -⟩ | ⟨-, ⟨content, h₁⟩, -⟩
      · rw [← h₁, h₂]
      · exact h₁
      · simp [h₁] at h₂
    · exact .inr (.inr ⟨fun hl => h₂ (h.directory hl), hfile, hW⟩)
  locked := fun l hl => h'.locked l (h.locked l hl)
  newly := fun l hl => (h'.newly l hl).elim (h.newly l) .inr

theorem locked_iff (h : Extends W D t t') (hW : ¬ W l) : l ∈ t'.locked ↔ l ∈ t.locked :=
  ⟨fun hl => (h.newly l hl).resolve_right hW, h.locked l⟩

theorem sameBelow {top : Location} (h : Extends W D t t') (hW : ∀ names, ¬ W (top ++ names)) (hD : ∀ names, ¬ D (top ++ names)) :
    SameBelow top t t' :=
  ⟨h.current, fun names => h.get?_eq (hW names) (hD names), fun names => (h.locked_iff (hW names)).1⟩

theorem keepsWays (h : Extends W D t t') : KeepsWays t t' := ⟨h.current, fun _ => h.directory, fun _ => h.isSome⟩

/-- **A path leads where it led.** -/
theorem locate (h : Extends W D t t') (hl : t.locate p = .ok loc) : t'.locate p = .ok loc := h.keepsWays.locate hl

theorem isDirectory (h : Extends W D t t') (hl : t.isDirectory p = true) : t'.isDirectory p = true := by
  unfold FileTree.isDirectory node? at hl ⊢
  cases hloc : t.locate p with
  | error fault => simp [hloc] at hl
  | ok loc =>
    rw [hloc] at hl
    rw [h.locate hloc]
    simpa using h.directory (by simpa using hl)

end Extends

variable {W D : Location → Prop} {t t' : FileTree} {loc : Location} {p : Path}

theorem extends_put_directory (hp : p.IsProper) (hslot : t.slot p = .ok loc) (hnone : t.get? loc = none) (hD : D loc) :
    Extends W D t (t.put loc .directory) where
  current := current_put
  isTree := by
    intro ht
    obtain ⟨dir, name, rfl, hdir, hname⟩ := slot_fresh ht hp hslot hnone
    exact ht.put hdir hname (by simp [hnone]) (.inr hnone)
  change := by
    intro l
    by_cases hl : l = loc
    · by_cases hnil : loc = []
      · simp [hnil] at hnone
      · subst hl
        exact .inr (.inl ⟨hnone, get?_put_self hnil, hD⟩)
    · exact .inl (get?_put_of_ne hl)
  locked := fun l hl => by rwa [locked_put]
  newly := fun l hl => by rw [locked_put] at hl; exact .inl hl

theorem extends_put_file (hp : p.IsProper) (hne : p.name ≠ "") (hup : p.name ≠ "..") (hslot : t.slot p = .ok loc)
    (hfile : t.get? loc ≠ some .directory) (content : List UInt8) (hW : W loc) :
    Extends W D t (t.put loc (.file content)) where
  current := current_put
  isTree := by
    intro ht
    obtain ⟨hfault, hsize, dir, -, hdir, rfl⟩ := (slot_eq_ok hne hup).1 hslot
    exact ht.put hdir (isName_of_proper hp (Path.parts_ne_nil_of_name hne) hup hsize hfault) hfile (.inl ⟨content, rfl⟩)
  change := by
    intro l
    by_cases hl : l = loc
    · by_cases hnil : loc = []
      · simp [hnil] at hfile
      · subst hl
        exact .inr (.inr ⟨hfile, ⟨content, get?_put_self hnil⟩, hW⟩)
    · exact .inl (get?_put_of_ne hl)
  locked := fun l hl => by rwa [locked_put]
  newly := fun l hl => by rw [locked_put] at hl; exact .inl hl

/-! ## Making directories -/

theorem run_atPath {α : Type} (p : Path) (r : Except FileFault α) (t : FileTree) :
    (atPath p r).run.run t = (r.mapError (⟨·, p.toString⟩), t) := by
  cases r <;> rfl

theorem run_makeDirectory (p : Path) (t : FileTree) : (makeDirectory p).run.run t = match t.slot p with
    | .error fault => (.error ⟨fault, p.toString⟩, t)
    | .ok loc      =>
      if (t.get? loc).isSome then (.error ⟨.alreadyExists, p.toString⟩, t) else (.ok (), t.put loc .directory) := by
  unfold makeDirectory
  rw [run_bind, run_get]
  simp only [run_bind, run_atPath]
  cases t.slot p with
  | error fault => rfl
  | ok loc =>
    simp only [Except.mapError]
    split <;> rfl

theorem run_makeDirectories (p : Path) (t : FileTree) : (makeDirectories p).run.run t =
    match (makeDirectory p).run.run t with
    | (.ok u, t')    => (.ok u, t')
    | (.error e, t') =>
      if e.fault = .noEntry ∧ p.parts ≠ [] then
        match (makeDirectories p.parent).run.run t' with
        | (.error e', t'') => (.error e', t'')
        | (.ok _, t'')     => match (makeDirectory p).run.run t'' with
          | (.ok u, t₃)     => (.ok u, t₃)
          | (.error e', t₃) => if e'.fault = .noEntry ∨ !t₃.isDirectory p then (.error e', t₃) else (.ok (), t₃)
      else if !t'.isDirectory p then (.error e, t') else (.ok (), t') := by
  rw [makeDirectories, run_tryCatch]
  rcases (makeDirectory p).run.run t with ⟨e | u, t'⟩
  · simp only
    split
    · rw [run_bind]
      rcases (makeDirectories p.parent).run.run t' with ⟨e' | u, t''⟩
      · rfl
      · simp only [run_tryCatch]
        rcases (makeDirectory p).run.run t'' with ⟨e' | u, t₃⟩
        · simp only [run_bind, run_get]
          split <;> rfl
        · rfl
    · simp only [run_bind, run_get]
      split <;> rfl
  · rfl

/-- **Making directories** is making some of those on the way to the path, one after the other, where nothing stood. -/
theorem makeDirectories_induction {P : FileTree → Prop} {t : FileTree} {p : Path} (ht : P t)
    (hput : ∀ k t' loc, P t' → t'.slot ⟨p.slashes, p.parts.take k⟩ = .ok loc → t'.get? loc = none →
      P (t'.put loc .directory)) : P ((makeDirectories p).run.run t).2 := by
  have hmake : ∀ t', P t' → P ((makeDirectory p).run.run t').2 := by
    intro t' ht'
    rw [run_makeDirectory]
    cases hslot : t'.slot p with
    | error fault => exact ht'
    | ok loc =>
      simp only
      split
      · exact ht'
      · rename_i hnone
        exact hput p.parts.length t' loc ht' (by simpa using hslot) (by simpa using hnone)
  rw [run_makeDirectories]
  have hfirst := hmake t ht
  rcases hrun : (makeDirectory p).run.run t with ⟨e | u, t₁⟩
  · rw [hrun] at hfirst
    simp only
    split
    · rename_i hmissing
      have hlen : p.parent.parts.length < p.parts.length := by
        have := List.length_pos_iff.2 hmissing.2
        simp only [Path.parent, List.length_dropLast]
        omega
      have habove : P ((makeDirectories p.parent).run.run t₁).2 := by
        refine makeDirectories_induction hfirst fun k t' loc ht' hslot hnone => ?_
        refine hput (min k (p.parts.length - 1)) t' loc ht' ?_ hnone
        rwa [← List.take_take, ← List.dropLast_eq_take]
      rcases hrun' : (makeDirectories p.parent).run.run t₁ with ⟨e' | u', t₂⟩
      · rw [hrun'] at habove
        exact habove
      · rw [hrun'] at habove
        have hlast := hmake t₂ habove
        simp only
        rcases hrun'' : (makeDirectory p).run.run t₂ with ⟨e' | u', t₃⟩
        · rw [hrun''] at hlast
          simp only
          split <;> exact hlast
        · rw [hrun''] at hlast
          exact hlast
    · split <;> exact hfirst
  · rw [hrun] at hfirst
    exact hfirst
termination_by p.parts.length

/-- Making directories leaves every file as it can be written to. -/
theorem locked_makeDirectories (p : Path) (t : FileTree) : ((makeDirectories p).run.run t).2.locked = t.locked :=
  makeDirectories_induction (P := fun t' => t'.locked = t.locked) rfl fun _ _ _ h _ _ => by rw [locked_put, h]

theorem isProper_take (hp : p.IsProper) (k : Nat) : (⟨p.slashes, p.parts.take k⟩ : Path).IsProper where
  slashes_le := hp.slashes_le
  kept := fun s hs => hp.kept s (List.mem_of_mem_take hs)
  slash_notMem := fun s hs => hp.slash_notMem s (List.mem_of_mem_take hs)

theorem isProper_parent (hp : p.IsProper) : p.parent.IsProper := by
  unfold Path.parent
  rw [List.dropLast_eq_take]
  exact isProper_take hp _

theorem extends_makeDirectories (hp : p.IsProper)
    (hD : ∀ k t' loc, Extends W D t t' → t'.slot ⟨p.slashes, p.parts.take k⟩ = .ok loc → t'.get? loc = none → D loc) :
    Extends W D t ((makeDirectories p).run.run t).2 :=
  makeDirectories_induction (.refl W D t) fun k t' loc ht' hslot hnone =>
    ht'.trans (extends_put_directory (isProper_take hp k) hslot hnone (hD k t' loc ht' hslot hnone))

theorem run_makeDirectories_of_isDirectory (h : t.isDirectory p = true) : (makeDirectories p).run.run t = (.ok (), t) := by
  have hloc : ∃ loc, t.locate p = .ok loc ∧ t.get? loc = some .directory := by
    unfold isDirectory node? at h
    cases hloc : t.locate p with
    | error fault => simp [hloc] at h
    | ok loc => exact ⟨loc, rfl, by simpa [hloc] using h⟩
  obtain ⟨loc, hloc, hdir⟩ := hloc
  rw [run_makeDirectories, run_makeDirectory, slot_of_locate hloc]
  simp [hdir, h]

/-! ## Below a directory -/

section

variable {base : Location} {names : List String}

theorem locate_take (h : t.locate p = .ok loc) (k : Nat) : ∃ mid, t.locate ⟨p.slashes, p.parts.take k⟩ = .ok mid := by
  obtain ⟨hfault, hfollow⟩ := locate_eq_ok.1 h
  have hsplit : p = (⟨p.slashes, p.parts.take k⟩ : Path).descend (p.parts.drop k) := by
    simp [Path.descend]
  rw [hsplit] at hfault hfollow
  rw [Path.parts_descend, origin_descend, follow_append_eq_ok] at hfollow
  obtain ⟨mid, hmid, -⟩ := hfollow
  exact ⟨mid, locate_eq_ok.2 ⟨pathFault?_of_descend hfault, hmid⟩⟩

/-- What is missing on the way to names below a path is missing at the places these names spell. -/
theorem slot_take (ht : t.IsTree) (hbase : t.locate p = .ok base) (hnames : ∀ s ∈ names, IsPlain s) {k : Nat}
    (h : t.slot ⟨p.slashes, (p.descend names).parts.take k⟩ = .ok loc) (hnone : t.get? loc = none) :
    ∃ j, 0 < j ∧ j ≤ names.length ∧ loc = base ++ names.take j := by
  by_cases hk : k ≤ p.parts.length
  · -- `p` exists, and so does everything above it
    rw [Path.parts_descend, List.take_append_of_le_length hk] at h
    obtain ⟨mid, hmid⟩ := locate_take hbase k
    rw [slot_of_locate hmid, Except.ok.injEq] at h
    have := isSome_of_locate ht hmid
    simp [h, hnone] at this
  · by_cases hnil : names.take (k - p.parts.length) = []
    · rw [Path.parts_descend, List.take_append, hnil, List.append_nil, List.take_of_length_le (by omega)] at h
      rw [slot_of_locate hbase, Except.ok.injEq] at h
      have := isSome_of_locate ht hbase
      simp [h, hnone] at this
    · obtain ⟨init, last, hsplit⟩ := List.eq_nil_or_concat _ |>.resolve_left hnil
      rw [List.concat_eq_append] at hsplit
      have hpath : (⟨p.slashes, (p.descend names).parts.take k⟩ : Path) = p.descend (init ++ [last]) := by
        rw [Path.parts_descend, List.take_append, List.take_of_length_le (by omega), hsplit]
        rfl
      rw [hpath] at h
      have hmem : ∀ s ∈ init ++ [last], IsPlain s := fun s hs => hnames s (List.mem_of_mem_take (hsplit ▸ hs))
      obtain ⟨rfl, -⟩ := slot_descend hbase hmem h
      refine ⟨min (k - p.parts.length) names.length, ?_, by omega, ?_⟩
      · have := List.length_pos_iff.2 hnil
        simp only [List.length_take] at this
        omega
      · rw [← hsplit]
        congr 1
        by_cases hle : k - p.parts.length ≤ names.length
        · rw [Nat.min_eq_left hle]
        · rw [Nat.min_eq_right (by omega), List.take_of_length_le (by omega), List.take_length]

theorem isProper_descend (hp : p.IsProper) (hnames : ∀ s ∈ names, IsPlain s) : (p.descend names).IsProper where
  slashes_le := hp.slashes_le
  kept := by
    intro s hs
    rcases List.mem_append.1 hs with hs | hs
    · exact hp.kept s hs
    · exact (hnames s hs).kept
  slash_notMem := by
    intro s hs
    rcases List.mem_append.1 hs with hs | hs
    · exact hp.slash_notMem s hs
    · exact (hnames s hs).slash_notMem

theorem isProper_of_descend (h : (p.descend names).IsProper) : p.IsProper where
  slashes_le := h.slashes_le
  kept := fun s hs => h.kept s (List.mem_append_left _ hs)
  slash_notMem := fun s hs => h.slash_notMem s (List.mem_append_left _ hs)

/-- **Making directories below a path** touches nothing but the places on the way. -/
theorem extends_makeDirectories_descend (ht : t.IsTree) (hp : p.IsProper) (hbase : t.locate p = .ok base)
    (hnames : ∀ s ∈ names, IsPlain s) :
    Extends W (fun l => ∃ j, 0 < j ∧ j ≤ names.length ∧ l = base ++ names.take j) t
      ((makeDirectories (p.descend names)).run.run t).2 :=
  extends_makeDirectories (isProper_descend hp hnames) fun _ _ _ ht' hslot hnone =>
    slot_take (ht'.isTree ht) (ht'.locate hbase) hnames hslot hnone

theorem isDirectory_of_get? (hloc : t.locate p = .ok loc) (h : t.get? loc = some .directory) : t.isDirectory p = true := by
  simp [isDirectory, node?, hloc, h]

theorem slot_child {name : String} (hname : IsName name) (hfault : pathFault? (p.descend [name]) = none)
    (hloc : t.locate p = .ok loc) (hdir : t.get? loc = some .directory) :
    t.slot (p.descend [name]) = .ok (loc ++ [name]) := by
  have hne : (p.descend ([] ++ [name])).name = name := Path.name_descend p [] name
  have hparent : (p.descend ([] ++ [name])).parent = p := by
    rw [Path.parent_descend, Path.descend_nil]
  rw [List.nil_append] at hne hparent
  rw [slot_eq_ok (by rw [hne]; exact hname.ne_empty) (by rw [hne]; exact hname.ne_parent), hne, hparent]
  exact ⟨hfault, hname.size_le, loc, hloc, hdir, rfl⟩

theorem slot_missing {init : List String} {last : String} (hlast : IsName last)
    (hfault : pathFault? (p.descend (init ++ [last])) = none) (h : t.locate (p.descend init) = .error .noEntry) :
    t.slot (p.descend (init ++ [last])) = .error .noEntry := by
  unfold slot
  rw [Path.name_descend, if_neg (by simp [hlast.ne_empty, hlast.ne_parent]), hfault, Path.parent_descend, h]
  rfl

/-- Where the directory above is and nothing stands, a directory can be made. -/
theorem makeDirectory_last {init : List String} {last : String} (hlast : IsName last)
    (hfault : pathFault? (p.descend (init ++ [last])) = none) (hloc : t.locate (p.descend init) = .ok (base ++ init))
    (habove : t.get? (base ++ init) = some .directory) (hnone : t.get? (base ++ (init ++ [last])) = none) :
    (makeDirectory (p.descend (init ++ [last]))).run.run t = (.ok (), t.put (base ++ (init ++ [last])) .directory) := by
  have hslot := slot_child hlast (by rwa [Path.descend_descend]) hloc habove
  rw [Path.descend_descend, List.append_assoc] at hslot
  rw [run_makeDirectory, hslot]
  simp [hnone]

theorem directory_of_free {node : FileNode} (hfree : ∀ k content, t.get? (base ++ names.take k) ≠ some (.file content))
    (h : t.get? (base ++ names) = some node) : t.get? (base ++ names) = some .directory := by
  cases node with
  | directory => exact h
  | file content => exact absurd h (by simpa using hfree names.length content)

/-- **Directories can be made** where no file is in the way and the path is not too long. -/
theorem makeDirectories_descend (ht : t.IsTree) (hp : p.IsProper) (hbase : t.locate p = .ok base)
    (hdir : t.get? base = some .directory) (hnames : ∀ s ∈ names, IsName s) (hfault : pathFault? (p.descend names) = none)
    (hfree : ∀ k content, t.get? (base ++ names.take k) ≠ some (.file content)) :
    ∃ t', (makeDirectories (p.descend names)).run.run t = (.ok (), t') ∧ t'.get? (base ++ names) = some .directory := by
  induction names using List.reverseRecOn with
  | nil =>
    rw [Path.descend_nil, List.append_nil]
    exact ⟨t, run_makeDirectories_of_isDirectory (isDirectory_of_get? hbase hdir), hdir⟩
  | append_singleton init last ih =>
    have hlast : IsName last := hnames last (by simp)
    have hinit : ∀ s ∈ init, IsName s := fun s hs => hnames s (List.mem_append_left _ hs)
    have hfault' : pathFault? (p.descend init) = none := by
      rw [← Path.descend_descend] at hfault
      exact pathFault?_of_descend hfault
    have hfree' : ∀ k content, t.get? (base ++ init.take k) ≠ some (.file content) := by
      intro k content
      have := hfree (min k init.length) content
      rwa [List.take_append_of_le_length (Nat.min_le_right _ _), ← List.take_take, List.take_length] at this
    cases hget : t.get? (base ++ (init ++ [last])) with
    | some node =>
      have hthere := directory_of_free hfree hget
      exact ⟨t, run_makeDirectories_of_isDirectory (isDirectory_of_get? (locate_of_get? ht hbase hfault hget) hthere), hthere⟩
    | none =>
      cases habove : t.get? (base ++ init) with
      | some node =>
        -- the directory above is there, so the last one is made at once
        rw [run_makeDirectories, makeDirectory_last hlast hfault (locate_of_get? ht hbase hfault' habove)
          (directory_of_free hfree' habove) hget]
        exact ⟨_, rfl, get?_put_self (by simp)⟩
      | none =>
        have hmissing : t.locate (p.descend init) = .error .noEntry := by
          have hfollow := (locate_eq_ok.1 hbase).2
          have hend := follow_missing hdir hinit hfree' habove
          unfold locate
          rw [hfault']
          simp only [origin_descend, Path.parts_descend, follow_append, hfollow, Except.bind, hend]
        obtain ⟨t₁, hrun, hmade⟩ := ih hinit hfault' hfree'
        have hgrown := extends_makeDirectories_descend (W := Nowhere) ht hp hbase fun s hs => (hinit s hs).toIsPlain
        rw [hrun] at hgrown
        have hstill : t₁.get? (base ++ (init ++ [last])) = none := by
          rw [hgrown.get?_eq id, hget]
          rintro ⟨j, -, hj, heq⟩
          have := congrArg List.length heq
          simp at this
          omega
        have hloc := locate_of_get? (hgrown.isTree ht) (hgrown.locate hbase) hfault' hmade
        rw [run_makeDirectories, run_makeDirectory, slot_missing hlast hfault hmissing]
        simp only
        rw [if_pos (by simp), Path.parent_descend, hrun]
        simp only
        rw [makeDirectory_last hlast hfault hloc hmade hstill]
        exact ⟨_, rfl, get?_put_self (by simp)⟩

end

end FileTree
end ReactSite
