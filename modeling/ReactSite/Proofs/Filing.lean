import ReactSite.Proofs.Growth
/-!
# Filing — what writing and copying a file do

A write that comes out well put the file at the place of its path, in a directory that was there or has been made
(`writeText_eq_ok`), and the path leads to it afterwards (`node?_put`).  A write that fails has made directories at most
(`extends_writeText`).  A copy is a write of the bytes that were read (`copy_eq_ok`).
-/
namespace ReactSite
namespace FileTree

variable {W D : Location → Prop} {t t' : FileTree} {loc : Location} {p : Path} {content : List UInt8}

theorem locate_of_slot (h : t.slot p = .ok loc) (hsome : (t.get? loc).isSome) : t.locate p = .ok loc := by
  by_cases hspecial : p.name = "" ∨ p.name = ".."
  · unfold slot at h
    rwa [if_pos hspecial] at h
  · rw [not_or] at hspecial
    obtain ⟨hfault, hsize, dir, hparent, hdir, rfl⟩ := (slot_eq_ok hspecial.1 hspecial.2).1 h
    have hchild := Path.child_parent (Path.parts_ne_nil_of_name hspecial.1)
    rw [Path.child_eq] at hchild
    have hlocate : t.locate (p.parent.descend [p.name]) = .ok (dir ++ [p.name]) :=
      (locate_descend hparent).2 ⟨by rwa [hchild], (follow_singleton_eq_ok hspecial.2).2 ⟨hdir, hsize, hsome, rfl⟩⟩
    rwa [hchild] at hlocate

theorem Extends.slot (h : Extends W D t t') (hslot : t.slot p = .ok loc) : t'.slot p = .ok loc := h.keepsWays.slot hslot

/-! ## Reading -/

theorem node?_eq_some {node : FileNode} :
    t.node? p = some node ↔ ∃ loc, t.locate p = .ok loc ∧ t.get? loc = some node := by
  unfold node?
  cases t.locate p <;> simp

theorem look_eq_some {node : FileNode} : t.look p = .ok (some node) ↔ t.node? p = some node := by
  unfold look node?
  cases t.locate p with
  | ok loc => simp
  | error fault => cases fault <;> simp

theorem run_read (p : Path) (t : FileTree) : (read p).run.run t = (match t.locate p with
    | .error fault => .error ⟨fault, p.toString⟩
    | .ok loc      => match t.get? loc with
      | some (.file content) => .ok content
      | _                    => .error ⟨.isDirectory, p.toString⟩, t) := by
  unfold read
  rw [run_bind, run_get]
  simp only [run_bind, run_atPath]
  cases t.locate p with
  | error fault => rfl
  | ok loc =>
    simp only [Except.mapError]
    rcases t.get? loc with _ | ⟨content | _⟩ <;> rfl

theorem read_eq_ok : (read p).run.run t = (.ok content, t') ↔ t.node? p = some (.file content) ∧ t' = t := by
  rw [run_read, node?_eq_some]
  cases t.locate p with
  | error fault =>
    constructor
    · intro h
      cases h
    · rintro ⟨⟨loc, hloc, -⟩, -⟩
      cases hloc
  | ok loc =>
    simp only
    constructor
    · intro h
      have hres := congrArg Prod.fst h
      have hstate := congrArg Prod.snd h
      simp only at hres hstate
      split at hres
      · rename_i content' hget
        simp only [Except.ok.injEq] at hres
        exact ⟨⟨loc, rfl, by rw [hget, hres]⟩, hstate.symm⟩
      · cases hres
    · rintro ⟨⟨loc', hloc, hget⟩, rfl⟩
      simp only [Except.ok.injEq] at hloc
      rw [hloc, hget]

/-! ## Writing -/

/-- **A place that can be written to**: no directory, and no file that is read-only. -/
structure IsWritable (t : FileTree) (loc : Location) : Prop where
  notDirectory : t.get? loc ≠ some .directory
  unlocked : loc ∉ t.locked

instance (t : FileTree) (loc : Location) : Decidable (t.IsWritable loc) :=
  decidable_of_iff (t.get? loc ≠ some .directory ∧ loc ∉ t.locked) ⟨fun ⟨h₁, h₂⟩ => ⟨h₁, h₂⟩, fun ⟨h₁, h₂⟩ => ⟨h₁, h₂⟩⟩

theorem run_write (p : Path) (content : List UInt8) (t : FileTree) : (write p content).run.run t = match t.slot p with
    | .error fault => (.error ⟨fault, p.toString⟩, t)
    | .ok loc      =>
      if t.get? loc = some .directory then (.error ⟨.isDirectory, p.toString⟩, t)
      else if loc ∈ t.locked then (.error ⟨.notPermitted, p.toString⟩, t)
      else (.ok (), t.put loc (.file content)) := by
  unfold write
  rw [run_bind, run_get]
  simp only [run_bind, run_atPath]
  cases t.slot p with
  | error fault => rfl
  | ok loc =>
    simp only [Except.mapError]
    split
    · rfl
    · split <;> rfl

/-- **A write** fails and changes nothing, or puts the file at the place of its path. -/
theorem write_cases (p : Path) (content : List UInt8) (t : FileTree) : (∃ e, (write p content).run.run t = (.error e, t)) ∨
    ∃ loc, t.slot p = .ok loc ∧ t.IsWritable loc ∧ (write p content).run.run t = (.ok (), t.put loc (.file content)) := by
  rw [run_write]
  cases t.slot p with
  | error fault => exact .inl ⟨_, rfl⟩
  | ok loc =>
    simp only
    split
    · exact .inl ⟨_, rfl⟩
    · rename_i hdir
      split
      · exact .inl ⟨_, rfl⟩
      · rename_i hlocked
        exact .inr ⟨loc, rfl, ⟨hdir, hlocked⟩, rfl⟩

theorem write_ok (hslot : t.slot p = .ok loc) (hplace : t.IsWritable loc) :
    (write p content).run.run t = (.ok (), t.put loc (.file content)) := by
  rw [run_write, hslot]
  simp only
  rw [if_neg hplace.notDirectory, if_neg hplace.unlocked]

theorem write_eq_ok : (write p content).run.run t = (.ok (), t') ↔
    ∃ loc, t.slot p = .ok loc ∧ t.IsWritable loc ∧ t' = t.put loc (.file content) := by
  constructor
  · intro h
    rcases write_cases p content t with ⟨e, hrun⟩ | ⟨loc, hslot, hplace, hrun⟩
    · rw [hrun] at h
      cases h
    · rw [hrun] at h
      exact ⟨loc, hslot, hplace, (congrArg Prod.snd h).symm⟩
  · rintro ⟨loc, hslot, hplace, rfl⟩
    exact write_ok hslot hplace

theorem run_writeText (p : Path) (content : List UInt8) (t : FileTree) : (writeText p content).run.run t =
    match (makeDirectories p.parent).run.run t with
    | (.ok _, t')    => (write p content).run.run t'
    | (.error e, t') => (.error e, t') := by
  unfold writeText
  rw [run_bind]
  rcases (makeDirectories p.parent).run.run t with ⟨e | u, t'⟩ <;> rfl

/-- A path that names an entry of a directory. -/
structure Path.NamesEntry (p : Path) : Prop where
  proper : p.IsProper
  ne_empty : p.name ≠ ""
  ne_parent : p.name ≠ ".."

theorem namesEntry_descend {names : List String} (hp : p.IsProper) (hne : names ≠ []) (hnames : ∀ s ∈ names, IsPlain s) :
    Path.NamesEntry (p.descend names) := by
  obtain ⟨init, last, hsplit⟩ := List.eq_nil_or_concat names |>.resolve_left hne
  rw [List.concat_eq_append] at hsplit
  have hlast := hnames last (by simp [hsplit])
  refine ⟨isProper_descend hp hnames, ?_, ?_⟩
  · rw [hsplit, Path.name_descend]
    exact hlast.ne_empty
  · rw [hsplit, Path.name_descend]
    exact hlast.ne_parent


theorem extends_write (hp : Path.NamesEntry p) (hW : ∀ loc, t.slot p = .ok loc → W loc) :
    Extends W D t ((write p content).run.run t).2 := by
  rcases write_cases p content t with ⟨e, hrun⟩ | ⟨loc, hslot, hplace, hrun⟩
  · rw [hrun]
    exact .refl W D t
  · rw [hrun]
    exact extends_put_file hp.proper hp.ne_empty hp.ne_parent hslot hplace.notDirectory content (hW loc hslot)

/-- Writing leaves every file as it can be written to. -/
theorem locked_write (p : Path) (content : List UInt8) (t : FileTree) : ((write p content).run.run t).2.locked = t.locked := by
  rcases write_cases p content t with ⟨e, hrun⟩ | ⟨loc, -, -, hrun⟩ <;> rw [hrun]
  exact locked_put

theorem locked_writeText (p : Path) (content : List UInt8) (t : FileTree) :
    ((writeText p content).run.run t).2.locked = t.locked := by
  have hmade := locked_makeDirectories p.parent t
  rw [run_writeText]
  rcases hrun : (makeDirectories p.parent).run.run t with ⟨e | u, t₁⟩ <;> rw [hrun] at hmade
  · exact hmade
  · exact (locked_write p content t₁).trans hmade

/-- **A write that stays inside**: in a tree that has only grown, `D` holds where a directory on the way to the path would
be made, and `W` where the path itself leads. -/
structure Inside (W D : Location → Prop) (t : FileTree) (p : Path) : Prop where
  entry : Path.NamesEntry p
  made : ∀ k t' loc, Extends W D t t' → t'.slot ⟨p.slashes, p.parent.parts.take k⟩ = .ok loc → t'.get? loc = none → D loc
  placed : ∀ t' loc, Extends W D t t' → t'.slot p = .ok loc → W loc

/-- **Writing a text** makes directories above it and writes at its place, at most. -/
theorem extends_writeText (h : Inside W D t p) : Extends W D t ((writeText p content).run.run t).2 := by
  have hmade : Extends W D t ((makeDirectories p.parent).run.run t).2 :=
    extends_makeDirectories (isProper_parent h.entry.proper) h.made
  rw [run_writeText]
  rcases hrun : (makeDirectories p.parent).run.run t with ⟨e | u, t₁⟩
  · rw [hrun] at hmade
    exact hmade
  · rw [hrun] at hmade
    exact hmade.trans (extends_write h.entry fun loc hslot => h.placed t₁ loc hmade hslot)

/-- **A text that could not be written** leaves directories above its place, at most. -/
theorem extends_of_writeText_error {e : FileError} (h : Inside W D t p)
    (hrun : (writeText p content).run.run t = (.error e, t')) : Extends Nowhere D t t' := by
  have hmade : Extends Nowhere D t ((makeDirectories p.parent).run.run t).2 :=
    extends_makeDirectories (isProper_parent h.entry.proper) fun k t' loc ht' =>
      h.made k t' loc (ht'.mono (fun _ => False.elim) fun _ => id)
  rw [run_writeText] at hrun
  rcases hdirs : (makeDirectories p.parent).run.run t with ⟨e' | u, t₁⟩ <;> rw [hdirs] at hrun hmade
  · cases hrun
    exact hmade
  · rcases write_cases p content t₁ with ⟨e', hwrite⟩ | ⟨loc, -, -, hwrite⟩ <;> simp only [hwrite] at hrun <;> cases hrun
    exact hmade

/-- A write below a path stays at the places that its names spell. -/
theorem inside_descend (ht : t.IsTree) {base : Location} (hbase : t.locate p = .ok base) {names : List String}
    (hentry : Path.NamesEntry (p.descend names)) (hnames : ∀ s ∈ names, IsPlain s)
    (hD : ∀ j, 0 < j → j < names.length → D (base ++ names.take j)) (hW : W (base ++ names)) :
    Inside W D t (p.descend names) where
  entry := hentry
  made := by
    intro k t' loc ht' hslot hnone
    have hbase' := ht'.locate hbase
    rcases List.eq_nil_or_concat names with rfl | ⟨init, last, rfl⟩
    · -- above a path that leads somewhere nothing is missing
      rw [Path.descend_nil, Path.parent, List.dropLast_eq_take, List.take_take] at hslot
      obtain ⟨mid, hmid⟩ := locate_take hbase' (min k (p.parts.length - 1))
      rw [slot_of_locate hmid, Except.ok.injEq] at hslot
      have hsome := isSome_of_locate (ht'.isTree ht) hmid
      simp [hslot, hnone] at hsome
    · rw [List.concat_eq_append] at *
      rw [Path.parent_descend] at hslot
      obtain ⟨j, hpos, hle, rfl⟩ := slot_take (ht'.isTree ht) hbase' (fun s hs => hnames s (List.mem_append_left _ hs)) hslot hnone
      have htake : (init ++ [last]).take j = init.take j := List.take_append_of_le_length hle
      rw [← htake]
      refine hD j hpos ?_
      rw [List.length_append, List.length_singleton]
      omega
  placed := by
    intro t' loc ht' hslot
    have hbase' := ht'.locate hbase
    rcases List.eq_nil_or_concat names with rfl | ⟨init, last, rfl⟩
    · rw [Path.descend_nil, slot_of_locate hbase', Except.ok.injEq] at hslot
      simpa [← hslot] using hW
    · rw [List.concat_eq_append] at *
      rw [(slot_descend hbase' hnames hslot).1]
      exact hW

theorem writeText_eq_ok : (writeText p content).run.run t = (.ok (), t') ↔
    ∃ t₁ loc, (makeDirectories p.parent).run.run t = (.ok (), t₁) ∧ t₁.slot p = .ok loc ∧
      t₁.IsWritable loc ∧ t' = t₁.put loc (.file content) := by
  rw [run_writeText]
  rcases (makeDirectories p.parent).run.run t with ⟨e | u, t₁⟩
  · constructor
    · intro h
      cases h
    · rintro ⟨t₁', loc, h, -⟩
      cases h
  · simp only
    rw [write_eq_ok]
    constructor
    · rintro ⟨loc, h⟩
      exact ⟨t₁, loc, rfl, h⟩
    · rintro ⟨t₁', loc, h, h'⟩
      cases h
      exact ⟨loc, h'⟩

/-- **A file that was put at the place of a path is found there.** -/
theorem node?_put (hp : Path.NamesEntry p) (hslot : t.slot p = .ok loc) (hdir : t.get? loc ≠ some .directory) :
    (t.put loc (.file content)).node? p = some (.file content) := by
  have hne := ne_nil_of_not_directory hdir
  have hgrown : Extends (fun _ => True) (fun _ => True) t (t.put loc (.file content)) :=
    extends_put_file hp.proper hp.ne_empty hp.ne_parent hslot hdir content trivial
  rw [node?_eq_some]
  exact ⟨loc, locate_of_slot (hgrown.slot hslot) (by simp [get?_put_self hne]), get?_put_self hne⟩

theorem node?_writeText (hp : Path.NamesEntry p) (h : (writeText p content).run.run t = (.ok (), t')) :
    t'.node? p = some (.file content) := by
  obtain ⟨t₁, loc, -, hslot, hplace, rfl⟩ := writeText_eq_ok.1 h
  exact node?_put hp hslot hplace.notDirectory

/-! ## Permissions -/

/-- **A file that a text was written to is not read-only.** -/
theorem unlocked_of_writeText (hp : Path.NamesEntry p) (h : (writeText p content).run.run t = (.ok (), t'))
    (hloc : t'.locate p = .ok loc) : loc ∉ t'.locked := by
  obtain ⟨t₁, l, -, hslot, hplace, rfl⟩ := writeText_eq_ok.1 h
  have hwritten : Extends Anywhere Anywhere t₁ (t₁.put l (.file content)) :=
    extends_put_file hp.proper hp.ne_empty hp.ne_parent hslot hplace.notDirectory content trivial
  obtain rfl : l = loc := Except.ok.inj ((hwritten.keepsWays.slot hslot).symm.trans (slot_of_locate hloc))
  rw [locked_put]
  exact hplace.unlocked

@[simp] theorem get?_withPermissions {source target : Path} : (t.withPermissions source target).get? loc = t.get? loc := by
  unfold withPermissions
  split
  · split <;> rfl
  · rfl

theorem withPermissions_cases (t : FileTree) (source target : Path) : t.withPermissions source target = t ∨
    ∃ a b, t.locate source = .ok a ∧ t.locate target = .ok b ∧ a ∈ t.locked ∧
      t.withPermissions source target = t.lock b := by
  unfold withPermissions
  cases t.locate source with
  | error fault => exact .inl rfl
  | ok a =>
    cases t.locate target with
    | error fault => exact .inl rfl
    | ok b =>
      simp only
      split
      · rename_i hlocked
        exact .inr ⟨a, b, rfl, rfl, hlocked, rfl⟩
      · exact .inl rfl

@[simp] theorem current_withPermissions {source target : Path} : (t.withPermissions source target).current = t.current := by
  rcases withPermissions_cases t source target with h | ⟨a, b, -, -, -, h⟩ <;> rw [h]
  rfl

theorem extends_lock (hfile : t.get? loc = some (.file content)) (hW : W loc) : Extends W D t (t.lock loc) where
  current := rfl
  isTree := fun ht => ht.lock hfile
  change := fun _ => .inl rfl
  locked := fun _ hl => List.mem_cons_of_mem _ hl
  newly := by
    intro l hl
    rcases List.mem_cons.1 hl with rfl | hl
    · exact .inr hW
    · exact .inl hl

/-! ## Copying -/

/-- Where a copy goes: a directory takes the file under its own name. -/
def copyTarget (t : FileTree) (source target : Path) : Path :=
  if t.isDirectory target then target.child source.name else target

/-- The tree after a copy: the file stands at its place, with the permissions of its source. -/
def copied (t : FileTree) (source target : Path) (loc : Location) (content : List UInt8) : FileTree :=
  (t.put loc (.file content)).withPermissions source target

theorem get?_copied {source target : Path} {l : Location} :
    (t.copied source target loc content).get? l = (t.put loc (.file content)).get? l :=
  get?_withPermissions

theorem transfer_cases (source target : Path) (t : FileTree) : (∃ e, (transfer source target).run.run t = (.error e, t)) ∨
    ∃ content loc, t.node? source = some (.file content) ∧ t.slot target = .ok loc ∧ t.IsWritable loc ∧
      (transfer source target).run.run t = (.ok (), t.copied source target loc content) := by
  unfold transfer
  rw [run_bind]
  rcases hread : (read source).run.run t with ⟨e | content, t'⟩
  · left
    have hstate := congrArg Prod.snd ((run_read source t).symm.trans hread)
    exact ⟨e, by rw [← show t = t' from hstate]⟩
  · obtain ⟨hnode, rfl⟩ := read_eq_ok.1 hread
    simp only [run_bind]
    rcases write_cases target content t' with ⟨e, hrun⟩ | ⟨loc, hslot, hplace, hrun⟩
    · rw [hrun]
      exact .inl ⟨e, rfl⟩
    · rw [hrun]
      exact .inr ⟨content, loc, hnode, hslot, hplace, rfl⟩

theorem transfer_ok {source target : Path} (hnode : t.node? source = some (.file content)) (hslot : t.slot target = .ok loc)
    (hplace : t.IsWritable loc) : (transfer source target).run.run t = (.ok (), t.copied source target loc content) := by
  unfold transfer
  rw [run_bind, read_eq_ok.2 ⟨hnode, rfl⟩]
  simp only [run_bind]
  rw [write_ok hslot hplace]
  rfl

/-- **How a copy runs**: not onto the file itself, else as a write of what is read. -/
theorem run_copy (source target : Path) (t : FileTree) : (copy source target).run.run t =
    match t.locate source, t.locate (copyTarget t source target) with
    | .ok a, .ok b =>
      if a = b then
        (.error ⟨.sameFile (copyTarget t source target).toString (t.isDirectory target), source.toString⟩, t)
      else (transfer source (copyTarget t source target)).run.run t
    | _, _ => (transfer source (copyTarget t source target)).run.run t := by
  unfold copy
  rw [run_bind, run_get]
  simp only
  change _ = (match t.locate source, t.locate (if t.isDirectory target then target.child source.name else target) with
    | .ok a, .ok b => _
    | _, _ => _)
  cases t.locate source with
  | error fault => rfl
  | ok a =>
    cases t.locate (if t.isDirectory target then target.child source.name else target) with
    | error fault => rfl
    | ok b =>
      simp only
      split <;> rfl

/-- **A copy** fails and changes nothing, or puts what its source holds at the place of its target. -/
theorem copy_cases (source target : Path) (t : FileTree) : (∃ e, (copy source target).run.run t = (.error e, t)) ∨
    ∃ content loc, t.node? source = some (.file content) ∧ t.slot (copyTarget t source target) = .ok loc ∧
      t.IsWritable loc ∧
      (copy source target).run.run t = (.ok (), t.copied source (copyTarget t source target) loc content) := by
  rw [run_copy]
  split
  · split
    · exact .inl ⟨_, rfl⟩
    · exact transfer_cases source _ t
  · exact transfer_cases source _ t

theorem copy_eq_ok {source target : Path} (h : (copy source target).run.run t = (.ok (), t')) :
    ∃ content loc, t.node? source = some (.file content) ∧ t.slot (copyTarget t source target) = .ok loc ∧
      t.IsWritable loc ∧ t' = t.copied source (copyTarget t source target) loc content := by
  rcases copy_cases source target t with ⟨e, he⟩ | ⟨content, loc, hnode, hslot, hplace, hrun⟩
  · rw [he] at h
    cases h
  · rw [hrun] at h
    exact ⟨content, loc, hnode, hslot, hplace, (congrArg Prod.snd h).symm⟩

section

variable {source target : Path} (hp : Path.NamesEntry target) (hslot : t.slot target = .ok loc) (hplace : t.IsWritable loc)
include hp hslot hplace

theorem extends_put_writable (hW : W loc) : Extends W D t (t.put loc (.file content)) :=
  extends_put_file hp.proper hp.ne_empty hp.ne_parent hslot hplace.notDirectory content hW

theorem extends_copied (hW : W loc) : Extends W D t (t.copied source target loc content) := by
  have hput : Extends W D t (t.put loc (.file content)) := extends_put_writable hp hslot hplace hW
  have hnew : (t.put loc (.file content)).get? loc = some (.file content) :=
    get?_put_self (ne_nil_of_not_directory hplace.notDirectory)
  refine hput.trans ?_
  unfold copied
  rcases withPermissions_cases (t.put loc (.file content)) source target with h | ⟨a, b, -, hb, -, h⟩
  · rw [h]
    exact .refl W D _
  · -- the file that takes over the permissions is the one that was put
    have hloc := slot_of_locate hb
    rw [hput.slot hslot, Except.ok.injEq] at hloc
    rw [h, ← hloc]
    exact extends_lock hnew hW

/-- **What a copy leaves**: what a write leaves, read-only if its source is. -/
theorem copied_eq {a : Location} (hloc : t.locate source = .ok a) : t.copied source target loc content =
    if a ∈ t.locked then (t.put loc (.file content)).lock loc else t.put loc (.file content) := by
  have hput : Extends (fun _ => True) (fun _ => True) t (t.put loc (.file content)) :=
    extends_put_writable hp hslot hplace trivial
  have hplaced : (t.put loc (.file content)).locate target = .ok loc :=
    locate_of_slot (hput.slot hslot) (by simp [get?_put_self (ne_nil_of_not_directory hplace.notDirectory)])
  unfold copied withPermissions
  rw [hput.locate hloc, hplaced]
  simp only [locked_put]

end

theorem extends_copy {source target : Path} (hp : Path.NamesEntry (copyTarget t source target))
    (hW : ∀ loc, t.slot (copyTarget t source target) = .ok loc → W loc) :
    Extends W D t ((copy source target).run.run t).2 := by
  rcases copy_cases source target t with ⟨e, he⟩ | ⟨content, loc, -, hslot, hplace, hrun⟩
  · rw [he]
    exact .refl W D t
  · rw [hrun]
    exact extends_copied hp hslot hplace (hW loc hslot)

/-- A copy of a file that is not read-only leaves every file as it can be written to. -/
theorem locked_copy {source target : Path} (hp : Path.NamesEntry (copyTarget t source target))
    (hfree : ∀ a, t.locate source = .ok a → a ∉ t.locked) : ((copy source target).run.run t).2.locked = t.locked := by
  rcases copy_cases source target t with ⟨e, hrun⟩ | ⟨content, loc, hnode, hslot, hplace, hrun⟩
  · rw [hrun]
  · obtain ⟨a, ha, -⟩ := node?_eq_some.1 hnode
    rw [hrun, copied_eq hp hslot hplace ha, if_neg (hfree a ha), locked_put]

theorem copyTarget_of_slot {source target : Path} (hslot : t.slot target = .ok loc) (hdir : t.get? loc ≠ some .directory) :
    copyTarget t source target = target := by
  unfold copyTarget isDirectory node?
  cases hlocate : t.locate target with
  | error fault => simp
  | ok loc' =>
    rw [slot_of_locate hlocate, Except.ok.injEq] at hslot
    simp [hslot, hdir]

theorem copy_ok {source target : Path} {a : Location} (hloc : t.locate source = .ok a)
    (ha : t.get? a = some (.file content)) (hslot : t.slot target = .ok loc) (hne : loc ≠ a) (hplace : t.IsWritable loc) :
    (copy source target).run.run t = (.ok (), t.copied source target loc content) := by
  have hrun := transfer_ok (node?_eq_some.2 ⟨a, hloc, ha⟩) hslot hplace
  rw [run_copy, copyTarget_of_slot hslot hplace.notDirectory, hloc]
  cases hlocate : t.locate target with
  | error fault => exact hrun
  | ok loc' =>
    rw [slot_of_locate hlocate, Except.ok.injEq] at hslot
    simp only
    rw [if_neg (fun h => hne (by rw [← hslot, h])), hrun]

/-! ## Removing -/

theorem run_remove (p : Path) (t : FileTree) : (remove p).run.run t = match t.locate p with
    | .error fault => (.error ⟨fault, p.toString⟩, t)
    | .ok loc      => (.ok (), t.erase loc) := by
  unfold remove
  rw [run_bind, run_get]
  simp only [run_bind, run_atPath]
  cases t.locate p <;> rfl

end FileTree
end ReactSite
