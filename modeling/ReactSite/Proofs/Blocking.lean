import ReactSite.Proofs.Filing
/-!
# Blocking — what keeps directories from being made

Directories below a directory that is there can be made unless the path has a fault of its own
(`run_makeDirectories_fault`) or a file stands on the way or at its end (`run_makeDirectories_blocked`).  Either way
nothing is made, and the error tells no more than where that file stands; so making the same directories once more, in a
tree that has only grown, ends the same way (`makeDirectories_again`).
-/
namespace ReactSite
namespace FileTree

variable {t t' u : FileTree} {p : Path} {base : Location} {names : List String} {fault : FileFault}
  {content : List UInt8}

theorem isDirectory_of_makeDirectory (hp : p.IsProper) (h : (makeDirectory p).run.run t = (.ok (), t')) :
    t'.isDirectory p = true := by
  rw [run_makeDirectory] at h
  cases hslot : t.slot p with
  | error fault =>
    rw [hslot] at h
    cases h
  | ok loc =>
    simp only [hslot] at h
    split at h
    · cases h
    · rename_i hnone
      cases h
      have hnone : t.get? loc = none := by simpa using hnone
      have hne : loc ≠ [] := by
        rintro rfl
        simp at hnone
      have hput : (t.put loc .directory).get? loc = some .directory := get?_put_self hne
      have hgrown : Extends Anywhere Anywhere t (t.put loc .directory) := extends_put_directory hp hslot hnone trivial
      exact isDirectory_of_get? (locate_of_slot (hgrown.slot hslot) (by simp [hput])) hput

/-- **A directory that was made is there.** -/
theorem isDirectory_of_makeDirectories (hp : p.IsProper) (h : (makeDirectories p).run.run t = (.ok (), t')) :
    t'.isDirectory p = true := by
  rw [run_makeDirectories] at h
  rcases hmake : (makeDirectory p).run.run t with ⟨e | _, t₁⟩
  · simp only [hmake] at h
    split at h
    · rcases hparent : (makeDirectories p.parent).run.run t₁ with ⟨e' | _, t₂⟩
      · rw [hparent] at h
        cases h
      · rw [hparent] at h
        rcases hlast : (makeDirectory p).run.run t₂ with ⟨e' | _, t₃⟩
        · simp only [hlast] at h
          split at h
          · cases h
          · rename_i hthere
            cases h
            simpa using (not_or.1 hthere).2
        · simp only [hlast] at h
          cases h
          exact isDirectory_of_makeDirectory hp hlast
    · split at h
      · cases h
      · rename_i hthere
        cases h
        simpa using hthere
  · rw [hmake] at h
    cases h
    exact isDirectory_of_makeDirectory hp hmake

/-! ## Faults and files on the way -/

theorem pathFault?_ne_noEntry (h : pathFault? p = some fault) : fault ≠ .noEntry := by
  unfold pathFault? at h
  split at h
  · rw [← Option.some.inj h]
    decide
  · split at h
    · rw [← Option.some.inj h]
      decide
    · cases h

theorem locate_of_fault (h : pathFault? p = some fault) : t.locate p = .error fault := by
  unfold locate
  rw [h]

theorem slot_of_fault (h : pathFault? p = some fault) : t.slot p = .error fault := by
  unfold slot
  split
  · exact locate_of_fault h
  · rw [h]

theorem isDirectory_eq_false_of_locate (h : t.locate p = .error fault) : t.isDirectory p = false := by
  simp [isDirectory, node?, h]

/-- A path has the same place in trees in which the path above it leads to the same directory. -/
theorem slot_congr {dir : Location} (hne : p.name ≠ "") (hup : p.name ≠ "..") (ht : t.locate p.parent = .ok dir)
    (hu : u.locate p.parent = .ok dir) (hdir : t.get? dir = some .directory) (hdir' : u.get? dir = some .directory) :
    t.slot p = u.slot p := by
  unfold slot
  rw [if_neg (by simp [hne, hup]), if_neg (by simp [hne, hup]), ht, hu]
  simp only [bind, Except.bind, hdir, hdir']

/-- An error other than a missing directory is the last word on a path that is no directory. -/
theorem run_makeDirectories_of_slot (h : t.slot p = .error fault) (hfault : fault ≠ .noEntry)
    (hdir : t.isDirectory p = false) : (makeDirectories p).run.run t = (.error ⟨fault, p.toString⟩, t) := by
  rw [run_makeDirectories, run_makeDirectory, h]
  simp [hfault, hdir]

/-- **A path with a fault of its own** is not made. -/
theorem run_makeDirectories_fault (h : pathFault? p = some fault) :
    (makeDirectories p).run.run t = (.error ⟨fault, p.toString⟩, t) :=
  run_makeDirectories_of_slot (slot_of_fault h) (pathFault?_ne_noEntry h) (isDirectory_eq_false_of_locate (locate_of_fault h))

/-- **A file on the way ends it.** -/
theorem follow_blocked (ht : t.IsTree) {k : Nat} (hk : k < names.length)
    (hfile : t.get? (base ++ names.take k) = some (.file content)) : t.follow base names = .error .notDirectory := by
  obtain ⟨part, rest, hdrop⟩ := List.exists_cons_of_ne_nil (l := names.drop k) (by simp; omega)
  have hmid := follow_of_get? ht hfile
  rw [← List.take_append_drop k names, follow_append, hmid, hdrop]
  show t.follow (base ++ names.take k) (part :: rest) = .error .notDirectory
  rw [follow_cons, if_pos (by simp [hfile])]

section

variable (ht : t.IsTree) (hbase : t.locate p = .ok base)
include ht hbase

theorem locate_blocked {k : Nat} (hk : k < names.length) (hfile : t.get? (base ++ names.take k) = some (.file content))
    (hfault : pathFault? (p.descend names) = none) : t.locate (p.descend names) = .error .notDirectory := by
  unfold locate
  rw [hfault]
  simp only [origin_descend, Path.parts_descend, follow_append, (locate_eq_ok.1 hbase).2, Except.bind,
    follow_blocked ht hk hfile]

variable (hnames : ∀ s ∈ names, IsName s)
include hnames

/-- **Below a file nothing is made**, and the file itself is no directory. -/
theorem run_makeDirectories_blocked (hfault : pathFault? (p.descend names) = none) {k : Nat} (hk : k ≤ names.length)
    (hfile : t.get? (base ++ names.take k) = some (.file content)) : (makeDirectories (p.descend names)).run.run t =
      (.error ⟨if k = names.length then .alreadyExists else .notDirectory, (p.descend names).toString⟩, t) := by
  rcases Nat.lt_or_eq_of_le hk with hlt | rfl
  · obtain ⟨init, last, rfl⟩ := List.eq_nil_or_concat names |>.resolve_left fun h => by simp [h] at hlt
    rw [List.concat_eq_append] at *
    have hlast := hnames last (by simp)
    have hblocked := locate_blocked ht hbase hlt hfile hfault
    have hle : k ≤ init.length := by
      rw [List.length_append, List.length_singleton] at hlt
      omega
    have hslot : t.slot (p.descend (init ++ [last])) = .error .notDirectory := by
      have hfault' : pathFault? (p.descend init) = none := by
        rw [← Path.descend_descend] at hfault
        exact pathFault?_of_descend hfault
      rw [List.take_append_of_le_length hle] at hfile
      unfold slot
      rw [Path.name_descend, if_neg (by simp [hlast.ne_empty, hlast.ne_parent]), hfault, Path.parent_descend]
      rcases Nat.lt_or_eq_of_le hle with hlt' | rfl
      · rw [locate_blocked ht hbase hlt' hfile hfault']
        rfl
      · rw [List.take_length] at hfile
        rw [locate_of_get? ht hbase hfault' hfile]
        simp [bind, Except.bind, hfile]
    rw [run_makeDirectories_of_slot hslot (by decide) (isDirectory_eq_false_of_locate hblocked), if_neg (by omega)]
  · rw [List.take_length] at hfile
    have hloc := locate_of_get? ht hbase hfault hfile
    rw [run_makeDirectories, run_makeDirectory, slot_of_locate hloc]
    simp [hfile, isDirectory, node?, hloc]

variable (hdir : t.get? base = some .directory)
include hdir

/-- **Making directories ends in one of three ways**: the path has a fault, a file is in the way, or the directory is there
in the end. -/
theorem makeDirectories_cases (hp : p.IsProper) :
    (∃ fault, pathFault? (p.descend names) = some fault) ∨
    (pathFault? (p.descend names) = none ∧
      ∃ k content, k ≤ names.length ∧ t.get? (base ++ names.take k) = some (.file content)) ∨
    (pathFault? (p.descend names) = none ∧
      ∃ t', (makeDirectories (p.descend names)).run.run t = (.ok (), t') ∧ t'.get? (base ++ names) = some .directory) := by
  cases hfault : pathFault? (p.descend names) with
  | some fault => exact .inl ⟨fault, rfl⟩
  | none =>
    by_cases hblocked : ∃ k content, t.get? (base ++ names.take k) = some (.file content)
    · obtain ⟨k, content, hfile⟩ := hblocked
      refine .inr (.inl ⟨rfl, min k names.length, content, Nat.min_le_right _ _, ?_⟩)
      rwa [← List.take_take, List.take_length]
    · exact .inr (.inr ⟨rfl, makeDirectories_descend ht hp hbase hdir hnames hfault
        fun k content hfile => hblocked ⟨k, content, hfile⟩⟩)

/-- **Made once, directories stay made**, and what kept them from being made still does: in a tree that has grown since,
making them ends the same way and changes nothing. -/
theorem makeDirectories_again (hp : p.IsProper) {r : Except FileError Unit}
    (h : (makeDirectories (p.descend names)).run.run t = (r, t')) (hu : Extends Anywhere Anywhere t' u) :
    (makeDirectories (p.descend names)).run.run u = (r, u) ∧
      (r = .ok () → t'.locate (p.descend names) = .ok (base ++ names) ∧ t'.get? (base ++ names) = some .directory) := by
  have hgrown : Extends Nowhere Anywhere t ((makeDirectories (p.descend names)).run.run t).2 :=
    extends_makeDirectories (isProper_descend hp fun s hs => (hnames s hs).toIsPlain) fun _ _ _ _ _ _ => trivial
  rw [h] at hgrown
  have hlater := hgrown.anywhere.trans hu
  rcases makeDirectories_cases ht hbase hnames hdir hp with
    ⟨fault, hfault⟩ | ⟨hfault, k, content, hk, hfile⟩ | ⟨hfault, t₁, hrun, hmade⟩
  · rw [run_makeDirectories_fault hfault, Prod.mk.injEq] at h
    exact ⟨by rw [run_makeDirectories_fault hfault, h.1], fun hok => by simp [← h.1] at hok⟩
  · obtain ⟨content', hfile'⟩ := hlater.exists_file hfile
    rw [run_makeDirectories_blocked ht hbase hnames hfault hk hfile, Prod.mk.injEq] at h
    rw [run_makeDirectories_blocked (hlater.isTree ht) (hlater.locate hbase) hnames hfault hk hfile']
    exact ⟨by rw [h.1], fun hok => by simp [← h.1] at hok⟩
  · rw [hrun, Prod.mk.injEq] at h
    obtain ⟨rfl, rfl⟩ := h
    have hloc := locate_of_get? (hgrown.isTree ht) (hgrown.locate hbase) hfault hmade
    exact ⟨run_makeDirectories_of_isDirectory (isDirectory_of_get? (hu.locate hloc) (hu.directory hmade)),
      fun _ => ⟨hloc, hmade⟩⟩

end

end FileTree
end ReactSite
