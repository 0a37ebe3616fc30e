import ReactSite.Proofs.Destinations
import ReactSite.Proofs.Filing
/-!
# Boundary — what file operations leave alone outside one directory

An operation leads where the text of its path says (`place_of_slot`), so a path into a directory `o` reaches nothing outside
the place of `o` but the directories on the way there (`Confined`).  A way that ends in `..` can lead out of `o` by one step;
there a directory stands whenever anything stands below (`Founded`), and no file is written over a directory.  No operation
asks for more than that: the tree need not be in order, and the paths need not be read from a text.
-/
namespace ReactSite
namespace FileTree

variable {D : Location → Prop} {t t' t'' : FileTree} {p : Path} {out loc l : Location} {node : FileNode}
  {names : List String} {name : String}

/-! ## Where a path leads -/

theorem place_of_follow : ∀ {parts : List String} {start : Location}, t.follow start parts = .ok loc →
    loc = parts.foldl Path.enter start
  | [], _, h => (Except.ok.inj h).symm
  | part :: parts, start, h => by
    rw [follow_cons] at h
    rw [List.foldl_cons, Path.enter]
    split at h
    · cases h
    · split at h
      · rename_i hup
        rw [if_pos hup]
        exact place_of_follow h
      · rename_i hup
        rw [if_neg hup]
        split at h
        · cases h
        · split at h
          · cases h
          · exact place_of_follow h

theorem place_of_locate (h : t.locate p = .ok loc) : loc = p.resolveFrom t.current :=
  place_of_follow (locate_eq_ok.1 h).2

/-- **A path leads where its text says**, if it leads anywhere. -/
theorem place_of_slot (h : t.slot p = .ok loc) : loc = p.resolveFrom t.current := by
  by_cases hspecial : p.name = "" ∨ p.name = ".."
  · unfold slot at h
    rw [if_pos hspecial] at h
    exact place_of_locate h
  · rw [not_or] at hspecial
    obtain ⟨-, -, dir, hdir, -, rfl⟩ := (slot_eq_ok hspecial.1 hspecial.2).1 h
    have hparent := place_of_locate hdir
    have hsplit : p.parent.descend [p.name] = p := Path.child_parent (Path.parts_ne_nil_of_name hspecial.1)
    rw [hparent, ← Path.resolveFrom_descend _ (by simpa using Ne.symm hspecial.2), hsplit]

/-! ## A directory below every entry -/

/-- **A place that hangs from nothing only when it is bare**: a directory stands above it, or neither it nor anything below it
can be reached. -/
def Founded (out : Location) (t : FileTree) : Prop :=
  t.get? out.dropLast = some .directory ∨ (¬ out <+: t.current ∧ ∀ l, out <+: l → t.get? l = none)

theorem eq_nil_of_prefix_dropLast (h : out <+: out.dropLast) : out = [] := by
  have := h.length_le
  rw [List.length_dropLast] at this
  exact List.length_eq_zero_iff.1 (by omega)

theorem IsTree.founded (ht : t.IsTree) (out : Location) : Founded out t := by
  have habove : ∀ l node, out <+: l → t.get? l = some node → t.get? out.dropLast = some .directory := by
    intro l node hpre hget
    by_cases hnil : out = []
    · simp [hnil]
    · refine ht.directory_of_prefix ((List.dropLast_prefix out).trans hpre) (fun heq => hnil ?_) hget
      exact eq_nil_of_prefix_dropLast (heq ▸ hpre)
  by_cases hany : ∃ l node, out <+: l ∧ t.get? l = some node
  · obtain ⟨l, node, hpre, hget⟩ := hany
    exact .inl (habove l node hpre hget)
  · refine .inr ⟨fun hpre => hany ⟨_, _, hpre, ht.current⟩, fun l hpre => ?_⟩
    cases hget : t.get? l with
    | none => rfl
    | some node => exact absurd ⟨l, node, hpre, hget⟩ hany

theorem not_prefix_of_follow (hbare : ∀ l, out <+: l → t.get? l = none) : ∀ {parts : List String} {start : Location},
    ¬ out <+: start → t.follow start parts = .ok loc → ¬ out <+: loc
  | [], _, hstart, h => Except.ok.inj h ▸ hstart
  | part :: parts, start, hstart, h => by
    rw [follow_cons] at h
    split at h
    · cases h
    · split at h
      · exact not_prefix_of_follow hbare (fun hpre => hstart (hpre.trans (List.dropLast_prefix start))) h
      · split at h
        · cases h
        · split at h
          · cases h
          · rename_i hsome
            exact not_prefix_of_follow hbare (fun hpre => hsome (by rw [hbare _ hpre]; rfl)) h

theorem not_prefix_of_locate (hcurrent : ¬ out <+: t.current) (hbare : ∀ l, out <+: l → t.get? l = none)
    (h : t.locate p = .ok loc) : ¬ out <+: loc := by
  refine not_prefix_of_follow hbare ?_ (locate_eq_ok.1 h).2
  unfold origin
  split
  · intro hpre
    simpa using hbare [] hpre
  · exact hcurrent

namespace Founded

/-- A path that leads to the place itself can be followed one step up, to a directory. -/
theorem directory (h : Founded out t) (hloc : t.locate p = .ok loc) (hpre : out <+: loc) :
    t.get? out.dropLast = some .directory :=
  h.resolve_right fun ⟨hcurrent, hbare⟩ => not_prefix_of_locate hcurrent hbare hloc hpre

theorem put (h : Founded out t) (hslot : t.slot p = .ok loc) (hnode : node = .directory ∨ out <+: loc) :
    Founded out (t.put loc node) := by
  rcases h with habove | ⟨hcurrent, hbare⟩
  · left
    by_cases hnil : out.dropLast = []
    · rw [hnil, get?_root]
    · by_cases heq : out.dropLast = loc
      · rcases hnode with rfl | hpre
        · rw [heq, get?_put_self (heq ▸ hnil)]
        · have hroot : out = [] := eq_nil_of_prefix_dropLast (by rwa [heq])
          rw [hroot] at hnil
          exact absurd rfl hnil
      · rw [get?_put_of_ne heq, habove]
  · by_cases hpre : out <+: loc
    · -- the first entry of a bare place goes into the directory above
      left
      by_cases hspecial : p.name = "" ∨ p.name = ".."
      · unfold slot at hslot
        rw [if_pos hspecial] at hslot
        exact absurd hpre (not_prefix_of_locate hcurrent hbare hslot)
      · rw [not_or] at hspecial
        obtain ⟨-, -, dir, -, hdir, rfl⟩ := (slot_eq_ok hspecial.1 hspecial.2).1 hslot
        rcases List.prefix_concat_iff.1 hpre with rfl | hpre
        · rw [List.dropLast_concat, get?_put_of_ne (by simp), hdir]
        · rw [hbare dir hpre] at hdir
          cases hdir
    · refine .inr ⟨by rwa [current_put], fun l hl => ?_⟩
      have hne : l ≠ loc := fun heq => hpre (heq ▸ hl)
      rw [get?_put_of_ne hne, hbare l hl]

theorem erase (h : Founded out t) (hpre : out <+: loc) : Founded out (t.erase loc) := by
  rcases h with habove | ⟨hcurrent, hbare⟩
  · left
    by_cases hnil : out.dropLast = []
    · rw [hnil, get?_root]
    · rw [get?_erase hnil, if_neg, habove]
      intro hpre'
      rw [eq_nil_of_prefix_dropLast (hpre.trans hpre')] at hnil
      exact hnil rfl
  · refine .inr ⟨by rwa [current_erase], fun l hl => ?_⟩
    by_cases hnil : l = []
    · rw [hnil] at hl
      simpa using hbare [] hl
    · rw [get?_erase hnil, hbare l hl, ite_self]

end Founded

/-! ## Trees that agree outside -/

/-- **Everything outside a place is as it was**, except for directories made at places that `D` holds of. -/
structure Confined (out : Location) (D : Location → Prop) (t t' : FileTree) : Prop where
  current : t'.current = t.current
  founded : Founded out t → Founded out t'
  outside : ∀ l, ¬ out <+: l → t'.get? l = t.get? l ∨ (t.get? l = none ∧ t'.get? l = some .directory ∧ D l)

namespace Confined

theorem refl (out : Location) (D : Location → Prop) (t : FileTree) : Confined out D t t := ⟨rfl, id, fun _ _ => .inl rfl⟩

theorem trans (h : Confined out D t t') (h' : Confined out D t' t'') : Confined out D t t'' where
  current := h'.current.trans h.current
  founded := h'.founded ∘ h.founded
  outside := by
    intro l hl
    rcases h'.outside l hl with h₂ | ⟨h₂, hdir, hD⟩
    · rw [h₂]
      exact h.outside l hl
    · rcases h.outside l hl with h₁ | ⟨-, h₁, -⟩
      · exact .inr ⟨by rw [← h₁, h₂], hdir, hD⟩
      · rw [h₁] at h₂
        cases h₂

theorem get?_eq (h : Confined out D t t') (hl : ¬ out <+: l) (hsome : D l → (t.get? l).isSome) : t'.get? l = t.get? l := by
  rcases h.outside l hl with heq | ⟨hnone, -, hD⟩
  · exact heq
  · simpa [hnone] using hsome hD

theorem put (hslot : t.slot p = .ok loc) (hloc : out <+: loc ∨ (node = .directory ∧ t.get? loc = none ∧ D loc)) :
    Confined out D t (t.put loc node) where
  current := current_put
  founded := fun h => h.put hslot (hloc.symm.imp_left (·.1))
  outside := by
    intro l hl
    by_cases heq : l = loc
    · subst heq
      obtain ⟨rfl, hnone, hD⟩ := hloc.resolve_left hl
      have hnil : l ≠ [] := by
        rintro rfl
        simp at hnone
      exact .inr ⟨hnone, get?_put_self hnil, hD⟩
    · exact .inl (get?_put_of_ne heq)

theorem erase (hpre : out <+: loc) : Confined out D t (t.erase loc) where
  current := current_erase
  founded := fun h => h.erase hpre
  outside := by
    intro l hl
    by_cases hnil : l = []
    · simp [hnil]
    · exact .inl (by rw [get?_erase hnil, if_neg fun h => hl (hpre.trans h)])

theorem withPermissions (source target : Path) : Confined out D t (t.withPermissions source target) where
  current := current_withPermissions
  founded := by
    unfold Founded
    simp only [get?_withPermissions, current_withPermissions]
    exact id
  outside := fun _ _ => .inl get?_withPermissions

end Confined

/-! ## Paths into a directory -/

/-- The places that the way to a path passes, itself included. -/
def OnPath (o : Path) (base l : Location) : Prop := ∃ k, l = (⟨o.slashes, o.parts.take k⟩ : Path).resolveFrom base

theorem isSome_of_onPath (ht : t.IsTree) (hloc : t.locate p = .ok loc) (hl : OnPath p t.current l) : (t.get? l).isSome := by
  obtain ⟨k, rfl⟩ := hl
  obtain ⟨mid, hmid⟩ := locate_take hloc k
  rw [← place_of_locate hmid]
  exact isSome_of_locate ht hmid

/-- **A path into `o`** goes down from it, and up by one step at most, at its end. -/
def Inward (o q : Path) : Prop := ∃ names, ".." ∉ names ∧ (q = o.descend names ∨ q = (o.descend names).child "..")

variable {o q : Path}

theorem inward_child (hup : ".." ∉ names) (name : String) : Inward o ((o.descend names).child name) := by
  by_cases hname : name = ".."
  · exact ⟨names, hup, .inr (by rw [hname])⟩
  · refine ⟨names ++ [name], ?_, .inl (Path.child_descend ..)⟩
    rw [List.mem_append, not_or]
    exact ⟨hup, by simpa using Ne.symm hname⟩

/-- A part of the way down from `o` leads to a place below it, or is on the way to it. -/
theorem place_take (hup : ".." ∉ names) (base : Location) (k : Nat) :
    o.resolveFrom base <+: (⟨o.slashes, (o.descend names).parts.take k⟩ : Path).resolveFrom base ∨
      OnPath o base ((⟨o.slashes, (o.descend names).parts.take k⟩ : Path).resolveFrom base) := by
  rw [Path.parts_descend]
  by_cases hk : k ≤ o.parts.length
  · rw [List.take_append_of_le_length hk]
    exact .inr ⟨k, rfl⟩
  · rw [List.take_append, List.take_of_length_le (by omega)]
    left
    have hup' : ".." ∉ names.take (k - o.parts.length) := fun h => hup (List.mem_of_mem_take h)
    exact ⟨_, (Path.resolveFrom_descend (p := o) base hup').symm⟩

theorem confined_makeDirectories (hup : ".." ∉ names) (k : Nat) :
    Confined (o.resolveFrom t.current) (OnPath o t.current) t
      ((makeDirectories ⟨o.slashes, (o.descend names).parts.take k⟩).run.run t).2 := by
  refine makeDirectories_induction (.refl ..) fun j t' loc ht' hslot hnone => ht'.trans ?_
  have hplace := place_of_slot hslot
  rw [ht'.current, List.take_take] at hplace
  have hcases := place_take (o := o) hup t.current (min j k)
  rw [← hplace] at hcases
  have hput : Confined (o.resolveFrom t.current) (OnPath o t.current) t' (t'.put loc .directory) :=
    .put hslot (hcases.imp_right fun h => ⟨rfl, hnone, h⟩)
  exact hput

theorem confined_makeDirectories_parent (h : Inward o q) :
    Confined (o.resolveFrom t.current) (OnPath o t.current) t ((makeDirectories q.parent).run.run t).2 := by
  obtain ⟨names, hup, rfl | rfl⟩ := h
  · have hmade := confined_makeDirectories (t := t) (o := o) hup ((o.descend names).parts.length - 1)
    rwa [← List.dropLast_eq_take] at hmade
  · have hmade := confined_makeDirectories (t := t) (o := o) hup (o.descend names).parts.length
    rw [List.take_length] at hmade
    unfold Path.parent Path.child
    rwa [List.dropLast_concat]

/-- **A path into `o` leads to a place below it, or to a directory.** -/
theorem place_of_inward (hf : Founded (o.resolveFrom t.current) t) (h : Inward o q) (hslot : t.slot q = .ok loc) :
    o.resolveFrom t.current <+: loc ∨ t.get? loc = some .directory := by
  obtain ⟨names, hup, rfl | rfl⟩ := h
  · rw [place_of_slot hslot, Path.resolveFrom_descend _ hup]
    exact .inl (List.prefix_append _ _)
  · unfold slot at hslot
    rw [if_pos (by simp [Path.child, Path.name])] at hslot
    rw [Path.child_eq, locate_eq_ok, Path.parts_descend, origin_descend, follow_append_eq_ok] at hslot
    obtain ⟨hfault, mid, hmid, hlast⟩ := hslot
    have hloc : t.locate (o.descend names) = .ok mid := locate_eq_ok.2 ⟨pathFault?_of_descend hfault, hmid⟩
    have hplace := place_of_locate hloc
    rw [Path.resolveFrom_descend _ hup] at hplace
    have hlast := place_of_follow hlast
    rw [List.foldl_cons, List.foldl_nil, Path.enter, if_pos rfl] at hlast
    subst hlast
    rcases List.eq_nil_or_concat names with rfl | ⟨init, last, rfl⟩
    · rw [List.append_nil] at hplace
      exact .inr (hplace ▸ hf.directory hloc (hplace ▸ List.prefix_rfl))
    · left
      rw [hplace, List.concat_eq_append, ← List.append_assoc, List.dropLast_concat]
      exact List.prefix_append _ _

theorem confined_put (hf : Founded (o.resolveFrom t.current) t) (h : Inward o q) (hslot : t.slot q = .ok loc)
    (hplace : t.IsWritable loc) (node : FileNode) : Confined (o.resolveFrom t.current) D t (t.put loc node) :=
  .put hslot (.inl ((place_of_inward hf h hslot).resolve_right hplace.notDirectory))

theorem confined_write (hf : Founded (o.resolveFrom t.current) t) (h : Inward o q) (content : List UInt8) :
    Confined (o.resolveFrom t.current) D t ((write q content).run.run t).2 := by
  rcases write_cases q content t with ⟨e, hrun⟩ | ⟨loc, hslot, hplace, hrun⟩
  · rw [hrun]
    exact .refl ..
  · rw [hrun]
    exact confined_put hf h hslot hplace _

/-- **Writing a text into `o`** leaves everything outside alone. -/
theorem confined_writeText (hf : Founded (o.resolveFrom t.current) t) (h : Inward o q) (content : List UInt8) :
    Confined (o.resolveFrom t.current) (OnPath o t.current) t ((writeText q content).run.run t).2 := by
  have hmade := confined_makeDirectories_parent (t := t) h
  rw [run_writeText]
  rcases hrun : (makeDirectories q.parent).run.run t with ⟨e | u, t₁⟩ <;> rw [hrun] at hmade
  · exact hmade
  · have hwrite := confined_write (D := OnPath o t₁.current) (t := t₁) (hmade.current ▸ hmade.founded hf) h content
    rw [hmade.current] at hwrite
    exact hmade.trans hwrite

/-- **Copying a file into `o`** does, wherever the file stands and whatever it is called. -/
theorem confined_copy (hf : Founded (o.resolveFrom t.current) t) (hup : ".." ∉ names) (source : Path) :
    Confined (o.resolveFrom t.current) D t ((copy source (o.descend names)).run.run t).2 := by
  rcases copy_cases source (o.descend names) t with ⟨e, he⟩ | ⟨content, loc, -, hslot, hplace, hrun⟩
  · rw [he]
    exact .refl ..
  · rw [hrun]
    have hinward : Inward o (copyTarget t source (o.descend names)) := by
      unfold copyTarget
      split
      · exact inward_child hup _
      · exact ⟨names, hup, .inl rfl⟩
    exact (confined_put hf hinward hslot hplace _).trans (.withPermissions ..)

/-- **Removing what stands below `o`** does. -/
theorem confined_remove (hup : ".." ∉ names) :
    Confined (o.resolveFrom t.current) D t ((remove (o.descend names)).run.run t).2 := by
  rw [run_remove]
  cases hloc : t.locate (o.descend names) with
  | error fault => exact .refl ..
  | ok loc =>
    refine .erase ?_
    rw [place_of_locate hloc, Path.resolveFrom_descend _ hup]
    exact List.prefix_append _ _

end FileTree
end ReactSite
