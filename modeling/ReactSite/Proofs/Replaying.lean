import ReactSite.Proofs.Blocking
/-!
# Replaying — steps that are taken again

A step is taken again in a tree that has grown since.  Where it made directories they are there, where it was kept from
making them it is kept again, and what it wrote it writes once more: it ends as it did (`writeText_again`, `copy_again`),
and whatever it changes is as it left it (`Replays`).  Steps taken again one after the other, from where they have led,
change nothing at all (`Replays.get?_eq`).
-/
namespace ReactSite
namespace FileTree

variable {s s' s'' t t' u u' u'' : FileTree} {p : Path} {base loc : Location} {content : List UInt8}

/-- **A step that is taken again**: it led from `s` to `s'`, and later from `u` to `u'`.  Wherever one of the two changed
something, both have left the same. -/
def Replays (s s' u u' : FileTree) : Prop :=
  ∀ l, u'.get? l = s'.get? l ∨ (s'.get? l = s.get? l ∧ u'.get? l = u.get? l)

namespace Replays

theorem refl (s u : FileTree) : Replays s s u u := fun _ => .inr ⟨rfl, rfl⟩

theorem trans (h : Replays s s' u u') (h' : Replays s' s'' u' u'') : Replays s s'' u u'' := by
  intro l
  rcases h' l with h₂ | ⟨hs, hu⟩
  · exact .inl h₂
  · rw [hs, hu]
    exact h l

theorem get?_eq (h : Replays s s' s' u') (l : Location) : u'.get? l = s'.get? l :=
  (h l).elim id And.right

theorem of_made {D W' D' : Location → Prop} (h : Extends Nowhere D s s') (hu : Extends W' D' s' u) : Replays s s' u u := by
  intro l
  rcases h.change l with heq | ⟨-, hdir, -⟩ | ⟨-, -, hno⟩
  · exact .inr ⟨heq, rfl⟩
  · exact .inl (by rw [hdir, hu.directory hdir])
  · exact hno.elim

theorem put (s u : FileTree) (loc : Location) (node : FileNode) : Replays s (s.put loc node) u (u.put loc node) := by
  intro l
  by_cases hl : l = loc
  · by_cases hnil : l = []
    · exact .inl (by rw [hnil, get?_root, get?_root])
    · exact .inl (by rw [get?_put hnil, get?_put hnil, if_pos hl, if_pos hl])
  · exact .inr ⟨get?_put_of_ne hl, get?_put_of_ne hl⟩

theorem copied {source target : Path} {node : List UInt8} : Replays s (s.copied source target loc node) u
    (u.copied source target loc node) := by
  intro l
  rw [get?_copied, get?_copied]
  exact put s u loc _ l

end Replays

/-! ## Writing again -/

theorem write_again {r : Except FileError Unit} (ht : t.IsTree) (hslot : u.slot p = t.slot p)
    (h : (write p content).run.run t = (r, t')) (hu : Extends Anywhere Anywhere t' u) (hlocks : u.locked ⊆ t.locked) :
    ∃ u', (write p content).run.run u = (r, u') ∧ Replays t t' u u' := by
  rw [run_write] at h ⊢
  rw [hslot]
  cases hloc : t.slot p with
  | error fault =>
    rw [hloc] at h
    cases h
    exact ⟨u, rfl, .refl t u⟩
  | ok loc =>
    simp only [hloc] at h ⊢
    split at h
    · rename_i hdir
      cases h
      rw [if_pos (hu.directory hdir)]
      exact ⟨u, rfl, .refl t u⟩
    · rename_i hdir
      split at h
      · rename_i hlocked
        cases h
        obtain ⟨bytes, hthere⟩ := ht.locked loc hlocked
        obtain ⟨bytes', hfile⟩ := hu.exists_file hthere
        rw [if_neg (by simp [hfile]), if_pos (hu.locked loc hlocked)]
        exact ⟨u, rfl, .refl t u⟩
      · rename_i hlocked
        cases h
        have hne := ne_nil_of_not_directory hdir
        obtain ⟨content', hfile⟩ := hu.exists_file (get?_put_self hne)
        rw [if_neg (by simp [hfile]), if_neg fun hl => hlocked (hlocks hl)]
        exact ⟨_, rfl, .put t u loc _⟩

/-- **A text that is written again** below a directory that was there comes out as it did. -/
theorem writeText_again (ht : t.IsTree) (hp : p.IsProper) (hbase : t.locate p = .ok base)
    (hdir : t.get? base = some .directory) {init : List String} {last : String} (hinit : ∀ s ∈ init, IsName s)
    (hlast : IsPlain last) {r : Except FileError Unit}
    (h : (writeText (p.descend (init ++ [last])) content).run.run t = (r, t')) (hu : Extends Anywhere Anywhere t' u)
    (hlocks : u.locked ⊆ t.locked) :
    ∃ u', (writeText (p.descend (init ++ [last])) content).run.run u = (r, u') ∧ Replays t t' u u' := by
  have hplain : ∀ s ∈ init, IsPlain s := fun s hs => (hinit s hs).toIsPlain
  have hentry : Path.NamesEntry (p.descend (init ++ [last])) :=
    namesEntry_descend hp (by simp) (List.forall_mem_append.2 ⟨hplain, List.forall_mem_singleton.2 hlast⟩)
  rw [run_writeText, Path.parent_descend] at h ⊢
  rcases hmade : (makeDirectories (p.descend init)).run.run t with ⟨e | _, t₁⟩
  · rw [hmade] at h
    cases h
    have hgrown := extends_makeDirectories_descend (W := Nowhere) ht hp hbase hplain
    rw [hmade] at hgrown
    rw [(makeDirectories_again ht hbase hinit hdir hp hmade hu).1]
    exact ⟨u, rfl, .of_made hgrown hu⟩
  · rw [hmade] at h
    change (write (p.descend (init ++ [last])) content).run.run t₁ = (r, t') at h
    have hgrown := extends_makeDirectories_descend (W := Nowhere) ht hp hbase hplain
    rw [hmade] at hgrown
    have hwritten : Extends Anywhere Anywhere t₁ t' := by
      have hwrite : Extends Anywhere Anywhere t₁ ((write (p.descend (init ++ [last])) content).run.run t₁).2 :=
        extends_write hentry fun _ _ => trivial
      rwa [h] at hwrite
    obtain ⟨hagain, hends⟩ := makeDirectories_again ht hbase hinit hdir hp hmade (hwritten.trans hu)
    obtain ⟨hloc, habove⟩ := hends rfl
    have hslot : u.slot (p.descend (init ++ [last])) = t₁.slot (p.descend (init ++ [last])) := by
      have hlater := hwritten.trans hu
      have hparent : t₁.locate (p.descend (init ++ [last])).parent = .ok (base ++ init) := by
        rw [Path.parent_descend]
        exact hloc
      exact slot_congr hentry.ne_empty hentry.ne_parent (hlater.locate hparent) hparent (hlater.directory habove) habove
    obtain ⟨u', hrun, hreplays⟩ := write_again (hgrown.isTree ht) hslot h hu fun l hl => hgrown.locked l (hlocks hl)
    rw [hagain]
    exact ⟨u', hrun, (Replays.of_made hgrown (hwritten.trans hu)).trans hreplays⟩

/-! ## Copying again -/

theorem ne_of_copy {source target : Path} {a : Location} (h : (copy source target).run.run t = (.ok (), t'))
    (ha : t.locate source = .ok a) (hloc : t.locate (copyTarget t source target) = .ok loc) : a ≠ loc := by
  rintro rfl
  rw [run_copy, ha, hloc] at h
  simp only [if_true] at h
  cases h

/-- **A file that is copied again** goes where it went, if it holds what it held. -/
theorem copy_again {source target : Path} (hentry : Path.NamesEntry (copyTarget t source target))
    (h : (copy source target).run.run t = (.ok (), t')) (hu : Extends Anywhere Anywhere t' u) (hlocks : u.locked ⊆ t.locked)
    (hkept : ∀ a bytes, t.locate source = .ok a → t.get? a = some (.file bytes) → u.get? a = some (.file bytes)) :
    ∃ u', (copy source target).run.run u = (.ok (), u') ∧ Replays t t' u u' := by
  obtain ⟨content, loc, hnode, hslot, hplace, rfl⟩ := copy_eq_ok h
  obtain ⟨a, ha, hfile⟩ := node?_eq_some.1 hnode
  have hne := ne_nil_of_not_directory hplace.notDirectory
  have hwritten : Extends Anywhere Anywhere t (t.copied source (copyTarget t source target) loc content) :=
    extends_copied hentry hslot hplace trivial
  have hlater := hwritten.trans hu
  obtain ⟨content', hthere⟩ := hu.exists_file (get?_copied.trans (get?_put_self hne))
  have hloc : u.locate (copyTarget t source target) = .ok loc := locate_of_slot (hlater.slot hslot) (by simp [hthere])
  have htarget : copyTarget u source target = copyTarget t source target := by
    unfold copyTarget at hloc ⊢
    cases hisdir : t.isDirectory target with
    | true => rw [if_pos (hlater.isDirectory hisdir), if_pos rfl]
    | false =>
      rw [hisdir, if_neg (by simp)] at hloc
      rw [if_neg (by simp [isDirectory, node?, hloc, hthere]), if_neg (by simp)]
  have hapart : a ≠ loc := by
    rintro rfl
    exact ne_of_copy h ha (locate_of_slot hslot (by simp [hfile])) rfl
  have hplace' : u.IsWritable loc := ⟨by simp [hthere], fun hl => hplace.unlocked (hlocks hl)⟩
  refine ⟨u.copied source (copyTarget t source target) loc content, ?_, .copied⟩
  rw [run_copy, htarget, hlater.locate ha, hloc]
  simp only
  rw [if_neg hapart]
  exact transfer_ok (node?_eq_some.2 ⟨a, hlater.locate ha, hkept a content ha hfile⟩) (hlater.slot hslot) hplace'

end FileTree
end ReactSite
