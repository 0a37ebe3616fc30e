import ReactSite.Proofs.Blocking
/-!
# Alongside — two trees that differ in few places take the same step

Two runs over trees that agree but in a few places are taken side by side (`Agree`).  At some of these places anything may
stand; at the others there is no file in either tree, so that no way of a third file is blocked in one of them alone.  A
step that stays away from these places ends alike in both, and they agree as before (`writeText_agree`, `copy_agree`).
-/
namespace ReactSite
namespace FileTree

variable {X Y D : Location → Prop} {t t' u u' : FileTree} {p : Path} {base l : Location} {names : List String}
  {content : List UInt8}

/-- **Two trees that agree** but at places that `X` holds of, and at those that `Y` holds of, where neither has a file. -/
structure Agree (X Y : Location → Prop) (t u : FileTree) : Prop where
  current : u.current = t.current
  locked : ∀ l, ¬ X l → (l ∈ u.locked ↔ l ∈ t.locked)
  same : ∀ l, X l ∨ (Y l ∧ (∀ content, t.get? l ≠ some (.file content)) ∧ ∀ content, u.get? l ≠ some (.file content)) ∨
    u.get? l = t.get? l

namespace Agree

theorem get?_eq (h : Agree X Y t u) (hX : ¬ X l) (hY : ¬ Y l) : u.get? l = t.get? l := by
  rcases h.same l with hl | ⟨hl, -, -⟩ | hl
  · exact absurd hl hX
  · exact absurd hl hY
  · exact hl

theorem file_iff (h : Agree X Y t u) (hX : ¬ X l) (content : List UInt8) :
    u.get? l = some (.file content) ↔ t.get? l = some (.file content) := by
  rcases h.same l with hl | ⟨-, ht, hu⟩ | hl
  · exact absurd hl hX
  · exact iff_of_false (hu content) (ht content)
  · rw [hl]

theorem made (h : Agree X Y t u) (ht : Extends Nowhere D t t') (hu : Extends Nowhere D u u')
    (hdir : ∀ l, D l → t'.get? l = some .directory ∧ u'.get? l = some .directory) : Agree X Y t' u' where
  current := by rw [ht.current, hu.current, h.current]
  locked := by
    intro l hl
    rw [ht.locked_iff id, hu.locked_iff id]
    exact h.locked l hl
  same := by
    intro l
    by_cases hl : D l
    · exact .inr (.inr (by rw [(hdir l hl).1, (hdir l hl).2]))
    · rw [ht.get?_eq id hl, hu.get?_eq id hl]
      exact h.same l

theorem put (h : Agree X Y t u) (loc : Location) (node : FileNode) : Agree X Y (t.put loc node) (u.put loc node) where
  current := by rw [current_put, current_put, h.current]
  locked := by
    intro l hl
    rw [locked_put, locked_put]
    exact h.locked l hl
  same := by
    intro l
    by_cases hl : l = loc
    · by_cases hnil : l = []
      · exact .inr (.inr (by rw [hnil, get?_root, get?_root]))
      · exact .inr (.inr (by rw [get?_put hnil, get?_put hnil, if_pos hl, if_pos hl]))
    · rw [get?_put_of_ne hl, get?_put_of_ne hl]
      exact h.same l

theorem lock (h : Agree X Y t u) (loc : Location) : Agree X Y (t.lock loc) (u.lock loc) where
  current := h.current
  locked := fun l hl => List.mem_cons.trans ((or_congr_right (h.locked l hl)).trans List.mem_cons.symm)
  same := h.same

/-- They agree whatever was written where they need not. -/
theorem grown (h : Agree X Y t u) (ht : Extends X Y t t') (hu : Extends X Y u u') : Agree X Y t' u' where
  current := by rw [ht.current, hu.current, h.current]
  locked := by
    intro l hX
    rw [ht.locked_iff hX, hu.locked_iff hX]
    exact h.locked l hX
  same := by
    intro l
    by_cases hX : X l
    · exact .inl hX
    · by_cases hY : Y l
      · have hfile : ∀ {s s' : FileTree}, Extends X Y s s' → (∀ content, s.get? l ≠ some (.file content)) →
            ∀ content, s'.get? l ≠ some (.file content) :=
          fun hs hno content hl => hno content ((hs.file_iff hX content).1 hl)
        rcases h.same l with hl | ⟨-, hno, hno'⟩ | hl
        · exact absurd hl hX
        · exact .inr (.inl ⟨hY, hfile ht hno, hfile hu hno'⟩)
        · cases hget : t.get? l with
          | none =>
            exact .inr (.inl ⟨hY, hfile ht (by simp [hget]), hfile hu (by simp [hl, hget])⟩)
          | some node =>
            cases node with
            | directory => exact .inr (.inr (by rw [ht.directory hget, hu.directory (by rw [hl, hget])]))
            | file content =>
              exact .inr (.inr (by rw [(ht.file_iff hX content).2 hget, (hu.file_iff hX content).2 (by rw [hl, hget])]))
      · rw [ht.get?_eq hX hY, hu.get?_eq hX hY]
        exact h.same l

end Agree

section

variable (ht : t.IsTree) (hu : u.IsTree) (hp : p.IsProper) (hbase : t.locate p = .ok base) (hbase' : u.locate p = .ok base)
  (hdir : t.get? base = some .directory) (hdir' : u.get? base = some .directory) (h : Agree X Y t u)
include ht hu hp hbase hbase' hdir hdir' h

/-- **Directories are made alike** where the trees agree about files. -/
theorem makeDirectories_agree (hnames : ∀ s ∈ names, IsName s) (hX : ∀ k, ¬ X (base ++ names.take k)) :
    ∃ r t' u', (makeDirectories (p.descend names)).run.run t = (r, t') ∧
      (makeDirectories (p.descend names)).run.run u = (r, u') ∧ Agree X Y t' u' ∧
      (r = .ok () → (t'.locate (p.descend names) = .ok (base ++ names) ∧ t'.get? (base ++ names) = some .directory) ∧
        u'.locate (p.descend names) = .ok (base ++ names) ∧ u'.get? (base ++ names) = some .directory) := by
  have hplain : ∀ s ∈ names, IsPlain s := fun s hs => (hnames s hs).toIsPlain
  rcases makeDirectories_cases ht hbase hnames hdir hp with
    ⟨fault, hfault⟩ | ⟨hfault, k, content, hk, hfile⟩ | ⟨hfault, t', hrun, hmade⟩
  · exact ⟨_, t, u, run_makeDirectories_fault hfault, run_makeDirectories_fault hfault, h, fun hok => by cases hok⟩
  · exact ⟨_, t, u, run_makeDirectories_blocked ht hbase hnames hfault hk hfile,
      run_makeDirectories_blocked hu hbase' hnames hfault hk ((h.file_iff (hX k) content).2 hfile), h, fun hok => by cases hok⟩
  · rcases makeDirectories_cases hu hbase' hnames hdir' hp with
      ⟨fault, hfault'⟩ | ⟨-, k, content, hk, hfile⟩ | ⟨-, u', hrun', hmade'⟩
    · rw [hfault] at hfault'
      cases hfault'
    · rw [run_makeDirectories_blocked ht hbase hnames hfault hk ((h.file_iff (hX k) content).1 hfile)] at hrun
      cases hrun
    · have hgrown := extends_makeDirectories_descend (W := Nowhere) ht hp hbase hplain
      have hgrown' := extends_makeDirectories_descend (W := Nowhere) hu hp hbase' hplain
      rw [hrun] at hgrown
      rw [hrun'] at hgrown'
      have hway : ∀ {s : FileTree}, s.IsTree → s.get? (base ++ names) = some .directory →
          ∀ j, s.get? (base ++ names.take j) = some .directory := by
        intro s hs hend j
        by_cases heq : base ++ names.take j = base ++ names
        · rw [heq, hend]
        · exact hs.directory_of_prefix ((List.prefix_append_right_inj base).2 (List.take_prefix _ _)) heq hend
      refine ⟨_, t', u', hrun, hrun', h.made hgrown hgrown' ?_, fun _ =>
        ⟨⟨locate_of_get? (hgrown.isTree ht) (hgrown.locate hbase) hfault hmade, hmade⟩,
          locate_of_get? (hgrown'.isTree hu) (hgrown'.locate hbase') hfault hmade', hmade'⟩⟩
      rintro l ⟨j, -, -, rfl⟩
      exact ⟨hway (hgrown.isTree ht) hmade j, hway (hgrown'.isTree hu) hmade' j⟩

/-- **A text is written alike** where the trees agree about files on the way and about the place itself. -/
theorem writeText_agree {init : List String} {last : String} (hinit : ∀ s ∈ init, IsName s) (hlast : IsPlain last)
    (hX : ∀ k, ¬ X (base ++ (init ++ [last]).take k)) (hY : ¬ Y (base ++ (init ++ [last]))) (content : List UInt8) :
    ∃ r t' u', (writeText (p.descend (init ++ [last])) content).run.run t = (r, t') ∧
      (writeText (p.descend (init ++ [last])) content).run.run u = (r, u') ∧ Agree X Y t' u' := by
  have hplain : ∀ s ∈ init ++ [last], IsPlain s :=
    List.forall_mem_append.2 ⟨fun s hs => (hinit s hs).toIsPlain, List.forall_mem_singleton.2 hlast⟩
  have hentry : Path.NamesEntry (p.descend (init ++ [last])) := namesEntry_descend hp (by simp) hplain
  obtain ⟨r, t₁, u₁, hmade, hmade', hagree, hends⟩ := makeDirectories_agree ht hu hp hbase hbase' hdir hdir' h hinit fun k => by
    have hway := hX (min k init.length)
    rwa [List.take_append_of_le_length (Nat.min_le_right _ _), ← List.take_take, List.take_length] at hway
  rw [run_writeText, run_writeText, Path.parent_descend, hmade, hmade']
  cases r with
  | error e => exact ⟨_, t₁, u₁, rfl, rfl, hagree⟩
  | ok _ =>
    obtain ⟨⟨hloc, habove⟩, hloc', habove'⟩ := hends rfl
    have hslot : u₁.slot (p.descend (init ++ [last])) = t₁.slot (p.descend (init ++ [last])) := by
      rw [← Path.parent_descend p init last] at hloc hloc'
      exact slot_congr hentry.ne_empty hentry.ne_parent hloc' hloc habove' habove
    simp only
    rw [run_write, run_write, hslot]
    cases hplace : t₁.slot (p.descend (init ++ [last])) with
    | error fault => exact ⟨_, t₁, u₁, rfl, rfl, hagree⟩
    | ok loc =>
      have hgrown := extends_makeDirectories_descend (W := Nowhere) ht hp hbase fun s hs => (hinit s hs).toIsPlain
      rw [hmade] at hgrown
      obtain ⟨rfl, -⟩ := slot_descend (hgrown.locate hbase) hplain hplace
      have hend : ¬ X (base ++ (init ++ [last])) := by
        have hall := hX (init ++ [last]).length
        rwa [List.take_length] at hall
      simp only [hagree.get?_eq hend hY, hagree.locked _ hend]
      split
      · exact ⟨_, t₁, u₁, rfl, rfl, hagree⟩
      · split
        · exact ⟨_, t₁, u₁, rfl, rfl, hagree⟩
        · exact ⟨_, _, _, rfl, rfl, hagree.put _ _⟩

end

theorem node?_descend (ht : t.IsTree) (hbase : t.locate p = .ok base) (hup : ".." ∉ names) :
    t.node? (p.descend names) = if pathFault? (p.descend names) = none then t.get? (base ++ names) else none := by
  unfold node?
  cases hplace : t.locate (p.descend names) with
  | ok place =>
    obtain ⟨rfl, -⟩ := locate_names hbase hup hplace
    rw [if_pos (locate_eq_ok.1 hplace).1]
  | error fault =>
    simp only
    split
    · rename_i hfault
      cases hget : t.get? (base ++ names) with
      | none => rfl
      | some node =>
        rw [locate_of_get? ht hbase hfault hget] at hplace
        cases hplace
    · rfl

/-- **A file is copied alike** where it has the same bytes and permissions and goes to the same place. -/
theorem copy_agree {source target : Path} {a : Location} (h : Agree X Y t u) (ha : t.locate source = .ok a)
    (ha' : u.locate source = .ok a) (hX : ¬ X a) (hsame : u.get? a = t.get? a)
    (htarget : u.isDirectory target = t.isDirectory target) (hentry : Path.NamesEntry (copyTarget t source target))
    (hplace : ∀ b c, t.slot (copyTarget t source target) = .ok b → u.slot (copyTarget t source target) = .ok c → b = c)
    (ht : (copy source target).run.run t = (.ok (), t')) (hu : (copy source target).run.run u = (.ok (), u')) :
    Agree X Y t' u' := by
  have htargets : copyTarget u source target = copyTarget t source target := by
    unfold copyTarget
    rw [htarget]
  obtain ⟨content, b, hnode, hb, hwritable, rfl⟩ := copy_eq_ok ht
  obtain ⟨content', c, hnode', hc, hwritable', rfl⟩ := copy_eq_ok hu
  rw [htargets] at hc ⊢
  obtain rfl := hplace b c hb hc
  have hcontent : content' = content := by
    unfold node? at hnode hnode'
    rw [ha] at hnode
    rw [ha'] at hnode'
    simp only [hsame, hnode, Option.some.injEq, FileNode.file.injEq] at hnode'
    exact hnode'.symm
  subst hcontent
  rw [copied_eq hentry hb hwritable ha, copied_eq hentry hc hwritable' ha']
  simp only [h.locked a hX]
  split
  · exact (h.put b _).lock b
  · exact h.put b _

end FileTree
end ReactSite
