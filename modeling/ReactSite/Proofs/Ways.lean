import ReactSite.Proofs.Lookup
import ReactSite.Proofs.Places
/-!
# Ways — where a path leads in a tree in order

A path that goes on from a path is followed from where that one leads (`locate_descend`).  Among plain names, which do
not go up again, the way can be read off the place (`follow_names`, `follow_of_get?`), and the place a new entry would
have is the directory's with the last name behind (`slot_eq_ok`).
-/
namespace ReactSite

/-! ## Going on from a path -/

namespace Path

/-- The path that goes on from `p` by names. -/
def descend (p : Path) (names : List String) : Path := ⟨p.slashes, p.parts ++ names⟩

variable (p : Path) (names : List String) (name : String)

@[simp] theorem descend_nil : p.descend [] = p := by
  simp [descend]

@[simp] theorem descend_descend (more : List String) : (p.descend names).descend more = p.descend (names ++ more) := by
  simp [descend]

@[simp] theorem parent_descend : (p.descend (names ++ [name])).parent = p.descend names := by
  simp [descend, parent, ← List.append_assoc]

@[simp] theorem name_descend : (p.descend (names ++ [name])).name = name := by
  simp [descend, Path.name, ← List.append_assoc]

@[simp] theorem child_descend : (p.descend names).child name = p.descend (names ++ [name]) := by
  simp [descend, child]

@[simp] theorem parts_descend : (p.descend names).parts = p.parts ++ names := rfl

theorem join_relative : p.join ⟨0, names⟩ = p.descend names := rfl

theorem join_descend (q : Path) : q.join (p.descend names) = (q.join p).descend names := by
  by_cases h : p.isAbsolute = true
  · rw [join, join, if_pos h]
    exact if_pos h
  · rw [join, join, if_neg h]
    exact (if_neg h).trans (by simp [descend])

theorem child_eq : p.child name = p.descend [name] := rfl

theorem child_parent {p : Path} (h : p.parts ≠ []) : p.parent.child p.name = p := by
  obtain ⟨slashes, parts⟩ := p
  obtain ⟨init, last, rfl⟩ := List.eq_nil_or_concat parts |>.resolve_left h
  simp [parent, child, Path.name]

theorem parts_ne_nil_of_name {p : Path} (h : p.name ≠ "") : p.parts ≠ [] := by
  intro e
  exact h (by simp [Path.name, e])

theorem descend_injective {p : Path} {a b : List String} (h : p.descend a = p.descend b) : a = b := by
  simpa [descend] using h

end Path

namespace FileTree

variable {t : FileTree} {start loc : Location} {p : Path}

/-! ## Following -/

theorem follow_cons (t : FileTree) (start : Location) (part : String) (rest : List String) :
    t.follow start (part :: rest) =
      if t.get? start ≠ some .directory then .error .notDirectory
      else if part = ".." then t.follow start.dropLast rest
      else if maxNameBytes < part.utf8ByteSize then .error .nameTooLong
      else if (t.get? (start ++ [part])).isNone then .error .noEntry
      else t.follow (start ++ [part]) rest := rfl

theorem follow_append (t : FileTree) (ys : List String) : ∀ (xs : List String) (start : Location),
    t.follow start (xs ++ ys) = (t.follow start xs).bind fun mid => t.follow mid ys
  | [], start => rfl
  | x :: xs, start => by
    rw [List.cons_append, follow_cons, follow_cons]
    split
    · rfl
    · split
      · exact follow_append t ys xs _
      · split
        · rfl
        · split
          · rfl
          · exact follow_append t ys xs _

theorem follow_append_eq_ok {xs ys : List String} :
    t.follow start (xs ++ ys) = .ok loc ↔ ∃ mid, t.follow start xs = .ok mid ∧ t.follow mid ys = .ok loc := by
  rw [follow_append]
  cases t.follow start xs <;> simp [Except.bind]

theorem follow_singleton_eq_ok {name : String} (h : name ≠ "..") : t.follow start [name] = .ok loc ↔
    t.get? start = some .directory ∧ name.utf8ByteSize ≤ maxNameBytes ∧ (t.get? (start ++ [name])).isSome ∧
      loc = start ++ [name] := by
  simp only [follow, h, if_false]
  by_cases hdir : t.get? start = some .directory
  · by_cases hsize : maxNameBytes < name.utf8ByteSize
    · have hsize' : ¬ name.utf8ByteSize ≤ maxNameBytes := by omega
      simp [hdir, hsize, hsize']
    · have hsize' : name.utf8ByteSize ≤ maxNameBytes := by omega
      cases hget : t.get? (start ++ [name]) <;> simp [hdir, hsize, hsize', eq_comm]
  · simp [hdir]

/-- **Plain names lead to the place they spell.** -/
theorem follow_names : ∀ {names : List String} {start : Location}, ".." ∉ names → t.follow start names = .ok loc →
    loc = start ++ names ∧ (names ≠ [] → (t.get? loc).isSome)
  | [], start, _, h => by
    simp [follow] at h
    simp [h]
  | name :: names, start, hup, h => by
    have hname : name ≠ ".." := fun e => hup (by simp [e])
    rw [← List.singleton_append, follow_append_eq_ok] at h
    obtain ⟨mid, hfirst, hrest⟩ := h
    obtain ⟨-, -, hsome, rfl⟩ := (follow_singleton_eq_ok hname).1 hfirst
    obtain ⟨rfl, hend⟩ := follow_names (fun hm => hup (List.mem_cons_of_mem _ hm)) hrest
    refine ⟨by simp, fun _ => ?_⟩
    by_cases hnil : names = []
    · simpa [hnil] using hsome
    · exact hend hnil

theorem parent_notMem {names : List String} (h : ∀ s ∈ names, IsPlain s) : ".." ∉ names :=
  fun hm => (h _ hm).ne_parent rfl

theorem follow_of_get? (ht : t.IsTree) {node : FileNode} : ∀ {names : List String} {start : Location},
    t.get? (start ++ names) = some node → t.follow start names = .ok (start ++ names)
  | [], start, _ => by simp [follow]
  | name :: names, start, h => by
    have hname := ht.isName_of_get? h name (by simp)
    have hdir := ht.directory_of_append (List.cons_ne_nil name names) h
    rw [← List.singleton_append, ← List.append_assoc] at h
    have hsome : (t.get? (start ++ [name])).isSome := by
      by_cases hnil : names = []
      · rw [hnil, List.append_nil] at h
        simp [h]
      · simp [ht.directory_of_append hnil h]
    have hfirst := (follow_singleton_eq_ok hname.ne_parent).2 ⟨hdir, hname.size_le, hsome, rfl⟩
    rw [← List.singleton_append, follow_append_eq_ok]
    exact ⟨_, hfirst, by simpa using follow_of_get? ht h⟩

theorem follow_missing : ∀ {names : List String} {start : Location}, t.get? start = some .directory →
    (∀ s ∈ names, IsName s) → (∀ k content, t.get? (start ++ names.take k) ≠ some (.file content)) →
      t.get? (start ++ names) = none → t.follow start names = .error .noEntry
  | [], start, hdir, _, _, hnone => by
    simp [hdir] at hnone
  | name :: names, start, hdir, hnames, hfree, hnone => by
    have hname := hnames name List.mem_cons_self
    have hsize : ¬ maxNameBytes < name.utf8ByteSize := by
      have := hname.size_le
      omega
    rw [follow_cons, if_neg (by simp [hdir]), if_neg hname.ne_parent, if_neg hsize]
    cases hnext : t.get? (start ++ [name]) with
    | none => simp
    | some node =>
      have hnode : node = .directory := by
        cases node with
        | directory => rfl
        | file content => exact absurd (by simpa using hnext) (hfree 1 content)
      rw [if_neg (by simp)]
      refine follow_missing (by rw [hnext, hnode]) (fun s hs => hnames s (List.mem_cons_of_mem _ hs)) ?_ (by simpa using hnone)
      intro k content
      simpa using hfree (k + 1) content

theorem isSome_of_follow (ht : t.IsTree) : ∀ {parts : List String} {start : Location}, (t.get? start).isSome →
    t.follow start parts = .ok loc → (t.get? loc).isSome
  | [], start, hsome, h => by
    simp only [follow, Except.ok.injEq] at h
    rwa [← h]
  | part :: parts, start, hsome, h => by
    rw [follow_cons] at h
    split at h
    · cases h
    · rename_i hdir
      split at h
      · refine isSome_of_follow ht ?_ h
        by_cases hnil : start = []
        · simp [hnil]
        · have hparent := (ht.parent _ (mem_entries_of_get? hnil (by simpa using hdir))).2
          simp [hparent]
      · split at h
        · cases h
        · split at h
          · cases h
          · rename_i hnone
            refine isSome_of_follow ht ?_ h
            simpa [Option.isSome_iff_ne_none] using hnone

/-! ## Locating -/

/-- **A way leads on in a tree with the same directories**, if there is an entry at its end. -/
theorem follow_of_directories {t' : FileTree} (hdir : ∀ l, t.get? l = some .directory → t'.get? l = some .directory)
    (hloc : (t'.get? loc).isSome) : ∀ {parts : List String} {start : Location},
      t.follow start parts = .ok loc → t'.follow start parts = .ok loc
  | [], _, h => h
  | part :: rest, start, h => by
    rw [follow_cons] at h ⊢
    split at h
    · cases h
    · rename_i hstart
      rw [if_neg (by simp [hdir start (not_not.1 hstart)])]
      split at h
      · rename_i hup
        rw [if_pos hup]
        exact follow_of_directories hdir hloc h
      · rename_i hup
        rw [if_neg hup]
        split at h
        · cases h
        · rename_i hsize
          rw [if_neg hsize]
          split at h
          · cases h
          · have hnext : (t'.get? (start ++ [part])).isSome := by
              cases rest with
              | nil =>
                rw [follow, Except.ok.injEq] at h
                rwa [h]
              | cons part' rest =>
                -- it leads on, so it is a directory
                rw [follow_cons] at h
                split at h
                · cases h
                · rename_i hmid
                  rw [hdir _ (not_not.1 hmid)]
                  rfl
            rw [if_neg (by simpa using Option.isSome_iff_ne_none.1 hnext)]
            exact follow_of_directories hdir hloc h

@[simp] theorem origin_descend (t : FileTree) (p : Path) (names : List String) : t.origin (p.descend names) = t.origin p :=
  rfl

theorem get?_origin (ht : t.IsTree) (p : Path) : t.get? (t.origin p) = some .directory := by
  unfold origin
  split
  · exact get?_root t
  · exact ht.current

theorem locate_eq_ok : t.locate p = .ok loc ↔ pathFault? p = none ∧ t.follow (t.origin p) p.parts = .ok loc := by
  unfold locate
  cases pathFault? p <;> simp

theorem hasNul_of_pathFault? (h : pathFault? p = none) : p.hasNul = false := by
  unfold pathFault? at h
  cases hnul : p.hasNul with
  | false => rfl
  | true => simp [hnul] at h

theorem locate_of_directories {t' : FileTree} (hcurrent : t'.current = t.current)
    (hdir : ∀ l, t.get? l = some .directory → t'.get? l = some .directory) (hloc : (t'.get? loc).isSome)
    (h : t.locate p = .ok loc) : t'.locate p = .ok loc := by
  obtain ⟨hfault, hfollow⟩ := locate_eq_ok.1 h
  refine locate_eq_ok.2 ⟨hfault, follow_of_directories hdir hloc ?_⟩
  unfold origin at hfollow ⊢
  rwa [hcurrent]


/-- The way to a directory does not end when a file is taken away. -/
theorem locate_erase_file (ht : t.IsTree) {gone : Location} {content : List UInt8} (hfile : t.get? gone = some (.file content))
    (hloc : t.locate p = .ok loc) (hdir : t.get? loc = some .directory) :
    (t.erase gone).locate p = .ok loc ∧ (t.erase gone).get? loc = some .directory := by
  have hkept : ∀ l, t.get? l = some .directory → (t.erase gone).get? l = some .directory := by
    intro l hl
    rw [ht.get?_erase_file hfile, if_neg ?_, hl]
    rintro rfl
    rw [hl] at hfile
    cases hfile
  exact ⟨locate_of_directories current_erase hkept (by rw [hkept loc hdir]; rfl) hloc, hkept loc hdir⟩


theorem pathFault?_of_descend {names : List String} (h : pathFault? (p.descend names) = none) : pathFault? p = none := by
  induction names using List.reverseRecOn with
  | nil => simpa using h
  | append_singleton init last ih =>
    rw [← Path.child_descend] at h
    exact ih (pathFault?_of_child h)

/-- **A path that goes on is followed from where the path it goes on from leads.** -/
theorem locate_descend {base : Location} (hbase : t.locate p = .ok base) {names : List String} :
    t.locate (p.descend names) = .ok loc ↔ pathFault? (p.descend names) = none ∧ t.follow base names = .ok loc := by
  rw [locate_eq_ok, origin_descend, Path.parts_descend, follow_append_eq_ok]
  have hfollow := (locate_eq_ok.1 hbase).2
  constructor
  · rintro ⟨hfault, mid, hmid, hrest⟩
    rw [hfollow, Except.ok.injEq] at hmid
    exact ⟨hfault, hmid ▸ hrest⟩
  · rintro ⟨hfault, hrest⟩
    exact ⟨hfault, base, hfollow, hrest⟩

theorem locate_names {base : Location} (hbase : t.locate p = .ok base) {names : List String} (hup : ".." ∉ names)
    (h : t.locate (p.descend names) = .ok loc) : loc = base ++ names ∧ (names ≠ [] → (t.get? loc).isSome) :=
  follow_names hup ((locate_descend hbase).1 h).2

theorem locate_of_get? (ht : t.IsTree) {base : Location} (hbase : t.locate p = .ok base) {names : List String}
    {node : FileNode} (hfault : pathFault? (p.descend names) = none) (h : t.get? (base ++ names) = some node) :
    t.locate (p.descend names) = .ok (base ++ names) :=
  (locate_descend hbase).2 ⟨hfault, follow_of_get? ht h⟩

/-- **A path without `..` leads where it led**, as long as something stands there. -/
theorem locate_of_there {t' : FileTree} (ht' : t'.IsTree) (hcurrent : t'.current = t.current) (hup : ".." ∉ p.parts)
    (h : t.locate p = .ok loc) {node : FileNode} (hthere : t'.get? loc = some node) : t'.locate p = .ok loc := by
  obtain ⟨hfault, hfollow⟩ := locate_eq_ok.1 h
  obtain ⟨rfl, -⟩ := follow_names hup hfollow
  have horigin : t'.origin p = t.origin p := by
    unfold origin
    rw [hcurrent]
  exact locate_eq_ok.2 ⟨hfault, horigin ▸ follow_of_get? ht' (horigin ▸ hthere)⟩

theorem isSome_of_locate (ht : t.IsTree) (h : t.locate p = .ok loc) : (t.get? loc).isSome :=
  isSome_of_follow ht (by rw [get?_origin ht]; rfl) (locate_eq_ok.1 h).2

/-! ## The place of an entry that need not exist -/

theorem slot_eq_ok (hne : p.name ≠ "") (hup : p.name ≠ "..") : t.slot p = .ok loc ↔
    pathFault? p = none ∧ p.name.utf8ByteSize ≤ maxNameBytes ∧
      ∃ dir, t.locate p.parent = .ok dir ∧ t.get? dir = some .directory ∧ loc = dir ++ [p.name] := by
  unfold slot
  rw [if_neg (by simp [hne, hup])]
  cases pathFault? p with
  | some fault => simp
  | none =>
    cases hparent : t.locate p.parent with
    | error fault => simp [bind, Except.bind]
    | ok dir =>
      by_cases hdir : t.get? dir = some .directory
      · by_cases hsize : maxNameBytes < p.name.utf8ByteSize
        · have hsize' : ¬ p.name.utf8ByteSize ≤ maxNameBytes := by omega
          simp [bind, Except.bind, hdir, hsize, hsize']
        · have hsize' : p.name.utf8ByteSize ≤ maxNameBytes := by omega
          simp [bind, Except.bind, hdir, hsize, hsize', eq_comm]
      · simp [bind, Except.bind, hdir]

theorem slot_of_locate (h : t.locate p = .ok loc) : t.slot p = .ok loc := by
  by_cases hspecial : p.name = "" ∨ p.name = ".."
  · unfold slot
    rwa [if_pos hspecial]
  · rw [not_or] at hspecial
    have hparts := Path.parts_ne_nil_of_name hspecial.1
    have hchild := Path.child_parent hparts
    rw [slot_eq_ok hspecial.1 hspecial.2]
    obtain ⟨hfault, hfollow⟩ := locate_eq_ok.1 h
    rw [← hchild, Path.child_eq, Path.parts_descend, origin_descend, follow_append_eq_ok] at hfollow
    obtain ⟨dir, hdir, hlast⟩ := hfollow
    obtain ⟨hget, hsize, -, hloc⟩ := (follow_singleton_eq_ok hspecial.2).1 hlast
    have hparent : pathFault? p.parent = none := pathFault?_of_child (by rw [hchild]; exact hfault)
    exact ⟨hfault, hsize, dir, locate_eq_ok.2 ⟨hparent, hdir⟩, hget, hloc⟩

theorem isName_of_proper (hp : p.IsProper) (hne : p.parts ≠ []) (hup : p.name ≠ "..")
    (hsize : p.name.utf8ByteSize ≤ maxNameBytes) (hfault : pathFault? p = none) : IsName p.name := by
  have hmem : p.name ∈ p.parts := by
    rw [← Path.child_parent hne]
    simp [Path.child, Path.name]
  refine ⟨⟨hp.kept _ hmem, hp.slash_notMem _ hmem, hup⟩, ?_, hsize⟩
  intro hnul
  have hhas : p.hasNul = true := List.any_eq_true.2 ⟨p.name, hmem, by simpa using hnul⟩
  simp [pathFault?, hhas] at hfault

/-- **The place of an entry that does not exist** is in a directory, under a name that it can hold. -/
theorem slot_fresh (ht : t.IsTree) (hp : p.IsProper) (h : t.slot p = .ok loc) (hnone : t.get? loc = none) :
    ∃ dir name, loc = dir ++ [name] ∧ t.get? dir = some .directory ∧ IsName name := by
  by_cases hspecial : p.name = "" ∨ p.name = ".."
  · unfold slot at h
    rw [if_pos hspecial] at h
    simpa [hnone] using isSome_of_locate ht h
  · rw [not_or] at hspecial
    obtain ⟨hfault, hsize, dir, -, hdir, rfl⟩ := (slot_eq_ok hspecial.1 hspecial.2).1 h
    have hparts := Path.parts_ne_nil_of_name hspecial.1
    exact ⟨dir, p.name, rfl, hdir, isName_of_proper hp hparts hspecial.2 hsize hfault⟩

/-- **The place that plain names below a path spell.** -/
theorem slot_descend {base : Location} (hbase : t.locate p = .ok base) {names : List String} {name : String}
    (hnames : ∀ s ∈ names ++ [name], IsPlain s) (h : t.slot (p.descend (names ++ [name])) = .ok loc) :
    loc = base ++ (names ++ [name]) ∧ t.get? (base ++ names) = some .directory := by
  have hname := hnames name (by simp)
  obtain ⟨-, -, dir, hdir, hget, rfl⟩ :=
    (slot_eq_ok (by rw [Path.name_descend]; exact hname.ne_empty) (by rw [Path.name_descend]; exact hname.ne_parent)).1 h
  rw [Path.parent_descend] at hdir
  obtain ⟨rfl, -⟩ := locate_names hbase (parent_notMem fun s hs => hnames s (List.mem_append_left _ hs)) hdir
  rw [Path.name_descend]
  exact ⟨by simp, hget⟩

end FileTree
end ReactSite
