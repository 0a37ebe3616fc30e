import Mathlib.Data.List.Sort
import ReactSite.Proofs.Ways
/-!
# Listing — the files below a directory, in the order of a walk

The names in a directory are listed in order and once each, so what is listed is decided by what stands where
(`mem_namesIn`, `namesIn_congr`).  The files below a directory are those of the directory itself, and then those below its
subdirectories (`filesUnder`); a file is among them exactly when it stands below the directory and its own directory has
a path that is not too long (`mem_filesUnder`).
-/
namespace ReactSite

theorem eq_of_ordered {α : Type} {le : α → α → Prop} (hanti : ∀ a b, le a b → le b a → a = b) {l₁ l₂ : List α}
    (h₁ : l₁.Pairwise le) (h₂ : l₂.Pairwise le) (hnodup₁ : l₁.Nodup) (hnodup₂ : l₂.Nodup) (hmem : ∀ a, a ∈ l₁ ↔ a ∈ l₂) :
    l₁ = l₂ :=
  ((List.perm_ext_iff_of_nodup hnodup₁ hnodup₂).2 hmem).eq_of_pairwise (fun a b _ _ => hanti a b) h₁ h₂

theorem flatMap_filter_of_nil {α β : Type} {r : α → Bool} {f : α → List β} : ∀ {l : List α},
    (∀ a ∈ l, r a = false → f a = []) → (l.filter r).flatMap f = l.flatMap f
  | [], _ => rfl
  | a :: l, h => by
    have hrest := flatMap_filter_of_nil fun b hb => h b (List.mem_cons_of_mem _ hb)
    cases ha : r a with
    | true => rw [List.filter_cons_of_pos ha, List.flatMap_cons, List.flatMap_cons, hrest]
    | false => rw [List.filter_cons_of_neg (by simp [ha]), List.flatMap_cons, h a List.mem_cons_self ha, hrest, List.nil_append]

namespace FileTree

variable {t t' : FileTree} {loc : Location} {q q' : FileNode → Bool}

/-! ## The names in a directory -/

theorem nameLe_iff (a b : String) : nameLe a b = true ↔ a ≤ b := by
  unfold nameLe
  rw [Bool.not_eq_true', decide_eq_false_iff_not]
  exact String.not_lt

theorem nameLe_antisymm (a b : String) (h : nameLe a b = true) (h' : nameLe b a = true) : a = b :=
  String.le_antisymm ((nameLe_iff a b).1 h) ((nameLe_iff b a).1 h')

instance : Std.Total fun a b => nameLe a b = true where
  total a b := by simpa [nameLe_iff] using String.le_total a b

instance : IsTrans String fun a b => nameLe a b = true where
  trans a b c hab hbc := by
    rw [nameLe_iff] at hab hbc ⊢
    exact String.le_trans hab hbc

theorem sortNames_eq (names : List String) : sortNames names = names.insertionSort fun a b => nameLe a b = true := by
  have hinsert : ∀ name, insertName name = List.orderedInsert (fun a b => nameLe a b = true) name := by
    intro name
    funext rest
    induction rest with
    | nil => rfl
    | cons other rest ih => rw [insertName, List.orderedInsert, ih]
  unfold sortNames List.insertionSort
  rw [funext hinsert]

theorem perm_sortNames (names : List String) : (sortNames names).Perm names := by
  rw [sortNames_eq]
  exact List.perm_insertionSort _ names

theorem ordered_namesIn (t : FileTree) (loc : Location) (q : FileNode → Bool) :
    (t.namesIn loc q).Pairwise fun a b => nameLe a b = true := by
  unfold namesIn
  rw [sortNames_eq]
  exact List.pairwise_insertionSort _ _

theorem mem_namesIn (ht : t.IsTree) {name : String} :
    name ∈ t.namesIn loc q ↔ ∃ node, t.get? (loc ++ [name]) = some node ∧ q node = true := by
  unfold namesIn
  rw [(perm_sortNames _).mem_iff, List.mem_filterMap]
  constructor
  · rintro ⟨⟨l, node⟩, hmem, h⟩
    split at h
    · rename_i hin
      obtain ⟨hne, hdir, hq⟩ := hin
      refine ⟨node, ?_, hq⟩
      have hsplit : l = loc ++ [name] := by
        rw [← hdir]
        exact (List.dropLast_append_getLast? name h).symm
      rw [← hsplit]
      exact ht.get?_of_mem hmem
    · cases h
  · rintro ⟨node, hget, hq⟩
    exact ⟨(loc ++ [name], node), mem_entries_of_get? (by simp) hget, by simp [hq]⟩

theorem nodup_namesIn (ht : t.IsTree) : (t.namesIn loc q).Nodup := by
  unfold namesIn
  rw [(perm_sortNames _).nodup_iff, List.Nodup, List.pairwise_filterMap]
  have hkeys := ht.nodup
  rw [List.Nodup, List.pairwise_map] at hkeys
  refine hkeys.imp ?_
  intro e e' hne a ha b hb hab
  refine hne ?_
  split at ha
  · split at hb
    · rename_i hin hin'
      subst hab
      rw [← List.dropLast_append_getLast? a ha, ← List.dropLast_append_getLast? a hb, hin.2.1, hin'.2.1]
    · cases hb
  · cases ha

/-- **What is listed is decided by which names are in the directory.** -/
theorem namesIn_congr (ht : t.IsTree) (ht' : t'.IsTree) (r : String → Bool)
    (h : ∀ name, r name = true → (name ∈ t.namesIn loc q ↔ name ∈ t'.namesIn loc q')) :
    (t.namesIn loc q).filter r = (t'.namesIn loc q').filter r := by
  refine eq_of_ordered nameLe_antisymm ((ordered_namesIn t loc q).filter r) ((ordered_namesIn t' loc q').filter r)
    ((nodup_namesIn ht).filter r) ((nodup_namesIn ht').filter r) ?_
  intro name
  rw [List.mem_filter, List.mem_filter]
  exact and_congr_left (h name)

theorem mem_fileNames (ht : t.IsTree) {name : String} :
    name ∈ t.fileNames loc ↔ ∃ content, t.get? (loc ++ [name]) = some (.file content) := by
  unfold fileNames
  rw [mem_namesIn ht]
  constructor
  · rintro ⟨node, hget, hnode⟩
    cases node with
    | file content => exact ⟨content, hget⟩
    | directory => simp at hnode
  · rintro ⟨content, hget⟩
    exact ⟨_, hget, by simp⟩

theorem mem_directoryNames (ht : t.IsTree) {name : String} :
    name ∈ t.directoryNames loc ↔ t.get? (loc ++ [name]) = some .directory := by
  unfold directoryNames
  rw [mem_namesIn ht]
  simp

/-! ## The files below a directory -/

/-- **The files below a directory**, at most `depth` levels deep, in the order in which a walk visits them. -/
def filesUnder (t : FileTree) : Nat → Path → List Path
  | 0, _ => []
  | depth + 1, dir => match t.locate dir with
    | .error _ => []
    | .ok loc  => (t.fileNames loc).map dir.child ++
      (t.directoryNames loc).flatMap fun name => t.filesUnder depth (dir.child name)

section

variable {p : Path} {base : Location} {names : List String}

/-- A directory below a path is found where its names spell it, or nothing is there to be listed. -/
theorem locate_cases (ht : t.IsTree) (hbase : t.locate p = .ok base) (hnames : ∀ s ∈ names, IsPlain s) :
    (t.locate (p.descend names) = .ok (base ++ names) ∧ pathFault? (p.descend names) = none) ∨
      (∃ fault, t.locate (p.descend names) = .error fault) ∧
        (pathFault? (p.descend names) ≠ none ∨ t.get? (base ++ names) = none) := by
  cases hloc : t.locate (p.descend names) with
  | ok loc =>
    obtain ⟨rfl, -⟩ := locate_names hbase (parent_notMem hnames) hloc
    exact .inl ⟨rfl, (locate_eq_ok.1 hloc).1⟩
  | error fault =>
    refine .inr ⟨⟨fault, rfl⟩, ?_⟩
    by_contra hno
    rw [not_or, not_not] at hno
    obtain ⟨node, hget⟩ := Option.ne_none_iff_exists'.1 hno.2
    rw [locate_of_get? ht hbase hno.1 hget] at hloc
    cases hloc

theorem fileNames_of_ne (ht : t.IsTree) (h : t.get? loc ≠ some .directory) : t.fileNames loc = [] := by
  rw [List.eq_nil_iff_forall_not_mem]
  intro name hname
  obtain ⟨content, hget⟩ := (mem_fileNames ht).1 hname
  exact h (ht.directory_of_append (List.cons_ne_nil name []) hget)

theorem directoryNames_of_ne (ht : t.IsTree) (h : t.get? loc ≠ some .directory) : t.directoryNames loc = [] := by
  rw [List.eq_nil_iff_forall_not_mem]
  intro name hname
  exact h (ht.directory_of_append (List.cons_ne_nil name []) ((mem_directoryNames ht).1 hname))

/-- **The files below a directory**, by the names that lead to it. -/
theorem filesUnder_succ (ht : t.IsTree) (hbase : t.locate p = .ok base) (hnames : ∀ s ∈ names, IsPlain s) (depth : Nat) :
    t.filesUnder (depth + 1) (p.descend names) = if pathFault? (p.descend names) = none then
      (t.fileNames (base ++ names)).map (fun name => p.descend (names ++ [name])) ++
        (t.directoryNames (base ++ names)).flatMap fun name => t.filesUnder depth (p.descend (names ++ [name]))
    else [] := by
  rw [filesUnder]
  rcases locate_cases ht hbase hnames with ⟨hloc, hfault⟩ | ⟨⟨fault, hloc⟩, hno⟩
  · rw [hloc, if_pos hfault]
    simp only [Path.child_descend]
    congr 1
    exact List.map_congr_left fun name _ => Path.child_descend p names name
  · rw [hloc]
    rcases hno with hno | hno
    · rw [if_neg hno]
    · rw [fileNames_of_ne ht (by simp [hno]), directoryNames_of_ne ht (by simp [hno])]
      simp

theorem filesUnder_of_ne (ht : t.IsTree) (hbase : t.locate p = .ok base) (hnames : ∀ s ∈ names, IsPlain s)
    (h : t.get? (base ++ names) ≠ some .directory) : ∀ depth, t.filesUnder depth (p.descend names) = []
  | 0 => rfl
  | depth + 1 => by
    rw [filesUnder_succ ht hbase hnames, fileNames_of_ne ht h, directoryNames_of_ne ht h]
    simp

/-- **The files below a directory are the files that stand below it** in directories whose path is not too long. -/
theorem mem_filesUnder (ht : t.IsTree) (hbase : t.locate p = .ok base) {path : Path} : ∀ {depth : Nat} {names : List String},
    (∀ s ∈ names, IsPlain s) → (path ∈ t.filesUnder depth (p.descend names) ↔
      ∃ more name content, path = p.descend (names ++ more ++ [name]) ∧ more.length < depth ∧
        pathFault? (p.descend (names ++ more)) = none ∧ t.get? (base ++ (names ++ more ++ [name])) = some (.file content))
  | 0, names, _ => by simp [filesUnder]
  | depth + 1, names, hnames => by
    have hnext : ∀ name, t.get? (base ++ (names ++ [name])) = some .directory → ∀ s ∈ names ++ [name], IsPlain s :=
      fun name hget s hs => (ht.isName_of_get? hget s (List.mem_append_right _ hs)).toIsPlain
    rw [filesUnder_succ ht hbase hnames]
    constructor
    · intro h
      split at h
      · rename_i hfault
        rcases List.mem_append.1 h with h | h
        · obtain ⟨name, hname, rfl⟩ := List.mem_map.1 h
          obtain ⟨content, hget⟩ := (mem_fileNames ht).1 hname
          exact ⟨[], name, content, by simp, by simp, by simpa using hfault, by simpa using hget⟩
        · obtain ⟨first, hfirst, h⟩ := List.mem_flatMap.1 h
          have hdir : t.get? (base ++ (names ++ [first])) = some .directory := by
            simpa using (mem_directoryNames ht).1 hfirst
          obtain ⟨more, name, content, rfl, hlen, hfault', hget⟩ := (mem_filesUnder ht hbase (hnext first hdir)).1 h
          exact ⟨first :: more, name, content, by simp, by simpa using hlen, by simpa using hfault', by simpa using hget⟩
      · cases h
    · rintro ⟨more, name, content, rfl, hlen, hfault, hget⟩
      have hfault' : pathFault? (p.descend names) = none := by
        rw [← Path.descend_descend] at hfault
        exact pathFault?_of_descend hfault
      rw [if_pos hfault', List.mem_append]
      cases more with
      | nil =>
        left
        rw [List.append_nil] at hget ⊢
        exact List.mem_map.2 ⟨name, (mem_fileNames ht).2 ⟨content, by simpa using hget⟩, rfl⟩
      | cons first more =>
        right
        have hdir : t.get? (base ++ (names ++ [first])) = some .directory :=
          ht.directory_of_append (b := more ++ [name]) (by simp) (by simpa using hget)
        refine List.mem_flatMap.2 ⟨first, (mem_directoryNames ht).2 (by simpa using hdir), ?_⟩
        rw [mem_filesUnder ht hbase (hnext first hdir)]
        exact ⟨more, name, content, by simp, by simpa using hlen, by simpa using hfault, by simpa using hget⟩

end

theorem length_lt_depth (hne : loc ≠ []) {node : FileNode} (h : t.get? loc = some node) : loc.length < t.depth := by
  have hmem : loc.length ∈ t.entries.map (·.1.length) := List.mem_map_of_mem (mem_entries_of_get? hne h)
  obtain ⟨longest, hlongest⟩ := Option.isSome_iff_exists.1 (List.isSome_max?_of_mem hmem)
  have hle := (List.max?_eq_some_iff.1 hlongest).2 _ hmem
  unfold depth
  rw [List.foldl_max, hlongest, Option.getD_some]
  omega

end FileTree
end ReactSite
