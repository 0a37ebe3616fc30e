import Mathlib.Data.List.Induction
import ReactSite.Proofs.Spelling
import ReactSite.Files.Tree
/-!
# Places — a file tree as a map from places to entries

What an operation does to a tree is said by what stands at each place afterwards (`get?_put`, `get?_erase`).  A tree is
in order (`IsTree`) when no place has two entries, every entry stands in a directory and every name is one that a
directory can hold; putting and taking away keep it so.
-/
namespace ReactSite
namespace FileTree

variable {t : FileTree} {loc l : Location} {node : FileNode}

@[simp] theorem get?_root (t : FileTree) : t.get? [] = some .directory := by
  simp [get?]

theorem ne_nil_of_not_directory (h : t.get? loc ≠ some .directory) : loc ≠ [] := by
  rintro rfl
  exact h (get?_root t)

theorem get?_of_ne_nil (h : l ≠ []) : t.get? l = t.entries.lookup l := by
  simp [get?, h]

theorem lookup_append_new {entries : List (Location × FileNode)} (h : ∀ e ∈ entries, e.1 ≠ loc) :
    (entries ++ [(loc, node)]).lookup l = if l = loc then some node else entries.lookup l := by
  rw [List.lookup_append]
  by_cases hl : l = loc
  · subst hl
    have hnone : entries.lookup l = none := by
      rw [List.lookup_eq_none_iff]
      intro e he
      simpa using fun e' => h e he e'.symm
    simp [hnone]
  · have hbeq : (l == loc) = false := by simpa using hl
    simp [hl, List.lookup_cons, hbeq]

theorem lookup_map_replaced : ∀ {entries : List (Location × FileNode)}, (∃ e ∈ entries, e.1 = loc) →
    (entries.map fun e => if e.1 = loc then (loc, node) else e).lookup l = if l = loc then some node else entries.lookup l
  | [], h => by simp at h
  | e :: entries, h => by
    rw [List.map_cons]
    by_cases he : e.1 = loc
    · rw [if_pos he, List.lookup_cons]
      by_cases hl : l = loc
      · simp [hl]
      · have hbeq : (l == loc) = false := by simpa using hl
        have hbeq' : (l == e.1) = false := by simpa [he] using hl
        rw [hbeq, if_neg hl, List.lookup_cons, hbeq']
        by_cases hmore : ∃ e ∈ entries, e.1 = loc
        · rw [lookup_map_replaced hmore, if_neg hl]
        · have hid : (entries.map fun e => if e.1 = loc then (loc, node) else e) = entries := by
            refine (List.map_congr_left fun e he => if_neg fun h => hmore ⟨e, he, h⟩).trans ?_
            simp
          rw [hid]
    · have hmore : ∃ e ∈ entries, e.1 = loc := by
        obtain ⟨e', he', h'⟩ := h
        rcases List.mem_cons.1 he' with rfl | he'
        · exact absurd h' he
        · exact ⟨e', he', h'⟩
      rw [if_neg he, List.lookup_cons, List.lookup_cons, lookup_map_replaced hmore]
      by_cases hl : l = loc
      · have hbeq : (l == e.1) = false := by simpa [hl] using fun h => he h.symm
        rw [hbeq]
      · rw [if_neg hl, if_neg hl]

/-- **What stands where after an entry was put.** -/
theorem get?_put (h : l ≠ []) : (t.put loc node).get? l = if l = loc then some node else t.get? l := by
  rw [get?_of_ne_nil h, get?_of_ne_nil h]
  unfold put
  by_cases hmem : ∃ e ∈ t.entries, e.1 = loc
  · rw [if_pos (by simpa using hmem)]
    exact lookup_map_replaced hmem
  · rw [if_neg (by simpa using hmem)]
    exact lookup_append_new fun e he hloc => hmem ⟨e, he, hloc⟩

theorem get?_put_self (h : loc ≠ []) : (t.put loc node).get? loc = some node := by
  rw [get?_put h, if_pos rfl]

theorem get?_put_of_ne (h : l ≠ loc) : (t.put loc node).get? l = t.get? l := by
  by_cases hl : l = []
  · rw [hl, get?_root, get?_root]
  · rw [get?_put hl, if_neg h]

@[simp] theorem current_put : (t.put loc node).current = t.current := by
  unfold put
  split <;> rfl

theorem isPrefixOf_eq_false {a b : Location} (h : ¬ a <+: b) : a.isPrefixOf b = false := by
  rwa [Bool.eq_false_iff, ne_eq, List.isPrefixOf_iff_prefix]

@[simp] theorem locked_put : (t.put loc node).locked = t.locked := by
  unfold put
  split <;> rfl

/-- The entries at the places that `q` holds of. -/
def keep (t : FileTree) (q : Location → Bool) : FileTree :=
  { t with entries := t.entries.filter fun e => q e.1, locked := t.locked.filter q }

theorem erase_eq_keep (t : FileTree) (loc : Location) : t.erase loc = t.keep fun l => !loc.isPrefixOf l := rfl

theorem lookup_filter (q : Location → Bool) : ∀ (entries : List (Location × FileNode)),
    (entries.filter fun e => q e.1).lookup l = if q l = true then entries.lookup l else none
  | [] => by simp
  | e :: entries => by
    have hrest := lookup_filter q entries
    rw [List.filter_cons, List.lookup_cons]
    by_cases hl : l = e.1
    · subst hl
      have hbeq : (e.1 == e.1) = true := beq_self_eq_true e.1
      cases hq : q e.1
      · rw [hq] at hrest
        simpa using hrest
      · rw [if_pos rfl, if_pos rfl, List.lookup_cons, hbeq]
    · have hbeq : (l == e.1) = false := by simpa using hl
      rw [hbeq]
      split
      · rw [List.lookup_cons, hbeq, hrest]
      · rw [hrest]

theorem get?_keep {q : Location → Bool} (h : l ≠ []) : (t.keep q).get? l = if q l = true then t.get? l else none := by
  rw [get?_of_ne_nil h, get?_of_ne_nil h]
  exact lookup_filter q t.entries

/-- **What stands where after an entry was taken away.** -/
theorem get?_erase (h : l ≠ []) : (t.erase loc).get? l = if loc <+: l then none else t.get? l := by
  rw [erase_eq_keep, get?_keep h]
  by_cases hpre : loc <+: l
  · rw [List.isPrefixOf_iff_prefix.2 hpre, if_pos hpre]
    rfl
  · rw [isPrefixOf_eq_false hpre, if_neg hpre]
    rfl

@[simp] theorem current_erase : (t.erase loc).current = t.current := rfl

theorem mem_locked_of_erase (h : l ∈ (t.erase loc).locked) : l ∈ t.locked := (List.mem_filter.1 h).1

@[simp] theorem get?_lock : (t.lock loc).get? l = t.get? l := rfl

@[simp] theorem current_lock : (t.lock loc).current = t.current := rfl

theorem mem_entries_of_get? (h : l ≠ []) (hget : t.get? l = some node) : (l, node) ∈ t.entries := by
  rw [get?_of_ne_nil h, List.lookup_eq_some_iff] at hget
  obtain ⟨before, after, hsplit, -⟩ := hget
  rw [hsplit]
  exact List.mem_append_right _ List.mem_cons_self

/-! ## Trees in order -/

/-- **A plain name** leads down, and a path spells it as it is. -/
structure IsPlain (s : String) : Prop where
  kept : Path.isKept s = true
  slash_notMem : '/' ∉ s.toList
  ne_parent : s ≠ ".."

/-- **A name that a directory can hold.** -/
structure IsName (s : String) : Prop extends IsPlain s where
  nul_notMem : '\x00' ∉ s.toList
  size_le : s.utf8ByteSize ≤ maxNameBytes

instance (s : String) : Decidable (IsPlain s) :=
  decidable_of_iff (Path.isKept s = true ∧ '/' ∉ s.toList ∧ s ≠ "..")
    ⟨fun ⟨h₁, h₂, h₃⟩ => ⟨h₁, h₂, h₃⟩, fun ⟨h₁, h₂, h₃⟩ => ⟨h₁, h₂, h₃⟩⟩

instance (s : String) : Decidable (IsName s) :=
  decidable_of_iff (IsPlain s ∧ '\x00' ∉ s.toList ∧ s.utf8ByteSize ≤ maxNameBytes)
    ⟨fun ⟨h₁, h₂, h₃⟩ => ⟨h₁, h₂, h₃⟩, fun ⟨h₁, h₂, h₃⟩ => ⟨h₁, h₂, h₃⟩⟩

theorem IsPlain.ne_empty {s : String} (h : IsPlain s) : s ≠ "" := by
  rintro rfl
  exact absurd h.kept (by decide)

/-- **A file tree in order.** -/
structure IsTree (t : FileTree) : Prop where
  nodup : (t.entries.map (·.1)).Nodup
  parent : ∀ e ∈ t.entries, e.1 ≠ [] ∧ t.get? e.1.dropLast = some .directory
  names : ∀ e ∈ t.entries, ∀ s ∈ e.1, IsName s
  current : t.get? t.current = some .directory
  locked : ∀ l ∈ t.locked, ∃ bytes, t.get? l = some (.file bytes)

/-- Whether a file is there can be read off the entry. -/
instance : (node : Option FileNode) → Decidable (∃ bytes, node = some (.file bytes))
  | some (.file bytes) => .isTrue ⟨bytes, rfl⟩
  | some .directory    => .isFalse (by simp)
  | none               => .isFalse (by simp)

instance (t : FileTree) : Decidable t.IsTree :=
  decidable_of_iff ((t.entries.map (·.1)).Nodup ∧ (∀ e ∈ t.entries, e.1 ≠ [] ∧ t.get? e.1.dropLast = some .directory) ∧
      (∀ e ∈ t.entries, ∀ s ∈ e.1, IsName s) ∧ t.get? t.current = some .directory ∧
      ∀ l ∈ t.locked, ∃ bytes, t.get? l = some (.file bytes))
    ⟨fun ⟨h₁, h₂, h₃, h₄, h₅⟩ => ⟨h₁, h₂, h₃, h₄, h₅⟩, fun ⟨h₁, h₂, h₃, h₄, h₅⟩ => ⟨h₁, h₂, h₃, h₄, h₅⟩⟩

theorem exists_of_mem_put {e : Location × FileNode} (h : e ∈ (t.put loc node).entries) : e = (loc, node) ∨ e ∈ t.entries := by
  unfold put at h
  split at h
  · obtain ⟨e', he', rfl⟩ := List.mem_map.1 h
    split
    · exact .inl rfl
    · exact .inr he'
  · rcases List.mem_append.1 h with h | h
    · exact .inr h
    · exact .inl (List.mem_singleton.1 h)

theorem nodup_put (h : (t.entries.map (·.1)).Nodup) : ((t.put loc node).entries.map (·.1)).Nodup := by
  unfold put
  by_cases hmem : t.entries.any (·.1 = loc) = true
  · rw [if_pos hmem, List.map_map]
    have hsame : ((·.1) ∘ fun e : Location × FileNode => if e.1 = loc then (loc, node) else e) = (·.1) := by
      funext e
      by_cases he : e.1 = loc <;> simp [he]
    rw [hsame]
    exact h
  · rw [if_neg hmem, List.map_append, List.nodup_append]
    refine ⟨h, by simp, ?_⟩
    intro a ha b hb hab
    obtain ⟨e, he, rfl⟩ := List.mem_map.1 ha
    refine hmem (List.any_eq_true.2 ⟨e, he, ?_⟩)
    simpa [hab] using hb

namespace IsTree

theorem get?_of_mem (ht : t.IsTree) (h : (l, node) ∈ t.entries) : t.get? l = some node := by
  have hl : l ≠ [] := (ht.parent _ h).1
  obtain ⟨before, after, hsplit⟩ := List.append_of_mem h
  rw [get?_of_ne_nil hl, List.lookup_eq_some_iff]
  refine ⟨before, after, hsplit, ?_⟩
  intro e he
  have hnodup := ht.nodup
  rw [hsplit, List.map_append, List.nodup_append] at hnodup
  have hne := hnodup.2.2 e.1 (List.mem_map_of_mem he) l (by simp)
  simpa using fun h' => hne h'.symm

/-- **What stands at a place stands in directories all the way.** -/
theorem directory_of_append (ht : t.IsTree) {a b : Location} (hb : b ≠ []) (h : t.get? (a ++ b) = some node) :
    t.get? a = some .directory := by
  induction b using List.reverseRecOn generalizing node with
  | nil => exact absurd rfl hb
  | append_singleton init last ih =>
    have hne : a ++ (init ++ [last]) ≠ [] := by simp
    have hparent := (ht.parent _ (mem_entries_of_get? hne h)).2
    rw [← List.append_assoc, List.dropLast_concat] at hparent
    by_cases hinit : init = []
    · rwa [hinit, List.append_nil] at hparent
    · exact ih hinit hparent

theorem directory_of_prefix (ht : t.IsTree) (hpre : loc <+: l) (hne : loc ≠ l) (h : t.get? l = some node) :
    t.get? loc = some .directory := by
  obtain ⟨rest, rfl⟩ := hpre
  exact ht.directory_of_append (fun e => hne (by rw [e, List.append_nil])) h

theorem isName_of_get? (ht : t.IsTree) (h : t.get? l = some node) : ∀ s ∈ l, IsName s := by
  by_cases hl : l = []
  · rw [hl]
    simp
  · exact ht.names _ (mem_entries_of_get? hl h)

theorem names_of_file (ht : t.IsTree) (hdir : t.get? loc = some .directory) {names : List String} {content : List UInt8}
    (h : t.get? (loc ++ names) = some (.file content)) : names ≠ [] ∧ ∀ s ∈ names, IsName s := by
  refine ⟨?_, fun s hs => ht.isName_of_get? h s (List.mem_append_right _ hs)⟩
  rintro rfl
  rw [List.append_nil, hdir] at h
  cases h

/-- **Putting an entry into a directory** keeps a tree in order, unless it replaces a directory or a directory replaces it. -/
theorem put (ht : t.IsTree) {dir : Location} {name : String} (hdir : t.get? dir = some .directory) (hname : IsName name)
    (hold : t.get? (dir ++ [name]) ≠ some .directory)
    (hnew : (∃ bytes, node = .file bytes) ∨ t.get? (dir ++ [name]) = none) : (t.put (dir ++ [name]) node).IsTree where
  nodup := nodup_put ht.nodup
  parent := by
    intro e he
    have hkeep : ∀ l, t.get? l = some .directory → (t.put (dir ++ [name]) node).get? l = some .directory := by
      intro l hl
      have hne : l ≠ dir ++ [name] := fun h => hold (by rw [← h, hl])
      rw [get?_put_of_ne hne, hl]
    rcases exists_of_mem_put he with rfl | he
    · refine ⟨by simp, ?_⟩
      rw [List.dropLast_concat]
      exact hkeep dir hdir
    · exact ⟨(ht.parent e he).1, hkeep _ (ht.parent e he).2⟩
  names := by
    intro e he s hs
    rcases exists_of_mem_put he with rfl | he
    · rcases List.mem_append.1 hs with hs | hs
      · exact ht.isName_of_get? hdir s hs
      · rw [List.mem_singleton.1 hs]
        exact hname
    · exact ht.names e he s hs
  current := by
    have hne : t.current ≠ dir ++ [name] := fun h => hold (by rw [← h, ht.current])
    rw [current_put, get?_put_of_ne hne, ht.current]
  locked := by
    intro l hl
    rw [locked_put] at hl
    obtain ⟨bytes, hfile⟩ := ht.locked l hl
    by_cases heq : l = dir ++ [name]
    · subst heq
      rcases hnew with ⟨bytes', rfl⟩ | hnone
      · exact ⟨bytes', get?_put_self (by simp)⟩
      · rw [hnone] at hfile
        cases hfile
    · exact ⟨bytes, by rw [get?_put_of_ne heq, hfile]⟩

theorem lock (ht : t.IsTree) {bytes : List UInt8} (hfile : t.get? loc = some (.file bytes)) : (t.lock loc).IsTree where
  nodup := ht.nodup
  parent := ht.parent
  names := ht.names
  current := ht.current
  locked := List.forall_mem_cons.2 ⟨⟨bytes, hfile⟩, ht.locked⟩

theorem keep (ht : t.IsTree) {q : Location → Bool} (hq : ∀ l, q l = true → q l.dropLast = true)
    (hcurrent : q t.current = true) : (t.keep q).IsTree where
  nodup := (ht.nodup).sublist (List.Sublist.map _ List.filter_sublist)
  parent := by
    intro e he
    obtain ⟨he, hkept⟩ := List.mem_filter.1 he
    obtain ⟨hne, hdir⟩ := ht.parent e he
    refine ⟨hne, ?_⟩
    by_cases hnil : e.1.dropLast = []
    · rw [hnil, get?_root]
    · rw [get?_keep hnil, if_pos (hq e.1 hkept), hdir]
  names := fun e he => ht.names e (List.mem_filter.1 he).1
  current := by
    show (t.keep q).get? t.current = some .directory
    by_cases hnil : t.current = []
    · rw [hnil, get?_root]
    · rw [get?_keep hnil, if_pos hcurrent, ht.current]
  locked := by
    intro l hl
    obtain ⟨hl, hkept⟩ := List.mem_filter.1 hl
    obtain ⟨bytes, hfile⟩ := ht.locked l hl
    have hnil : l ≠ [] := ne_nil_of_not_directory (by rw [hfile]; simp : t.get? l ≠ some .directory)
    exact ⟨bytes, by rw [get?_keep hnil, if_pos hkept, hfile]⟩

theorem erase (ht : t.IsTree) (hcurrent : ¬ loc <+: t.current) : (t.erase loc).IsTree := by
  rw [erase_eq_keep]
  refine ht.keep (fun l hl => ?_) (by rw [isPrefixOf_eq_false hcurrent]; rfl)
  rw [Bool.not_eq_true', ← Bool.not_eq_true, List.isPrefixOf_iff_prefix] at hl ⊢
  exact fun hpre => hl (hpre.trans (List.dropLast_prefix l))

/-- **What is left when a file was taken away.** -/
theorem get?_erase_file (ht : t.IsTree) {content : List UInt8} (hfile : t.get? loc = some (.file content)) :
    (t.erase loc).get? l = if l = loc then none else t.get? l := by
  by_cases hnil : l = []
  · have hne : l ≠ loc := by
      rintro rfl
      rw [hnil, get?_root] at hfile
      cases hfile
    rw [if_neg hne, hnil, get?_root, get?_root]
  · rw [get?_erase hnil]
    by_cases heq : l = loc
    · rw [if_pos heq, heq, if_pos List.prefix_rfl]
    · rw [if_neg heq]
      split
      · rename_i hpre
        -- nothing stands below a file
        cases hget : t.get? l with
        | none => rfl
        | some node =>
          rw [ht.directory_of_prefix hpre (Ne.symm heq) hget] at hfile
          cases hfile
      · rfl

theorem get?_of_erase_file (ht : t.IsTree) {content : List UInt8} (hfile : t.get? loc = some (.file content))
    (hget : (t.erase loc).get? l = some node) : t.get? l = some node := by
  rw [ht.get?_erase_file hfile] at hget
  split at hget
  · cases hget
  · exact hget

theorem erase_file (ht : t.IsTree) {content : List UInt8} (hfile : t.get? loc = some (.file content)) :
    (t.erase loc).IsTree := by
  refine ht.erase fun hpre => ?_
  by_cases heq : loc = t.current
  · rw [heq, ht.current] at hfile
    cases hfile
  · rw [ht.directory_of_prefix hpre heq ht.current] at hfile
    cases hfile

end IsTree

end FileTree
end ReactSite
