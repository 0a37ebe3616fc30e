import ReactSite.Files.Tree
/-!
# Lookup — what is there on the way to a file

A path is looked up component by component, and every component but the last is a directory.  So where a file is found,
the directory it stands in is found as well (`isDirectory_of_isFile_child`).
-/
namespace ReactSite
namespace FileTree

theorem directory_of_follow {t : FileTree} {part : String} {loc : Location} : ∀ {parts : List String} {start : Location},
    t.follow start (parts ++ [part]) = .ok loc →
      ∃ dir, t.follow start parts = .ok dir ∧ t.get? dir = some .directory
  | [], start, h => by
    rw [List.nil_append] at h
    unfold follow at h
    split at h
    · cases h
    · rename_i hdir
      exact ⟨start, rfl, by simpa using hdir⟩
  | p :: parts, start, h => by
    rw [List.cons_append] at h
    unfold follow at h ⊢
    split at h
    · cases h
    · rename_i hdir
      rw [if_neg hdir]
      split at h
      · rename_i hp
        rw [if_pos hp]
        exact directory_of_follow h
      · rename_i hp
        rw [if_neg hp]
        split at h
        · cases h
        · rename_i hlong
          rw [if_neg hlong]
          split at h
          · cases h
          · rename_i hnone
            rw [if_neg hnone]
            exact directory_of_follow h

theorem toString_child {p : Path} (hne : ¬ (p.slashes = 0 ∧ p.parts = [])) (name : String) :
    ∃ rest, (p.child name).toString = p.toString ++ rest := by
  have hchild : ¬ ((p.child name).slashes = 0 ∧ (p.child name).parts = []) := by simp [Path.child]
  unfold Path.toString
  rw [if_neg hne, if_neg hchild]
  unfold Path.child
  cases hparts : p.parts with
  | nil => exact ⟨name, by simp⟩
  | cons s parts =>
    refine ⟨"/" ++ name, ?_⟩
    rw [String.intercalate_append_of_ne_nil (List.cons_ne_nil s parts) (List.cons_ne_nil name []),
      String.intercalate_singleton]
    simp only [String.append_assoc]

theorem pathFault?_of_child {p : Path} {name : String} (h : pathFault? (p.child name) = none) : pathFault? p = none := by
  by_cases hne : p.slashes = 0 ∧ p.parts = []
  · obtain ⟨slashes, parts⟩ := p
    obtain ⟨rfl, rfl⟩ := hne
    decide
  · obtain ⟨rest, hrest⟩ := toString_child hne name
    unfold pathFault? at h ⊢
    rw [hrest] at h
    split at h
    · cases h
    · rename_i hnul
      split at h
      · cases h
      · rename_i hlong
        have hnul' : ¬ p.hasNul = true := by
          intro hp
          apply hnul
          unfold Path.hasNul Path.child at *
          rw [List.any_append, hp]
          rfl
        have hlong' : ¬ maxPathBytes < p.toString.utf8ByteSize := by
          rw [String.utf8ByteSize_append] at hlong
          omega
        rw [if_neg hnul', if_neg hlong']

theorem isFile_iff {t : FileTree} {p : Path} : t.isFile p = true ↔ ∃ content, t.node? p = some (.file content) := by
  unfold isFile
  split
  · rename_i content h
    exact iff_of_true rfl ⟨content, h⟩
  · rename_i h
    refine iff_of_false Bool.false_ne_true ?_
    rintro ⟨content, hc⟩
    exact h content hc

theorem pathExists_of_isFile {t : FileTree} {p : Path} (h : t.isFile p = true) : t.pathExists p = true := by
  obtain ⟨content, hc⟩ := isFile_iff.1 h
  rw [pathExists, hc]
  rfl

theorem isDirectory_of_isFile {t : FileTree} {p : Path} (h : t.isFile p = true) : t.isDirectory p = false := by
  obtain ⟨content, hc⟩ := isFile_iff.1 h
  rw [isDirectory, hc]
  rfl

/-- **A file stands in a directory.** -/
theorem isDirectory_of_isFile_child {t : FileTree} {p : Path} {name : String} (h : t.isFile (p.child name) = true) :
    t.isDirectory p = true := by
  obtain ⟨content, hc⟩ := isFile_iff.1 h
  unfold node? locate at hc
  have hfault : pathFault? (p.child name) = none := by
    cases hf : pathFault? (p.child name) with
    | none => rfl
    | some fault => simp [hf] at hc
  rw [hfault] at hc
  simp only at hc
  split at hc
  · rename_i loc hloc
    obtain ⟨dir, hdir, hget⟩ := directory_of_follow hloc
    have horigin : t.origin (p.child name) = t.origin p := rfl
    rw [horigin] at hdir
    unfold isDirectory node? locate
    rw [pathFault?_of_child hfault]
    simp only [hdir, hget]
    rfl
  · cases hc

end FileTree
end ReactSite
