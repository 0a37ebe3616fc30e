import Mathlib.Data.List.Nodup
import ReactSite.Link
/-!
# Binding — the identifiers of a page are free when they are bound

A name that is taken gets a number.  Different numbers make different names, so among one more candidate than there are
taken names one is free (`freshName_notMem`).  Every identifier a page binds consists of letters, digits and underscores
(`isIdentifier_freshName`), which is what keeps the statements of a page apart.
-/
namespace ReactSite
namespace Naming

/-- **A name that code can use**: letters, digits and underscores, and at least one of them. -/
structure IsIdentifier (s : String) : Prop where
  ne_nil : s.toList ≠ []
  mem : ∀ c ∈ s.toList, isWordChar c = true ∨ c = '_'

theorem IsIdentifier.notMem {s : String} (h : IsIdentifier s) {c : Char} (hw : isWordChar c = false) (hc : c ≠ '_') :
    c ∉ s.toList := by
  intro hm
  rcases h.mem c hm with hword | hunder
  · rw [hw] at hword
    cases hword
  · exact hc hunder

theorem isWordChar_or_underscore (c : Char) : isWordChar (identifierChar c) = true ∨ identifierChar c = '_' := by
  unfold identifierChar
  split
  · rename_i h; exact .inl h
  · exact .inr rfl

theorem identifierList_ne_nil (s : List Char) : identifierList s ≠ [] := by
  unfold identifierList
  split
  · exact List.cons_ne_nil _ _
  · split <;> exact List.cons_ne_nil _ _

theorem mem_identifierList {s : List Char} {c : Char} (h : c ∈ identifierList s) : isWordChar c = true ∨ c = '_' := by
  have hmap : ∀ c ∈ s.map identifierChar, isWordChar c = true ∨ c = '_' := by
    intro c hc
    obtain ⟨d, -, rfl⟩ := List.mem_map.1 hc
    exact isWordChar_or_underscore d
  unfold identifierList at h
  split at h
  · exact .inr (List.mem_singleton.1 h)
  · rename_i d rest hd
    rw [hd] at hmap
    split at h
    · rcases List.mem_cons.1 h with h | h
      · exact .inr h
      · exact hmap c h
    · exact hmap c h

theorem isIdentifier_identifier (s : String) : IsIdentifier (identifier s) where
  ne_nil := by rw [identifier, String.toList_ofList]; exact identifierList_ne_nil _
  mem c h := by rw [identifier, String.toList_ofList] at h; exact mem_identifierList h

end Naming

namespace Imports

open Naming (IsIdentifier)

theorem toList_suffixed (name : String) (k : Nat) : (suffixed name k).toList = name.toList ++ '_' :: Nat.toDigits 10 k := by
  rw [suffixed, String.toList_append, String.toList_append, List.append_assoc]
  congr 1
  rw [show (toString k).toList = Nat.toDigits 10 k from Nat.toList_repr]
  rfl

/-- **Different numbers make different names.** -/
theorem suffixed_injective (name : String) {j k : Nat} (h : suffixed name j = suffixed name k) : j = k := by
  have hl := congrArg String.toList h
  rw [toList_suffixed, toList_suffixed, List.append_cancel_left_eq, List.cons.injEq] at hl
  have hd := congrArg (fun cs => Nat.ofDigitChars 10 cs 0) hl.2
  simpa only [Nat.ofDigitChars_toDigits (show 1 < 10 by decide) (Nat.le_refl 10)] using hd

theorem nodup_candidates (name : String) (n : Nat) : ((List.range' 2 n).map (suffixed name)).Nodup :=
  List.Nodup.map (fun _ _ => suffixed_injective name) List.nodup_range'

theorem exists_free (taken : List String) (name : String) :
    ∃ s ∈ (List.range' 2 (taken.length + 1)).map (suffixed name), s ∉ taken := by
  by_contra hall
  have hsub : (List.range' 2 (taken.length + 1)).map (suffixed name) ⊆ taken := by
    intro s hs
    by_contra hn
    exact hall ⟨s, hs, hn⟩
  have hlen := (nodup_candidates name (taken.length + 1)).length_le_of_subset hsub
  rw [List.length_map, List.length_range'] at hlen
  omega

/-- **The name that is bound**: the name itself when it is free, and otherwise a free one with a number. -/
theorem freshName_cases (taken : List String) (name : String) :
    (name ∉ taken ∧ freshName taken name = name) ∨
      (name ∈ taken ∧ freshName taken name ∉ taken ∧ ∃ k, freshName taken name = suffixed name k) := by
  by_cases h : name ∈ taken
  · refine .inr ⟨h, ?_⟩
    rw [freshName, if_neg (by simpa using h)]
    cases hf : ((List.range' 2 (taken.length + 1)).map (suffixed name)).find? (!taken.contains ·) with
    | none =>
      obtain ⟨s, hs, hfree⟩ := exists_free taken name
      exact absurd (List.find?_eq_none.1 hf s hs) (by simpa using hfree)
    | some s =>
      obtain ⟨k, -, hk⟩ := List.mem_map.1 (List.mem_of_find?_eq_some hf)
      exact ⟨by simpa using List.find?_some hf, k, hk.symm⟩
  · exact .inl ⟨h, by rw [freshName, if_pos (by simpa using h)]⟩

theorem freshName_notMem (taken : List String) (name : String) : freshName taken name ∉ taken := by
  rcases freshName_cases taken name with ⟨h, e⟩ | ⟨-, h, -⟩
  · rwa [e]
  · exact h

theorem isIdentifier_suffixed {name : String} (h : IsIdentifier name) (k : Nat) : IsIdentifier (suffixed name k) where
  ne_nil := by rw [toList_suffixed]; simp
  mem c hc := by
    rw [toList_suffixed, List.mem_append, List.mem_cons] at hc
    rcases hc with hc | hc | hc
    · exact h.mem c hc
    · exact .inr hc
    · have hdigit := Nat.isDigit_of_mem_toDigits (by decide) (by decide) hc
      exact .inl (by rw [Naming.isWordChar, hdigit, Bool.or_true])

theorem isIdentifier_freshName {name : String} (h : IsIdentifier name) (taken : List String) :
    IsIdentifier (freshName taken name) := by
  rcases freshName_cases taken name with ⟨-, e⟩ | ⟨-, -, k, e⟩
  · rwa [e]
  · rw [e]; exact isIdentifier_suffixed h k

end Imports
end ReactSite
