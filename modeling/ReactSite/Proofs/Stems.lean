import Mathlib.Data.List.TakeWhile
import ReactSite.Path.Basic
/-!
# Stems — two ways to cut off a suffix

A link's target loses its extension as a text, a document's name loses its suffix as a component.  For a name that does
not end in a dot, and of which more than dots stays, both leave the same (`dropExtension_eq_stem`).
-/
namespace ReactSite
namespace Lexical

/-! ## The last place a character stands -/

theorem split_at_last {c : Char} {s : List Char} (h : c ∈ s) : ∃ a b, s = a ++ c :: b ∧ c ∉ b := by
  obtain ⟨a, b, hs, ha⟩ := List.eq_append_cons_of_mem (List.mem_reverse.2 h)
  refine ⟨b.reverse, a.reverse, ?_, by simpa using ha⟩
  rw [← List.reverse_reverse s, hs]
  simp

section

variable {c : Char} {b : List Char}

theorem takeWhile_ne_self (h : c ∉ b) : b.takeWhile (· ≠ c) = b := by
  rw [List.takeWhile_eq_self_iff]
  intro x hx
  have hne : x ≠ c := fun e => h (e ▸ hx)
  simpa using hne

theorem dropWhile_ne_nil (h : c ∉ b) : b.dropWhile (· ≠ c) = [] := by
  rw [List.dropWhile_eq_nil_iff]
  intro x hx
  have hne : x ≠ c := fun e => h (e ▸ hx)
  simpa using hne

theorem after_last (a : List Char) (h : c ∉ b) : ((a ++ c :: b).reverse.takeWhile (· ≠ c)).reverse = b := by
  have hb : c ∉ b.reverse := by simpa using h
  rw [List.reverse_append, List.reverse_cons, List.append_assoc, List.takeWhile_append, takeWhile_ne_self hb]
  simp

theorem upto_last (a : List Char) (h : c ∉ b) : (a ++ c :: b).reverse.dropWhile (· ≠ c) = c :: a.reverse := by
  have hb : c ∉ b.reverse := by simpa using h
  rw [List.reverse_append, List.reverse_cons, List.append_assoc, List.dropWhile_append, dropWhile_ne_nil hb]
  simp

theorem after_none (h : c ∉ b) : (b.reverse.takeWhile (· ≠ c)).reverse = b := by
  have hb : c ∉ b.reverse := by simpa using h
  rw [takeWhile_ne_self hb, List.reverse_reverse]

theorem upto_none (h : c ∉ b) : b.reverse.dropWhile (· ≠ c) = [] := by
  have hb : c ∉ b.reverse := by simpa using h
  exact dropWhile_ne_nil hb

end

/-! ## The last component -/

theorem splitLast_of_notMem {s : List Char} (h : '/' ∉ s) : splitLast s = ([], s) := by
  unfold splitLast
  simp only [upto_none h, after_none h]
  simp

theorem splitLast_append {dir s : List Char} (hne : dir ≠ []) (hdir : dir.getLast? ≠ some '/') (h : '/' ∉ s) :
    splitLast (dir ++ '/' :: s) = (dir, s) := by
  obtain ⟨init, last, rfl⟩ := List.eq_nil_or_concat dir |>.resolve_left hne
  have hlast : last ≠ '/' := by simpa using hdir
  unfold splitLast
  simp only [upto_last _ h, after_last _ h]
  simp [hlast]

theorem dropExtension_append (dir : List Char) {s : List Char} (h : '/' ∉ s) :
    dropExtension (dir ++ '/' :: s) = dir ++ '/' :: dropExtension s := by
  unfold dropExtension
  simp only [upto_last _ h, after_last _ h, upto_none h, after_none h]
  split <;> simp

end Lexical

namespace Path

open Lexical (dropExtension split_at_last after_last upto_last after_none upto_none)

theorem stemAndSuffix_append {a b : List Char} (h : '.' ∉ b) :
    stemAndSuffix (a ++ '.' :: b) = if a = [] ∨ b = [] then (a ++ '.' :: b, []) else (a, '.' :: b) := by
  unfold stemAndSuffix
  simp only [upto_last _ h, after_last _ h]
  simp

theorem stemAndSuffix_of_notMem {s : List Char} (h : '.' ∉ s) : stemAndSuffix s = (s, []) := by
  unfold stemAndSuffix
  simp [h]

/-- **Both ways leave the same** of a name that does not end in a dot and of which more than dots stays. -/
theorem dropExtension_eq_stem {s : List Char} (hslash : '/' ∉ s) (hend : s.getLast? ≠ some '.')
    (hstem : ∃ c ∈ (stemAndSuffix s).1, c ≠ '.') : dropExtension s = (stemAndSuffix s).1 := by
  have hcut : s = s.takeWhile (· = '.') ++ s.dropWhile (· = '.') := List.takeWhile_append_dropWhile.symm
  have hdots : ∀ c ∈ s.takeWhile (· = '.'), c = '.' := fun c hc => by simpa using List.mem_takeWhile_imp hc
  have hfirst : ∀ c rest, s.dropWhile (· = '.') = c :: rest → c ≠ '.' := by
    intro c rest h
    have := List.head?_dropWhile_not (· = '.') s
    rw [h] at this
    simpa using this
  unfold dropExtension
  simp only [upto_none hslash, after_none hslash]
  generalize hd : s.takeWhile (· = '.') = dots at *
  generalize hb : s.dropWhile (· = '.') = body at *
  by_cases hdot : '.' ∈ body
  · obtain ⟨a, b, rfl, hnot⟩ := split_at_last hdot
    have ha : a ≠ [] := by
      rintro rfl
      exact hfirst '.' b rfl rfl
    have hbne : b ≠ [] := by
      rintro rfl
      apply hend
      rw [hcut]
      simp
    rw [if_pos hdot, hcut, ← List.append_assoc, stemAndSuffix_append hnot, if_neg (by simp [ha, hbne]), upto_last _ hnot]
    simp
  · rw [if_neg hdot]
    by_cases hnone : dots = []
    · rw [hnone, List.nil_append] at hcut
      rw [hcut, stemAndSuffix_of_notMem hdot]
    · obtain ⟨init, last, rfl⟩ := List.eq_nil_or_concat dots |>.resolve_left hnone
      have hlast : last = '.' := hdots last (by simp)
      rw [hlast, List.concat_eq_append, List.append_assoc, List.singleton_append] at hcut
      rw [hcut, stemAndSuffix_append hdot] at hstem ⊢
      split at hstem
      · rename_i hcase
        rw [if_pos hcase]
      · obtain ⟨c, hc, hne⟩ := hstem
        exact absurd (hdots c (by simp [hc])) hne

theorem mem_of_mem_stem {s : List Char} {c : Char} (h : c ∈ (stemAndSuffix s).1) : c ∈ s := by
  by_cases hdot : '.' ∈ s
  · obtain ⟨a, b, rfl, hnot⟩ := split_at_last hdot
    rw [stemAndSuffix_append hnot] at h
    split at h
    · exact h
    · exact List.mem_append_left _ h
  · rwa [stemAndSuffix_of_notMem hdot] at h

end Path
end ReactSite
