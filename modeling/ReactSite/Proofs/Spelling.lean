import Mathlib.Data.List.TakeWhile
import ReactSite.Path.Basic
/-!
# Spelling — a path and the text it is written as

Splitting a text at a separator undoes joining its pieces, so a path is read back from its text (`ofString_toString`),
and joining components to a text is appending them to the path it spells (`ofString_foldl_join`); empty components and
`.` add nothing.
-/
namespace ReactSite
namespace Text

section

variable {sep : Char}

theorem splitAt_eq_splitOn (s : List Char) : splitAt sep s = s.splitOn sep := by
  induction s with
  | nil => rfl
  | cons c s ih =>
    obtain ⟨piece, pieces, h⟩ := List.exists_cons_of_ne_nil (List.splitOn_ne_nil sep s)
    unfold splitAt
    rw [ih, h, List.splitOn_cons_eq_if_modifyHead, h]
    by_cases hc : c = sep
    · rw [if_pos hc, if_pos (by simpa using hc)]
    · rw [if_neg hc, if_neg (by simpa using hc)]
      rfl

theorem splitAt_of_notMem {s : List Char} (h : sep ∉ s) : splitAt sep s = [s] := by
  rw [splitAt_eq_splitOn, List.splitOn_eq_singleton h]

theorem splitAt_append_cons (a b : List Char) : splitAt sep (a ++ sep :: b) = splitAt sep a ++ splitAt sep b := by
  rw [splitAt_eq_splitOn, splitAt_eq_splitOn, splitAt_eq_splitOn, List.splitOn_append_cons_self]

theorem splitAt_sep (s : List Char) : splitAt sep (sep :: s) = [] :: splitAt sep s :=
  splitAt_append_cons [] s

theorem notMem_of_mem_splitAt {piece : List Char} : ∀ {s : List Char}, piece ∈ splitAt sep s → sep ∉ piece
  | [], h => by
    rw [List.mem_singleton.1 h]
    exact List.not_mem_nil
  | c :: s, h => by
    rw [splitAt_eq_splitOn, List.splitOn_cons_eq_if_modifyHead, ← splitAt_eq_splitOn] at h
    by_cases hc : c = sep
    · rw [if_pos (by simpa using hc), List.mem_cons] at h
      rcases h with rfl | h
      · exact List.not_mem_nil
      · exact notMem_of_mem_splitAt h
    · rw [if_neg (by simpa using hc)] at h
      have hs : ∀ p ∈ splitAt sep s, sep ∉ p := fun p hp => notMem_of_mem_splitAt hp
      cases hsplit : splitAt sep s with
      | nil => simp [hsplit] at h
      | cons first pieces =>
        rw [hsplit] at h hs
        rcases List.mem_cons.1 h with rfl | h
        · simp [hs first List.mem_cons_self, Ne.symm hc]
        · exact hs piece (List.mem_cons_of_mem _ h)

/-- **A character other than the separator stands in a piece of a text just when it stands in the text.** -/
theorem exists_mem_splitAt {c : Char} (hc : c ≠ sep) : ∀ s : List Char, (∃ piece ∈ splitAt sep s, c ∈ piece) ↔ c ∈ s
  | []     => by simp [splitAt]
  | d :: s => by
    rw [List.mem_cons, ← exists_mem_splitAt hc s, splitAt]
    split
    · rename_i hd
      simp [hd, hc]
    · cases splitAt sep s with
      | nil => simp
      | cons piece pieces => simp [or_assoc]

/-- **Splitting undoes joining.** -/
theorem splitAt_intercalate {pieces : List (List Char)} (hne : pieces ≠ []) (h : ∀ p ∈ pieces, sep ∉ p) :
    splitAt sep ([sep].intercalate pieces) = pieces := by
  rw [splitAt_eq_splitOn, List.splitOn_intercalate sep h hne]

end

end Text

namespace Lexical

theorem rootSlashes_eq (s : List Char) : rootSlashes s =
    if (s.takeWhile (· = '/')).length = 0 then 0 else if (s.takeWhile (· = '/')).length = 2 then 2 else 1 := by
  unfold rootSlashes
  split
  · simp
  · rename_i rest h
    cases rest with
    | nil => simp
    | cons c rest =>
      have hc : c ≠ '/' := fun e => h rest (by rw [e])
      simp [hc]
  · rename_i rest h h'
    cases rest with
    | nil => simp
    | cons c rest =>
      have hc : c ≠ '/' := fun e => h' rest (by rw [e])
      simp [hc]
  · rename_i h h' h''
    cases s with
    | nil => rfl
    | cons c s =>
      have hc : c ≠ '/' := fun e => h'' s (by rw [e])
      simp [hc]

theorem rootSlashes_le (s : List Char) : rootSlashes s ≤ 2 := by
  rw [rootSlashes_eq]
  split
  · omega
  · split <;> omega

theorem takeWhile_of_head {b : List Char} (h : b.head? ≠ some '/') : b.takeWhile (· = '/') = [] := by
  cases b with
  | nil => rfl
  | cons c b =>
    have hc : c ≠ '/' := by simpa using h
    simp [hc]

theorem rootSlashes_replicate_append {n : Nat} (hn : n ≤ 2) {s : List Char} (hs : s.head? ≠ some '/') :
    rootSlashes (List.replicate n '/' ++ s) = n := by
  have hlen : ((List.replicate n '/' ++ s).takeWhile (· = '/')).length = n := by
    rw [List.takeWhile_append_of_pos (by simp), takeWhile_of_head hs, List.append_nil, List.length_replicate]
  rw [rootSlashes_eq, hlen]
  split
  · omega
  · split <;> omega

/-- What stands after a character that is no slash does not count. -/
theorem rootSlashes_append (a : List Char) {b : List Char} (h : b.head? ≠ some '/' ∨ ∃ c ∈ a, c ≠ '/') :
    rootSlashes (a ++ b) = rootSlashes a := by
  have htake : (a ++ b).takeWhile (· = '/') = a.takeWhile (· = '/') := by
    rw [List.takeWhile_append]
    split
    · rename_i hall
      have hself : a.takeWhile (· = '/') = a := (List.takeWhile_prefix _).eq_of_length hall
      rcases h with h | ⟨c, hc, hne⟩
      · rw [takeWhile_of_head h, List.append_nil, hself]
      · exact absurd (by simpa using List.takeWhile_eq_self_iff.1 hself c hc) hne
    · rfl
  rw [rootSlashes_eq, rootSlashes_eq, htake]

theorem head?_ne_of_notMem {s : List Char} (h : '/' ∉ s) : s.head? ≠ some '/' := by
  intro e
  exact h (List.mem_of_mem_head? e)

end Lexical

namespace Path

/-- A component that stays when a path is read. -/
def isKept (part : String) : Bool := part ≠ "" && part ≠ "."

theorem ne_nil_of_kept {s : String} (h : isKept s = true) : s.toList ≠ [] := by
  intro e
  rw [String.toList_eq_nil_iff.1 e] at h
  exact absurd h (by decide)

theorem ofString_eq (s : String) :
    ofString s = ⟨Lexical.rootSlashes s.toList, (Lexical.components s).filter isKept⟩ := rfl

/-- **A path as it comes out of reading a text.** -/
structure IsProper (p : Path) : Prop where
  slashes_le : p.slashes ≤ 2
  kept : ∀ s ∈ p.parts, isKept s = true
  slash_notMem : ∀ s ∈ p.parts, '/' ∉ s.toList

theorem isProper_ofString (s : String) : (ofString s).IsProper where
  slashes_le := Lexical.rootSlashes_le _
  kept := fun part h => (List.mem_filter.1 h).2
  slash_notMem := by
    intro part h
    obtain ⟨piece, hpiece, rfl⟩ := List.mem_map.1 (List.mem_filter.1 h).1
    rw [String.toList_ofList]
    exact Text.notMem_of_mem_splitAt hpiece

theorem toList_intercalate_parts (parts : List String) :
    ("/".intercalate parts).toList = ['/'].intercalate (parts.map String.toList) := by
  have hslash : "/".toList = ['/'] := by decide
  rw [String.toList_intercalate, hslash]

theorem components_intercalate {parts : List String} (hne : parts ≠ []) (h : ∀ s ∈ parts, '/' ∉ s.toList) :
    Lexical.components ("/".intercalate parts) = parts := by
  have hmap : ∀ p ∈ parts.map String.toList, '/' ∉ p := by simpa using h
  rw [Lexical.components, toList_intercalate_parts, Text.splitAt_intercalate (by simpa using hne) hmap, List.map_map]
  simp

theorem filter_kept {parts : List String} (h : ∀ s ∈ parts, isKept s = true) : parts.filter isKept = parts :=
  List.filter_eq_self.2 h

theorem head?_intercalate {parts : List String} (h : ∀ s ∈ parts, isKept s = true) (hs : ∀ s ∈ parts, '/' ∉ s.toList) :
    (['/'].intercalate (parts.map String.toList)).head? ≠ some '/' := by
  cases parts with
  | nil => simp
  | cons s parts =>
    obtain ⟨c, cs, hc⟩ := List.exists_cons_of_ne_nil (ne_nil_of_kept (h s List.mem_cons_self))
    have hslash := hs s List.mem_cons_self
    rw [hc] at hslash
    cases parts <;> simp [List.intercalate, hc] <;> exact fun e => hslash (by simp [e])

theorem splitAt_replicate_append (n : Nat) (s : List Char) :
    Text.splitAt '/' (List.replicate n '/' ++ s) = List.replicate n [] ++ Text.splitAt '/' s := by
  induction n with
  | zero => rfl
  | succ n ih =>
    rw [List.replicate_succ, List.cons_append, Text.splitAt_sep, ih]
    rfl

/-- **A path is read back from its text.** -/
theorem ofString_toString {p : Path} (h : p.IsProper) : ofString p.toString = p := by
  obtain ⟨slashes, parts⟩ := p
  unfold toString
  by_cases hempty : slashes = 0 ∧ parts = []
  · obtain ⟨rfl, rfl⟩ := hempty
    decide
  · rw [if_neg hempty, ofString_eq, String.toList_append, toList_intercalate_parts, String.toList_ofList,
      Lexical.rootSlashes_replicate_append h.slashes_le (head?_intercalate h.kept h.slash_notMem)]
    have hcomponents : ((Text.splitAt '/' (['/'].intercalate (parts.map String.toList))).map String.ofList).filter isKept =
        parts := by
      cases parts with
      | nil => decide
      | cons s rest =>
        have hsplit := components_intercalate (List.cons_ne_nil s rest) h.slash_notMem
        rw [Lexical.components, toList_intercalate_parts] at hsplit
        rw [hsplit, filter_kept h.kept]
    have hempties : ∀ n, ((List.replicate n []).map String.ofList).filter isKept = [] := by
      intro n
      have hnil : isKept (String.ofList []) = false := by decide
      simp [hnil]
    rw [Lexical.components, String.toList_append, toList_intercalate_parts, String.toList_ofList,
      splitAt_replicate_append, List.map_append, List.filter_append, hempties, hcomponents, List.nil_append]

/-! ## Joining -/

theorem ofString_join (s : String) {part : String} (h : '/' ∉ part.toList) :
    ofString (Lexical.join s part) = ⟨(ofString s).slashes, (ofString s).parts ++ [part].filter isKept⟩ := by
  have hhead := Lexical.head?_ne_of_notMem h
  have hpart : Text.splitAt '/' part.toList = [part.toList] := Text.splitAt_of_notMem h
  have hof : String.ofList part.toList = part := by simp
  have hempty : isKept (String.ofList []) = false := by decide
  rw [ofString_eq, ofString_eq, Lexical.components, Lexical.components, Lexical.join, String.toList_ofList,
    Lexical.joinList, if_neg hhead]
  by_cases hs : s.toList = [] ∨ s.toList.getLast? = some '/'
  · rw [if_pos hs, Lexical.rootSlashes_append _ (.inl hhead)]
    rcases hs with hs | hs
    · rw [hs, List.nil_append, hpart]
      simp [Text.splitAt, hempty, hof]
    · obtain ⟨init, hinit⟩ := List.getLast?_eq_some_iff.1 hs
      rw [hinit, List.append_assoc, List.singleton_append, Text.splitAt_append_cons, Text.splitAt_append_cons, hpart]
      simp [Text.splitAt, hempty, hof, List.filter_append]
  · rw [if_neg hs, Text.splitAt_append_cons, hpart]
    rw [not_or] at hs
    have hlast : ∃ c ∈ s.toList, c ≠ '/' := by
      refine ⟨s.toList.getLast hs.1, List.getLast_mem hs.1, fun e => hs.2 ?_⟩
      rw [List.getLast?_eq_some_getLast hs.1, e]
    rw [Lexical.rootSlashes_append _ (.inr hlast), List.map_append, List.filter_append]
    simp [hof]

/-- **Joining components to a text is appending them to the path it spells.** -/
theorem ofString_foldl_join : ∀ {parts : List String} (s : String), (∀ part ∈ parts, '/' ∉ part.toList) →
    ofString (parts.foldl Lexical.join s) = ⟨(ofString s).slashes, (ofString s).parts ++ parts.filter isKept⟩
  | [], s, _ => by simp
  | part :: parts, s, h => by
    have hpart := ofString_join s (h part List.mem_cons_self)
    have hrest := ofString_foldl_join (Lexical.join s part) fun q hq => h q (List.mem_cons_of_mem _ hq)
    rw [List.foldl_cons, hrest, hpart, List.append_assoc, ← List.filter_append]
    rfl

end Path
end ReactSite
