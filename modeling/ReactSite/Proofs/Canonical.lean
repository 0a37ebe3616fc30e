import Mathlib.Logic.Relation
import ReactSite.Proofs.Addresses
import ReactSite.Proofs.Specifiers
/-!
# Canonical — one spelling for each route

What normalising leaves of a path is a stack: steps up, then names (`isStack_iff`).  So a route is `/` or such a row of
components with single slashes between them, and of these each is its own route (`normalize_of_isCanonical`).  A component
that says nothing, and a name followed by a step up, leave the stack as it was; so paths that differ by such components,
or by which separators they have and how many, share their route (`normalize_of_respelled`).
-/
namespace ReactSite

namespace Lexical

/-! ## Stacks -/

/-- **A stack is steps up with names on top of them**; none of either is empty or a dot, and from the root no step leads
up. -/
theorem isStack_iff {rooted : Bool} : ∀ {stack : List (List Char)}, IsStack rooted stack ↔
    (∀ part ∈ stack, part ≠ [] ∧ part ≠ ['.']) ∧
      ∃ names n, stack = names ++ List.replicate n parentPart ∧ parentPart ∉ names ∧ (rooted = true → n = 0)
  | []            => by
    refine ⟨fun _ => ⟨fun part h => absurd h List.not_mem_nil, [], 0, rfl, List.not_mem_nil, fun _ => rfl⟩, fun _ => trivial⟩
  | part :: below => by
    rw [IsStack, isStack_iff, List.forall_mem_cons]
    constructor
    · rintro ⟨hpush, hkept, names, n, rfl, hup, hroot⟩
      have hpart : part ≠ [] ∧ part ≠ ['.'] := by
        rw [← not_or]
        intro hskip
        rw [pushPart_skipped hskip] at hpush
        exact absurd (congrArg List.length hpush) (by simp)
      refine ⟨⟨hpart, hkept⟩, ?_⟩
      by_cases hparent : part = parentPart
      · subst hparent
        -- a step up stays on a stack only from below, or on another one
        cases names with
        | nil =>
          refine ⟨[], n + 1, rfl, List.not_mem_nil, fun hrooted => ?_⟩
          rw [hroot hrooted, hrooted] at hpush
          exact absurd hpush (by decide)
        | cons top names =>
          rw [List.mem_cons, not_or] at hup
          rw [List.cons_append, pushPart_up, if_neg (Ne.symm hup.1)] at hpush
          have hlength := congrArg List.length hpush
          rw [List.length_cons, List.length_cons] at hlength
          omega
      · exact ⟨part :: names, n, rfl, by simpa using ⟨Ne.symm hparent, hup⟩, hroot⟩
    · rintro ⟨⟨hpart, hkept⟩, names, n, hstack, hup, hroot⟩
      cases names with
      | nil =>
        obtain _ | n := n
        · cases hstack
        · obtain ⟨rfl, rfl⟩ := List.cons.inj hstack
          refine ⟨?_, hkept, [], n, rfl, List.not_mem_nil, fun hrooted => absurd (hroot hrooted) (Nat.succ_ne_zero n)⟩
          cases n with
          | zero =>
            cases rooted
            · rfl
            · exact absurd (hroot rfl) (by decide)
          | succ n => rw [List.replicate_succ, pushPart_up, if_pos rfl]
      | cons top names =>
        obtain ⟨rfl, rfl⟩ := List.cons.inj hstack
        rw [List.mem_cons, not_or] at hup
        exact ⟨pushPart_name (not_or.2 hpart) (Ne.symm hup.1), hkept, names, n, rfl, hup.2, hroot⟩

/-- **The pieces of a path that is put together from components are those of the components.** -/
theorem walk_intercalate {rooted : Bool} : ∀ (parts stack : List (List Char)),
    walk rooted stack (['/'].intercalate parts) = parts.foldl (walk rooted) stack
  | [], _                  => walk_nil
  | [part], stack          => by rw [List.intercalate_singleton]; rfl
  | part :: next :: parts, stack => by
    rw [List.intercalate_cons_cons, List.append_assoc, List.singleton_append, walk_append_slash, walk_intercalate (next :: parts)]
    rfl

end Lexical

namespace Route

open Lexical (walk IsStack parentPart)

/-! ## What a route looks like -/

/-- **A row of components**: steps up first, names behind them, single slashes between them. -/
structure IsRow (route : String) (parts : List String) : Prop where
  ne_nil : parts ≠ []
  eq : route = "/".intercalate parts
  kept : ∀ s ∈ parts, s ≠ "" ∧ s ≠ "." ∧ '/' ∉ s.toList
  ups_first : ∃ n names, parts = List.replicate n ".." ++ names ∧ ".." ∉ names
  head?_ne : route.toList.head? ≠ some '/'
  getLast?_ne : route.toList.getLast? ≠ some '/'
  backslash_notMem : '\\' ∉ route.toList

/-- **The form of a route.** -/
def IsCanonical (route : String) : Prop := route = "/" ∨ ∃ parts, IsRow route parts

theorem backslash_notMem_slashed (s : List Char) : '\\' ∉ slashed s := by
  rw [slashed, List.mem_map]
  rintro ⟨c, -, hc⟩
  split at hc
  · exact absurd hc (by decide)
  · rename_i hne
    exact hne hc

theorem isCanonical_normalize (path : String) : IsCanonical (normalize path) := by
  rw [normalize_eq]
  split
  · exact .inl rfl
  · rename_i hne
    have hproper := isProper_names path
    obtain ⟨hkept, stack, n, hstack, hup, -⟩ := Lexical.isStack_iff.1 (Lexical.isStack_normalParts (slashed path.toList))
    have hparts : Lexical.normalParts (slashed path.toList) = List.replicate n parentPart ++ stack.reverse := by
      rw [← List.reverse_reverse (Lexical.normalParts _), hstack, List.reverse_append, List.reverse_replicate]
    refine .inr ⟨names path, {
      ne_nil := hne
      eq := rfl
      kept := fun s hs => ⟨?_, ?_, hproper.slash_notMem s hs⟩
      ups_first := ⟨n, stack.reverse.map String.ofList, ?_, ?_⟩
      head?_ne := ?_
      getLast?_ne := Path.getLast?_intercalate hne hproper
      backslash_notMem := ?_ }⟩
    · rintro rfl
      exact absurd (hproper.kept _ hs) (by decide)
    · rintro rfl
      exact absurd (hproper.kept _ hs) (by decide)
    · rw [names, hparts, List.map_append, List.map_replicate]
      rfl
    · rw [List.mem_map]
      rintro ⟨part, hpart, hdots⟩
      have htext : part = parentPart := String.ofList_injective hdots
      exact hup (htext ▸ List.mem_reverse.1 hpart)
    · rw [Path.toList_intercalate_parts]
      exact Path.head?_intercalate hproper.kept hproper.slash_notMem
    · rw [toList_intercalate_names]
      exact notMem_intercalate (by decide) (Lexical.forall_normalParts (by decide) fun part hpart _ _ hmem =>
        backslash_notMem_slashed path.toList ((Text.exists_mem_splitAt (by decide) _).1 ⟨part, hpart, hmem⟩))

/-- **A route is its own route.** -/
theorem normalize_of_isCanonical {route : String} (h : IsCanonical route) : normalize route = route := by
  obtain rfl | ⟨parts, h⟩ := h
  · decide
  have hslash : ∀ s ∈ parts.map String.toList, '/' ∉ s := by
    simpa using fun s hs => (h.kept s hs).2.2
  have hstack : IsStack false (parts.map String.toList).reverse := by
    obtain ⟨n, rest, hparts, hup⟩ := h.ups_first
    refine Lexical.isStack_iff.2 ⟨fun part hpart => ?_, (rest.map String.toList).reverse, n, ?_, ?_, fun hrooted => ?_⟩
    · obtain ⟨s, hs, rfl⟩ := List.mem_map.1 (List.mem_reverse.1 hpart)
      have hkept := h.kept s hs
      exact ⟨fun e => hkept.1 (String.toList_injective e), fun e => hkept.2.1 (String.toList_injective e)⟩
    · rw [hparts, List.map_append, List.reverse_append, List.map_replicate, List.reverse_replicate]
      rfl
    · rw [List.mem_reverse, List.mem_map]
      rintro ⟨s, hs, hdots⟩
      have hup' : s = ".." := String.toList_injective hdots
      exact hup (hup' ▸ hs)
    · cases hrooted
  have hnames : names route = parts := by
    have hroot : Lexical.rootSlashes route.toList = 0 := Lexical.rootSlashes_of_head h.head?_ne
    rw [names, slashed_eq_self h.backslash_notMem, Lexical.normalParts, hroot]
    conv => lhs; rw [h.eq]
    rw [Path.toList_intercalate_parts, Text.splitAt_intercalate (by simpa using h.ne_nil) hslash]
    have hfold := Lexical.foldl_reverse_of_isStack hstack
    rw [List.reverse_reverse] at hfold
    rw [show ((0 : Nat) != 0) = false from rfl, hfold, List.reverse_reverse, List.map_map]
    simp [Function.comp_def]
  rw [normalize_eq, hnames, if_neg h.ne_nil]
  exact h.eq.symm

/-! ## Which paths share a route -/

def IsSeparator (c : Char) : Prop := c = '/' ∨ c = '\\'

/-- The path starts with a separator. -/
def IsRooted (path : List Char) : Prop := ∃ c ∈ path.head?, IsSeparator c

/-- **An ordinary component** of a path: a name. -/
structure IsName (part : List Char) : Prop where
  ne_nil : part ≠ []
  ne_dot : part ≠ ['.']
  ne_parent : part ≠ parentPart
  separator_notMem : ∀ c ∈ part, ¬ IsSeparator c

/-- **One path spelled in another way.** -/
inductive Respelled : List Char → List Char → Prop
  /-- Slashes and backslashes take each other's places. -/
  | exchanged {path path' : List Char} (h : List.Forall₂ (fun c d => c = d ∨ IsSeparator c ∧ IsSeparator d) path path') :
      Respelled path path'
  | doubled (before after : List Char) {c : Char} (hc : IsSeparator c) :
      Respelled (before ++ c :: after) (before ++ c :: c :: after)
  | closed {path : List Char} (hne : path ≠ []) {c : Char} (hc : IsSeparator c) : Respelled path (path ++ [c])
  /-- A dot, or a component and a step up, are put between components, or before or behind all of them. -/
  | inserted (before after : List (List Char)) {more : List (List Char)}
      (hmore : more = [['.']] ∨ ∃ part, IsName part ∧ more = [part, parentPart])
      (hrooted : IsRooted (['/'].intercalate (before ++ more ++ after)) ↔ IsRooted (['/'].intercalate (before ++ after))) :
      Respelled (['/'].intercalate (before ++ after)) (['/'].intercalate (before ++ more ++ after))

theorem slashed_cons (c : Char) (s : List Char) : slashed (c :: s) = (if c = '\\' then '/' else c) :: slashed s := rfl

theorem slashed_append (s s' : List Char) : slashed (s ++ s') = slashed s ++ slashed s' := List.map_append

theorem slashed_separator {c : Char} (hc : IsSeparator c) : (if c = '\\' then '/' else c) = '/' := by
  obtain rfl | rfl := hc <;> rfl

theorem slashed_intercalate : ∀ parts : List (List Char),
    slashed (['/'].intercalate parts) = ['/'].intercalate (parts.map slashed)
  | []                   => rfl
  | [part]               => by simp
  | part :: next :: rest => by
    rw [List.map_cons, List.map_cons, List.intercalate_cons_cons, List.intercalate_cons_cons, slashed_append,
      slashed_append, slashed_intercalate (next :: rest)]
    rfl

theorem isRooted_iff (path : List Char) : IsRooted path ↔ (slashed path).head? = some '/' := by
  cases path with
  | nil => simp [IsRooted, slashed]
  | cons c path =>
    rw [slashed_cons, List.head?_cons, Option.some_inj]
    by_cases hc : c = '\\' <;> simp [IsRooted, IsSeparator, hc]

theorem rootSlashes_ne_zero_iff (path : List Char) : Lexical.rootSlashes (slashed path) ≠ 0 ↔ IsRooted path := by
  rw [isRooted_iff]
  constructor
  · intro h
    by_contra hhead
    exact h (Lexical.rootSlashes_of_head hhead)
  · intro hhead
    rw [Lexical.rootSlashes_eq]
    obtain ⟨rest, hrest⟩ := List.head?_eq_some_iff.1 hhead
    rw [hrest, List.takeWhile_cons_of_pos (by decide), List.length_cons, if_neg (Nat.succ_ne_zero _)]
    split <;> decide

/-- **Two paths that lead the same way** from wherever they are read. -/
structure LeadsAlike (path path' : List Char) : Prop where
  rooted_iff : IsRooted path ↔ IsRooted path'
  walk_eq : ∀ rooted stack, walk rooted stack (slashed path) = walk rooted stack (slashed path')

theorem LeadsAlike.normalize_eq {path path' : String} (h : LeadsAlike path.toList path'.toList) :
    normalize path = normalize path' := by
  have hroot : (Lexical.rootSlashes (slashed path.toList) != 0) = (Lexical.rootSlashes (slashed path'.toList) != 0) := by
    rw [Bool.eq_iff_iff, bne_iff_ne, bne_iff_ne, rootSlashes_ne_zero_iff, rootSlashes_ne_zero_iff, h.rooted_iff]
  rw [normalize_eq_iff, names, names, Lexical.normalParts_eq, Lexical.normalParts_eq, hroot, h.walk_eq]

theorem walk_ordinary {rooted : Bool} {stack : List (List Char)} {part : List Char} (h : IsName part) :
    walk rooted (walk rooted stack part) parentPart = stack := by
  have hslash : '/' ∉ part := fun hmem => h.separator_notMem '/' hmem (.inl rfl)
  have hpart : walk rooted stack part = part :: stack := by
    rw [walk, Text.splitAt_of_notMem hslash]
    exact Lexical.pushPart_name (not_or.2 ⟨h.ne_nil, h.ne_dot⟩) h.ne_parent
  have hup : walk rooted (part :: stack) parentPart = Lexical.pushPart rooted (part :: stack) parentPart := rfl
  rw [hpart, hup, Lexical.pushPart_up, if_neg h.ne_parent]

theorem Respelled.leadsAlike {path path' : List Char} (h : Respelled path path') : LeadsAlike path path' := by
  cases h with
  | exchanged h =>
    have heq : slashed path = slashed path' := by
      induction h with
      | nil => rfl
      | cons hcd _ ih =>
        rw [slashed_cons, slashed_cons, ih]
        obtain rfl | ⟨hc, hd⟩ := hcd
        · rfl
        · rw [slashed_separator hc, slashed_separator hd]
    exact ⟨by rw [isRooted_iff, isRooted_iff, heq], fun rooted stack => by rw [heq]⟩
  | doubled before after hc =>
    refine ⟨?_, fun rooted stack => ?_⟩
    · cases before <;> exact Iff.rfl
    · have hempty : ∀ s : List Char, '/' :: '/' :: s = '/' :: ([] ++ '/' :: s) := fun _ => rfl
      rw [slashed_append, slashed_append, slashed_cons, slashed_cons, slashed_cons, slashed_separator hc, hempty,
        Lexical.walk_append_slash, Lexical.walk_append_slash, Lexical.walk_append_slash, Lexical.walk_nil]
  | closed hne hc =>
    refine ⟨?_, fun rooted stack => ?_⟩
    · rw [IsRooted, IsRooted, List.head?_append_of_ne_nil _ hne]
    · rw [slashed_append, slashed_cons, slashed_separator hc, Lexical.walk_append_slash]
      exact Lexical.walk_nil.symm
  | inserted before after hmore hrooted =>
    refine ⟨hrooted.symm, fun rooted stack => ?_⟩
    rw [slashed_intercalate, slashed_intercalate, Lexical.walk_intercalate, Lexical.walk_intercalate, List.map_append,
      List.map_append, List.map_append, List.foldl_append, List.foldl_append, List.foldl_append]
    congr 1
    obtain rfl | ⟨part, hpart, rfl⟩ := hmore
    · have hdot : walk rooted (before.map slashed |>.foldl (walk rooted) stack) ['.'] = _ := Lexical.walk_dot
      exact hdot.symm
    · have hback : '\\' ∉ part := fun hmem => hpart.separator_notMem _ hmem (.inr rfl)
      have hmap : [part, parentPart].map slashed = [part, parentPart] := by
        rw [List.map_cons, slashed_eq_self hback]
        rfl
      rw [hmap]
      exact (walk_ordinary hpart).symm

/-- **Paths that differ in spelling only share their route.** -/
theorem normalize_of_respelled {path path' : String}
    (h : Relation.EqvGen (fun p q : String => Respelled p.toList q.toList) path path') : normalize path = normalize path' := by
  induction h with
  | rel p q h              => exact h.leadsAlike.normalize_eq
  | refl p                 => rfl
  | symm p q _ ih          => exact ih.symm
  | trans p q r _ _ ih ih' => exact ih.trans ih'

/-- **Routes are canonical**: they are the texts of that form, each its own route, and paths that are one but for their
spelling have one route. -/
theorem normalize_canonical :
    (∀ path, IsCanonical (normalize path)) ∧ (∀ route, IsCanonical route ↔ normalize route = route) ∧
      (∀ path, normalize (normalize path) = normalize path) ∧
      ∀ path path', Relation.EqvGen (fun p q : String => Respelled p.toList q.toList) path path' →
        normalize path = normalize path' :=
  ⟨isCanonical_normalize,
    fun route => ⟨normalize_of_isCanonical, fun h => h ▸ isCanonical_normalize route⟩,
    fun path => normalize_of_isCanonical (isCanonical_normalize path),
    fun _ _ => normalize_of_respelled⟩

theorem normalize_canonical_team :
    IsCanonical "../docs/team" ∧ Relation.EqvGen (fun p q : String => Respelled p.toList q.toList)
      "docs/team" "docs\\old/../team" ∧ normalize "docs\\old/../team" = "docs/team" := by
  have hway : Relation.EqvGen (fun p q : String => Respelled p.toList q.toList) "docs/team" "docs\\old/../team" := by
    refine .trans _ "docs/old/../team" _ (.rel _ _ ?_) (.rel _ _ (.exchanged ?_))
    · have hmore : ["old".toList, parentPart] = [['.']] ∨
          ∃ part, IsName part ∧ ["old".toList, parentPart] = [part, parentPart] :=
        .inr ⟨"old".toList, ⟨by decide, by decide, by decide, by simp [IsSeparator]⟩, rfl⟩
      exact Respelled.inserted ["docs".toList] ["team".toList] hmore (by rw [isRooted_iff, isRooted_iff]; decide)
    · simp [IsSeparator]
  have hteam : normalize "docs/team" = "docs/team" := by decide
  refine ⟨(normalize_canonical.2.1 _).2 (by decide), hway, ?_⟩
  rw [← normalize_canonical.2.2.2 _ _ hway, hteam]

end Route
end ReactSite
