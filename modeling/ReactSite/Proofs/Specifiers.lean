import ReactSite.Proofs.Demands
import ReactSite.Proofs.Locality
/-!
# Specifiers — an import names the file that was looked for

Whether a link is internal is found out at one path, and the import that is written for it names another text, which is
read from the page's directory.  A normal form is a stack that pushing its own parts builds up again
(`foldl_take_normalParts`), and steps up take the names of a directory off again (`foldl_climb`).  So the way from a
directory to a path ends at the path (`foldl_wayParts`), and both texts lead to one place (`normalize_join_specifier`).
-/
namespace ReactSite
namespace Lexical

/-! ## The stack of a normal form -/

section

variable {rooted : Bool} {stack : List (List Char)} {part : List Char}

theorem pushPart_skipped (h : part = [] ∨ part = ['.']) : pushPart rooted stack part = stack := by
  unfold pushPart
  rw [if_pos h]

theorem pushPart_name (hkept : ¬ (part = [] ∨ part = ['.'])) (hup : part ≠ parentPart) :
    pushPart rooted stack part = part :: stack := by
  unfold pushPart
  rw [if_neg hkept, if_pos hup]

theorem pushPart_up (top : List Char) (below : List (List Char)) : pushPart rooted (top :: below) parentPart =
    if top = parentPart then parentPart :: top :: below else below := by
  unfold pushPart
  rw [if_neg (by decide), if_neg (not_not.2 rfl)]

end

/-- **A stack that its own parts build up again**: each of them, pushed on what is below it, stays on top. -/
def IsStack (rooted : Bool) : List (List Char) → Prop
  | []            => True
  | part :: below => pushPart rooted below part = part :: below ∧ IsStack rooted below

variable {rooted : Bool} {stack : List (List Char)}

theorem isStack_pushPart (part : List Char) (h : IsStack rooted stack) : IsStack rooted (pushPart rooted stack part) := by
  by_cases hkept : part = [] ∨ part = ['.']
  · rwa [pushPart_skipped hkept]
  by_cases hup : part = parentPart
  · subst hup
    cases stack with
    | nil =>
      cases rooted
      · exact ⟨by decide, trivial⟩
      · exact trivial
    | cons top below =>
      have hpush : pushPart rooted (top :: below) parentPart =
          if top = parentPart then parentPart :: top :: below else below := pushPart_up top below
      split at hpush
      · rw [hpush]
        exact ⟨hpush, h⟩
      · rw [hpush]
        exact h.2
  · have hpush : pushPart rooted stack part = part :: stack := pushPart_name hkept hup
    rw [hpush]
    exact ⟨hpush, h⟩

theorem isStack_foldl : ∀ (parts : List (List Char)) {stack : List (List Char)}, IsStack rooted stack →
    IsStack rooted (parts.foldl (pushPart rooted) stack)
  | [], _, h            => h
  | part :: parts, _, h => isStack_foldl parts (isStack_pushPart part h)

theorem foldl_reverse_of_isStack : ∀ {stack : List (List Char)}, IsStack rooted stack →
    stack.reverse.foldl (pushPart rooted) [] = stack
  | [], _            => rfl
  | part :: below, h => by
    rw [List.reverse_cons, List.foldl_append, foldl_reverse_of_isStack h.2]
    exact h.1

theorem isStack_of_append : ∀ (top : List (List Char)) {below : List (List Char)}, IsStack rooted (top ++ below) →
    IsStack rooted below
  | [], _, h       => h
  | _ :: top, _, h => isStack_of_append top h.2

theorem isStack_normalParts (path : List Char) : IsStack (rootSlashes path != 0) (normalParts path).reverse := by
  unfold normalParts
  rw [List.reverse_reverse]
  exact isStack_foldl _ trivial

/-- **Pushing parts of a normal form, from the first on, builds them up again.** -/
theorem foldl_take_normalParts (path : List Char) (n : Nat) :
    ((normalParts path).take n).foldl (pushPart (rootSlashes path != 0)) [] = ((normalParts path).take n).reverse := by
  have hlower : IsStack (rootSlashes path != 0) ((normalParts path).take n).reverse := by
    apply isStack_of_append ((normalParts path).drop n).reverse
    rw [← List.reverse_append, List.take_append_drop]
    exact isStack_normalParts path
  have hagain := foldl_reverse_of_isStack hlower
  rwa [List.reverse_reverse] at hagain

/-- **As many steps up as there are names on top of a stack take these off.** -/
theorem foldl_climb : ∀ {names : List (List Char)} (below : List (List Char)), parentPart ∉ names →
    (List.replicate names.length parentPart).foldl (pushPart rooted) (names ++ below) = below
  | [], _, _                => rfl
  | name :: names, below, h => by
    rw [List.mem_cons, not_or] at h
    rw [List.length_cons, List.replicate_succ, List.foldl_cons, List.cons_append, pushPart_up, if_neg (Ne.symm h.1)]
    exact foldl_climb below h.2

theorem parentPart_notMem_normalParts {path : List Char} (h : parentPart ∉ Text.splitAt '/' path) :
    parentPart ∉ normalParts path := by
  have hfold : ∀ (parts stack : List (List Char)), parentPart ∉ parts → parentPart ∉ stack →
      parentPart ∉ parts.foldl (pushPart (rootSlashes path != 0)) stack := by
    intro parts
    induction parts with
    | nil => exact fun _ _ hstack => hstack
    | cons part parts ih =>
      intro stack hparts hstack
      rw [List.mem_cons, not_or] at hparts
      apply ih _ hparts.2
      by_cases hkept : part = [] ∨ part = ['.']
      · rwa [pushPart_skipped hkept]
      · rw [pushPart_name hkept (Ne.symm hparts.1), List.mem_cons, not_or]
        exact ⟨hparts.1, hstack⟩
  unfold normalParts
  rw [List.mem_reverse]
  exact hfold _ [] h List.not_mem_nil

/-! ## Reading one path from another -/

/-- What is on the stack after the pieces of a path. -/
def walk (rooted : Bool) (stack : List (List Char)) (path : List Char) : List (List Char) :=
  (Text.splitAt '/' path).foldl (pushPart rooted) stack

theorem normalParts_eq (path : List Char) : normalParts path = (walk (rootSlashes path != 0) [] path).reverse := rfl

theorem walk_nil : walk rooted stack [] = stack := by
  have hskip : pushPart rooted stack [] = stack := pushPart_skipped (.inl rfl)
  exact hskip

theorem walk_dot : walk rooted stack ['.'] = stack := by
  have hskip : pushPart rooted stack ['.'] = stack := pushPart_skipped (.inr rfl)
  exact hskip

theorem walk_append_slash (a b : List Char) : walk rooted stack (a ++ '/' :: b) = walk rooted (walk rooted stack a) b := by
  rw [walk, Text.splitAt_append_cons, List.foldl_append]
  rfl

theorem walk_here (path : List Char) : walk rooted stack ('.' :: '/' :: path) = walk rooted stack path := by
  have hsplit : walk rooted stack (['.'] ++ '/' :: path) = walk rooted (walk rooted stack ['.']) path :=
    walk_append_slash _ _
  rwa [walk_dot] at hsplit

/-- **Reading a path from a directory goes on where the directory ends.** -/
theorem walk_joinList (dir : List Char) {path : List Char} (hpath : path.head? ≠ some '/') :
    walk rooted stack (joinList dir path) = walk rooted (walk rooted stack dir) path := by
  rw [joinList, if_neg hpath]
  by_cases hdir : dir = [] ∨ dir.getLast? = some '/'
  · rw [if_pos hdir]
    rcases hdir with rfl | hlast
    · rw [walk_nil, List.nil_append]
    · obtain ⟨init, rfl⟩ := List.getLast?_eq_some_iff.1 hlast
      rw [List.append_assoc, List.singleton_append, walk_append_slash, walk_append_slash, walk_nil]
  · rw [if_neg hdir, walk_append_slash]

theorem rootSlashes_of_head {path : List Char} (h : path.head? ≠ some '/') : rootSlashes path = 0 :=
  rootSlashes_replicate_append (Nat.zero_le 2) h

theorem rootSlashes_joinList (dir : List Char) {path : List Char} (hpath : path.head? ≠ some '/') :
    rootSlashes (joinList dir path) = rootSlashes dir := by
  rw [joinList, if_neg hpath]
  by_cases hdir : dir = [] ∨ dir.getLast? = some '/'
  · rw [if_pos hdir, rootSlashes_append _ (.inl hpath)]
  · rw [if_neg hdir]
    rw [not_or] at hdir
    have hlast : ∃ c ∈ dir, c ≠ '/' := by
      refine ⟨dir.getLast hdir.1, List.getLast_mem hdir.1, fun e => hdir.2 ?_⟩
      rw [List.getLast?_eq_some_getLast hdir.1, e]
    exact rootSlashes_append _ (.inr hlast)

theorem normalizeList_eq (path : List Char) : normalizeList path =
    orDot (List.replicate (rootSlashes path) '/' ++ ['/'].intercalate (walk (rootSlashes path != 0) [] path).reverse) := rfl

theorem normalizeList_joinList {dir path path' : List Char} (hpath : path.head? ≠ some '/') (hpath' : path'.head? ≠ some '/')
    (h : ∀ rooted stack, walk rooted stack path = walk rooted stack path') :
    normalizeList (joinList dir path) = normalizeList (joinList dir path') := by
  rw [normalizeList_eq, normalizeList_eq, rootSlashes_joinList dir hpath, rootSlashes_joinList dir hpath',
    walk_joinList dir hpath, walk_joinList dir hpath', h]

/-! ## The way from a directory to a path -/

theorem take_commonLength : ∀ a b : List (List Char), a.take (commonLength a b) = b.take (commonLength a b)
  | [], b          => by simp [commonLength]
  | _ :: _, []     => by simp [commonLength]
  | x :: a, y :: b => by
    by_cases hxy : x = y
    · rw [commonLength, if_pos hxy, List.take_succ_cons, List.take_succ_cons, take_commonLength a b, hxy]
    · rw [commonLength, if_neg hxy]
      rfl

/-- The pieces of joined parts are the parts; where nothing is left, a dot is walked. -/
theorem walk_orDot_intercalate {parts : List (List Char)} (h : ∀ s ∈ parts, '/' ∉ s ∧ s ≠ []) :
    walk rooted stack (orDot (['/'].intercalate parts)) = parts.foldl (pushPart rooted) stack := by
  cases parts with
  | nil => exact walk_dot
  | cons part parts =>
    have hne : ['/'].intercalate (part :: parts) ≠ [] := by
      have hpart := (h part List.mem_cons_self).2
      cases parts <;> simp [List.intercalate, hpart]
    rw [orDot, if_neg hne, walk, Text.splitAt_intercalate (List.cons_ne_nil _ _) fun s hs => (h s hs).1]

theorem head?_orDot_intercalate {parts : List (List Char)} (h : ∀ s ∈ parts, '/' ∉ s ∧ s ≠ []) :
    (orDot (['/'].intercalate parts)).head? ≠ some '/' := by
  cases parts with
  | nil => decide
  | cons part parts =>
    obtain ⟨hslash, hne⟩ := h part List.mem_cons_self
    obtain ⟨c, cs, rfl⟩ := List.exists_cons_of_ne_nil hne
    rw [List.mem_cons, not_or] at hslash
    cases parts <;> simp [orDot, List.intercalate, Ne.symm hslash.1]

/-- **The parts of the way from a directory to a path**: up to what both have in common, and down from there. -/
def wayParts (path start : List Char) : List (List Char) :=
  List.replicate ((normalParts start).length - commonLength (normalParts path) (normalParts start)) parentPart ++
    (normalParts path).drop (commonLength (normalParts path) (normalParts start))

theorem relativeList_eq (path start : List Char) :
    relativeList path start = orDot (['/'].intercalate (wayParts path start)) := rfl

theorem part_of_mem_wayParts (path start : List Char) : ∀ s ∈ wayParts path start, '/' ∉ s ∧ s ≠ [] := by
  intro s hs
  rcases List.mem_append.1 hs with hs | hs
  · rw [List.eq_of_mem_replicate hs]
    decide
  · obtain ⟨hslash, hne, -⟩ := part_of_mem_normalParts path s (List.mem_of_mem_drop hs)
    exact ⟨hslash, hne⟩

/-- **The way from a directory to a path, gone from the directory, ends at the path.** -/
theorem foldl_wayParts {path start : List Char} (hpath : rootSlashes path = 0) (hup : parentPart ∉ normalParts start) :
    (wayParts path start).foldl (pushPart false) (normalParts start).reverse = (normalParts path).reverse := by
  have hcommon := take_commonLength (normalParts path) (normalParts start)
  have hpush : ∀ n, ((normalParts path).take n).foldl (pushPart false) [] = ((normalParts path).take n).reverse := by
    intro n
    have htake := foldl_take_normalParts path n
    rw [hpath] at htake
    exact htake
  rw [wayParts, List.foldl_append]
  generalize commonLength (normalParts path) (normalParts start) = common at *
  -- the steps up leave of the directory what it has in common with the path
  have hclimb : (List.replicate ((normalParts start).length - common) parentPart).foldl (pushPart false)
      (normalParts start).reverse = ((normalParts path).take common).reverse := by
    have hsplit : (normalParts start).reverse =
        ((normalParts start).drop common).reverse ++ ((normalParts start).take common).reverse := by
      rw [← List.reverse_append, List.take_append_drop]
    have hnames : parentPart ∉ ((normalParts start).drop common).reverse := fun hmem =>
      hup (List.mem_of_mem_drop (List.mem_reverse.1 hmem))
    have hcount : (normalParts start).length - common = ((normalParts start).drop common).reverse.length := by
      rw [List.length_reverse, List.length_drop]
    rw [hsplit, hcount, foldl_climb _ hnames, hcommon]
  have hall := hpush (normalParts path).length
  rw [List.take_length] at hall
  calc ((normalParts path).drop common).foldl (pushPart false)
        ((List.replicate ((normalParts start).length - common) parentPart).foldl (pushPart false) (normalParts start).reverse)
      = ((normalParts path).drop common).foldl (pushPart false)
          (((normalParts path).take common).foldl (pushPart false) []) := by rw [hclimb, hpush]
    _ = (normalParts path).foldl (pushPart false) [] := by rw [← List.foldl_append, List.take_append_drop]
    _ = (normalParts path).reverse := hall

theorem normalParts_orDot (path : List Char) : normalParts (orDot path) = normalParts path := by
  by_cases h : path = []
  · rw [h]
    decide
  · rw [orDot, if_neg h]

/-- **Read from a directory, the way from there to a path is the path.** -/
theorem normalizeList_way {dir path : List Char} (hdir : dir.head? ≠ some '/') (hup : parentPart ∉ Text.splitAt '/' dir)
    (hpath : path.head? ≠ some '/') : normalizeList (joinList dir (relativeList path (orDot dir))) = normalizeList path := by
  have hparts := part_of_mem_wayParts path (orDot dir)
  have hhead : (relativeList path (orDot dir)).head? ≠ some '/' := head?_orDot_intercalate hparts
  have hnames : parentPart ∉ normalParts (orDot dir) := by
    rw [normalParts_orDot]
    exact parentPart_notMem_normalParts hup
  have hstart : walk false [] dir = (normalParts (orDot dir)).reverse := by
    rw [normalParts_orDot, normalParts_eq, List.reverse_reverse, rootSlashes_of_head hdir]
    rfl
  have hend : (walk false [] path).reverse = normalParts path := by
    rw [normalParts_eq, rootSlashes_of_head hpath]
    rfl
  rw [normalizeList_eq, normalizeList_eq, rootSlashes_joinList dir hhead, rootSlashes_of_head hdir,
    rootSlashes_of_head hpath, walk_joinList dir hhead]
  change orDot ([] ++ ['/'].intercalate (walk false (walk false [] dir) _).reverse) =
    orDot ([] ++ ['/'].intercalate (walk false [] path).reverse)
  rw [hstart, relativeList_eq, walk_orDot_intercalate hparts, foldl_wayParts (rootSlashes_of_head hpath) hnames,
    List.reverse_reverse, hend]

end Lexical

namespace Naming

theorem relativeSpecifier_prefix (s : List Char) : ['.', '/'] <+: relativeSpecifier s ∨ ['.', '.', '/'] <+: relativeSpecifier s := by
  unfold relativeSpecifier
  split
  · rename_i h
    rw [isRelativeSpecifier, Bool.or_eq_true, List.isPrefixOf_iff_prefix, List.isPrefixOf_iff_prefix] at h
    exact h
  · exact .inl ⟨s, rfl⟩

theorem head?_relativeSpecifier (s : List Char) : (relativeSpecifier s).head? ≠ some '/' := by
  intro hslash
  obtain ⟨rest, hrest⟩ | ⟨rest, hrest⟩ := relativeSpecifier_prefix s <;>
  · rw [← hrest] at hslash
    cases hslash

theorem normalizeList_relativeSpecifier (dir : List Char) {s : List Char} (hs : s.head? ≠ some '/') :
    Lexical.normalizeList (Lexical.joinList dir (relativeSpecifier s)) = Lexical.normalizeList (Lexical.joinList dir s) := by
  apply Lexical.normalizeList_joinList (head?_relativeSpecifier s) hs
  intro rooted stack
  unfold relativeSpecifier
  split
  · rfl
  · exact Lexical.walk_here s

theorem head?_withoutRoot (link : List Char) : (withoutRoot link).head? ≠ some '/' := by
  have hhead := List.head?_dropWhile_not (· = '/') link
  unfold withoutRoot Lexical.orDot
  split
  · decide
  · intro h
    rw [h] at hhead
    simp at hhead

end Naming

/-! ## One binding -/

namespace Imports

theorem identify_of_bound {i : Imports} {specifier identifier : String} (h : i.bindings.lookup specifier = some identifier)
    (name : String) : i.identify specifier name = (identifier, i) := by
  simp only [identify, h]

theorem lookup_meet_asset (i : Imports) (specifier name : String) :
    (i.meet (.asset specifier name)).bindings.lookup specifier = some (i.identify specifier name).1 := by
  rw [meet, bindings_add]
  cases h : i.bindings.lookup specifier with
  | some identifier => simp only [identify, h]
  | none => simp [identify, h, List.lookup_append]

theorem add_of_mem {i : Imports} {statement : String} (h : statement ∈ i.statements) : i.add statement = i := by
  rw [add, if_pos (by simpa using h)]

/-- **An asset that was asked for keeps its identifier**, whatever name it is asked for under, and is not imported again. -/
theorem meet_asset_again (i : Imports) (specifier name name' : String) :
    (i.meet (.asset specifier name)).identify specifier name' =
        ((i.identify specifier name).1, i.meet (.asset specifier name)) ∧
      (i.meet (.asset specifier name)).meet (.asset specifier name') = i.meet (.asset specifier name) := by
  have hidentify := identify_of_bound (lookup_meet_asset i specifier name) name'
  have hmem : valueImport (i.identify specifier name).1 specifier ∈ (i.meet (.asset specifier name)).statements :=
    mem_statements_add.2 (.inr rfl)
  refine ⟨hidentify, ?_⟩
  rw [meet.eq_def (i.meet _)]
  simp only [hidentify]
  exact add_of_mem hmem

end Imports

namespace Surroundings

variable {site : Surroundings}

/-- **A specifier, read from the directory of its page, is the path that its link was looked for at.** -/
theorem normalize_specifier (hroot : site.directory.toList.head? ≠ some '/')
    (hup : ".." ∉ Lexical.components site.directory) (link : String) :
    Lexical.normalize (Lexical.join site.directory (Naming.specifier link site.directory)) = site.sitePath link := by
  have hnames : Lexical.parentPart ∉ Text.splitAt '/' site.directory.toList := fun hmem =>
    hup (List.mem_map.2 ⟨_, hmem, by decide⟩)
  rw [Lexical.normalize, Lexical.join, Naming.specifier, String.toList_ofList, String.toList_ofList, sitePath]
  by_cases hlink : link.toList.head? = some '/'
  · have hway : (Lexical.relativeList (Naming.withoutRoot link.toList) (Lexical.orDot site.directory.toList)).head? ≠ some '/' :=
      Lexical.head?_orDot_intercalate (Lexical.part_of_mem_wayParts _ _)
    rw [if_pos hlink, if_pos hlink, Naming.normalizeList_relativeSpecifier _ hway,
      Lexical.normalizeList_way hroot hnames (Naming.head?_withoutRoot _)]
  · rw [if_neg hlink, if_neg hlink, Naming.normalizeList_relativeSpecifier _ hlink, Lexical.normalize, Lexical.join,
      String.toList_ofList]

/-- **A specifier leads where its link was looked for.**  On a page in a directory below the source root, the specifier of a
link starts with `./` or `../`, and read from that directory it is the path that was asked for.  So links with one specifier
have one target, and what is imported for the first serves the second. -/
theorem normalize_join_specifier (hroot : site.directory.toList.head? ≠ some '/')
    (hup : ".." ∉ Lexical.components site.directory) (link : String) :
    (['.', '/'] <+: (Naming.specifier link site.directory).toList ∨
      ['.', '.', '/'] <+: (Naming.specifier link site.directory).toList) ∧
    Lexical.normalize (Lexical.join site.directory (Naming.specifier link site.directory)) = site.sitePath link ∧
    ∀ link', Naming.specifier link' site.directory = Naming.specifier link site.directory →
      site.sitePath link' = site.sitePath link ∧ site.target link' = site.target link ∧
      (link ≠ "" → link' ≠ "" → site.linkExists link = true → ∀ i,
        resolveLink site (some link') false (resolveLink site (some link) false i).2 = resolveLink site (some link) false i) := by
  refine ⟨?_, normalize_specifier hroot hup link, fun link' hsame => ?_⟩
  · rw [Naming.specifier, String.toList_ofList]
    exact Naming.relativeSpecifier_prefix _
  have hpath : site.sitePath link' = site.sitePath link := by
    rw [← normalize_specifier hroot hup link', hsame, normalize_specifier hroot hup link]
  have htarget : site.target link' = site.target link := by
    rw [target, target, fullPath, fullPath, hpath]
  refine ⟨hpath, htarget, fun hne hne' hexists i => ?_⟩
  have hexists' : site.linkExists link' = true := by
    rw [← hexists, linkExists, linkExists, htarget]
  have hinternal : (some link).filter site.isInternal = some link :=
    Option.filter_eq_some_iff.2 ⟨rfl, by simp [isInternal, hne, hexists]⟩
  have hinternal' : (some link').filter site.isInternal = some link' :=
    Option.filter_eq_some_iff.2 ⟨rfl, by simp [isInternal, hne', hexists']⟩
  obtain ⟨hidentify, hmeet⟩ := i.meet_asset_again (Naming.specifier link site.directory) (Naming.identifier link)
    (Naming.identifier link')
  rw [resolveLink_of_some hinternal, resolveLink_of_some hinternal', hsame]
  simp only [Bool.false_eq_true, if_false, hidentify, hmeet]

theorem normalize_join_specifier_postsPage : Naming.specifier "/img//./logo.png" "blog/posts" = "../../img/logo.png" ∧
    Lexical.normalize (Lexical.join "blog/posts" "../../img/logo.png") = "img/logo.png" ∧
    (⟨.empty, ⟨1, ["site"]⟩, "blog/posts"⟩ : Surroundings).target "../../img/logo.png" = ⟨1, ["site", "img", "logo.png"]⟩ := by
  have hspecifier : Naming.specifier "/img//./logo.png" "blog/posts" = "../../img/logo.png" := by decide +kernel
  obtain ⟨-, hpath, hsame⟩ := @normalize_join_specifier ⟨.empty, ⟨1, ["site"]⟩, "blog/posts"⟩ (by decide) (by decide)
    "/img//./logo.png"
  obtain ⟨-, htarget, -⟩ := hsame "../../img/logo.png" (by decide +kernel)
  rw [hspecifier] at hpath
  exact ⟨hspecifier, hpath.trans (by decide +kernel), htarget.trans (by decide +kernel)⟩

end Surroundings
end ReactSite
