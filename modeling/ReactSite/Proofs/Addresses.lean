import ReactSite.Proofs.Navigation
/-!
# Addresses — which pages share a route

A route is the list of its names, put together with slashes (`normalize_eq_iff`).  A document's names are those of its
directory and its stem, and an index document has its directory's alone.  So the routes of a pass are distinct exactly when
no two of its documents have the same address (`nodup_routes_iff`): documents that differ in their extension have, and so
have a document and the index document of a directory with its name (`shared_route_aboutShelf`).
-/
namespace ReactSite

open FileTree (IsPlain)

namespace Lexical

/-- **Names that are neither empty nor dots are a normal form.** -/
theorem normalParts_intercalate {parts : List (List Char)}
    (h : ∀ s ∈ parts, '/' ∉ s ∧ s ≠ [] ∧ s ≠ ['.'] ∧ s ≠ parentPart) : normalParts (['/'].intercalate parts) = parts := by
  have hfold : ∀ (rooted : Bool) (parts stack : List (List Char)), (∀ s ∈ parts, s ≠ [] ∧ s ≠ ['.'] ∧ s ≠ parentPart) →
      parts.foldl (pushPart rooted) stack = parts.reverse ++ stack := by
    intro rooted parts
    induction parts with
    | nil => exact fun _ _ => rfl
    | cons part parts ih =>
      intro stack hparts
      rw [List.forall_mem_cons] at hparts
      have hpush : pushPart rooted stack part = part :: stack := by
        unfold pushPart
        rw [if_neg (not_or.2 ⟨hparts.1.1, hparts.1.2.1⟩), if_pos hparts.1.2.2]
      rw [List.foldl_cons, hpush, ih _ hparts.2, List.reverse_cons, List.append_assoc, List.singleton_append]
  unfold normalParts
  by_cases hnil : parts = []
  · rw [hnil]
    rfl
  · rw [Text.splitAt_intercalate hnil fun s hs => (h s hs).1, hfold _ _ _ fun s hs => (h s hs).2, List.append_nil,
      List.reverse_reverse]

end Lexical

namespace Route

/-! ## A route and its names -/

/-- **The names of the route that a path stands for.** -/
def names (path : String) : List String := (Lexical.normalParts (slashed path.toList)).map String.ofList

theorem isProper_names (path : String) : (⟨0, names path⟩ : Path).IsProper where
  slashes_le := Nat.zero_le 2
  kept := by
    intro s hs
    obtain ⟨part, hpart, rfl⟩ := List.mem_map.1 hs
    obtain ⟨-, hempty, hdot⟩ := Lexical.part_of_mem_normalParts _ part hpart
    have hempty' : String.ofList part ≠ "" := fun e => hempty (by simpa using congrArg String.toList e)
    have hdot' : String.ofList part ≠ "." := fun e => hdot (by simpa using congrArg String.toList e)
    simp [Path.isKept, hempty', hdot']
  slash_notMem := by
    intro s hs
    obtain ⟨part, hpart, rfl⟩ := List.mem_map.1 hs
    rw [String.toList_ofList]
    exact (Lexical.part_of_mem_normalParts _ part hpart).1

theorem toList_intercalate_names (path : String) :
    ("/".intercalate (names path)).toList = ['/'].intercalate (Lexical.normalParts (slashed path.toList)) := by
  have hback : (names path).map String.toList = Lexical.normalParts (slashed path.toList) := by
    unfold names
    rw [List.map_map]
    simp [Function.comp_def]
  rw [Path.toList_intercalate_parts, hback]

theorem unslashed_replicate_append (n : Nat) {s : List Char} (hhead : s.head? ≠ some '/') (hlast : s.getLast? ≠ some '/') :
    unslashed (List.replicate n '/' ++ s) = s := by
  have hlead : (List.replicate n '/' ++ s).dropWhile (· = '/') = s.dropWhile (· = '/') := by
    rw [List.dropWhile_append_of_pos (by simp)]
  unfold unslashed
  rw [hlead, ← unslashed, unslashed_eq_self hhead hlast]

/-- **A route is its names, put together with slashes**; the one without names is the root. -/
theorem normalize_eq (path : String) :
    normalize path = if names path = [] then "/" else "/".intercalate (names path) := by
  unfold normalize normalizeList
  by_cases hempty : path.toList = []
  · rw [String.toList_eq_nil_iff.1 hempty]
    decide
  · rw [if_neg hempty]
    unfold Lexical.normalizeList
    rw [← toList_intercalate_names]
    by_cases hnames : names path = []
    · rw [hnames, if_pos rfl]
      have hroot : ∀ n ≤ 2, (unslashed (Lexical.orDot (List.replicate n '/' ++ ("/".intercalate []).toList)) = [] ∨
          unslashed (Lexical.orDot (List.replicate n '/' ++ ("/".intercalate []).toList)) = ['.']) := by decide
      rw [if_pos (hroot _ (Lexical.rootSlashes_le _))]
    · have hproper := isProper_names path
      have hhead : ("/".intercalate (names path)).toList.head? ≠ some '/' := by
        rw [Path.toList_intercalate_parts]
        exact Path.head?_intercalate hproper.kept hproper.slash_notMem
      have hne := Path.intercalate_ne_nil hnames hproper
      have hdot : ("/".intercalate (names path)).toList ≠ ['.'] := by
        intro hdot
        have hcomponents := Path.components_intercalate hnames hproper.slash_notMem
        rw [← String.ofList_toList (s := "/".intercalate (names path)), hdot] at hcomponents
        have hkept := hproper.kept "." (by rw [← hcomponents]; decide)
        exact absurd hkept (by decide)
      have hlead : List.replicate (Lexical.rootSlashes (slashed path.toList)) '/' ++
          ("/".intercalate (names path)).toList ≠ [] := List.append_ne_nil_of_right_ne_nil _ hne
      rw [Lexical.orDot, if_neg hlead, unslashed_replicate_append _ hhead (Path.getLast?_intercalate hnames hproper),
        if_neg (not_or.2 ⟨hne, hdot⟩), if_neg hnames, String.ofList_toList]

/-- **Two paths stand for one route when they have the same names.** -/
theorem normalize_eq_iff (path path' : String) : normalize path = normalize path' ↔ names path = names path' := by
  have hroot : ∀ path, names path ≠ [] → "/".intercalate (names path) ≠ "/" := by
    intro path hne hslash
    have hproper := isProper_names path
    have hcomponents := Path.components_intercalate hne hproper.slash_notMem
    rw [hslash] at hcomponents
    have hkept := hproper.kept "" (by rw [← hcomponents]; decide)
    exact absurd hkept (by decide)
  constructor
  · intro h
    rw [normalize_eq, normalize_eq] at h
    by_cases hnil : names path = [] <;> by_cases hnil' : names path' = []
    · rw [hnil, hnil']
    · rw [if_pos hnil, if_neg hnil'] at h
      exact absurd h.symm (hroot path' hnil')
    · rw [if_neg hnil, if_pos hnil'] at h
      exact absurd h (hroot path hnil)
    · rw [if_neg hnil, if_neg hnil'] at h
      rw [← Path.components_intercalate hnil (isProper_names path).slash_notMem, h,
        Path.components_intercalate hnil' (isProper_names path').slash_notMem]
  · intro h
    rw [normalize_eq, normalize_eq, h]

end Route

namespace Project

open Router (cleanDirectory entryFor)

/-! ## Documents and their addresses -/

/-- **The address of a document**, by its path relative to the source: the names of its directory and its stem, which an
index document does without. -/
def address (rel : Path) : List String :=
  Route.names (if rel.stem = "index" then cleanDirectory (directoryOf rel)
    else Lexical.join (cleanDirectory (directoryOf rel)) rel.stem)

/-- **Documents have one route exactly when they have one address.** -/
theorem route_eq_iff (rel rel' : Path) :
    (entryFor (directoryOf rel) rel.stem).route = (entryFor (directoryOf rel') rel'.stem).route ↔
      address rel = address rel' := by
  have hroute : ∀ rel : Path, (entryFor (directoryOf rel) rel.stem).route = Route.normalize
      (if rel.stem = "index" then cleanDirectory (directoryOf rel)
        else Lexical.join (cleanDirectory (directoryOf rel)) rel.stem) := by
    intro rel
    unfold entryFor Route.ofDocument
    split <;> rfl
  rw [hroute, hroute, Route.normalize_eq_iff]
  rfl

/-- **A document whose names are taken as they are**: without backslashes, and its stem is not just one dot or two. -/
structure IsOrdinary (rel : Path) : Prop where
  relative : rel.slashes = 0
  plain : ∀ s ∈ rel.parent.parts ++ [rel.stem], IsPlain s
  noBackslash : ∀ s ∈ rel.parent.parts ++ [rel.stem], '\\' ∉ s.toList

theorem directoryOf_of_relative {rel : Path} (h : rel.slashes = 0) :
    directoryOf rel = "/".intercalate rel.parent.parts := by
  unfold directoryOf
  split
  · rename_i hnil
    rw [hnil]
    decide
  · rename_i hne
    have hparent : rel.parent = ⟨0, rel.parent.parts⟩ := by
      unfold Path.parent
      rw [h]
    rw [hparent, Path.toString_of_relative hne]

theorem names_intercalate {parts : List String} (hplain : ∀ s ∈ parts, IsPlain s) (hback : ∀ s ∈ parts, '\\' ∉ s.toList) :
    Route.names ("/".intercalate parts) = parts := by
  have hnot : '\\' ∉ ("/".intercalate parts).toList := by
    rw [Path.toList_intercalate_parts]
    exact notMem_intercalate (by decide) (by simpa using hback)
  have hparts : ∀ s ∈ parts.map String.toList, '/' ∉ s ∧ s ≠ [] ∧ s ≠ ['.'] ∧ s ≠ Lexical.parentPart := by
    rw [List.forall_mem_map]
    intro s hs
    have h := hplain s hs
    refine ⟨h.slash_notMem, Path.ne_nil_of_kept h.kept, fun hdot => ?_, fun hparent => ?_⟩
    · obtain rfl : s = "." := String.toList_inj.1 hdot
      exact absurd h.kept (by decide)
    · exact h.ne_parent (String.toList_inj.1 hparent)
  unfold Route.names
  rw [Route.slashed_eq_self hnot, Path.toList_intercalate_parts, Lexical.normalParts_intercalate hparts, List.map_map]
  simp [Function.comp_def]

/-- **The first is the index document of a directory that the second has the name of**, beside that directory. -/
def IsIndexOf (rel rel' : Path) : Prop :=
  rel.stem = "index" ∧ rel'.stem ≠ "index" ∧ rel.parent.parts = rel'.parent.parts ++ [rel'.stem]

namespace IsOrdinary

variable {rel rel' : Path}

theorem address_eq (h : IsOrdinary rel) :
    address rel = rel.parent.parts ++ if rel.stem = "index" then [] else [rel.stem] := by
  have hplain : ∀ s ∈ rel.parent.parts, IsPlain s := fun s hs => h.plain s (List.mem_append_left _ hs)
  have hback : ∀ s ∈ rel.parent.parts, '\\' ∉ s.toList := fun s hs => h.noBackslash s (List.mem_append_left _ hs)
  have hproper : (⟨0, rel.parent.parts⟩ : Path).IsProper :=
    ⟨by simp, fun s hs => (hplain s hs).kept, fun s hs => (hplain s hs).slash_notMem⟩
  have hdir : cleanDirectory (directoryOf rel) = "/".intercalate rel.parent.parts := by
    rw [directoryOf_of_relative h.relative]
    refine cleanDirectory_eq_self hproper ?_
    rw [Path.toList_intercalate_parts]
    exact notMem_intercalate (by decide) (by simpa using hback)
  unfold address
  rw [hdir]
  split
  · rw [names_intercalate hplain hback, List.append_nil]
  · rw [join_intercalate hproper (h.plain rel.stem (by simp)).slash_notMem, names_intercalate h.plain h.noBackslash]

/-- **Two ordinary documents have one address** when they differ at most in their extensions, or one is the index document
of a directory that the other has the name of. -/
theorem address_eq_iff (h : IsOrdinary rel) (h' : IsOrdinary rel') : address rel = address rel' ↔
    (rel.parent.parts = rel'.parent.parts ∧ rel.stem = rel'.stem) ∨ IsIndexOf rel rel' ∨ IsIndexOf rel' rel := by
  rw [h.address_eq, h'.address_eq]
  unfold IsIndexOf
  by_cases hindex : rel.stem = "index" <;> by_cases hindex' : rel'.stem = "index"
  · simp [hindex, hindex']
  · simp [hindex, hindex', Ne.symm hindex']
  · simp [hindex, hindex', eq_comm]
  · simp only [hindex, hindex', if_false, false_and, or_false]
    refine ⟨fun hsame => ?_, fun ⟨hdir, hstem⟩ => by rw [hdir, hstem]⟩
    obtain ⟨hdir, hstem⟩ := List.append_inj' hsame rfl
    exact ⟨hdir, List.singleton_injective hstem⟩

end IsOrdinary

/-! ## The routes of a pass -/

variable {p : Project} {copyStatic : Bool} {w w' : Workspace} {r : Report}

/-- The document that a visit registers a route for: one that was converted, and is not the entry document. -/
def routed? (p : Project) (v : Visit) : Option Path :=
  match p.converts v, p.relative v.before.files.current v.path with
  | true, .ok rel => if p.isEntryPath rel then none else some rel
  | _, _          => none

/-- **The documents that a pass registers routes for**, by their paths relative to the source. -/
def routedDocuments (p : Project) (copyStatic : Bool) (w : Workspace) : List Path :=
  (p.trail copyStatic w).filterMap p.routed?

theorem registered?_eq_map (v : Visit) :
    p.registered? v = (p.routed? v).map fun rel => entryFor (directoryOf rel) rel.stem := by
  unfold registered? routed?
  cases p.converts v with
  | false => rfl
  | true =>
    cases p.relative v.before.files.current v.path with
    | error f => rfl
    | ok rel =>
      simp only
      split <;> rfl

theorem entries_of_build (h : (p.build copyStatic).run.run w = (.ok r, w')) : w'.routes.entries =
    (p.routedDocuments copyStatic w).map fun rel => entryFor (directoryOf rel) rel.stem := by
  have hregistered : p.registered? = fun v => (p.routed? v).map fun rel => entryFor (directoryOf rel) rel.stem :=
    funext registered?_eq_map
  rw [(build_eq_ok.1 h).routes, walkedThrough, routes_afterAll, hregistered]
  unfold routedDocuments trail fresh Router.cleared
  rw [List.map_filterMap, List.nil_append]

/-- **The routes of a pass are distinct exactly when its documents have distinct addresses**; ordinary documents have unless
they differ at most in their extensions, or one is the index document of a directory that the other has the name of. -/
theorem nodup_routes_iff (h : (p.build copyStatic).run.run w = (.ok r, w')) :
    ((w'.routes.entries.map (·.route)).Nodup ↔
      (p.routedDocuments copyStatic w).Pairwise fun rel rel' => address rel ≠ address rel') ∧
    ∀ rel rel', IsOrdinary rel → IsOrdinary rel' → (address rel = address rel' ↔
      (rel.parent.parts = rel'.parent.parts ∧ rel.stem = rel'.stem) ∨ IsIndexOf rel rel' ∨ IsIndexOf rel' rel) := by
  refine ⟨?_, fun rel rel' => IsOrdinary.address_eq_iff⟩
  rw [entries_of_build h, List.map_map]
  unfold List.Nodup
  rw [List.pairwise_map]
  simp only [Function.comp_apply, ne_eq, route_eq_iff]

/-- A site with a page about it, and a blog. -/
def quietShelf : Workspace where
  files := ⟨[(["site"], .directory), (["site", "index.html"], .file (Text.encode "<p>")),
    (["site", "about.html"], .file (Text.encode "<p>")), (["site", "blog"], .directory),
    (["site", "blog", "index.html"], .file (Text.encode "<p>")),
    (["site", "blog", "about.html"], .file (Text.encode "<p>")), (["app"], .directory), (["app", "src"], .directory)], [], []⟩

theorem nodup_routes_quietShelf : ∃ r w', (shelfProject.build true).run.run quietShelf = (.ok r, w') ∧
    w'.routes.entries.map (·.route) = ["about", "blog/about", "blog"] ∧
    (shelfProject.routedDocuments true quietShelf).Pairwise fun rel rel' => address rel ≠ address rel' := by
  have hroutes : ((shelfProject.build true).run.run quietShelf).2.routes.entries.map (·.route) =
      ["about", "blog/about", "blog"] := by decide +kernel
  have hok : ((shelfProject.build true).run.run quietShelf).1.isOk = true := by decide +kernel
  rcases hrun : (shelfProject.build true).run.run quietShelf with ⟨f | r, w'⟩
  · rw [hrun] at hok
    cases hok
  · rw [hrun] at hroutes
    exact ⟨r, w', rfl, hroutes, (nodup_routes_iff hrun).1.1 (by rw [hroutes]; decide)⟩

/-- A site with a page and a directory of one name. -/
def aboutShelf : Workspace where
  files := ⟨[(["site"], .directory), (["site", "index.html"], .file (Text.encode "<p>")),
    (["site", "about.html"], .file (Text.encode "<p>")), (["site", "about"], .directory),
    (["site", "about", "index.html"], .file (Text.encode "<p>")),
    (["app"], .directory), (["app", "src"], .directory)], [], []⟩

/-- **A page and the index document of a directory of its name share a route**, though nothing failed. -/
theorem shared_route_aboutShelf : ∃ r w', shelfProject.Clean true aboutShelf r w' ∧
    w'.routes.entries = [⟨"about", "./About"⟩, ⟨"about", "./about/Index"⟩] ∧ ¬ (w'.routes.entries.map (·.route)).Nodup := by
  obtain ⟨r, hclean⟩ : ∃ r, shelfProject.Clean true aboutShelf r ((shelfProject.build true).run.run aboutShelf).2 :=
    clean_of_isOk ⟨rfl, rfl, rfl, rfl, rfl, rfl, rfl⟩ (Path.isProper_ofString _) (Path.isProper_ofString _) (by decide)
      (by decide +kernel)
  have hroutes : ((shelfProject.build true).run.run aboutShelf).2.routes.entries =
      [⟨"about", "./About"⟩, ⟨"about", "./about/Index"⟩] := by decide +kernel
  exact ⟨r, _, hclean, hroutes, by rw [hroutes]; decide⟩

end Project
end ReactSite
