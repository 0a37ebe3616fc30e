import ReactSite.Proofs.Declarations
import ReactSite.Router
/-!
# Identifiers — the names under which the entry module imports its pages

A page's identifier is read off its module's path, in which everything but letters and digits looks the same, and does not
count at the start.  So two pages share an identifier exactly when their paths differ in such characters only
(`pageIdentifier_eq_iff`).  The entry module tells its pages apart exactly when no two of their paths are alike in this sense
(`tellsApart_iff`); with a hyphen in one and an underscore in the other they may be (`not_tellsApart_hyphenated`).
-/
namespace ReactSite

open Naming (IsIdentifier isWordChar identifierChar identifierList)

namespace Naming

theorem identifierChar_eq_underscore_iff (c : Char) : identifierChar c = '_' ↔ isWordChar c = false := by
  unfold identifierChar
  split
  · rename_i hword
    refine ⟨?_, fun hno => absurd hword (by simp [hno])⟩
    rintro rfl
    exact absurd hword (by decide)
  · rename_i hno
    exact iff_of_true rfl (by simpa using hno)

/-- **Two characters become the same** when they are the same, or neither is a letter or a digit. -/
theorem identifierChar_eq_iff (c d : Char) :
    identifierChar c = identifierChar d ↔ c = d ∨ (isWordChar c = false ∧ isWordChar d = false) := by
  by_cases hc : isWordChar c = true
  · by_cases hd : isWordChar d = true
    · simp [identifierChar, hc, hd]
    · have hunder := (identifierChar_eq_underscore_iff d).2 (by simpa using hd)
      rw [hunder, identifierChar_eq_underscore_iff]
      refine ⟨fun hno => absurd hc (by simp [hno]), ?_⟩
      rintro (rfl | ⟨hno, -⟩)
      · exact absurd hc hd
      · exact hno
  · have hunder := (identifierChar_eq_underscore_iff c).2 (by simpa using hc)
    have hno : isWordChar c = false := by simpa using hc
    rw [hunder, eq_comm, identifierChar_eq_underscore_iff]
    refine ⟨fun hd => .inr ⟨hno, hd⟩, ?_⟩
    rintro (rfl | ⟨-, hd⟩)
    · exact hno
    · exact hd

/-- The leading `_` that makes an identifier of anything does not count. -/
theorem dropWhile_identifierList (s : List Char) : (identifierList s).dropWhile (· = '_') =
    (s.dropWhile (!isWordChar ·)).map identifierChar := by
  have hmap : (s.map identifierChar).dropWhile (· = '_') = (s.dropWhile (!isWordChar ·)).map identifierChar := by
    rw [List.dropWhile_map]
    congr 2
    funext c
    simp only [Function.comp_apply, identifierChar_eq_underscore_iff]
    cases isWordChar c <;> rfl
  unfold identifierList
  cases hs : s.map identifierChar with
  | nil =>
    rw [hs] at hmap
    exact hmap
  | cons c rest =>
    rw [hs] at hmap
    simp only
    split
    · rw [List.dropWhile_cons_of_pos (by decide), hmap]
    · exact hmap

end Naming

namespace Router

/-! ## Paths that give the same identifier -/

/-- The part of a module's path that its identifier is read off: from the first letter or digit behind the `./`. -/
def named (path : String) : List Char := (path.toList.drop 2).dropWhile (!isWordChar ·)

/-- **Paths that are alike**: where they differ, neither has a letter or a digit. -/
def Alike (path path' : String) : Prop :=
  List.Forall₂ (fun c d => c = d ∨ (isWordChar c = false ∧ isWordChar d = false)) (named path) (named path')

instance (path path' : String) : Decidable (Alike path path') := inferInstanceAs (Decidable (List.Forall₂ _ _ _))

theorem toList_pageIdentifier (path : String) :
    (pageIdentifier path).toList = "Page_".toList ++ (named path).map identifierChar := by
  rw [pageIdentifier, String.toList_append, Naming.dropWhile_identifierList]
  exact congrArg _ String.toList_ofList

theorem pageIdentifier_eq_iff (path path' : String) : pageIdentifier path = pageIdentifier path' ↔ Alike path path' := by
  rw [← String.toList_inj, toList_pageIdentifier, toList_pageIdentifier, List.append_cancel_left_eq]
  unfold Alike
  rw [← List.forall₂_eq_eq_eq, List.forall₂_map_left_iff, List.forall₂_map_right_iff]
  simp only [Naming.identifierChar_eq_iff]

theorem isIdentifier_pageIdentifier (path : String) : IsIdentifier (pageIdentifier path) where
  ne_nil := by
    rw [toList_pageIdentifier]
    exact List.append_ne_nil_of_left_ne_nil (by decide) _
  mem c hc := by
    rw [toList_pageIdentifier, List.mem_append] at hc
    rcases hc with hc | hc
    · have hlead : "Page_".toList.all (fun c => isWordChar c || decide (c = '_')) = true := by decide
      simpa using List.all_eq_true.1 hlead c hc
    · obtain ⟨d, -, rfl⟩ := List.mem_map.1 hc
      exact Naming.isWordChar_or_underscore d

/-! ## The imports of the entry module -/

/-- The statements that import the pages, in the text of the entry module. -/
def pageImports (t : Router) : List String := t.entries.map fun e => importLine (e, pageIdentifier e.modulePath)

/-- **The names for the pages**: the entry component's, and those that the statements declare. -/
def names (t : Router) : List String := t.entryComponent :: t.pageImports.flatMap importedNames

theorem importedNames_importLine (e : PageRoute) :
    importedNames (importLine (e, pageIdentifier e.modulePath)) = [pageIdentifier e.modulePath] :=
  Statement.importedNames_value (isIdentifier_pageIdentifier e.modulePath) e.modulePath

theorem names_eq (t : Router) : t.names = t.entryComponent :: t.entries.map fun e => pageIdentifier e.modulePath := by
  unfold names pageImports
  rw [List.flatMap_map, List.map_eq_flatMap]
  simp only [importedNames_importLine]

/-- **The entry module imports its pages and refers to each by the name of its statement.** -/
theorem entryModule_eq (t : Router) : t.entryModule =
    "\n".intercalate ([Page.reactImport, "import ReactDOM from \"react-dom/client\";",
      "import \x7b BrowserRouter, Routes, Route \x7d from \"react-router-dom\";",
      valueImport t.entryComponent ("./" ++ t.entryComponent)] ++ t.pageImports) ++
    "\n\nconst root = ReactDOM.createRoot(document.getElementById(\"root\"));\nroot.render(\n  <BrowserRouter>\n" ++
    "    <Routes>\n" ++ "\n".intercalate (t.entries.map (fun e => routeLine e.route (pageIdentifier e.modulePath)) ++
      [routeLine "*" t.entryComponent]) ++ "\n    </Routes>\n  </BrowserRouter>\n);\n" := by
  unfold entryModule render pageImports
  simp only [List.map_map]
  rfl

/-- **The entry module tells its pages apart**: no name is declared twice, and the name by which a route refers to its page
is declared by the import of that page only. -/
structure TellsApart (t : Router) : Prop where
  nodup : t.names.Nodup
  own : ∀ e ∈ t.entries, pageIdentifier e.modulePath ≠ t.entryComponent ∧
    ∀ line ∈ t.pageImports, pageIdentifier e.modulePath ∈ importedNames line →
      line = valueImport (pageIdentifier e.modulePath) e.modulePath

/-- The router of an entry component after documents were added, each by its directory and its stem. -/
def registered (entryComponent : String) (documents : List (String × String)) : Router :=
  documents.foldl (fun t document => t.add document.1 document.2) { entryComponent := entryComponent }

theorem foldl_add (documents : List (String × String)) (t : Router) :
    documents.foldl (fun t document => t.add document.1 document.2) t =
      { t with entries := t.entries ++ documents.map fun document => entryFor document.1 document.2 } := by
  induction documents generalizing t with
  | nil => simp
  | cons document documents ih =>
    rw [List.foldl_cons, ih]
    simp [add]

theorem registered_eq (entryComponent : String) (documents : List (String × String)) : registered entryComponent documents =
    { entryComponent := entryComponent, entries := documents.map fun document => entryFor document.1 document.2 } :=
  (foldl_add documents _).trans (by rw [List.nil_append])

theorem nodup_names_iff (t : Router) : t.names.Nodup ↔
    t.entries.Pairwise (fun e e' => ¬ Alike e.modulePath e'.modulePath) ∧
      ∀ e ∈ t.entries, pageIdentifier e.modulePath ≠ t.entryComponent := by
  rw [names_eq, List.nodup_cons, List.mem_map, and_comm]
  refine and_congr ?_ (by simp)
  unfold List.Nodup
  rw [List.pairwise_map]
  simp only [ne_eq, pageIdentifier_eq_iff]

theorem own_of_nodup {t : Router} (h : t.names.Nodup) {e : PageRoute} (he : e ∈ t.entries) {line : String}
    (hline : line ∈ t.pageImports) (hname : pageIdentifier e.modulePath ∈ importedNames line) :
    line = valueImport (pageIdentifier e.modulePath) e.modulePath := by
  obtain ⟨e', he', rfl⟩ := List.mem_map.1 hline
  rw [importedNames_importLine, List.mem_singleton] at hname
  rw [names_eq, List.nodup_cons] at h
  obtain rfl := List.inj_on_of_nodup_map h.2 he he' hname
  rfl

theorem tellsApart_iff_nodup (t : Router) : t.TellsApart ↔ t.names.Nodup :=
  ⟨TellsApart.nodup, fun h => ⟨h, fun _ he => ⟨((nodup_names_iff t).1 h).2 _ he, fun _ => own_of_nodup h he⟩⟩⟩

/-- **The entry module tells its pages apart exactly when no two of their paths are alike**, and the entry component has a
name of its own. -/
theorem tellsApart_iff (entryComponent : String) (documents : List (String × String)) :
    (registered entryComponent documents).TellsApart ↔
      documents.Pairwise (fun d d' => ¬ Alike (entryFor d.1 d.2).modulePath (entryFor d'.1 d'.2).modulePath) ∧
        ∀ d ∈ documents, pageIdentifier (entryFor d.1 d.2).modulePath ≠ entryComponent := by
  rw [tellsApart_iff_nodup, nodup_names_iff, registered_eq, List.pairwise_map, List.forall_mem_map]

/-- **A hyphen and an underscore are not told apart**: one identifier is declared for both pages, though their modules are
different. -/
theorem not_tellsApart_hyphenated :
    ((registered "App" [("a-b", "x"), ("a_b", "x")]).entries.map (·.modulePath)) = ["./a-b/X", "./a_b/X"] ∧
    (registered "App" [("a-b", "x"), ("a_b", "x")]).names = ["App", "Page_a_b_X", "Page_a_b_X"] ∧
    ¬ (registered "App" [("a-b", "x"), ("a_b", "x")]).TellsApart := by
  refine ⟨by decide +kernel, by decide +kernel, fun h => absurd h.nodup (by decide +kernel)⟩

end Router
end ReactSite
