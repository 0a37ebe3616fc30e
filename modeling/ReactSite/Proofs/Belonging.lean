import ReactSite.Proofs.Filing
import ReactSite.Proofs.Hyperlinks
/-!
# Belonging — which links lead to files of the site

A link counts as internal when something is at the place that its path leads to.  For a path that stays below the source
root, that is something the source holds (`linkExists_iff`).  But a path may go up, out of the source, and what it finds
there is imported all the same: a link is classified by what the source holds unless it leads out of the source and finds
something (`isClassified_iff`).
-/
namespace ReactSite

open FileTree (pathFault?)

namespace FileTree

variable {t : FileTree} {p : Path} {loc : Location} {names : List String}

theorem exists_locate_of_descend (h : t.locate (p.descend names) = .ok loc) : ∃ base, t.locate p = .ok base := by
  obtain ⟨hfault, hfollow⟩ := locate_eq_ok.1 h
  rw [origin_descend, Path.parts_descend, follow_append_eq_ok] at hfollow
  obtain ⟨base, hbase, -⟩ := hfollow
  exact ⟨base, locate_eq_ok.2 ⟨pathFault?_of_descend hfault, hbase⟩⟩

/-- **A path of names that do not go up exists** when the file system takes it and an entry stands where it leads. -/
theorem pathExists_descend (ht : t.IsTree) (hup : ".." ∉ names) : t.pathExists (p.descend names) = true ↔
    pathFault? (p.descend names) = none ∧ ∃ base, t.locate p = .ok base ∧ (t.get? (base ++ names)).isSome = true := by
  unfold pathExists
  rw [Option.isSome_iff_exists]
  constructor
  · rintro ⟨node, hnode⟩
    obtain ⟨loc, hloc, hget⟩ := node?_eq_some.1 hnode
    obtain ⟨base, hbase⟩ := exists_locate_of_descend hloc
    obtain ⟨rfl, -⟩ := locate_names hbase hup hloc
    exact ⟨(locate_eq_ok.1 hloc).1, base, hbase, by rw [hget]; rfl⟩
  · rintro ⟨hfault, base, hbase, hsome⟩
    obtain ⟨node, hget⟩ := Option.isSome_iff_exists.1 hsome
    exact ⟨node, node?_eq_some.2 ⟨_, locate_of_get? ht hbase hfault hget, hget⟩⟩

end FileTree

namespace Surroundings

variable {site : Surroundings} {link : String}

/-- **The target of a link is in the source**: its path does not go up out of it, and it is there, or an index document
below it. -/
def HoldsTarget (site : Surroundings) (link : String) : Prop :=
  ¬ site.LeadsOut link ∧ ∃ base, site.files.locate site.sourceRoot = .ok base ∧
    ((site.files.get? (base ++ site.targetNames link)).isSome = true ∨
      (site.files.get? (base ++ (site.targetNames link ++ [indexDocument]))).isSome = true)

/-- The file system takes the paths that are looked up for a link: they have no NUL and are not too long. -/
def TakesLink (site : Surroundings) (link : String) : Prop := pathFault? ((site.target link).child indexDocument) = none

theorem linkExists_iff (hroot : site.sourceRoot.IsProper) (ht : site.files.IsTree) (hlink : ¬ site.LeadsOut link) :
    site.linkExists link = true ↔ (pathFault? (site.target link) = none ∧ ∃ base,
        site.files.locate site.sourceRoot = .ok base ∧ (site.files.get? (base ++ site.targetNames link)).isSome = true) ∨
      (site.TakesLink link ∧ ∃ base, site.files.locate site.sourceRoot = .ok base ∧
        (site.files.get? (base ++ (site.targetNames link ++ [indexDocument]))).isSome = true) := by
  have hup := parent_notMem_targetNames hlink
  have hindex : ".." ∉ site.targetNames link ++ [indexDocument] := by simpa [indexDocument] using hup
  unfold linkExists TakesLink
  rw [target_descend hroot, Path.child_descend, Bool.or_eq_true, FileTree.pathExists_descend ht hup,
    FileTree.pathExists_descend ht hindex]

theorem holdsTarget_of_linkExists (hroot : site.sourceRoot.IsProper) (ht : site.files.IsTree) (hlink : ¬ site.LeadsOut link)
    (h : site.linkExists link = true) : site.HoldsTarget link := by
  rcases (linkExists_iff hroot ht hlink).1 h with ⟨-, base, hbase, hsome⟩ | ⟨-, base, hbase, hsome⟩
  · exact ⟨hlink, base, hbase, .inl hsome⟩
  · exact ⟨hlink, base, hbase, .inr hsome⟩

theorem linkExists_of_holdsTarget (hroot : site.sourceRoot.IsProper) (ht : site.files.IsTree) (htakes : site.TakesLink link)
    (h : site.HoldsTarget link) : site.linkExists link = true := by
  obtain ⟨hlink, base, hbase, hsome | hsome⟩ := h
  · exact (linkExists_iff hroot ht hlink).2 (.inl ⟨FileTree.pathFault?_of_child htakes, base, hbase, hsome⟩)
  · exact (linkExists_iff hroot ht hlink).2 (.inr ⟨htakes, base, hbase, hsome⟩)

/-- **A link is classified by what the source holds**: it is imported, or made a navigation link, if its target is there;
otherwise it is external, literally, and nothing is imported for it. -/
structure IsClassified (site : Surroundings) (link : String) : Prop where
  elsewhere : ¬ site.HoldsTarget link → ∀ effectOnly i, resolveLink site link effectOnly i = (.external link, i)
  /-- A style sheet goes away in any case, and every other tag keeps its attributes. -/
  kept : ¬ site.HoldsTarget link → ∀ table tag, Mapping.followed? table tag = some link → ∀ i,
    (Mapping.ofTag site table tag i).2 = i ∧ (Mapping.handler? tag ≠ some .stylesheet →
      (Mapping.ofTag site table tag i).1 = ⟨tag.name, some (Attributes.passed table tag.attributes)⟩)
  imported : site.HoldsTarget link → site.TakesLink link → ∀ i,
    (∃ identifier imports, resolveLink site link false i = (.internal identifier, imports) ∧
      valueImport identifier (Naming.specifier link site.directory) ∈ imports.statements) ∧
    resolveLink site link true i = (.importOnly, i.add (effectImport (Naming.specifier link site.directory)))
  routed : site.HoldsTarget link → site.TakesLink link → ∀ table tag, Mapping.handler? tag = some .hyperlink →
    Mapping.followed? table tag = some link → ∀ i, (Mapping.ofTag site table tag i).1 =
      ⟨tag.name, some (Mapping.navigationAttributes (Mapping.linkRoute site link) (Attributes.passed table tag.attributes))⟩

end Surroundings

namespace Mapping

variable {site : Surroundings} {link : String} {table : RenameTable} {tag : Tag}

theorem ofSource_of_external {name : String} {attrs : Attributes} (h : (attrs.get? "src").filter site.isInternal = none)
    (i : Imports) : ofSource site name attrs i = (⟨name, some attrs⟩, i) := by
  obtain ⟨hkept, hvalue⟩ := resolveLink_of_none h false i
  unfold ofSource
  split
  · rename_i identifier imports hresolved
    exact absurd (by rw [hresolved]) (hvalue identifier)
  · rename_i imports hother hresolved
    rw [hresolved] at hkept
    exact congrArg _ hkept

/-- **A tag whose link leads nowhere keeps its attributes**, unless it goes away in any case; nothing is imported for it. -/
theorem ofTag_of_missing (hno : site.linkExists link = false) (hfollowed : followed? table tag = some link)
    (i : Imports) : (ofTag site table tag i).2 = i ∧ (handler? tag ≠ some .stylesheet →
      (ofTag site table tag i).1 = ⟨tag.name, some (Attributes.passed table tag.attributes)⟩) := by
  have hnone : (some link).filter site.isInternal = none := by
    rw [Option.filter_some, Surroundings.isInternal, hno, Bool.and_false, if_neg Bool.false_ne_true]
  unfold followed? at hfollowed
  cases hkind : handler? tag with
  | none => simp [hkind] at hfollowed
  | some handler =>
    rw [hkind] at hfollowed
    cases handler with
    | hyperlink =>
      have hhref : internalLink? site table "href" tag = none := (congrArg (Option.filter _) hfollowed).trans hnone
      refine ⟨?_, fun _ => ofTag_of_external hkind hhref i⟩
      rw [imports_ofTag, demand?, hkind]
      simp only [hhref, Option.map_none, Option.elim_none]
    | image =>
      have himage : ofTag site table tag i = (⟨tag.name, some (Attributes.passed table tag.attributes)⟩, i) := by
        unfold ofTag
        rw [hkind]
        exact ofSource_of_external ((congrArg (Option.filter _) hfollowed).trans hnone) i
      rw [himage]
      exact ⟨rfl, fun _ => rfl⟩
    | script =>
      have hsrc : (Attributes.passed table tag.attributes).get? "src" = some link := hfollowed
      have hscript : ofTag site table tag i = (⟨tag.name, some (Attributes.passed table tag.attributes)⟩, i) := by
        unfold ofTag ofScript
        rw [hkind]
        simp only [hsrc, Option.isNone_some, Bool.false_eq_true, if_false]
        exact ofSource_of_external ((congrArg (Option.filter _) hfollowed).trans hnone) i
      rw [hscript]
      exact ⟨rfl, fun _ => rfl⟩
    | style => cases hfollowed
    | stylesheet =>
      have hhref : internalLink? site table "href" tag = none := (congrArg (Option.filter _) hfollowed).trans hnone
      refine ⟨?_, fun hne => absurd rfl hne⟩
      rw [imports_ofTag, demand?, hkind]
      simp only [hhref, Option.map_none, Option.elim_none]

end Mapping

theorem resolveLink_of_missing {site : Surroundings} {link : String} (hlink : link ≠ "")
    (hno : site.linkExists link = false) (effectOnly : Bool) (i : Imports) :
    resolveLink site link effectOnly i = (.external link, i) := by
  unfold resolveLink
  simp only [if_neg hlink, hno, Bool.not_false, if_true]

theorem Imports.statement_mem_meet_asset (i : Imports) (s name : String) :
    valueImport (i.identify s name).1 s ∈ (i.meet (.asset s name)).statements :=
  mem_statements_add.2 (.inr rfl)

namespace Surroundings

variable {site : Surroundings} {link : String}

theorem isClassified_of_exists (hlink : link ≠ "")
    (hfound : site.HoldsTarget link → site.TakesLink link → site.linkExists link = true)
    (hmissing : ¬ site.HoldsTarget link → site.linkExists link = false) : site.IsClassified link := by
  have hinternal : site.HoldsTarget link → site.TakesLink link → (some link).filter site.isInternal = some link :=
    fun hholds htakes => Option.filter_eq_some_iff.2 ⟨rfl, by simp [isInternal, hlink, hfound hholds htakes]⟩
  exact {
    elsewhere := fun hno => resolveLink_of_missing hlink (hmissing hno)
    kept := fun hno _ _ hfollowed => Mapping.ofTag_of_missing (hmissing hno) hfollowed
    imported := fun hholds htakes i => by
      rw [resolveLink_of_some (hinternal hholds htakes), resolveLink_of_some (hinternal hholds htakes)]
      exact ⟨⟨_, _, rfl, i.statement_mem_meet_asset _ _⟩, rfl⟩
    routed := fun hholds htakes _ _ htag hfollowed i => by
      rw [Mapping.followed?, htag] at hfollowed
      exact Mapping.ofTag_of_internal htag ((congrArg (Option.filter _) hfollowed).trans (hinternal hholds htakes)) i }

/-- **A link is classified by what the source holds, unless it leads out of the source to something that is there.** -/
theorem isClassified_iff (hroot : site.sourceRoot.IsProper) (ht : site.files.IsTree) (hlink : link ≠ "") :
    site.IsClassified link ↔ ¬ (site.LeadsOut link ∧ site.linkExists link = true) := by
  constructor
  · rintro h ⟨hout, hexists⟩
    have hinternal : (some link).filter site.isInternal = some link :=
      Option.filter_eq_some_iff.2 ⟨rfl, by simp [isInternal, hlink, hexists]⟩
    have himported := resolveLink_of_some hinternal true ({} : Imports)
    -- resolved for its effect, it would be external and imported at once
    rw [h.elsewhere (fun hholds => hholds.1 hout)] at himported
    cases congrArg Prod.fst himported
  · intro hinside
    have hmissing : ¬ site.HoldsTarget link → ¬ site.linkExists link = true := fun hno hexists =>
      hno (holdsTarget_of_linkExists hroot ht (fun hout => hinside ⟨hout, hexists⟩) hexists)
    exact isClassified_of_exists hlink (fun hholds htakes => linkExists_of_holdsTarget hroot ht htakes hholds)
      fun hno => Bool.eq_false_iff.2 (hmissing hno)

/-- A site with a gallery, seen from there; a picture lies beside the site. -/
def gallery : Surroundings where
  files := ⟨[(["site"], .directory), (["site", "logo.png"], .file []), (["site", "gallery"], .directory),
    (["site", "gallery", "cover.jpg"], .file []), (["x.png"], .file [])], [], []⟩
  sourceRoot := ⟨1, ["site"]⟩
  directory := "gallery"

theorem isClassified_gallery : (∀ link ∈ ["cover.jpg", "../logo.png", "/gallery/../logo.png", "logo.png", "../../y.png"],
    gallery.IsClassified link) ∧ ¬ gallery.IsClassified "../../x.png" := by
  have hroot : gallery.sourceRoot.IsProper := Path.isProper_ofString "/site"
  have ht : gallery.files.IsTree := by decide
  have hplain : ∀ link ∈ ["cover.jpg", "../logo.png", "/gallery/../logo.png", "logo.png", "../../y.png"],
      link ≠ "" ∧ ¬ (gallery.LeadsOut link ∧ gallery.linkExists link = true) := by decide +kernel
  refine ⟨fun link hlink => (isClassified_iff hroot ht (hplain link hlink).1).2 (hplain link hlink).2, fun h => ?_⟩
  exact (isClassified_iff hroot ht (by decide)).1 h (by decide +kernel)

/-- **A picture beside the site is imported** like one of the site's own. -/
theorem imported_from_beside : ¬ gallery.HoldsTarget "../../x.png" ∧
    (resolveLink gallery "../../x.png" false {}).1 = .internal "______x_png" ∧
    (resolveLink gallery "../../x.png" false {}).2.statements = ["import ______x_png from \"../../x.png\";"] :=
  ⟨fun h => h.1 (by decide +kernel), by decide +kernel⟩

end Surroundings
end ReactSite
